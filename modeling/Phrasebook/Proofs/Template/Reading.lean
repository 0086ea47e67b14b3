import Mathlib.Data.List.Chain
import Phrasebook.Proofs.Except
import Phrasebook.Proofs.Template.Matching

/-!
Reading a template by its leftmost matches: the first faulty one is reported, and if none is, each
becomes a directive and each stretch between them a literal.
-/

namespace Phrasebook.Template

/-- What is wrong with a match. The letter is judged before the width. -/
inductive Match.Faulty (hit : Match) : FormatError → Prop where
  | letter (unknown : hit.letter ∉ ['s', 'd', 'f']) :
      hit.Faulty (.unknownSpecifier hit.letter)
  | width (known : hit.letter ∈ ['s', 'd', 'f'])
      (wide : 1024 < Text.decimalValue 0 hit.width) :
      hit.Faulty (.widthTooLarge (String.ofList hit.name) (String.ofList hit.width))

def Match.Sound (hit : Match) : Prop :=
  ∀ fault, ¬hit.Faulty fault

structure Match.Denotes (hit : Match) (directive : Directive) : Prop where
  name : directive.name = String.ofList hit.name
  width : directive.width =
    if hit.width = [] then none else some (Text.decimalValue 0 hit.width)
  zeroPadded : directive.zeroPadded = true ↔ ∃ digits, hit.width = '0' :: digits
  letter : directive.conversion.letter = hit.letter

inductive Verbatim : List Char → Template → Prop where
  | empty : Verbatim [] []
  | literal {text : String} (nonempty : text ≠ "") : Verbatim text.toList [.literal text]

inductive Tells : List (List Char × Match) → List Char → Template → Prop where
  | last {tail : List Char} {segments : Template} (verbatim : Verbatim tail segments) :
      Tells [] tail segments
  | next {stretch tail : List Char} {hit : Match} {later : List (List Char × Match)}
      {segments template : Template} {directive : Directive}
      (verbatim : Verbatim stretch segments) (denotes : hit.Denotes directive)
      (others : Tells later tail template) :
      Tells ((stretch, hit) :: later) tail (segments ++ .directive directive :: template)

inductive Reads (found : List (List Char × Match)) (tail : List Char) :
    Except FormatError Template → Prop where
  | refused {before behind : List (List Char × Match)} {stretch : List Char} {hit : Match}
      {fault : FormatError} (place : found = before ++ (stretch, hit) :: behind)
      (sound : ∀ earlier ∈ before, earlier.2.Sound) (faulty : hit.Faulty fault) :
      Reads found tail (.error fault)
  | read {template : Template} (sound : ∀ each ∈ found, each.2.Sound)
      (tells : Tells found tail template) : Reads found tail (.ok template)

theorem ofLetter?_eq_some_iff (letter : Char) (conversion : Conversion) :
    Conversion.ofLetter? letter = some conversion ↔ conversion.letter = letter := by
  constructor
  · intro known
    unfold Conversion.ofLetter? at known
    split at known <;> cases known <;> rfl
  · rintro rfl
    exact conversion.ofLetter?_letter

theorem ofLetter?_eq_none_iff (letter : Char) :
    Conversion.ofLetter? letter = none ↔ letter ∉ ['s', 'd', 'f'] := by
  constructor
  · intro unknown member
    simp only [List.mem_cons, List.not_mem_nil, or_false] at member
    rcases member with rfl | rfl | rfl <;> cases unknown
  · intro unknown
    rw [Option.eq_none_iff_forall_ne_some]
    intro conversion known
    rw [ofLetter?_eq_some_iff] at known
    subst known
    cases conversion <;> simp [Conversion.letter] at unknown

theorem directive?_cases (hit : Match) :
    (∃ fault, directive? hit.name hit.width hit.letter = .error fault ∧ hit.Faulty fault) ∨
      ∃ directive, directive? hit.name hit.width hit.letter = .ok directive ∧ hit.Sound ∧
        hit.Denotes directive := by
  unfold directive?
  cases judged : Conversion.ofLetter? hit.letter with
  | none => exact .inl ⟨_, rfl, .letter ((ofLetter?_eq_none_iff hit.letter).1 judged)⟩
  | some conversion =>
    have known : hit.letter ∈ ['s', 'd', 'f'] := by
      refine Classical.byContradiction fun unknown => ?_
      rw [(ofLetter?_eq_none_iff hit.letter).2 unknown] at judged
      cases judged
    by_cases wide : maxWidth < Text.decimalValue 0 hit.width
    · simp only [if_pos wide]
      exact .inl ⟨_, rfl, .width known wide⟩
    · simp only [if_neg wide]
      have sound : hit.Sound := by
        intro fault faulty
        cases faulty with
        | letter unknown => exact unknown known
        | width _ wide' => exact wide wide'
      refine .inr ⟨_, rfl, sound, rfl, ?_, ?_, (ofLetter?_eq_some_iff _ _).1 judged⟩
      · simp only [List.isEmpty_iff]
      · cases hit.width with
        | nil => simp
        | cons first digits => simp

theorem verbatim_withLiteral (stretch : List Char) (rest : Template) :
    ∃ segments, Verbatim stretch segments ∧ withLiteral stretch rest = segments ++ rest := by
  cases stretch with
  | nil => exact ⟨[], .empty, rfl⟩
  | cons c more =>
    refine ⟨[.literal (String.ofList (c :: more))], ?_, rfl⟩
    have literal := @Verbatim.literal (String.ofList (c :: more)) (by simp)
    rwa [String.toList_ofList] at literal

theorem join_characters (literal stretch : List Char) (rest : List Item) :
    join literal (stretch.map .character ++ rest) = join (stretch.reverse ++ literal) rest := by
  induction stretch generalizing literal with
  | nil => rfl
  | cons c stretch ih =>
    rw [List.map_cons, List.cons_append, join, ih, List.reverse_cons, List.append_assoc]
    rfl

theorem join_stretch (tail : List Char) :
    ∃ segments, Verbatim tail segments ∧ join [] (itemsOf [] tail) = .ok segments := by
  obtain ⟨segments, verbatim, joined⟩ := verbatim_withLiteral tail []
  have read := join_characters [] tail []
  rw [List.append_nil] at read
  refine ⟨segments, verbatim, ?_⟩
  show join [] (tail.map .character) = _
  rw [read, join, List.append_nil, List.reverse_reverse, joined, List.append_nil]

theorem join_match (stretch : List Char) (hit : Match) (rest : List Item) :
    join [] (stretch.map .character ++ hit.item :: rest) = do
      let directive ← directive? hit.name hit.width hit.letter
      return withLiteral stretch (.directive directive :: (← join [] rest)) := by
  rw [join_characters, List.append_nil, Match.item, join, List.reverse_reverse]

/-- The items of the matches are joined to what the matches are read as. -/
theorem reads_join (found : List (List Char × Match)) (tail : List Char) :
    Reads found tail (join [] (itemsOf found tail)) := by
  induction found with
  | nil =>
    obtain ⟨segments, verbatim, joined⟩ := join_stretch tail
    rw [joined]
    exact .read (List.forall_mem_nil _) (.last verbatim)
  | cons first later ih =>
    obtain ⟨stretch, hit⟩ := first
    rw [itemsOf_cons, join_match]
    rcases directive?_cases hit with ⟨fault, judged, faulty⟩ | ⟨directive, judged, sound, denotes⟩
    · rw [judged]
      have place : (stretch, hit) :: later = [] ++ (stretch, hit) :: later := rfl
      exact .refused place (List.forall_mem_nil _) faulty
    · rw [judged]
      cases rest : join [] (itemsOf later tail) with
      | error fault =>
        rw [rest] at ih
        cases ih with
        | refused place others faulty =>
          exact .refused (congrArg ((stretch, hit) :: ·) place)
            (List.forall_mem_cons.2 ⟨sound, others⟩) faulty
      | ok template =>
        rw [rest] at ih
        cases ih with
        | read others tells =>
          obtain ⟨segments, verbatim, joined⟩ :=
            verbatim_withLiteral stretch (.directive directive :: template)
          show Reads _ tail (.ok (withLiteral stretch (.directive directive :: template)))
          rw [joined]
          exact .read (List.forall_mem_cons.2 ⟨sound, others⟩) (.next verbatim denotes tells)

/-! What a template told by matches looks like. -/

def Apart : Segment → Segment → Prop
  | .literal _, .literal _ => False
  | _, _ => True

def refill : Template → List Match → List Char
  | .literal text :: rest, hits => text.toList ++ refill rest hits
  | .directive _ :: rest, hit :: hits => hit.chars ++ refill rest hits
  | _, _ => []

theorem refill_verbatim {stretch : List Char} {segments : Template}
    (verbatim : Verbatim stretch segments) (rest : Template) (hits : List Match) :
    refill (segments ++ rest) hits = stretch ++ refill rest hits := by
  cases verbatim with
  | empty => rfl
  | literal _ => rfl

theorem Tells.refill_eq {found : List (List Char × Match)} {tail : List Char}
    {template : Template} (tells : Tells found tail template) :
    refill template (found.map Prod.snd) = textOf found tail := by
  induction tells with
  | @last tail segments verbatim =>
    have whole := refill_verbatim verbatim [] []
    rw [List.append_nil] at whole
    rw [List.map_nil, whole]
    exact List.append_nil tail
  | next verbatim _ _ ih =>
    rw [List.map_cons, refill_verbatim verbatim, refill, ih]
    simp [textOf]

theorem Tells.literal_ne_empty {found : List (List Char × Match)} {tail : List Char}
    {template : Template} (tells : Tells found tail template) :
    ∀ text, .literal text ∈ template → text ≠ "" := by
  have own : ∀ {stretch segments}, Verbatim stretch segments →
      ∀ text, Segment.literal text ∈ segments → text ≠ "" := by
    intro stretch segments verbatim text member
    cases verbatim with
    | empty => cases member
    | literal nonempty =>
      cases List.mem_singleton.1 member
      exact nonempty
  induction tells with
  | last verbatim => exact own verbatim
  | next verbatim _ _ ih =>
    intro text member
    rcases List.mem_append.1 member with here | later
    · exact own verbatim text here
    · exact ih text (List.mem_of_ne_of_mem Segment.noConfusion later)

theorem Tells.apart {found : List (List Char × Match)} {tail : List Char} {template : Template}
    (tells : Tells found tail template) : template.IsChain Apart := by
  induction tells with
  | last verbatim => cases verbatim <;> simp
  | @next _ _ _ _ segments template directive verbatim _ _ ih =>
    have behind : List.IsChain Apart (.directive directive :: template) := by
      cases template with
      | nil => simp
      | cons first rest => exact .cons_cons trivial ih
    cases verbatim with
    | empty => exact behind
    | literal _ => exact .cons_cons trivial behind

/-- A text has one row of leftmost matches that do not overlap. If one of them has an unknown
letter or else too great a width, the first such is reported; otherwise the template has a
directive for each and a literal for each stretch between them. So neighbouring literals are one,
none is empty, and the text comes back where each directive is replaced by its match. -/
theorem parse_by_leftmost_matches (text : String) :
    ∃ found tail, Leftmost text.toList found tail ∧
      (∀ others behind, Leftmost text.toList others behind → others = found ∧ behind = tail) ∧
      Reads found tail (parse text) ∧
      ∀ template, parse text = .ok template →
        template.IsChain Apart ∧ (∀ literal, .literal literal ∈ template → literal ≠ "") ∧
        refill template (found.map Prod.snd) = text.toList := by
  obtain ⟨found, tail, matched⟩ := exists_leftmost text.toList
  have reads : Reads found tail (parse text) := by
    rw [parse, parseChars, items_of_leftmost matched]
    exact reads_join found tail
  refine ⟨found, tail, matched, fun others behind => matched.unique, reads, ?_⟩
  intro template read
  rw [read] at reads
  cases reads with
  | read _ tells =>
    refine ⟨tells.apart, tells.literal_ne_empty, ?_⟩
    rw [tells.refill_eq, ← text_of_leftmost matched]

/-- A directive that is not finished leaves another that begins inside it. -/
example : (parse "%(a%(b)03d%").toOption =
    some [.literal "%(a", .directive ⟨"b", some 3, true, .integer⟩, .literal "%"] := by decide

end Phrasebook.Template
