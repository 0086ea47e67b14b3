import Phrasebook.Proofs.Text.Digits
import Phrasebook.Template.Parser

/-!
The directives of a text as the matches of a pattern: the leftmost ones, no two of which overlap,
and the text between them. They are unique, and the items of the text are read off them.
-/

namespace Phrasebook.Template

structure Match where
  name : List Char
  width : List Char
  letter : Char
  deriving DecidableEq, Repr

namespace Match

def chars (hit : Match) : List Char :=
  '%' :: '(' :: hit.name ++ ')' :: hit.width ++ [hit.letter]

/-- The pattern `%(` `[A-Za-z][A-Za-z0-9_]*` `)` `[0-9]*` `[a-z]`. -/
structure Spelled (hit : Match) : Prop where
  name : ∃ first more, hit.name = first :: more ∧ Text.isLetter first = true ∧
    ∀ c ∈ more, isNameChar c = true
  width : ∀ c ∈ hit.width, Text.isDigit c = true
  letter : isSmallLetter hit.letter = true

def item (hit : Match) : Item :=
  .directive hit.name hit.width hit.letter

theorem length_chars (hit : Match) :
    hit.chars.length = hit.name.length + hit.width.length + 4 := by
  simp only [chars, List.length_append, List.length_cons, List.length_nil]
  omega

end Match

def Begins (text : List Char) : Prop :=
  ∃ hit rest, Match.Spelled hit ∧ text = hit.chars ++ rest

def Clear (stretch rest : List Char) : Prop :=
  ∀ early late, stretch = early ++ late → late ≠ [] → ¬Begins (late ++ rest)

/-- The leftmost matches of a text that do not overlap, each with the stretch in front of it, and
the stretch behind the last. -/
inductive Leftmost : List Char → List (List Char × Match) → List Char → Prop where
  | last {tail : List Char} (clear : Clear tail []) : Leftmost tail [] tail
  | next {stretch rest tail : List Char} {hit : Match} {later : List (List Char × Match)}
      (clear : Clear stretch (hit.chars ++ rest)) (spelled : hit.Spelled)
      (others : Leftmost rest later tail) :
      Leftmost (stretch ++ (hit.chars ++ rest)) ((stretch, hit) :: later) tail

theorem isDigit_of_isSmallLetter {c : Char} (small : isSmallLetter c = true) :
    Text.isDigit c = false := by
  simp only [isSmallLetter, Bool.and_eq_true, decide_eq_true_eq] at small
  have lower : 97 ≤ c.toNat := small.1
  rw [Bool.eq_false_iff, ne_eq, Text.isDigit_iff]
  omega

theorem directiveAt_append {hit : Match} (spelled : hit.Spelled) (rest : List Char) :
    directiveAt? (hit.chars ++ rest) = some (hit.item, hit.chars.length) := by
  obtain ⟨name, width, letter⟩ := hit
  obtain ⟨⟨first, more, rfl, leading, others⟩, digits, small⟩ := spelled
  have bracket : Text.Without isNameChar (')' :: (width ++ letter :: rest)) := by
    rintro c ⟨⟩
    decide
  have ending : Text.Without Text.isDigit (letter :: rest) := by
    rintro c ⟨⟩
    exact isDigit_of_isSmallLetter small
  have whole : Match.chars ⟨first :: more, width, letter⟩ ++ rest =
      '%' :: '(' :: first :: (more ++ ')' :: (width ++ letter :: rest)) := by
    simp [Match.chars]
  rw [whole, Match.length_chars]
  simp only [directiveAt?, leading, if_true, Text.takeWhile_append others bracket,
    Text.dropWhile_append others bracket, Text.takeWhile_append digits ending,
    Text.dropWhile_append digits ending, show isSmallLetter letter = true from small]
  rfl

/-- Nothing but a match is read as a directive. -/
theorem exists_of_directiveAt {text : List Char} {found : Item × Nat}
    (read : directiveAt? text = some found) :
    ∃ hit rest, Match.Spelled hit ∧ text = hit.chars ++ rest ∧
      found = (hit.item, hit.chars.length) := by
  revert read
  fun_cases directiveAt? text with
  | case1 first rest leading name afterName bracket width letter behind ending small =>
    rintro ⟨⟩
    have all : ∀ (kind : Char → Bool) (run : List Char), ∀ c ∈ run.takeWhile kind, kind c = true :=
      fun kind run => List.all_eq_true.1 List.all_takeWhile
    have whole : '%' :: '(' :: first :: rest = Match.chars ⟨name, width, letter⟩ ++ behind := by
      calc '%' :: '(' :: first :: rest
        _ = '%' :: '(' :: first :: (rest.takeWhile isNameChar ++ ')' :: afterName) := by
          rw [← bracket, List.takeWhile_append_dropWhile]
        _ = '%' :: '(' :: name ++ ')' :: (width ++ letter :: behind) := by
          rw [← ending, List.takeWhile_append_dropWhile]
          rfl
        _ = Match.chars ⟨name, width, letter⟩ ++ behind := by simp [Match.chars]
    refine ⟨⟨name, width, letter⟩, behind, ⟨⟨first, _, rfl, leading, all _ _⟩, all _ _, small⟩,
      whole, ?_⟩
    rw [Match.length_chars]
    rfl
  | _ => rintro ⟨⟩

theorem directiveAt_eq_none {text : List Char} (unmatched : ¬Begins text) :
    directiveAt? text = none := by
  rw [Option.eq_none_iff_forall_ne_some]
  intro found read
  obtain ⟨hit, rest, spelled, whole, _⟩ := exists_of_directiveAt read
  exact unmatched ⟨hit, rest, spelled, whole⟩

theorem Match.eq_of_append {first second : Match} {rest rest' : List Char}
    (spelled : first.Spelled) (spelled' : second.Spelled)
    (same : first.chars ++ rest = second.chars ++ rest') : first = second ∧ rest = rest' := by
  have read := directiveAt_append spelled rest
  rw [same, directiveAt_append spelled' rest', Option.some.injEq, Prod.mk.injEq] at read
  have hits : first = second := by
    have items := read.1.symm
    simp only [item, Item.directive.injEq] at items
    cases first
    cases second
    simpa using items
  subst hits
  exact ⟨rfl, List.append_cancel_left same⟩

theorem begins_append {hit : Match} (spelled : hit.Spelled) (rest : List Char) :
    Begins (hit.chars ++ rest) :=
  ⟨hit, rest, spelled, rfl⟩

theorem clear_nil (rest : List Char) : Clear [] rest := by
  intro early late whole nonempty
  exact absurd (List.append_eq_nil_iff.1 whole.symm).2 nonempty

theorem clear_cons {c : Char} {stretch rest : List Char} :
    Clear (c :: stretch) rest ↔ ¬Begins (c :: (stretch ++ rest)) ∧ Clear stretch rest := by
  constructor
  · intro clear
    refine ⟨clear [] (c :: stretch) rfl (List.cons_ne_nil c stretch), ?_⟩
    intro early late whole nonempty
    exact clear (c :: early) late (congrArg (c :: ·) whole) nonempty
  · rintro ⟨here, later⟩ early late whole nonempty
    cases early with
    | nil =>
      rw [List.nil_append] at whole
      rw [← whole]
      exact here
    | cons first early =>
      exact later early late (List.cons.inj whole).2 nonempty

theorem not_clear_append {hit : Match} (spelled : hit.Spelled) (stretch rest : List Char) :
    ¬Clear (stretch ++ (hit.chars ++ rest)) [] := by
  intro clear
  apply clear stretch (hit.chars ++ rest) rfl (List.cons_ne_nil _ _)
  rw [List.append_nil]
  exact begins_append spelled rest

/-- The pattern matches nowhere left of a place up to which the text is clear. -/
theorem prefix_of_clear {stretch stretch' rest rest' : List Char}
    (same : stretch ++ rest = stretch' ++ rest') (begins : Begins rest)
    (clear : Clear stretch' rest') : stretch' <+: stretch := by
  rcases List.append_eq_append_iff.1 same with ⟨between, whole, behind⟩ | ⟨between, whole, _⟩
  · cases between with
    | nil => exact ⟨[], by simpa using whole⟩
    | cons c between =>
      rw [behind] at begins
      exact absurd begins (clear stretch (c :: between) whole (List.cons_ne_nil c between))
  · exact ⟨between, whole.symm⟩

theorem Leftmost.unique {text : List Char} {first second : List (List Char × Match)}
    {tail tail' : List Char} (left : Leftmost text first tail)
    (right : Leftmost text second tail') : second = first ∧ tail' = tail := by
  induction left generalizing second with
  | @last text clear =>
    cases right with
    | last _ => exact ⟨rfl, rfl⟩
    | next _ spelled _ => exact absurd clear (not_clear_append spelled _ _)
  | @next stretch rest _ hit _ clear spelled _ ih =>
    generalize whole : stretch ++ (hit.chars ++ rest) = text at right
    cases right with
    | last clear' =>
      rw [← whole] at clear'
      exact absurd clear' (not_clear_append spelled stretch rest)
    | @next stretch' rest' _ hit' _ clear' spelled' others' =>
      -- Neither first match stands left of the other.
      have before := prefix_of_clear whole (begins_append spelled rest) clear'
      have after := prefix_of_clear whole.symm (begins_append spelled' rest') clear
      have stretches : stretch = stretch' := after.eq_of_length_le before.length_le
      subst stretches
      obtain ⟨rfl, rfl⟩ := Match.eq_of_append spelled spelled' (List.append_cancel_left whole)
      obtain ⟨rfl, rfl⟩ := ih others'
      exact ⟨rfl, rfl⟩

theorem Leftmost.cons {c : Char} {rest tail : List Char} {found : List (List Char × Match)}
    (unmatched : ¬Begins (c :: rest)) (matched : Leftmost rest found tail) :
    ∃ found' tail', Leftmost (c :: rest) found' tail' := by
  cases matched with
  | last clear =>
    refine ⟨[], c :: rest, .last (clear_cons.2 ⟨?_, clear⟩)⟩
    rwa [List.append_nil]
  | next clear spelled others =>
    exact ⟨_, tail, .next (clear_cons.2 ⟨unmatched, clear⟩) spelled others⟩

theorem exists_leftmost (text : List Char) : ∃ found tail, Leftmost text found tail := by
  -- On the length, because a match takes many characters at once.
  induction length : text.length using Nat.strongRecOn generalizing text with
  | _ count ih =>
    by_cases begins : Begins text
    · obtain ⟨hit, rest, spelled, rfl⟩ := begins
      have shorter : rest.length < count := by
        rw [← length, List.length_append, hit.length_chars]
        omega
      obtain ⟨found, tail, matched⟩ := ih rest.length shorter rest rfl
      exact ⟨_, tail, .next (clear_nil _) spelled matched⟩
    · cases text with
      | nil => exact ⟨[], [], .last (clear_nil [])⟩
      | cons c rest =>
        obtain ⟨found, tail, matched⟩ := ih rest.length (by simp [← length]) rest rfl
        exact matched.cons begins

/-! Reading a text item by item finds its leftmost matches. -/

theorem items_match {hit : Match} (spelled : hit.Spelled) (rest : List Char) :
    items (hit.chars ++ rest) = hit.item :: items rest := by
  have read := directiveAt_append spelled rest
  have whole : hit.chars ++ rest = '%' :: (hit.chars.tail ++ rest) := rfl
  rw [items, whole, Text.scan_cons, itemAt, ← whole, read]
  show hit.item :: Text.scan itemAt ((hit.chars.tail ++ rest).drop (hit.chars.length - 1)) = _
  rw [← List.length_tail, List.drop_left]
  rfl

theorem items_character {c : Char} {rest : List Char} (unmatched : ¬Begins (c :: rest)) :
    items (c :: rest) = .character c :: items rest := by
  rw [items, Text.scan_cons, itemAt, directiveAt_eq_none unmatched]
  rfl

theorem items_clear {stretch rest : List Char} (clear : Clear stretch rest) :
    items (stretch ++ rest) = stretch.map .character ++ items rest := by
  induction stretch with
  | nil => rfl
  | cons c stretch ih =>
    obtain ⟨unmatched, later⟩ := clear_cons.1 clear
    rw [List.cons_append, items_character unmatched, ih later]
    rfl

def itemsOf (found : List (List Char × Match)) (tail : List Char) : List Item :=
  found.flatMap (fun (stretch, hit) => stretch.map .character ++ [hit.item]) ++
    tail.map .character

theorem itemsOf_cons (stretch : List Char) (hit : Match) (later : List (List Char × Match))
    (tail : List Char) :
    itemsOf ((stretch, hit) :: later) tail =
      stretch.map .character ++ hit.item :: itemsOf later tail := by
  simp [itemsOf]

theorem items_of_leftmost {text tail : List Char} {found : List (List Char × Match)}
    (matched : Leftmost text found tail) : items text = itemsOf found tail := by
  induction matched with
  | @last tail clear =>
    have read := items_clear clear
    rwa [List.append_nil, show items [] = [] from rfl, List.append_nil] at read
  | next clear spelled _ ih =>
    rw [items_clear clear, items_match spelled, ih, itemsOf_cons]

def textOf (found : List (List Char × Match)) (tail : List Char) : List Char :=
  found.flatMap (fun (stretch, hit) => stretch ++ hit.chars) ++ tail

theorem text_of_leftmost {text tail : List Char} {found : List (List Char × Match)}
    (matched : Leftmost text found tail) : text = textOf found tail := by
  induction matched with
  | last _ => rfl
  | next _ _ _ ih => simp [textOf, ih]

end Phrasebook.Template
