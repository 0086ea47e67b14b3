import Phrasebook.Artifact.Script
import Phrasebook.Proofs.Json.Reading

/-!
Values embedded in a script. The changes made to their JSON texts only change the layout, so the
values are read back, and what could end the script or one of its lines is gone.
-/

namespace Phrasebook.Artifact

open Json (Layout Turns Changes Spells Escapes IsSkeletal quote newLine)

theorem turns_indentLines {c : Char} (other : c ≠ '\n') : Turns indentLines [c] [c] := by
  intro rest
  show (if c = '\n' then c :: indentation else [c]) ++ indentLines rest = _
  rw [if_neg other]

theorem turns_escapeSeparators (text : List Char) :
    Turns escapeSeparators text (escapeSeparators text) :=
  fun _ => List.flatMap_append

theorem escapeSeparators_cons {c : Char} (rest : List Char)
    (other : c ≠ '\u2028' ∧ c ≠ '\u2029') :
    escapeSeparators (c :: rest) = c :: escapeSeparators rest := by
  rw [escapeSeparators, List.flatMap_cons, if_neg other.1, if_neg other.2]
  rfl

theorem breakTags_cons {c : Char} (rest : List Char) (other : c ≠ '<') :
    breakTags (c :: rest) = c :: breakTags rest := by
  rw [breakTags]
  intro tail first
  exact absurd first other

theorem breakTags_append (first : List Char) {c : Char} (rest : List Char) (other : c ≠ '/') :
    breakTags (first ++ c :: rest) = breakTags first ++ breakTags (c :: rest) := by
  induction first using breakTags.induct with
  | case1 tail ih => simpa [breakTags] using ih
  | case2 d tail noTag ih =>
    have kept : breakTags (d :: tail) = d :: breakTags tail := by
      rw [breakTags]
      exact noTag
    have keptLong : breakTags (d :: (tail ++ c :: rest)) = d :: breakTags (tail ++ c :: rest) := by
      rw [breakTags]
      intro after less start
      cases tail with
      | nil => exact other (List.cons.inj start).1
      | cons e tail => exact noTag tail less (by rw [(List.cons.inj start).1])
    rw [List.cons_append, keptLong, kept, ih, List.cons_append]
  | case3 => rfl

theorem turns_breakTags (first : List Char) :
    Turns breakTags (first ++ ['"']) (breakTags (first ++ ['"'])) := by
  intro rest
  rw [List.append_assoc, List.singleton_append, breakTags_append first rest (by decide),
    breakTags_append first [] (by decide), breakTags_cons rest (by decide), List.append_assoc]
  rfl

theorem spells_escapeSeparators {decoded text : List Char} (spells : Spells decoded text) :
    Spells decoded (escapeSeparators text) := by
  induction spells with
  | nil => exact .nil
  | @plain c decoded text quote backslash visible _ ih =>
    by_cases line : c = '\u2028'
    · subst line
      exact .escape (Json.escapes_code 2 0 2 8 (by decide) rfl (by decide) (by decide)) ih
    by_cases paragraph : c = '\u2029'
    · subst paragraph
      exact .escape (Json.escapes_code 2 0 2 9 (by decide) rfl (by decide) (by decide)) ih
    rw [escapeSeparators_cons text ⟨line, paragraph⟩]
    exact .plain quote backslash visible ih
  | @escape c escaped decoded text escapes _ ih =>
    have kept : Turns escapeSeparators escaped escaped := Turns.of_chars fun d member rest =>
      escapeSeparators_cons rest (escapes.skeletal d member).2.2
    rw [escapeSeparators_cons _ (by decide), kept]
    exact .escape escapes ih

/-- A string keeps its meaning when tags in it are broken up: a slash may be escaped. -/
theorem spells_breakTags {decoded text : List Char} (spells : Spells decoded text) :
    Spells decoded (breakTags text) := by
  induction spells with
  | nil => exact .nil
  | @plain c decoded text quote backslash visible _ ih =>
    by_cases less : c = '<'
    · subst less
      by_cases tag : ∃ tail, text = '/' :: tail
      · obtain ⟨tail, rfl⟩ := tag
        rw [breakTags_cons tail (by decide)] at ih
        -- The slash is a plain character, and an escaped slash means the same.
        cases ih with
        | plain _ _ _ spellsTail =>
          have slash : Escapes '/' ['/'] := Json.escapes_letter rfl (by decide) (by decide)
          exact .plain quote backslash visible (.escape slash spellsTail)
      · have kept : breakTags ('<' :: text) = '<' :: breakTags text := by
          rw [breakTags]
          intro tail _ start
          exact tag ⟨tail, start⟩
        rw [kept]
        exact .plain quote backslash visible ih
    · rw [breakTags_cons text less]
      exact .plain quote backslash visible ih
  | @escape c escaped decoded text escapes _ ih =>
    have kept : Turns breakTags escaped escaped := Turns.of_chars fun d member rest =>
      breakTags_cons rest (escapes.skeletal d member).2.1
    rw [breakTags_cons _ (by decide), kept]
    exact .escape escapes ih

def scriptQuote (text : List Char) : List Char :=
  breakTags (escapeSeparators (quote text))

/-- How values stand in a script, one level deeper than their texts are written. -/
def scriptLayout (pretty : Bool) : Layout :=
  ⟨fun level => if pretty then newLine indentation (level + 1) else [],
    if pretty then [' '] else [], scriptQuote⟩

theorem scriptQuote_eq (text : List Char) :
    scriptQuote text =
      '"' :: (breakTags (escapeSeparators (text.flatMap Json.escapeChar)) ++ ['"']) := by
  have separated : escapeSeparators (quote text) =
      '"' :: (escapeSeparators (text.flatMap Json.escapeChar) ++ ['"']) := by
    rw [quote, List.cons_append, escapeSeparators_cons _ (by decide), turns_escapeSeparators]
    rfl
  rw [scriptQuote, separated, breakTags_cons _ (by decide), breakTags_append _ _ (by decide)]
  rfl

theorem legible_scriptLayout (pretty : Bool) : (scriptLayout pretty).Legible where
  line level c member := by
    cases pretty with
    | true => exact Json.isBlank_newLine (Json.isBlank_spaces 4) (level + 1) c member
    | false => cases member
  gap c member := by
    cases pretty with
    | true =>
      rw [List.mem_singleton.1 member]
      decide
    | false => cases member
  quote text :=
    ⟨_, spells_breakTags (spells_escapeSeparators (Json.spells_flatMap_escapeChar text)),
      scriptQuote_eq text⟩

def separatedLayout (pretty : Bool) : Layout :=
  { scriptLayout pretty with quote := fun text => escapeSeparators (quote text) }

def movedLayout (pretty : Bool) : Layout :=
  { scriptLayout pretty with quote := quote }

theorem isSkeletal_of_isBlank {c : Char} (blank : Json.isBlank c = true) (other : c ≠ '\n') :
    IsSkeletal c := by
  rcases (Json.isBlank_iff c).1 blank with rfl | rfl | rfl | rfl
  · decide
  · exact absurd rfl other
  · decide
  · decide

theorem turns_blanks {change : List Char → List Char}
    (skeletal : ∀ c, IsSkeletal c → Turns change [c] [c]) (feed : Turns change ['\n'] ['\n'])
    {blanks : List Char} (blank : ∀ c ∈ blanks, Json.isBlank c = true) :
    Turns change blanks blanks := by
  refine Turns.of_chars fun c member => ?_
  by_cases line : c = '\n'
  · rw [line]
    exact feed
  · exact skeletal c (isSkeletal_of_isBlank (blank c member) line)

theorem changes_breakTags (pretty : Bool) :
    Changes breakTags (separatedLayout pretty) (scriptLayout pretty) := by
  have skeletal : ∀ c, IsSkeletal c → Turns breakTags [c] [c] := fun c kept rest =>
    breakTags_cons rest kept.2.1
  have feed : Turns breakTags ['\n'] ['\n'] := fun rest => breakTags_cons rest (by decide)
  have legible := legible_scriptLayout pretty
  have strings : ∀ text, Turns breakTags (escapeSeparators (quote text)) (scriptQuote text) := by
    intro text
    have ends : escapeSeparators (quote text) =
        escapeSeparators ('"' :: text.flatMap Json.escapeChar) ++ ['"'] :=
      turns_escapeSeparators ('"' :: text.flatMap Json.escapeChar) ['"']
    rw [scriptQuote, ends]
    exact turns_breakTags _
  exact ⟨skeletal, fun level => turns_blanks skeletal feed (legible.line level),
    turns_blanks skeletal feed legible.gap, strings⟩

theorem changes_escapeSeparators (pretty : Bool) :
    Changes escapeSeparators (movedLayout pretty) (separatedLayout pretty) := by
  have skeletal : ∀ c, IsSkeletal c → Turns escapeSeparators [c] [c] := fun c kept rest =>
    escapeSeparators_cons rest kept.2.2
  have feed : Turns escapeSeparators ['\n'] ['\n'] := fun rest =>
    escapeSeparators_cons rest (by decide)
  have legible := legible_scriptLayout pretty
  exact ⟨skeletal, fun level => turns_blanks skeletal feed (legible.line level),
    turns_blanks skeletal feed legible.gap, fun text => turns_escapeSeparators (quote text)⟩

theorem turns_newLine (level : Nat) :
    Turns indentLines (newLine indentation level) (newLine indentation (level + 1)) := by
  have feed : Turns indentLines ['\n'] ('\n' :: indentation) := fun _ => rfl
  have spaces : Turns indentLines (List.replicate level indentation).flatten
      (List.replicate level indentation).flatten := by
    refine Turns.of_chars fun c member => turns_indentLines ?_
    obtain ⟨indent, inside, space⟩ := List.mem_flatten.1 member
    rw [List.eq_of_mem_replicate inside] at space
    rw [List.eq_of_mem_replicate space]
    decide
  exact feed.append spaces

theorem feed_not_mem_of_spells {decoded text : List Char} (spells : Spells decoded text) :
    ∀ c ∈ text, c ≠ '\n' := by
  induction spells with
  | nil =>
    intro c member
    cases member
  | plain _ _ visible _ ih =>
    intro c member
    rcases List.mem_cons.1 member with rfl | later
    · rintro rfl
      exact absurd visible (by decide)
    · exact ih c later
  | escape escapes _ ih =>
    intro c member
    rcases List.mem_cons.1 member with rfl | later
    · decide
    · rcases List.mem_append.1 later with escaped | rest
      · exact (escapes.skeletal c escaped).1
      · exact ih c rest

theorem feed_not_mem_quote (text : List Char) : ∀ c ∈ quote text, c ≠ '\n' := by
  intro c member
  rcases List.mem_append.1 member with front | back
  · rcases List.mem_cons.1 front with rfl | inside
    · decide
    · exact feed_not_mem_of_spells (Json.spells_flatMap_escapeChar text) c inside
  · rw [List.mem_singleton.1 back]
    decide

theorem changes_indentLines :
    Changes indentLines (Layout.indented indentation) (movedLayout true) where
  skeletal _ kept := turns_indentLines kept.1
  line level := turns_newLine level
  gap := turns_indentLines (by decide)
  quote text := Turns.of_chars fun c member => turns_indentLines (feed_not_mem_quote text c member)

theorem embed_eq_write (pretty : Bool) {value : Json} (exact : value.Exact) :
    embed pretty value = (scriptLayout pretty).write 0 value := by
  have moved : (if pretty then indentLines (value.pretty 4) else value.compact) =
      (movedLayout pretty).write 0 value := by
    cases pretty with
    | false => exact (Layout.write_compact 0 value).symm
    | true =>
      have turned := (changes_indentLines.write 0 exact).whole rfl
      rwa [Layout.write_indented] at turned
  calc
    embed pretty value = breakTags (escapeSeparators ((movedLayout pretty).write 0 value)) := by
      rw [embed, moved]
    _ = breakTags ((separatedLayout pretty).write 0 value) := by
      rw [((changes_escapeSeparators pretty).write 0 exact).whole rfl]
    _ = (scriptLayout pretty).write 0 value :=
      ((changes_breakTags pretty).write 0 exact).whole rfl

end Phrasebook.Artifact
