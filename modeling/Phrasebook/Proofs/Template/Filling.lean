import Phrasebook.Proofs.Dictionary
import Phrasebook.Proofs.Except
import Phrasebook.Template.Render

/-!
Filling a template in: which of its errors is reported, and what the filled text is made of. What
is bound to a name decides no error and is not read as a template.
-/

namespace Phrasebook

namespace Text

/-- A character in UTF-16. Outside the basic plane it is a pair of surrogates. -/
def codeUnits (c : Char) : List UInt16 :=
  if c.toNat < 0x10000 then [.ofNat c.toNat]
  else [.ofNat (0xd800 + (c.toNat - 0x10000) / 0x400),
    .ofNat (0xdc00 + (c.toNat - 0x10000) % 0x400)]

def utf16 (text : List Char) : List UInt16 :=
  text.flatMap codeUnits

theorem length_utf16 (text : List Char) : (utf16 text).length = unitLength text := by
  induction text with
  | nil => rfl
  | cons c rest ih =>
    have units : (codeUnits c).length = unitsOf c := by
      unfold codeUnits unitsOf
      split <;> rfl
    rw [utf16, List.flatMap_cons, List.length_append, units]
    exact congrArg (unitsOf c + ·) ih

theorem unitLength_append (first second : List Char) :
    unitLength (first ++ second) = unitLength first + unitLength second := by
  induction first with
  | nil => exact (Nat.zero_add _).symm
  | cons c rest ih =>
    show unitsOf c + unitLength (rest ++ second) = unitsOf c + unitLength rest + unitLength second
    rw [ih, Nat.add_assoc]

theorem unitLength_replicate {c : Char} (single : unitsOf c = 1) (run : Nat) :
    unitLength (List.replicate run c) = run := by
  induction run with
  | zero => rfl
  | succ run ih =>
    show unitsOf c + unitLength (List.replicate run c) = run + 1
    rw [ih, single, Nat.add_comm]

end Text

/-- How a value is written: as it is displayed, as the 32-bit integer of its number, or as its
number. -/
inductive Conversion.Converts (value : Value) : Conversion → List Char → Prop where
  | text : Converts value .text value.display.toList
  | integer : Converts value .integer (Text.signedDecimal value.toNumber.toInt32)
  | number : Converts value .number value.toNumber.chars

theorem Conversion.converts_iff (conversion : Conversion) (value : Value) (written : List Char) :
    Converts value conversion written ↔ conversion.apply value = written := by
  constructor
  · intro converts
    cases converts with
    | text => rfl
    | integer => rfl
    | number => rfl
  · rintro rfl
    cases conversion with
    | text => exact .text
    | integer => exact .integer
    | number => exact .number

/-- The piece is the whole conversion of the value, behind a run of one character that makes it as
long as the width asks for. -/
def Directive.Fills (hole : Directive) (value : Value) (piece : List Char) : Prop :=
  ∃ converted pad run, hole.conversion.Converts value converted ∧
    piece = List.replicate run pad ++ converted ∧
    (pad = if hole.zeroPadded = true ∧ hole.conversion ≠ .text then '0' else ' ') ∧
    (Text.utf16 piece).length = max (hole.width.getD 0) (Text.utf16 converted).length

inductive Segment.Becomes (bindings : Bindings) : Segment → List Char → Prop where
  | literal {text : String} : Becomes bindings (.literal text) text.toList
  | directive {hole : Directive} {value : Value} {piece : List Char}
      (bound : bindings.find? hole.name = some value) (fills : hole.Fills value piece) :
      Becomes bindings (.directive hole) piece

theorem Directive.padding_eq (hole : Directive) :
    hole.padding = if hole.zeroPadded = true ∧ hole.conversion ≠ .text then '0' else ' ' := by
  obtain ⟨name, width, zeroPadded, conversion⟩ := hole
  cases zeroPadded <;> cases conversion <;> rfl

theorem Directive.unitsOf_padding (hole : Directive) : Text.unitsOf hole.padding = 1 := by
  rw [padding_eq]
  split <;> rfl

theorem Directive.fills_iff (hole : Directive) (value : Value) (piece : List Char) :
    hole.Fills value piece ↔ hole.render value = piece := by
  have units : ∀ run converted, Text.unitLength (List.replicate run hole.padding ++ converted) =
      run + Text.unitLength converted := by
    intro run converted
    rw [Text.unitLength_append, Text.unitLength_replicate hole.unitsOf_padding]
  simp only [Fills, Text.length_utf16]
  constructor
  · rintro ⟨_, pad, run, converts, rfl, character, length⟩
    obtain rfl := (Conversion.converts_iff ..).1 converts
    rw [← padding_eq] at character
    subst character
    rw [units] at length
    -- The length leaves no choice of the run.
    have same : hole.width.getD 0 - Text.unitLength (hole.conversion.apply value) = run := by
      omega
    rw [render, same]
  · rintro rfl
    have converts := (Conversion.converts_iff hole.conversion value _).2 rfl
    refine ⟨_, hole.padding, _, converts, rfl, hole.padding_eq, ?_⟩
    rw [render, units]
    omega

namespace Segment

variable {bindings : Bindings} {segment : Segment}

theorem render_eq_ok_iff {piece : List Char} :
    segment.render bindings = .ok piece ↔ Becomes bindings segment piece := by
  cases segment with
  | literal text =>
    constructor
    · rintro ⟨⟩
      exact .literal
    · rintro ⟨⟩
      rfl
  | directive hole =>
    rw [render]
    cases found : bindings.find? hole.name with
    | none =>
      constructor
      · rintro ⟨⟩
      · intro becomes
        cases becomes with
        | directive bound _ =>
          rw [found] at bound
          cases bound
    | some value =>
      simp only [Except.ok.injEq, ← Directive.fills_iff]
      constructor
      · exact .directive found
      · intro becomes
        cases becomes with
        | directive bound fills =>
          rw [found] at bound
          cases bound
          exact fills

theorem render_eq_error_iff {fault : FormatError} :
    segment.render bindings = .error fault ↔ ∃ hole, segment = .directive hole ∧
      bindings.find? hole.name = none ∧
      fault = .missingVariable hole.name (Template.suggestions hole.name bindings.keys) := by
  cases segment with
  | literal text => simp [render]
  | directive hole =>
    rw [render]
    cases found : bindings.find? hole.name with
    | none => simp [found, eq_comm]
    | some value => simp [found]

theorem exists_render_iff :
    (∃ piece, segment.render bindings = .ok piece) ↔
      ∀ hole, segment = .directive hole → hole.name ∈ bindings.keys := by
  cases segment with
  | literal text => simp [render]
  | directive hole =>
    simp only [Segment.directive.injEq, forall_eq', Dictionary.mem_keys_iff, Dictionary.contains,
      render]
    cases bindings.find? hole.name <;> simp

end Segment

namespace Template

inductive Formats (text : String) (bindings : Bindings) : Except FormatError String → Prop where
  | refused {fault : FormatError} (refused : parse text = .error fault) :
      Formats text bindings (.error fault)
  | unbound {before behind : Template} {hole : Directive}
      (read : parse text = .ok (before ++ .directive hole :: behind))
      (bound : ∀ earlier, .directive earlier ∈ before → earlier.name ∈ bindings.keys)
      (free : hole.name ∉ bindings.keys) :
      Formats text bindings
        (.error (.missingVariable hole.name (suggestions hole.name bindings.keys)))
  | filled {template : Template} {pieces : List (List Char)}
      (read : parse text = .ok template)
      (becomes : List.Forall₂ (Segment.Becomes bindings) template pieces) :
      Formats text bindings (.ok (String.ofList pieces.flatten))

theorem render_eq_ok_iff {template : Template} {bindings : Bindings} {text : String} :
    render template bindings = .ok text ↔ ∃ pieces,
      List.Forall₂ (Segment.Becomes bindings) template pieces ∧
        text = String.ofList pieces.flatten := by
  rw [render, bind_eq_ok_iff]
  simp only [mapM_eq_ok_iff, Segment.render_eq_ok_iff]
  constructor
  · rintro ⟨pieces, becomes, ⟨⟩⟩
    exact ⟨pieces, becomes, rfl⟩
  · rintro ⟨pieces, becomes, rfl⟩
    exact ⟨pieces, becomes, rfl⟩

theorem render_eq_error_iff {template : Template} {bindings : Bindings} {fault : FormatError} :
    render template bindings = .error fault ↔ ∃ before hole behind,
      template = before ++ .directive hole :: behind ∧
      (∀ earlier, .directive earlier ∈ before → earlier.name ∈ bindings.keys) ∧
      hole.name ∉ bindings.keys ∧
      fault = .missingVariable hole.name (suggestions hole.name bindings.keys) := by
  rw [render, bind_eq_error_iff, mapM_eq_error_iff]
  simp only [Segment.exists_render_iff, Segment.render_eq_error_iff,
    Dictionary.find_eq_none_iff]
  constructor
  · rintro (⟨before, segment, behind, rfl, bound, hole, rfl, free, rfl⟩ | ⟨pieces, _, ⟨⟩⟩)
    exact ⟨before, hole, behind, rfl, fun earlier member => bound _ member earlier rfl, free, rfl⟩
  · rintro ⟨before, hole, behind, rfl, bound, free, rfl⟩
    refine .inl ⟨before, .directive hole, behind, rfl, ?_, hole, rfl, free, rfl⟩
    rintro _ member earlier rfl
    exact bound earlier member

theorem format_eq_iff (text : String) (bindings : Bindings) (result : Except FormatError String) :
    format text bindings = result ↔ Formats text bindings result := by
  constructor
  · intro same
    cases read : parse text with
    | error fault =>
      rw [format, read] at same
      subst same
      exact .refused read
    | ok template =>
      have rendered : render template bindings = result := by
        rw [format, read] at same
        exact same
      cases result with
      | error fault =>
        obtain ⟨before, hole, behind, rfl, bound, free, rfl⟩ := render_eq_error_iff.1 rendered
        exact .unbound read bound free
      | ok filled =>
        obtain ⟨pieces, becomes, rfl⟩ := render_eq_ok_iff.1 rendered
        exact .filled read becomes
  · intro formats
    cases formats with
    | refused read =>
      rw [format, read]
      rfl
    | unbound read bound free =>
      rw [format, read]
      exact render_eq_error_iff.2 ⟨_, _, _, rfl, bound, free, rfl⟩
    | filled read becomes =>
      rw [format, read]
      exact render_eq_ok_iff.2 ⟨_, becomes, rfl⟩

/-- An error hangs on the template and on which names are bound, not on what is bound to them. -/
theorem Formats.of_same_keys {text : String} {bindings other : Bindings} {fault : FormatError}
    (same : other.keys = bindings.keys) (formats : Formats text bindings (.error fault)) :
    Formats text other (.error fault) := by
  cases formats with
  | refused read => exact .refused read
  | unbound read bound free =>
    rw [← same] at bound free ⊢
    exact .unbound read bound free

/-- A template is filled in as documented, and in no other way: an error of the template comes
first, then the first directive whose name is not bound; otherwise the text is put together from
the literals and from the converted values, each padded to its width in UTF-16 units. A bound text
is not read as a template: it decides no error, and stands in its piece as it is. -/
theorem format_exactly (text : String) (bindings : Bindings) :
    (∀ result, format text bindings = result ↔ Formats text bindings result) ∧
    (∀ other : Bindings, other.keys = bindings.keys → ∀ fault,
      format text other = .error fault ↔ format text bindings = .error fault) ∧
    ∀ (hole : Directive) (value : String) (piece : List Char), hole.conversion = .text →
      hole.Fills (.text value) piece → value.toList <:+ piece := by
  refine ⟨format_eq_iff text bindings, fun other same fault => ?_, ?_⟩
  · rw [format_eq_iff, format_eq_iff]
    exact ⟨Formats.of_same_keys same.symm, Formats.of_same_keys same⟩
  · rintro hole value piece conversion ⟨_, pad, run, converts, rfl, _⟩
    rw [conversion] at converts
    cases converts with
    | text => exact List.suffix_append _ _

/-- A directive in a bound text stays text, and a character outside the basic plane is two units
wide. -/
theorem format_exactly_padded :
    let bindings : Bindings := .ofList [("a", .text "%(c)q"), ("b", .text "-7.9"), ("c", .text "😀")]
    let others : Bindings := .ofList [("a", .integer 1), ("b", .integer 2), ("c", .integer 3)]
    Formats "%(a)s|%(b)04d|%(b)5f|%(c)4s" bindings (.ok "%(c)q|00-7| -7.9|  😀") ∧
      (∀ fault, format "%(a)s%(d)s%(e)s" others = .error fault ↔
        format "%(a)s%(d)s%(e)s" bindings = .error fault) ∧
      "%(c)q".toList <:+ "  %(c)q".toList := by
  intro bindings others
  have filled := (format_exactly "%(a)s|%(b)04d|%(b)5f|%(c)4s" bindings).1
  obtain ⟨_, errors, stands⟩ := format_exactly "%(a)s%(d)s%(e)s" bindings
  have fills : (Directive.mk "a" (some 7) false .text).Fills (.text "%(c)q") "  %(c)q".toList :=
    (Directive.fills_iff ..).2 (by decide)
  exact ⟨(filled _).1 (by decide +kernel), errors others (by decide), stands _ _ _ rfl fills⟩

end Template

end Phrasebook
