import Phrasebook.Proofs.Artifact.Answers
import Phrasebook.Proofs.Template.Filling

/-!
What a filled template hangs on: the values of the names in its directives, and nothing else that is
bound. The count of a message in plural forms matters only for the form that is taken and for a
directive that asks for it.
-/

namespace Phrasebook

inductive Value.Equal : Value → Value → Prop where
  | same (value : Value) : Equal value value
  | zeros (first second : Bool) : Equal (.number (.zero first)) (.number (.zero second))

def Value.WrittenAlike (first second : Value) : Prop :=
  ∀ conversion : Conversion, conversion.apply first = conversion.apply second

theorem Value.writtenAlike_of_equal {first second : Value} (equal : Equal first second) :
    WrittenAlike first second := by
  have negative : ∀ conversion : Conversion,
      conversion.apply (.number (.zero true)) = conversion.apply (.number (.zero false)) := by
    intro conversion
    cases conversion <;> decide +kernel
  intro conversion
  cases equal with
  | same => rfl
  | zeros first second => cases first <;> cases second <;> simp [negative]

theorem Directive.render_of_writtenAlike {first second : Value}
    (alike : first.WrittenAlike second) (hole : Directive) :
    hole.render first = hole.render second := by
  rw [render, render, alike]

namespace Template

def Mentions (text name : String) : Prop :=
  ∃ template hole, parse text = .ok template ∧ .directive hole ∈ template ∧ hole.name = name

variable {α β : Type}

/-- The same result, or the same error, but that other names may be suggested for one that is not
bound. -/
inductive SameOutcome : Except FormatError α → Except FormatError α → Prop where
  | same (result : Except FormatError α) : SameOutcome result result
  | unbound (name : String) (suggested others : List String) :
      SameOutcome (.error (.missingVariable name suggested)) (.error (.missingVariable name others))

theorem SameOutcome.bind {first second : Except FormatError α} (same : SameOutcome first second)
    {next other : α → Except FormatError β} (later : ∀ result, SameOutcome (next result) (other result)) :
    SameOutcome (first >>= next) (second >>= other) := by
  cases same with
  | unbound name suggested others => exact .unbound name suggested others
  | same =>
    cases first with
    | error fault => exact .same (.error fault)
    | ok result => exact later result

def AgreeOn (first second : Bindings) (name : String) : Prop :=
  Option.Rel Value.WrittenAlike (first.find? name) (second.find? name)

variable {first second : Bindings} {template : Template}

theorem sameOutcome_segment {segment : Segment}
    (agree : ∀ hole, segment = .directive hole → AgreeOn first second hole.name) :
    SameOutcome (segment.render first) (segment.render second) := by
  cases segment with
  | literal text => exact .same _
  | directive hole =>
    have related := agree hole rfl
    unfold AgreeOn at related
    rw [Segment.render, Segment.render]
    cases found : first.find? hole.name with
    | none =>
      cases found' : second.find? hole.name with
      | none => exact .unbound hole.name _ _
      | some other =>
        rw [found, found'] at related
        cases related
    | some value =>
      cases found' : second.find? hole.name with
      | none =>
        rw [found, found'] at related
        cases related
      | some other =>
        rw [found, found'] at related
        cases related with
        | some alike =>
          simp only [Directive.render_of_writtenAlike alike hole]
          exact .same _

theorem sameOutcome_render
    (agree : ∀ hole, .directive hole ∈ template → AgreeOn first second hole.name) :
    SameOutcome (render template first) (render template second) := by
  have parts : SameOutcome (template.mapM (Segment.render first))
      (template.mapM (Segment.render second)) := by
    induction template with
    | nil => exact .same _
    | cons segment rest ih =>
      rw [List.mapM_cons, List.mapM_cons]
      apply SameOutcome.bind
      · exact sameOutcome_segment fun hole own => agree hole (own ▸ List.mem_cons_self)
      · intro piece
        apply SameOutcome.bind
        · exact ih fun hole member => agree hole (List.mem_cons_of_mem _ member)
        · exact fun pieces => .same _
  exact parts.bind fun pieces => .same _

/-- Bindings of the same names that agree on a template fill it in alike, down to the names that are
suggested. -/
theorem render_eq_of_same_keys (keys : first.keys = second.keys)
    (agree : ∀ hole, .directive hole ∈ template → AgreeOn first second hole.name) :
    render template first = render template second := by
  have outcome := sameOutcome_render agree
  generalize one : render template first = result at outcome ⊢
  generalize two : render template second = other at outcome ⊢
  cases outcome with
  | same => rfl
  | unbound name suggested others =>
    obtain ⟨_, _, _, _, _, _, fault⟩ := render_eq_error_iff.1 one
    obtain ⟨_, _, _, _, _, _, fault'⟩ := render_eq_error_iff.1 two
    rw [FormatError.missingVariable.injEq] at fault fault'
    rw [fault.2, fault'.2, ← fault.1, ← fault'.1, keys]

theorem sameOutcome_format {text : String}
    (agree : ∀ name, Mentions text name → AgreeOn first second name) :
    SameOutcome (format text first) (format text second) := by
  rw [format, format]
  cases read : parse text with
  | error fault => exact .same _
  | ok template =>
    exact sameOutcome_render fun hole member => agree hole.name ⟨template, hole, read, member, rfl⟩

theorem format_eq_of_same_keys {text : String} (keys : first.keys = second.keys)
    (agree : ∀ name, Mentions text name → AgreeOn first second name) :
    format text first = format text second := by
  rw [format, format]
  cases read : parse text with
  | error fault => rfl
  | ok template =>
    exact render_eq_of_same_keys keys fun hole member =>
      agree hole.name ⟨template, hole, read, member, rfl⟩

theorem agreeOn_of_eq {name : String} (same : first.find? name = second.find? name) :
    AgreeOn first second name := by
  rw [AgreeOn, same]
  cases second.find? name with
  | none => exact .none
  | some value => exact .some fun _ => rfl

theorem agreeOn_of_equal {name : String}
    (equal : Option.Rel Value.Equal (first.find? name) (second.find? name)) :
    AgreeOn first second name := by
  unfold AgreeOn
  generalize first.find? name = one at equal ⊢
  generalize second.find? name = two at equal ⊢
  cases equal with
  | some equal => exact .some (Value.writtenAlike_of_equal equal)
  | none => exact .none

end Template

namespace Resolver

variable {resolver : Resolver} {bindings : Bindings} {n m : UInt64}

theorem pluralTemplate_of_same_index (same : resolver.pluralIndex n = resolver.pluralIndex m)
    (text plural : String) :
    resolver.pluralTemplate text plural n = resolver.pluralTemplate text plural m := by
  rw [pluralTemplate, pluralTemplate, same]

theorem withCount_of_bound (bound : bindings.contains countName = true) (n : UInt64) :
    withCount bindings n = bindings :=
  if_pos bound

/-- A count is bound to its own name only, and which one it is makes no other difference. -/
theorem withCount_of_free (free : bindings.contains countName = false) (n m : UInt64) :
    (withCount bindings n).keys = (withCount bindings m).keys ∧
      ∀ name, name ≠ countName →
        (withCount bindings n).find? name = (withCount bindings m).find? name := by
  have unbound : ¬bindings.contains countName = true := by simp [free]
  rw [withCount, withCount, if_neg unbound, if_neg unbound]
  refine ⟨bindings.keys_insert countName _ _, fun name other => ?_⟩
  rw [Dictionary.find_insert_of_ne _ _ other, Dictionary.find_insert_of_ne _ _ other]

end Resolver

/-- A template that is filled in tells no more of the bindings than the values of the names in its
directives, whether they are bound, and what is suggested for one that is not. A count tells no more
than the form that it picks, unless a directive of that form asks for it and no other value is bound
to its name. -/
theorem filled_by_mentioned_names :
    (∀ (text : String) (first second : Bindings),
      (∀ name, Template.Mentions text name →
        Option.Rel Value.Equal (first.find? name) (second.find? name)) →
      Template.SameOutcome (Template.format text first) (Template.format text second)) ∧
    ∀ (resolver : Resolver) (text plural : String) (bindings : Bindings) (n m : UInt64),
      resolver.pluralIndex n = resolver.pluralIndex m →
      bindings.contains "n" = true ∨ ¬Template.Mentions (resolver.pluralTemplate text plural n) "n" →
      resolver.ngettext text plural n bindings = resolver.ngettext text plural m bindings := by
  constructor
  · intro text first second equal
    exact Template.sameOutcome_format fun name mentioned =>
      Template.agreeOn_of_equal (equal name mentioned)
  · intro resolver text plural bindings n m index asks
    rw [Resolver.ngettext, Resolver.ngettext,
      ← Resolver.pluralTemplate_of_same_index index text plural]
    cases bound : bindings.contains Resolver.countName with
    | true => rw [Resolver.withCount_of_bound bound, Resolver.withCount_of_bound bound]
    | false =>
      have silent := asks.resolve_left fun own => by cases bound.symm.trans own
      obtain ⟨keys, others⟩ := Resolver.withCount_of_free bound n m
      refine Template.format_eq_of_same_keys keys fun name mentioned => ?_
      apply Template.agreeOn_of_eq
      apply others
      rintro rfl
      exact silent mentioned

/-- Zeros of either sign beside a value that no directive asks for, and two counts of many. -/
theorem filled_by_mentioned_names_many :
    let first : Bindings := .ofList [("a", .number (.zero true)), ("key", .text "secret")]
    let second : Bindings := .ofList [("a", .number (.zero false))]
    Template.SameOutcome (Template.format "%(a)d files" first)
        (Template.format "%(a)d files" second) ∧
      Resolver.ngettext ⟨.empty, none⟩ "%(a)d file" "%(a)d files" 2 first =
        Resolver.ngettext ⟨.empty, none⟩ "%(a)d file" "%(a)d files" 3 first := by
  intro first second
  have mentioned : ∀ name, Template.Mentions "%(a)d files" name → name = "a" := by
    rintro name ⟨template, hole, read, member, rfl⟩
    have parsed : Template.parse "%(a)d files" =
        .ok [.directive ⟨"a", none, false, .integer⟩, .literal " files"] := by decide +kernel
    cases read.symm.trans parsed
    have only : hole = ⟨"a", none, false, .integer⟩ := by simpa using member
    rw [only]
  obtain ⟨filled, counted⟩ := filled_by_mentioned_names
  constructor
  · apply filled
    intro name own
    obtain rfl := mentioned name own
    have zeros : Option.Rel Value.Equal (some (.number (.zero true))) (some (.number (.zero false))) :=
      .some (.zeros true false)
    exact zeros
  · apply counted
    · rfl
    · exact .inr fun own => absurd (mentioned "n" own) (by decide)

end Phrasebook
