import Phrasebook.Proofs.Number.RoundTrip
import Phrasebook.Proofs.Template.Agreement

/-!
A number and its text are the same to a template: a directive reads the text as the number again,
rounded as the number is, and writes it alike.
-/

namespace Phrasebook

namespace Value

/-- The text of a value is as good a number as the value, a zero with its sign aside. -/
theorem toNumber_display (value : Value) :
    Equal (.number (text value.display).toNumber) (.number value.toNumber) := by
  cases value with
  | text value => exact .same _
  | integer value =>
    have read : (text (integer value).display).toNumber = (integer value).toNumber := by
      rw [toNumber, display, Number.ofText, String.toList_ofList, Number.ofChars_signedDecimal,
        toNumber]
    rw [read]
    exact .same _
  | number value =>
    have read : (text (number value).display).toNumber =
        if value = .zero true then .zero false else value := by
      rw [toNumber, display, Number.ofText, Number.Double.text, String.toList_ofList,
        Number.ofChars_chars]
    rw [read, toNumber]
    split
    · rename_i zero
      rw [zero]
      exact .zeros false true
    · exact .same _

theorem writtenAlike_display (value : Value) : WrittenAlike (text value.display) value := by
  intro conversion
  have equal := writtenAlike_of_equal value.toNumber_display conversion
  cases conversion with
  | text => rfl
  | integer => exact equal
  | number => exact equal

end Value

/-- A value and its own text are interchangeable: in every directive, and so wherever a template has
its name. -/
theorem display_interchangeable (value : Value) :
    (∀ hole : Directive, hole.render (.text value.display) = hole.render value) ∧
      ∀ (text name : String) (bindings : Bindings),
        Template.format text (bindings.insert name (.text value.display)) =
          Template.format text (bindings.insert name value) := by
  refine ⟨Directive.render_of_writtenAlike value.writtenAlike_display, fun text name bindings => ?_⟩
  refine Template.format_eq_of_same_keys (bindings.keys_insert name _ _) fun other _ => ?_
  by_cases own : other = name
  · subst own
    rw [Template.AgreeOn, Dictionary.find_insert_self, Dictionary.find_insert_self]
    exact .some value.writtenAlike_display
  · apply Template.agreeOn_of_eq
    rw [Dictionary.find_insert_of_ne _ _ own, Dictionary.find_insert_of_ne _ _ own]

end Phrasebook
