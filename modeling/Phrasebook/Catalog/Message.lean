import Phrasebook.Dictionary

/-!
Messages and their wordings. A message is known by its source text, or by a pair of texts if it
has plural forms.
-/

namespace Phrasebook

inductive MessageKey where
  | singular (text : String)
  | pair (singular plural : String)
  deriving DecidableEq, Repr, Inhabited

namespace MessageKey

def isPair : MessageKey → Bool
  | singular _ => false
  | pair _ _ => true

def singularText : MessageKey → String
  | singular text => text
  | pair text _ => text

def pluralText : MessageKey → String
  | singular _ => ""
  | pair _ text => text

/-- All single texts come before all pairs; both follow the order of their texts. -/
instance : Ord MessageKey where
  compare := compareLex (compareOn isPair)
    (compareLex (compareOn singularText) (compareOn pluralText))

instance : Std.TransOrd MessageKey :=
  inferInstanceAs (Std.TransCmp (compareLex (compareOn isPair)
    (compareLex (compareOn singularText) (compareOn pluralText))))

theorem eq_of_parts {first second : MessageKey} (kind : first.isPair = second.isPair)
    (singular : first.singularText = second.singularText)
    (plural : first.pluralText = second.pluralText) : first = second := by
  cases first <;> cases second <;> simp_all [isPair, singularText, pluralText]

instance : Std.LawfulEqOrd MessageKey where
  eq_of_compare {first second} same := by
    have parts : (compare first.isPair second.isPair).then
        ((compare first.singularText second.singularText).then
          (compare first.pluralText second.pluralText)) = .eq := same
    simp only [Ordering.then_eq_eq, Std.LawfulEqOrd.compare_eq_iff_eq] at parts
    exact eq_of_parts parts.1 parts.2.1 parts.2.2

end MessageKey

/-- How a message is worded: one text, or the plural forms in the order of their indices. -/
inductive Wording where
  | single (text : String)
  | forms (texts : List String)
  deriving DecidableEq, Repr, Inhabited

abbrev RawCatalog := Dictionary MessageKey Wording

/-- A catalog as it is delivered: its header and its messages. -/
structure Catalog where
  metadata : String
  messages : RawCatalog
  deriving DecidableEq

namespace Catalog

def empty : Catalog := ⟨"", .empty⟩

instance : Inhabited Catalog := ⟨empty⟩

end Catalog

end Phrasebook
