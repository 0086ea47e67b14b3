import Phrasebook.Catalog.Normal
import Phrasebook.Plural.Expr
import Phrasebook.Template.Render

/-!
Looking messages up and filling them in.
-/

namespace Phrasebook

structure Resolver where
  catalog : NormalCatalog
  rule : Option Plural.Expr
  deriving DecidableEq

namespace Resolver

def countName : String := "n"

/-- The bindings with the count, unless its name is bound already. -/
def withCount (bindings : Bindings) (n : UInt64) : Bindings :=
  if bindings.contains countName then bindings else bindings.insert countName (.ofCount n)

def pluralIndex (resolver : Resolver) (n : UInt64) : Nat :=
  match resolver.rule with
  | some rule => rule.index n
  | none => Plural.defaultIndex n

def template (resolver : Resolver) (text : String) : String :=
  match resolver.catalog.find? text with
  | some (.simple wording) => wording
  | _ => text

/-- The template for a text with plural forms: the form for the count, or, where there is none,
one of the two source texts. -/
def pluralTemplate (resolver : Resolver) (text plural : String) (n : UInt64) : String :=
  let index := resolver.pluralIndex n
  match (resolver.catalog.find? text).bind (·.form? index) with
  | some form => form
  | none => if index = 0 then text else plural

def gettext (resolver : Resolver) (text : String) (bindings : Bindings) :
    Except FormatError String :=
  Template.format (resolver.template text) bindings

def ngettext (resolver : Resolver) (text plural : String) (n : UInt64) (bindings : Bindings) :
    Except FormatError String :=
  Template.format (resolver.pluralTemplate text plural n) (withCount bindings n)

end Resolver

end Phrasebook
