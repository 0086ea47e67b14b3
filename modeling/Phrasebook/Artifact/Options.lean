/-!
How a catalog is to be compiled.
-/

namespace Phrasebook.Artifact

/-- How the script hands out its functions: as members of one variable, or as exports. -/
inductive Flavor where
  | global
  | exported
  deriving DecidableEq, Repr, Inhabited

def Flavor.name : Flavor → String
  | global => "script"
  | exported => "module"

def Flavor.ofName? (name : String) : Option Flavor :=
  [Flavor.global, .exported].find? (·.name == name)

def Flavor.declaration : Flavor → String
  | global => "var"
  | exported => "const"

def defaultNamespace : String := "babel"

structure Options where
  namespaceName : String := defaultNamespace
  flavor : Flavor := .global
  pretty : Bool := true
  locale : Option String := none
  deriving DecidableEq, Repr, Inhabited

end Phrasebook.Artifact
