import Phrasebook.Artifact.Script

/-!
Compiled scripts kept by locale. Using the cache takes three steps that may each be a moment of
its own: looking the locale up, compiling what was loaded for it, and storing the outcome unless
the locale has been stored meanwhile.
-/

namespace Phrasebook.Artifact

/-- A script with the number of its compilation, which tells it from all others. -/
structure Compiled where
  number : Nat
  body : String
  deriving DecidableEq, Repr, Inhabited

structure Cache where
  scripts : Dictionary String Compiled
  next : Nat
  deriving DecidableEq

/-- Why no script could be had: its catalog was not loaded, or did not compile. -/
inductive CacheError (ε : Type) where
  | load (e : ε)
  | compile (e : CompileError)
  deriving DecidableEq, Repr

namespace Cache

def empty : Cache := ⟨.empty, 0⟩

instance : Inhabited Cache := ⟨empty⟩

def get? (cache : Cache) (locale : String) : Option Compiled :=
  cache.scripts.find? locale

def size (cache : Cache) : Nat := cache.scripts.size

def isEmpty (cache : Cache) : Bool := cache.size == 0

/-- Keeps a script unless there is one for the locale; gives the one that is kept. -/
def putIfAbsent (cache : Cache) (locale : String) (script : Compiled) : Compiled × Cache :=
  match cache.get? locale with
  | some kept => (kept, cache)
  | none => (script, { cache with scripts := cache.scripts.insert locale script })

def compileLoaded {ε : Type} (options : Options) (number : Nat) (loaded : Except ε Catalog) :
    Except (CacheError ε) Compiled :=
  match loaded with
  | .error e => .error (.load e)
  | .ok catalog =>
    match compile options catalog with
    | .error e => .error (.compile e)
    | .ok body => .ok ⟨number, body⟩

structure Outcome (ε : Type) where
  result : Except (CacheError ε) Compiled
  loaded : Bool

/-- The script for a locale; only if none is kept, its catalog is loaded and compiled. A
failure keeps nothing. -/
def getOrCompile {ε : Type} (options : Options) (cache : Cache) (locale : String)
    (load : Unit → Except ε Catalog) : Outcome ε × Cache :=
  match cache.get? locale with
  | some script => (⟨.ok script, false⟩, cache)
  | none =>
    match compileLoaded options cache.next (load ()) with
    | .error e => (⟨.error e, true⟩, cache)
    | .ok script =>
      let (kept, after) := { cache with next := cache.next + 1 }.putIfAbsent locale script
      (⟨.ok kept, true⟩, after)

/-- Drops the script of a locale, and tells whether there was one. -/
def invalidate (cache : Cache) (locale : String) : Bool × Cache :=
  (cache.scripts.contains locale, { cache with scripts := cache.scripts.erase locale })

def clear (cache : Cache) : Cache :=
  { cache with scripts := .empty }

end Cache

end Phrasebook.Artifact
