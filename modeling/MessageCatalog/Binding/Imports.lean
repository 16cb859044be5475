import MessageCatalog.Syntax.Node

/-!
# Imported names

The imports of a unit are a list in the order of declaration. A local name stands for
an export of a module if an import says so; if several imports of one module introduce
the same local name, the first counts. The import of a whole module stands for none of
its exports.
-/

namespace MessageCatalog

namespace Binding

open Syntax

/-- What is recorded as imported for a whole module. -/
def wholeModule : String := "*"

/-- The imports that a unit declares, in the order of declaration. Only the items of the unit
are looked at, not what stands inside them. -/
def importsOf (unit : List Node) : List Import :=
  unit.flatMap fun
    | .mk (.imports names) _ _ => names
    | _ => []

/-- The export of a module that a local name stands for, by the first import that introduces the
name from this module. A whole module is none of its exports. -/
def importedName? (imports : List Import) (localName source : String) : Option String :=
  (imports.find? fun i =>
    i.localName == localName && i.source == source && i.imported != wholeModule).map
      (·.imported)

def isWholeModule (imports : List Import) (localName source : String) : Bool :=
  imports.any fun i =>
    i.localName == localName && i.source == source && i.imported == wholeModule

def refersTo (imports : List Import) (localName source imported : String) : Bool :=
  importedName? imports localName source == some imported

@[simp] theorem importedName?_nil (localName source : String) :
    importedName? [] localName source = none := rfl

/-- How local names are resolved to what modules export. Extraction asks for no more than this,
and what it does holds for whatever the answers are. -/
structure Resolver where
  /-- The export of a module that a local name stands for. -/
  importedName? (localName source : String) : Option String
  /-- Whether a local name stands for a whole module. -/
  isWholeModule (localName source : String) : Bool

def Resolver.ofImports (imports : List Import) : Resolver where
  importedName? := Binding.importedName? imports
  isWholeModule := Binding.isWholeModule imports

end Binding

end MessageCatalog
