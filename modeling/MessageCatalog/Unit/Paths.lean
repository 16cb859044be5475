import MessageCatalog.Path.Basic
import MessageCatalog.Syntax.Grammar.Basic

/-!
# Paths of units

The path of a unit decides three things: how the unit is called in reports, which
dialect its text is read in, and where its catalog is kept. Catalogs repeat the
directories of their units below one directory. A unit outside of the working directory
has only its names to go by.
-/

namespace MessageCatalog

namespace Unit

open Syntax

/-- How a unit is called in reports: its path relative to the working directory if it lies
there, with slashes only. A backslash is replaced even where it belongs to a name. -/
def displayName (path workingDirectory : Path) : String :=
  let shown := (path.relativeTo? workingDirectory).getD path
  String.ofList (shown.text.map fun c => if c = '\\' then '/' else c)

def typedExtensions : List String := ["ts", "mts", "cts"]

def untypedExtensions : List String := ["js", "jsx", "mjs", "cjs"]

def fullExtension : String := "tsx"

def extension? (path : Path) : Option String :=
  path.extension?.map String.ofList

/-- The dialect of a unit, which its extension decides. A unit without a known extension has
both types and markup. -/
def dialect (path : Path) : Dialect :=
  match extension? path with
  | some extension =>
    if typedExtensions.contains extension then ⟨true, false⟩
    else if untypedExtensions.contains extension then ⟨false, true⟩
    else ⟨true, true⟩
  | none => ⟨true, true⟩

/-- Whether a path has the extension of a unit. Nothing else is asked of a file, and its text is
not looked at. -/
def isSource (path : Path) : Bool :=
  match extension? path with
  | some extension =>
    (fullExtension :: typedExtensions ++ untypedExtensions).contains extension
  | none => false

def catalogSuffix : List Char := ".json".toList

/-- The path of a unit relative to the directory of all catalogs. Of a unit outside of the
working directory only the names are left; inside, the path stays as it is, with parents if it
has any. -/
def catalogStem (path workingDirectory : Path) : Path :=
  (path.relativeTo? workingDirectory).getD path.onlyNames

/-- Where the catalog of a unit is kept: below the directory of all catalogs, in the directories
of the unit and under its name, with another extension. -/
def catalogPath (path workingDirectory catalogs : Path) : Path :=
  let relative := catalogStem path workingDirectory
  let directory := match relative.parent? with
    | some parent => if parent.text.isEmpty then catalogs else catalogs ++ parent
    | none => catalogs
  directory ++ ⟨relative.stem?.getD relative.text ++ catalogSuffix⟩

end Unit

end MessageCatalog
