/-!
# Paths

A path is a text that names a place in a tree of files. It is read as components: the
root, the current directory, parents and names. Empty pieces between separators say
nothing, and neither does `.`, except at the start of a relative path.

Two paths with the same components name the same place, but their texts may differ, and
the text is what people get to see. The operations therefore work on pieces of text:
what remains of a path keeps its spelling, apart from silent pieces at its ends.
-/

namespace MessageCatalog

/-- A path as it is written. Equality is that of texts; whether two paths name the same place is
told by their components. -/
structure Path where
  text : List Char
  deriving DecidableEq, Repr

namespace Path

inductive Component where
  | root
  | current
  | parent
  | name (text : List Char)
  deriving DecidableEq, Repr

def separator : Char := '/'

def ofString (text : String) : Path := ⟨text.toList⟩

def toString (path : Path) : String := String.ofList path.text

instance : ToString Path := ⟨toString⟩

@[simp] theorem text_ofString (text : String) : (ofString text).text = text.toList := rfl

@[simp] theorem toString_ofString (text : String) : (ofString text).toString = text := by
  simp [toString, ofString]

def empty : Path := ⟨[]⟩

/-! ### Pieces -/

/-- Cut a text at its separators. There is always a piece. -/
def cut : List Char → List Char × List (List Char)
  | [] => ([], [])
  | c :: s =>
    let (piece, pieces) := cut s
    if c = separator then ([], piece :: pieces) else (c :: piece, pieces)

def pieces (text : List Char) : List (List Char) :=
  (cut text).1 :: (cut text).2

def join : List (List Char) → List Char
  | [] => []
  | [piece] => piece
  | piece :: pieces => piece ++ separator :: join pieces

/-- The component that a piece stands for, if any. An empty piece stands for none, and neither
does a point, which is the place where one already is. -/
def component? : List Char → Option Component
  | [] => none
  | ['.'] => none
  | ['.', '.'] => some .parent
  | piece => some (.name piece)

def isSilent (piece : List Char) : Bool :=
  (component? piece).isNone

/-- A path taken apart: what it starts with, if that is the root or the current
directory, and the pieces behind it. -/
structure Parts where
  lead : Option Component
  body : List (List Char)

def parts (path : Path) : Parts :=
  match path.text with
  | '/' :: s => ⟨some .root, pieces s⟩
  | ['.'] => ⟨some .current, []⟩
  | '.' :: '/' :: s => ⟨some .current, [] :: pieces s⟩
  | s => ⟨none, pieces s⟩

def leadText : Option Component → List Char
  | some .root => ['/']
  | some .current => ['.']
  | _ => []

def Parts.path (parts : Parts) : Path :=
  ⟨leadText parts.lead ++ join parts.body⟩

def trimEnd (body : List (List Char)) : List (List Char) :=
  (body.reverse.dropWhile isSilent).reverse

def components (path : Path) : List Component :=
  path.parts.lead.toList ++ path.parts.body.filterMap component?

def names (a b : Path) : Bool :=
  a.components == b.components

def isAbsolute (path : Path) : Bool :=
  path.text.head? = some separator

/-! ### Order -/

/-- The rank of a component. The root comes first, then the current directory, then
parents; names are compared as texts. -/
def Component.key : Component → List Nat
  | .root => [0]
  | .current => [1]
  | .parent => [2]
  | .name text => 3 :: text.map Char.toNat

def key (path : Path) : List (List Nat) :=
  path.components.map Component.key

def precedes (a b : Path) : Bool :=
  (compare a.key b.key).isLE

/-! ### Parts of paths -/

/-- The path that contains this one, as it is spelled, apart from silent pieces at the end. The
root and the empty path have none. -/
def parent? (path : Path) : Option Path :=
  let ⟨lead, body⟩ := path.parts
  match trimEnd body, lead with
  | [], some .current => some empty
  | [], _ => none
  | piece :: pieces, lead =>
    some (Parts.path ⟨lead, trimEnd (piece :: pieces).dropLast⟩)

def fileName? (path : Path) : Option (List Char) :=
  match path.components.getLast? with
  | some (.name text) => some text
  | _ => none

/-- Cut a file name at its last point. A point in front does not count. -/
def cutExtension (name : List Char) : List Char × Option (List Char) :=
  let behind := name.reverse.takeWhile (· != '.')
  match (name.reverse.drop behind.length) with
  | [] => (name, none)
  | [_] => (name, none)
  | _ :: stem => (stem.reverse, some behind.reverse)

def stem? (path : Path) : Option (List Char) :=
  path.fileName?.map fun name => (cutExtension name).1

def extension? (path : Path) : Option (List Char) :=
  path.fileName?.bind fun name => (cutExtension name).2

def dropComponents : Nat → List (List Char) → List (List Char)
  | 0, body => body
  | _ + 1, [] => []
  | n + 1, piece :: body =>
    if isSilent piece then dropComponents (n + 1) body else dropComponents n body

/-- Whether a path is another one or lies below it, by components. Nothing is resolved, so a
path through `..` lies below what it starts with. -/
def startsWith (path base : Path) : Bool :=
  base.components.isPrefixOf path.components

/-- The path relative to another one, if it lies there. What is left keeps its spelling and its
components, those that lead upwards included. -/
def relativeTo? (path base : Path) : Option Path :=
  if path.startsWith base then
    let ⟨lead, body⟩ := path.parts
    some <| match base.components.length with
      | 0 => Parts.path ⟨lead, trimEnd body⟩
      | n => Parts.path ⟨none,
          trimEnd ((dropComponents (n - lead.toList.length) body).dropWhile isSilent)⟩
  else none

/-- One path below another. An absolute path stays what it is, and below the empty path a path
stays relative. -/
def append (base path : Path) : Path :=
  if path.isAbsolute then path
  else match base.text.getLast? with
    | none => path
    | some c => if c = separator then ⟨base.text ++ path.text⟩
      else ⟨base.text ++ separator :: path.text⟩

instance : Append Path := ⟨append⟩

def child (base : Path) (text : String) : Path :=
  base ++ ofString text

def ofNames (names : List (List Char)) : Path :=
  ⟨join names⟩

/-- The names among the components, as a path. It is relative and leads nowhere but down. -/
def onlyNames (path : Path) : Path :=
  ofNames (path.components.filterMap fun
    | .name text => some text
    | _ => none)

end Path

end MessageCatalog
