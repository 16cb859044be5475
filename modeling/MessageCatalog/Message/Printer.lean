import MessageCatalog.Message.Basic
import MessageCatalog.Message.Reader

/-!
# Canonical message text

The printer writes one space after each comma and before each branch, omits an offset
of zero, and escapes exactly the characters that the reader would not take as text in
the same place. Texts that denote the same message thus get one canonical form.
-/

namespace MessageCatalog

namespace Message

/-- Whether a character of a literal needs a backslash. The number sign does so only inside a
plural branch, where it would not be text. -/
def needsEscape (inPlural : Bool) (c : Char) : Bool :=
  c == '\\' || c == '{' || c == '}' || (inPlural && c == '#')

def escapeText (inPlural : Bool) : List Char → List Char
  | [] => []
  | c :: s =>
    if needsEscape inPlural c then '\\' :: c :: escapeText inPlural s
    else c :: escapeText inPlural s

/-- The offset clause of a plural argument. An offset of zero is not written, as it is what a
reader takes in its absence. -/
def offsetClause (offset : Int) : List Char :=
  if offset = 0 then [] else " offset:".toList ++ (toString offset).toList

def styleClause : Option String → List Char
  | none => []
  | some style => ", ".toList ++ style.toList

mutual

/-- The canonical text of one element. -/
def printElement (inPlural : Bool) : Element → List Char
  | .literal text => escapeText inPlural text.toList
  | .pound => ['#']
  | .argument name => '{' :: name.toList ++ ['}']
  | .formatted name kind style =>
    '{' :: name.toList ++ ", ".toList ++ kind.word.toList ++ styleClause style ++ ['}']
  | .plural name kind offset options =>
    '{' :: name.toList ++ ", ".toList ++ kind.word.toList ++ [','] ++ offsetClause offset ++
      printOptions true options ++ ['}']
  | .select name options =>
    '{' :: name.toList ++ ", select,".toList ++ printOptions inPlural options ++ ['}']

/-- The canonical text of a branch, with the space in front of it. -/
def printBranch (inPlural : Bool) : Branch → List Char
  | .mk selector value =>
    ' ' :: selector.toList ++ " \x7b".toList ++ printElements inPlural value ++ ['}']

def printElements (inPlural : Bool) : List Element → List Char
  | [] => []
  | element :: message => printElement inPlural element ++ printElements inPlural message

def printOptions (inPlural : Bool) : List Branch → List Char
  | [] => []
  | option :: options => printBranch inPlural option ++ printOptions inPlural options

end

def print (message : Message) : String :=
  String.ofList (printElements false message)

/-- Bring a message text into canonical form. Only texts that can be read have one, and the
diagnostic of the reader says why others do not. -/
def canonicalize (text : String) : Except Diagnostic String :=
  (parse text).map print

end Message

end MessageCatalog
