import MessageCatalog.Json.Text

/-!
# Writing documents

A document is written as a tree of values, over several lines: each item of a list and
each member of an object has a line of its own, two blanks further in than what contains
it. Lists and objects without contents take no lines.
-/

namespace MessageCatalog

namespace Json

inductive Value where
  | boolean (value : Bool)
  | natural (value : Nat)
  | text (value : String)
  | list (items : List Value)
  | object (members : List (String × Value))

def newLine (depth : Nat) : List Char :=
  '\n' :: List.replicate (2 * depth) ' '

/-- The lines between a pair of brackets, one step further in than the brackets. Brackets
without contents stay on one line. -/
def enclose (opening closing : Char) (depth : Nat) : List (List Char) → List Char
  | [] => [opening, closing]
  | line :: lines =>
    opening :: newLine (depth + 1) ++ line ++
      lines.flatMap (fun line => ',' :: newLine (depth + 1) ++ line) ++
      newLine depth ++ [closing]

mutual

/-- The text of a value whose first line is `depth` steps in. -/
def Value.write (depth : Nat) : Value → List Char
  | .boolean value => if value then "true".toList else "false".toList
  | .natural value => Nat.toDigits 10 value
  | .text value => quote value
  | .list items => enclose '[' ']' depth (Value.writeItems (depth + 1) items)
  | .object members => enclose '\x7b' '\x7d' depth (Value.writeMembers (depth + 1) members)

def Value.writeItems (depth : Nat) : List Value → List (List Char)
  | [] => []
  | item :: items => Value.write depth item :: Value.writeItems depth items

def Value.writeMembers (depth : Nat) : List (String × Value) → List (List Char)
  | [] => []
  | (key, value) :: members =>
    (quote key ++ ':' :: ' ' :: Value.write depth value) :: Value.writeMembers depth members

end

def Value.toDocument (value : Value) : String :=
  String.ofList (value.write 0)

/-- Set a member of an object: an earlier one of the same name is replaced and keeps its rank
among the members. -/
def setMember (members : List (String × Value)) (key : String) (value : Value) :
    List (String × Value) :=
  if members.any (·.1 == key) then
    members.map fun m => if m.1 == key then (key, value) else m
  else members ++ [(key, value)]

end Json

end MessageCatalog
