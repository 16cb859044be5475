/-!
# Styles

A report marks words by colour and weight if it is shown on a terminal that can. The
codes around a word are no part of its text: padding goes inside them.
-/

namespace MessageCatalog

namespace Report

inductive Style where
  | bold
  | dimmed
  | red
  | green
  | yellow
  | blue
  | cyan
  deriving DecidableEq, Repr

def Style.code : Style → Nat
  | .bold => 1
  | .dimmed => 2
  | .red => 31
  | .green => 32
  | .yellow => 33
  | .blue => 34
  | .cyan => 36

def escapeCharacter : Char := Char.ofNat 27

def control (parameters : String) : String :=
  escapeCharacter.toString ++ "[" ++ parameters ++ "m"

/-- Show a text in some styles, if the report is coloured. Otherwise it stays as it is, so that
a report without colours has no codes at all. -/
def styled (coloured : Bool) (styles : List Style) (text : String) : String :=
  if coloured then
    control (";".intercalate (styles.map fun style => toString style.code)) ++ text ++
      control "0"
  else text

def blanks (n : Nat) : String :=
  String.ofList (List.replicate n ' ')

def padded (width : Nat) (text : String) : String :=
  blanks (width - text.length) ++ text

def counted (n : Nat) (one many : String) : String :=
  toString n ++ " " ++ (if n = 1 then one else many)

end Report

end MessageCatalog
