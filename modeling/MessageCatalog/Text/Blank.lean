/-!
# Blank characters

A character is blank if it belongs to the Unicode property `White_Space`. The
property has twenty-five members, all listed here; it decides what separates the
parts of a message argument and what is trimmed from a descriptor field.

`trim` removes blanks at both ends and keeps those inside. Trimming is stated on
lists of characters first, because the message reader works on them.
-/

namespace MessageCatalog

namespace Text

/-- The members of `White_Space`: the five control characters from tab to carriage
return, the next line control, and the space separators with the two line ends. -/
def isBlank (c : Char) : Bool :=
  let n := c.toNat
  (9 ≤ n && n ≤ 13) || n == 0x20 || n == 0x85 || n == 0xA0 || n == 0x1680 ||
    (0x2000 ≤ n && n ≤ 0x200A) || n == 0x2028 || n == 0x2029 || n == 0x202F ||
    n == 0x205F || n == 0x3000

def dropBlankEnd : List Char → List Char
  | [] => []
  | c :: s =>
    match dropBlankEnd s with
    | [] => if isBlank c then [] else [c]
    | t => c :: t

def trimChars (s : List Char) : List Char :=
  dropBlankEnd (s.dropWhile isBlank)

def trim (s : String) : String :=
  String.ofList (trimChars s.toList)

@[simp] theorem dropBlankEnd_nil : dropBlankEnd [] = [] := rfl

@[simp] theorem trimChars_nil : trimChars [] = [] := rfl

end Text

end MessageCatalog
