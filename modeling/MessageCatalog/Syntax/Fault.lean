/-!
# Syntax faults

A fault names what is wrong at a place in a source. Some faults stop the reading at
once; others are noted and the reading goes on, because the rest of the text can still
be understood. A unit with any fault is rejected: the fault that stopped the reading is
reported, and otherwise the first that was noted.
-/

namespace MessageCatalog

namespace Syntax

inductive Problem where
  | expressionExpected
  | nameExpected
  | typeExpected
  | semicolonExpected
  | statementEndExpected
  | expected (token found : String)
  | unexpected (found wanted : String)
  | unexpectedEnd
  | unterminatedString
  | unterminatedTemplate
  | unterminatedComment
  | unterminatedPattern
  | misplacedSeparator
  | digitExpected (base : Nat)
  | nameAfterNumber
  | legacyOctal
  | badEscape (wanted : String)
  | uninitializedConstant
  | uninitializedPattern
  | misplacedReturn
  | emptyParentheses
  | closingTagExpected (tag : String)
  | closingFragmentExpected
  | attributeValueExpected
  | emptyAttributeValue
  | strayMarkup (c : Char)
  deriving DecidableEq, Repr

def Problem.message : Problem → String
  | .expressionExpected => "Expression expected"
  | .nameExpected => "Expected ident"
  | .typeExpected => "Type expected"
  | .semicolonExpected => "Expected a semicolon"
  | .statementEndExpected => "Expected ';', '\x7d' or <eof>"
  | .expected token found => "Expected '" ++ token ++ "', got '" ++ found ++ "'"
  | .unexpected found wanted => "Unexpected token `" ++ found ++ "`. Expected " ++ wanted
  | .unexpectedEnd => "Unexpected eof"
  | .unterminatedString => "Unterminated string constant"
  | .unterminatedTemplate => "Unterminated template"
  | .unterminatedComment => "Unterminated block comment"
  | .unterminatedPattern => "Unterminated regexp literal"
  | .misplacedSeparator => "A numeric separator is only allowed between two digits"
  | .digitExpected base =>
    let kind := if base = 2 then "a binary" else if base = 8 then "an octal"
      else if base = 16 then "a hexadecimal" else "a decimal"
    "Expected " ++ kind ++ " digit"
  | .nameAfterNumber => "Identifier cannot follow number"
  | .legacyOctal => "Legacy octal literals are not permitted in strict mode"
  | .badEscape wanted => "Bad character escape sequence, expected " ++ wanted
  | .uninitializedConstant => "'const' declarations must be initialized"
  | .uninitializedPattern => "Destructuring bindings require initializers"
  | .misplacedReturn => "Return statement is not allowed here"
  | .emptyParentheses => "Parenthesized expression cannot be empty"
  | .closingTagExpected tag => "Expected corresponding JSX closing tag for <" ++ tag ++ ">"
  | .closingFragmentExpected => "Expected corresponding closing tag for JSX fragment"
  | .attributeValueExpected =>
    "JSX value should be either an expression or a quoted JSX text"
  | .emptyAttributeValue => "JSX attributes must only be assigned a non-empty expression"
  | .strayMarkup c =>
    let entity := if c = '>' then "&gt;" else "&rbrace;"
    "Unexpected token. Did you mean `\x7b'" ++ c.toString ++ "'\x7d` or `" ++ entity ++ "`?"

/-- A problem and the place where it was found. -/
structure Fault where
  problem : Problem
  place : Nat
  deriving DecidableEq, Repr

end Syntax

end MessageCatalog
