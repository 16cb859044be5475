import MessageCatalog.Message.Fault
import MessageCatalog.Text.Source

/-!
# What can be wrong with a descriptor

Every problem is fatal to the unit it occurs in. A problem about a message text carries
the diagnostic of the message reader, which is shown on a line of its own. While a
descriptor is read, a problem is tied to a place in the source; the failure of the unit
shows that place with its line.
-/

namespace MessageCatalog

namespace Extraction

open Message Text

inductive Required where
  | id
  | defaultMessage
  deriving DecidableEq, Repr

def Required.name : Required → String
  | .id => "id"
  | .defaultMessage => "defaultMessage"

/-- What is wrong with a descriptor. Any of it is fatal to the unit; a problem about a message
text carries the diagnostic of the message reader. -/
inductive Problem where
  /-- The value of a field is not known before the program runs. -/
  | dynamicValue (property : String)
  | malformedMessage (diagnostic : Diagnostic)
  /-- The malformed message is a raw attribute that uses backslashes. -/
  | malformedAttribute (diagnostic : Diagnostic)
  | missingField (field : Required)
  | missingDescription
  /-- The key is in use for a different message. -/
  | conflict (key : String)
  deriving DecidableEq, Repr

/-- The wording of a problem. A diagnostic stands behind a line feed, so that reports can show
the first line by itself. -/
def Problem.message : Problem → String
  | .dynamicValue property =>
    "Messages must be statically evaluate-able for extraction (`" ++ property ++
      "` is dynamic)."
  | .malformedMessage d =>
    "Message failed to parse. See: https://formatjs.io/docs/core-concepts/icu-syntax\n" ++
      d.display
  | .malformedAttribute d =>
    "Message failed to parse. It looks like `\\`s were used for escaping, " ++
      "this won't work with JSX string literals. Wrap with `\x7b\x7d`. See: " ++
      "http://facebook.github.io/react/docs/jsx-gotchas.html\n" ++ d.display
  | .missingField field =>
    "Message Descriptors require an `id` and `defaultMessage` (missing `" ++ field.name ++
      "`)."
  | .missingDescription => "Message must have a `description`."
  | .conflict key =>
    "Duplicate message id: \"" ++ key ++
      "\", but the `description` and/or `defaultMessage` are different."

/-- A problem and the place it is found at, as long as a descriptor is being read and only
places are known. -/
structure Located where
  problem : Problem
  place : Nat
  deriving DecidableEq, Repr

/-- A problem shown in its source, with the line that it is on. It is all that is left of a unit
that could not be extracted. -/
structure Failure where
  problem : Problem
  context : Context
  deriving DecidableEq, Repr

def atPosition (file : String) (position : Position) (message : String) : String :=
  file ++ ":" ++ toString position.line ++ ":" ++ toString position.column ++ ": " ++ message

def Failure.display (failure : Failure) : String :=
  atPosition failure.context.file failure.context.position failure.problem.message

end Extraction

end MessageCatalog
