import MessageCatalog.Descriptor.Draft
import MessageCatalog.Message.Printer

/-!
# From drafts to contents

Each value of a draft is evaluated, written as text and trimmed, in the order of the
draft; the first value that is not known ends it. The message itself is also read and
written back, so that only well-formed messages in canonical form get any further.
-/

namespace MessageCatalog

namespace Descriptor

open Extraction Syntax

/-- The value that a holder holds. An attribute without a value is true, and one whose value is
an element or an empty container has none. -/
def Holder.value (evaluator : Evaluator) : Holder → Option Constant.Value
  | .attribute none _ => some (.boolean true)
  | .attribute (some (.mk (.string s) _ _)) _ => some (.text s)
  | .attribute (some (.mk .container _ [e])) _ => evaluator e
  | .attribute _ _ => none
  | .expression e => evaluator e

/-- Whether a holder is a raw string attribute, as opposed to one in braces. In a raw string a
backslash is just a character of the text. -/
def Holder.isRawString : Holder → Bool
  | .attribute (some (.mk (.string _) _ _)) _ => true
  | _ => false

/-- The trimmed text of a value, if any of it is left. What is blank counts as absent; what has
no constant value is rejected at the place of its holder. -/
def Holder.text (evaluator : Evaluator) (field : Field) (holder : Holder) :
    Except Located (Option String) :=
  match holder.value evaluator with
  | none => .error ⟨.dynamicValue field.name, holder.place⟩
  | some value =>
    let text := Text.trim value.toText
    .ok (if text.isEmpty then none else some text)

def hasDoubleBackslash : List Char → Bool
  | '\\' :: '\\' :: _ => true
  | _ :: s => hasDoubleBackslash s
  | [] => false

/-- The canonical form of a message text. A raw attribute with backslashes is reported as
such, because escapes do not work there. -/
def canonicalText (holder : Holder) (text : String) : Except Located String :=
  match Message.canonicalize text with
  | .ok canonical => .ok canonical
  | .error d =>
    if holder.isRawString && hasDoubleBackslash text.toList then
      .error ⟨.malformedAttribute d, holder.place⟩
    else .error ⟨.malformedMessage d, holder.place⟩

/-- The text that a field gets. It is trimmed before it is read as a message, and the canonical
form is taken as it comes, so an escaped blank at an end stays there. -/
def fieldText (evaluator : Evaluator) (field : Field) (holder : Holder) :
    Except Located (Option String) := do
  match field, ← holder.text evaluator field with
  | .defaultMessage, some text => return some (← canonicalText holder text)
  | _, text => return text

/-- Resolve the fields of a draft on top of the content so far. -/
def Draft.resolveOnto (evaluator : Evaluator) : Content → Draft → Except Located Content
  | content, [] => .ok content
  | content, (field, holder) :: draft => do
    let text ← fieldText evaluator field holder
    resolveOnto evaluator (content.set field text) draft

def Draft.resolve (evaluator : Evaluator) (draft : Draft) : Except Located Content :=
  resolveOnto evaluator .empty draft

end Descriptor

end MessageCatalog
