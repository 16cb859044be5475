/-!
# The fields of a descriptor

A descriptor says how a message is called, what it means to translators and what its
text is. It is written in one of two conventions: the standard one names each field,
and the shorthand gives one text that serves as name and as message.
-/

namespace MessageCatalog

namespace Descriptor

inductive Field where
  | id
  | description
  | defaultMessage
  | comment
  deriving DecidableEq, Repr

def Field.name : Field → String
  | .id => "id"
  | .description => "description"
  | .defaultMessage => "defaultMessage"
  | .comment => "comment"

/-- How the keys of a descriptor are named. The shorthand has a single key for the text that is
both name and message, and no key for a description. -/
inductive Convention where
  | shorthand
  | standard
  deriving DecidableEq, Repr

/-- The key whose value serves translators only and is removed from the unit. -/
def descriptionKey : String := "description"

/-- The fields that a key sets, none if it is no key of the convention. The message of the
shorthand is the one key that sets two. -/
def Convention.fields : Convention → String → List Field
  | .shorthand, "message" => [.id, .defaultMessage]
  | .shorthand, "comment" => [.comment]
  | .standard, "id" => [.id]
  | .standard, "description" => [.description]
  | .standard, "defaultMessage" => [.defaultMessage]
  | _, _ => []

/-- The fields of a descriptor as text. A field that is blank is absent. -/
structure Content where
  id : Option String
  description : Option String
  defaultMessage : Option String
  comment : Option String
  deriving DecidableEq, Repr

namespace Content

def empty : Content := ⟨none, none, none, none⟩

def set (content : Content) (field : Field) (text : Option String) : Content :=
  match field with
  | .id => { content with id := text }
  | .description => { content with description := text }
  | .defaultMessage => { content with defaultMessage := text }
  | .comment => { content with comment := text }

def get (content : Content) : Field → Option String
  | .id => content.id
  | .description => content.description
  | .defaultMessage => content.defaultMessage
  | .comment => content.comment

@[simp] theorem get_empty (field : Field) : empty.get field = none := by
  cases field <;> rfl

@[simp] theorem get_set (content : Content) (field other : Field) (text : Option String) :
    (content.set field text).get other = if other = field then text else content.get other := by
  cases field <;> cases other <;> rfl

end Content

end Descriptor

end MessageCatalog
