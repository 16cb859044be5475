import MessageCatalog.Catalog.Basic
import MessageCatalog.Json.Printer
import MessageCatalog.Json.Reader

/-!
# The catalog format

A catalog is kept as a document: the list of its messages, each an object with the
fields that the message has. The document ends with a line feed.
-/

namespace MessageCatalog

namespace Catalog

open Json

/-! ### Writing -/

/-- A member for an optional text. Text that is absent has no member at all, as opposed to a
member that holds the value for nothing. -/
def textMember (key : String) (text : Option String) : List (String × Value) :=
  (text.map fun text => (key, .text text)).toList

def Location.toValue (location : Location) : Value :=
  .object [("file", .text location.file), ("line", .natural location.line),
    ("column", .natural location.column)]

def Entry.toValue (entry : Entry) : Value :=
  .object (("id", .text entry.id) :: textMember "description" entry.description ++
    ("defaultMessage", .text entry.defaultMessage) :: textMember "comment" entry.comment ++
    (entry.location.map fun location => ("sourceLocation", location.toValue)).toList)

def toValue (entries : List Entry) : Value :=
  .list (entries.map Entry.toValue)

def toDocument (entries : List Entry) : String :=
  (toValue entries).toDocument ++ "\n"

/-! ### Reading -/

def Location.shape : Shape Location where
  name := "struct DescriptorLocation"
  blank := ⟨"", 0, 0⟩
  fields :=
    [.of "file" true text fun location file => { location with file },
      .of "line" true natural fun location line => { location with line },
      .of "column" true natural fun location column => { location with column }]

/-- The form of a message, with its members in the order in which they are written. What is
optional may be left out, and may also be there and hold the value for nothing. -/
def Entry.shape : Shape Entry where
  name := "struct MessageDescriptor"
  blank := ⟨"", none, "", none, none⟩
  fields :=
    [.of "id" true text fun entry id => { entry with id },
      .of "description" false (optional text) fun entry description =>
        { entry with description },
      .of "defaultMessage" true text fun entry defaultMessage => { entry with defaultMessage },
      .of "comment" false (optional text) fun entry comment => { entry with comment },
      .of "sourceLocation" false (optional Location.shape.reader) fun entry location =>
        { entry with location }]

def reader : Reader (List Entry) :=
  Json.list Entry.shape.reader

def ofDocument? (document : String) : Except String (List Entry) :=
  reader.ofDocument? document

end Catalog

end MessageCatalog
