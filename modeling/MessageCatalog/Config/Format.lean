import MessageCatalog.Config.Basic
import MessageCatalog.Json.Printer
import MessageCatalog.Json.Reader

/-!
# The configuration format

A configuration is kept as a document: an object with the fields that differ from their
defaults, though all may be there. It is written with all fields, except for the
directory of catalogs if there is none.
-/

namespace MessageCatalog

namespace Config

open Json

def textsValue (texts : List String) : Value :=
  .list (texts.map .text)

def toValue (config : Config) : Value :=
  .object ([("includes", textsValue config.includes),
    ("ignores", textsValue config.ignores),
    ("ignoreTestFiles", .boolean config.ignoreTestFiles),
    ("sourceRoot", .text config.sourceRoot),
    ("moduleSourceName", .text config.moduleSourceName),
    ("componentNames", textsValue config.componentNames),
    ("enforceDescriptions", .boolean config.enforceDescriptions),
    ("extractSourceLocation", .boolean config.extractSourceLocation)] ++
    (config.messagesDir.map fun directory => ("messagesDir", .text directory)).toList)

def toDocument (config : Config) : String :=
  config.toValue.toDocument

/-- The form of a configuration. Every field may be left out and keeps its default then, so the
empty object is the standard configuration. -/
def shape : Shape Config where
  name := "struct Config"
  blank := standard
  fields :=
    [.of "includes" false (list text) fun config includes => { config with includes },
      .of "ignores" false (list text) fun config ignores => { config with ignores },
      .of "ignoreTestFiles" false boolean fun config ignoreTestFiles =>
        { config with ignoreTestFiles },
      .of "sourceRoot" false text fun config sourceRoot => { config with sourceRoot },
      .of "moduleSourceName" false text fun config moduleSourceName =>
        { config with moduleSourceName },
      .of "componentNames" false (list text) fun config componentNames =>
        { config with componentNames },
      .of "enforceDescriptions" false boolean fun config enforceDescriptions =>
        { config with enforceDescriptions },
      .of "extractSourceLocation" false boolean fun config extractSourceLocation =>
        { config with extractSourceLocation },
      .of "messagesDir" false (optional text) fun config messagesDir =>
        { config with messagesDir }]

def ofDocument? (document : String) : Except String Config :=
  shape.reader.ofDocument? document

end Config

end MessageCatalog
