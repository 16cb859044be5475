import MessageCatalog.Extraction.Basic
import MessageCatalog.Scan.Basic

/-!
# Configurations

A configuration says which files of a project are units, how messages are recognized in
them, and whether catalogs are written. Everything has a default. A configuration is
valid if its patterns can be read and the module has a name.
-/

namespace MessageCatalog

/-- What can be configured: which files are units, how messages are recognized in them, what is
asked of a message, and where catalogs go. -/
structure Config where
  includes : List String
  ignores : List String
  ignoreTestFiles : Bool
  sourceRoot : String
  moduleSourceName : String
  componentNames : List String
  enforceDescriptions : Bool
  extractSourceLocation : Bool
  /-- Where catalogs are written, if they are. -/
  messagesDir : Option String
  deriving DecidableEq, Repr

namespace Config

def standard : Config where
  includes := []
  ignores := ["**/node_modules/**", "**/dist/**", "**/build/**"]
  ignoreTestFiles := true
  sourceRoot := "./"
  moduleSourceName := Extraction.Options.standard.moduleName
  componentNames := Extraction.Options.standard.components
  enforceDescriptions := false
  extractSourceLocation := false
  messagesDir := none

/-- The configuration that a new project starts with. It differs from the standard one in that
catalogs are written. -/
def initial : Config :=
  { standard with messagesDir := some "./build/messages" }

/-! ### Validity -/

inductive Fault where
  | ignorePattern (pattern : String) (fault : Glob.Fault)
  | includePattern (pattern : String) (fault : Glob.Fault)
  | namelessModule
  deriving DecidableEq, Repr

def Fault.message : Fault → String
  | .ignorePattern pattern fault =>
    "Invalid glob pattern in 'ignores': \"" ++ pattern ++ "\": " ++ fault.display
  | .includePattern pattern fault =>
    "Invalid glob pattern in 'includes': \"" ++ pattern ++ "\": " ++ fault.display
  | .namelessModule => "'moduleSourceName' must not be empty"

def checkPattern (fault : String → Glob.Fault → Fault) (pattern : String) :
    Except Fault Unit :=
  match Glob.parse pattern with
  | .ok _ => .ok ()
  | .error f => .error (fault pattern f)

/-- Check a configuration: first the patterns to be ignored, then those to be included, then the
module. An include without wildcards is a path and not checked. -/
def validate (config : Config) : Except Fault Unit := do
  config.ignores.forM (checkPattern .ignorePattern)
  (config.includes.filter Glob.isPattern).forM (checkPattern .includePattern)
  if (Text.trim config.moduleSourceName).isEmpty then throw .namelessModule

/-! ### Use -/

def extraction (config : Config) : Extraction.Options where
  moduleName := config.moduleSourceName
  components := config.componentNames
  enforceDescriptions := config.enforceDescriptions
  recordLocations := config.extractSourceLocation

def scan (config : Config) : Scan.Options where
  includes := config.includes
  ignores := config.ignores
  ignoreTests := config.ignoreTestFiles

/-- The directory of all catalogs, unless it is left blank. It starts at the working directory
if it is not absolute. -/
def catalogs? (config : Config) (workingDirectory : Path) : Option Path :=
  (config.messagesDir.filter (!·.isEmpty)).map workingDirectory.child

end Config

end MessageCatalog
