/-!
# Arguments

The program has two commands, `extract` and `init`, and shows its help without one. The
command `extract` takes paths, options with values and flags in any order. A value is
settled when the next option or a path follows, and it is then that a missing, empty or
repeated value is noticed; so the first mistake to be settled is the one reported, and an
option that does not exist is reported at once.
-/

namespace MessageCatalog

namespace Command

/-- What the command `extract` is asked for. An option that is not given leaves the
configuration as it is. -/
structure ExtractArguments where
  paths : List String
  sourceRoot : Option String
  messagesDir : Option String
  moduleSourceName : Option String
  enforceDescriptions : Bool
  extractSourceLocation : Bool
  json : Bool
  verbose : Bool
  deriving DecidableEq, Repr

def ExtractArguments.none : ExtractArguments :=
  ⟨[], .none, .none, .none, false, false, false, false⟩

inductive Request where
  | overview
  | extract (arguments : ExtractArguments)
  | init
  deriving DecidableEq, Repr

/-- Why the arguments ask for nothing that can be done: help and version are asked for in
this way too. -/
inductive Usage where
  | help
  | version
  | unknownArgument
  | unknownCommand
  | badValue
  | repeated
  | needlessValue
  deriving DecidableEq, Repr

/-! ### Options of `extract` -/

inductive ValueOption where
  | sourceRoot
  | messagesDir
  | moduleSourceName
  deriving DecidableEq, Repr

inductive Flag where
  | enforceDescriptions
  | extractSourceLocation
  | json
  | verbose
  deriving DecidableEq, Repr

/-- An option that can be written out. Some of them have a letter as well, and none of those
takes a value. -/
inductive Switch where
  | value (option : ValueOption)
  | flag (flag : Flag)
  | help
  deriving DecidableEq, Repr

def switch? : String → Option Switch
  | "source-root" => some (.value .sourceRoot)
  | "messages-dir" => some (.value .messagesDir)
  | "module-source-name" => some (.value .moduleSourceName)
  | "enforce-descriptions" => some (.flag .enforceDescriptions)
  | "extract-source-location" => some (.flag .extractSourceLocation)
  | "json" => some (.flag .json)
  | "verbose" => some (.flag .verbose)
  | "help" => some .help
  | _ => none

def letterSwitch? : Char → Option Switch
  | 'v' => some (.flag .verbose)
  | 'h' => some .help
  | _ => none

namespace ExtractArguments

def get? (arguments : ExtractArguments) : ValueOption → Option String
  | .sourceRoot => arguments.sourceRoot
  | .messagesDir => arguments.messagesDir
  | .moduleSourceName => arguments.moduleSourceName

def set (arguments : ExtractArguments) (option : ValueOption) (value : String) :
    ExtractArguments :=
  match option with
  | .sourceRoot => { arguments with sourceRoot := value }
  | .messagesDir => { arguments with messagesDir := value }
  | .moduleSourceName => { arguments with moduleSourceName := value }

def has (arguments : ExtractArguments) : Flag → Bool
  | .enforceDescriptions => arguments.enforceDescriptions
  | .extractSourceLocation => arguments.extractSourceLocation
  | .json => arguments.json
  | .verbose => arguments.verbose

def raise (arguments : ExtractArguments) : Flag → ExtractArguments
  | .enforceDescriptions => { arguments with enforceDescriptions := true }
  | .extractSourceLocation => { arguments with extractSourceLocation := true }
  | .json => { arguments with json := true }
  | .verbose => { arguments with verbose := true }

end ExtractArguments

/-- Whether an option may have an empty value: the name of a module may, paths not. -/
def ValueOption.takesEmpty : ValueOption → Bool
  | .moduleSourceName => true
  | _ => false

/-! ### Reading -/

/-- What has been read and is not settled yet. Mistakes in it are noticed only when the next
option or the end of the arguments settles it. -/
inductive Pending where
  | nothing
  | value (option : ValueOption) (value : Option String)
  | paths (paths : List String)
  deriving DecidableEq, Repr

/-- What has been read of the arguments of `extract`, from the first one on and without a
mistake so far. -/
structure Progress where
  arguments : ExtractArguments
  pending : Pending
  /-- Whether only paths can follow. -/
  pathsOnly : Bool
  deriving DecidableEq, Repr

namespace Progress

def start : Progress := ⟨.none, .nothing, false⟩

/-- Set the value of an option. An option that is given twice is a mistake whatever its values
are, and this is noticed before an empty value. -/
def setValue (progress : Progress) (option : ValueOption) (value : String) :
    Except Usage Progress :=
  if (progress.arguments.get? option).isSome then .error .repeated
  else if value.isEmpty && !option.takesEmpty then .error .badValue
  else .ok { progress with arguments := progress.arguments.set option value }

/-- Settle what is pending: a value becomes that of its option, and paths are put behind those
before them. -/
def settle (progress : Progress) : Except Usage Progress :=
  let progress' := { progress with pending := .nothing }
  match progress.pending with
  | .nothing => .ok progress'
  | .value _ none => .error .badValue
  | .value option (some value) => progress'.setValue option value
  | .paths paths =>
    if paths.any String.isEmpty then .error .badValue
    else
      let arguments := { progress.arguments with paths := progress.arguments.paths ++ paths }
      .ok { progress' with arguments }

def raise (progress : Progress) (flag : Flag) : Except Usage Progress := do
  let progress ← progress.settle
  if progress.arguments.has flag then throw .repeated
  return { progress with arguments := progress.arguments.raise flag }

/-- Take an option, with the value that is attached to it if there is one. A value where none
belongs is reported at once, any other mistake behind those of what is pending. -/
def takeSwitch (progress : Progress) (value : Option String) :
    Switch → Except Usage Progress
  | .help =>
    if value.isSome then .error .needlessValue
    else do
      let _ ← progress.settle
      throw .help
  | .flag flag => if value.isSome then .error .needlessValue else progress.raise flag
  | .value option => do
    let progress ← progress.settle
    match value with
    | some value => progress.setValue option value
    | none => return { progress with pending := .value option none }

/-- Take a path. Paths in a row are settled together, so that an empty one among them is noticed
behind the last. -/
def takePath (progress : Progress) (path : String) : Except Usage Progress := do
  match progress.pending with
  | .paths paths => return { progress with pending := .paths (paths ++ [path]) }
  | _ => return { (← progress.settle) with pending := .paths [path] }

def takeLetters : Progress → List Char → Except Usage Progress
  | progress, [] => .ok progress
  | progress, letter :: letters =>
    match letterSwitch? letter with
    | some switch => do takeLetters (← progress.takeSwitch none switch) letters
    | none => .error .unknownArgument

/-- Take an argument that is no option: the value that the option in front of it waits for, or
else a path. -/
def takePlain (progress : Progress) (argument : String) : Except Usage Progress :=
  match progress.pending with
  | .value option none => .ok { progress with pending := .value option (some argument) }
  | _ => progress.takePath argument

def takeNamed (progress : Progress) (text : List Char) : Except Usage Progress :=
  let name := String.ofList (text.takeWhile (· != '='))
  let value := match text.dropWhile (· != '=') with
    | [] => none
    | _ :: value => some (String.ofList value)
  match switch? name with
  | some switch => progress.takeSwitch value switch
  | none => .error .unknownArgument

/-- Take one argument. Behind two dashes all arguments are paths, and a single dash is an
argument like any other. -/
def take (progress : Progress) (argument : String) : Except Usage Progress :=
  if progress.pathsOnly then progress.takePath argument
  else match argument.toList with
    | ['-', '-'] => .ok { progress with pathsOnly := true }
    | '-' :: '-' :: text => progress.takeNamed text
    | '-' :: letter :: letters => progress.takeLetters (letter :: letters)
    | _ => progress.takePlain argument

end Progress

def readExtract (arguments : List String) : Except Usage Request := do
  let progress ← arguments.foldlM Progress.take Progress.start
  return .extract (← progress.settle).arguments

/-- Read arguments where only help can be asked for. `plain` is what is wrong with any
word, and `letters` and `names` say what options ask for. -/
def readNone (letters : Char → Option Usage) (names : String → Option Usage)
    (plain : Usage) : List String → Except Usage Unit
  | [] => .ok ()
  | argument :: arguments =>
    match argument.toList with
    | ['-', '-'] => if arguments.isEmpty then .ok () else .error plain
    | '-' :: '-' :: text =>
      match names (String.ofList (text.takeWhile (· != '='))) with
      | some usage => .error (if text.contains '=' then .needlessValue else usage)
      | none => .error .unknownArgument
    | '-' :: letter :: _ => .error ((letters letter).getD .unknownArgument)
    | _ => .error plain

def readInit (arguments : List String) : Except Usage Request := do
  readNone (fun c => if c = 'h' then some .help else none)
    (fun name => if name = "help" then some .help else none) .unknownArgument arguments
  return .init

def commandNames : List String := ["extract", "init", "help"]

def readHelp : List String → Usage
  | [] => .help
  | [name] => if commandNames.contains name then .help else .unknownCommand
  | _ => .unknownCommand

/-- Read arguments that do not start with a command. A command behind two dashes is too late to
be one, and is called an unknown argument instead. -/
def readBare (arguments : List String) : Except Usage Request := do
  let behindDashes := match arguments with
    | "--" :: name :: _ => commandNames.contains name
    | _ => false
  readNone
    (fun c => if c = 'h' then some .help else if c = 'V' then some .version else none)
    (fun name => if name = "help" then some .help
      else if name = "version" then some .version else none)
    (if behindDashes then .unknownArgument else .unknownCommand) arguments
  return .overview

def read (arguments : List String) : Except Usage Request :=
  match arguments with
  | "extract" :: rest => readExtract rest
  | "init" :: rest => readInit rest
  | "help" :: rest => .error (readHelp rest)
  | arguments => readBare arguments

end Command

end MessageCatalog
