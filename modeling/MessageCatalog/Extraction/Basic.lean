import MessageCatalog.Binding.Imports
import MessageCatalog.Catalog.Basic
import MessageCatalog.Descriptor.Resolution

/-!
# Extraction

Messages are declared by opening tags and by calls. Which ones is decided by name: a tag
or callee counts if the resolver says that it stands for a known export of the
configured module; the shorthand tag counts only if that module exports nothing by this
name, and the shorthand call always counts.

Visiting a node adds its messages to the catalog and removes their descriptions from the
tree. A node that was processed is remembered by its kind and extent and is not
processed again. A node that fails leaves the catalog as it was before the failing
descriptor, but the descriptor has already lost its description if only the catalog
refused it.
-/

namespace MessageCatalog

namespace Extraction

open Binding Descriptor Syntax Text

/-- What counts as a declaration of messages, and what is asked of it. Locations are recorded on
demand only, since they differ after every edit of a unit. -/
structure Options where
  /-- The module whose exports are known. -/
  moduleName : String
  /-- The exports that are elements with a message. -/
  components : List String
  enforceDescriptions : Bool
  recordLocations : Bool
  deriving DecidableEq, Repr

def Options.standard : Options :=
  ⟨"react-intl", ["FormattedMessage", "FormattedHTMLMessage"], false, false⟩

/-- An element that is known but holds no extractable message. It is reported and left as it is,
and its unit does not fail. -/
structure Warning where
  component : String
  context : Context
  deriving DecidableEq, Repr

def Warning.message (warning : Warning) : String :=
  "Default messages are not extracted from <" ++ warning.component ++
    ">, use <FormattedMessage> instead."

inductive NodeKind where
  | element
  | call
  deriving DecidableEq, Repr

/-- The identity of a processed node: its kind and its extent. Nodes keep their extents when
descriptions are removed, so that a later walk knows them again. -/
structure NodeId where
  kind : NodeKind
  span : Span
  deriving DecidableEq, Repr

/-- Everything about a unit that stays the same while it is processed: what is asked for, how
its expressions are evaluated and its names resolved, and the text that positions refer to. -/
structure Setting where
  options : Options
  evaluator : Evaluator
  resolver : Resolver
  file : String
  source : Source

/-- What has been extracted so far. The processed nodes keep a second walk through the unit from
storing anything twice. -/
structure Progress where
  catalog : Catalog
  processed : List NodeId
  warnings : List Warning
  deriving DecidableEq, Repr

def Progress.start (options : Options) : Progress :=
  ⟨.empty options.enforceDescriptions, [], []⟩

/-- The result of visiting a node. Even where there is a failure, the node can have lost a
description and the catalog can have grown, since a call may define several descriptors. -/
structure Outcome where
  node : Node
  progress : Progress
  failure : Option Failure

namespace Setting

def context (s : Setting) (place : Nat) : Context :=
  s.source.context s.file place

def locate (s : Setting) (located : Located) : Failure :=
  ⟨located.problem, s.context located.place⟩

/-- Add the message of a content to the catalog, for the node that is declared at a place. A
content that the catalog refuses leaves the progress as it was. -/
def store (s : Setting) (p : Progress) (content : Content) (place : Nat) :
    Except Failure Progress :=
  let context := s.context place
  let location : Option Catalog.Location :=
    if s.options.recordLocations then
      some ⟨s.file, context.position.line, context.position.column⟩
    else none
  match p.catalog.insert content location with
  | .ok (catalog, _) => .ok { p with catalog }
  | .error problem => .error ⟨problem, context⟩

end Setting

def Progress.mark (p : Progress) (id : NodeId) : Progress :=
  { p with processed := id :: p.processed }

/-! ### Elements -/

def shorthandTag : String := "T"

def pluralComponent : String := "FormattedPlural"

/-- What a tag stands for: an element with a message, whose attributes are read by a convention,
or an element that is only warned about. -/
inductive TagRole where
  | message (convention : Convention)
  | unsupported (component : String)
  deriving DecidableEq, Repr

def exportRole? (options : Options) (exported : String) : Option TagRole :=
  if options.components.contains exported then some (.message .standard)
  else if exported = pluralComponent then some (.unsupported exported)
  else none

/-- What a tag stands for, if anything. The shorthand counts only where its name is not imported
from the module, and a member tag only below an import of the whole module. -/
def Setting.tagRole? (s : Setting) : Tag → Option TagRole
  | .plain name =>
    match s.resolver.importedName? name s.options.moduleName with
    | some exported => exportRole? s.options exported
    | none => if name = shorthandTag then some (.message .shorthand) else none
  | .member (.plain space) property =>
    if s.resolver.isWholeModule space s.options.moduleName then exportRole? s.options property
    else none
  | .member _ _ => none
  | .namespaced _ _ => none

/-- Whether an attribute stays when its element is processed. Every description goes, also one
that a later description has overridden. -/
def keepsAttribute : Node → Bool
  | .mk (.attribute name) _ _ => name != descriptionKey
  | _ => true

/-- Visit an opening tag that declares a message. Without a message of its own it is completed
elsewhere, which is no mistake. The description is gone even if the catalog refuses the message. -/
def Setting.visitMessage (s : Setting) (p : Progress) (convention : Convention) (tag : Tag)
    (span : Span) (attributes : List Node) : Outcome :=
  let node := Node.mk (.element tag) span attributes
  let draft := Draft.ofAttributes convention attributes
  if !draft.has .defaultMessage then ⟨node, p, none⟩
  else match draft.resolve s.evaluator with
    | .error located => ⟨node, p, some (s.locate located)⟩
    | .ok content =>
      -- The description goes now, whether the catalog accepts the message or not.
      let node := Node.mk (.element tag) span (attributes.filter keepsAttribute)
      match s.store p content span.start with
      | .ok p => ⟨node, p.mark ⟨.element, span⟩, none⟩
      | .error failure => ⟨node, p, some failure⟩

/-- Visit an opening tag that was not processed before. A plural element is never processed, so
that it is warned about on each visit. -/
def Setting.visitElement (s : Setting) (p : Progress) (tag : Tag) (span : Span)
    (attributes : List Node) : Outcome :=
  let node := Node.mk (.element tag) span attributes
  if p.processed.contains ⟨.element, span⟩ then ⟨node, p, none⟩
  else match s.tagRole? tag with
    | none => ⟨node, p, none⟩
    | some (.unsupported component) =>
      ⟨node, { p with warnings := p.warnings ++ [⟨component, s.context span.start⟩] }, none⟩
    | some (.message convention) => s.visitMessage p convention tag span attributes

/-! ### Calls -/

def shorthandCallee : String := "t"

def manyCallee : String := "defineMessages"

def oneCallee : String := "defineMessage"

/-- What a callee stands for: the shorthand call, whose arguments are the message, or a call
whose first argument holds several descriptors or is one. -/
inductive CalleeRole where
  | shorthand
  | many
  | one
  deriving DecidableEq, Repr

/-- What a callee stands for, if anything. Only a bare name stands for something, and the
shorthand counts whether it is imported or not. -/
def Setting.calleeRole? (s : Setting) : Node → Option CalleeRole
  | .mk (.identifier name) _ _ =>
    if name = shorthandCallee then some .shorthand
    else match s.resolver.importedName? name s.options.moduleName with
      | some exported =>
        if exported = manyCallee then some .many
        else if exported = oneCallee then some .one
        else none
      | none => none
  | _ => none

/-- Whether a property stays when its descriptor is processed. A property stays if its key is
not known, since that need not be the key of a description. -/
def keepsProperty (evaluator : Evaluator) : Node → Bool
  | .mk .property _ [key, _] =>
    match keyText evaluator key with
    | .ok name => name != descriptionKey
    | .error _ => true
  | .mk (.shorthand name) _ _ => name != descriptionKey
  | _ => true

/-- Visit an object that is a descriptor. Like an element it can be completed elsewhere, and it
loses its description before the catalog has accepted it. -/
def Setting.visitDescriptor (s : Setting) (p : Progress) (span : Span)
    (properties : List Node) : Outcome :=
  let node := Node.mk .object span properties
  match Draft.ofProperties s.evaluator .standard properties with
  | .error located => ⟨node, p, some (s.locate located)⟩
  | .ok draft =>
    if !draft.has .defaultMessage then ⟨node, p, none⟩
    else match draft.resolve s.evaluator with
      | .error located => ⟨node, p, some (s.locate located)⟩
      | .ok content =>
        let node := Node.mk .object span (properties.filter (keepsProperty s.evaluator))
        match s.store p content span.start with
        | .ok p => ⟨node, p, none⟩
        | .error failure => ⟨node, p, some failure⟩

/-- Visit the descriptors among the values of properties, up to the first failure. What is not
written as an object is passed over. -/
def Setting.visitDescriptors (s : Setting) :
    Progress → List Node → List Node × Progress × Option Failure
  | p, [] => ([], p, none)
  | p, .mk .property span [key, .mk .object inner properties] :: rest =>
    match s.visitDescriptor p inner properties with
    | ⟨object, p, some failure⟩ =>
      (.mk .property span [key, object] :: rest, p, some failure)
    | ⟨object, p, none⟩ =>
      let (rest, p, failure) := s.visitDescriptors p rest
      (.mk .property span [key, object] :: rest, p, failure)
  | p, property :: rest =>
    let (rest, p, failure) := s.visitDescriptors p rest
    (property :: rest, p, failure)

def Setting.visitShorthand (s : Setting) (p : Progress) (span : Span) (callee : Node)
    (arguments : List Node) : Outcome :=
  let node := Node.mk .call span (callee :: arguments)
  match (Draft.ofArguments arguments).resolve s.evaluator with
  | .error located => ⟨node, p, some (s.locate located)⟩
  | .ok content =>
    match s.store p content span.start with
    | .ok p => ⟨node, p.mark ⟨.call, span⟩, none⟩
    | .error failure => ⟨node, p, some failure⟩

/-- Visit a call that defines descriptors in its first argument. After a failure the call does
not count as processed, although descriptors before the failing one are stored. -/
def Setting.visitDefinition (s : Setting) (p : Progress) (several : Bool) (span : Span)
    (callee : Node) (inner : Span) (properties : List Node) (rest : List Node) : Outcome :=
  let outcome : Outcome :=
    if several then
      let (properties, p, failure) := s.visitDescriptors p properties
      ⟨.mk .object inner properties, p, failure⟩
    else s.visitDescriptor p inner properties
  let node := Node.mk .call span (callee :: outcome.node :: rest)
  match outcome.failure with
  | some failure => ⟨node, outcome.progress, some failure⟩
  | none => ⟨node, outcome.progress.mark ⟨.call, span⟩, none⟩

def Setting.visitCall (s : Setting) (p : Progress) (span : Span) (callee : Node)
    (arguments : List Node) : Outcome :=
  let node := Node.mk .call span (callee :: arguments)
  if p.processed.contains ⟨.call, span⟩ then ⟨node, p, none⟩
  else match s.calleeRole? callee, arguments with
    | some .shorthand, arguments => s.visitShorthand p span callee arguments
    | some .many, .mk .object inner properties :: rest =>
      s.visitDefinition p true span callee inner properties rest
    | some .one, .mk .object inner properties :: rest =>
      s.visitDefinition p false span callee inner properties rest
    | _, _ => ⟨node, p, none⟩

/-- Visit a node. Only opening tags and calls have an effect; all other nodes are there to be
walked through. -/
def Setting.visit (s : Setting) (p : Progress) : Node → Outcome
  | .mk (.element tag) span attributes => s.visitElement p tag span attributes
  | .mk .call span (callee :: arguments) => s.visitCall p span callee arguments
  | node => ⟨node, p, none⟩

end Extraction

end MessageCatalog
