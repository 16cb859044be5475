import MessageCatalog.Extraction.Walk
import MessageCatalog.Proofs.Binding.Inventory
import MessageCatalog.Proofs.Catalog.Insertion

/-!
# Where messages are declared

The sites of a tree are its opening tags and its calls, at every depth. Which messages a
site declares is said here of the tree alone, without a walk: a tag with a message declares
it, a shorthand call always declares one, and a call that defines descriptors declares
those of its objects that have a message.

A site also has parts that are for translators only: the descriptions next to the messages
it declares. They are dropped from the tree, with everything that is inside them. The tree
without the sites in dropped parts is what a walk gets to see.
-/

namespace MessageCatalog

namespace Extraction

open Binding Catalog Descriptor Syntax

/-! ### Sites -/

/-- Opening tags and calls are the nodes that a walk processes. -/
def isSite : Node → Bool
  | .mk (.element _) _ _ => true
  | .mk .call _ _ => true
  | _ => false

/-- The identity of a site. -/
def siteId : Node → NodeId
  | .mk (.element _) span _ => ⟨.element, span⟩
  | .mk _ span _ => ⟨.call, span⟩

/-- The node itself, if it is a site. -/
def ownSite (node : Node) : List Node :=
  if isSite node then [node] else []

mutual

/-- The sites of a tree, a node before those inside it. -/
def sites : Node → List Node
  | .mk form span children => ownSite (.mk form span children) ++ sitesOf children

/-- The sites of several trees. -/
def sitesOf : List Node → List Node
  | [] => []
  | node :: nodes => sites node ++ sitesOf nodes

end

section Sites

variable {node site : Node} {nodes : List Node}

theorem sites_eq (node : Node) : sites node = ownSite node ++ sitesOf node.children := by
  cases node
  rw [sites, Node.children_mk]

theorem sitesOf_eq_flatMap (nodes : List Node) : sitesOf nodes = nodes.flatMap sites := by
  induction nodes with
  | nil => rw [sitesOf, List.flatMap_nil]
  | cons node nodes ih => rw [sitesOf, ih, List.flatMap_cons]

@[simp] theorem sitesOf_nil : sitesOf [] = [] := by
  rw [sitesOf]

@[simp] theorem sitesOf_cons : sitesOf (node :: nodes) = sites node ++ sitesOf nodes := by
  rw [sitesOf]

@[simp] theorem sitesOf_append (nodes nodes' : List Node) :
    sitesOf (nodes ++ nodes') = sitesOf nodes ++ sitesOf nodes' := by
  rw [sitesOf_eq_flatMap, List.flatMap_append, ← sitesOf_eq_flatMap, ← sitesOf_eq_flatMap]

@[simp] theorem mem_ownSite : site ∈ ownSite node ↔ isSite node = true ∧ site = node := by
  rw [ownSite]
  split <;> simp_all

theorem mem_sitesOf : site ∈ sitesOf nodes ↔ ∃ node ∈ nodes, site ∈ sites node := by
  rw [sitesOf_eq_flatMap, List.mem_flatMap]

/-- What is inside a site of a tree is inside the tree. -/
theorem sitesOf_children_subset_sites (here : site ∈ sites node) :
    sitesOf site.children ⊆ sites node := by
  induction node using node_induction with
  | step node ih =>
      rw [sites_eq, List.mem_append] at here
      rw [sites_eq]
      refine List.Subset.trans ?_ (List.subset_append_right _ _)
      rcases here with own | inside
      · obtain ⟨-, rfl⟩ := mem_ownSite.mp own
        exact List.Subset.refl _
      · obtain ⟨part, within, inside⟩ := mem_sitesOf.mp inside
        exact List.Subset.trans (ih part within inside)
          fun other here => mem_sitesOf.mpr ⟨part, within, here⟩

theorem sitesOf_children_subset (here : site ∈ sitesOf nodes) :
    sitesOf site.children ⊆ sitesOf nodes := by
  obtain ⟨node, within, inside⟩ := mem_sitesOf.mp here
  exact List.Subset.trans (sitesOf_children_subset_sites inside)
    fun other here => mem_sitesOf.mpr ⟨node, within, here⟩

end Sites

/-! ### Declarations -/

/-- A message that a site declares: its draft, and the place where it is declared. -/
structure Declaration where
  draft : Draft
  place : Nat

/-- What a descriptor object declares: a message, if all of its keys are known and one of
them is that of a message. -/
def Setting.objectDeclarations (s : Setting) (span : Span) (properties : List Node) :
    List Declaration :=
  match Draft.ofProperties s.evaluator .standard properties with
  | .ok draft => if draft.has .defaultMessage then [⟨draft, span.start⟩] else []
  | .error _ => []

/-- The descriptor object that is the value of a property. -/
def propertyObject? : Node → Option (Span × List Node)
  | .mk .property _ [_, .mk .object span properties] => some (span, properties)
  | _ => none

/-- The descriptor objects of a call: the object that is the first argument, or those that
are the values of its properties. -/
def Setting.objects (s : Setting) (callee : Node) : List Node → List (Span × List Node)
  | .mk .object span properties :: _ =>
    match s.calleeRole? callee with
    | some .many => properties.filterMap propertyObject?
    | some .one => [(span, properties)]
    | _ => []
  | _ => []

/-- What a node declares itself, in the order of the text. -/
def Setting.declarations (s : Setting) : Node → List Declaration
  | .mk (.element tag) span attributes =>
    match s.tagRole? tag with
    | some (.message convention) =>
      let draft := Draft.ofAttributes convention attributes
      if draft.has .defaultMessage then [⟨draft, span.start⟩] else []
    | _ => []
  | .mk .call span (callee :: arguments) =>
    match s.calleeRole? callee with
    | some .shorthand => [⟨.ofArguments arguments, span.start⟩]
    | _ => (s.objects callee arguments).flatMap fun object =>
      s.objectDeclarations object.1 object.2
  | _ => []

/-- The key of a declaration, if its fields are known and it has an identifier. -/
def Setting.declaredKey? (s : Setting) (d : Declaration) : Option String :=
  match d.draft.resolve s.evaluator with
  | .ok content => keyOf content
  | .error _ => none

/-- The keys of the messages that a node declares itself. -/
def Setting.declaredKeys (s : Setting) (node : Node) : List String :=
  (s.declarations node).filterMap s.declaredKey?

/-! ### Descriptions -/

/-- The descriptions in a descriptor object, which are dropped if it declares a message. -/
def Setting.objectDescriptions (s : Setting) (span : Span) (properties : List Node) :
    List Node :=
  if (s.objectDeclarations span properties).isEmpty then []
  else properties.filter (!keepsProperty s.evaluator ·)

/-- The descriptions next to the messages that a node declares itself. -/
def Setting.descriptions (s : Setting) : Node → List Node
  | .mk (.element tag) span attributes =>
    if (s.declarations (.mk (.element tag) span attributes)).isEmpty then []
    else attributes.filter (!keepsAttribute ·)
  | .mk .call _ (callee :: arguments) =>
    (s.objects callee arguments).flatMap fun object => s.objectDescriptions object.1 object.2
  | _ => []

/-- The sites inside the descriptions next to the messages of a node. -/
def Setting.hidden (s : Setting) (node : Node) : List Node :=
  sitesOf (s.descriptions node)

/-- The sites inside the descriptions of a unit. -/
def Setting.describedSites (s : Setting) (unit : List Node) : List Node :=
  (sitesOf unit).flatMap s.hidden

end Extraction

end MessageCatalog
