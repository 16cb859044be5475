import MessageCatalog.Proofs.Extraction.Visit

/-!
# What a walk reaches

A walk goes on with the parts of a node after the node has lost its descriptions. The
sites of a tree are therefore divided: those that the walk reaches, and those inside the
descriptions of sites that it reaches. The division is exact, which is stated by
permutations: nothing is left out, and nothing is on both sides.

A description that is itself inside a description adds nothing, so the unreached sites are
those inside the descriptions of any site of the tree.
-/

namespace MessageCatalog

namespace Extraction

open Binding Syntax

/-! ### Division of trees -/

section Perm

variable {α β : Type}

/-- Two divided lists, one after the other, are divided part by part. -/
theorem append_append_perm (as bs cs ds : List α) :
    ((as ++ bs) ++ (cs ++ ds)).Perm ((as ++ cs) ++ (bs ++ ds)) := by
  simp only [List.append_assoc]
  exact (List.perm_append_comm_assoc bs cs ds).append_left as

theorem flatMap_perm_append {xs : List α} {f g h : α → List β}
    (divided : ∀ x ∈ xs, (f x).Perm (g x ++ h x)) :
    (xs.flatMap f).Perm (xs.flatMap g ++ xs.flatMap h) := by
  induction xs with
  | nil => exact .refl _
  | cons x xs ih =>
      simp only [List.flatMap_cons]
      have first := divided x List.mem_cons_self
      have rest := ih fun other here => divided other (List.mem_cons_of_mem _ here)
      exact (first.append rest).trans (append_append_perm ..)

end Perm

section Division

variable {s : Setting} {span : Span} {node : Node} {nodes nodes' properties : List Node}

theorem sitesOf_perm (same : nodes.Perm nodes') : (sitesOf nodes).Perm (sitesOf nodes') := by
  rw [sitesOf_eq_flatMap, sitesOf_eq_flatMap]
  exact same.flatMap_right sites

/-- The parts that are kept and those that are dropped make up all of them. -/
theorem sitesOf_filter_perm (keeps : Node → Bool) (nodes : List Node) :
    (sitesOf nodes).Perm
      (sitesOf (nodes.filter keeps) ++ sitesOf (nodes.filter (!keeps ·))) := by
  rw [← sitesOf_append]
  exact sitesOf_perm (List.filter_append_perm keeps nodes).symm

theorem sitesOf_keptProperties_perm (s : Setting) (span : Span) (properties : List Node) :
    (sitesOf properties).Perm (sitesOf (s.keptProperties span properties) ++
      sitesOf (s.objectDescriptions span properties)) := by
  rw [Setting.keptProperties, Setting.objectDescriptions]
  split
  · simp
  · exact sitesOf_filter_perm _ properties

theorem sitesOf_strippedProperties_perm (s : Setting) (properties : List Node) :
    (sitesOf properties).Perm (sitesOf (properties.map s.strippedProperty) ++
      sitesOf ((properties.filterMap propertyObject?).flatMap fun object =>
        s.objectDescriptions object.1 object.2)) := by
  induction properties with
  | nil => exact .refl _
  | cons property properties ih =>
      cases value : propertyObject? property with
      | none =>
          simpa [value, strippedProperty_other value] using ih.append_left (sites property)
      | some object =>
          obtain ⟨outer, key, rfl⟩ := propertyObject?_eq_some value
          obtain ⟨inner, parts⟩ := object
          have own := (sitesOf_keptProperties_perm s inner parts).append_left (sites key)
          rw [← List.append_assoc] at own
          have both := (own.append ih).trans (append_append_perm ..)
          simpa [Setting.strippedProperty, propertyObject?, sites, ownSite, isSite] using both

/-- What the object in a call loses is lost by the call. -/
theorem sitesOf_arguments_perm {properties' dropped rest : List Node} (callee : Node)
    (divided : (sitesOf properties).Perm (sitesOf properties' ++ sitesOf dropped)) :
    (sitesOf (callee :: .mk .object span properties :: rest)).Perm
      (sitesOf (callee :: .mk .object span properties' :: rest) ++ sitesOf dropped) := by
  have inside := (divided.append_right (sitesOf rest)).append_left (sites callee)
  have last : (sitesOf dropped ++ sitesOf rest).Perm (sitesOf rest ++ sitesOf dropped) :=
    List.perm_append_comm
  simp only [sitesOf_cons, sites, ownSite, isSite, Bool.false_eq_true, if_false,
    List.nil_append, List.append_assoc] at inside ⊢
  exact inside.trans ((last.append_left _).append_left _)

/-- Only opening tags and calls with an object have descriptions. -/
theorem descriptions_eq_nil
    (noElement : ∀ tag span attributes, node ≠ .mk (.element tag) span attributes)
    (noObject : ∀ span callee inner properties rest,
      node ≠ .mk .call span (callee :: .mk .object inner properties :: rest)) :
    s.descriptions node = [] := by
  fun_cases Setting.descriptions s node with
  | case1 tag span attributes => exact absurd rfl (noElement tag span attributes)
  | case2 tag span attributes => exact absurd rfl (noElement tag span attributes)
  | case3 span callee arguments =>
      have noObjects : s.objects callee arguments = [] := by
        rw [Setting.objects.eq_def]
        split
        · exact (noObject _ _ _ _ _ rfl).elim
        · rfl
      rw [noObjects, List.flatMap_nil]
  | case4 => rfl

/-- The sites inside a node are those that are left and those in what it loses. -/
theorem sitesOf_stripped_perm (s : Setting) (node : Node) :
    (sitesOf node.children).Perm
      (sitesOf (s.stripped node).children ++ s.hidden node) := by
  rw [Setting.hidden, Setting.stripped.eq_def]
  split
  · rw [Setting.descriptions]
    split
    · simp
    · exact sitesOf_filter_perm _ _
  · rename_i callee inner properties rest
    cases role : s.calleeRole? callee with
    | none => simp [Setting.descriptions, Setting.objects, role]
    | some found =>
        cases found with
        | shorthand => simp [Setting.descriptions, Setting.objects, role]
        | many =>
            simpa [Setting.descriptions, Setting.objects, role] using
              sitesOf_arguments_perm callee (sitesOf_strippedProperties_perm s properties)
        | one =>
            simpa [Setting.descriptions, Setting.objects, role] using
              sitesOf_arguments_perm callee (sitesOf_keptProperties_perm s inner properties)
  · rename_i noElement noCall
    simp [descriptions_eq_nil noElement noCall]

end Division

/-! ### Height -/

section Height

variable {s : Setting} {span : Span} {nodes nodes' properties : List Node} {bound : Nat}

theorem heightOf_le_iff : Node.heightOf nodes ≤ bound ↔ ∀ node ∈ nodes, node.height ≤ bound := by
  induction nodes with
  | nil => simp
  | cons node nodes ih => rw [Node.heightOf_cons, Nat.max_le, ih, List.forall_mem_cons]

theorem heightOf_mono (subset : nodes ⊆ nodes') : Node.heightOf nodes ≤ Node.heightOf nodes' :=
  heightOf_le_iff.mpr fun _ here => heightOf_le_iff.mp (Nat.le_refl _) _ (subset here)

theorem heightOf_keptProperties_le (s : Setting) (span : Span) (properties : List Node) :
    Node.heightOf (s.keptProperties span properties) ≤ Node.heightOf properties := by
  rw [Setting.keptProperties]
  split
  · exact Nat.le_refl _
  · exact heightOf_mono List.filter_sublist.subset

theorem height_strippedProperty_le (s : Setting) (property : Node) :
    (s.strippedProperty property).height ≤ property.height := by
  rw [Setting.strippedProperty.eq_def]
  split
  · rename_i outer key inner parts
    have inside := heightOf_keptProperties_le s inner parts
    simp only [Node.height_mk, Node.heightOf_cons, Node.heightOf_nil]
    omega
  · exact Nat.le_refl _

/-- A node without its descriptions is no higher than before. -/
theorem heightOf_stripped_le (s : Setting) (node : Node) :
    Node.heightOf (s.stripped node).children ≤ Node.heightOf node.children := by
  rw [Setting.stripped.eq_def]
  split
  · split
    · exact Nat.le_refl _
    · exact heightOf_mono List.filter_sublist.subset
  · rename_i callee inner properties rest
    split
    · have inside : Node.heightOf (properties.map s.strippedProperty) ≤
          Node.heightOf properties := by
        refine heightOf_le_iff.mpr fun changed here => ?_
        obtain ⟨property, within, rfl⟩ := List.mem_map.mp here
        exact Nat.le_trans (height_strippedProperty_le s property)
          (heightOf_le_iff.mp (Nat.le_refl _) property within)
      simp only [Node.children_mk, Node.heightOf_cons, Node.height_mk]
      omega
    · have inside := heightOf_keptProperties_le s inner properties
      simp only [Node.children_mk, Node.heightOf_cons, Node.height_mk]
      omega
    · exact Nat.le_refl _
  · exact Nat.le_refl _

end Height

/-! ### Reached sites -/

/-- The sites that a walk of some depth reaches in a tree. -/
def Setting.reached (s : Setting) : Nat → Node → List Node
  | 0, _ => []
  | depth + 1, node =>
    ownSite node ++ (s.stripped node).children.flatMap (s.reached depth)

/-- The sites that a walk through a unit reaches. -/
def Setting.reachedIn (s : Setting) (unit : List Node) : List Node :=
  unit.flatMap (s.reached (Node.heightOf unit))

section Reach

variable {s : Setting} {site node : Node} {unit : List Node} {depth : Nat}

theorem hidden_of_isSite_eq_false (other : isSite node = false) : s.hidden node = [] := by
  have nothing : s.descriptions node = [] := by
    refine descriptions_eq_nil ?_ ?_
    · rintro tag span attributes rfl
      simp [isSite] at other
    · rintro span callee inner properties rest rfl
      simp [isSite] at other
  rw [Setting.hidden, nothing, sitesOf_nil]

theorem flatMap_hidden_ownSite (s : Setting) (node : Node) :
    (ownSite node).flatMap s.hidden = s.hidden node := by
  rw [ownSite]
  split
  · exact List.flatMap_singleton ..
  · rename_i other
    rw [hidden_of_isSite_eq_false (by simpa using other), List.flatMap_nil]

/-- Each site of a tree is reached, or hidden by a site that is reached, but not both. -/
theorem sites_reached_perm (deep : node.height ≤ depth) :
    (sites node).Perm
      (s.reached depth node ++ (s.reached depth node).flatMap s.hidden) := by
  induction depth generalizing node with
  | zero => cases node; simp at deep
  | succ depth ih =>
      have parts : ((s.stripped node).children.flatMap sites).Perm
          ((s.stripped node).children.flatMap (s.reached depth) ++
            (s.stripped node).children.flatMap fun part =>
              (s.reached depth part).flatMap s.hidden) := by
        refine flatMap_perm_append fun part here => ih ?_
        have lower := heightOf_le_iff.mp (heightOf_stripped_le s node) part here
        cases node
        simp only [Node.height_mk, Node.children_mk] at deep lower
        omega
      rw [← List.flatMap_assoc, ← sitesOf_eq_flatMap] at parts
      rw [sites_eq, Setting.reached, List.flatMap_append, flatMap_hidden_ownSite]
      generalize (s.stripped node).children.flatMap (s.reached depth) = below at parts ⊢
      have divided := (sitesOf_stripped_perm s node).trans (parts.append_right (s.hidden node))
      refine (divided.append_left (ownSite node)).trans ?_
      simp only [List.append_assoc]
      exact (List.perm_append_comm.append_left _).append_left _

theorem sitesOf_reached_perm (s : Setting) (unit : List Node) :
    (sitesOf unit).Perm (s.reachedIn unit ++ (s.reachedIn unit).flatMap s.hidden) := by
  rw [sitesOf_eq_flatMap, Setting.reachedIn, List.flatMap_assoc]
  exact flatMap_perm_append fun node here =>
    sites_reached_perm (heightOf_le_iff.mp (Nat.le_refl _) node here)

/-- What a hidden site hides was hidden anyway. -/
theorem hidden_subset_of_mem (here : site ∈ s.hidden node) : s.hidden site ⊆ s.hidden node := by
  intro other inside
  have within : other ∈ sitesOf site.children :=
    (sitesOf_stripped_perm s site).mem_iff.mpr (List.mem_append_right _ inside)
  exact sitesOf_children_subset here within

theorem mem_describedSites_iff :
    site ∈ s.describedSites unit ↔ site ∈ (s.reachedIn unit).flatMap s.hidden := by
  have all (other : Node) := (sitesOf_reached_perm s unit).mem_iff (a := other)
  rw [Setting.describedSites, List.mem_flatMap]
  constructor
  · rintro ⟨holder, within, inside⟩
    rcases List.mem_append.mp ((all holder).mp within) with reached | hidden
    · exact List.mem_flatMap.mpr ⟨holder, reached, inside⟩
    · obtain ⟨outer, reached, around⟩ := List.mem_flatMap.mp hidden
      exact List.mem_flatMap.mpr ⟨outer, reached, hidden_subset_of_mem around inside⟩
  · intro hidden
    obtain ⟨holder, reached, inside⟩ := List.mem_flatMap.mp hidden
    exact ⟨holder, (all holder).mpr (List.mem_append_left _ reached), inside⟩

/-- In a unit without two sites of the same identity, what is not reached is what is inside
descriptions. -/
theorem mem_reachedIn_iff (distinct : ((sitesOf unit).map siteId).Nodup) :
    site ∈ s.reachedIn unit ↔ site ∈ sitesOf unit ∧ site ∉ s.describedSites unit := by
  have all := sitesOf_reached_perm s unit
  have differ : (sitesOf unit).Nodup :=
    List.Pairwise.of_map siteId (fun _ _ different same => different (by rw [same])) distinct
  have separate := List.nodup_append.mp (all.nodup_iff.mp differ)
  rw [mem_describedSites_iff, all.mem_iff, List.mem_append]
  constructor
  · intro reached
    exact ⟨.inl reached, fun hidden => separate.2.2 site reached site hidden rfl⟩
  · rintro ⟨reached | hidden, visible⟩
    · exact reached
    · exact absurd hidden visible

end Reach

end Extraction

end MessageCatalog
