import ServiceGovernance.Proofs.Endpoint.Canonical
import ServiceGovernance.Proofs.Store.Paths
import ServiceGovernance.Registry.Synced

/-!
Where things lie below the root of a synced registry: interfaces one level down, their categories two
levels, endpoints three levels. No two endpoints share a node.
-/

namespace ServiceGovernance

open Store.Path Text

/-- An endpoint that has a place below a root. -/
structure Endpoint.Placeable (e : Endpoint) : Prop where
  interface : e.interface ≠ ""
  category : Absolute ("/" ++ e.category)

theorem Endpoint.canonical_ne_empty (e : Endpoint) : e.canonical ≠ "" := by
  intro empty
  have chars := congrArg String.toList empty
  simp [canonical, canonicalChars] at chars

theorem Endpoint.interface_withParam_interface (e : Endpoint) (interface : String) :
    (e.withParam "interface" interface).interface = interface := by
  rw [Endpoint.interface, param?_withParam, if_pos rfl, Option.getD_some]

theorem Endpoint.interface_conditionRule (interface rule : String) :
    (Endpoint.conditionRule interface rule).interface = interface := by
  simp [Endpoint.conditionRule, Endpoint.interface, Endpoint.param?_withParam]

theorem Endpoint.category_conditionRule (interface rule : String) :
    (Endpoint.conditionRule interface rule).category = Endpoint.routersCategory := by
  simp [Endpoint.conditionRule, Endpoint.category, Endpoint.param?_withParam]

namespace SyncedRegistry

variable {root interface category path : String} {e f : Endpoint}

def interfacePath (root interface : String) : String := root ++ "/" ++ Percent.encode interface

theorem categoryPath_eq (root interface category : String) :
    categoryPath root interface category = interfacePath root interface ++ "/" ++ category := rfl

theorem not_mem_encode (text : String) : '/' ∉ (Percent.encode text).toList := by
  rw [Percent.encode, String.toList_ofList]
  exact Percent.not_mem_encodeChars (by decide) _

theorem segment_encode {text : String} (filled : text ≠ "") : Segment (Percent.encode text) := by
  refine ⟨fun empty => filled (Percent.encode_injective (empty.trans ?_)), not_mem_encode text⟩
  rfl

theorem slashes_interfacePath (root interface : String) :
    slashes (interfacePath root interface) = slashes root + 1 := by
  rw [interfacePath, slashes_join, slashes_segment (not_mem_encode _)]

theorem slashes_categoryPath (plain : '/' ∉ category.toList) (root interface : String) :
    slashes (categoryPath root interface category) = slashes root + 2 := by
  rw [categoryPath_eq, slashes_join, slashes_interfacePath, slashes_segment plain]

theorem slashes_nodePath (plain : '/' ∉ e.category.toList) (root : String) :
    slashes (nodePath root e) = slashes root + 3 := by
  rw [nodePath, slashes_join, slashes_categoryPath plain, slashes_segment (not_mem_encode _)]

theorem absolute_interfacePath (absolute : Absolute root) (filled : interface ≠ "") :
    Absolute (interfacePath root interface) :=
  .child absolute (segment_encode filled)

theorem absolute_categoryPath (absolute : Absolute root) (filled : interface ≠ "")
    (segment : Segment category) :
    Absolute (categoryPath root interface category) :=
  .child (absolute_interfacePath absolute filled) segment

theorem nodePath_injective (plain : e.Plain) (other : f.Plain) (same : nodePath root e = nodePath root f) :
    e = f := by
  have names := ((join_inj (not_mem_encode _) (not_mem_encode _)).1 same).2
  exact Endpoint.canonical_injective plain other (Percent.encode_injective names)

theorem categoryPath_inj {other last : String}
    (same : categoryPath root interface category = categoryPath root other last) :
    interface = other ∧ category = last := by
  have chars := congrArg String.toList same
  simp only [categoryPath_eq, interfacePath, toList_join, List.append_assoc, List.cons_append,
    List.append_cancel_left_eq, List.cons.injEq, true_and] at chars
  obtain ⟨interfaces, categories⟩ := (Endpoint.append_inj_of_separator (not_mem_encode _) (not_mem_encode _)
    (.inr rfl) (.inr rfl)).1 chars
  exact ⟨Percent.encode_injective (String.toList_inj.1 interfaces),
    String.toList_inj.1 (List.cons.inj categories).2⟩

theorem categoryPath_ne_root (root interface category : String) :
    categoryPath root interface category ≠ root := by
  intro same
  have lengths := congrArg (fun path => (String.toList path).length) same
  simp only [categoryPath_eq, interfacePath, toList_join, List.length_append, List.length_cons] at lengths
  omega

theorem expandedCategories_scopeTo (query : Endpoint) (interface : String) :
    (scopeTo query interface).expandedCategories = query.expandedCategories := by
  have categories : (scopeTo query interface).categories = query.categories := by
    rw [Endpoint.categories, Endpoint.categories, scopeTo, Endpoint.param?_withParam, if_neg (by decide)]
  rw [Endpoint.expandedCategories, Endpoint.expandedCategories, categories]

/-- No item of a list is empty. -/
theorem ne_empty_of_mem_expandedCategories {query : Endpoint}
    (member : category ∈ query.expandedCategories) :
    category ≠ "" := by
  have known : ∀ name ∈ [Endpoint.providersCategory, Endpoint.routersCategory,
    Endpoint.configuratorsCategory],
      name ≠ "" := by decide
  unfold Endpoint.expandedCategories at member
  split at member
  · exact known category member
  · unfold Endpoint.categories at member
    split at member
    · obtain ⟨item, listed, rfl⟩ := List.mem_map.1 member
      have filled : item ≠ [] := by simpa using (List.mem_filter.1 listed).2
      simpa using filled
    · exact known category (List.mem_cons.2 (.inl (List.mem_singleton.1 member)))

/-- Where the nodes of endpoints are, or anything deeper. -/
def Leaf (root path : String) : Prop :=
  (∃ rest, path = root ++ "/" ++ rest) ∧ slashes root + 3 ≤ slashes path

/-- Whatever an endpoint looks like, its node is no directory. -/
theorem leaf_nodePath : Leaf root (nodePath root e) := by
  refine ⟨⟨Percent.encode e.interface ++ "/" ++ e.category ++ "/" ++ Percent.encode e.canonical, ?_⟩, ?_⟩
  · simp only [nodePath, categoryPath, String.append_assoc]
  · rw [nodePath, slashes_join, categoryPath_eq, slashes_join, slashes_interfacePath]
    omega

theorem Leaf.ne_rootPath (leaf : Leaf root path) : path ≠ rootPath := by
  rintro rfl
  exact absurd leaf.2 (by simp [show slashes rootPath = 1 from by decide])

section Placing

theorem absolute_categoryPath_iff (absolute : Absolute root) :
    Absolute (categoryPath root interface category) ↔ interface ≠ "" ∧ Absolute ("/" ++ category) := by
  by_cases filled : interface = ""
  · refine iff_of_false (fun placed => ?_) fun both => both.1 filled
    -- With no interface two slashes meet.
    refine placed.single ⟨root.toList, category.toList, ?_⟩
    subst filled
    simp [categoryPath_eq, interfacePath, Text.Percent.encode, Text.Percent.encodeChars, Text.Utf8.encode]
  · rw [categoryPath_eq, absolute_append_iff (absolute_interfacePath absolute filled)]
    exact (and_iff_right filled).symm

theorem categoryPath_ne_top (absolute : Absolute root) : categoryPath root interface category ≠ rootPath := by
  intro same
  have lengths := congrArg (fun path => (String.toList path).length) same
  have filled : root.toList ≠ [] := by simpa using absolute.ne_empty
  have positive := List.length_pos_iff.2 filled
  have one : rootPath.toList.length = 1 := rfl
  simp only [categoryPath_eq, interfacePath, toList_join, List.length_append, List.length_cons, one] at lengths
  omega

theorem isValid_categoryPath_iff (absolute : Absolute root) :
    isValid (categoryPath root interface category) = true ↔ interface ≠ "" ∧ Absolute ("/" ++ category) := by
  rw [isValid_iff_absolute (categoryPath_ne_top absolute), absolute_categoryPath_iff absolute]

theorem isValid_nodePath_iff_placeable (absolute : Absolute root) :
    isValid (nodePath root e) = true ↔ e.Placeable := by
  have place : Absolute (nodePath root e) ↔ Absolute (categoryPath root e.interface e.category) := by
    have filled : categoryPath root e.interface e.category ≠ "" := join_ne_empty _ _
    rw [nodePath, absolute_join_iff filled (not_mem_encode _)]
    exact and_iff_left (segment_encode e.canonical_ne_empty)
  rw [isValid_iff_absolute leaf_nodePath.ne_rootPath, place, absolute_categoryPath_iff absolute]
  exact ⟨fun both => ⟨both.1, both.2⟩, fun placeable => ⟨placeable.interface, placeable.category⟩⟩

/-- No node of an endpoint is another one's or lies below it. -/
def Unnested (Known : Endpoint → Prop) (root : String) : Prop :=
  ∀ e f, Known e → Known f → e.Placeable → f.Placeable → e ≠ f →
    nodePath root f ≠ nodePath root e ∧ isBelow (nodePath root e) (nodePath root f) = false

/-- Where categories are single segments, nodes lie side by side. -/
theorem beside_of_plain (plain : '/' ∉ e.category.toList) (other : '/' ∉ f.category.toList) :
    isBelow (nodePath root e) (nodePath root f) = false := by
  rw [Bool.eq_false_iff]
  intro below
  obtain ⟨rest, whole⟩ := (isBelow_iff leaf_nodePath.ne_rootPath).1 below
  have counts := congrArg slashes whole
  rw [slashes_join, slashes_nodePath plain, slashes_nodePath other] at counts
  omega

end Placing

end SyncedRegistry

end ServiceGovernance
