import Mathlib.Data.String.Basic
import ServiceGovernance.Proofs.SortedSets
import ServiceGovernance.Proofs.Store.Paths
import ServiceGovernance.Store.Basic

/-!
The children of a path are read from one stretch of the nodes, which stand in the order of their paths. The
stretch misses none of them: what is less than the lead of a path does not begin with it, and between two
texts that are not less than the lead, the later of which begins with it, all begin with it.
-/

namespace ServiceGovernance

section Stretches

variable {α : Type} {p : α → Bool} {items : List α}

/-- Where what has the property comes first, reading stops in time. -/
theorem takeWhile_eq_filter (first : items.Pairwise fun a b => p b = true → p a = true) :
    items.takeWhile p = items.filter p := by
  induction items with
  | nil => rfl
  | cons a rest ih =>
      obtain ⟨before, later⟩ := List.pairwise_cons.1 first
      rw [List.takeWhile_cons, List.filter_cons]
      split
      · rw [ih later]
      · next lacks =>
          refine (List.filter_eq_nil_iff.2 fun b member has => lacks ?_).symm
          exact before b member has

theorem dropWhile_eq_filter (first : items.Pairwise fun a b => p b = true → p a = true) :
    items.dropWhile p = items.filter (!p ·) := by
  induction items with
  | nil => rfl
  | cons a rest ih =>
      obtain ⟨before, later⟩ := List.pairwise_cons.1 first
      rw [List.dropWhile_cons, List.filter_cons]
      split
      · next has => rw [ih later, if_neg (by simp [has])]
      · next lacks =>
          rw [if_pos (by simpa using lacks), List.filter_eq_self.2 fun b member => ?_]
          simpa using mt (before b member) lacks

/-- What is taken from the front of a list are the items that nothing at or before them stops. -/
theorem mem_takeWhile_iff {before : α → α → Prop} {item : α} (asymm : ∀ a b, before a b → ¬ before b a)
    (ordered : items.Pairwise before) :
    item ∈ items.takeWhile p ↔
      item ∈ items ∧ ∀ first ∈ items, first = item ∨ before first item → p first = true := by
  induction items with
  | nil => simp
  | cons a rest ih =>
      obtain ⟨ahead, later⟩ := List.pairwise_cons.1 ordered
      rw [List.takeWhile_cons]
      split
      · next kept =>
          rw [List.mem_cons, List.mem_cons, ih later]
          constructor
          · rintro (rfl | ⟨member, all⟩)
            · refine ⟨.inl rfl, fun first member placed => ?_⟩
              rcases List.mem_cons.1 member with rfl | member
              · exact kept
              · rcases placed with rfl | placed
                · exact kept
                · exact absurd placed (asymm _ _ (ahead first member))
            · refine ⟨.inr member, fun first there placed => ?_⟩
              rcases List.mem_cons.1 there with rfl | there
              · exact kept
              · exact all first there placed
          · rintro ⟨rfl | member, all⟩
            · exact .inl rfl
            · exact .inr ⟨member, fun first there => all first (List.mem_cons_of_mem _ there)⟩
      · next stopped =>
          refine iff_of_false List.not_mem_nil ?_
          rintro ⟨member, all⟩
          refine stopped (all a List.mem_cons_self ?_)
          rcases List.mem_cons.1 member with rfl | member
          · exact .inl rfl
          · exact .inr (ahead item member)

end Stretches

namespace SortedMap

variable {κ ν : Type} [Ord κ]

theorem keys_increasing (m : SortedMap κ ν) : m.keys.Pairwise fun a b => compare a b = .lt :=
  List.pairwise_map.2 m.increasing

variable [Std.TransOrd κ]

theorem keysFrom_eq_filter (m : SortedMap κ ν) (least : κ) :
    m.keysFrom least = m.keys.filter (compare · least != .lt) :=
  dropWhile_eq_filter <| m.keys_increasing.imp fun before low => by
    rw [beq_iff_eq] at low ⊢
    exact Std.TransCmp.lt_trans before low

end SortedMap

namespace Store

variable {s : Store} {path : String}

namespace Path

theorem not_lt_of_leads {lead text : List Char} (leads : lead <+: text) : ¬ text < lead := by
  obtain ⟨rest, rfl⟩ := leads
  induction lead with
  | nil => exact List.not_lt_nil _
  | cons c lead ih =>
      rw [List.cons_append, List.cons_lt_cons_iff, not_or]
      exact ⟨lt_irrefl c, fun later => ih later.2⟩

theorem leads_of_between {lead first second : List Char} (from_lead : ¬ first < lead) (before : first < second)
    (leads : lead <+: second) : lead <+: first := by
  induction lead generalizing first second with
  | nil => exact List.nil_prefix
  | cons c lead ih =>
      obtain ⟨rest, rfl⟩ := leads
      cases first with
      | nil => exact absurd (List.nil_lt_cons ..) from_lead
      | cons d first =>
          rw [List.cons_lt_cons_iff, not_or] at from_lead
          rw [List.cons_append, List.cons_lt_cons_iff] at before
          obtain ⟨rfl, later⟩ := before.resolve_left from_lead.1
          have tail := ih (fun less => from_lead.2 ⟨rfl, less⟩) later (List.prefix_append ..)
          exact (List.prefix_cons_inj d).2 tail

theorem compare_lead {key : String} :
    compare key (lead path) = .lt ↔ key.toList < childLead path.toList := by
  rw [Std.LawfulLTCmp.eq_lt_iff_lt, String.lt_iff_toList_lt, lead, String.toList_ofList]

end Path

/-- The stretch holds exactly what lies below the path. -/
theorem stretch_eq_filter (s : Store) (path : String) :
    (s.nodes.keysFrom (Path.lead path)).takeWhile (Path.isBelow path) =
      s.nodes.keys.filter (Path.isBelow path) := by
  have ordered : (s.nodes.keysFrom (Path.lead path)).Pairwise
      fun a b => Path.isBelow path b = true → Path.isBelow path a = true := by
    rw [SortedMap.keysFrom_eq_filter]
    -- What is left starts at the lead, so what comes before a path that begins with it does so too.
    refine (s.nodes.keys_increasing.filter _).imp_of_mem fun {a b} member _ before below => ?_
    have from_lead := (List.mem_filter.1 member).2
    rw [bne_iff_ne, ne_eq, Path.compare_lead] at from_lead
    rw [Std.LawfulLTCmp.eq_lt_iff_lt, String.lt_iff_toList_lt] at before
    rw [Path.isBelow_iff_leads] at below ⊢
    exact Path.leads_of_between from_lead before below
  rw [takeWhile_eq_filter ordered, SortedMap.keysFrom_eq_filter, List.filter_filter]
  refine List.filter_congr fun key _ => ?_
  cases below : Path.isBelow path key with
  | false => rfl
  | true =>
      have := Path.not_lt_of_leads (Path.isBelow_iff_leads.1 below)
      rw [Bool.true_and, bne_iff_ne, ne_eq, Path.compare_lead]
      exact this

/-- Reading the stretch is as good as reading everything. -/
theorem children_eq_filterMap (s : Store) (path : String) :
    s.children path = s.nodes.keys.filterMap (Path.childName? path) := by
  rw [children, stretch_eq_filter, List.filterMap_filter]
  refine List.filterMap_congr fun key _ => ?_
  cases child : Path.childName? path key with
  | none => split <;> rfl
  | some name => rw [if_pos (Path.isBelow_of_childName? child)]

end Store

end ServiceGovernance
