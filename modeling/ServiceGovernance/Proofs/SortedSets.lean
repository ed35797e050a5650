import ServiceGovernance.SortedMap

/-!
Membership in sorted maps and sets through their lookups, and folds into them.
-/

namespace ServiceGovernance

/-- Steps that change nothing. -/
theorem foldl_eq_self {σ α : Type} {step : σ → α → σ} {s : σ} {items : List α}
    (still : ∀ item ∈ items, step s item = s) : items.foldl step s = s := by
  induction items with
  | nil => rfl
  | cons first rest ih =>
      rw [List.foldl_cons, still first List.mem_cons_self]
      exact ih fun item member => still item (List.mem_cons_of_mem _ member)

namespace SortedMap

variable {κ ν : Type} [Ord κ]

theorem contains_iff {m : SortedMap κ ν} {key : κ} :
    m.contains key = true ↔ ∃ value, m.get? key = some value :=
  Option.isSome_iff_exists

variable [Std.LawfulEqOrd κ]

theorem nodup_keys (m : SortedMap κ ν) : m.keys.Nodup := by
  refine List.pairwise_map.2 (m.increasing.imp fun {a b} before same => ?_)
  rw [same, compare_self] at before
  cases before

theorem nodup_entries (m : SortedMap κ ν) : m.entries.Nodup :=
  (List.pairwise_map.1 m.nodup_keys).imp fun apart same => apart (congrArg Prod.fst same)

variable [DecidableEq κ]

theorem mem_keys_iff {m : SortedMap κ ν} {key : κ} : key ∈ m.keys ↔ ∃ value, m.get? key = some value := by
  simp only [keys, List.mem_map, Prod.exists, exists_and_right, exists_eq_right, mem_entries_iff]

theorem insert_insert [Std.TransOrd κ] (m : SortedMap κ ν) (key : κ) (value last : ν) :
    (m.insert key value).insert key last = m.insert key last := by
  apply SortedMap.ext
  intro other
  rw [get?_insert, get?_insert, get?_insert]
  split <;> rfl

/-- A value that is there already changes nothing. -/
theorem insert_eq_self [Std.TransOrd κ] {m : SortedMap κ ν} {key : κ} {value : ν}
    (found : m.get? key = some value) : m.insert key value = m := by
  apply SortedMap.ext
  intro other
  rw [get?_insert]
  split
  · next here => rw [here, found]
  · rfl

theorem entries_isEmpty_iff {m : SortedMap κ ν} : m.entries.isEmpty = true ↔ ∀ key, m.get? key = none := by
  constructor
  · intro empty key
    have none_there := List.isEmpty_iff.1 empty
    cases found : m.get? key with
    | none => rfl
    | some value =>
        have member := (mem_entries_iff m key value).2 found
        rw [none_there] at member
        cases member
  · intro missing
    cases whole : m.entries with
    | nil => rfl
    | cons entry rest =>
        have found := (mem_entries_iff m entry.1 entry.2).1 (whole ▸ List.mem_cons_self)
        rw [missing] at found
        cases found

theorem mem_values_iff {m : SortedMap κ ν} {value : ν} :
    value ∈ m.values ↔ ∃ key, m.get? key = some value := by
  simp only [values, List.mem_map, Prod.exists, exists_eq_right, mem_entries_iff]

theorem filter_entries (m : SortedMap κ ν) (key : κ) :
    m.entries.filter (fun entry => entry.1 = key) = ((m.get? key).map fun value => (key, value)).toList := by
  obtain ⟨entries, ordered⟩ := m
  show _ = ((getEntry key entries).map fun value => (key, value)).toList
  induction entries with
  | nil => rfl
  | cons head rest ih =>
      obtain ⟨above, tail⟩ := List.pairwise_cons.1 ordered
      by_cases same : head.1 = key
      · subst same
        have others : rest.filter (fun entry => entry.1 = head.1) = [] := by
          refine List.filter_eq_nil_iff.2 fun entry member equal => ?_
          have before := above entry member
          rw [of_decide_eq_true equal, compare_self] at before
          cases before
        simp [getEntry, others]
      · have apart : ¬ key = head.1 := fun h => same h.symm
        simpa [getEntry, same, apart] using ih tail

/-- A key that is there takes one entry with it when it is erased. -/
theorem entries_erase_perm {m : SortedMap κ ν} {key : κ} {value : ν} (found : m.get? key = some value) :
    m.entries.Perm ((key, value) :: (m.erase key).entries) := by
  have absent : (key, value) ∉ (m.erase key).entries := by
    rw [mem_entries_iff, get?_erase, if_pos rfl]
    simp
  refine (List.perm_ext_iff_of_nodup m.nodup_entries
    (List.nodup_cons.2 ⟨absent, (m.erase key).nodup_entries⟩)).2 fun (other, kept) => ?_
  rw [List.mem_cons, mem_entries_iff, mem_entries_iff, get?_erase]
  by_cases same : other = key
  · subst same
    simp [found, eq_comm]
  · simp [same]

/-- A key that is not there adds one entry when it is inserted. -/
theorem entries_insert_perm [Std.TransOrd κ] {m : SortedMap κ ν} {key : κ} (value : ν)
    (absent : m.get? key = none) : (m.insert key value).entries.Perm ((key, value) :: m.entries) := by
  have erased : (m.insert key value).erase key = m := by
    apply SortedMap.ext
    intro other
    rw [get?_erase, get?_insert]
    split <;> simp_all
  have taken : (m.insert key value).get? key = some value := (get?_insert m key key value).trans (if_pos rfl)
  have whole := entries_erase_perm taken
  rwa [erased] at whole

section Fold

variable [Std.TransOrd κ] {α : Type} {key : α → κ} {value : α → ν} {items : List α} {m : SortedMap κ ν}

theorem get?_foldl_insert_of_not_mem {other : κ} (absent : other ∉ items.map key) :
    (items.foldl (fun m item => m.insert (key item) (value item)) m).get? other = m.get? other := by
  induction items generalizing m with
  | nil => rfl
  | cons item items ih =>
      obtain ⟨apart, rest⟩ := not_or.1 (mt List.mem_cons.2 absent)
      rw [List.foldl_cons, ih rest, get?_insert, if_neg apart]

theorem get?_foldl_insert_of_mem {item : α} (distinct : (items.map key).Nodup) (member : item ∈ items) :
    (items.foldl (fun m item => m.insert (key item) (value item)) m).get? (key item) =
      some (value item) := by
  induction items generalizing m with
  | nil => cases member
  | cons first items ih =>
      obtain ⟨absent, rest⟩ := List.nodup_cons.1 distinct
      rw [List.foldl_cons]
      rcases List.mem_cons.1 member with rfl | member
      · rw [get?_foldl_insert_of_not_mem absent, get?_insert, if_pos rfl]
      · exact ih rest member

theorem ofList_entries (m : SortedMap κ ν) : ofList m.entries = m := by
  apply SortedMap.ext
  intro key
  cases found : m.get? key with
  | none =>
      rw [ofList, get?_foldl_insert_of_not_mem, get?_empty]
      intro member
      obtain ⟨value, there⟩ := mem_keys_iff.1 member
      rw [found] at there
      cases there
  | some value =>
      exact get?_foldl_insert_of_mem m.nodup_keys ((mem_entries_iff m key value).2 found)

end Fold

end SortedMap

namespace SortedSet

variable {κ : Type} [Ord κ]

theorem size_eq_zero_iff {s : SortedSet κ} : s.size = 0 ↔ ∀ value, value ∉ s.toList := by
  rw [← List.eq_nil_iff_forall_not_mem, toList, SortedMap.keys, List.map_eq_nil_iff, SortedMap.size,
    List.length_eq_zero_iff]

variable [Std.LawfulEqOrd κ] [DecidableEq κ]

theorem mem_toList_iff {s : SortedSet κ} {value : κ} : value ∈ s.toList ↔ s.get? value = some () := by
  rw [toList, SortedMap.mem_keys_iff]
  exact ⟨fun ⟨(), found⟩ => found, fun found => ⟨(), found⟩⟩

theorem mem_toList_erase {s : SortedSet κ} {value other : κ} :
    other ∈ toList (s.erase value) ↔ other ≠ value ∧ other ∈ s.toList := by
  rw [mem_toList_iff, mem_toList_iff, SortedMap.get?_erase]
  by_cases same : other = value <;> simp [same]

@[simp] theorem not_mem_toList_empty {value : κ} : value ∉ toList (SortedMap.empty : SortedSet κ) := by
  simp [mem_toList_iff]

variable [Std.TransOrd κ]

theorem mem_toList_add {s : SortedSet κ} {value other : κ} :
    other ∈ (s.add value).toList ↔ other = value ∨ other ∈ s.toList := by
  rw [mem_toList_iff, mem_toList_iff, add, SortedMap.get?_insert]
  by_cases same : other = value <;> simp [same]

theorem mem_toList_ofList {values : List κ} {value : κ} :
    value ∈ (ofList values).toList ↔ value ∈ values := by
  suffices general : ∀ s : SortedSet κ,
      value ∈ (values.foldl add s).toList ↔ value ∈ s.toList ∨ value ∈ values by
    simpa [ofList] using general SortedMap.empty
  induction values with
  | nil => simp
  | cons head rest ih =>
      intro s
      rw [List.foldl_cons, ih, mem_toList_add, List.mem_cons]
      grind

theorem ext_toList {s t : SortedSet κ} (same : ∀ value, value ∈ s.toList ↔ value ∈ t.toList) : s = t := by
  apply SortedMap.ext
  intro value
  have := same value
  rw [mem_toList_iff, mem_toList_iff] at this
  cases left : s.get? value <;> cases right : t.get? value <;> simp_all

/-- A set does not depend on the order in which its members come. -/
theorem ofList_perm {values others : List κ} (same : values.Perm others) : ofList values = ofList others :=
  ext_toList fun value => by rw [mem_toList_ofList, mem_toList_ofList, same.mem_iff]

end SortedSet

end ServiceGovernance
