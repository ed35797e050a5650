/-!
Finite maps whose entries stand in increasing key order. A map has one list of entries, so maps with
the same lookups are equal and a map can be part of a value that is compared or printed. Main
statements: the lookups after `insert`, `erase`, `filter` and `mapValues`, and extensionality.
-/

namespace ServiceGovernance

structure SortedMap (κ ν : Type) [Ord κ] where
  entries : List (κ × ν)
  increasing : entries.Pairwise fun a b => compare a.1 b.1 = .lt

namespace SortedMap

variable {κ ν μ : Type} [Ord κ]

theorem eq_of_entries {m n : SortedMap κ ν} (same : m.entries = n.entries) : m = n := by
  cases m; cases n; cases same; rfl

instance [DecidableEq κ] [DecidableEq ν] : DecidableEq (SortedMap κ ν) := fun m n =>
  if same : m.entries = n.entries then .isTrue (eq_of_entries same)
  else .isFalse fun equal => same (congrArg entries equal)

def empty : SortedMap κ ν := ⟨[], .nil⟩

instance : Inhabited (SortedMap κ ν) := ⟨empty⟩

def insertEntry (key : κ) (value : ν) : List (κ × ν) → List (κ × ν)
  | [] => [(key, value)]
  | entry :: rest =>
      match compare key entry.1 with
      | .lt => (key, value) :: entry :: rest
      | .eq => (key, value) :: rest
      | .gt => entry :: insertEntry key value rest

def getEntry (key : κ) (entries : List (κ × ν)) : Option ν :=
  (entries.find? fun entry => compare key entry.1 == .eq).map (·.2)

def get? (m : SortedMap κ ν) (key : κ) : Option ν := getEntry key m.entries

def contains (m : SortedMap κ ν) (key : κ) : Bool := (m.get? key).isSome

def keys (m : SortedMap κ ν) : List κ := m.entries.map (·.1)

/-- The keys from `least` on. -/
def keysFrom (m : SortedMap κ ν) (least : κ) : List κ := m.keys.dropWhile (compare · least == .lt)

def values (m : SortedMap κ ν) : List ν := m.entries.map (·.2)

def size (m : SortedMap κ ν) : Nat := m.entries.length

def filter (m : SortedMap κ ν) (keep : κ → ν → Bool) : SortedMap κ ν :=
  ⟨m.entries.filter fun entry => keep entry.1 entry.2, m.increasing.filter _⟩

def erase (m : SortedMap κ ν) (key : κ) : SortedMap κ ν :=
  m.filter fun other _ => compare key other != .eq

def mapValues (m : SortedMap κ ν) (f : κ → ν → μ) : SortedMap κ μ :=
  ⟨m.entries.map fun entry => (entry.1, f entry.1 entry.2),
    List.pairwise_map.2 m.increasing⟩

section Insert

theorem mem_insertEntry {key : κ} {value : ν} {entry : κ × ν} {entries : List (κ × ν)}
    (found : entry ∈ insertEntry key value entries) : entry = (key, value) ∨ entry ∈ entries := by
  induction entries with
  | nil => simpa [insertEntry] using found
  | cons head rest ih =>
      unfold insertEntry at found
      split at found <;> grind

variable [Std.TransOrd κ]

theorem insertEntry_increasing (key : κ) (value : ν) {entries : List (κ × ν)}
    (ordered : entries.Pairwise fun a b => compare a.1 b.1 = .lt) :
    (insertEntry key value entries).Pairwise fun a b => compare a.1 b.1 = .lt := by
  induction entries with
  | nil => exact .cons (by simp) .nil
  | cons head rest ih =>
      have above := (List.pairwise_cons.1 ordered).1
      have tail := (List.pairwise_cons.1 ordered).2
      unfold insertEntry
      split
      · next before =>
          refine .cons (fun entry member => ?_) ordered
          rcases List.mem_cons.1 member with rfl | member
          · exact before
          · exact Std.TransCmp.lt_trans before (above entry member)
      · next same =>
          refine .cons (fun entry member => ?_) tail
          show compare key entry.1 = .lt
          rw [Std.TransCmp.congr_left same]
          exact above entry member
      · next after =>
          refine .cons (fun entry member => ?_) (ih tail)
          rcases mem_insertEntry member with rfl | member
          · exact Std.OrientedCmp.gt_iff_lt.1 after
          · exact above entry member

def insert (m : SortedMap κ ν) (key : κ) (value : ν) : SortedMap κ ν :=
  ⟨insertEntry key value m.entries, insertEntry_increasing key value m.increasing⟩

/-- Of two values for one key the later one stays. -/
def ofList (pairs : List (κ × ν)) : SortedMap κ ν :=
  pairs.foldl (fun m pair => m.insert pair.1 pair.2) empty

/-- The value under `key` becomes `f` of the one that is there, or of `fallback`. -/
def update (m : SortedMap κ ν) (key : κ) (fallback : ν) (f : ν → ν) : SortedMap κ ν :=
  m.insert key (f ((m.get? key).getD fallback))

end Insert

section Lookup

@[simp] theorem get?_empty (key : κ) : (empty : SortedMap κ ν).get? key = none := rfl

variable [Std.LawfulEqOrd κ]

theorem compare_self (key : κ) : compare key key = .eq := Std.ReflCmp.compare_self

variable [DecidableEq κ]

theorem getEntry_insertEntry (key other : κ) (value : ν) (entries : List (κ × ν)) :
    getEntry other (insertEntry key value entries) =
      if other = key then some value else getEntry other entries := by
  induction entries with
  | nil =>
      by_cases same : other = key
      · subst same; simp [insertEntry, getEntry]
      · simp [insertEntry, getEntry, same]
  | cons head rest ih =>
      unfold insertEntry
      split
      · by_cases same : other = key
        · subst same; simp [getEntry]
        · simp [getEntry, List.find?_cons, same]
      · next equal =>
          have equal := Std.LawfulEqCmp.compare_eq_iff_eq.1 equal
          by_cases same : other = key
          · subst same; simp [getEntry]
          · have apart : ¬ other = head.1 := fun h => same (h.trans equal.symm)
            simp [getEntry, same, apart]
      · next after =>
          have apart : ¬ key = head.1 := fun h => by
            rw [h, compare_self] at after; cases after
          by_cases first : other = head.1
          · have : ¬ other = key := fun h => apart (h.symm.trans first)
            rw [if_neg this]
            simp [getEntry, first]
          · have ih' := ih
            simp only [getEntry] at ih' ⊢
            simpa [List.find?_cons, first] using ih'

@[simp] theorem get?_insert [Std.TransOrd κ] (m : SortedMap κ ν) (key other : κ) (value : ν) :
    (m.insert key value).get? other = if other = key then some value else m.get? other :=
  getEntry_insertEntry key other value m.entries

theorem mem_entries_iff (m : SortedMap κ ν) (key : κ) (value : ν) :
    (key, value) ∈ m.entries ↔ m.get? key = some value := by
  obtain ⟨entries, ordered⟩ := m
  show _ ↔ getEntry key entries = some value
  induction entries with
  | nil => simp [getEntry]
  | cons head rest ih =>
      have above := (List.pairwise_cons.1 ordered).1
      have rest_iff := ih (List.pairwise_cons.1 ordered).2
      by_cases same : key = head.1
      · subst same
        have absent : (head.1, value) ∉ rest := fun member => by
          have := above _ member
          rw [compare_self] at this
          cases this
        have here : getEntry head.1 (head :: rest) = some head.2 := by simp [getEntry]
        rw [here, List.mem_cons, or_iff_left absent]
        constructor
        · intro equal; rw [← equal]
        · intro equal; cases equal; rfl
      · have skip : getEntry key (head :: rest) = getEntry key rest := by
          simp [getEntry, same]
        rw [skip, List.mem_cons, ← rest_iff]
        exact or_iff_right fun equal => same (congrArg Prod.fst equal)

theorem get?_filter (m : SortedMap κ ν) (keep : κ → ν → Bool) (key : κ) :
    (m.filter keep).get? key = (m.get? key).filter (keep key) := by
  apply Option.ext
  intro value
  rw [← mem_entries_iff, Option.filter_eq_some_iff, ← mem_entries_iff]
  exact List.mem_filter

@[simp] theorem get?_erase (m : SortedMap κ ν) (key other : κ) :
    (m.erase key).get? other = if other = key then none else m.get? other := by
  rw [erase, get?_filter]
  by_cases same : other = key
  · subst same; cases m.get? other <;> simp
  · have apart : ¬ key = other := fun h => same h.symm
    cases m.get? other <;> simp [same, apart]

theorem get?_mapValues (m : SortedMap κ ν) (f : κ → ν → μ) (key : κ) :
    (m.mapValues f).get? key = (m.get? key).map (f key) := by
  apply Option.ext
  intro value
  rw [← mem_entries_iff, Option.map_eq_some_iff]
  simp only [mapValues, List.mem_map, Prod.mk.injEq]
  constructor
  · rintro ⟨⟨k, v⟩, member, rfl, rfl⟩
    exact ⟨v, (mem_entries_iff m _ _).1 member, rfl⟩
  · rintro ⟨v, found, rfl⟩
    exact ⟨(key, v), (mem_entries_iff m _ _).2 found, rfl, rfl⟩

/-- Maps that answer every lookup alike are the same map. -/
theorem ext [Std.TransOrd κ] {m n : SortedMap κ ν} (same : ∀ key, m.get? key = n.get? key) : m = n := by
  have members : ∀ entry, entry ∈ m.entries ↔ entry ∈ n.entries := fun ⟨key, value⟩ => by
    rw [mem_entries_iff, mem_entries_iff, same]
  clear same
  obtain ⟨left, leftOrdered⟩ := m
  obtain ⟨right, rightOrdered⟩ := n
  apply eq_of_entries
  simp only at members ⊢
  induction left generalizing right with
  | nil =>
      cases right with
      | nil => rfl
      | cons head rest => exact absurd ((members head).2 (by simp)) (by simp)
  | cons a as ih =>
      cases right with
      | nil => exact absurd ((members a).1 (by simp)) (by simp)
      | cons b bs =>
          have aboveA := (List.pairwise_cons.1 leftOrdered).1
          have aboveB := (List.pairwise_cons.1 rightOrdered).1
          have heads : a = b := by
            rcases List.mem_cons.1 ((members a).1 (by simp)) with h | inB
            · exact h
            rcases List.mem_cons.1 ((members b).2 (by simp)) with h | inA
            · exact h.symm
            have ab := aboveA b inA
            have ba := aboveB a inB
            exact absurd (Std.TransCmp.lt_trans ab ba) (by simp)
          subst heads
          congr 1
          apply ih (List.pairwise_cons.1 leftOrdered).2 bs (List.pairwise_cons.1 rightOrdered).2
          intro entry
          have whole := members entry
          by_cases first : entry = a
          · subst first
            exact iff_of_false
              (fun member => absurd (aboveA _ member) (by simp))
              (fun member => absurd (aboveB _ member) (by simp))
          · simpa [first] using whole

end Lookup

end SortedMap

/-- A set of values in increasing order. -/
abbrev SortedSet (κ : Type) [Ord κ] := SortedMap κ Unit

namespace SortedSet

variable {κ : Type} [Ord κ]

def toList (s : SortedSet κ) : List κ := s.keys

section Insert

variable [Std.TransOrd κ]

def add (s : SortedSet κ) (value : κ) : SortedSet κ := s.insert value ()

def ofList (values : List κ) : SortedSet κ := values.foldl add SortedMap.empty

end Insert

end SortedSet

end ServiceGovernance
