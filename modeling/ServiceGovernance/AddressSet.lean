import ServiceGovernance.SortedMap
import ServiceGovernance.Text.Quoted

/-!
The addresses that stand for one connection target. Sets are ordered as the sequences of their
members.
-/

namespace ServiceGovernance

structure AddressSet where
  addresses : SortedSet String
deriving DecidableEq, Inhabited

namespace AddressSet

def ofList (addresses : List String) : AddressSet := ⟨SortedSet.ofList addresses⟩

def single (address : String) : AddressSet := ofList [address]

def toList (s : AddressSet) : List String := s.addresses.toList

def display (s : AddressSet) : String := "[" ++ ",".intercalate s.toList ++ "]"

/-- The addresses as a list of quoted texts, under the name of the type. -/
def description (s : AddressSet) : String :=
  "AddressSet(\x7b" ++ ", ".intercalate (s.toList.map Text.quoted) ++ "\x7d)"

instance : Ord AddressSet := ⟨fun a b => compare a.toList b.toList⟩

theorem eq_of_toList {a b : AddressSet} (same : a.toList = b.toList) : a = b := by
  have pairs : ∀ s : AddressSet, s.addresses.entries = s.toList.map fun name => (name, ()) := by
    intro s
    rw [toList, SortedSet.toList, SortedMap.keys, List.map_map]
    exact (List.map_id _).symm
  have entries : a.addresses.entries = b.addresses.entries := by rw [pairs, pairs, same]
  cases a; cases b
  simpa using SortedMap.eq_of_entries entries

instance : Std.TransOrd AddressSet where
  eq_swap := fun {a b} => by
    show compare a.toList b.toList = _
    exact Std.OrientedCmp.eq_swap
  isLE_trans := fun {a b c} first second => by
    show (compare a.toList c.toList).isLE = true
    exact Std.TransCmp.isLE_trans first second

instance : Std.LawfulEqOrd AddressSet where
  compare_self := Std.ReflCmp.compare_self
  eq_of_compare := fun equal => eq_of_toList (Std.LawfulEqCmp.compare_eq_iff_eq.1 equal)

def sorted (sets : List AddressSet) : List AddressSet :=
  sets.mergeSort fun a b => (compare a b).isLE

def distinctCount (sets : List AddressSet) : Nat := (SortedSet.ofList sets).size

end AddressSet

end ServiceGovernance
