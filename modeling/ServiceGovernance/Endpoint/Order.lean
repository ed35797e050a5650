import ServiceGovernance.Endpoint.Basic

/-!
The order of endpoints: by protocol, host, port, path and then by the parameters as a sequence of
pairs. It is total, and endpoints that compare equal are equal.
-/

namespace ServiceGovernance.Endpoint

def comparePair : String × String → String × String → Ordering :=
  compareLex (compareOn Prod.fst) (compareOn Prod.snd)

def compareParams : Endpoint → Endpoint → Ordering := fun a b =>
  List.compareLex comparePair a.params.entries b.params.entries

def compareParts : Endpoint → Endpoint → Ordering :=
  compareLex (compareOn protocol) <| compareLex (compareOn host) <| compareLex (compareOn port) <|
    compareLex (compareOn path) compareParams

instance : Ord Endpoint := ⟨compareParts⟩

theorem compareLex_eq_iff {α : Type} {first second : α → α → Ordering} {a b : α} :
    compareLex first second a b = .eq ↔ first a b = .eq ∧ second a b = .eq := by
  unfold compareLex
  cases first a b <;> simp

theorem compareOn_eq_iff {α β : Type} [Ord β] [Std.LawfulEqOrd β] {f : α → β} {a b : α} :
    compareOn f a b = .eq ↔ f a = f b := by
  show compare (f a) (f b) = .eq ↔ _
  exact Std.LawfulEqCmp.compare_eq_iff_eq

instance : Std.TransCmp comparePair :=
  inferInstanceAs (Std.TransCmp (compareLex _ _))

instance : Std.LawfulEqCmp comparePair where
  compare_self := Std.ReflCmp.compare_self
  eq_of_compare := fun equal =>
    have both := compareLex_eq_iff.1 equal
    Prod.ext (compareOn_eq_iff.1 both.1) (compareOn_eq_iff.1 both.2)

instance : Std.TransCmp compareParams where
  eq_swap := fun {a b} => by
    show List.compareLex comparePair a.params.entries b.params.entries = _
    exact Std.OrientedCmp.eq_swap
  isLE_trans := fun {a b c} first second => by
    show (List.compareLex comparePair a.params.entries c.params.entries).isLE = true
    exact Std.TransCmp.isLE_trans first second

instance : Std.TransOrd Endpoint :=
  inferInstanceAs (Std.TransCmp (compareLex _ _))

instance : Std.LawfulEqOrd Endpoint where
  compare_self := Std.ReflCmp.compare_self
  eq_of_compare := fun {a b} equal => by
    have protocols := compareLex_eq_iff.1 equal
    have hosts := compareLex_eq_iff.1 protocols.2
    have ports := compareLex_eq_iff.1 hosts.2
    have paths := compareLex_eq_iff.1 ports.2
    have entries : a.params.entries = b.params.entries :=
      Std.LawfulEqCmp.compare_eq_iff_eq.1 paths.2
    have params := SortedMap.eq_of_entries entries
    have protocol := compareOn_eq_iff.1 protocols.1
    have host := compareOn_eq_iff.1 hosts.1
    have port := compareOn_eq_iff.1 ports.1
    have path := compareOn_eq_iff.1 paths.1
    cases a; cases b
    simp_all

def sorted (endpoints : List Endpoint) : List Endpoint :=
  endpoints.mergeSort fun a b => (compare a b).isLE

def distinctCount (endpoints : List Endpoint) : Nat :=
  (SortedSet.ofList endpoints).size

end ServiceGovernance.Endpoint
