import Mathlib.Data.String.Basic
import ServiceGovernance.Proofs.Balance.Answering
import ServiceGovernance.Proofs.Endpoint.Canonical

/-!
The first candidate in canonical order. Endpoints that were read from texts are told apart by their
canonical texts, so among them the least text belongs to one endpoint only, and the order in which they
are listed has no say in the pick.
-/

namespace ServiceGovernance

variable {candidates order : List Endpoint} {e f : Endpoint}

namespace Endpoint

theorem address_eq_iff (e f : Endpoint) : e.address = f.address ↔ e.host = f.host ∧ e.port = f.port := by
  constructor
  · intro same
    obtain ⟨hosts, ports⟩ := addressChars_injective (String.ofList_injective same)
    exact ⟨String.toList_inj.1 hosts, ports⟩
  · rintro ⟨hosts, ports⟩
    rw [address, address, hosts, ports]

/-- Endpoints that have been read, each from some text. -/
def AllRead (endpoints : List Endpoint) : Prop := ∀ e ∈ endpoints, ∃ text, parse text = .ok e

theorem eq_iff_canonical_eq_of_parse {text other : String} (read : parse text = .ok e)
    (also_read : parse other = .ok f) : e = f ↔ e.canonical = f.canonical :=
  ⟨congrArg canonical, canonical_injective (.of_parse read) (.of_parse also_read)⟩

theorem AllRead.injOn (read : AllRead candidates) : Set.InjOn canonical {e | e ∈ candidates} := by
  intro e here f there same
  obtain ⟨text, first⟩ := read e here
  obtain ⟨other, second⟩ := read f there
  exact (eq_iff_canonical_eq_of_parse first second).2 same

end Endpoint

namespace Balance

theorem pickFirst?_eq_none_iff : pickFirst? candidates = none ↔ candidates = [] := by
  constructor
  · intro nobody
    by_contra filled
    obtain ⟨e, _, picked⟩ := pickFirst?_answers filled
    rw [nobody] at picked
    cases picked
  · rintro rfl
    rfl

/-- The picked candidate is one of them, and none of them comes before it. -/
theorem pickFirst?_spec (picked : pickFirst? candidates = some e) :
    e ∈ candidates ∧ ∀ other ∈ candidates, e.canonical ≤ other.canonical := by
  induction candidates generalizing e with
  | nil => cases picked
  | cons head rest ih =>
      unfold pickFirst? at picked
      split at picked
      · next nobody =>
          cases picked
          simp [pickFirst?_eq_none_iff.1 nobody]
      · next best found =>
          obtain ⟨member, least⟩ := ih found
          split at picked
          · next before =>
              cases picked
              exact ⟨List.mem_cons_of_mem _ member, List.forall_mem_cons.2 ⟨before.le, least⟩⟩
          · next behind =>
              cases picked
              have first := not_lt.1 behind
              exact ⟨List.mem_cons_self, List.forall_mem_cons.2
                ⟨le_rfl, fun other there => first.trans (least other there)⟩⟩

/-- Where the canonical texts tell the candidates apart, the one with the least text is picked. -/
theorem pickFirst?_eq_some_iff (apart : Set.InjOn Endpoint.canonical {e | e ∈ candidates}) :
    pickFirst? candidates = some e ↔ e ∈ candidates ∧ ∀ other ∈ candidates, e.canonical ≤ other.canonical := by
  constructor
  · exact pickFirst?_spec
  · rintro ⟨member, least⟩
    obtain ⟨first, there, picked⟩ := pickFirst?_answers (List.ne_nil_of_mem member)
    have not_after := (pickFirst?_spec picked).2 e member
    rw [picked, apart there member (not_after.antisymm (least first there))]

theorem pickFirst?_perm (apart : Set.InjOn Endpoint.canonical {e | e ∈ candidates})
    (same : order.Perm candidates) : pickFirst? order = pickFirst? candidates := by
  have members : {e | e ∈ order} = {e | e ∈ candidates} := Set.ext fun e => same.mem_iff
  apply Option.ext
  intro e
  rw [pickFirst?_eq_some_iff apart, pickFirst?_eq_some_iff (members ▸ apart)]
  simp only [same.mem_iff]

open Endpoint

/-- Endpoints that were read are the same if their canonical texts are, and any endpoints have the same
address only if they have the same host and port. So one endpoint is picked from all orders of a list of
endpoints that were read: the one with the least canonical text. -/
theorem canonical_decides :
    (∀ {text other : String} {e f : Endpoint}, parse text = .ok e → parse other = .ok f →
      (e = f ↔ e.canonical = f.canonical)) ∧
    (∀ e f : Endpoint, e.address = f.address ↔ e.host = f.host ∧ e.port = f.port) ∧
    ∀ candidates order : List Endpoint, AllRead candidates → order.Perm candidates →
      pickFirst? order = pickFirst? candidates ∧
        ∀ e, pickFirst? order = some e ↔
          e ∈ candidates ∧ ∀ other ∈ candidates, e.canonical ≤ other.canonical := by
  refine ⟨eq_iff_canonical_eq_of_parse, address_eq_iff, fun candidates order read same => ?_⟩
  have one := pickFirst?_perm read.injOn same
  exact ⟨one, fun e => one ▸ pickFirst?_eq_some_iff read.injOn⟩

/-- Its host is read from brackets that are not written again. -/
def opened : Endpoint := { protocol := "tri", host := "[a", port := 1 }

def greeter : Endpoint :=
  { protocol := "tri", host := "b", port := 1, path := "greeter", params := .ofList [("x", "1"), ("y", "2")] }

theorem opened_before_greeter :
    parse "tri://[[a]:1" = .ok opened ∧ parse "tri://b:01/greeter?y=2&x=1" = .ok greeter ∧
      parse "tri://b:1/greeter?x=1&y=2&" = .ok greeter ∧
      (opened = greeter ↔ opened.canonical = greeter.canonical) ∧
      pickFirst? [greeter, opened] = pickFirst? [opened, greeter] ∧
      pickFirst? [greeter, opened] = some opened := by
  have first : parse "tri://[[a]:1" = .ok opened := rfl
  have second : parse "tri://b:01/greeter?y=2&x=1" = .ok greeter := rfl
  have again : parse "tri://b:1/greeter?x=1&y=2&" = .ok greeter := rfl
  obtain ⟨told_apart, _, picked⟩ := canonical_decides
  have read : AllRead [opened, greeter] := by
    simp only [AllRead, List.forall_mem_cons]
    exact ⟨⟨_, first⟩, ⟨_, second⟩, by simp⟩
  obtain ⟨same, least⟩ := picked [opened, greeter] [greeter, opened] read (.swap _ _ _)
  refine ⟨first, second, again, told_apart first again, same, (least opened).2 ?_⟩
  exact ⟨by simp, by decide⟩

end Balance

end ServiceGovernance
