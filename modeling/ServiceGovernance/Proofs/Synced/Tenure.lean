import ServiceGovernance.Proofs.Store.Requests
import ServiceGovernance.Proofs.Synced.Courses
import ServiceGovernance.Proofs.Synced.Upkeep

/-!
A registry that alone writes below its root, with endpoints and queries of any look. An endpoint has a
place below the root if its interface is not empty and its category is made of segments; where one node
lies below another, it goes with that one.
-/

namespace ServiceGovernance.Synced

open SyncedRegistry Store.Path

variable {s : Synced} {Known : Endpoint → Prop} {expiring : Prop}

/-- Of the endpoints something is known, of the queries nothing. -/
def Usage.ofKnown (Known : Endpoint → Prop) (expiring : Prop) : Usage := ⟨Known, expiring, False, nofun⟩

/-- What becomes of a registry that alone writes below its root. Of the endpoints that it is asked to
register or unregister something is known; queries are of any kind, and a query without an interface is
refused. Sessions are lost only if they may be. -/
def Tenure (Known : Endpoint → Prop) (expiring : Prop) : Synced → Prop :=
  Run (fun store root => Absolute root ∧ store.Pathed ∧
      (∀ watch path, store.watches.get? watch ≠ some ⟨path, store.nextMailbox⟩) ∧
      store.awaited store.nextMailbox = [])
    fun s event => (Usage.ofKnown Known expiring).Allows s event ∧ s.OthersAbroad event

section Tenure

theorem Tenure.course (tenure : Tenure Known expiring s) : Course s :=
  tenure.mono (fun _ _ fit => fit.2.2) fun _ _ allowed => allowed.2

theorem Course.reached (course : Course s) : Reached s :=
  course.mono (fun _ _ _ => trivial) fun _ _ _ => trivial

theorem Tenure.nodesOrBacklog (tenure : Tenure Known expiring s) :
    NodesOrBacklog (.ofKnown Known expiring) (fun _ => False) (fun _ => False) s :=
  Run.nodesOrBacklog tenure (fun _ _ fit => fit.1) (fun _ _ _ fit there => fit.2.1.nodes _ there)
    (fun plain => plain.elim) fun _ _ allowed => allowed.1

theorem Tenure.retry (tenure : Tenure Known expiring s) : Tenure Known expiring s.retry :=
  Run.step tenure .retry ⟨trivial, trivial⟩

/-- A registry on an empty store. -/
theorem tenure_start {root : String} (absolute : Absolute root) (lookupTimeout retryPeriod : Nat) :
    Tenure Known expiring (start {} root lookupTimeout retryPeriod) := by
  have pathed : Store.Pathed {} := ⟨fun _ there => (nomatch there), fun _ _ live => (nomatch live)⟩
  exact .start ⟨absolute, pathed, fun _ _ found => (nomatch found), rfl⟩ lookupTimeout retryPeriod

end Tenure

end ServiceGovernance.Synced
