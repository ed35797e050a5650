import ServiceGovernance.Config.Basic
import ServiceGovernance.Proofs.Synced.Nodes
import ServiceGovernance.Proofs.Synced.Tree

/-!
Whether a configuration that passes its check can publish. The check wants the root to begin with a
slash, and the store wants every path to be made of segments: of the roots that pass, those that end with
a slash or hold two in a row lead to paths that the store refuses, however often they are tried again.
-/

namespace ServiceGovernance

open Endpoint Store.Path SyncedRegistry Synced

variable {root : String} {e : Endpoint} {s : Synced}

section Node

/-- The node of an endpoint has a valid path exactly if the root is made of segments. -/
theorem SyncedRegistry.isValid_nodePath_iff (filled : root ≠ "") (named : e.interface ≠ "")
    (category : Segment e.category) : isValid (nodePath root e) = true ↔ Absolute root := by
  constructor
  · intro valid
    have leaf : Leaf root (nodePath root e) := leaf_nodePath
    have absolute := absolute_of_isValid valid leaf.ne_rootPath
    have above : categoryPath root e.interface e.category ∈ ancestors (nodePath root e) :=
      mem_ancestors_join (join_ne_empty _ _) _
    exact absolute.of_ancestor (ancestors_trans (root_mem_ancestors_categoryPath filled ..) above)
  · intro absolute
    exact (Absolute.child (absolute_categoryPath absolute named category)
      (segment_encode e.canonical_ne_empty)).isValid

theorem Synced.writeNode_of_invalid (invalid : isValid (nodePath s.sync.root e) = false) :
    s.writeNode e = (.error (.invalidPath (nodePath s.sync.root e)), s) := by
  have refused : s.store.create (nodePath s.sync.root e) e.isDynamic =
      (.error (.invalidPath (nodePath s.sync.root e)), s.store) := by
    rw [Store.create, invalid]
    rfl
  unfold writeNode ensureNode
  rw [refused]

theorem Synced.recoverEndpoint_of_invalid (invalid : isValid (nodePath s.sync.root e) = false) :
    s.recoverEndpoint e =
      s.withBacklog { s.sync.backlog with registered := s.sync.backlog.registered.add e } := by
  unfold recoverEndpoint
  rw [writeNode_of_invalid invalid]

theorem Synced.retryRegister_of_invalid (invalid : isValid (nodePath s.sync.root e) = false) :
    s.retryRegister e = s := by
  unfold retryRegister
  rw [writeNode_of_invalid invalid]

theorem Synced.writeNode_of_valid (valid : isValid (nodePath s.sync.root e) = true)
    (online : s.store.online = true) :
    ∃ store, s.writeNode e = (.ok (), { s with store }) ∧ store.isNode (nodePath s.sync.root e) = true := by
  rcases s.ensureNode_cases (nodePath s.sync.root e) e.isDynamic with
    ⟨refused, _⟩ | ⟨_, there, done⟩ | ⟨_, _, done⟩
  · exact absurd refused (by simp [Refused, valid, online])
  · exact ⟨s.store, done, there⟩
  · exact ⟨_, done, (Store.isNode_planted ..).2 (.inl rfl)⟩

/-- A registry in which an endpoint is registered, before its node is written. -/
def Synced.announced (s : Synced) (e : Endpoint) : Synced :=
  (s.withRegistry (s.sync.registry.register e)).withBacklog (s.sync.backlog.forget e)

theorem Synced.register_eq (s : Synced) (e : Endpoint) : s.register e = (s.announced e).recoverEndpoint e := rfl

/-- One lone endpoint to write is all that a retry is about. -/
theorem Synced.retry_of_lone (lone : s.sync.backlog = { registered := SortedSet.add .empty e }) :
    s.retry = s.retryRegister e := by
  have one : (SortedSet.add .empty e).toList = [e] := rfl
  have none_left : SortedSet.toList (.empty : SortedSet Endpoint) = [] := rfl
  simp only [retry, lone, one, none_left, List.foldl_cons, List.foldl_nil]

/-- With nothing else pending, what becomes of a node depends on the root alone. -/
theorem Synced.recoverEndpoint_of_idle (filled : s.sync.root ≠ "") (named : e.interface ≠ "")
    (category : Segment e.category) (empty : s.store.nodes = .empty) (online : s.store.online = true)
    (idle : s.sync.backlog = {}) :
    ((s.recoverEndpoint e).store.isNode (nodePath s.sync.root e) = true ∧ (s.recoverEndpoint e).pending = 0 ↔
      Absolute s.sync.root) ∧
    (¬ Absolute s.sync.root → (s.recoverEndpoint e).store.nodes = .empty ∧ (s.recoverEndpoint e).pending = 1 ∧
      (s.recoverEndpoint e).retry = s.recoverEndpoint e) := by
  have valid := isValid_nodePath_iff filled named category
  by_cases absolute : Absolute s.sync.root
  · obtain ⟨store, written, there⟩ := writeNode_of_valid (valid.2 absolute) online
    have done : s.recoverEndpoint e = { s with store } := by
      unfold recoverEndpoint
      rw [written]
    have pending : Synced.pending { s with store } = 0 := by
      unfold Synced.pending
      rw [idle]
      rfl
    rw [done]
    exact ⟨iff_of_true ⟨there, pending⟩ absolute, absurd absolute⟩
  · have invalid : isValid (nodePath s.sync.root e) = false := by simpa using mt valid.1 absolute
    have lone : s.recoverEndpoint e = s.withBacklog { registered := SortedSet.add .empty e } := by
      rw [recoverEndpoint_of_invalid invalid, idle]
    have one : (s.withBacklog { registered := SortedSet.add .empty e }).pending = 1 := rfl
    rw [lone]
    exact ⟨iff_of_false (by simp [one]) absolute, fun _ =>
      ⟨empty, one, (retry_of_lone rfl).trans (retryRegister_of_invalid invalid)⟩⟩

end Node

namespace Config

variable {c : Config} {store : Store}

theorem root_ne_empty_of_check (accepted : c.check = .ok ()) : c.registry.root ≠ "" := by
  intro empty
  rw [check, empty] at accepted
  cases accepted

/-- Of the configurations that pass their check, exactly those whose root is made of segments can publish.
With any other root the store stays empty, and the endpoint waits for a retry that changes nothing. -/
theorem publishes_iff_absolute (accepted : c.check = .ok ()) (named : e.interface ≠ "")
    (category : Segment e.category) (empty : store.nodes = .empty) (online : store.online = true)
    (lookupTimeout retryPeriod : Nat) :
    let s := (Synced.start store c.registry.root lookupTimeout retryPeriod).register e
    (s.store.isNode (nodePath c.registry.root e) = true ∧ s.pending = 0 ↔ Absolute c.registry.root) ∧
    (¬ Absolute c.registry.root → s.store.nodes = .empty ∧ s.pending = 1 ∧ s.retry = s) := by
  intro s
  have registered : s =
      ((Synced.start store c.registry.root lookupTimeout retryPeriod).announced e).recoverEndpoint e :=
    register_eq ..
  rw [registered]
  exact recoverEndpoint_of_idle (root_ne_empty_of_check accepted) named category empty online rfl

def provider : Endpoint := { protocol := "p", host := "h", port := 1, path := "i" }

theorem publishes_under_default :
    Endpoint.parse "p://h:1/i" = .ok provider ∧
      ((Synced.start {} "/rpc" 5000 5000).register provider).store.isNode (nodePath "/rpc" provider) = true ∧
        ((Synced.start {} "/rpc" 5000 5000).register provider).pending = 0 := by
  have absolute : Absolute "/rpc" := @Absolute.top "rpc" (by decide)
  have accepted : check {} = .ok () := by decide
  have named : provider.interface ≠ "" := by decide
  have category : Segment provider.category := by decide
  have empty : ({} : Store).nodes = .empty := rfl
  have published := publishes_iff_absolute accepted named category empty rfl 5000 5000
  exact ⟨by decide +kernel, published.1.2 absolute⟩

/-- The top of the store is a root that passes the check. -/
theorem top_unpublished :
    let c : Config := { registry := { root := rootPath } }
    let s := (Synced.start {} c.registry.root 5000 5000).register provider
    c.check = .ok () ∧ Endpoint.parse "p://h:1/i" = .ok provider ∧ provider.interface ≠ "" ∧
      Segment provider.category ∧ s.store.nodes = .empty ∧ s.pending = 1 ∧ s.retry.pending = 1 := by
  decide +kernel

end Config

end ServiceGovernance
