import ServiceGovernance.Proofs.Endpoint.RoundTrip
import ServiceGovernance.Proofs.Synced.Upkeep

/-!
A registry that has been started where nothing is below its root, with endpoints that have places there and
flat queries. When it is known how the session is, nothing is missing or left over that does not wait in the
backlog. Main statement: with the store online, one retry makes the nodes those of the registered endpoints.
-/

namespace ServiceGovernance.Synced

open SyncedRegistry Store.Path

variable {s : Synced} {e : Endpoint} {path : String} {usage : Usage} {owed : Endpoint → Prop}

section Endpoints

/-- An endpoint that has been read from a text or made for a rule, with a category that is no path. -/
structure Ordinary (e : Endpoint) : Prop where
  made : (∃ text, Endpoint.parse text = .ok e) ∨ ∃ interface rule, e = Endpoint.conditionRule interface rule
  category : '/' ∉ e.category.toList

/-- One that has a place below a root. -/
structure Registrable (e : Endpoint) : Prop extends Ordinary e where
  interface : e.interface ≠ ""
  filled : e.category ≠ ""

theorem Ordinary.plain (ordinary : Ordinary e) : e.Plain := by
  rcases ordinary.made with ⟨text, read⟩ | ⟨interface, rule, rfl⟩
  · exact .of_parse read
  · exact .conditionRule interface rule

/-- A rule can be published for any interface that has a name, whatever its text is. -/
theorem registrable_conditionRule_iff {interface rule : String} :
    Registrable (Endpoint.conditionRule interface rule) ↔ interface ≠ "" := by
  constructor
  · intro registrable
    have named := registrable.interface
    rwa [Endpoint.interface_conditionRule] at named
  · intro named
    exact {
      made := .inr ⟨interface, rule, rfl⟩
      category := by
        rw [Endpoint.category_conditionRule]
        decide
      interface := by rwa [Endpoint.interface_conditionRule]
      filled := by
        rw [Endpoint.category_conditionRule]
        decide }

theorem unnested_ordinary (root : String) : Unnested Ordinary root := fun _ _ known other _ _ apart =>
  ⟨fun same => apart (nodePath_injective other.plain known.plain same).symm,
    beside_of_plain known.category other.category⟩

theorem unnested_registrable (root : String) : Unnested Registrable root := fun e f known other =>
  unnested_ordinary root e f known.toOrdinary other.toOrdinary

theorem Registrable.placeable (registrable : Registrable e) : e.Placeable :=
  ⟨registrable.interface, .top ⟨registrable.filled, registrable.category⟩⟩

end Endpoints

/-- Registrable endpoints and flat queries, and sessions that may be lost. -/
def registrableUsage : Usage := ⟨Registrable, True, True, fun _ _ known => known.category⟩

/-- The states of a registry that has been started on a store without nodes below its root. -/
def FromClearRoot : Synced → Prop :=
  Run (fun store root => Absolute root ∧ ∀ rest, store.nodes.get? (root ++ "/" ++ rest) = none)
    registrableUsage.Allows

section Settling

theorem FromClearRoot.nodesOrBacklog (run : FromClearRoot s) :
    NodesOrBacklog registrableUsage (fun _ => False) (fun _ => False) s := by
  refine Run.nodesOrBacklog run (fun _ _ fit => fit.1) (fun store root rest fit there => ?_)
    (fun _ _ _ rest fit => fit.2 rest) fun _ _ => id
  simp [Store.isNode, SortedMap.contains, fit.2 rest] at there

/-- After a retry on an online store only registered endpoints have nodes. -/
theorem NodesOrBacklog.owned_retry {node : Store.Node} (holds : NodesOrBacklog usage owed (fun _ => False) s)
    (plain : usage.flat) (online : s.store.online = true) (found : s.retry.store.nodes.get? path = some node)
    (leaf : Leaf s.sync.root path) :
    ∃ e ∈ s.sync.registry.registered.toList, nodePath s.sync.root e = path ∧
      node.ephemeral = e.isDynamic := by
  obtain ⟨after, shrinks, left⟩ := holds.retry
  obtain ⟨e, place, brief, owner⟩ := after.owned plain path node found (shrinks.root.symm ▸ leaf)
  have member := owner.resolve_right (not_or.2 ⟨(left online).2 e, id⟩)
  rw [shrinks.registered] at member
  rw [shrinks.root] at place
  exact ⟨e, member, place, brief⟩

/-- With no notice about the session left, every endpoint either has what it should have or waits for it,
and one retry on an online store leaves the nodes of the registered endpoints and no others. -/
theorem FromClearRoot.retry_settles (run : FromClearRoot s)
    (quiet : ∀ state, .session s.sync.mailbox state ∉ s.store.outbox) :
    (∀ e ∈ s.sync.backlog.registered.toList, e ∈ s.sync.registry.registered.toList) ∧
    (∀ e ∈ s.sync.backlog.unregistered.toList, e ∉ s.sync.registry.registered.toList) ∧
    (∀ e ∈ s.sync.registry.registered.toList, s.store.isNode (nodePath s.sync.root e) = false →
      e ∈ s.sync.backlog.registered.toList) ∧
    (∀ e, Registrable e → e ∉ s.sync.registry.registered.toList →
      s.store.isNode (nodePath s.sync.root e) = true → e ∈ s.sync.backlog.unregistered.toList) ∧
    (s.store.online = true →
      (∀ path, Leaf s.sync.root path → (s.retry.store.isNode path = true ↔
        ∃ e ∈ s.sync.registry.registered.toList, path = nodePath s.sync.root e)) ∧
      ∀ e ∈ s.sync.registry.registered.toList, ∃ node,
        s.retry.store.nodes.get? (nodePath s.sync.root e) = some node ∧ node.ephemeral = e.isDynamic) := by
  have holds := run.nodesOrBacklog
  have known : ∀ e ∈ s.sync.registry.registered.toList, Registrable e := holds.known
  have leaving : ∀ e ∈ s.sync.backlog.unregistered.toList, Registrable e := holds.leaving
  refine ⟨holds.failed, holds.apart, fun e member missing => ?_,
    fun e registrable absent there => ?_, fun online => ?_⟩
  · refine (holds.settled e member id).resolve_right fun ⟨_, there⟩ => ?_
    rw [there (unnested_registrable _) fun _ => quiet _] at missing
    cases missing
  · obtain ⟨node, found⟩ := Store.isNode_iff.1 there
    obtain ⟨f, place, _, owner⟩ := holds.owned trivial _ node found leaf_nodePath
    have other : Registrable f := owner.elim (known f) fun waits => leaving f (waits.resolve_right id)
    obtain rfl := nodePath_injective other.plain registrable.plain place
    exact (owner.resolve_left absent).resolve_right id
  · obtain ⟨after, shrinks, left⟩ := holds.retry
    have there : ∀ e ∈ s.sync.registry.registered.toList,
        s.retry.store.isNode (nodePath s.sync.root e) = true := by
      intro e member
      have returned : s.retry.Returned := fun queued => by
        rw [shrinks.mailbox] at queued
        exact quiet _ ((shrinks.session.sessions _ _).1 queued)
      rw [← shrinks.root]
      rcases after.settled e (shrinks.registered.symm ▸ member) id with waits | ⟨_, stands⟩
      · exact absurd (known e member).placeable ((left online).1 e waits)
      · exact stands (unnested_registrable _) fun _ => returned
    refine ⟨fun path leaf => ⟨fun node => ?_, ?_⟩, fun e member => ?_⟩
    · obtain ⟨node, found⟩ := Store.isNode_iff.1 node
      obtain ⟨e, member, place, _⟩ := holds.owned_retry trivial online found leaf
      exact ⟨e, member, place.symm⟩
    · rintro ⟨e, member, rfl⟩
      exact there e member
    · obtain ⟨node, found⟩ := Store.isNode_iff.1 (there e member)
      obtain ⟨f, other, place, brief⟩ := holds.owned_retry trivial online found leaf_nodePath
      obtain rfl := nodePath_injective (known f other).plain (known e member).plain place
      exact ⟨node, found, brief⟩

end Settling

section Interruption

def lone : Endpoint := { protocol := "a", host := "b", port := 1, path := "i" }

theorem registrable_lone : Registrable lone where
  made := .inl ⟨"a://b:1/i", Endpoint.parse_eq_ok_of_toOption (by decide +kernel)⟩
  category := by decide
  interface := by decide
  filled := by decide

/-- Registered while the store is offline; then the store is back, and it is known to be back. -/
def interrupted : Synced :=
  ((((((start {} "/r" 5000 5000).after (.handle true)).after (.setOnline false)).after (.register lone)).after
    (.setOnline true)).after (.handle true)).after (.handle true)

theorem interrupted_settles :
    interrupted.store.outbox = [] ∧ interrupted.sync.backlog.registered.toList = [lone] ∧
      ∀ path, Leaf interrupted.sync.root path → (interrupted.retry.store.isNode path = true ↔
        ∃ e ∈ interrupted.sync.registry.registered.toList, path = nodePath interrupted.sync.root e) := by
  have silent : interrupted.store.outbox = [] := by decide +kernel
  have online : interrupted.store.online = true := by decide +kernel
  have started : FromClearRoot (start {} "/r" 5000 5000) :=
    .start ⟨@Absolute.top "r" (by decide), fun _ => SortedMap.get?_empty _⟩ 5000 5000
  have run : FromClearRoot interrupted :=
    .step (.step (.step (.step (.step (.step started (.handle true) trivial) (.setOnline false) trivial)
      (.register lone) registrable_lone) (.setOnline true) trivial) (.handle true) trivial)
      (.handle true) trivial
  have quiet : ∀ state, .session interrupted.sync.mailbox state ∉ interrupted.store.outbox := by
    rw [silent]
    exact fun _ => List.not_mem_nil
  obtain ⟨_, _, _, _, settled⟩ := run.retry_settles quiet
  exact ⟨silent, by decide +kernel, (settled online).1⟩

end Interruption

end ServiceGovernance.Synced
