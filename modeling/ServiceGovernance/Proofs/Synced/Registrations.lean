import ServiceGovernance.Proofs.Registry.Notification
import ServiceGovernance.Proofs.Synced.Watching

/-!
Listening, watching and being told change nothing about what is registered. Endpoints and the backlog stay
as they are, and so does each node; the nodes that come are directories, and as long as all queries are flat,
they are none where the nodes of endpoints are.
-/

namespace ServiceGovernance.Synced

open SyncedRegistry Store.Path

variable {flat : Prop} {s t u : Synced} {owner : Endpoint} {path : String}

structure FlatQueries (s : Synced) : Prop where
  subscribed : ∀ query ∈ s.sync.registry.queries, FlatQuery query
  owners : ∀ path, ∀ owner ∈ s.ownersOf path, FlatQuery owner.1

/-- The endpoints that are registered and those in the backlog are the same, and no node has gone. As long
as all queries are flat, no node has come either where those of endpoints are. -/
structure SameRegistrations (flat : Prop) (s t : Synced) : Prop where
  root : t.sync.root = s.sync.root
  mailbox : t.sync.mailbox = s.sync.mailbox
  registered : t.sync.registry.registered = s.sync.registry.registered
  failed : t.sync.backlog.registered = s.sync.backlog.registered
  removed : t.sync.backlog.unregistered = s.sync.backlog.unregistered
  listeners : t.store.listeners = s.store.listeners
  session : Store.Undisturbed s.store t.store
  nodes : ∀ path, s.store.isNode path = true → t.store.isNode path = true
  valid : ∀ path, t.store.isNode path = true → s.store.isNode path = true ∨ isValid path = true
  leaves : flat → ∀ path, Leaf s.sync.root path → t.store.nodes.get? path = s.store.nodes.get? path
  queries : flat → FlatQueries s → FlatQueries t

section SameRegistrations

theorem sameRegistrations_of_nodes (root : t.sync.root = s.sync.root)
    (mailbox : t.sync.mailbox = s.sync.mailbox)
    (registered : t.sync.registry.registered = s.sync.registry.registered)
    (failed : t.sync.backlog.registered = s.sync.backlog.registered)
    (removed : t.sync.backlog.unregistered = s.sync.backlog.unregistered)
    (nodes : t.store.nodes = s.store.nodes) (listeners : t.store.listeners = s.store.listeners)
    (session : Store.Undisturbed s.store t.store) (queries : FlatQueries s → FlatQueries t) :
    SameRegistrations flat s t := by
  refine ⟨root, mailbox, registered, failed, removed, listeners, session, fun path there => ?_,
    fun path there => .inl ?_, fun _ _ _ => by rw [nodes], fun _ => queries⟩
  · rwa [Store.isNode, nodes]
  · rwa [Store.isNode, nodes] at there

theorem SameRegistrations.refl : SameRegistrations flat s s :=
  sameRegistrations_of_nodes rfl rfl rfl rfl rfl rfl rfl .refl id

theorem SameRegistrations.trans (first : SameRegistrations flat s t) (second : SameRegistrations flat t u) :
    SameRegistrations flat s u where
  root := second.root.trans first.root
  mailbox := second.mailbox.trans first.mailbox
  registered := second.registered.trans first.registered
  failed := second.failed.trans first.failed
  removed := second.removed.trans first.removed
  listeners := second.listeners.trans first.listeners
  session := first.session.trans second.session
  nodes path there := second.nodes path (first.nodes path there)
  valid path there := (second.valid path there).elim (first.valid path) .inr
  leaves plain path leaf :=
    (second.leaves plain path (first.root ▸ leaf)).trans (first.leaves plain path leaf)
  queries plain before := second.queries plain (first.queries plain before)

theorem SameRegistrations.foldl {α : Type} {g : Synced → α → Synced} {items : List α}
    (each : ∀ s, (flat → FlatQueries s) → ∀ item ∈ items, SameRegistrations flat s (g s item))
    (queries : flat → FlatQueries s) : SameRegistrations flat s (items.foldl g s) := by
  induction items generalizing s with
  | nil => exact .refl
  | cons item items ih =>
      have first := each s queries item List.mem_cons_self
      refine first.trans (ih (fun s queries item member => each s queries item (.tail _ member)) ?_)
      exact fun plain => first.queries plain (queries plain)

theorem sameRegistrations_watchPath (short : flat → slashes path < slashes s.sync.root + 3)
    (plain : flat → FlatQuery owner) (narrowed : Endpoint) :
    SameRegistrations flat s (s.watchPath path owner narrowed).2 := by
  have session := undisturbed_withDirectory s.store path
  have queries : ∀ (store : Store) (w : WatchedPath),
      w.owners = (addOwner (s.watchedAt path) owner narrowed).owners → flat → FlatQueries s →
        FlatQueries ({ s with store }.putWatched path w) := by
    intro store w same plainly all
    refine ⟨all.subscribed, fun other pair member => ?_⟩
    rw [ownersOf_putWatched] at member
    split at member
    · rw [same, mem_owners_addOwner] at member
      rcases member with rfl | member
      · exact plain plainly
      · exact all.owners path pair member
    · exact all.owners other pair member
  have leaves : flat → ∀ other, Leaf s.sync.root other →
      (withDirectory s.store path).nodes.get? other = s.store.nodes.get? other :=
    fun plainly _ leaf => get?_withDirectory (short plainly) s.store leaf
  rcases s.watchPath_cases path owner narrowed with
    ⟨_, error, failed⟩ | ⟨_, watch, _, done⟩ | ⟨_, _, done⟩
  · rw [failed]
    exact .refl
  all_goals
    have valid := isValid_of_watchPath done
    rw [done]
  · exact ⟨rfl, rfl, rfl, rfl, rfl, listeners_withDirectory _ _, session,
      fun _ => isNode_withDirectory_of_isNode, fun _ => isNode_or_isValid_of_withDirectory valid, leaves,
      queries _ _ rfl⟩
  · exact ⟨rfl, rfl, rfl, rfl, rfl, listeners_withDirectory _ _, ⟨session.online, session.sessions⟩,
      fun _ => isNode_withDirectory_of_isNode, fun _ => isNode_or_isValid_of_withDirectory valid, leaves,
      queries _ _ rfl⟩

/-- Of queries of any kind at least the nodes are known to stay. -/
theorem sameRegistrations_watchPath_any (s : Synced) (path : String) (owner narrowed : Endpoint) :
    SameRegistrations False s (s.watchPath path owner narrowed).2 :=
  sameRegistrations_watchPath nofun nofun narrowed

theorem listenerSteps_sameRegistrations :
    ListenerSteps (fun query => flat → FlatQuery query) (SameRegistrations flat) where
  refl _ := .refl
  trans := .trans
  watchRoot s _ plain := sameRegistrations_watchPath (fun _ => by omega) plain _
  watchCategory s _ narrowed category plain listed := by
    refine sameRegistrations_watchPath (fun plainly => ?_) plain narrowed
    rw [slashes_categoryPath (plain plainly category listed)]
    omega
  notify s updates := sameRegistrations_of_nodes rfl rfl rfl rfl rfl rfl rfl .refl fun before =>
    ⟨before.subscribed, before.owners⟩
  wait s query := sameRegistrations_of_nodes rfl rfl rfl rfl rfl rfl rfl .refl fun before =>
    ⟨before.subscribed, before.owners⟩
  listen s query listener plain := by
    refine ⟨rfl, rfl, rfl, rfl, rfl, rfl, .refl, fun _ => id, fun _ => .inl, fun _ _ _ => rfl,
      fun plainly before => ⟨fun other member => ?_, before.owners⟩⟩
    exact (Registry.mem_queries_addListener.1 member).elim (· ▸ plain plainly) (before.subscribed other)
  leave s query listener := sameRegistrations_of_nodes rfl rfl (Registry.registered_unsubscribe ..) rfl rfl
    rfl rfl .refl fun before =>
      ⟨fun other member => before.subscribed other (Registry.mem_queries_of_unsubscribe member),
        before.owners⟩
  dropPending s query := sameRegistrations_of_nodes rfl rfl rfl rfl rfl rfl rfl .refl fun before =>
    ⟨before.subscribed, before.owners⟩
  dropWatches s owner := by
    obtain ⟨watches, store⟩ := foldl_unwatch_eq (s.released owner) s.store
    have same : (s.dropWatches owner).store = { s.store with watches } := store
    refine sameRegistrations_of_nodes rfl rfl rfl rfl rfl (by rw [same]) (by rw [same]) ?_ fun before =>
      ⟨before.subscribed, fun path pair member =>
        before.owners path pair (mem_ownersOf_dropWatches.1 member).1⟩
    rw [same]
    exact ⟨rfl, fun _ _ => .rfl⟩

theorem sameRegistrations_retrySubscribe (queries : flat → FlatQueries s) (query : Endpoint) :
    SameRegistrations flat s (s.retrySubscribe query) :=
  listenerSteps_sameRegistrations.retrySubscribe fun heard plain =>
    (queries plain).subscribed query (mem_queries_of_hasListeners heard)

theorem sameRegistrations_foldl_retrySubscribe (queries : flat → FlatQueries s) (items : List Endpoint) :
    SameRegistrations flat s (items.foldl retrySubscribe s) :=
  .foldl (fun _ queries query _ => sameRegistrations_retrySubscribe queries query) queries

theorem sameRegistrations_handleChildren (queries : flat → FlatQueries s) (path : String)
    (names : List String) : SameRegistrations flat s (s.handleChildren path names) :=
  listenerSteps_sameRegistrations.handleChildren
    (fun owner member plain => (queries plain).owners _ owner member) path names

end SameRegistrations

end ServiceGovernance.Synced
