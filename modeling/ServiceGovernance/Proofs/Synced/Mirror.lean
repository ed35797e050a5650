import ServiceGovernance.Proofs.Synced.Currency
import ServiceGovernance.Proofs.Synced.Watches

/-!
A registry as a mirror of the store: what it has cached for its queries is what is in the store, as soon
as nothing is queued any more. The invariant says so for the paths about which nothing is queued, but
for paths that have been read and not yet notified, and says which paths each query has, but for queries
that are owed some.
-/

namespace ServiceGovernance.Synced

open SyncedRegistry Store.Path

variable {s t : Synced} {query narrowed e : Endpoint} {interface category path : String}
  {unread : String → Prop} {owed : Endpoint → Prop}

/-- A query for the endpoints of an interface or of all, whatever their group and version, and enabled
or not. -/
structure Broad (query : Endpoint) : Prop where
  named : query.interface ≠ ""
  flat : FlatQuery query
  group : query.group? = some Endpoint.anyValue
  version : query.version? = some Endpoint.anyValue
  enabled : query.param? "enabled" = some Endpoint.anyValue

/-- A query as it is put to one interface. -/
inductive Narrows (query : Endpoint) : String → Endpoint → Prop where
  | every {interface : String} (all : query.interface = Endpoint.anyValue) :
      Narrows query interface (scopeTo query interface)
  | own (one : query.interface ≠ Endpoint.anyValue) : Narrows query query.interface query

/-- The paths that a query may watch, each with the query that it is put to there. -/
inductive Scope (root : String) (query : Endpoint) : String → Endpoint → Prop where
  | root (all : query.interface = Endpoint.anyValue) : Scope root query root query
  | category {interface category : String} {narrowed : Endpoint} (named : interface ≠ "")
      (single : interface ≠ Endpoint.anyValue) (listed : category ∈ query.expandedCategories)
      (narrows : Narrows query interface narrowed) :
      Scope root query (categoryPath root interface category) narrowed

section Queries

theorem Narrows.interface_eq (narrows : Narrows query interface narrowed) :
    narrowed.interface = interface := by
  cases narrows with
  | every all => exact Endpoint.interface_withParam_interface query interface
  | own one => rfl

theorem Narrows.expandedCategories_eq (narrows : Narrows query interface narrowed) :
    narrowed.expandedCategories = query.expandedCategories := by
  cases narrows with
  | every all => exact expandedCategories_scopeTo query interface
  | own one => rfl

theorem Narrows.wantsInterface (narrows : Narrows query interface narrowed)
    (same : e.interface = interface) :
    query.wantsInterface e = true := by
  cases narrows with
  | every all => simp [Endpoint.wantsInterface, all]
  | own one => simp [Endpoint.wantsInterface, same]

theorem wantsCategory_of_mem (listed : category ∈ query.expandedCategories) :
    query.wantsCategory category = true := by
  unfold Endpoint.expandedCategories at listed
  refine List.any_eq_true.2 ?_
  split at listed
  · next every => exact ⟨_, every, by simp⟩
  · exact ⟨category, listed, by simp⟩

/-- Group, version and the enabled flag do not matter to a broad query. -/
theorem Broad.admits_iff (broad : Broad query) (e : Endpoint) :
    query.admits e = true ↔ query.wantsInterface e = true ∧ query.wantsCategory e.category = true := by
  have disabled : query.wantsDisabled = true := by simp [Endpoint.wantsDisabled, broad.enabled]
  have any : ∀ offered, Endpoint.valueMatches (some Endpoint.anyValue) offered = true := fun offered => by
    simp [Endpoint.valueMatches]
  have release : query.wantsRelease e = true := by
    rw [Endpoint.wantsRelease, broad.group, broad.version, any, any]
    rfl
  simp [Endpoint.admits, disabled, release]

theorem category_segment (broad : Broad query) (listed : category ∈ query.expandedCategories) :
    Segment category :=
  ⟨ne_empty_of_mem_expandedCategories listed, broad.flat category listed⟩

end Queries

def Owns (s : Synced) (query : Endpoint) (path : String) : Prop :=
  ∃ narrowed, (query, narrowed) ∈ s.ownersOf path

def OwnsAll (s : Synced) (query : Endpoint) (interface : String) : Prop :=
  ∀ category ∈ query.expandedCategories, s.Owns query (categoryPath s.sync.root interface category)

/-- No notice about the path is queued. -/
def Unheard (s : Synced) (path : String) : Prop :=
  ∀ watch, s.store.watches.get? watch = some ⟨path, s.sync.mailbox⟩ →
    Store.lastNames watch s.store.outbox = none

/-- The query has its paths; one for all interfaces may still have to hear of some. -/
def Covers (s : Synced) (query : Endpoint) : Prop :=
  if query.interface = Endpoint.anyValue then
    s.Owns query s.sync.root ∧ (s.Unheard s.sync.root → ∀ interface, interface ≠ "" →
      interface ≠ Endpoint.anyValue →
      s.store.isNode (interfacePath s.sync.root interface) = true → s.OwnsAll query interface)
  else s.OwnsAll query query.interface

def known (s : Synced) (query : Endpoint) (category : String) : List Endpoint :=
  Endpoint.members (s.sync.registry.listOf query category)

/-- The cache is what the store has told, except for the paths still to be read and the queries that are
owed theirs. -/
structure MirrorsExcept (unread : String → Prop) (owed : Endpoint → Prop) (s : Synced) : Prop where
  absolute : Absolute s.sync.root
  sound : Sound s.sync.root s.store
  mailbox : s.sync.mailbox < s.store.nextMailbox
  hears : s.sync.mailbox ∈ s.store.listeners
  registered : ∀ e ∈ s.sync.registry.registered.toList, e.Publishable
  failed : ∀ e ∈ s.sync.backlog.registered.toList, e.Publishable
  queries : ∀ query ∈ s.sync.registry.queries, Broad query
  watches : ∀ path w, s.sync.watched.get? path = some w →
    ∃ watch, w.watch = some watch ∧ s.store.watches.get? watch = some ⟨path, s.sync.mailbox⟩
  recorded : ∀ watch path, s.store.watches.get? watch = some ⟨path, s.sync.mailbox⟩ →
    ∃ w, s.sync.watched.get? path = some w ∧ w.watch = some watch
  owners : ∀ path query narrowed, (query, narrowed) ∈ s.ownersOf path →
    query ∈ s.sync.registry.queries ∧ Scope s.sync.root query path narrowed
  genuine : ∀ query category, ∀ e ∈ s.known query category, e.Publishable ∧ e.category = category ∧
    query.wantsInterface e = true ∧ s.store.isNode (interfacePath s.sync.root e.interface) = true
  fresh : ∀ query interface category, s.Owns query (categoryPath s.sync.root interface category) →
    ¬ unread (categoryPath s.sync.root interface category) →
    s.Unheard (categoryPath s.sync.root interface category) → ∀ e, e.interface = interface →
      (e ∈ s.known query category ↔
        e ∈ (s.store.children (categoryPath s.sync.root interface category)).filterMap decodeChild?)
  covered : s.store.online = true → .session s.sync.mailbox .reconnected ∉ s.store.outbox →
    ∀ query ∈ s.sync.registry.queries, ¬ owed query → s.Covers query

/-- Nothing has been read without being notified, and no query is owed a path. -/
def Mirrors (s : Synced) : Prop := MirrorsExcept (fun _ => False) (fun _ => False) s

/-- A registry has got on: it has the paths it had, and what has come in the store is told to it. -/
structure Ahead (s t : Synced) : Prop where
  root : t.sync.root = s.sync.root
  mailbox : t.sync.mailbox = s.sync.mailbox
  owns : ∀ query path, s.Owns query path → t.Owns query path
  onward : Onward s.sync.root s.sync.mailbox s.store t.store

section Ahead

theorem Ahead.unheard (ahead : Ahead s t) (unheard : t.Unheard path) : s.Unheard path := by
  intro watch found
  have still := ahead.onward.watches watch path found
  rw [← ahead.mailbox] at still
  exact (ahead.onward.quiet watch path found (unheard watch still)).1

theorem Ahead.children {watch : Nat} (ahead : Ahead s t) (unheard : t.Unheard path)
    (found : s.store.watches.get? watch = some ⟨path, s.sync.mailbox⟩) :
    t.store.children path = s.store.children path := by
  have still := ahead.onward.watches watch path found
  rw [← ahead.mailbox] at still
  exact (ahead.onward.quiet watch path found (unheard watch still)).2

theorem Ahead.ownsAll (ahead : Ahead s t) (owns : s.OwnsAll query interface) :
    t.OwnsAll query interface := by
  intro category listed
  rw [ahead.root]
  exact ahead.owns _ _ (owns category listed)

end Ahead

section MirrorsExcept

theorem MirrorsExcept.mono {unread' : String → Prop} {owed' : Endpoint → Prop}
    (mirrors : MirrorsExcept unread owed s)
    (unreads : ∀ path, unread path → unread' path) (owes : ∀ query, owed query → owed' query) :
    MirrorsExcept unread' owed' s :=
  { mirrors with
    fresh := fun query interface category owns read => mirrors.fresh query interface category owns
      (read ∘ unreads _)
    covered := fun online quiet query subscribed settled =>
      mirrors.covered online quiet query subscribed (settled ∘ owes _) }

theorem Owns.watched (owns : s.Owns query path) : ∃ w, s.sync.watched.get? path = some w := by
  obtain ⟨narrowed, member⟩ := owns
  cases found : s.sync.watched.get? path with
  | none => simp [ownersOf, found] at member
  | some w => exact ⟨w, rfl⟩

/-- The watch of an owned path. -/
theorem MirrorsExcept.watch_of_owns (mirrors : MirrorsExcept unread owed s) (owns : s.Owns query path) :
    ∃ watch, s.store.watches.get? watch = some ⟨path, s.sync.mailbox⟩ := by
  obtain ⟨w, found⟩ := owns.watched
  obtain ⟨watch, _, there⟩ := mirrors.watches path w found
  exact ⟨watch, there⟩

theorem MirrorsExcept.filled (mirrors : MirrorsExcept unread owed s) : s.sync.root ≠ "" :=
  mirrors.absolute.ne_empty

/-- A query keeps what it has, for a notice about the root comes before anything is missing there. -/
theorem Covers.ahead (covers : s.Covers query) (mirrors : MirrorsExcept unread owed s) (ahead : Ahead s t) :
    t.Covers query := by
  unfold Covers at covers ⊢
  split at covers
  · next all =>
      rw [if_pos all, ahead.root]
      refine ⟨ahead.owns _ _ covers.1, fun unheard interface named single there => ahead.ownsAll ?_⟩
      obtain ⟨watch, found⟩ := mirrors.watch_of_owns covers.1
      refine covers.2 (ahead.unheard unheard) interface named single ?_
      have listed := (mem_children_root_iff mirrors.absolute.ne_root named).2 there
      rw [ahead.children unheard found] at listed
      exact (mem_children_root_iff mirrors.absolute.ne_root named).1 listed
  · next one =>
      rw [if_neg one]
      exact ahead.ownsAll covers

/-- What others do with the store leaves a mirror what it is. -/
theorem MirrorsExcept.later {store : Store} (mirrors : MirrorsExcept unread owed s)
    (later : Later s.sync.root s.sync.mailbox s.store store) (sound : Sound s.sync.root store) :
    MirrorsExcept unread owed { s with store } := by
  have ahead : Ahead s { s with store } := ⟨rfl, rfl, fun _ _ => id, later.toOnward⟩
  exact {
    absolute := mirrors.absolute
    sound := sound
    mailbox := Nat.lt_of_lt_of_le mirrors.mailbox later.mailboxes
    hears := later.listens mirrors.hears
    registered := mirrors.registered
    failed := mirrors.failed
    queries := mirrors.queries
    watches := fun path w found => by
      obtain ⟨watch, named, there⟩ := mirrors.watches path w found
      exact ⟨watch, named, later.watches watch path there⟩
    recorded := fun watch path found => mirrors.recorded watch path (later.only watch path found)
    owners := mirrors.owners
    genuine := fun query category e member => by
      obtain ⟨publishable, filed, wanted, there⟩ := mirrors.genuine query category e member
      exact ⟨publishable, filed, wanted,
        later.directories _ (.interface publishable.named publishable.single) there⟩
    fresh := fun query interface category owns read unheard e same => by
      obtain ⟨watch, there⟩ := mirrors.watch_of_owns owns
      show _ ↔ e ∈ (store.children _).filterMap decodeChild?
      rw [ahead.children unheard there]
      exact mirrors.fresh query interface category owns read (ahead.unheard unheard) e same
    covered := fun online quiet query subscribed settled => by
      obtain ⟨online_before, quiet_before⟩ := later.awake mirrors.hears online quiet
      exact (mirrors.covered online_before quiet_before query subscribed settled).ahead mirrors ahead }

/-- The backlog and the endpoints registered are nothing to a mirror, as long as they can be published. -/
theorem MirrorsExcept.of_same (mirrors : MirrorsExcept unread owed s) (store : t.store = s.store)
    (root : t.sync.root = s.sync.root)
    (mailbox : t.sync.mailbox = s.sync.mailbox) (watched : t.sync.watched = s.sync.watched)
    (queries : ∀ query, query ∈ t.sync.registry.queries ↔ query ∈ s.sync.registry.queries)
    (notified : t.sync.registry.notified = s.sync.registry.notified)
    (registered : ∀ e ∈ t.sync.registry.registered.toList, e.Publishable)
    (failed : ∀ e ∈ t.sync.backlog.registered.toList, e.Publishable) : MirrorsExcept unread owed t := by
  have ahead : Ahead s t := by
    refine ⟨root, mailbox, fun query path owns => ?_, store ▸ .refl⟩
    rwa [Owns, ownersOf, watched]
  have known_eq : ∀ query category, t.known query category = s.known query category := by
    intro query category
    rw [known, known, Registry.listOf, Registry.listOf, Registry.cacheOf, Registry.cacheOf, notified]
  have owners_eq : ∀ path, t.ownersOf path = s.ownersOf path := by
    intro path
    rw [ownersOf, ownersOf, watched]
  exact {
    absolute := root ▸ mirrors.absolute
    sound := by
      rw [root, store]
      exact mirrors.sound
    mailbox := by
      rw [mailbox, store]
      exact mirrors.mailbox
    hears := by
      rw [mailbox, store]
      exact mirrors.hears
    registered := registered
    failed := failed
    queries := fun query member => mirrors.queries query ((queries query).1 member)
    watches := by
      rw [mailbox, store, watched]
      exact mirrors.watches
    recorded := by
      rw [mailbox, store, watched]
      exact mirrors.recorded
    owners := fun path query narrowed member => by
      obtain ⟨subscribed, scope⟩ := mirrors.owners path query narrowed (owners_eq path ▸ member)
      exact ⟨(queries query).2 subscribed, root ▸ scope⟩
    genuine := fun query category e member => by
      rw [root, store]
      exact mirrors.genuine query category e (known_eq query category ▸ member)
    fresh := fun query interface category owns read unheard => by
      have unheard := ahead.unheard unheard
      obtain ⟨narrowed, member⟩ := owns
      rw [owners_eq] at member
      rw [known_eq, store]
      rw [root] at member read unheard ⊢
      exact mirrors.fresh query interface category ⟨narrowed, member⟩ read unheard
    covered := fun online quiet query subscribed settled => by
      rw [store] at online quiet
      rw [mailbox] at quiet
      exact (mirrors.covered online quiet query ((queries query).1 subscribed) settled).ahead mirrors ahead }

/-- Queries that have their paths are owed none. -/
theorem MirrorsExcept.paid (mirrors : MirrorsExcept unread owed s)
    (covers : s.store.online = true → ∀ query ∈ s.sync.registry.queries, owed query → s.Covers query) :
    MirrorsExcept unread (fun _ => False) s := by
  refine { mirrors with covered := fun online quiet query subscribed _ => ?_ }
  by_cases owing : owed query
  · exact covers online query subscribed owing
  · exact mirrors.covered online quiet query subscribed owing

/-- Only paths of categories that somebody has are to be read. -/
theorem MirrorsExcept.read {unread' : String → Prop} (mirrors : MirrorsExcept unread owed s)
    (spare : ∀ query interface category, s.Owns query (categoryPath s.sync.root interface category) →
      unread (categoryPath s.sync.root interface category) →
        unread' (categoryPath s.sync.root interface category)) :
    MirrorsExcept unread' owed s := by
  refine { mirrors with fresh := fun query interface category owns read => ?_ }
  exact mirrors.fresh query interface category owns fun unread =>
    read (spare query interface category owns unread)

end MirrorsExcept

end ServiceGovernance.Synced
