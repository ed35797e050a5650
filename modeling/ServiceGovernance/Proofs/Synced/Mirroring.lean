import ServiceGovernance.Proofs.Synced.Refreshing

/-!
Mirrors stay mirrors in all that a registry does. A query that is watched has its paths afterwards
unless the store is offline, and when the store is back, recovery gives them to all queries. A notice
that is taken makes its path unread; handling it reads the path, or finds that there is more to come.
-/

namespace ServiceGovernance.Synced

open SyncedRegistry Store.Path Text

variable {s t u : Synced} {query owner narrowed e : Endpoint} {interface category path : String}
  {names : List String}
  {unread : String → Prop} {owed : Endpoint → Prop}

section Folding

variable {α : Type}

/-- One thing after the other, each with an outcome that lasts. -/
theorem MirrorsExcept.foldl (mirrors : MirrorsExcept (fun _ => False) owed s) (f : Synced → α → Synced)
    (items : List α)
    (P : α → Synced → Prop)
    (lasts : ∀ item t u, MirrorsExcept (fun _ => False) owed t → AllAhead t u → P item t → P item u)
    (each : ∀ item ∈ items, ∀ t, MirrorsExcept (fun _ => False) owed t → AllAhead s t →
      MirrorsExcept (fun _ => False) owed (f t item) ∧ AllAhead t (f t item) ∧ P item (f t item)) :
    MirrorsExcept (fun _ => False) owed (items.foldl f s) ∧ AllAhead s (items.foldl f s) ∧
      ∀ item ∈ items, P item (items.foldl f s) := by
  induction items generalizing s with
  | nil => exact ⟨mirrors, .refl, fun _ member => absurd member List.not_mem_nil⟩
  | cons item items ih =>
      obtain ⟨first, ahead, outcome⟩ := each item List.mem_cons_self s mirrors .refl
      obtain ⟨rest, more, outcomes⟩ := ih first fun other member t mirrors later =>
        each other (List.mem_cons_of_mem _ member) t mirrors (ahead.trans later)
      refine ⟨rest, ahead.trans more, fun other member => ?_⟩
      rcases List.mem_cons.1 member with rfl | member
      · exact lasts other _ _ first more outcome
      · exact outcomes other member

end Folding

section Queries

/-- Names of the nodes of interfaces. -/
def Interfaces (names : List String) : Prop :=
  ∀ name ∈ names, ∃ interface, interface ≠ "" ∧ interface ≠ Endpoint.anyValue ∧
    name = Percent.encode interface

theorem interfaces_of_placed {root : String} (absolute : Absolute root)
    (placed : ∀ name ∈ names, ∃ key, childName? root key = some name ∧ Placed root key) :
    Interfaces names := by
  intro name listed
  obtain ⟨key, child, placed⟩ := placed name listed
  exact interface_of_child absolute.ne_empty absolute.ne_root placed child

/-- A query that has the interfaces listed under the root at some time has its paths, for of any more
it is still to hear. -/
theorem MirrorsExcept.covers_of_listed (mirrors : MirrorsExcept unread owed s) (ahead : Ahead s t)
    (all : query.interface = Endpoint.anyValue) (owns : s.Owns query s.sync.root)
    (listed : s.Unheard s.sync.root → ∀ interface, Percent.encode interface ∈ s.store.children s.sync.root →
      t.OwnsAll query interface) : t.Covers query := by
  obtain ⟨watch, found⟩ := mirrors.watch_of_owns owns
  rw [Covers, if_pos all, ahead.root]
  refine ⟨ahead.owns _ _ owns, fun unheard interface named single there => ?_⟩
  refine listed (ahead.unheard unheard) interface ?_
  rw [← ahead.children unheard found]
  exact (mem_children_root_iff mirrors.absolute.ne_root named).2 there

theorem MirrorsExcept.watchInterfaces (mirrors : MirrorsExcept (fun _ => False) owed s)
    (subscribed : query ∈ s.sync.registry.queries)
    (all : query.interface = Endpoint.anyValue) (online : s.store.online = true) (real : Interfaces names) :
    ∃ t, watchInterfaces query names s = (.ok (), t) ∧ MirrorsExcept (fun _ => False) owed t ∧ AllAhead s t ∧
      ∀ interface, Percent.encode interface ∈ names → t.OwnsAll query interface := by
  induction names generalizing s with
  | nil => exact ⟨s, rfl, mirrors, .refl, fun _ member => absurd member List.not_mem_nil⟩
  | cons name names ih =>
      obtain ⟨interface, named, single, rfl⟩ := real name List.mem_cons_self
      rcases mirrors.watchCategories subscribed (.every all) named single with
        ⟨offline, _⟩ | ⟨t, done, first, ahead, owned⟩
      · rw [online] at offline
        cases offline
      · obtain ⟨u, rest, after, more, others⟩ :=
          ih first (ahead.queries ▸ subscribed) (ahead.online.trans online)
          fun name member => real name (List.mem_cons_of_mem _ member)
        refine ⟨u, ?_, after, ahead.trans more, fun other member => ?_⟩
        · rw [Synced.watchInterfaces, Percent.decode_encode]
          simp only [done, rest]
        · rcases List.mem_cons.1 member with same | member
          · exact Percent.encode_injective same ▸ more.ownsAll owned
          · exact others other member

theorem MirrorsExcept.watchQuery (mirrors : MirrorsExcept (fun _ => False) owed s)
    (subscribed : query ∈ s.sync.registry.queries) :
    Fails s (s.watchQuery query) ∨ ∃ t, s.watchQuery query = (.ok (), t) ∧
      MirrorsExcept (fun _ => False) owed t ∧ AllAhead s t ∧
      t.Covers query := by
  by_cases all : query.interface = Endpoint.anyValue
  · rcases mirrors.watchPath subscribed (.root all) with
      ⟨offline, error, failed⟩ | ⟨online, names, t, done, first, ahead, owns, read⟩
    · exact .inl ⟨offline, error, by rw [Synced.watchQuery, if_pos all, failed]⟩
    · have settled : MirrorsExcept (fun _ => False) owed t :=
        first.read fun query interface category _ unread => unread.elim id fun same =>
          categoryPath_ne_root t.sync.root interface category (same.trans ahead.root.symm)
      have placed := genuine_children first.sound.toGrown t.sync.root
      rw [← ahead.root] at owns read
      obtain ⟨u, rest, after, more, owned⟩ := settled.watchInterfaces (ahead.queries ▸ subscribed) all
        (ahead.online.trans online) (read ▸ interfaces_of_placed settled.absolute placed)
      refine .inr ⟨u, ?_, after, ahead.trans more,
        settled.covers_of_listed more.toAhead all owns fun _ interface listed =>
          owned interface (read ▸ listed)⟩
      rw [Synced.watchQuery, if_pos all, done]
      exact rest
  · have broad := mirrors.queries query subscribed
    rcases mirrors.watchCategories subscribed (.own all) broad.named all with
      ⟨offline, error, failed⟩ | ⟨t, done, after, ahead, owned⟩
    · exact .inl ⟨offline, error, by rw [Synced.watchQuery, if_neg all, failed]⟩
    · refine .inr ⟨t, by rw [Synced.watchQuery, if_neg all, done], after, ahead, ?_⟩
      rw [Covers, if_neg all]
      exact owned

theorem MirrorsExcept.withSubscribed (mirrors : MirrorsExcept unread owed s)
    (subscribed : SortedSet Endpoint) :
    MirrorsExcept unread owed (s.withBacklog { s.sync.backlog with subscribed }) :=
  mirrors.of_same rfl rfl rfl rfl (fun _ => .rfl) rfl mirrors.registered mirrors.failed

theorem allAhead_withBacklog (s : Synced) (backlog : Backlog) : AllAhead s (s.withBacklog backlog) :=
  allAhead_of_store rfl rfl rfl rfl rfl

theorem MirrorsExcept.recoverQuery (mirrors : MirrorsExcept (fun _ => False) owed s)
    (subscribed : query ∈ s.sync.registry.queries) :
    MirrorsExcept (fun _ => False) owed (s.recoverQuery query) ∧ AllAhead s (s.recoverQuery query) ∧
      ((s.recoverQuery query).store.online = true → (s.recoverQuery query).Covers query) := by
  unfold Synced.recoverQuery
  rcases mirrors.watchQuery subscribed with ⟨offline, error, failed⟩ | ⟨t, done, after, ahead, covers⟩
  · rw [failed]
    refine ⟨mirrors.withSubscribed _, allAhead_withBacklog s _, fun online => ?_⟩
    exact absurd (offline.symm.trans online) (by decide)
  · rw [done]
    exact ⟨after, ahead, fun _ => covers⟩

theorem MirrorsExcept.retrySubscribe (mirrors : MirrorsExcept (fun _ => False) owed s) (query : Endpoint) :
    MirrorsExcept (fun _ => False) owed (s.retrySubscribe query) ∧ AllAhead s (s.retrySubscribe query) := by
  unfold Synced.retrySubscribe
  split
  · next heard =>
      rcases mirrors.watchQuery (mem_queries_of_hasListeners heard) with
        ⟨_, error, failed⟩ | ⟨t, done, after, ahead, _⟩
      · rw [failed]
        exact ⟨mirrors, .refl⟩
      · rw [done]
        exact ⟨after.withSubscribed _, ahead.trans (allAhead_withBacklog t _)⟩
  · exact ⟨mirrors.withSubscribed _, allAhead_withBacklog s _⟩

end Queries

section Children

theorem ownsAll_of_knowsInterface (same : narrowed.interface = interface)
    (expanded : narrowed.expandedCategories = owner.expandedCategories)
    (known : s.knowsInterface owner narrowed = true) :
    s.OwnsAll owner interface := by
  intro category listed
  unfold knowsInterface at known
  rw [expanded, same] at known
  obtain ⟨pair, member, first⟩ := List.any_eq_true.1 (List.all_eq_true.1 known category listed)
  exact ⟨pair.2, eq_of_beq first ▸ member⟩

theorem MirrorsExcept.addInterface (mirrors : MirrorsExcept (fun _ => False) owed s)
    (subscribed : query ∈ s.sync.registry.queries)
    (all : query.interface = Endpoint.anyValue) (named : interface ≠ "")
    (single : interface ≠ Endpoint.anyValue) :
    MirrorsExcept (fun _ => False) owed (s.addInterface query (Percent.encode interface)) ∧
      AllAhead s (s.addInterface query (Percent.encode interface)) ∧
      ((s.addInterface query (Percent.encode interface)).store.online = true →
        (s.addInterface query (Percent.encode interface)).OwnsAll query interface) := by
  have narrows : Narrows query interface (scopeTo query interface) := .every all
  unfold Synced.addInterface
  rw [Percent.decode_encode]
  dsimp only
  split
  · next known =>
      exact ⟨mirrors, .refl, fun _ =>
        ownsAll_of_knowsInterface narrows.interface_eq narrows.expandedCategories_eq known⟩
  · rcases mirrors.watchCategories subscribed narrows named single with
      ⟨offline, error, failed⟩ | ⟨t, done, after, ahead, owned⟩
    · rw [failed]
      refine ⟨mirrors.withSubscribed _, allAhead_withBacklog s _, fun online => ?_⟩
      exact absurd (offline.symm.trans online) (by decide)
    · rw [done]
      exact ⟨after, ahead, fun _ => owned⟩

/-- The interfaces of a listing, for one query that wants them all. -/
theorem MirrorsExcept.addInterfaces (mirrors : MirrorsExcept (fun _ => False) owed s)
    (subscribed : query ∈ s.sync.registry.queries) (all : query.interface = Endpoint.anyValue)
    (real : Interfaces names) :
    MirrorsExcept (fun _ => False) owed (names.foldl (fun s name => s.addInterface query name) s) ∧
      AllAhead s (names.foldl (fun s name => s.addInterface query name) s) ∧
      ((names.foldl (fun s name => s.addInterface query name) s).store.online = true →
        ∀ interface, Percent.encode interface ∈ names →
          (names.foldl (fun s name => s.addInterface query name) s).OwnsAll query interface) := by
  obtain ⟨after, ahead, owned⟩ := mirrors.foldl (fun s name => s.addInterface query name) names
    (fun name t => t.store.online = true → ∀ interface, name = Percent.encode interface →
      t.OwnsAll query interface)
    (fun _ _ _ _ later before online interface same =>
      later.ownsAll (before (later.online.symm.trans online) interface same))
    fun name listed t mirrors later => by
      obtain ⟨interface, named, single, rfl⟩ := real name listed
      obtain ⟨added, ahead, owned⟩ :=
        mirrors.addInterface (later.queries.symm ▸ subscribed) all named single
      exact ⟨added, ahead, fun online other same => Percent.encode_injective same ▸ owned online⟩
  exact ⟨after, ahead, fun online interface listed => owned _ listed online interface rfl⟩

/-- The interfaces that a notice tells of, for all queries that want them. A later notice brings more. -/
theorem MirrorsExcept.handleInterfaces (mirrors : MirrorsExcept (fun _ => False) (s.Owns · s.sync.root) s)
    (real : Interfaces names)
    (latest : s.Unheard s.sync.root → names = s.store.children s.sync.root) :
    MirrorsExcept (fun _ => False) (fun _ => False) (s.handleInterfaces names) ∧
      AllAhead s (s.handleInterfaces names) := by
  have root_owner : ∀ pair ∈ s.ownersOf s.sync.root,
      pair.1 ∈ s.sync.registry.queries ∧ pair.1.interface = Endpoint.anyValue := by
    intro pair member
    obtain ⟨subscribed, scope⟩ := mirrors.owners _ pair.1 pair.2 member
    exact ⟨subscribed, scope.all rfl⟩
  obtain ⟨after, ahead, owned⟩ := mirrors.foldl
    (fun s owner => names.foldl (fun s name => s.addInterface owner.1 name) s) (s.ownersOf s.sync.root)
    (fun owner t => t.store.online = true → ∀ interface, Percent.encode interface ∈ names →
      t.OwnsAll owner.1 interface)
    (fun _ _ _ _ later before online interface listed =>
      later.ownsAll (before (later.online.symm.trans online) interface listed))
    fun owner member t mirrors before => by
      obtain ⟨subscribed, all⟩ := root_owner owner member
      exact mirrors.addInterfaces (before.queries.symm ▸ subscribed) all real
  refine ⟨after.paid fun online query _ owns => ?_, ahead⟩
  obtain ⟨narrowed, member⟩ := owns
  refine mirrors.covers_of_listed ahead.toAhead (root_owner _ member).2 ⟨narrowed, member⟩
    fun unheard interface listed => ?_
  exact owned _ member online interface (latest unheard ▸ listed)

theorem speaks_nil : Speaks interface [] [] :=
  ⟨fun _ none_there => absurd none_there List.not_mem_nil,
    fun _ none_there => absurd none_there List.not_mem_nil⟩

/-- The children that a notice tells of, for all queries that have the path. -/
theorem MirrorsExcept.handleMembers {watch : Nat} (mirrors : MirrorsExcept (· = path) owed s)
    (below : path ≠ s.sync.root)
    (watching : s.store.watches.get? watch = some ⟨path, s.sync.mailbox⟩)
    (placed : ∀ name ∈ names, ∃ key, childName? path key = some name ∧ Placed s.sync.root key)
    (latest : s.Unheard path → names = s.store.children path) :
    MirrorsExcept (fun _ => False) owed (s.handleMembers path names) ∧
      AllAhead s (s.handleMembers path names) := by
  obtain ⟨w, recorded, _⟩ := mirrors.recorded watch path watching
  have there : ¬ (s.sync.watched.get? path).isNone = true := by simp [recorded]
  rw [Synced.handleMembers, if_neg there]
  refine ⟨?_, allAhead_notify s _⟩
  by_cases idle : s.ownersOf path = []
  · have settled : MirrorsExcept (fun _ => False) owed s :=
      mirrors.read fun query interface category owns same => by
        obtain ⟨narrowed, member⟩ := owns
        rw [same, idle] at member
        cases member
    rw [idle]
    have nothing : Speaks "" [] [] := speaks_nil
    exact settled.notify nothing (by decide)
      (fun _ none_there => absurd none_there List.not_mem_nil) fun _ => False.elim
  · obtain ⟨⟨owner, narrowed⟩, member⟩ := List.exists_mem_of_ne_nil _ idle
    obtain ⟨subscribed, scope⟩ := mirrors.owners path owner narrowed member
    cases scope with
    | root all => exact absurd rfl below
    | @category interface category _ named single listed narrows =>
        have plain := (mirrors.queries owner subscribed).flat category listed
        have last : lastSegment (categoryPath s.sync.root interface category) = category :=
          lastSegment_join plain
        have scopes : ∀ pair ∈ s.ownersOf (categoryPath s.sync.root interface category),
            pair.2.interface = interface := fun pair member =>
          (mirrors.owners _ pair.1 pair.2 member).2.of_categoryPath.2.2.2.interface_eq
        rw [last]
        have speaks : Speaks interface [(category, names)] (distinct ((s.ownersOf
            (categoryPath s.sync.root interface category)).flatMap fun owner =>
              decodeChildren owner.2 category names)) := by
          refine ⟨fun u update => ?_, fun entry listed => ?_⟩
          · obtain ⟨pair, member, child⟩ := List.mem_flatMap.1 (mem_distinct.1 update)
            exact ⟨_, List.mem_singleton_self _, pair.2, scopes pair member, child⟩
          · rw [List.mem_singleton.1 listed]
            exact ⟨narrowed, scopes _ member, fun u child =>
              mem_distinct.2 (List.mem_flatMap.2 ⟨_, member, child⟩)⟩
        refine mirrors.notify speaks single (fun entry listed => ?_) ?_
        · rw [List.mem_singleton.1 listed]
          exact ⟨plain, (mirrors.sound.watched watch _ watching).2, placed, latest⟩
        · rintro path rfl
          exact ⟨_, List.mem_singleton_self _, rfl⟩

end Children

section Endpoints

theorem MirrorsExcept.heard {store : Store} (mirrors : MirrorsExcept unread owed s)
    (heard : Heard s.sync.root s.store store) :
    MirrorsExcept unread owed { s with store } :=
  mirrors.later ((heard mirrors.sound).2 _) (heard mirrors.sound).1

theorem MirrorsExcept.allAhead_of_heard {store : Store} (mirrors : MirrorsExcept unread owed s)
    (heard : Heard s.sync.root s.store store)
    (online : store.online = s.store.online) : AllAhead s { s with store } :=
  ⟨⟨rfl, rfl, fun _ _ => id, ((heard mirrors.sound).2 _).toOnward⟩, rfl, online,
    fun other _ => (heard mirrors.sound).2 other⟩

theorem MirrorsExcept.writeNode (mirrors : MirrorsExcept unread owed s) (publishable : e.Publishable) :
    ∃ result store, s.writeNode e = (result, { s with store }) ∧ MirrorsExcept unread owed { s with store } ∧
      AllAhead s { s with store } := by
  rcases s.ensureNode_cases (nodePath s.sync.root e) e.isDynamic with
    ⟨_, error, failed⟩ | ⟨_, _, done⟩ | ⟨_, _, done⟩
  · exact ⟨_, s.store, failed, mirrors, .refl⟩
  · exact ⟨_, s.store, done, mirrors, .refl⟩
  · have heard : Heard s.sync.root s.store (s.store.planted (nodePath s.sync.root e) e.isDynamic) :=
      heard_planted mirrors.filled (.inl (.inr ⟨e, publishable, rfl⟩)) fun directory =>
        absurd (Nat.le_of_eq (slashes_nodePath publishable.category.2 _).symm) directory.not_deep
    exact ⟨_, _, done, mirrors.heard heard,
      mirrors.allAhead_of_heard heard (s.store.undisturbed_planted ..).online⟩

theorem MirrorsExcept.removeNode (mirrors : MirrorsExcept unread owed s) (e : Endpoint) :
    ∃ result store, s.removeNode e = (result, { s with store }) ∧ MirrorsExcept unread owed { s with store } ∧
      AllAhead s { s with store } := by
  rcases s.removeNode_cases e with ⟨_, error, failed⟩ | ⟨_, done⟩ | ⟨_, _, done⟩
  · exact ⟨_, s.store, failed, mirrors, .refl⟩
  · exact ⟨_, s.store, done, mirrors, .refl⟩
  · have heard : Heard s.sync.root s.store (s.store.pruned (nodePath s.sync.root e)) :=
      heard_pruned mirrors.filled (spared_of_leaf mirrors.filled leaf_nodePath)
    exact ⟨_, _, done, mirrors.heard heard,
      mirrors.allAhead_of_heard heard (s.store.undisturbed_pruned _).online⟩

theorem MirrorsExcept.withBacklog (mirrors : MirrorsExcept unread owed s) (backlog : Backlog)
    (failed : ∀ e ∈ backlog.registered.toList, e.Publishable) :
    MirrorsExcept unread owed (s.withBacklog backlog) :=
  mirrors.of_same rfl rfl rfl rfl (fun _ => .rfl) rfl mirrors.registered failed

theorem MirrorsExcept.recoverEndpoint (mirrors : MirrorsExcept unread owed s) (publishable : e.Publishable) :
    MirrorsExcept unread owed (s.recoverEndpoint e) ∧ AllAhead s (s.recoverEndpoint e) := by
  obtain ⟨result, store, done, after, ahead⟩ := mirrors.writeNode publishable
  unfold Synced.recoverEndpoint
  rw [done]
  cases result with
  | ok => exact ⟨after, ahead⟩
  | error =>
      refine ⟨after.withBacklog _ fun f member => ?_, ahead.trans (allAhead_withBacklog _ _)⟩
      exact (SortedSet.mem_toList_add.1 member).elim (· ▸ publishable) (mirrors.failed f)

theorem MirrorsExcept.retryRegister (mirrors : MirrorsExcept unread owed s) (publishable : e.Publishable) :
    MirrorsExcept unread owed (s.retryRegister e) ∧ AllAhead s (s.retryRegister e) := by
  obtain ⟨result, store, done, after, ahead⟩ := mirrors.writeNode publishable
  unfold Synced.retryRegister
  rw [done]
  cases result with
  | ok =>
      refine ⟨after.withBacklog _ fun f member => ?_, ahead.trans (allAhead_withBacklog _ _)⟩
      exact mirrors.failed f (SortedSet.mem_toList_erase.1 member).2
  | error => exact ⟨after, ahead⟩

theorem MirrorsExcept.retryUnregister (mirrors : MirrorsExcept unread owed s) (e : Endpoint) :
    MirrorsExcept unread owed (s.retryUnregister e) ∧ AllAhead s (s.retryUnregister e) := by
  obtain ⟨result, store, done, after, ahead⟩ := mirrors.removeNode e
  unfold Synced.retryUnregister
  rw [done]
  cases result with
  | ok => exact ⟨after.withBacklog _ mirrors.failed, ahead.trans (allAhead_withBacklog _ _)⟩
  | error => exact ⟨after, ahead⟩

theorem forget_subset {backlog : Backlog} {f : Endpoint}
    (member : f ∈ (backlog.forget e).registered.toList) :
    f ∈ backlog.registered.toList :=
  (SortedSet.mem_toList_erase.1 member).2

theorem MirrorsExcept.register (mirrors : MirrorsExcept unread owed s) (publishable : e.Publishable) :
    MirrorsExcept unread owed (s.register e) ∧ AllAhead s (s.register e) := by
  have begun : MirrorsExcept unread owed ((s.withRegistry (s.sync.registry.register e)).withBacklog
      (s.sync.backlog.forget e)) :=
    mirrors.of_same rfl rfl rfl rfl (fun _ => .rfl) rfl
      (fun f member => (SortedSet.mem_toList_add.1 member).elim (· ▸ publishable) (mirrors.registered f))
      fun f member => mirrors.failed f (forget_subset member)
  have first : AllAhead s
    ((s.withRegistry (s.sync.registry.register e)).withBacklog (s.sync.backlog.forget e)) :=
    allAhead_of_store rfl rfl rfl rfl rfl
  obtain ⟨after, ahead⟩ := begun.recoverEndpoint publishable
  exact ⟨after, first.trans ahead⟩

theorem MirrorsExcept.unregister (mirrors : MirrorsExcept unread owed s) (e : Endpoint) :
    MirrorsExcept unread owed (s.unregister e) ∧ AllAhead s (s.unregister e) := by
  have begun : MirrorsExcept unread owed ((s.withRegistry (s.sync.registry.unregister e)).withBacklog
      (s.sync.backlog.forget e)) :=
    mirrors.of_same rfl rfl rfl rfl (fun _ => .rfl) rfl
      (fun f member => mirrors.registered f (SortedSet.mem_toList_erase.1 member).2)
      fun f member => mirrors.failed f (forget_subset member)
  have first : AllAhead s
    ((s.withRegistry (s.sync.registry.unregister e)).withBacklog (s.sync.backlog.forget e)) :=
    allAhead_of_store rfl rfl rfl rfl rfl
  obtain ⟨result, store, done, after, ahead⟩ := begun.removeNode e
  have backlog : (s.withRegistry (s.sync.registry.unregister e)).sync.backlog = s.sync.backlog := rfl
  unfold Synced.unregister
  dsimp only
  rw [backlog, done]
  cases result with
  | ok => exact ⟨after, first.trans ahead⟩
  | error => exact ⟨after.withBacklog _ begun.failed, first.trans (ahead.trans (allAhead_withBacklog _ _))⟩

end Endpoints

section Session

/-- With the session the registry recovers whatever it has owed. -/
theorem MirrorsExcept.recover (mirrors : MirrorsExcept (fun _ => False) owed s) :
    Mirrors s.recover ∧ AllAhead s s.recover := by
  have all : MirrorsExcept (fun _ => False) (fun _ => True) s := mirrors.mono (fun _ => id) fun _ _ => trivial
  obtain ⟨written, wrote, _⟩ := all.foldl Synced.recoverEndpoint s.sync.registry.registered.toList
    (fun _ _ => True) (fun _ _ _ _ _ _ => trivial) fun e member t after _ => by
      obtain ⟨next, ahead⟩ := after.recoverEndpoint (mirrors.registered e member)
      exact ⟨next, ahead, trivial⟩
  obtain ⟨after, ahead, covers⟩ := written.foldl Synced.recoverQuery s.sync.registry.queries
    (fun query t => t.store.online = true → t.Covers query)
    (fun _ _ _ mirrors later before online => (before (later.online.symm.trans online)).ahead mirrors
      later.toAhead)
    fun query member t mirrors later => mirrors.recoverQuery (later.queries ▸ wrote.queries ▸ member)
  refine ⟨after.paid fun online query subscribed _ => covers query ?_ online, wrote.trans ahead⟩
  rwa [ahead.queries, wrote.queries] at subscribed

theorem MirrorsExcept.retry (mirrors : MirrorsExcept (fun _ => False) owed s) :
    MirrorsExcept (fun _ => False) owed s.retry ∧ AllAhead s s.retry := by
  obtain ⟨written, wrote, _⟩ := mirrors.foldl Synced.retryRegister s.sync.backlog.registered.toList
    (fun _ _ => True) (fun _ _ _ _ _ _ => trivial) fun e member t after _ => by
      obtain ⟨next, ahead⟩ := after.retryRegister (mirrors.failed e member)
      exact ⟨next, ahead, trivial⟩
  obtain ⟨removed, cleared, _⟩ := written.foldl Synced.retryUnregister
    s.sync.backlog.unregistered.toList (fun _ _ => True) (fun _ _ _ _ _ _ => trivial)
      fun e _ t after _ => by
      obtain ⟨next, ahead⟩ := after.retryUnregister e
      exact ⟨next, ahead, trivial⟩
  obtain ⟨after, watched, _⟩ := removed.foldl Synced.retrySubscribe s.sync.backlog.subscribed.toList
    (fun _ _ => True) (fun _ _ _ _ _ _ => trivial) fun query _ t after _ => by
      obtain ⟨next, ahead⟩ := after.retrySubscribe query
      exact ⟨next, ahead, trivial⟩
  exact ⟨after, wrote.trans (cleared.trans watched)⟩

end Session

end ServiceGovernance.Synced
