import ServiceGovernance.Proofs.Synced.WatchedFor
import ServiceGovernance.Proofs.Synced.Watches

/-!
The books of a registry about its watches. A path that is watched is watched once and for queries that
somebody listens to, the store has no other watch of the registry, and a query that waits for no retry
has the paths of all its categories. What has nothing to do with watching, and whatever is watched for a
query that somebody listens to, leaves the books right.
-/

namespace ServiceGovernance.Synced

open SyncedRegistry

variable {s t : Synced} {owed owed' : Endpoint → Prop} {owner query : Endpoint} {path : String} {watch : Nat}

/-- The books are right, but for queries that are owed their paths. -/
structure Booked (owed : Endpoint → Prop) (s : Synced) : Prop where
  owned : ∀ path w, s.sync.watched.get? path = some w → w.owners ≠ []
  heard : ∀ path, ∀ pair ∈ s.ownersOf path, s.sync.registry.hasListeners pair.1 = true
  pending : ∀ query ∈ s.sync.backlog.subscribed.toList, s.sync.registry.hasListeners query = true
  live : ∀ path w, s.sync.watched.get? path = some w →
    ∃ watch, w.watch = some watch ∧ s.store.watches.get? watch = some ⟨path, s.sync.mailbox⟩
  only : ∀ watch path, s.store.watches.get? watch = some ⟨path, s.sync.mailbox⟩ →
    ∃ w, s.sync.watched.get? path = some w ∧ w.watch = some watch
  complete : ∀ query, s.sync.registry.hasListeners query = true → query.interface ≠ Endpoint.anyValue →
    ¬ owed query → query ∉ s.sync.backlog.subscribed.toList → ∀ category ∈ query.expandedCategories,
      (query, query) ∈ s.ownersOf (categoryPath s.sync.root query.interface category)

/-- What is queued is about watches that have been made, those of a path in the order of their making. -/
structure Ordered (mailbox : Store.Mailbox) (s : Store) : Prop where
  past : ∀ watch path, (watch, path) ∈ s.awaited mailbox → watch < s.nextWatch ∧
    ∀ present, s.watches.get? present = some ⟨path, mailbox⟩ → watch ≤ present
  sorted : (s.awaited mailbox).Pairwise fun earlier later => earlier.2 = later.2 → earlier.1 ≤ later.1

/-- The books together with what they rest on. -/
structure BookedInOrder (owed : Endpoint → Prop) (s : Synced) : Prop extends Booked owed s where
  attended : ∀ query ∈ s.sync.registry.queries, s.sync.registry.hasListeners query = true
  cached : ∀ query lists, s.sync.registry.notified.get? query = some lists →
    query ∈ s.sync.registry.queries
  numbered : ∀ watch path, s.store.watches.get? watch = some ⟨path, s.sync.mailbox⟩ →
    watch < s.store.nextWatch
  ordered : Ordered s.sync.mailbox s.store

section BookedInOrder

theorem hasListeners_congr (same : t.sync.registry.subscribed = s.sync.registry.subscribed)
    (query : Endpoint) : t.sync.registry.hasListeners query = s.sync.registry.hasListeners query := by
  rw [Registry.hasListeners, Registry.hasListeners, Registry.listeners, Registry.listeners, same]

theorem ownersOf_congr (same : t.sync.watched = s.sync.watched) (path : String) :
    t.ownersOf path = s.ownersOf path := by
  rw [ownersOf, ownersOf, same]

theorem ownersOf_of_some {w : WatchedPath} (found : s.sync.watched.get? path = some w) :
    s.ownersOf path = w.owners := by
  rw [ownersOf, found, Option.getD_some]

/-- A path has one watch. -/
theorem Booked.watch_unique (booked : Booked owed s) {other : Nat}
    (first : s.store.watches.get? watch = some ⟨path, s.sync.mailbox⟩)
    (second : s.store.watches.get? other = some ⟨path, s.sync.mailbox⟩) : watch = other := by
  obtain ⟨w, found, named⟩ := booked.only watch path first
  obtain ⟨w', found', named'⟩ := booked.only other path second
  rw [found] at found'
  cases found'
  rw [named] at named'
  exact Option.some.inj named'

/-- A path without a watch has no entry. -/
theorem Booked.absent (booked : Booked owed s) (unwatched : (s.watchedAt path).watch = none) :
    s.sync.watched.get? path = none := by
  cases found : s.sync.watched.get? path with
  | none => rfl
  | some w =>
      obtain ⟨watch, named, _⟩ := booked.live path w found
      rw [watchedAt, found, Option.getD_some, named] at unwatched
      cases unwatched

theorem Ordered.congr {mailbox : Store.Mailbox} {store later : Store} (ordered : Ordered mailbox store)
    (unique : ∀ path a b, store.watches.get? a = some ⟨path, mailbox⟩ →
      store.watches.get? b = some ⟨path, mailbox⟩ → a = b)
    (numbered : ∀ watch path, store.watches.get? watch = some ⟨path, mailbox⟩ → watch < store.nextWatch)
    (same : Store.SameWatches mailbox store later) : Ordered mailbox later := by
  obtain ⟨left, news, whole, fewer, live⟩ := same.queue
  refine ⟨fun watch path member => ?_, ?_⟩
  · rw [whole] at member
    simp only [same.watches]
    rcases List.mem_append.1 member with old | new
    · obtain ⟨below, before⟩ := ordered.past watch path (fewer.mem old)
      exact ⟨Nat.lt_of_lt_of_le below same.nextWatch, before⟩
    · have here := live watch path new
      exact ⟨Nat.lt_of_lt_of_le (numbered watch path here) same.nextWatch, fun present there =>
        Nat.le_of_eq (unique path watch present here there)⟩
  · -- All that is new is told by the live watches, one for each path, and these are the latest.
    rw [whole]
    refine List.pairwise_append.2 ⟨ordered.sorted.sublist fewer, ?_, ?_⟩
    · refine List.pairwise_of_forall_mem_list fun a ours b others place => ?_
      have first := live a.1 a.2 ours
      have second := live b.1 b.2 others
      rw [← place] at second
      exact Nat.le_of_eq (unique a.2 a.1 b.1 first second)
    · intro a old b new place
      have here := live b.1 b.2 new
      rw [← place] at here
      exact (ordered.past a.1 a.2 (fewer.mem old)).2 b.1 here

/-- What has nothing to do with watching leaves the books right. -/
theorem BookedInOrder.congr (books : BookedInOrder owed s) (same : SameWatching s t) :
    BookedInOrder owed t where
  owned := by
    rw [same.watched]
    exact books.owned
  heard path pair member := by
    rw [ownersOf_congr same.watched] at member
    rw [hasListeners_congr same.subscribed]
    exact books.heard path pair member
  pending := by
    rw [same.pending]
    simp only [hasListeners_congr same.subscribed]
    exact books.pending
  live := by
    rw [same.watched, same.mailbox]
    simp only [same.store.watches]
    exact books.live
  only := by
    rw [same.watched, same.mailbox]
    simp only [same.store.watches]
    exact books.only
  complete query := by
    rw [hasListeners_congr same.subscribed, same.pending, same.root]
    simp only [ownersOf_congr same.watched]
    exact books.complete query
  attended := by
    rw [Registry.queries, same.subscribed]
    simp only [hasListeners_congr same.subscribed]
    exact books.attended
  cached query lists found := by
    rw [Registry.queries, same.subscribed]
    by_cases subscribed : query ∈ s.sync.registry.queries
    · exact subscribed
    · rw [same.cached query subscribed] at found
      exact books.cached query lists found
  numbered watch path found := by
    rw [same.mailbox, same.store.watches] at found
    exact Nat.lt_of_lt_of_le (books.numbered watch path found) same.store.nextWatch
  ordered := by
    rw [same.mailbox]
    exact books.ordered.congr (fun _ _ _ => books.watch_unique) books.numbered same.store

theorem BookedInOrder.mono (books : BookedInOrder owed s) (owes : ∀ query, owed query → owed' query) :
    BookedInOrder owed' s :=
  { books with
    complete := fun query heard one settled =>
      books.complete query heard one (settled ∘ owes query) }

/-- What waits in the backlog makes up for what a query lacks. -/
theorem BookedInOrder.withPending {pending : SortedSet Endpoint} (books : BookedInOrder owed s)
    (heard : ∀ query ∈ pending.toList, s.sync.registry.hasListeners query = true)
    (complete : ∀ query, s.sync.registry.hasListeners query = true → query.interface ≠ Endpoint.anyValue →
      ¬ owed' query → query ∉ pending.toList → ∀ category ∈ query.expandedCategories,
        (query, query) ∈ s.ownersOf (categoryPath s.sync.root query.interface category)) :
    BookedInOrder owed' (s.withBacklog { s.sync.backlog with subscribed := pending }) where
  owned := books.owned
  heard := books.heard
  pending := heard
  live := books.live
  only := books.only
  complete := complete
  attended := books.attended
  cached := books.cached
  numbered := books.numbered
  ordered := books.ordered

theorem BookedInOrder.foldl {α : Type} {f : Synced → α → Synced} {items : List α}
    (books : BookedInOrder owed s)
    (each : ∀ t, BookedInOrder owed t → t.sync.registry.subscribed = s.sync.registry.subscribed →
      ∀ item ∈ items, BookedInOrder owed (f t item) ∧
        (f t item).sync.registry.subscribed = t.sync.registry.subscribed) :
    BookedInOrder owed (items.foldl f s) ∧
      (items.foldl f s).sync.registry.subscribed = s.sync.registry.subscribed := by
  induction items generalizing s with
  | nil => exact ⟨books, rfl⟩
  | cons item items ih =>
      obtain ⟨first, same⟩ := each s books rfl item List.mem_cons_self
      obtain ⟨rest, whole⟩ := ih first fun t right still other member =>
        each t right (still.trans same) other (List.mem_cons_of_mem _ member)
      exact ⟨rest, whole.trans same⟩

end BookedInOrder

section Watched

theorem BookedInOrder.withOwner (books : BookedInOrder owed s)
    (heard : s.sync.registry.hasListeners owner = true)
    (watched : (s.watchedAt path).watch = some watch) (narrowed : Endpoint) :
    BookedInOrder owed (s.putWatched path (addOwner (s.watchedAt path) owner narrowed)) := by
  have entry : ∀ other w, (s.putWatched path (addOwner (s.watchedAt path) owner narrowed)).sync.watched.get?
      other = some w → other = path ∧ w = addOwner (s.watchedAt path) owner narrowed ∨
        other ≠ path ∧ s.sync.watched.get? other = some w := by
    intro other w found
    change (s.sync.watched.insert path _).get? other = some w at found
    rw [SortedMap.get?_insert] at found
    split at found
    · next same => exact .inl ⟨same, (Option.some.inj found).symm⟩
    · next apart => exact .inr ⟨apart, found⟩
  have there : s.sync.watched.get? path = some (s.watchedAt path) := by
    cases found : s.sync.watched.get? path with
    | none => simp [watchedAt, found] at watched
    | some w => rw [watchedAt, found, Option.getD_some]
  exact {
    owned := fun other w found => by
      rcases entry other w found with ⟨_, rfl⟩ | ⟨_, found⟩
      · exact List.ne_nil_of_mem (mem_owners_addOwner.2 (.inl rfl))
      · exact books.owned other w found
    heard := fun other pair member => by
      rw [ownersOf_putWatched] at member
      split at member
      · rcases mem_owners_addOwner.1 member with rfl | member
        · exact heard
        · exact books.heard path pair member
      · exact books.heard other pair member
    pending := books.pending
    live := fun other w found => by
      rcases entry other w found with ⟨rfl, rfl⟩ | ⟨_, found⟩
      · rw [watch_addOwner]
        exact books.live other _ there
      · exact books.live other w found
    only := fun number other found => by
      obtain ⟨w, known, named⟩ := books.only number other found
      show ∃ w, (s.sync.watched.insert path _).get? other = some w ∧ _
      rw [SortedMap.get?_insert]
      split
      · next same =>
          subst same
          rw [there] at known
          cases known
          exact ⟨_, rfl, (watch_addOwner ..).trans named⟩
      · exact ⟨w, known, named⟩
    complete := fun query listened one settled waits category listed => by
      rw [ownersOf_putWatched]
      have before := books.complete query listened one settled waits category listed
      split
      · next same => exact mem_owners_addOwner.2 (.inr (same ▸ before))
      · exact before
    attended := books.attended
    cached := books.cached
    numbered := books.numbered
    ordered := books.ordered }

theorem Ordered.withWatch {mailbox : Store.Mailbox} {store : Store} (ordered : Ordered mailbox store)
    (path : String) : Ordered mailbox (withWatch store path mailbox) where
  past watch place member := by
    obtain ⟨below, before⟩ := ordered.past watch place member
    refine ⟨Nat.lt_succ_of_lt below, fun present found => ?_⟩
    rw [get?_withWatch] at found
    split at found
    · next new => exact new ▸ Nat.le_of_lt below
    · exact before present found
  sorted := ordered.sorted

/-- A path that is not watched yet gets its entry together with its watch. -/
theorem BookedInOrder.withWatch (books : BookedInOrder owed s)
    (heard : s.sync.registry.hasListeners owner = true)
    (unwatched : s.sync.watched.get? path = none) (narrowed : Endpoint) :
    BookedInOrder owed ({ s with store := withWatch s.store path s.sync.mailbox }.putWatched path
      { watch := some s.store.nextWatch, owners := [(owner, narrowed)] }) := by
  have fresh : ∀ watch place, s.store.watches.get? watch = some ⟨place, s.sync.mailbox⟩ →
      watch ≠ s.store.nextWatch := fun watch place found => Nat.ne_of_lt (books.numbered watch place found)
  exact {
    owned := fun other w found => by
      change (s.sync.watched.insert path _).get? other = some w at found
      rw [SortedMap.get?_insert] at found
      split at found
      · cases found
        exact List.cons_ne_nil _ _
      · exact books.owned other w found
    heard := fun other pair member => by
      rw [ownersOf_putWatched] at member
      split at member
      · rw [List.mem_singleton.1 member]
        exact heard
      · exact books.heard other pair member
    pending := books.pending
    live := fun other w found => by
      change (s.sync.watched.insert path _).get? other = some w at found
      rw [SortedMap.get?_insert] at found
      split at found
      · next same =>
          cases found
          exact ⟨_, rfl, same ▸ (get?_withWatch ..).trans (if_pos rfl)⟩
      · obtain ⟨number, named, there⟩ := books.live other w found
        exact ⟨number, named, (get?_withWatch ..).trans ((if_neg (fresh number other there)).trans there)⟩
    only := fun number other found => by
      show ∃ w, (s.sync.watched.insert path _).get? other = some w ∧ _
      change (Synced.withWatch s.store path s.sync.mailbox).watches.get? number = _ at found
      rw [get?_withWatch] at found
      rw [SortedMap.get?_insert]
      split at found
      · next new =>
          cases found
          exact ⟨_, if_pos rfl, congrArg some new.symm⟩
      · obtain ⟨w, known, named⟩ := books.only number other found
        have apart : other ≠ path := by
          rintro rfl
          rw [unwatched] at known
          cases known
        exact ⟨w, (if_neg apart).trans known, named⟩
    complete := fun query listened one settled waits category listed => by
      have before := books.complete query listened one settled waits category listed
      rw [ownersOf_putWatched]
      split
      · next same =>
          rw [show categoryPath s.sync.root query.interface category = path from same, ownersOf, unwatched]
            at before
          cases before
      · exact before
    attended := books.attended
    cached := books.cached
    numbered := fun number other found => by
      change (Synced.withWatch s.store path s.sync.mailbox).watches.get? number = _ at found
      rw [get?_withWatch] at found
      split at found
      · next new => exact Nat.lt_succ_of_le (Nat.le_of_eq new)
      · exact Nat.lt_succ_of_lt (books.numbered number other found)
    ordered := books.ordered.withWatch path }

theorem sameWatches_withDirectory {mailbox : Store.Mailbox} (store : Store) (path : String) :
    Store.SameWatches mailbox store (withDirectory store path) := by
  unfold withDirectory
  split
  · exact .refl
  · exact Store.sameWatches_planted store path false

theorem BookedInOrder.watchPath (books : BookedInOrder owed s)
    (heard : s.sync.registry.hasListeners owner = true)
    (path : String) (narrowed : Endpoint) : BookedInOrder owed (s.watchPath path owner narrowed).2 := by
  have placed : BookedInOrder owed { s with store := withDirectory s.store path } :=
    books.congr (sameWatching_of_store (sameWatches_withDirectory s.store path))
  rcases s.watchPath_cases path owner narrowed with
    ⟨_, error, failed⟩ | ⟨_, watch, watched, done⟩ | ⟨_, unwatched, done⟩
  · rw [failed]
    exact books
  · rw [done]
    exact placed.withOwner heard watched narrowed
  · have absent := books.toBooked.absent unwatched
    have first : { addOwner (s.watchedAt path) owner narrowed with
        watch := some (withDirectory s.store path).nextWatch } =
        ({ watch := some (withDirectory s.store path).nextWatch, owners := [(owner, narrowed)] } :
          WatchedPath) := by
      simp [watchedAt, absent, addOwner]
    rw [done, first]
    exact placed.withWatch heard absent narrowed

/-- What is watched for a query that somebody listens to leaves the books right. -/
theorem BookedInOrder.watchedFor (books : BookedInOrder owed s)
    (heard : s.sync.registry.hasListeners owner = true) (watched : WatchedFor owner s t) :
    BookedInOrder owed t := by
  induction watched with
  | begun => exact books
  | path before path narrowed ih =>
      refine ih.watchPath ?_ path narrowed
      rw [hasListeners_congr before.subscribed_eq]
      exact heard
  | notify before updates ih => exact ih.congr (sameWatching_notify _ updates)

theorem BookedInOrder.addPending (books : BookedInOrder owed s)
    (heard : s.sync.registry.hasListeners query = true) :
    BookedInOrder (fun other => owed other ∧ other ≠ query)
      (s.withBacklog { s.sync.backlog with subscribed := s.sync.backlog.subscribed.add query }) := by
  refine books.withPending (fun other waits => ?_) fun other listened one settled waits => ?_
  · rcases SortedSet.mem_toList_add.1 waits with rfl | waits
    · exact heard
    · exact books.pending other waits
  · have apart : other ≠ query := fun same => waits (SortedSet.mem_toList_add.2 (.inl same))
    exact books.complete other listened one (fun owing => settled ⟨owing, apart⟩) fun member =>
      waits (SortedSet.mem_toList_add.2 (.inr member))

theorem BookedInOrder.watchQuery (books : BookedInOrder owed s)
    (heard : s.sync.registry.hasListeners query = true) :
    BookedInOrder owed (s.watchQuery query).2 ∧
      (s.watchQuery query).2.sync.registry.subscribed = s.sync.registry.subscribed :=
  ⟨books.watchedFor heard (s.watchedFor_watchQuery query), (s.watchedFor_watchQuery query).subscribed_eq⟩

/-- A query that has been watched, or else waits for a retry, is owed nothing. -/
theorem BookedInOrder.recoverQuery (books : BookedInOrder owed s)
    (heard : s.sync.registry.hasListeners query = true) :
    BookedInOrder (fun other => owed other ∧ other ≠ query) (s.recoverQuery query) ∧
      (s.recoverQuery query).sync.registry.subscribed = s.sync.registry.subscribed := by
  obtain ⟨right, same⟩ := books.watchQuery heard
  rcases s.recoverQuery_cases query with done | ⟨error, t, failed, waiting⟩
  · rw [done] at right same
    refine ⟨{ right with complete := fun other listened one settled waits => ?_ }, same⟩
    by_cases here : other = query
    · subst here
      exact owns_of_watchQuery done one
    · exact right.complete other listened one (fun owing => settled ⟨owing, here⟩) waits
  · rw [failed] at right same
    rw [waiting]
    have heard_still := (hasListeners_congr same query).trans heard
    exact ⟨right.addPending heard_still, same⟩

theorem BookedInOrder.dropPending (books : BookedInOrder owed s)
    (complete : s.sync.registry.hasListeners query = true → query.interface ≠ Endpoint.anyValue →
      ¬ owed query → ∀ category ∈ query.expandedCategories,
        (query, query) ∈ s.ownersOf (categoryPath s.sync.root query.interface category)) :
    BookedInOrder owed (s.dropPending query) := by
  refine books.withPending (fun other waits => books.pending other (SortedSet.mem_toList_erase.1 waits).2)
    fun other listened one settled waits => ?_
  by_cases here : other = query
  · subst here
    exact complete listened one settled
  · exact books.complete other listened one settled fun member =>
      waits (SortedSet.mem_toList_erase.2 ⟨here, member⟩)

theorem BookedInOrder.retrySubscribe (books : BookedInOrder owed s) (query : Endpoint) :
    BookedInOrder owed (s.retrySubscribe query) ∧
      (s.retrySubscribe query).sync.registry.subscribed = s.sync.registry.subscribed := by
  rcases s.retrySubscribe_cases query with ⟨heard, t, done, tried⟩ | ⟨heard, error, failed⟩ | ⟨silent, tried⟩
  · obtain ⟨right, same⟩ := books.watchQuery heard
    rw [done] at right same
    rw [tried]
    exact ⟨right.dropPending fun _ one _ => owns_of_watchQuery done one, same⟩
  · have watched := books.watchQuery heard
    rwa [failed] at watched
  · rw [tried]
    exact ⟨books.dropPending fun heard => absurd heard silent, rfl⟩

theorem BookedInOrder.addInterface (books : BookedInOrder owed s)
    (heard : s.sync.registry.hasListeners owner = true) (name : String) :
    BookedInOrder owed (s.addInterface owner name) ∧
      (s.addInterface owner name).sync.registry.subscribed = s.sync.registry.subscribed := by
  rcases s.addInterface_cases owner name with idle | ⟨interface, outcome⟩
  · rw [idle]
    exact ⟨books, rfl⟩
  · have watched := (watchSteps_watchedFor owner).watchCategories rfl
      (expandedCategories_scopeTo owner interface) s
    have right := books.watchedFor heard watched
    have same := watched.subscribed_eq
    rcases outcome with done | ⟨error, t, failed, waiting⟩
    · rw [done] at right same
      exact ⟨right, same⟩
    · rw [failed] at right same
      rw [waiting]
      have heard_still := (hasListeners_congr same owner).trans heard
      exact ⟨(right.addPending heard_still).mono fun _ owing => owing.1, same⟩

theorem BookedInOrder.handleInterfaces (books : BookedInOrder owed s) (names : List String) :
    BookedInOrder owed (s.handleInterfaces names) := by
  have before := books.heard s.sync.root
  refine (books.foldl fun t books same pair member => books.foldl fun u books still name _ => ?_).1
  refine books.addInterface ?_ name
  rw [hasListeners_congr (still.trans same)]
  exact before pair member

theorem BookedInOrder.handleChildren (books : BookedInOrder owed s) (path : String) (names : List String) :
    BookedInOrder owed (s.handleChildren path names) := by
  unfold Synced.handleChildren
  split
  · exact books.handleInterfaces names
  · unfold Synced.handleMembers
    split
    · exact books
    · exact books.congr (sameWatching_notify s _)

theorem BookedInOrder.recover (books : BookedInOrder (fun _ => False) s) :
    BookedInOrder (fun _ => False) s.recover := by
  have apart : SameWatching s (s.sync.registry.registered.toList.foldl recoverEndpoint s) :=
    foldl_of_steps nodeSteps_sameWatching.refl .trans
      (fun t e _ => nodeSteps_sameWatching.recoverEndpoint t e) s
  refine ((books.congr apart).foldl fun t right same query member => ?_).1
  have heard : t.sync.registry.hasListeners query = true := by
    rw [hasListeners_congr (same.trans apart.subscribed)]
    exact books.attended query member
  obtain ⟨recovered, still⟩ := right.recoverQuery heard
  exact ⟨recovered.mono fun _ owing => owing.1, still⟩

theorem BookedInOrder.retry (books : BookedInOrder owed s) :
    BookedInOrder owed s.retry ∧ s.retry.sync.registry.subscribed = s.sync.registry.subscribed := by
  have apart := nodeSteps_sameWatching.retryNodes s
  obtain ⟨right, same⟩ := (books.congr apart).foldl fun t right _ query _ => right.retrySubscribe query
  exact ⟨right, same.trans apart.subscribed⟩

end Watched

end ServiceGovernance.Synced
