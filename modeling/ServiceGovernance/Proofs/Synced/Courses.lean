import ServiceGovernance.Proofs.Registry.Listeners
import ServiceGovernance.Proofs.Synced.Bookkeeping
import ServiceGovernance.Proofs.Synced.Currency

/-!
Courses that a registry can take. Whatever is subscribed, unsubscribed, looked up, tried again or told,
and whatever the store and the others that use it do, the books about the watches stay right. With its
last listener a query leaves nothing behind, and a registry that is destroyed leaves no query behind.
-/

namespace ServiceGovernance.Synced

open SyncedRegistry

variable {s : Synced} {owed : Endpoint → Prop} {owner query : Endpoint} {listener : Listener}
  {path : String} {watch : Nat}

/-- Nothing is left of a query. -/
structure Forgotten (query : Endpoint) (s : Synced) : Prop where
  unheard : query ∉ s.sync.registry.queries
  uncached : s.sync.registry.notified.get? query = none
  settled : query ∉ s.sync.backlog.subscribed.toList
  unowned : ∀ path, ∀ pair ∈ s.ownersOf path, pair.1 ≠ query

section Drop

theorem mem_released_iff : watch ∈ s.released owner ↔
    ∃ path w, s.sync.watched.get? path = some w ∧ (withoutOwner owner w).owners = [] ∧
      w.watch = some watch := by
  simp only [released, List.mem_filterMap, List.mem_filter, SortedMap.mem_values_iff, List.isEmpty_iff]
  constructor
  · rintro ⟨w, ⟨⟨path, found⟩, emptied⟩, named⟩
    exact ⟨path, w, found, emptied, named⟩
  · rintro ⟨path, w, found, emptied, named⟩
    exact ⟨w, ⟨⟨path, found⟩, emptied⟩, named⟩

theorem get?_watches_dropWatches (s : Synced) (owner : Endpoint) (watch : Nat) :
    (s.dropWatches owner).store.watches.get? watch =
      if watch ∈ s.released owner then none else s.store.watches.get? watch :=
  get?_foldl_unwatch ..

theorem awaited_dropWatches (s : Synced) (owner : Endpoint) (mailbox : Store.Mailbox) :
    (s.dropWatches owner).store.awaited mailbox = s.store.awaited mailbox ∧
      (s.dropWatches owner).store.nextWatch = s.store.nextWatch := by
  obtain ⟨watches, same⟩ := foldl_unwatch_eq (s.released owner) s.store
  have store : (s.dropWatches owner).store = { s.store with watches } := same
  rw [store]
  exact ⟨rfl, rfl⟩

/-- A path that keeps an owner keeps its entry and its watch. -/
theorem get?_dropWatches_eq_some_iff {w : WatchedPath} :
    (s.dropWatches owner).sync.watched.get? path = some w ↔ ∃ before,
      s.sync.watched.get? path = some before ∧ withoutOwner owner before = w ∧ w.owners ≠ [] := by
  rw [get?_dropWatches, Option.filter_eq_some_iff, Option.map_eq_some_iff]
  simp only [Bool.not_eq_true', List.isEmpty_eq_false_iff, ne_eq]
  constructor
  · rintro ⟨⟨before, found, rfl⟩, filled⟩
    exact ⟨before, found, rfl, filled⟩
  · rintro ⟨before, found, rfl, filled⟩
    exact ⟨⟨before, found, rfl⟩, filled⟩

/-- With its last listener a query loses its paths. -/
theorem BookedInOrder.dropped {registry : Registry} (books : BookedInOrder owed s)
    (heard_iff : ∀ other, registry.hasListeners other = true ↔
      s.sync.registry.hasListeners other = true ∧ other ≠ query)
    (attended : ∀ other ∈ registry.queries, registry.hasListeners other = true)
    (cached : ∀ other lists, registry.notified.get? other = some lists → other ∈ registry.queries) :
    BookedInOrder owed (((s.withRegistry registry).dropPending query).dropWatches query) := by
  have live_iff : ∀ watch path, (((s.withRegistry registry).dropPending query).dropWatches
      query).store.watches.get? watch = some ⟨path, s.sync.mailbox⟩ ↔
        watch ∉ s.released query ∧ s.store.watches.get? watch = some ⟨path, s.sync.mailbox⟩ := by
    intro watch path
    rw [get?_watches_dropWatches]
    show (if watch ∈ s.released query then none else s.store.watches.get? watch) = _ ↔ _
    split <;> simp [*]
  have queue := awaited_dropWatches ((s.withRegistry registry).dropPending query) query s.sync.mailbox
  exact {
    owned := fun path w found => by
      obtain ⟨_, _, _, filled⟩ := get?_dropWatches_eq_some_iff.1 found
      exact filled
    heard := fun path pair member => by
      obtain ⟨before, apart⟩ := mem_ownersOf_dropWatches.1 member
      exact (heard_iff pair.1).2 ⟨books.heard path pair before, apart⟩
    pending := fun other waits => by
      obtain ⟨apart, before⟩ := SortedSet.mem_toList_erase.1 waits
      exact (heard_iff other).2 ⟨books.pending other before, apart⟩
    live := fun path w found => by
      obtain ⟨before, known, rfl, filled⟩ := get?_dropWatches_eq_some_iff.1 found
      obtain ⟨watch, named, there⟩ := books.live path before known
      refine ⟨watch, named, (live_iff watch path).2 ⟨fun gone => filled ?_, there⟩⟩
      -- A released watch is of a path that has lost its owners, and no two paths have one watch.
      obtain ⟨other, w, found_other, emptied, named_other⟩ := mem_released_iff.1 gone
      obtain ⟨number, named_again, there_other⟩ := books.live other w found_other
      rw [named_other] at named_again
      cases named_again
      rw [there] at there_other
      cases there_other
      rw [show s.sync.watched.get? path = some before from known] at found_other
      cases found_other
      exact emptied
    only := fun watch path found => by
      obtain ⟨stays, there⟩ := (live_iff watch path).1 found
      obtain ⟨w, known, named⟩ := books.only watch path there
      refine ⟨withoutOwner query w, get?_dropWatches_eq_some_iff.2 ⟨w, known, rfl, fun emptied => ?_⟩, named⟩
      exact stays (mem_released_iff.2 ⟨path, w, known, emptied, named⟩)
    complete := fun other heard one settled waits category listed => by
      obtain ⟨heard_before, apart⟩ := (heard_iff other).1 heard
      refine mem_ownersOf_dropWatches.2 ⟨?_, apart⟩
      exact books.complete other heard_before one settled (fun member =>
        waits (SortedSet.mem_toList_erase.2 ⟨apart, member⟩)) category listed
    attended := attended
    cached := cached
    numbered := fun watch path found => by
      rw [queue.2]
      exact books.numbered watch path ((live_iff watch path).1 found).2
    ordered := by
      refine ⟨fun watch path member => ?_, ?_⟩
      · rw [queue.2]
        obtain ⟨below, before⟩ := books.ordered.past watch path (queue.1 ▸ member)
        exact ⟨below, fun present found => before present ((live_iff present path).1 found).2⟩
      · show List.Pairwise _ (Store.awaited _ s.sync.mailbox)
        rw [queue.1]
        exact books.ordered.sorted }

theorem BookedInOrder.withListeners {registry : Registry} (books : BookedInOrder owed s)
    (heard_iff : ∀ other, registry.hasListeners other = true ↔ s.sync.registry.hasListeners other = true)
    (attended : ∀ other ∈ registry.queries, registry.hasListeners other = true)
    (cached : ∀ other lists, registry.notified.get? other = some lists → other ∈ registry.queries) :
    BookedInOrder owed (s.withRegistry registry) where
  owned := books.owned
  heard path pair member := (heard_iff _).2 (books.heard path pair member)
  pending other waits := (heard_iff _).2 (books.pending other waits)
  live := books.live
  only := books.only
  complete other heard := books.complete other ((heard_iff _).1 heard)
  attended := attended
  cached := cached
  numbered := books.numbered
  ordered := books.ordered

theorem BookedInOrder.unsubscribe (books : BookedInOrder owed s) (query : Endpoint) (listener : Listener) :
    BookedInOrder owed (s.unsubscribe query listener) := by
  have attended := Registry.attended_unsubscribe query listener books.attended
  have cached := Registry.cached_unsubscribe query listener books.cached
  have before : (s.sync.registry.unsubscribe query listener).hasListeners query = true →
      s.sync.registry.hasListeners query = true := by
    rw [Registry.hasListeners_iff, Registry.hasListeners_iff, Registry.listeners_unsubscribe, if_pos rfl]
    exact fun some_left none_there => some_left (by rw [none_there]; rfl)
  unfold Synced.unsubscribe
  dsimp only
  split
  · next heard =>
      refine books.withListeners (fun other => ?_) attended cached
      by_cases same : other = query
      · subst same
        exact iff_of_true heard (before heard)
      · rw [Registry.hasListeners_unsubscribe_of_ne same]
  · next silent =>
      refine books.dropped (fun other => ?_) attended cached
      by_cases same : other = query
      · subst same
        exact iff_of_false silent fun both => both.2 rfl
      · rw [Registry.hasListeners_unsubscribe_of_ne same]
        exact (and_iff_left same).symm

/-- Where nobody listens to a query any more, nothing is left of it. -/
theorem BookedInOrder.forgotten (books : BookedInOrder owed s)
    (silent : s.sync.registry.hasListeners query = false) :
    Forgotten query s := by
  have unheard : s.sync.registry.hasListeners query ≠ true := by simp [silent]
  refine ⟨fun subscribed => unheard (books.attended query subscribed), ?_, fun waits =>
    unheard (books.pending query waits), fun path pair member same => ?_⟩
  · cases found : s.sync.registry.notified.get? query with
    | none => rfl
    | some lists => exact absurd (books.attended query (books.cached query lists found)) unheard
  · exact unheard (same ▸ books.heard path pair member)

/-- A query that has got a listener is owed its paths. -/
theorem BookedInOrder.listen (books : BookedInOrder (fun _ => False) s) (query : Endpoint)
    (listener : Listener) : BookedInOrder (· = query) (s.withListener query listener) where
  owned := books.owned
  heard path pair member := Registry.hasListeners_addListener.2 (.inr (books.heard path pair member))
  pending other waits := Registry.hasListeners_addListener.2 (.inr (books.pending other waits))
  live := books.live
  only := books.only
  complete other heard one settled :=
    books.complete other ((Registry.hasListeners_addListener.1 heard).resolve_left settled) one id
  attended other member := Registry.hasListeners_addListener.2
    ((Registry.mem_queries_addListener.1 member).imp_right (books.attended other))
  cached other lists found := Registry.mem_queries_addListener.2 (.inr (books.cached other lists found))
  numbered := books.numbered
  ordered := books.ordered

theorem BookedInOrder.attend (books : BookedInOrder (fun _ => False) s) (query : Endpoint)
    (listener : Listener) : BookedInOrder (fun _ => False) (s.attend query listener) := by
  rcases s.attend_cases query listener with same | ⟨_, listening⟩
  · rwa [same]
  · rw [listening]
    have recovered := ((books.listen query listener).recoverQuery
      (Registry.hasListeners_addListener.2 (.inl rfl))).1
    exact recovered.mono fun other owing => owing.2 owing.1

end Drop

section Courses

theorem BookedInOrder.handleNext (books : BookedInOrder (fun _ => False) s) (aboutSession : Bool) :
    BookedInOrder (fun _ => False) (s.handleNext aboutSession) := by
  rcases s.handleNext_cases aboutSession with same | ⟨before, notice, after, whole, _, _, handled⟩
  · rw [same]
    exact books
  · have fewer : (before ++ after).Sublist s.store.outbox := by
      rw [whole]
      exact (List.Sublist.refl _).append (List.sublist_cons_self _ _)
    have taken : BookedInOrder (fun _ => False)
        { s with store := { s.store with outbox := before ++ after } } :=
      books.congr (sameWatching_of_store (Store.sameWatches_of_sublist (fun _ _ => .rfl) (Nat.le_refl _)
        (fewer.filterMap _)))
    rw [handled]
    cases notice with
    | children number mailbox path names => exact taken.handleChildren path names
    | session mailbox state =>
        cases state with
        | connected => exact taken
        | disconnected => exact taken
        | reconnected => exact taken.recover

/-- Others do with the store what it lets them do, each with mailboxes and watches of its own. -/
def OthersAbroad (s : Synced) : Event → Prop
  | .elsewhere store => Store.Abroad s.sync.mailbox s.store store
  | _ => True

/-- What can become of a registry and its store, whatever its user asks of it and however its session comes
and goes, from a store on that nobody has used the next mailbox of. -/
def Course : Synced → Prop :=
  Run (fun store _ => (∀ watch path, store.watches.get? watch ≠ some ⟨path, store.nextMailbox⟩) ∧
    store.awaited store.nextMailbox = []) OthersAbroad

theorem bookedInOrder_start {store : Store}
    (unwatched : ∀ watch path, store.watches.get? watch ≠ some ⟨path, store.nextMailbox⟩)
    (untold : store.awaited store.nextMailbox = []) (root : String) (lookupTimeout retryPeriod : Nat) :
    BookedInOrder (fun _ => False) (start store root lookupTimeout retryPeriod) := by
  have quiet : (start store root lookupTimeout retryPeriod).store.awaited store.nextMailbox = [] := by
    show List.filterMap _ (store.outbox ++ [_]) = []
    rw [List.filterMap_append]
    exact List.append_eq_nil_iff.2 ⟨untold, rfl⟩
  exact {
    owned := fun _ _ found => nomatch found
    heard := fun _ _ member => nomatch member
    pending := fun _ waits => nomatch waits
    live := fun _ _ found => nomatch found
    only := fun watch path found => absurd found (unwatched watch path)
    complete := fun _ heard => nomatch heard
    attended := fun _ member => nomatch member
    cached := fun _ _ found => nomatch found
    numbered := fun watch path found => absurd found (unwatched watch path)
    ordered := ⟨fun _ _ member => absurd (quiet ▸ member) List.not_mem_nil, quiet ▸ .nil⟩ }

theorem BookedInOrder.after {event : Event} (books : BookedInOrder (fun _ => False) s)
    (abroad : s.OthersAbroad event) : BookedInOrder (fun _ => False) (s.after event) := by
  cases event with
  | register e => exact books.congr (nodeSteps_sameWatching.register s e)
  | unregister e => exact books.congr (nodeSteps_sameWatching.unregister s e)
  | publish interface rule => exact books.congr (nodeSteps_sameWatching.register s _)
  | subscribe query listener => exact books.attend query listener
  | unsubscribe query listener => exact books.unsubscribe query listener
  | retry => exact books.retry.1
  | handle aboutSession => exact books.handleNext aboutSession
  | setOnline online => exact books.congr (sameWatching_of_store (Store.told_setOnline online).sameWatches)
  | expire => exact books.congr (sameWatching_of_store (Store.told_expire (by simp)).sameWatches)
  | elsewhere store =>
      exact books.congr (sameWatching_of_store (Store.Abroad.sameWatches abroad books.numbered))

theorem Course.bookedInOrder (course : Course s) : BookedInOrder (fun _ => False) s := by
  induction course with
  | start fit lookupTimeout retryPeriod =>
      exact bookedInOrder_start fit.1 fit.2 _ lookupTimeout retryPeriod
  | step before event abroad ih => exact ih.after abroad

end Courses

section Destroy

/-- A registry on its way out: it has given up its dynamic endpoints and all subscriptions. -/
def withdrawn (s : Synced) : Synced :=
  s.sync.registry.subscriptions.foldl (fun s subscription => s.unsubscribe subscription.1 subscription.2)
    (s.sync.registry.dynamicRegistered.foldl unregister s)

theorem destroy_eq (s : Synced) :
    s.destroy = { s.withdrawn with
      sync := { s.withdrawn.sync with running := false }
      store := s.withdrawn.store.closeMailbox s.withdrawn.sync.mailbox } := rfl

theorem registry_unsubscribe (s : Synced) (query : Endpoint) (listener : Listener) :
    (s.unsubscribe query listener).sync.registry = s.sync.registry.unsubscribe query listener := by
  unfold unsubscribe
  dsimp only
  split <;> rfl

theorem mem_listeners_foldl_unsubscribe {items : List (Endpoint × Listener)} :
    listener ∈ (items.foldl (fun s item => s.unsubscribe item.1 item.2) s).sync.registry.listeners query ↔
      listener ∈ s.sync.registry.listeners query ∧ (query, listener) ∉ items := by
  induction items generalizing s with
  | nil => simp
  | cons item items ih =>
      rw [List.foldl_cons, ih, registry_unsubscribe, Registry.listeners_unsubscribe, List.mem_cons, not_or,
        ← and_assoc]
      refine and_congr_left fun _ => ?_
      by_cases same : query = item.1
      · subst same
        rw [if_pos rfl, List.mem_filter, bne_iff_ne]
        refine and_congr_right fun _ => not_congr ⟨fun h => by rw [h], fun h => ?_⟩
        exact congrArg Prod.snd h
      · rw [if_neg same]
        exact (and_iff_left fun h => same (congrArg Prod.fst h)).symm

theorem hasListeners_withdrawn (s : Synced) (query : Endpoint) :
    s.withdrawn.sync.registry.hasListeners query = false := by
  have apart := nodeSteps_sameWatching.dynamicUnregister s
  have none_left : s.withdrawn.sync.registry.listeners query = [] := by
    refine List.eq_nil_iff_forall_not_mem.2 fun listener member => ?_
    obtain ⟨there, left⟩ := mem_listeners_foldl_unsubscribe.1 member
    rw [Registry.listeners, apart.subscribed, ← Registry.listeners] at there
    exact left (Registry.mem_subscriptions_iff.2 there)
  rw [Registry.hasListeners, none_left]
  rfl

theorem BookedInOrder.withdrawn (books : BookedInOrder owed s) : BookedInOrder owed s.withdrawn := by
  have apart := nodeSteps_sameWatching.dynamicUnregister s
  have begun := books.congr apart
  unfold Synced.withdrawn
  generalize s.sync.registry.dynamicRegistered.foldl unregister s = t at begun
  generalize s.sync.registry.subscriptions = items
  induction items generalizing t with
  | nil => exact begun
  | cons item items ih => exact ih _ (begun.unsubscribe item.1 item.2)

/-- Where nobody listens to anything, nothing is watched. -/
theorem Booked.unwatched (booked : Booked owed s)
    (silent : ∀ query, s.sync.registry.hasListeners query = false) :
    (∀ path, s.sync.watched.get? path = none) ∧
      ∀ watch path, s.store.watches.get? watch ≠ some ⟨path, s.sync.mailbox⟩ := by
  have absent : ∀ path, s.sync.watched.get? path = none := by
    intro path
    cases found : s.sync.watched.get? path with
    | none => rfl
    | some w =>
        obtain ⟨pair, member⟩ := List.exists_mem_of_ne_nil _ (booked.owned path w found)
        have heard := booked.heard path pair (ownersOf_of_some found ▸ member)
        rw [silent] at heard
        cases heard
  refine ⟨absent, fun watch path found => ?_⟩
  obtain ⟨w, known, _⟩ := booked.only watch path found
  rw [absent] at known
  cases known

theorem BookedInOrder.destroy (books : BookedInOrder (fun _ => False) s) :
    Booked (fun _ => False) s.destroy ∧ (∀ query, Forgotten query s.destroy) := by
  have gone := books.withdrawn
  have silent := s.hasListeners_withdrawn
  obtain ⟨absent, unwatched⟩ := gone.toBooked.unwatched silent
  rw [destroy_eq]
  constructor
  · exact {
      owned := gone.owned
      heard := gone.heard
      pending := gone.pending
      live := fun path w found => by cases (absent path).symm.trans found
      only := fun watch path found => by
        change (s.withdrawn.store.watches.filter _).get? watch = _ at found
        rw [SortedMap.get?_filter, Option.filter_eq_some_iff] at found
        exact absurd found.1 (unwatched watch path)
      complete := gone.complete }
  · intro query
    have nothing := gone.forgotten (silent query)
    exact ⟨nothing.unheard, nothing.uncached, nothing.settled, nothing.unowned⟩

/-- At all times the books are right, also after the end of the registry, whose watches are gone before
its mailbox is closed. A query that has lost its last listener, in a lookup or otherwise, has left
nothing behind, and neither has any query when the registry is destroyed. -/
theorem Course.books (course : Course s) :
    Booked (fun _ => False) s ∧
      (∀ query listener, (s.unsubscribe query listener).sync.registry.hasListeners query = false →
        Forgotten query (s.unsubscribe query listener)) ∧
      Booked (fun _ => False) s.destroy ∧ (∀ query, Forgotten query s.destroy) ∧
      (∀ path, s.destroy.sync.watched.get? path = none) ∧
      ∀ watch path, s.withdrawn.store.watches.get? watch ≠ some ⟨path, s.withdrawn.sync.mailbox⟩ := by
  have books := course.bookedInOrder
  obtain ⟨destroyed, forgotten⟩ := books.destroy
  obtain ⟨absent, unwatched⟩ := books.withdrawn.toBooked.unwatched s.hasListeners_withdrawn
  exact ⟨books.toBooked, fun query listener silent => (books.unsubscribe query listener).forgotten silent,
    destroyed, forgotten, absent, unwatched⟩

end Destroy

section Partly

def another : Endpoint := { protocol := "c", host := "d", port := 1, path := "j" }

/-- Two queries, the second one while the store is offline. -/
def partly : Synced :=
  (((start {} "/r" 5000 5000).after (.subscribe consumer 0)).after (.setOnline false)).after
    (.subscribe another 1)

theorem course_partly : Course partly :=
  .step (.step (.step (.start ⟨fun _ _ found => (nomatch found), rfl⟩ 5000 5000) _ trivial) _ trivial) _ trivial

theorem partly_booked :
    Course partly ∧ partly.sync.backlog.subscribed.toList = [another] ∧
      partly.sync.registry.hasListeners another = true ∧ (consumer, consumer) ∈ partly.ownersOf home ∧
      (∃ w, partly.sync.watched.get? home = some w ∧ w.watch = some 0) ∧
      Forgotten consumer (partly.unsubscribe consumer 0) ∧
      ∀ path, partly.destroy.sync.watched.get? path = none := by
  have facts : partly.sync.root = "/r" ∧ partly.sync.backlog.subscribed.toList = [another] ∧
      partly.sync.registry.hasListeners consumer = true ∧
      partly.store.watches.get? 0 = some ⟨home, partly.sync.mailbox⟩ ∧
      (partly.unsubscribe consumer 0).sync.registry.hasListeners consumer = false := by
    decide +kernel
  obtain ⟨root, waits, heard, there, silent⟩ := facts
  obtain ⟨booked, leaves, _, _, absent, _⟩ := course_partly.books
  have owns := booked.complete consumer heard (by decide) id (by rw [waits]; decide) "providers" (by decide)
  rw [root] at owns
  exact ⟨course_partly, waits, booked.pending another (by rw [waits]; exact .head _), owns,
    booked.only 0 home there, leaves consumer 0 silent, absent⟩

end Partly

end ServiceGovernance.Synced
