import ServiceGovernance.Proofs.Synced.Reading

/-!
What watching for one query does, and what has nothing to do with watching. To watch for a query is to
watch paths for it and to notify the local registry; the others keep their paths meanwhile. What is done
apart from that leaves the watched paths, the queries and the watches as they are, and sends notices of
live watches only.
-/

namespace ServiceGovernance

open SyncedRegistry

namespace Store

/-- The watch and the path that a notice for a mailbox speaks of. -/
def Notice.about? (mailbox : Mailbox) : Notice → Option (Nat × String)
  | .children watch receiver path _ => if receiver = mailbox then some (watch, path) else none
  | .session _ _ => none

/-- What the child notices speak of that wait for a mailbox, the oldest first. -/
def awaited (s : Store) (mailbox : Mailbox) : List (Nat × String) :=
  s.outbox.filterMap (Notice.about? mailbox)

/-- The watches of a mailbox are the same, and what has come for it is told by one of them. -/
structure SameWatches (mailbox : Mailbox) (s t : Store) : Prop where
  watches : ∀ watch path, t.watches.get? watch = some ⟨path, mailbox⟩ ↔
    s.watches.get? watch = some ⟨path, mailbox⟩
  nextWatch : s.nextWatch ≤ t.nextWatch
  queue : ∃ left news, t.awaited mailbox = left ++ news ∧ left.Sublist (s.awaited mailbox) ∧
    ∀ watch path, (watch, path) ∈ news → s.watches.get? watch = some ⟨path, mailbox⟩

/-- What the others do with a store, each with mailboxes and watches of its own. -/
inductive Abroad (mailbox : Mailbox) (s : Store) : Store → Prop where
  | create (path : String) (ephemeral : Bool) : Abroad mailbox s (s.create path ephemeral).2
  | delete (path : String) : Abroad mailbox s (s.delete path).2
  | setData (path : String) (data : List UInt8) : Abroad mailbox s (s.setData path data).2
  | watch (path : String) {other : Mailbox} (apart : other ≠ mailbox) :
      Abroad mailbox s (s.watchChildren path other).2
  | unwatch {watch : Nat} (foreign : ∀ path, s.watches.get? watch ≠ some ⟨path, mailbox⟩) :
      Abroad mailbox s (s.unwatch watch)
  | «open» : Abroad mailbox s s.openMailbox.2
  | listen (other : Mailbox) : Abroad mailbox s (s.watchState other)
  | close {other : Mailbox} (apart : other ≠ mailbox) : Abroad mailbox s (s.closeMailbox other)
  | take {wanted : Notice → Bool} {notice : Notice} {store : Store}
      (taken : s.takeNotice wanted = some (notice, store)) (apart : notice.mailbox ≠ mailbox) :
      Abroad mailbox s store

variable {mailbox : Mailbox} {s t u : Store} {path : String}

section SameWatches

theorem Notice.about?_eq_some_iff {notice : Notice} {watch : Nat} :
    notice.about? mailbox = some (watch, path) ↔ ∃ names, notice = .children watch mailbox path names := by
  cases notice with
  | session receiver state => simp [about?]
  | children number receiver other names =>
      by_cases mine : receiver = mailbox <;> simp [about?, mine]

theorem mem_awaited_iff {watch : Nat} :
    (watch, path) ∈ s.awaited mailbox ↔ ∃ names, .children watch mailbox path names ∈ s.outbox := by
  simp only [awaited, List.mem_filterMap, Notice.about?_eq_some_iff]
  constructor
  · rintro ⟨_, member, names, rfl⟩
    exact ⟨names, member⟩
  · exact fun ⟨names, member⟩ => ⟨_, member, names, rfl⟩

/-- No watch and nothing new: at most some notices have gone. -/
theorem sameWatches_of_sublist (watches : ∀ watch path, t.watches.get? watch = some ⟨path, mailbox⟩ ↔
      s.watches.get? watch = some ⟨path, mailbox⟩)
    (nextWatch : s.nextWatch ≤ t.nextWatch) (outbox : (t.awaited mailbox).Sublist (s.awaited mailbox)) :
    SameWatches mailbox s t :=
  ⟨watches, nextWatch, _, [], (List.append_nil _).symm, outbox, by simp⟩

theorem SameWatches.refl : SameWatches mailbox s s :=
  sameWatches_of_sublist (fun _ _ => .rfl) (Nat.le_refl _) (.refl _)

theorem SameWatches.trans (first : SameWatches mailbox s t) (second : SameWatches mailbox t u) :
    SameWatches mailbox s u := by
  obtain ⟨left, news, whole, fewer, live⟩ := first.queue
  obtain ⟨left', news', whole', fewer', live'⟩ := second.queue
  rw [whole] at fewer'
  obtain ⟨old, new, rfl, old_fewer, new_fewer⟩ := List.sublist_append_iff.1 fewer'
  refine ⟨fun watch path => (second.watches watch path).trans (first.watches watch path),
    Nat.le_trans first.nextWatch second.nextWatch, old, new ++ news', by rw [whole', List.append_assoc],
    old_fewer.trans fewer, fun watch path member => ?_⟩
  rcases List.mem_append.1 member with member | member
  · exact live watch path (new_fewer.mem member)
  · exact (first.watches watch path).1 (live' watch path member)

theorem sameWatches_of_told {news : List Notice} (watches : t.watches = s.watches)
    (nextWatch : t.nextWatch = s.nextWatch) (outbox : t.outbox = s.outbox ++ news)
    (live : ∀ notice ∈ news, Live (fun _ => True) s notice) : SameWatches mailbox s t := by
  refine ⟨fun watch path => by rw [watches], Nat.le_of_eq nextWatch.symm, s.awaited mailbox,
    news.filterMap (Notice.about? mailbox), ?_, .refl _, fun watch path member => ?_⟩
  · rw [awaited, outbox, List.filterMap_append]
    rfl
  · obtain ⟨notice, there, about⟩ := List.mem_filterMap.1 member
    obtain ⟨names, rfl⟩ := Notice.about?_eq_some_iff.1 about
    exact (live _ there).1

theorem Told.sameWatches (told : Told (fun _ => True) s t) : SameWatches mailbox s t := by
  obtain ⟨news, outbox, live, _⟩ := told.outbox
  exact sameWatches_of_told told.watches told.nextWatch outbox live

theorem sameWatches_planted (s : Store) (path : String) (ephemeral : Bool) :
    SameWatches mailbox s (s.planted path ephemeral) :=
  (s.told_of_planted path ephemeral).sameWatches

theorem sameWatches_pruned (s : Store) (path : String) : SameWatches mailbox s (s.pruned path) := by
  rw [pruned_eq]
  refine sameWatches_of_told rfl rfl rfl fun notice member => ?_
  have live : Live (fun _ => True) (s.removeSubtree path) notice :=
    live_of_mem_parentNotices (fun _ _ => trivial) member
  exact (Live.congr rfl).1 live

theorem sameWatches_create (s : Store) (path : String) (ephemeral : Bool) :
    SameWatches mailbox s (s.create path ephemeral).2 := by
  rcases s.store_create path ephemeral with same | ⟨_, made⟩
  · rw [same]; exact .refl
  · rw [made]; exact sameWatches_planted s path ephemeral

theorem sameWatches_delete (s : Store) (path : String) : SameWatches mailbox s (s.delete path).2 := by
  rcases s.store_delete path with same | ⟨_, gone⟩
  · rw [same]; exact .refl
  · rw [gone]; exact sameWatches_pruned s path

theorem sameWatches_setData (s : Store) (path : String) (data : List UInt8) :
    SameWatches mailbox s (s.setData path data).2 := by
  unfold setData
  split
  · exact .refl
  · split
    · exact sameWatches_of_sublist (fun _ _ => .rfl) (Nat.le_refl _) (.refl _)
    · exact .refl

/-- What the others do brings a mailbox no watch and takes none from it. -/
theorem Abroad.sameWatches (abroad : Abroad mailbox s t)
    (numbered : ∀ watch path, s.watches.get? watch = some ⟨path, mailbox⟩ → watch < s.nextWatch) :
    SameWatches mailbox s t := by
  cases abroad with
  | create path ephemeral => exact sameWatches_create s path ephemeral
  | delete path => exact sameWatches_delete s path
  | setData path data => exact sameWatches_setData s path data
  | @watch path other apart =>
      unfold watchChildren
      split
      · exact .refl
      · split
        · exact .refl
        · refine sameWatches_of_sublist (fun watch place => ?_) (Nat.le_succ _) (.refl _)
          show (s.watches.insert _ _).get? watch = _ ↔ _
          rw [SortedMap.get?_insert]
          split
          · next same =>
              subst same
              refine iff_of_false (fun ours => apart ?_) fun ours => Nat.lt_irrefl _ (numbered _ _ ours)
              exact congrArg Watch.mailbox (Option.some.inj ours)
          · rfl
  | @unwatch watch foreign =>
      refine sameWatches_of_sublist (fun other place => ?_) (Nat.le_refl _) (.refl _)
      rw [Store.unwatch, SortedMap.get?_erase]
      split
      · next same =>
          subst same
          exact iff_of_false (by simp) (foreign place)
      · rfl
  | «open» => exact sameWatches_of_sublist (fun _ _ => .rfl) (Nat.le_refl _) (.refl _)
  | listen other =>
      refine sameWatches_of_told rfl rfl rfl fun notice member => ?_
      rw [List.mem_singleton.1 member]
      trivial
  | @close other apart =>
      refine sameWatches_of_sublist (fun watch place => ?_) (Nat.le_refl _) ?_
      · have stays : (mailbox != other) = true := by simpa using apart.symm
        rw [closeMailbox, SortedMap.get?_filter, Option.filter_eq_some_iff]
        exact and_iff_left stays
      · exact List.filter_sublist.filterMap _
  | take taken apart =>
      unfold takeNotice at taken
      split at taken
      · cases taken
        exact sameWatches_of_sublist (fun _ _ => .rfl) (Nat.le_refl _) (List.eraseP_sublist.filterMap _)
      · cases taken

end SameWatches

end Store

namespace Synced

variable {s t u : Synced} {owner narrowed query : Endpoint} {path : String}

/-- The watched paths, the queries and the watches are the same, and so is what is cached for others. -/
structure SameWatching (s t : Synced) : Prop where
  root : t.sync.root = s.sync.root
  mailbox : t.sync.mailbox = s.sync.mailbox
  watched : t.sync.watched = s.sync.watched
  subscribed : t.sync.registry.subscribed = s.sync.registry.subscribed
  pending : t.sync.backlog.subscribed = s.sync.backlog.subscribed
  cached : ∀ query, query ∉ s.sync.registry.queries →
    t.sync.registry.notified.get? query = s.sync.registry.notified.get? query
  store : Store.SameWatches s.sync.mailbox s.store t.store

/-- Paths have been watched for an owner, and the local registry has been notified. -/
inductive WatchedFor (owner : Endpoint) (s : Synced) : Synced → Prop where
  | begun : WatchedFor owner s s
  | path {t : Synced} (before : WatchedFor owner s t) (path : String) (narrowed : Endpoint) :
      WatchedFor owner s (t.watchPath path owner narrowed).2
  | notify {t : Synced} (before : WatchedFor owner s t) (updates : List Endpoint) :
      WatchedFor owner s (t.notify updates)

section SameWatching

theorem SameWatching.refl : SameWatching s s := ⟨rfl, rfl, rfl, rfl, rfl, fun _ _ => rfl, .refl⟩

theorem SameWatching.trans (first : SameWatching s t) (second : SameWatching t u) : SameWatching s u where
  root := second.root.trans first.root
  mailbox := second.mailbox.trans first.mailbox
  watched := second.watched.trans first.watched
  subscribed := second.subscribed.trans first.subscribed
  pending := second.pending.trans first.pending
  cached query absent := by
    refine (second.cached query ?_).trans (first.cached query absent)
    rwa [Registry.queries, first.subscribed]
  store := first.store.trans (first.mailbox ▸ second.store)

theorem sameWatching_of_store {store : Store} (same : Store.SameWatches s.sync.mailbox s.store store) :
    SameWatching s { s with store } :=
  ⟨rfl, rfl, rfl, rfl, rfl, fun _ _ => rfl, same⟩

theorem sameWatching_notify (s : Synced) (updates : List Endpoint) : SameWatching s (s.notify updates) := by
  refine ⟨rfl, rfl, rfl, rfl, rfl, fun query absent => ?_, .refl⟩
  exact (Registry.get?_notified_notify ..).trans (if_neg fun both => absent both.1)

theorem sameWatching_writeNode (s : Synced) (e : Endpoint) : SameWatching s (s.writeNode e).2 := by
  rcases s.ensureNode_cases (nodePath s.sync.root e) e.isDynamic with
    ⟨_, error, failed⟩ | ⟨_, _, done⟩ | ⟨_, _, done⟩
  · rw [writeNode, failed]
    exact .refl
  · rw [writeNode, done]
    exact .refl
  · rw [writeNode, done]
    exact sameWatching_of_store (Store.sameWatches_planted ..)

theorem sameWatching_removeNode (s : Synced) (e : Endpoint) : SameWatching s (s.removeNode e).2 := by
  rcases s.removeNode_cases e with ⟨_, error, failed⟩ | ⟨_, done⟩ | ⟨_, _, done⟩
  · rw [failed]
    exact .refl
  · rw [done]
    exact .refl
  · rw [done]
    exact sameWatching_of_store (Store.sameWatches_pruned ..)

theorem nodeSteps_sameWatching : NodeSteps SameWatching where
  refl _ := .refl
  trans := .trans
  write := sameWatching_writeNode
  remove := sameWatching_removeNode
  enlist _ _ := ⟨rfl, rfl, rfl, rfl, rfl, fun _ _ => rfl, .refl⟩
  delist _ _ := ⟨rfl, rfl, rfl, rfl, rfl, fun _ _ => rfl, .refl⟩
  shelve _ _ same := ⟨rfl, rfl, rfl, rfl, same, fun _ _ => rfl, .refl⟩

end SameWatching

section WatchedFor

theorem WatchedFor.trans (first : WatchedFor owner s t) (second : WatchedFor owner t u) :
    WatchedFor owner s u := by
  induction second with
  | begun => exact first
  | path before path narrowed ih => exact ih.path path narrowed
  | notify before updates ih => exact ih.notify updates

theorem watchSteps_watchedFor (owner : Endpoint) : WatchSteps (· = owner) (WatchedFor owner) where
  refl _ := .begun
  trans := .trans
  watchRoot s query fit := fit ▸ .path .begun s.sync.root query
  watchCategory _ _ _ _ fit _ := fit ▸ .path .begun _ _
  notify _ updates := .notify .begun updates

theorem watchedFor_watchQuery (s : Synced) (query : Endpoint) : WatchedFor query s (s.watchQuery query).2 :=
  (watchSteps_watchedFor query).watchQuery rfl s

theorem sync_watchPath (s : Synced) (path : String) (owner narrowed : Endpoint) :
    ∃ watched, (s.watchPath path owner narrowed).2.sync = { s.sync with watched } := by
  rcases s.watchPath_cases path owner narrowed with ⟨_, error, failed⟩ | ⟨_, watch, _, done⟩ | ⟨_, _, done⟩
  · exact ⟨_, by rw [failed]⟩
  · exact ⟨_, by rw [done]; rfl⟩
  · exact ⟨_, by rw [done]; rfl⟩

/-- Only the watched paths and what is cached change. -/
theorem WatchedFor.sync_eq (watched : WatchedFor owner s t) :
    ∃ watched notified, t.sync = { s.sync with watched, registry := { s.sync.registry with notified } } := by
  induction watched with
  | begun => exact ⟨_, _, rfl⟩
  | path before path narrowed ih =>
      obtain ⟨watched, notified, same⟩ := ih
      obtain ⟨watched', same'⟩ := sync_watchPath _ path owner narrowed
      exact ⟨watched', notified, by rw [same', same]⟩
  | @notify t before updates ih =>
      obtain ⟨watched, notified, same⟩ := ih
      have told : ∃ notified, (t.notify updates).sync =
          { t.sync with registry := { t.sync.registry with notified } } := ⟨_, rfl⟩
      obtain ⟨notified', same'⟩ := told
      exact ⟨watched, notified', by rw [same', same]⟩

theorem WatchedFor.subscribed_eq (watched : WatchedFor owner s t) :
    t.sync.registry.subscribed = s.sync.registry.subscribed := by
  obtain ⟨watched, notified, same⟩ := watched.sync_eq
  rw [same]

theorem WatchedFor.root_eq (watched : WatchedFor owner s t) : t.sync.root = s.sync.root := by
  obtain ⟨watched, notified, same⟩ := watched.sync_eq
  rw [same]

theorem mem_ownersOf_watchPath {other : String} {pair : Endpoint × Endpoint}
    (member : pair ∈ s.ownersOf other) : pair ∈ (s.watchPath path owner narrowed).2.ownersOf other := by
  have stays : ∀ (store : Store) (w : WatchedPath),
      w.owners = (addOwner (s.watchedAt path) owner narrowed).owners →
        pair ∈ ({ s with store }.putWatched path w).ownersOf other := by
    intro store w same
    rw [ownersOf_putWatched]
    split
    · next here =>
        subst here
        exact same ▸ mem_owners_addOwner.2 (.inr member)
    · exact member
  rcases s.watchPath_cases path owner narrowed with ⟨_, error, failed⟩ | ⟨_, watch, _, done⟩ | ⟨_, _, done⟩
  · rwa [failed]
  · rw [done]
    exact stays _ _ rfl
  · rw [done]
    exact stays _ _ rfl

/-- Nobody loses a path. -/
theorem WatchedFor.mem_ownersOf (watched : WatchedFor owner s t) {pair : Endpoint × Endpoint}
    (member : pair ∈ s.ownersOf path) : pair ∈ t.ownersOf path := by
  induction watched with
  | begun => exact member
  | path before path narrowed ih => exact mem_ownersOf_watchPath ih
  | notify before updates ih => exact ih

theorem mem_ownersOf_of_watchPath {names : List String}
    (done : s.watchPath path owner narrowed = (.ok names, t)) : (owner, narrowed) ∈ t.ownersOf path := by
  rcases s.watchPath_cases path owner narrowed with ⟨_, error, failed⟩ | ⟨_, watch, _, same⟩ | ⟨_, _, same⟩
  · rw [failed] at done
    cases done
  all_goals
    rw [same] at done
    cases done
    rw [ownersOf_putWatched, if_pos rfl]
    exact mem_owners_addOwner.2 (.inl rfl)

theorem Reads.watched {categories : List String} {listing : List (String × List String)}
    (reads : Reads owner narrowed categories s listing t) : WatchedFor owner s t := by
  induction reads with
  | done => exact .begun
  | @next s t u category rest names listing first more ih =>
      have here : WatchedFor owner s _ := .path .begun
        (categoryPath s.sync.root narrowed.interface category) narrowed
      rw [first] at here
      exact here.trans ih

theorem Reads.mem_ownersOf {categories : List String} {listing : List (String × List String)}
    (reads : Reads owner narrowed categories s listing t) :
    ∀ category ∈ categories,
      (owner, narrowed) ∈ t.ownersOf (categoryPath s.sync.root narrowed.interface category) := by
  induction reads with
  | done => exact fun _ member => absurd member List.not_mem_nil
  | @next s t u category rest names listing first more ih =>
      intro other member
      rcases List.mem_cons.1 member with rfl | member
      · exact more.watched.mem_ownersOf (mem_ownersOf_of_watchPath first)
      · have later := ih other member
        rwa [(watchPath_eq_ok first).2.2.1] at later

/-- A query for one interface that has been watched has the paths of all its categories. -/
theorem owns_of_watchQuery (done : s.watchQuery query = (.ok (), t))
    (one : query.interface ≠ Endpoint.anyValue) :
    ∀ category ∈ query.expandedCategories,
      (query, query) ∈ t.ownersOf (categoryPath t.sync.root query.interface category) := by
  have root : t.sync.root = s.sync.root := by
    have same := (s.watchedFor_watchQuery query).root_eq
    rwa [done] at same
  rw [watchQuery, if_neg one] at done
  obtain ⟨listing, u, reads, rfl⟩ := watchCategories_eq_ok done
  rw [root]
  exact reads.mem_ownersOf

end WatchedFor

end Synced

end ServiceGovernance
