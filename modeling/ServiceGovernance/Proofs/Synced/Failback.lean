import ServiceGovernance.Proofs.Synced.Settling
import ServiceGovernance.Proofs.Synced.Tenure
import ServiceGovernance.Proofs.Text.Percent

/-!
What one retry does to the backlog. While the store is online, it refuses only what is no path: the node
of an endpoint without an interface, and whatever has a category that does not consist of segments. Such
endpoints wait for ever, and so do such queries unless they are for all interfaces. All others that are
registered have their nodes after a retry, and all others that are subscribed have their watches.
-/

namespace ServiceGovernance

open Store.Path

/-- A query with categories that have places below a root. -/
def Endpoint.Trackable (query : Endpoint) : Prop :=
  ∀ category ∈ query.expandedCategories, Absolute ("/" ++ category)

namespace Synced

open SyncedRegistry

variable {s t u : Synced} {Known owed : Endpoint → Prop} {expiring : Prop}
  {query owner narrowed : Endpoint} {path : String} {error : Store.Error}

/-- The paths that a query is to be watched at: those of its categories, or the root if it is for all
interfaces. -/
def pathsOf (root : String) (query : Endpoint) : List String :=
  if query.interface = Endpoint.anyValue then [root]
  else query.expandedCategories.map (categoryPath root query.interface)

/-- The store watches a path for a query as it is put to an interface. -/
def Watches (s : Synced) (query narrowed : Endpoint) (path : String) : Prop :=
  ∃ w watch, s.sync.watched.get? path = some w ∧ (query, narrowed) ∈ w.owners ∧ w.watch = some watch ∧
    s.store.watches.get? watch = some ⟨path, s.sync.mailbox⟩

theorem Booked.watches (booked : Booked owed s) (owns : (query, narrowed) ∈ s.ownersOf path) :
    s.Watches query narrowed path := by
  cases found : s.sync.watched.get? path with
  | none => simp [ownersOf, found] at owns
  | some w =>
      obtain ⟨watch, named, live⟩ := booked.live path w found
      exact ⟨w, watch, found, ownersOf_of_some found ▸ owns, named, live⟩

/-- No query loses its listeners, its paths or its place in the backlog. -/
structure KeepsQueries (s t : Synced) : Prop where
  root : t.sync.root = s.sync.root
  subscribed : t.sync.registry.subscribed = s.sync.registry.subscribed
  owners : ∀ path, ∀ pair ∈ s.ownersOf path, pair ∈ t.ownersOf path
  pending : ∀ query ∈ s.sync.backlog.subscribed.toList, query ∈ t.sync.backlog.subscribed.toList

section KeepsQueries

theorem KeepsQueries.refl : KeepsQueries s s := ⟨rfl, rfl, fun _ _ => id, fun _ => id⟩

theorem KeepsQueries.trans (first : KeepsQueries s t) (second : KeepsQueries t u) : KeepsQueries s u where
  root := second.root.trans first.root
  subscribed := second.subscribed.trans first.subscribed
  owners path pair member := second.owners path pair (first.owners path pair member)
  pending query waits := second.pending query (first.pending query waits)

theorem SameWatching.keepsQueries (same : SameWatching s t) : KeepsQueries s t where
  root := same.root
  subscribed := same.subscribed
  owners path pair member := by rwa [ownersOf_congr same.watched]
  pending query waits := by rwa [same.pending]

theorem WatchedFor.keepsQueries (watched : WatchedFor owner s t) : KeepsQueries s t := by
  refine ⟨watched.root_eq, watched.subscribed_eq, fun _ _ => watched.mem_ownersOf, fun query waits => ?_⟩
  obtain ⟨paths, notified, same⟩ := watched.sync_eq
  rwa [same]

theorem querySteps_keepsQueries : QuerySteps (fun _ => True) KeepsQueries where
  refl _ := .refl
  trans := .trans
  watchRoot _ query _ := (WatchedFor.path .begun _ query).keepsQueries
  watchCategory _ _ narrowed _ _ _ := (WatchedFor.path .begun _ narrowed).keepsQueries
  notify s updates := (sameWatching_notify s updates).keepsQueries
  wait _ _ := ⟨rfl, rfl, fun _ _ => id, fun _ waits => SortedSet.mem_toList_add.2 (.inr waits)⟩

theorem nodeSteps_keepsQueries : NodeSteps KeepsQueries where
  refl _ := .refl
  trans := .trans
  write s e := (nodeSteps_sameWatching.write s e).keepsQueries
  remove s e := (nodeSteps_sameWatching.remove s e).keepsQueries
  enlist s e := (nodeSteps_sameWatching.enlist s e).keepsQueries
  delist s e := (nodeSteps_sameWatching.delist s e).keepsQueries
  shelve s backlog same := (nodeSteps_sameWatching.shelve s backlog same).keepsQueries

end KeepsQueries

section Tracked

/-- Queries that somebody listens to name an interface, and have their paths or wait for them, but for
those that are owed them. -/
structure Tracked (owed : Endpoint → Prop) (s : Synced) : Prop where
  named : ∀ query, s.sync.registry.hasListeners query = true → query.interface ≠ ""
  owns : ∀ query, s.sync.registry.hasListeners query = true → ¬ owed query →
    query ∉ s.sync.backlog.subscribed.toList → ∀ path ∈ pathsOf s.sync.root query,
      (query, query) ∈ s.ownersOf path

theorem Tracked.congr (tracked : Tracked owed s) (keeps : KeepsQueries s t) : Tracked owed t where
  named query heard := tracked.named query (hasListeners_congr keeps.subscribed query ▸ heard)
  owns query heard settled waits path listed := by
    rw [hasListeners_congr keeps.subscribed] at heard
    rw [keeps.root] at listed
    exact keeps.owners _ _
      (tracked.owns query heard settled (fun member => waits (keeps.pending query member)) path listed)

theorem owns_pathsOf (done : s.watchQuery query = (.ok (), t)) :
    ∀ path ∈ pathsOf t.sync.root query, (query, query) ∈ t.ownersOf path := by
  intro path listed
  unfold pathsOf at listed
  split at listed
  · next all =>
      have root := (s.watchedFor_watchQuery query).root_eq
      rw [done] at root
      rw [List.mem_singleton.1 listed, root]
      rw [watchQuery, if_pos all] at done
      split at done
      · cases done
      · next names u first =>
          have later := (watchSteps_watchedFor query).watchInterfaces rfl names u
          rw [done] at later
          exact later.mem_ownersOf (mem_ownersOf_of_watchPath first)
  · next one =>
      obtain ⟨category, expanded, rfl⟩ := List.mem_map.1 listed
      exact owns_of_watchQuery done one category expanded

/-- A query that has been watched, or else waits for a retry, is owed nothing. -/
theorem Tracked.recoverQuery (tracked : Tracked owed s) (query : Endpoint) :
    Tracked (fun other => owed other ∧ other ≠ query) (s.recoverQuery query) := by
  have keeps : KeepsQueries s (s.recoverQuery query) := querySteps_keepsQueries.recoverQuery trivial s
  have recovered := tracked.congr keeps
  refine ⟨recovered.named, fun other heard settled waits => ?_⟩
  by_cases here : other = query
  · subst here
    rcases s.recoverQuery_cases other with done | ⟨error, t, _, waiting⟩
    · exact owns_pathsOf done
    · rw [waiting] at waits
      exact absurd (SortedSet.mem_toList_add.2 (.inl rfl)) waits
  · exact recovered.owns other heard (fun owing => settled ⟨owing, here⟩) waits

theorem Tracked.attend (tracked : Tracked (fun _ => False) s) (query : Endpoint) (listener : Listener) :
    Tracked (fun _ => False) (s.attend query listener) := by
  rcases s.attend_cases query listener with same | ⟨named, listening⟩
  · rwa [same]
  · have listed : Tracked (· = query) (s.withListener query listener) := {
      named := fun other heard => (Registry.hasListeners_addListener.1 heard).elim (· ▸ named)
        (tracked.named other)
      owns := fun other heard settled => tracked.owns other
        ((Registry.hasListeners_addListener.1 heard).resolve_left settled) id }
    have recovered := listed.recoverQuery query
    rw [listening]
    exact ⟨recovered.named, fun other heard _ => recovered.owns other heard fun owing => owing.2 owing.1⟩

theorem Tracked.unsubscribe (tracked : Tracked owed s) (query : Endpoint) (listener : Listener) :
    Tracked owed (s.unsubscribe query listener) := by
  have before : ∀ other, (s.sync.registry.unsubscribe query listener).hasListeners other = true →
      s.sync.registry.hasListeners other = true := by
    intro other heard
    rw [Registry.hasListeners_iff, Registry.listeners_unsubscribe] at heard
    rw [Registry.hasListeners_iff]
    split at heard
    · next same =>
        subst same
        exact fun none_there => heard (by rw [none_there]; rfl)
    · exact heard
  unfold Synced.unsubscribe
  dsimp only
  split
  · exact ⟨fun other heard => tracked.named other (before other heard),
      fun other heard => tracked.owns other (before other heard)⟩
  · next silent =>
      refine ⟨fun other heard => tracked.named other (before other heard),
        fun other heard settled waits path listed => ?_⟩
      have apart : other ≠ query := fun same => silent (same ▸ heard)
      refine mem_ownersOf_dropWatches.2 ⟨?_, apart⟩
      exact tracked.owns other (before other heard) settled
        (fun member => waits (SortedSet.mem_toList_erase.2 ⟨apart, member⟩)) path listed

theorem Tracked.dropPending (tracked : Tracked owed s)
    (owns : s.sync.registry.hasListeners query = true → ∀ path ∈ pathsOf s.sync.root query,
      (query, query) ∈ s.ownersOf path) : Tracked owed (s.dropPending query) := by
  refine ⟨tracked.named, fun other heard settled waits => ?_⟩
  by_cases here : other = query
  · subst here
    exact owns heard
  · exact tracked.owns other heard settled fun member => waits (SortedSet.mem_toList_erase.2 ⟨here, member⟩)

theorem Tracked.retrySubscribe (tracked : Tracked owed s) (query : Endpoint) :
    Tracked owed (s.retrySubscribe query) := by
  have watched := tracked.congr (s.watchedFor_watchQuery query).keepsQueries
  rcases s.retrySubscribe_cases query with ⟨_, t, done, tried⟩ | ⟨_, error, failed⟩ | ⟨silent, tried⟩
  · rw [done] at watched
    rw [tried]
    exact watched.dropPending fun _ => owns_pathsOf done
  · rwa [failed] at watched
  · rw [tried]
    exact tracked.dropPending fun heard => absurd heard silent

theorem Tracked.foldl_retrySubscribe (tracked : Tracked owed s) (items : List Endpoint) :
    Tracked owed (items.foldl Synced.retrySubscribe s) := by
  induction items generalizing s with
  | nil => exact tracked
  | cons query items ih => exact ih (tracked.retrySubscribe query)

theorem Tracked.after (tracked : Tracked (fun _ => False) s) (event : Event) :
    Tracked (fun _ => False) (s.after event) := by
  cases event with
  | register e => exact tracked.congr (nodeSteps_keepsQueries.register s e)
  | unregister e => exact tracked.congr (nodeSteps_keepsQueries.unregister s e)
  | publish interface rule => exact tracked.congr (nodeSteps_keepsQueries.register s _)
  | subscribe query listener => exact tracked.attend query listener
  | unsubscribe query listener => exact tracked.unsubscribe query listener
  | retry => exact (tracked.congr (nodeSteps_keepsQueries.retryNodes s)).foldl_retrySubscribe _
  | handle aboutSession =>
      exact tracked.congr (querySteps_keepsQueries.handleNext nodeSteps_keepsQueries
        (fun _ _ _ _ _ => ⟨rfl, rfl, fun _ _ => id, fun _ => id⟩) s aboutSession)
  | setOnline online => exact tracked.congr ⟨rfl, rfl, fun _ _ => id, fun _ => id⟩
  | expire => exact tracked.congr ⟨rfl, rfl, fun _ _ => id, fun _ => id⟩
  | elsewhere store => exact tracked.congr ⟨rfl, rfl, fun _ _ => id, fun _ => id⟩

theorem Course.tracked (course : Course s) : Tracked (fun _ => False) s := by
  induction course with
  | start => exact ⟨fun _ heard => (nomatch heard), fun _ heard => (nomatch heard)⟩
  | step before event abroad ih => exact ih.after event

end Tracked

section Refusal

/-- With the store online, only what is no path cannot be watched. -/
theorem isValid_of_watchPath_error (online : s.store.online = true)
    (failed : s.watchPath path owner narrowed = (.error error, t)) : isValid path = false := by
  rcases s.watchPath_cases path owner narrowed with ⟨refused, _⟩ | ⟨_, watch, _, done⟩ | ⟨_, _, done⟩
  · exact refused.resolve_right (by simp [online])
  · rw [done] at failed
    cases failed
  · rw [done] at failed
    cases failed

theorem readCategories_error {categories : List String} {updates : List Endpoint}
    (online : s.store.online = true)
    (failed : readCategories owner narrowed categories updates s = (.error error, t)) :
    ∃ category ∈ categories, isValid (categoryPath s.sync.root narrowed.interface category) = false := by
  induction categories generalizing updates s with
  | nil => cases failed
  | cons category categories ih =>
      unfold readCategories at failed
      split at failed
      · next first => exact ⟨category, List.mem_cons_self, isValid_of_watchPath_error online first⟩
      · next names u first =>
          have same := sameRegistrations_watchPath_any s (categoryPath s.sync.root narrowed.interface category)
            owner narrowed
          rw [first] at same
          obtain ⟨other, member, invalid⟩ := ih (same.session.online.trans online) failed
          exact ⟨other, List.mem_cons_of_mem _ member, same.root ▸ invalid⟩

theorem watchCategories_error (online : s.store.online = true)
    (failed : s.watchCategories owner narrowed = (.error error, t)) :
    ∃ category ∈ narrowed.expandedCategories,
      isValid (categoryPath s.sync.root narrowed.interface category) = false := by
  unfold watchCategories at failed
  split at failed
  · next read => exact readCategories_error online read
  · cases failed

theorem watchInterfaces_error {names : List String} (online : s.store.online = true)
    (failed : watchInterfaces query names s = (.error error, t)) :
    ∃ name ∈ names, ∃ interface, Text.Percent.decode name = .ok interface ∧
      ∃ category ∈ query.expandedCategories,
        isValid (categoryPath s.sync.root interface category) = false := by
  induction names generalizing s with
  | nil => cases failed
  | cons name names ih =>
      unfold watchInterfaces at failed
      split at failed
      · obtain ⟨other, member, rest⟩ := ih online failed
        exact ⟨other, List.mem_cons_of_mem _ member, rest⟩
      · next interface read =>
          split at failed
          · next first =>
              have refused := watchCategories_error online first
              rw [expandedCategories_scopeTo, scopeTo, Endpoint.interface_withParam_interface] at refused
              exact ⟨name, List.mem_cons_self, interface, read, refused⟩
          · next u first =>
              have same : SameRegistrations False s (s.watchCategories query (scopeTo query interface)).2 :=
                listenerSteps_sameRegistrations.watchCategories (fun flat => flat.elim)
                  (expandedCategories_scopeTo query interface) s
              rw [first] at same
              obtain ⟨other, member, read, refused⟩ := ih (same.session.online.trans online) failed
              rw [same.root] at refused
              exact ⟨other, List.mem_cons_of_mem _ member, read, refused⟩

/-- The children of a path have names. -/
theorem ne_empty_of_mem_children {store : Store} {name : String} (member : name ∈ store.children path) :
    name ≠ "" := by
  obtain ⟨key, _, child⟩ := List.mem_filterMap.1 member
  exact (childName?_eq_some_iff_lead.1 child).2.1

theorem untrackable_of_watchQuery_error (absolute : Absolute s.sync.root) (online : s.store.online = true)
    (named : query.interface ≠ "") (failed : s.watchQuery query = (.error error, t)) :
    ¬ query.Trackable := by
  intro trackable
  have valid : ∀ interface category, interface ≠ "" → category ∈ query.expandedCategories →
      isValid (categoryPath s.sync.root interface category) = true := fun interface category filled listed =>
    (isValid_categoryPath_iff absolute).2 ⟨filled, trackable category listed⟩
  unfold watchQuery at failed
  split at failed
  · split at failed
    · next first =>
        have invalid := isValid_of_watchPath_error online first
        rw [absolute.isValid] at invalid
        cases invalid
    · next names u first =>
        have same := sameRegistrations_watchPath_any s s.sync.root query query
        rw [first] at same
        obtain ⟨name, member, interface, read, category, listed, invalid⟩ :=
          watchInterfaces_error (same.session.online.trans online) failed
        -- The names of children are not empty, and so are not the interfaces that they stand for.
        have filled : interface ≠ "" := by
          rintro rfl
          rw [(watchPath_eq_ok first).1] at member
          exact ne_empty_of_mem_children member (Text.Percent.eq_empty_of_decode read)
        rw [same.root, valid interface category filled listed] at invalid
        cases invalid
  · obtain ⟨category, listed, invalid⟩ := watchCategories_error online failed
    rw [valid _ category named listed] at invalid
    cases invalid

end Refusal

section Interfaces

variable {interface category : String}

/-- Of the interfaces that are listed, a query that wants all of them has got the paths. -/
theorem owns_of_watchInterfaces {names : List String} (done : watchInterfaces query names s = (.ok (), t))
    (member : Text.Percent.encode interface ∈ names) (listed : category ∈ query.expandedCategories) :
    (query, scopeTo query interface) ∈ t.ownersOf (categoryPath s.sync.root interface category) := by
  induction names generalizing s with
  | nil => exact absurd member List.not_mem_nil
  | cons name names ih =>
      unfold watchInterfaces at done
      split at done
      · next read =>
          refine ih done ((List.mem_cons.1 member).resolve_left fun same => ?_)
          rw [← same, Text.Percent.decode_encode] at read
          cases read
      · next other read =>
          split at done
          · cases done
          · next u first =>
              rcases List.mem_cons.1 member with same | member
              · rw [← same, Text.Percent.decode_encode] at read
                cases read
                obtain ⟨listing, v, reads, rfl⟩ := watchCategories_eq_ok first
                have same_interface : (scopeTo query interface).interface = interface :=
                  Endpoint.interface_withParam_interface query interface
                have owns := reads.mem_ownersOf category (by rwa [expandedCategories_scopeTo])
                rw [same_interface] at owns
                have later := (watchSteps_watchedFor query).watchInterfaces rfl names
                  (v.notify (decodeListing (scopeTo query interface) listing))
                rw [done] at later
                exact later.mem_ownersOf owns
              · have watched := (watchSteps_watchedFor query).watchCategories rfl
                  (expandedCategories_scopeTo query other) s
                have root := watched.root_eq
                rw [first] at root
                exact root ▸ ih done member

theorem owns_interface_of_watchQuery (absolute : Absolute s.sync.root) (done : s.watchQuery query = (.ok (), t))
    (all : query.interface = Endpoint.anyValue) (named : interface ≠ "")
    (there : s.store.isNode (interfacePath s.sync.root interface) = true)
    (listed : category ∈ query.expandedCategories) :
    (query, scopeTo query interface) ∈ t.ownersOf (categoryPath s.sync.root interface category) := by
  rw [watchQuery, if_pos all] at done
  split at done
  · cases done
  · next names u first =>
      obtain ⟨rfl, nodes, root, _⟩ := watchPath_eq_ok first
      have same := sameRegistrations_watchPath_any s s.sync.root query query
      rw [first] at same
      have stands := same.nodes _ there
      refine root ▸ owns_of_watchInterfaces done ?_ listed
      rw [← children_congr_nodes nodes]
      exact (mem_children_root_iff absolute.ne_root named).2 stands

end Interfaces

section Retry

variable {interface category : String}

/-- Apart from the backlog, trying again is at most watching. -/
theorem watchedFor_retrySubscribe (s : Synced) (query : Endpoint) : ∃ t, WatchedFor query s t ∧
    (s.retrySubscribe query = t ∨ s.retrySubscribe query = t.dropPending query) := by
  have watched := s.watchedFor_watchQuery query
  rcases s.retrySubscribe_cases query with ⟨_, t, done, tried⟩ | ⟨_, error, failed⟩ | ⟨_, tried⟩
  · rw [done] at watched
    exact ⟨t, watched, .inr tried⟩
  · rw [failed] at watched
    exact ⟨_, watched, .inl rfl⟩
  · exact ⟨s, .begun, .inr tried⟩

theorem subscribed_retrySubscribe (s : Synced) (query : Endpoint) :
    (s.retrySubscribe query).sync.registry.subscribed = s.sync.registry.subscribed := by
  obtain ⟨t, watched, tried | tried⟩ := s.watchedFor_retrySubscribe query
  all_goals
    rw [tried]
    exact watched.subscribed_eq

theorem mem_ownersOf_retrySubscribe {pair : Endpoint × Endpoint} (member : pair ∈ s.ownersOf path) :
    pair ∈ (s.retrySubscribe query).ownersOf path := by
  obtain ⟨t, watched, tried | tried⟩ := s.watchedFor_retrySubscribe query
  all_goals
    rw [tried]
    exact watched.mem_ownersOf member

theorem mem_ownersOf_foldl_retrySubscribe {pair : Endpoint × Endpoint} {items : List Endpoint}
    (member : pair ∈ s.ownersOf path) : pair ∈ (items.foldl retrySubscribe s).ownersOf path := by
  induction items generalizing s with
  | nil => exact member
  | cons query items ih => exact ih (mem_ownersOf_retrySubscribe member)

/-- With the store online, a query that is tried again waits no more, unless it has no place. -/
theorem Tracked.pending_retrySubscribe (tracked : Tracked owed s) (absolute : Absolute s.sync.root)
    (online : s.store.online = true) :
    ∀ other ∈ (s.retrySubscribe query).sync.backlog.subscribed.toList,
      other ∈ s.sync.backlog.subscribed.toList ∧ (other = query → ¬ other.Trackable) := by
  intro other waits
  obtain ⟨watched, notified, same⟩ := (s.watchedFor_watchQuery query).sync_eq
  rcases s.retrySubscribe_cases query with ⟨_, t, done, tried⟩ | ⟨heard, error, failed⟩ | ⟨_, tried⟩
  · rw [done] at same
    dsimp only at same
    rw [tried] at waits
    obtain ⟨apart, before⟩ := SortedSet.mem_toList_erase.1 waits
    rw [same] at before
    exact ⟨before, fun here => absurd here apart⟩
  · rw [failed] at same
    dsimp only at same
    rw [same] at waits
    exact ⟨waits, fun here => here ▸
      untrackable_of_watchQuery_error absolute online (tracked.named query heard) failed⟩
  · rw [tried] at waits
    obtain ⟨apart, before⟩ := SortedSet.mem_toList_erase.1 waits
    exact ⟨before, fun here => absurd here apart⟩

theorem Tracked.pending_foldl_retrySubscribe (tracked : Tracked owed s) (absolute : Absolute s.sync.root)
    (online : s.store.online = true) (items : List Endpoint) :
    ∀ query ∈ (items.foldl Synced.retrySubscribe s).sync.backlog.subscribed.toList,
      query ∈ s.sync.backlog.subscribed.toList ∧ (query ∈ items → ¬ query.Trackable) := by
  induction items generalizing s with
  | nil => exact fun query waits => ⟨waits, fun member => absurd member List.not_mem_nil⟩
  | cons first items ih =>
      intro query waits
      have same : SameRegistrations False s _ := sameRegistrations_retrySubscribe nofun first
      obtain ⟨left, later⟩ := ih (tracked.retrySubscribe first) (same.root ▸ absolute)
        (same.session.online.trans online) query waits
      obtain ⟨before, here⟩ := tracked.pending_retrySubscribe absolute online query left
      exact ⟨before, fun member => (List.mem_cons.1 member).elim here later⟩

/-- A query for all interfaces that is tried again gets the paths of those that are there. -/
theorem Tracked.owns_foldl_retrySubscribe (tracked : Tracked owed s) (absolute : Absolute s.sync.root)
    (online : s.store.online = true) {items : List Endpoint} (member : query ∈ items)
    (heard : s.sync.registry.hasListeners query = true) (all : query.interface = Endpoint.anyValue)
    (trackable : query.Trackable) (named : interface ≠ "")
    (there : s.store.isNode (interfacePath s.sync.root interface) = true)
    (listed : category ∈ query.expandedCategories) :
    (query, scopeTo query interface) ∈
      (items.foldl Synced.retrySubscribe s).ownersOf (categoryPath s.sync.root interface category) := by
  induction items generalizing s with
  | nil => exact absurd member List.not_mem_nil
  | cons first items ih =>
      -- At its turn the query gets the paths, and no later turn takes one away.
      rcases List.mem_cons.1 member with rfl | member
      · have here : (query, scopeTo query interface) ∈
            (s.retrySubscribe query).ownersOf (categoryPath s.sync.root interface category) := by
          rcases s.retrySubscribe_cases query with ⟨_, t, done, tried⟩ | ⟨_, error, failed⟩ | ⟨silent, _⟩
          · have owns := owns_interface_of_watchQuery absolute done all named there listed
            rw [tried]
            exact owns
          · exact absurd trackable
              (untrackable_of_watchQuery_error absolute online (tracked.named query heard) failed)
          · exact absurd heard silent
        rw [List.foldl_cons]
        exact mem_ownersOf_foldl_retrySubscribe here
      · have same : SameRegistrations False s _ := sameRegistrations_retrySubscribe nofun first
        have later := ih (tracked.retrySubscribe first) (same.root ▸ absolute)
          (same.session.online.trans online) member
          ((hasListeners_congr (s.subscribed_retrySubscribe first) query).trans heard)
          (same.root ▸ same.nodes _ there)
        exact same.root ▸ later

/-- A query that has all its paths has a place. -/
theorem Tracked.trackable (tracked : Tracked owed s) (reached : Reached s)
    (absolute : Absolute s.sync.root) (heard : s.sync.registry.hasListeners query = true)
    (settled : ¬ owed query) (done : query ∉ s.sync.backlog.subscribed.toList)
    (one : query.interface ≠ Endpoint.anyValue) : query.Trackable := by
  intro category listed
  have named : categoryPath s.sync.root query.interface category ∈ pathsOf s.sync.root query := by
    rw [pathsOf, if_neg one]
    exact List.mem_map.2 ⟨category, listed, rfl⟩
  have valid := (reached.scoped _ _ (tracked.owns query heard settled done _ named)).1
  exact ((isValid_categoryPath_iff absolute).1 valid).2

end Retry

section Failback

/-- Of the endpoints those wait that have no place, and no removal waits. -/
theorem Tenure.retry_nodes (tenure : Tenure Known expiring s) (online : s.store.online = true) :
    (∀ e, e ∈ s.retry.sync.backlog.registered.toList ↔
      e ∈ s.sync.registry.registered.toList ∧ ¬ e.Placeable) ∧
    (∀ e, e ∉ s.retry.sync.backlog.unregistered.toList) ∧
    (Unnested Known s.sync.root → (expiring → s.Returned) → ∀ e ∈ s.sync.registry.registered.toList,
      (s.retry.store.isNode (nodePath s.sync.root e) = true ↔ e.Placeable)) := by
  obtain ⟨holds, shrinks, left⟩ := tenure.nodesOrBacklog.retry
  obtain ⟨unplaced, none_removed⟩ := left online
  refine ⟨fun e => ⟨fun waits => ⟨?_, unplaced e waits⟩, fun ⟨member, no_place⟩ => ?_⟩, none_removed,
    fun unnested quiet e member => ⟨fun there => ?_, fun placeable => ?_⟩⟩
  · exact shrinks.registered ▸ holds.failed e waits
  · exact (holds.settled e (shrinks.registered.symm ▸ member) id).resolve_right fun placed =>
      no_place placed.1
  · exact holds.placeable (shrinks.root.symm ▸ there)
  · rw [← shrinks.root] at unnested ⊢
    have returned : expiring → s.retry.Returned := fun lost queued => by
      rw [shrinks.mailbox] at queued
      exact quiet lost ((shrinks.session.sessions _ _).1 queued)
    obtain waits | ⟨_, there⟩ := holds.settled e (shrinks.registered.symm ▸ member) id
    · exact absurd placeable (unplaced e waits)
    · exact there unnested returned

/-- Of the queries none waits that has a place. -/
theorem Tenure.retry_waiting (tenure : Tenure Known expiring s) (online : s.store.online = true) :
    ∀ query ∈ s.retry.sync.backlog.subscribed.toList,
      query ∈ s.sync.registry.queries ∧ ¬ query.Trackable := by
  have same := nodeSteps_sameWatching.retryNodes s
  obtain ⟨holds, shrinks, _⟩ := tenure.nodesOrBacklog.retryNodes
  intro query waits
  obtain ⟨before, untrackable⟩ := (tenure.course.tracked.congr same.keepsQueries).pending_foldl_retrySubscribe
    holds.root (shrinks.session.online.trans online) _ query waits
  rw [same.pending] at before
  exact ⟨mem_queries_of_hasListeners (tenure.course.bookedInOrder.pending query before), untrackable before⟩

/-- A query that does not wait has its watches. -/
theorem Tenure.retry_watches (tenure : Tenure Known expiring s)
    (subscribed : query ∈ s.sync.registry.queries) (done : query ∉ s.retry.sync.backlog.subscribed.toList) :
    (query.interface ≠ Endpoint.anyValue → query.Trackable) ∧
      ∀ path ∈ pathsOf s.sync.root query, s.retry.Watches query query path := by
  obtain ⟨books, same⟩ := tenure.course.bookedInOrder.retry
  obtain ⟨holds, shrinks, _⟩ := tenure.nodesOrBacklog.retry
  have tracked := tenure.retry.course.tracked
  have heard := (hasListeners_congr same query).trans (tenure.course.bookedInOrder.attended query subscribed)
  refine ⟨tracked.trackable tenure.retry.course.reached holds.root heard id done, fun path listed => ?_⟩
  exact books.toBooked.watches (tracked.owns query heard id done path (shrinks.root.symm ▸ listed))

theorem Tenure.retry_interfaces {interface category : String} (tenure : Tenure Known expiring s)
    (online : s.store.online = true) (waits : query ∈ s.sync.backlog.subscribed.toList)
    (all : query.interface = Endpoint.anyValue) (trackable : query.Trackable) (named : interface ≠ "")
    (there : s.store.isNode (interfacePath s.sync.root interface) = true)
    (listed : category ∈ query.expandedCategories) :
    s.retry.Watches query (scopeTo query interface) (categoryPath s.sync.root interface category) := by
  have same := nodeSteps_sameWatching.retryNodes s
  obtain ⟨holds, shrinks, _⟩ := tenure.nodesOrBacklog.retryNodes
  have heard :=
    (hasListeners_congr same.subscribed query).trans (tenure.course.bookedInOrder.pending query waits)
  have short : slashes (interfacePath s.sync.root interface) < slashes s.sync.root + 3 := by
    rw [slashes_interfacePath]
    omega
  have stands := shrinks.directories _ short there
  rw [← shrinks.root] at stands ⊢
  exact tenure.course.bookedInOrder.retry.1.toBooked.watches
    ((tenure.course.tracked.congr same.keepsQueries).owns_foldl_retrySubscribe holds.root
      (shrinks.session.online.trans online) waits heard all trackable named stands listed)

/-- If the store is online, one retry leaves nothing in the backlog but what has no place below the root.
What is registered and has a place has its node, where no node goes with another one, and once it is known
that a lost session is back; what is subscribed and has places is watched, and a query for all interfaces
that has waited is watched at those that are there. What has no place waits on. -/
theorem Tenure.retry_drains (tenure : Tenure Known expiring s) (online : s.store.online = true) :
    ((∀ e ∈ s.sync.registry.registered.toList, e.Placeable) →
      (∀ query ∈ s.sync.registry.queries, query.Trackable) → s.retry.pending = 0) ∧
    (∀ e, e ∈ s.retry.sync.backlog.registered.toList ↔
      e ∈ s.sync.registry.registered.toList ∧ ¬ e.Placeable) ∧
    (∀ e, e ∉ s.retry.sync.backlog.unregistered.toList) ∧
    (∀ query ∈ s.retry.sync.backlog.subscribed.toList,
      query ∈ s.sync.registry.queries ∧ ¬ query.Trackable) ∧
    (∀ query ∈ s.sync.registry.queries, query.interface ≠ Endpoint.anyValue → ¬ query.Trackable →
      query ∈ s.retry.sync.backlog.subscribed.toList) ∧
    (Unnested Known s.sync.root → (expiring → s.Returned) → ∀ e ∈ s.sync.registry.registered.toList,
      (s.retry.store.isNode (nodePath s.sync.root e) = true ↔ e.Placeable)) ∧
    (∀ query ∈ s.sync.registry.queries, query ∉ s.retry.sync.backlog.subscribed.toList →
      ∀ path ∈ pathsOf s.sync.root query, s.retry.Watches query query path) ∧
    (∀ query ∈ s.sync.backlog.subscribed.toList, query.interface = Endpoint.anyValue → query.Trackable →
      ∀ interface, interface ≠ "" → s.store.isNode (interfacePath s.sync.root interface) = true →
        ∀ category ∈ query.expandedCategories, s.retry.Watches query (scopeTo query interface)
          (categoryPath s.sync.root interface category)) := by
  obtain ⟨failed, none_removed, nodes⟩ := tenure.retry_nodes online
  have waiting := tenure.retry_waiting online
  refine ⟨fun placeable trackable => ?drained, failed, none_removed, waiting,
    fun query subscribed one untrackable => ?stuck, nodes,
    fun query subscribed done => (tenure.retry_watches subscribed done).2,
    fun query waits all trackable interface named there category listed =>
      tenure.retry_interfaces online waits all trackable named there listed⟩
  case drained =>
    have no_failed : s.retry.sync.backlog.registered.size = 0 := SortedSet.size_eq_zero_iff.2 fun e waits =>
      ((failed e).1 waits).2 (placeable e ((failed e).1 waits).1)
    have no_removed : s.retry.sync.backlog.unregistered.size = 0 := SortedSet.size_eq_zero_iff.2 none_removed
    have no_query : s.retry.sync.backlog.subscribed.size = 0 :=
      SortedSet.size_eq_zero_iff.2 fun query waits =>
        (waiting query waits).2 (trackable query (waiting query waits).1)
    rw [pending, Backlog.size, no_failed, no_removed, no_query]
  case stuck =>
    by_contra done
    exact untrackable ((tenure.retry_watches subscribed done).1 one)

/-- An endpoint and a query from the time of an outage that is over. -/
def returning : Synced :=
  ((((start {} "/r" 5000 5000).after (.setOnline false)).after (.register lone)).after
    (.subscribe consumer 0)).after (.setOnline true)

theorem tenure_returning : Tenure Ordinary False returning := by
  have started : Tenure Ordinary False (start {} "/r" 5000 5000) :=
    tenure_start (@Absolute.top "r" (by decide)) 5000 5000
  exact .step (.step (.step (.step started (.setOnline false) ⟨trivial, trivial⟩) (.register lone)
    ⟨registrable_lone.toOrdinary, trivial⟩) (.subscribe consumer 0) ⟨False.elim, trivial⟩)
    (.setOnline true) ⟨trivial, trivial⟩

theorem returning_drained :
    returning.pending = 2 ∧ returning.retry.pending = 0 ∧
      returning.retry.store.isNode (nodePath "/r" lone) = true ∧
      returning.retry.Watches consumer consumer home := by
  have facts : returning.store.online = true ∧ returning.sync.root = "/r" ∧
      returning.sync.registry.registered.toList = [lone] ∧ returning.sync.registry.queries = [consumer] ∧
      returning.pending = 2 := by
    decide +kernel
  obtain ⟨online, root, registered, queries, waiting⟩ := facts
  have providers : Absolute ("/" ++ "providers") := .top (by decide)
  have placeable : lone.Placeable := ⟨by decide, providers⟩
  have trackable : consumer.Trackable := fun category listed => by
    have only : consumer.expandedCategories = ["providers"] := by decide
    rw [only] at listed
    exact List.mem_singleton.1 listed ▸ providers
  obtain ⟨drained, _, _, waits, _, nodes, watched, _⟩ := tenure_returning.retry_drains online
  rw [root, registered, queries] at *
  have settled : consumer ∉ returning.retry.sync.backlog.subscribed.toList := fun member =>
    (waits consumer member).2 trackable
  refine ⟨waiting, drained (by simpa using placeable) (by simpa using trackable),
    (nodes (unnested_ordinary _) False.elim lone (by simp)).2 placeable,
    watched consumer (by simp) settled home (by decide)⟩

def nameless : Endpoint := { protocol := "p", host := "h", port := 1 }

/-- An endpoint with a category that leads to the node of another one. -/
def nested : Endpoint :=
  { protocol := "a", host := "c", port := 1, path := "i",
    params := .ofList [("category", "providers/a%3A%2F%2Fb%3A1%2Fi")] }

def misplaced : Synced := (start {} "/rpc" 5000 5000).after (.register nameless)

def submerged : Synced :=
  (((start {} "/rpc" 5000 5000).after (.register lone)).after (.register nested)).after (.unregister lone)

/-- One endpoint has no place, and the node of the other one goes with the node that it is below. -/
theorem misplaced_waits_on :
    (Endpoint.parse "p://h:1").toOption = some nameless ∧ misplaced.store.online = true ∧
    nameless ∈ misplaced.sync.registry.registered.toList ∧ misplaced.retry.pending = 1 ∧
    misplaced.retry.store.isNode (nodePath "/rpc" nameless) = false ∧
    (Endpoint.parse "a://c:1/i?category=providers/a%253A%252F%252Fb%253A1%252Fi").toOption = some nested ∧
    submerged.store.online = true ∧ nested ∈ submerged.sync.registry.registered.toList ∧
    submerged.retry.pending = 0 ∧ submerged.retry.store.isNode (nodePath "/rpc" nested) = false := by
  decide +kernel

end Failback

end Synced

end ServiceGovernance
