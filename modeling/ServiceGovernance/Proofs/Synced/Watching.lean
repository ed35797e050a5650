import ServiceGovernance.Proofs.Synced.Layout
import ServiceGovernance.Proofs.Synced.Nodes

/-!
What an operation does to a registry is made of a few steps, so a relation between states that holds of the
steps and can be chained holds of the operation. Watching is to watch paths and to notify the local
registry; subscribing and being told of children is watching, with what fails put into the backlog. The
rest is work on the nodes of endpoints.
-/

namespace ServiceGovernance.Synced

open SyncedRegistry Store.Path

variable {s : Synced} {R : Synced → Synced → Prop} {Fit : Endpoint → Prop}
  {query owner narrowed : Endpoint}

/-- The registry with one more listener, which is told what is known already. -/
def withListener (s : Synced) (query : Endpoint) (listener : Listener) : Synced :=
  { s.withRegistry (s.sync.registry.addListener query listener) with
    deliveries := s.deliveries ++ Registry.deliveriesOf query [listener] (s.sync.registry.cacheOf query) }

/-- A subscription that may be refused, which leaves the registry as it is. -/
def attend (s : Synced) (query : Endpoint) (listener : Listener) : Synced :=
  (s.subscribe query listener).toOption.getD s

theorem attend_cases (s : Synced) (query : Endpoint) (listener : Listener) :
    s.attend query listener = s ∨
    query.interface ≠ "" ∧ s.attend query listener = (s.withListener query listener).recoverQuery query := by
  unfold attend subscribe Registry.subscribe Registry.refusal?
  by_cases unnamed : query.interface = ""
  · exact .inl (by rw [if_pos unnamed]; rfl)
  · exact .inr ⟨unnamed, by rw [if_neg unnamed]; rfl⟩

theorem addInterface_cases (s : Synced) (owner : Endpoint) (name : String) :
    s.addInterface owner name = s ∨ ∃ interface,
      s.watchCategories owner (scopeTo owner interface) = (.ok (), s.addInterface owner name) ∨
      ∃ error t, s.watchCategories owner (scopeTo owner interface) = (.error error, t) ∧
        s.addInterface owner name = t.withBacklog { t.sync.backlog with
          subscribed := t.sync.backlog.subscribed.add owner } := by
  unfold addInterface
  split
  · exact .inl rfl
  · next interface _ =>
      dsimp only
      split
      · exact .inl rfl
      · split
        · next t done => exact .inr ⟨interface, .inl done⟩
        · next error t failed => exact .inr ⟨interface, .inr ⟨error, t, failed, rfl⟩⟩

theorem recoverQuery_cases (s : Synced) (query : Endpoint) :
    s.watchQuery query = (.ok (), s.recoverQuery query) ∨
    ∃ error t, s.watchQuery query = (.error error, t) ∧ s.recoverQuery query =
      t.withBacklog { t.sync.backlog with subscribed := t.sync.backlog.subscribed.add query } := by
  unfold recoverQuery
  split
  · next t done => exact .inl done
  · next error t failed => exact .inr ⟨error, t, failed, rfl⟩

/-- Only a query that somebody listens to is watched again. -/
theorem retrySubscribe_cases (s : Synced) (query : Endpoint) :
    (s.sync.registry.hasListeners query = true ∧ ∃ t, s.watchQuery query = (.ok (), t) ∧
      s.retrySubscribe query = t.dropPending query) ∨
    (s.sync.registry.hasListeners query = true ∧ ∃ error,
      s.watchQuery query = (.error error, s.retrySubscribe query)) ∨
    (s.sync.registry.hasListeners query ≠ true ∧ s.retrySubscribe query = s.dropPending query) := by
  unfold retrySubscribe
  split
  · next heard =>
      split
      · next t done => exact .inl ⟨heard, t, done, rfl⟩
      · next error t failed => exact .inr (.inl ⟨heard, error, failed⟩)
  · next silent => exact .inr (.inr ⟨silent, rfl⟩)

theorem foldl_of_steps {α : Type} (refl : ∀ s, R s s) (trans : ∀ {s t u}, R s t → R t u → R s u)
    {f : Synced → α → Synced} {items : List α} (each : ∀ s, ∀ item ∈ items, R s (f s item)) (s : Synced) :
    R s (items.foldl f s) := by
  induction items generalizing s with
  | nil => exact refl s
  | cons item items ih =>
      exact trans (each s item List.mem_cons_self)
        (ih (fun s item member => each s item (List.mem_cons_of_mem _ member)) _)

/-- The steps of watching, for the queries that fit, are in a relation. -/
structure WatchSteps (Fit : Endpoint → Prop) (R : Synced → Synced → Prop) : Prop where
  refl : ∀ s, R s s
  trans : ∀ {s t u}, R s t → R t u → R s u
  watchRoot : ∀ s {query}, Fit query → R s (s.watchPath s.sync.root query query).2
  watchCategory : ∀ s {query} narrowed {category}, Fit query → category ∈ query.expandedCategories →
    R s (s.watchPath (categoryPath s.sync.root narrowed.interface category) query narrowed).2
  notify : ∀ s updates, R s (s.notify updates)

/-- So is putting a query that fails into the backlog. -/
structure QuerySteps (Fit : Endpoint → Prop) (R : Synced → Synced → Prop) : Prop extends WatchSteps Fit R where
  wait : ∀ (s : Synced) query,
    R s (s.withBacklog { s.sync.backlog with subscribed := s.sync.backlog.subscribed.add query })

/-- So are the coming and going of listeners and what goes with the last one. -/
structure ListenerSteps (Fit : Endpoint → Prop) (R : Synced → Synced → Prop) : Prop
    extends QuerySteps Fit R where
  listen : ∀ (s : Synced) {query} listener, Fit query → R s (s.withListener query listener)
  leave : ∀ (s : Synced) query listener,
    R s (s.withRegistry (s.sync.registry.unsubscribe query listener))
  dropPending : ∀ (s : Synced) query, R s (s.dropPending query)
  dropWatches : ∀ (s : Synced) owner, R s (s.dropWatches owner)

/-- The steps of work on nodes are in a relation. None of them is about the queries in the backlog. -/
structure NodeSteps (R : Synced → Synced → Prop) : Prop where
  refl : ∀ s, R s s
  trans : ∀ {s t u}, R s t → R t u → R s u
  write : ∀ (s : Synced) e, R s (s.writeNode e).2
  remove : ∀ (s : Synced) e, R s (s.removeNode e).2
  enlist : ∀ (s : Synced) e, R s (s.withRegistry (s.sync.registry.register e))
  delist : ∀ (s : Synced) e, R s (s.withRegistry (s.sync.registry.unregister e))
  shelve : ∀ (s : Synced) backlog, backlog.subscribed = s.sync.backlog.subscribed →
    R s (s.withBacklog backlog)

namespace WatchSteps

variable (steps : WatchSteps Fit R)

include steps

theorem readCategories {categories : List String} (fit : Fit query) (narrowed : Endpoint)
    (listed : ∀ category ∈ categories, category ∈ query.expandedCategories)
    (updates : List Endpoint) (s : Synced) :
    R s (readCategories query narrowed categories updates s).2 := by
  induction categories generalizing updates s with
  | nil => exact steps.refl s
  | cons category categories ih =>
      have first := steps.watchCategory s narrowed fit (listed category List.mem_cons_self)
      unfold Synced.readCategories
      split
      · next error t failed => rwa [failed] at first
      · next children t done =>
          rw [done] at first
          exact steps.trans first
            (ih (fun other member => listed other (List.mem_cons_of_mem _ member)) _ _)

theorem watchCategories (fit : Fit query) (same : narrowed.expandedCategories = query.expandedCategories)
    (s : Synced) : R s (s.watchCategories query narrowed).2 := by
  have read := steps.readCategories fit narrowed (fun _ listed => same ▸ listed) [] s
  unfold Synced.watchCategories
  split
  · next error t failed => rwa [failed] at read
  · next updates t done =>
      rw [done] at read
      exact steps.trans read (steps.notify t updates)

theorem watchInterfaces (fit : Fit query) (names : List String) (s : Synced) :
    R s (watchInterfaces query names s).2 := by
  induction names generalizing s with
  | nil => exact steps.refl s
  | cons name names ih =>
      unfold Synced.watchInterfaces
      split
      · exact ih s
      · next interface _ =>
          have first := steps.watchCategories fit (expandedCategories_scopeTo query interface) s
          split
          · next error t failed => rwa [failed] at first
          · next t done =>
              rw [done] at first
              exact steps.trans first (ih t)

theorem watchQuery (fit : Fit query) (s : Synced) : R s (s.watchQuery query).2 := by
  unfold Synced.watchQuery
  split
  · have first := steps.watchRoot s fit
    split
    · next error t failed => rwa [failed] at first
    · next names t done =>
        rw [done] at first
        exact steps.trans first (steps.watchInterfaces fit names t)
  · exact steps.watchCategories fit rfl s

theorem handleMembers (s : Synced) (path : String) (names : List String) :
    R s (s.handleMembers path names) := by
  unfold Synced.handleMembers
  split
  · exact steps.refl s
  · exact steps.notify s _

end WatchSteps

namespace QuerySteps

variable (steps : QuerySteps Fit R)

include steps

theorem addInterface (fit : Fit owner) (name : String) (s : Synced) : R s (s.addInterface owner name) := by
  rcases s.addInterface_cases owner name with same | ⟨interface, outcome⟩
  · rw [same]
    exact steps.refl s
  · have watching := steps.watchCategories fit (expandedCategories_scopeTo owner interface) s
    rcases outcome with done | ⟨error, t, failed, waiting⟩
    · rwa [done] at watching
    · rw [failed] at watching
      rw [waiting]
      exact steps.trans watching (steps.wait t owner)

theorem handleInterfaces (fit : ∀ owner ∈ s.ownersOf s.sync.root, Fit owner.1) (names : List String) :
    R s (s.handleInterfaces names) :=
  foldl_of_steps steps.refl steps.trans (fun t owner member =>
    foldl_of_steps steps.refl steps.trans (fun u name _ => steps.addInterface (fit owner member) name u) t) s

theorem handleChildren (fit : ∀ owner ∈ s.ownersOf s.sync.root, Fit owner.1) (path : String)
    (names : List String) :
    R s (s.handleChildren path names) := by
  unfold Synced.handleChildren
  split
  · exact steps.handleInterfaces fit names
  · exact steps.handleMembers s path names

theorem recoverQuery (fit : Fit query) (s : Synced) : R s (s.recoverQuery query) := by
  have watching := steps.watchQuery fit s
  rcases s.recoverQuery_cases query with done | ⟨error, t, failed, waiting⟩
  · rwa [done] at watching
  · rw [failed] at watching
    rw [waiting]
    exact steps.trans watching (steps.wait t query)

end QuerySteps

namespace ListenerSteps

variable (steps : ListenerSteps Fit R)

include steps

theorem retrySubscribe (fit : s.sync.registry.hasListeners query = true → Fit query) :
    R s (s.retrySubscribe query) := by
  rcases s.retrySubscribe_cases query with ⟨heard, t, done, tried⟩ | ⟨heard, error, failed⟩ | ⟨_, tried⟩
  · have watching := steps.watchQuery (fit heard) s
    rw [done] at watching
    rw [tried]
    exact steps.trans watching (steps.dropPending t query)
  · have watching := steps.watchQuery (fit heard) s
    rwa [failed] at watching
  · rw [tried]
    exact steps.dropPending s query

theorem attend (fit : Fit query) (listener : Listener) (s : Synced) : R s (s.attend query listener) := by
  rcases s.attend_cases query listener with same | ⟨_, listening⟩
  · rw [same]
    exact steps.refl s
  · rw [listening]
    exact steps.trans (steps.listen s listener fit) (steps.recoverQuery fit _)

theorem unsubscribe (s : Synced) (query : Endpoint) (listener : Listener) :
    R s (s.unsubscribe query listener) := by
  have left := steps.leave s query listener
  unfold Synced.unsubscribe
  dsimp only
  split
  · exact left
  · exact steps.trans left (steps.trans (steps.dropPending _ query) (steps.dropWatches _ query))

end ListenerSteps

/-- The registry after the first part of a retry, that of the nodes. -/
def retryNodes (s : Synced) : Synced :=
  s.sync.backlog.unregistered.toList.foldl retryUnregister
    (s.sync.backlog.registered.toList.foldl retryRegister s)

theorem retry_eq (s : Synced) :
    s.retry = s.sync.backlog.subscribed.toList.foldl retrySubscribe s.retryNodes := rfl

namespace NodeSteps

variable (steps : NodeSteps R)

include steps

theorem recoverEndpoint (s : Synced) (e : Endpoint) : R s (s.recoverEndpoint e) := by
  have written := steps.write s e
  unfold Synced.recoverEndpoint
  split
  · next t done => rwa [done] at written
  · next t failed =>
      rw [failed] at written
      exact steps.trans written (steps.shelve t _ rfl)

theorem retryRegister (s : Synced) (e : Endpoint) : R s (s.retryRegister e) := by
  have written := steps.write s e
  unfold Synced.retryRegister
  split
  · next t done =>
      rw [done] at written
      exact steps.trans written (steps.shelve t _ rfl)
  · next t failed => rwa [failed] at written

theorem retryUnregister (s : Synced) (e : Endpoint) : R s (s.retryUnregister e) := by
  have removed := steps.remove s e
  unfold Synced.retryUnregister
  split
  · next t done =>
      rw [done] at removed
      exact steps.trans removed (steps.shelve t _ rfl)
  · next t failed => rwa [failed] at removed

theorem retryNodes (s : Synced) : R s s.retryNodes :=
  steps.trans (foldl_of_steps steps.refl steps.trans (fun t e _ => steps.retryRegister t e) s)
    (foldl_of_steps steps.refl steps.trans (fun t e _ => steps.retryUnregister t e) _)

theorem register (s : Synced) (e : Endpoint) : R s (s.register e) :=
  steps.trans (steps.enlist s e)
    (steps.trans (steps.shelve _ (Backlog.forget _ e) rfl) (steps.recoverEndpoint _ e))

theorem unregister (s : Synced) (e : Endpoint) : R s (s.unregister e) := by
  have begun := steps.trans (steps.delist s e)
    (steps.shelve _ ((s.withRegistry (s.sync.registry.unregister e)).sync.backlog.forget e) rfl)
  have removed := steps.trans begun (steps.remove _ e)
  unfold Synced.unregister
  dsimp only
  split
  · next t done => rwa [done] at removed
  · next t failed =>
      rw [failed] at removed
      exact steps.trans removed (steps.shelve t _ rfl)

theorem dynamicUnregister (s : Synced) : R s (s.sync.registry.dynamicRegistered.foldl Synced.unregister s) :=
  foldl_of_steps steps.refl steps.trans (fun t e _ => steps.unregister t e) s

end NodeSteps

section Handling

variable (steps : QuerySteps (fun _ => True) R) (work : NodeSteps R)

include steps work

theorem QuerySteps.recover (s : Synced) : R s s.recover :=
  steps.trans (foldl_of_steps steps.refl steps.trans (fun t e _ => work.recoverEndpoint t e) s)
    (foldl_of_steps steps.refl steps.trans (fun t _ _ => steps.recoverQuery trivial t) _)

theorem QuerySteps.handleNext (taken : ∀ (s : Synced) before notice after,
      s.store.outbox = before ++ notice :: after →
      R s { s with store := { s.store with outbox := before ++ after } })
    (s : Synced) (aboutSession : Bool) : R s (s.handleNext aboutSession) := by
  rcases s.handleNext_cases aboutSession with same | ⟨before, notice, after, whole, _, _, handled⟩
  · rw [same]
    exact steps.refl s
  · rw [handled]
    refine steps.trans (taken s before notice after whole) ?_
    cases notice with
    | children watch mailbox path names => exact steps.handleChildren (fun _ _ => trivial) path names
    | session mailbox state =>
        cases state with
        | connected => exact steps.refl _
        | disconnected => exact steps.refl _
        | reconnected => exact steps.recover work _

end Handling

theorem mem_queries_iff {query : Endpoint} :
    query ∈ s.sync.registry.queries ↔ ∃ listeners, s.sync.registry.subscribed.get? query = some listeners :=
  SortedMap.mem_keys_iff

theorem mem_queries_of_hasListeners {query : Endpoint} (heard : s.sync.registry.hasListeners query = true) :
    query ∈ s.sync.registry.queries := by
  rw [mem_queries_iff]
  cases found : s.sync.registry.subscribed.get? query with
  | none => simp [Registry.hasListeners, Registry.listeners, found] at heard
  | some listeners => exact ⟨listeners, rfl⟩

/-- A query whose categories can be segments of paths. -/
def FlatQuery (query : Endpoint) : Prop := ∀ category ∈ query.expandedCategories, '/' ∉ category.toList

/-- A new node brings no other one that is as deep as those of endpoints. -/
theorem get?_planted_leaf {root path other : String} {ephemeral : Bool} {store : Store}
    (shallow : slashes path ≤ slashes root + 3) (leaf : Leaf root other) (apart : other ≠ path) :
    (store.planted path ephemeral).nodes.get? other = store.nodes.get? other := by
  have not_above : other ∉ store.missingAncestors path := fun missing => by
    have := slashes_lt_of_mem_ancestors (Store.mem_ancestors_of_missing missing)
    have := leaf.2
    omega
  rw [Store.get?_planted, if_neg apart, if_neg not_above]

/-- A directory and those above it are no leaves. -/
theorem get?_withDirectory {root path : String} (short : slashes path < slashes root + 3) (store : Store)
    {other : String} (leaf : Leaf root other) :
    (withDirectory store path).nodes.get? other = store.nodes.get? other := by
  unfold withDirectory
  split
  · rfl
  · exact get?_planted_leaf (Nat.le_of_lt short) leaf fun same => Nat.not_lt.2 leaf.2 (same ▸ short)

end ServiceGovernance.Synced
