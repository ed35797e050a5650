import ServiceGovernance.Proofs.Synced.Mirroring

/-!
What a registry does as a whole: it takes a notice, subscribes, unsubscribes, starts. It is a mirror
again afterwards, and whatever it has done to the store the others are told as far as it concerns them.
-/

namespace ServiceGovernance.Synced

open SyncedRegistry Store.Path

variable {s t : Synced} {query e : Endpoint} {path : String} {listener : Listener} {unread : String → Prop}
  {owed : Endpoint → Prop}

/-- A registry has acted and mirrors the store again, and the others are told as far as it concerns them. -/
structure StillMirrors (s t : Synced) : Prop where
  mirrors : Mirrors t
  root : t.sync.root = s.sync.root
  mailbox : t.sync.mailbox = s.sync.mailbox
  others : ∀ other, other ≠ s.sync.mailbox → Later s.sync.root other s.store t.store

theorem StillMirrors.of_allAhead (mirrors : Mirrors t) (ahead : AllAhead s t) : StillMirrors s t :=
  ⟨mirrors, ahead.root, ahead.mailbox, ahead.others⟩

section Notices

variable {before after : List Store.Notice} {notice : Store.Notice} {aboutSession : Bool}

/-- A notice that has been taken leaves unread what it is about. -/
theorem MirrorsExcept.taken (mirrors : Mirrors s) (whole : s.store.outbox = before ++ notice :: after)
    (others : ∀ other ∈ before, isMine s.sync.mailbox aboutSession other = false)
    (mine : isMine s.sync.mailbox aboutSession notice = true)
    (about : ∀ path watch, s.store.watches.get? watch = some ⟨path, s.sync.mailbox⟩ → ¬ unread path →
      notice.namesFor? watch = none)
    (owes : ∀ query, ¬ owed query → notice ≠ .session s.sync.mailbox .reconnected ∧
      (s.Owns query s.sync.root → ¬ unread s.sync.root)) :
    MirrorsExcept unread owed { s with store := { s.store with outbox := before ++ after } } := by
  have unheard_before : ∀ path, ¬ unread path →
      Unheard { s with store := { s.store with outbox := before ++ after } } path → s.Unheard path := by
    intro path read unheard watch found
    rw [whole, ← lastNames_taken (about path watch found read)]
    exact unheard watch found
  exact {
    absolute := mirrors.absolute
    sound := sound_taken mirrors.sound whole others mine
    mailbox := mirrors.mailbox
    hears := mirrors.hears
    registered := mirrors.registered
    failed := mirrors.failed
    queries := mirrors.queries
    watches := mirrors.watches
    recorded := mirrors.recorded
    owners := mirrors.owners
    genuine := mirrors.genuine
    fresh := fun query interface category owns read unheard =>
      mirrors.fresh query interface category owns id (unheard_before _ read unheard)
    covered := fun online quiet query subscribed settled => by
      obtain ⟨other, root_read⟩ := owes query settled
      have quiet_before : .session s.sync.mailbox .reconnected ∉ s.store.outbox := by
        rw [whole]
        intro queued
        rcases List.mem_append.1 queued with queued | queued
        · exact quiet (List.mem_append_left _ queued)
        · exact (List.mem_cons.1 queued).elim (other ·.symm) fun queued =>
            quiet (List.mem_append_right _ queued)
      have covers := mirrors.covered online quiet_before query subscribed id
      unfold Covers at covers ⊢
      split at covers
      · next all =>
          rw [if_pos all]
          exact ⟨covers.1, fun unheard => covers.2 (unheard_before _ (root_read covers.1) unheard)⟩
      · next one =>
          rw [if_neg one]
          exact covers }

/-- The children that a notice tells of are known, and later ones only if another notice is queued. -/
theorem Mirrors.handleChildren {number : Nat} {names : List String} (mirrors : Mirrors s)
    (whole : s.store.outbox = before ++ .children number s.sync.mailbox path names :: after)
    (others : ∀ other ∈ before, isMine s.sync.mailbox aboutSession other = false)
    (mine : isMine s.sync.mailbox aboutSession (.children number s.sync.mailbox path names) = true) :
    Mirrors ({ s with store := { s.store with outbox := before ++ after } }.handleChildren path names) ∧
      AllAhead { s with store := { s.store with outbox := before ++ after } }
        ({ s with store := { s.store with outbox := before ++ after } }.handleChildren path names) := by
  obtain ⟨found, placed⟩ := mirrors.sound.live _ (whole ▸ List.mem_append_right _ List.mem_cons_self)
  have taken : MirrorsExcept (· = path) (fun query => path = s.sync.root ∧ s.Owns query s.sync.root)
      { s with store := { s.store with outbox := before ++ after } } := by
    refine .taken mirrors whole others mine (fun other watch there read => if_neg fun same => ?_)
      fun query settled => ⟨by simp, fun owns same => settled ⟨same.symm, owns⟩⟩
    subst same
    cases found.symm.trans there
    exact read rfl
  have latest : Unheard { s with store := { s.store with outbox := before ++ after } } path →
      names = s.store.children path :=
    fun unheard => names_of_last mirrors.sound whole (unheard number found)
  unfold Synced.handleChildren
  split
  · next top =>
      have top : path = s.sync.root := top
      subst top
      have settled : MirrorsExcept (fun _ => False) _ _ := taken.read fun query interface category _ same =>
        categoryPath_ne_root _ _ _ same
      exact (settled.mono (fun _ => id) fun query owing => owing.2).handleInterfaces
        (interfaces_of_placed mirrors.absolute placed) latest
  · next below =>
      exact (taken.mono (fun _ => id) fun query owing => below owing.1).handleMembers below
        found placed latest

/-- Only a session that has come back owes the queries their paths. -/
theorem Mirrors.handleSession {state : Store.SessionState} (mirrors : Mirrors s)
    (whole : s.store.outbox = before ++ .session s.sync.mailbox state :: after)
    (others : ∀ other ∈ before, isMine s.sync.mailbox aboutSession other = false)
    (mine : isMine s.sync.mailbox aboutSession (.session s.sync.mailbox state) = true) :
    Mirrors ({ s with store := { s.store with outbox := before ++ after } }.handle
        (.session s.sync.mailbox state)) ∧
      AllAhead { s with store := { s.store with outbox := before ++ after } }
        ({ s with store := { s.store with outbox := before ++ after } }.handle
          (.session s.sync.mailbox state)) := by
  have taken : MirrorsExcept (fun _ => False) (fun _ => state = .reconnected)
      { s with store := { s.store with outbox := before ++ after } } := by
    refine .taken mirrors whole others mine (fun _ _ _ _ => rfl) fun query other =>
      ⟨fun same => other ?_, fun _ => id⟩
    cases same
    rfl
  have idle : state ≠ .reconnected →
      Mirrors { s with store := { s.store with outbox := before ++ after } } :=
    fun other => taken.mono (fun _ => id) fun _ same => other same
  cases state with
  | connected => exact ⟨idle (by decide), .refl⟩
  | disconnected => exact ⟨idle (by decide), .refl⟩
  | reconnected => exact taken.recover

theorem Mirrors.handleNext (mirrors : Mirrors s) (aboutSession : Bool) :
    StillMirrors s (s.handleNext aboutSession) := by
  rcases s.handleNext_cases aboutSession with same | ⟨before, notice, after, whole, others, mine, handled⟩
  · rw [same]
    exact ⟨mirrors, rfl, rfl, fun _ _ => .refl⟩
  rw [handled]
  have mailbox : notice.mailbox = s.sync.mailbox := by
    cases notice <;> simp_all [isMine, Store.Notice.mailbox]
  have settled :
      Mirrors ({ s with store := { s.store with outbox := before ++ after } }.handle notice) ∧
      AllAhead { s with store := { s.store with outbox := before ++ after } }
        ({ s with store := { s.store with outbox := before ++ after } }.handle notice) := by
    cases notice with
    | children number receiver path names =>
        cases mailbox
        exact mirrors.handleChildren whole others mine
    | session receiver state =>
        cases mailbox
        exact mirrors.handleSession whole others mine
  refine ⟨settled.1, settled.2.root, settled.2.mailbox, fun other apart => ?_⟩
  have foreign : Later s.sync.root other s.store { s.store with outbox := before ++ after } :=
    later_taken mirrors.sound whole fun same => apart (same.symm.trans mailbox)
  exact foreign.trans (settled.2.others other apart)

end Notices

section Subscription

theorem Mirrors.listen (mirrors : Mirrors s) (broad : Broad query) (listener : Listener) :
    MirrorsExcept (fun _ => False) (· = query) (s.withListener query listener) := by
  have member_iff : ∀ other, other ∈ (s.sync.registry.addListener query listener).queries ↔
      other = query ∨ other ∈ s.sync.registry.queries := fun other => Registry.mem_queries_addListener
  have ahead : Ahead s (s.withListener query listener) := ⟨rfl, rfl, fun _ _ => id, .refl⟩
  exact { mirrors with
    queries := fun other member => ((member_iff other).1 member).elim (· ▸ broad) (mirrors.queries other)
    owners := fun path other narrowed member => by
      obtain ⟨subscribed, scope⟩ := mirrors.owners path other narrowed member
      exact ⟨(member_iff other).2 (.inr subscribed), scope⟩
    covered := fun online quiet other subscribed settled =>
      (mirrors.covered online quiet other (((member_iff other).1 subscribed).resolve_left settled) id).ahead
        mirrors ahead }

theorem Mirrors.attend (mirrors : Mirrors s) (broad : Broad query) (listener : Listener) :
    StillMirrors s (s.attend query listener) := by
  rcases s.attend_cases query listener with same | ⟨_, listening⟩
  · rw [same]
    exact ⟨mirrors, rfl, rfl, fun _ _ => .refl⟩
  · obtain ⟨after, ahead, covers⟩ := (mirrors.listen broad listener).recoverQuery
      (Registry.mem_queries_addListener.2 (.inl rfl))
    rw [listening]
    refine ⟨after.paid fun online other _ same => ?_, ahead.root, ahead.mailbox, ahead.others⟩
    rw [same]
    exact covers online

/-- No notice is queued for the watches that go if the query loses its last listener. -/
def ReleasesQuietly (s : Synced) (query : Endpoint) (listener : Listener) : Prop :=
  (s.sync.registry.unsubscribe query listener).hasListeners query = false →
    ∀ watch ∈ s.released query, ∀ mailbox path names, .children watch mailbox path names ∉ s.store.outbox

/-- The watches that go are those of the paths that are the query's alone. -/
theorem MirrorsExcept.mem_released_iff {w : WatchedPath} {watch : Nat} (mirrors : MirrorsExcept unread owed s)
    (found : s.sync.watched.get? path = some w) (named : w.watch = some watch) :
    watch ∈ s.released query ↔ (withoutOwner query w).owners = [] := by
  simp only [released, List.mem_filterMap, List.mem_filter, SortedMap.mem_values_iff, List.isEmpty_iff]
  constructor
  · rintro ⟨other, ⟨⟨path_other, found_other⟩, empty⟩, named_other⟩
    obtain ⟨number, same, there⟩ := mirrors.watches path w found
    obtain ⟨number_other, same_other, there_other⟩ := mirrors.watches path_other other found_other
    cases named.symm.trans same
    cases named_other.symm.trans same_other
    cases there.symm.trans there_other
    cases found.symm.trans found_other
    exact empty
  · exact fun empty => ⟨w, ⟨⟨path, found⟩, empty⟩, named⟩

/-- What is left of a registry when a query has gone: the other queries, with what they have. -/
structure Dropped (query : Endpoint) (s t : Synced) : Prop where
  root : t.sync.root = s.sync.root
  mailbox : t.sync.mailbox = s.sync.mailbox
  store : t.store = { s.store with watches := t.store.watches }
  registered : t.sync.registry.registered = s.sync.registry.registered
  failed : t.sync.backlog.registered = s.sync.backlog.registered
  queries : ∀ other, other ∈ t.sync.registry.queries ↔ other ∈ s.sync.registry.queries ∧ other ≠ query
  lists : ∀ other, t.sync.registry.cacheOf other = s.sync.registry.cacheOf other ∨
    other = query ∧ t.sync.registry.cacheOf other = .empty
  watched : ∀ path, t.sync.watched.get? path =
    ((s.sync.watched.get? path).map (withoutOwner query)).filter (!·.owners.isEmpty)
  owners : ∀ path pair, pair ∈ t.ownersOf path ↔ pair ∈ s.ownersOf path ∧ pair.1 ≠ query
  watches : ∀ watch, t.store.watches.get? watch =
    if watch ∈ s.released query then none else s.store.watches.get? watch
  sound : Sound s.sync.root t.store

theorem Mirrors.dropWatches {registry : Registry} (mirrors : Mirrors s)
    (silent : ∀ watch ∈ s.released query, Store.lastNames watch s.store.outbox = none)
    (registered : registry.registered = s.sync.registry.registered)
    (queries : ∀ other, other ∈ registry.queries ↔ other ∈ s.sync.registry.queries ∧ other ≠ query)
    (lists : ∀ other, registry.cacheOf other = s.sync.registry.cacheOf other ∨
      other = query ∧ registry.cacheOf other = .empty) :
    Dropped query s (((s.withRegistry registry).dropPending query).dropWatches query) where
  root := rfl
  mailbox := rfl
  store := by
    obtain ⟨watches, unwatched⟩ := foldl_unwatch_eq (s.released query) s.store
    show (s.released query).foldl Store.unwatch s.store = { s.store with
      watches := ((s.released query).foldl Store.unwatch s.store).watches }
    rw [unwatched]
  registered := registered
  failed := rfl
  queries := queries
  lists := lists
  watched := get?_dropWatches _ query
  owners _ _ := mem_ownersOf_dropWatches
  watches := get?_foldl_unwatch (s.released query) s.store
  sound := sound_unwatched mirrors.sound silent

namespace Dropped

variable (dropped : Dropped query s t) (mirrors : Mirrors s)

include dropped

theorem owns_iff {other : Endpoint} : t.Owns other path ↔ s.Owns other path ∧ other ≠ query := by
  simp only [Owns, dropped.owners]
  constructor
  · rintro ⟨narrowed, member, apart⟩
    exact ⟨⟨narrowed, member⟩, apart⟩
  · rintro ⟨⟨narrowed, member⟩, apart⟩
    exact ⟨narrowed, member, apart⟩

theorem known_eq {other : Endpoint} (apart : other ≠ query) (category : String) :
    t.known other category = s.known other category := by
  rw [known, Registry.listOf, (dropped.lists other).resolve_right fun both => apart both.1]
  rfl

theorem mem_known {other : Endpoint} {category : String} (member : e ∈ t.known other category) :
    e ∈ s.known other category := by
  rcases dropped.lists other with same | ⟨_, empty⟩
  · rwa [known, Registry.listOf, same] at member
  · rw [known, Registry.listOf, empty] at member
    cases member

include mirrors

/-- A path that somebody else has keeps its watch. -/
theorem stays {w : WatchedPath} {watch : Nat} (found : s.sync.watched.get? path = some w)
    (named : w.watch = some watch) (left : (withoutOwner query w).owners ≠ []) :
    t.sync.watched.get? path = some (withoutOwner query w) ∧
      t.store.watches.get? watch = s.store.watches.get? watch := by
  refine ⟨?_, ?_⟩
  · have filled : (withoutOwner query w).owners.isEmpty = false := by simpa using left
    rw [dropped.watched, found, Option.map_some, Option.filter_some, filled]
    rfl
  · rw [dropped.watches, if_neg fun gone => left ((mirrors.mem_released_iff found named).1 gone)]

theorem unheard {other : Endpoint} (owns : t.Owns other path) (unheard : t.Unheard path) :
    s.Unheard path := by
  intro watch found
  obtain ⟨w, recorded, named⟩ := mirrors.recorded watch path found
  obtain ⟨⟨narrowed, member⟩, apart⟩ := dropped.owns_iff.1 owns
  have left : (withoutOwner query w).owners ≠ [] := by
    rw [ownersOf, recorded, Option.getD_some] at member
    exact List.ne_nil_of_mem (a := (other, narrowed)) (List.mem_filter.2 ⟨member, by simpa using apart⟩)
  have silent := unheard watch (by
    rw [dropped.mailbox]
    exact (dropped.stays mirrors recorded named left).2.trans found)
  rwa [dropped.store] at silent

theorem still_mirrors : Mirrors t where
  absolute := dropped.root ▸ mirrors.absolute
  sound := dropped.root ▸ dropped.sound
  mailbox := by
    rw [dropped.mailbox, dropped.store]
    exact mirrors.mailbox
  hears := by
    rw [dropped.mailbox, dropped.store]
    exact mirrors.hears
  registered := dropped.registered ▸ mirrors.registered
  failed := dropped.failed ▸ mirrors.failed
  queries other member := mirrors.queries other ((dropped.queries other).1 member).1
  watches path w found := by
    rw [dropped.watched, Option.filter_eq_some_iff, Option.map_eq_some_iff] at found
    obtain ⟨⟨before, recorded, rfl⟩, filled⟩ := found
    obtain ⟨watch, named, there⟩ := mirrors.watches path before recorded
    refine ⟨watch, named, ?_⟩
    rw [dropped.mailbox, (dropped.stays mirrors recorded named (by simpa using filled)).2]
    exact there
  recorded watch path found := by
    rw [dropped.watches, dropped.mailbox] at found
    split at found
    · cases found
    next stayed =>
    obtain ⟨w, recorded, named⟩ := mirrors.recorded watch path found
    have left : (withoutOwner query w).owners ≠ [] := mt (mirrors.mem_released_iff recorded named).2 stayed
    exact ⟨_, (dropped.stays mirrors recorded named left).1, named⟩
  owners path other narrowed member := by
    obtain ⟨before, apart⟩ := (dropped.owners path _).1 member
    obtain ⟨subscribed, scope⟩ := mirrors.owners path other narrowed before
    exact ⟨(dropped.queries other).2 ⟨subscribed, apart⟩, dropped.root ▸ scope⟩
  genuine other category e member := by
    rw [dropped.root, dropped.store]
    exact mirrors.genuine other category e (dropped.mem_known member)
  fresh other interface category owns _ unheard e same := by
    have before := dropped.unheard mirrors owns unheard
    obtain ⟨owned, apart⟩ := dropped.owns_iff.1 owns
    rw [dropped.known_eq apart, dropped.store]
    rw [dropped.root] at owned before ⊢
    exact mirrors.fresh other interface category owned id before e same
  covered online quiet other subscribed _ := by
    rw [dropped.store] at online
    rw [dropped.store, dropped.mailbox] at quiet
    obtain ⟨subscribed, apart⟩ := (dropped.queries other).1 subscribed
    have covers := mirrors.covered online quiet other subscribed id
    have owns_all : ∀ interface, s.OwnsAll other interface → t.OwnsAll other interface :=
      fun interface owned category listed =>
        dropped.owns_iff.2 ⟨dropped.root ▸ owned category listed, apart⟩
    unfold Covers at covers ⊢
    split at covers
    · next all =>
        rw [if_pos all, dropped.root]
        have owns : t.Owns other s.sync.root := dropped.owns_iff.2 ⟨covers.1, apart⟩
        refine ⟨owns, fun unheard interface named single there => owns_all interface ?_⟩
        rw [dropped.store] at there
        exact covers.2 (dropped.unheard mirrors owns unheard) interface named single there
    · next one =>
        rw [if_neg one]
        exact owns_all _ covers

end Dropped

theorem Mirrors.unsubscribe (mirrors : Mirrors s) (quiet : s.ReleasesQuietly query listener) :
    StillMirrors s (s.unsubscribe query listener) := by
  unfold Synced.unsubscribe
  dsimp only
  have registered := Registry.registered_unsubscribe s.sync.registry query listener
  rcases s.sync.registry.unsubscribe_cases query listener with
    ⟨heard, queries, notified⟩ | ⟨gone, queries, lists⟩
  · have heard :
        (s.withRegistry (s.sync.registry.unsubscribe query listener)).sync.registry.hasListeners query =
          true := heard
    rw [if_pos heard]
    refine ⟨?_, rfl, rfl, fun _ _ => .refl⟩
    exact mirrors.of_same rfl rfl rfl rfl queries notified (registered ▸ mirrors.registered) mirrors.failed
  · have silent : ∀ watch ∈ s.released query, Store.lastNames watch s.store.outbox = none := by
      intro watch released
      refine Store.lastNames_eq_none_iff.2 fun notice queued => ?_
      cases notice with
      | session receiver state => rfl
      | children number receiver path names =>
          refine if_neg fun same => ?_
          subst same
          exact quiet gone _ released receiver path names queued
    have lost :
        ¬ (s.withRegistry (s.sync.registry.unsubscribe query listener)).sync.registry.hasListeners query =
          true := Bool.eq_false_iff.1 gone
    rw [if_neg lost]
    refine ⟨(mirrors.dropWatches silent registered queries lists).still_mirrors mirrors, rfl, rfl,
      fun other apart => later_unwatched fun watch released path found => ?_⟩
    simp only [Synced.released, List.mem_filterMap, List.mem_filter, SortedMap.mem_values_iff] at released
    obtain ⟨w, ⟨⟨owned, recorded⟩, _⟩, named⟩ := released
    obtain ⟨number, same, there⟩ := mirrors.watches owned w recorded
    cases named.symm.trans same
    cases there.symm.trans found
    exact apart rfl

end Subscription

section Start

theorem mirrors_start {store : Store} {root : String} (absolute : Absolute root) (sound : Sound root store)
    (lookupTimeout retryPeriod : Nat) : Mirrors (start store root lookupTimeout retryPeriod) where
  absolute := absolute
  sound := sound_opened sound
  mailbox := Nat.lt_succ_self _
  hears := List.mem_append_right _ (List.mem_singleton_self _)
  registered _ member := absurd member List.not_mem_nil
  failed _ member := absurd member List.not_mem_nil
  queries _ member := absurd member List.not_mem_nil
  watches _ _ found := by cases found
  recorded watch path found := absurd (sound.addressed watch _ found) (Nat.lt_irrefl _)
  owners _ _ _ member := absurd member List.not_mem_nil
  genuine _ _ _ member := absurd member List.not_mem_nil
  fresh _ _ _ owns := absurd owns.choose_spec List.not_mem_nil
  covered _ _ _ member := absurd member List.not_mem_nil

end Start

end ServiceGovernance.Synced
