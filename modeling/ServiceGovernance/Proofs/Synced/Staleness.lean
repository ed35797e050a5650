import ServiceGovernance.Proofs.Synced.Courses

/-!
Notices of watches that are no more. A notice speaks of a path, and when it is handled nothing is asked
but whether the path is watched. So a notice that is left over from a released watch counts for nothing
as long as its path is not watched; but if the path is watched again, its children are taken for those
of this moment. The notices of the present watch come after it.
-/

namespace ServiceGovernance.Synced

open SyncedRegistry Text

variable {s t u : Synced} {path : String} {names : List String} {watch : Nat}
  {before after : List Store.Notice} {updates : List Endpoint} {invitation : Endpoint × String}
  {invitations : List (Endpoint × String)}

/-- No cached list is another one. -/
def Unaltered (s t : Synced) : Prop :=
  ∀ query category, (t.sync.registry.cacheOf query).get? category =
    (s.sync.registry.cacheOf query).get? category

/-- The lists that the updates make are those that are cached already. -/
def AlreadyCached (s : Synced) (updates : List Endpoint) : Prop :=
  ∀ query ∈ s.sync.registry.queries, ∀ category, Registry.share query updates category = [] ∨
    (s.sync.registry.cacheOf query).get? category =
      some (Registry.merge (s.sync.registry.listOf query category) (Registry.share query updates category))

/-- The updates that are made of children which are told. -/
def told (s : Synced) (path : String) (names : List String) : List Endpoint :=
  distinct ((s.ownersOf path).flatMap fun owner =>
    decodeChildren owner.2 (Store.Path.lastSegment path) names)

/-- The owners of the root, each with each name that is told. -/
def invited (s : Synced) (names : List String) : List (Endpoint × String) :=
  (s.ownersOf s.sync.root).flatMap fun owner => names.map fun name => (owner.1, name)

def invite (s : Synced) (invitation : Endpoint × String) : Synced := s.addInterface invitation.1 invitation.2

/-- If the interface is new to the owner, what is read of it now is cached already. -/
def Redundant (s : Synced) (invitation : Endpoint × String) : Prop :=
  ∀ interface updates t, Percent.decode invitation.2 = .ok interface →
    s.knowsInterface invitation.1 (scopeTo invitation.1 interface) = false →
    readCategories invitation.1 (scopeTo invitation.1 interface)
      (scopeTo invitation.1 interface).expandedCategories [] s = (.ok updates, t) →
    s.AlreadyCached updates

section Lists

theorem Unaltered.refl : Unaltered s s := fun _ _ => rfl

theorem Unaltered.trans (first : Unaltered s t) (second : Unaltered t u) : Unaltered s u :=
  fun query category => (second query category).trans (first query category)

theorem Unaltered.symm (same : Unaltered s t) : Unaltered t s := fun query category =>
  (same query category).symm

theorem unaltered_notify_iff : Unaltered s (s.notify updates) ↔ s.AlreadyCached updates := by
  constructor
  · intro same query subscribed category
    have cached := Registry.get?_cacheOf_notify subscribed updates category
    have here := same query category
    by_cases none_mine : Registry.share query updates category = []
    · exact .inl none_mine
    · rw [if_neg none_mine] at cached
      exact .inr (here.symm.trans cached)
  · intro already query category
    by_cases subscribed : query ∈ s.sync.registry.queries
    · refine (Registry.get?_cacheOf_notify subscribed updates category).trans ?_
      rcases already query subscribed category with none_mine | cached
      · rw [if_pos none_mine]
      · split
        · rfl
        · exact cached.symm
    · exact congrArg (·.get? category) (Registry.cacheOf_notify_of_not_mem subscribed updates)

theorem handleMembers_cases (s : Synced) (path : String) (names : List String) :
    s.sync.watched.get? path = none ∧ s.handleMembers path names = s ∨
    s.sync.watched.get? path ≠ none ∧ s.handleMembers path names = s.notify (s.told path names) := by
  unfold handleMembers
  cases s.sync.watched.get? path with
  | none => exact .inl ⟨rfl, rfl⟩
  | some w => exact .inr ⟨nofun, rfl⟩

theorem unaltered_handleMembers_iff (s : Synced) (path : String) (names : List String) :
    Unaltered s (s.handleMembers path names) ↔
    s.sync.watched.get? path = none ∨ s.AlreadyCached (s.told path names) := by
  rcases s.handleMembers_cases path names with ⟨absent, same⟩ | ⟨watched, same⟩
  · rw [same]
    exact iff_of_true .refl (.inl absent)
  · rw [same, unaltered_notify_iff]
    exact (or_iff_right watched).symm

end Lists

section Invitations

theorem handleInterfaces_eq (s : Synced) (names : List String) :
    s.handleInterfaces names = (s.invited names).foldl invite s := by
  unfold handleInterfaces invited
  generalize s.ownersOf s.sync.root = owners
  induction owners generalizing s with
  | nil => rfl
  | cons owner owners ih =>
      rw [List.foldl_cons, List.flatMap_cons, List.foldl_append, ih, List.foldl_map]
      rfl

theorem registry_readCategories (owner narrowed : Endpoint) (categories : List String)
    (updates : List Endpoint) (s : Synced) :
    (readCategories owner narrowed categories updates s).2.sync.registry = s.sync.registry := by
  induction categories generalizing updates s with
  | nil => rfl
  | cons category categories ih =>
      obtain ⟨watched, same⟩ := s.sync_watchPath (categoryPath s.sync.root narrowed.interface category) owner
        narrowed
      unfold readCategories
      split
      · next error t failed =>
          rw [failed] at same
          have here := congrArg SyncedRegistry.registry same
          exact here
      · next children t done =>
          rw [done] at same
          have here := congrArg SyncedRegistry.registry same
          exact (ih _ _).trans here

theorem unaltered_of_registry (same : t.sync.registry = s.sync.registry) : Unaltered s t := fun _ _ => by
  rw [same]

/-- The lists change only if all categories have been read. -/
theorem unaltered_watchCategories_iff (s : Synced) (owner narrowed : Endpoint) :
    Unaltered s (s.watchCategories owner narrowed).2 ↔ ∀ updates t,
      readCategories owner narrowed narrowed.expandedCategories [] s = (.ok updates, t) →
        s.AlreadyCached updates := by
  have registry := registry_readCategories owner narrowed narrowed.expandedCategories [] s
  unfold watchCategories
  split
  · next error t failed =>
      rw [failed] at registry
      refine iff_of_true (unaltered_of_registry registry) fun updates u done => ?_
      rw [failed] at done
      cases done
  · next updates t done =>
      rw [done] at registry
      have before : Unaltered s t := unaltered_of_registry registry
      have step : Unaltered s (t.notify updates) ↔ t.AlreadyCached updates :=
        ⟨fun same => unaltered_notify_iff.1 (before.symm.trans same), fun already =>
          before.trans (unaltered_notify_iff.2 already)⟩
      rw [step, AlreadyCached, show t.sync.registry = s.sync.registry from registry]
      constructor
      · intro already others u same
        rw [done] at same
        cases same
        exact already
      · exact fun always => always updates t done

theorem unaltered_invite_iff : Unaltered s (s.invite invitation) ↔ s.Redundant invitation := by
  unfold invite addInterface Redundant
  split
  · next error failed =>
      refine iff_of_true .refl fun interface updates t named => ?_
      rw [failed] at named
      cases named
  · next interface named =>
      have only : ∀ other, Percent.decode invitation.2 = .ok other → other = interface := by
        intro other same
        rw [named] at same
        cases same
        rfl
      dsimp only
      split
      · next known =>
          refine iff_of_true .refl fun other updates t same unknown => ?_
          rw [only other same, known] at unknown
          cases unknown
      · next unknown =>
          have unknown := Bool.eq_false_iff.2 unknown
          have reading := unaltered_watchCategories_iff s invitation.1 (scopeTo invitation.1 interface)
          refine Iff.trans ?_ (reading.trans ⟨fun always other updates t same _ done => ?_,
            fun always updates t done => always interface updates t named unknown done⟩)
          · split
            · next t done => rw [done]
            · next error t failed =>
                rw [failed]
                rfl
          · rw [only other same] at done
            exact always updates t done

/-- No list changes on the way exactly if no step changes one. -/
theorem unaltered_foldl_iff (s : Synced) (invitations : List (Endpoint × String)) :
    (∀ earlier later, invitations = earlier ++ later → Unaltered s (earlier.foldl invite s)) ↔
      ∀ earlier invitation later, invitations = earlier ++ invitation :: later →
        (earlier.foldl invite s).Redundant invitation := by
  constructor
  · intro always earlier invitation later whole
    have before := always earlier (invitation :: later) whole
    have behind := always (earlier ++ [invitation]) later (by rw [whole, List.append_assoc]; rfl)
    rw [List.foldl_append] at behind
    exact unaltered_invite_iff.1 (before.symm.trans behind)
  · intro each earlier
    induction earlier generalizing s invitations with
    | nil => exact fun _ _ => .refl
    | cons first earlier ih =>
        intro later whole
        have step := unaltered_invite_iff.2 (each [] first (earlier ++ later) whole)
        refine step.trans (ih _ _ (fun front invitation back rest => ?_) later rfl)
        exact each (first :: front) invitation back (whole.trans (congrArg (first :: ·) rest))

/-- Where every owner of the root has every interface, nothing is to be done. -/
theorem foldl_invite_eq_self (s : Synced) (known : ∀ invitation ∈ invitations, ∀ interface,
      Percent.decode invitation.2 = .ok interface →
      s.knowsInterface invitation.1 (scopeTo invitation.1 interface) = true) :
    invitations.foldl invite s = s := by
  refine foldl_eq_self fun invitation member => ?_
  unfold invite addInterface
  split
  · rfl
  · next interface named => exact if_pos (known invitation member interface named)

end Invitations

section Stale

/-- If any notice of the present watch is queued, the last one about its path is of this watch. -/
theorem Ordered.last_of_present {mailbox : Store.Mailbox} {store : Store} {present number : Nat}
    {front back : List (Nat × String)} (ordered : Ordered mailbox store)
    (live : store.watches.get? present = some ⟨path, mailbox⟩)
    (queued : (present, path) ∈ store.awaited mailbox)
    (whole : store.awaited mailbox = front ++ (number, path) :: back)
    (last : ∀ entry ∈ back, entry.2 ≠ path) : number = present := by
  have bound := (ordered.past number path (by rw [whole]; simp)).2 present live
  have sorted := ordered.sorted
  rw [whole] at queued sorted
  have apart := (List.pairwise_append.1 sorted).2.2
  rcases List.mem_append.1 queued with earlier | later
  · exact Nat.le_antisymm bound (apart _ earlier _ (.head _) rfl)
  · cases later with
    | head => rfl
    | tail _ later => exact absurd rfl (last _ later)

theorem handleNext_eq (queue : s.store.outbox = before ++ .children watch s.sync.mailbox path names :: after)
    (oldest : ∀ other ∈ before, isMine s.sync.mailbox false other = false) :
    s.handleNext false =
      { s with store := { s.store with outbox := before ++ after } }.handleChildren path names := by
  have mine : isMine s.sync.mailbox false (.children watch s.sync.mailbox path names) = true := by
    simp [isMine]
  have found : s.store.outbox.find? (isMine s.sync.mailbox false) =
      some (.children watch s.sync.mailbox path names) :=
    List.find?_eq_some_iff_append.2 ⟨mine, before, after, queue, by simpa using oldest⟩
  have rest : s.store.outbox.eraseP (isMine s.sync.mailbox false) = before ++ after := by
    rw [queue, List.eraseP_append_right _ (by simpa using oldest), List.eraseP_cons_of_pos mine]
  rw [handleNext, Store.takeNotice, found]
  simp only [rest]
  rfl

/-- A notice left over from a watch that is no more. Where its path is not watched it comes to nothing.
A category that is watched again takes its children for those of now, so the cached lists stay exactly
if these children make the same lists. About the root it says which interfaces to read, so the lists
stay all the while exactly if what is read now is cached already; where all interfaces are known it
comes to nothing as well. The present watch is a later one, and so are its notices. -/
theorem Course.stale_notice (course : Course s)
    (queue : s.store.outbox = before ++ .children watch s.sync.mailbox path names :: after)
    (oldest : ∀ other ∈ before, isMine s.sync.mailbox false other = false)
    (stale : s.store.watches.get? watch ≠ some ⟨path, s.sync.mailbox⟩) :
    let taken : Synced := { s with store := { s.store with outbox := before ++ after } }
    (s.sync.watched.get? path = none → s.handleNext false = taken) ∧
    (path ≠ s.sync.root → (Unaltered s (s.handleNext false) ↔
      s.sync.watched.get? path = none ∨ s.AlreadyCached (s.told path names))) ∧
    (path = s.sync.root →
      s.handleNext false = (s.invited names).foldl invite taken ∧
      ((∀ earlier later, s.invited names = earlier ++ later → Unaltered s (earlier.foldl invite taken)) ↔
        ∀ earlier invitation later, s.invited names = earlier ++ invitation :: later →
          (earlier.foldl invite taken).Redundant invitation) ∧
      ((∀ invitation ∈ s.invited names, ∀ interface, Percent.decode invitation.2 = .ok interface →
        s.knowsInterface invitation.1 (scopeTo invitation.1 interface) = true) →
          s.handleNext false = taken)) ∧
    ∀ present, s.store.watches.get? present = some ⟨path, s.sync.mailbox⟩ → watch < present ∧
      ∀ front number back, s.store.awaited s.sync.mailbox = front ++ (number, path) :: back →
        (present, path) ∈ s.store.awaited s.sync.mailbox → (∀ entry ∈ back, entry.2 ≠ path) →
        number = present := by
  intro taken
  have ordered := course.bookedInOrder.ordered
  have handled : s.handleNext false = taken.handleChildren path names := handleNext_eq queue oldest
  have about : (watch, path) ∈ s.store.awaited s.sync.mailbox :=
    Store.mem_awaited_iff.2 ⟨names, queue ▸ List.mem_append_right _ (.head _)⟩
  have inside : path = s.sync.root → taken.handleChildren path names = (s.invited names).foldl invite taken :=
    fun top => (if_pos top).trans (taken.handleInterfaces_eq names)
  have outside : path ≠ s.sync.root → taken.handleChildren path names = taken.handleMembers path names :=
    fun below => if_neg below
  have none_invited : path = s.sync.root → s.sync.watched.get? path = none → s.invited names = [] := by
    intro top absent
    rw [invited, ownersOf, ← top, absent]
    rfl
  rw [handled]
  refine ⟨fun absent => ?_, fun below => ?_, fun top => ⟨inside top, ?_, fun known => ?_⟩,
    fun present live => ⟨?_, fun front number back whole queued last =>
      ordered.last_of_present live queued whole last⟩⟩
  · by_cases top : path = s.sync.root
    · rw [inside top, none_invited top absent]
      rfl
    · rw [outside top]
      exact ((taken.handleMembers_cases path names).resolve_right fun watched => watched.1 absent).2
  · rw [outside below]
    exact taken.unaltered_handleMembers_iff path names
  · exact taken.unaltered_foldl_iff (s.invited names)
  · rw [inside top]
    exact taken.foldl_invite_eq_self known
  · have bound := (ordered.past watch path about).2 present live
    have apart : watch ≠ present := fun same => stale (same ▸ live)
    omega

/-- An endpoint has come to a watched path, and before the registry is told the query is given up. -/
def abandoned : Synced :=
  (((start {} "/r" 5000 5000).after (.subscribe consumer 0)).after (.register leaving)).after
    (.unsubscribe consumer 0)

/-- Then the endpoint has gone, and the path is watched again. -/
def revisited : Synced := (abandoned.after (.unregister leaving)).after (.subscribe consumer 0)

theorem course_abandoned : Course abandoned :=
  .step (.step (.step (.start ⟨fun _ _ found => (nomatch found), rfl⟩ 5000 5000) _ trivial) _ trivial) _ trivial

theorem course_revisited : Course revisited :=
  .step (.step course_abandoned (.unregister leaving) trivial) (.subscribe consumer 0) trivial

/-- What the released watch has told is taken for what is there: the endpoint is back in the cache, and
nothing is queued that would say otherwise. -/
theorem revisited_by_the_gone :
    Course revisited ∧
      revisited.store.outbox =
        [.session 0 .connected, .children 0 0 home [Percent.encode leaving.canonical]] ∧
      revisited.store.watches.get? 0 = none ∧ revisited.store.watches.get? 1 = some ⟨home, 0⟩ ∧
      revisited.store.children home = [] ∧ revisited.sync.registry.cached? consumer = some [] ∧
      (revisited.handleNext false).sync.registry.cached? consumer = some [leaving] ∧
      (revisited.handleNext false).store.awaited 0 = [] := by
  refine ⟨course_revisited, ?_⟩
  decide +kernel

theorem stale_notices :
    Course abandoned ∧ Course revisited ∧
      (abandoned.handleNext false).store.outbox = [.session 0 .connected] ∧
      (abandoned.handleNext false).sync = abandoned.sync ∧
      ¬ Unaltered revisited (revisited.handleNext false) := by
  have first : abandoned.store.outbox = [.session 0 .connected] ++
      .children 0 abandoned.sync.mailbox home [Percent.encode leaving.canonical] :: [] ∧
      abandoned.store.watches.get? 0 = none ∧ abandoned.sync.watched.get? home = none := by
    decide +kernel
  obtain ⟨queue, gone, absent⟩ := first
  have idle := (course_abandoned.stale_notice queue (by simp [isMine]) (by simp [gone])).1 absent
  have second : revisited.store.outbox = [.session 0 .connected] ++
      .children 0 revisited.sync.mailbox home [Percent.encode leaving.canonical] :: [] ∧
      revisited.store.watches.get? 0 = none ∧ home ≠ revisited.sync.root ∧
      (revisited.sync.watched.get? home).isNone = false ∧ consumer ∈ revisited.sync.registry.queries ∧
      ¬ (Registry.share consumer (revisited.told home [Percent.encode leaving.canonical]) "providers" = [] ∨
        (revisited.sync.registry.cacheOf consumer).get? "providers" =
          some (Registry.merge (revisited.sync.registry.listOf consumer "providers") (Registry.share consumer
            (revisited.told home [Percent.encode leaving.canonical]) "providers"))) := by
    decide +kernel
  obtain ⟨queue', gone', below, watched, subscribed, other⟩ := second
  have exactly := (course_revisited.stale_notice queue' (by simp [isMine]) (by simp [gone'])).2.1 below
  refine ⟨course_abandoned, course_revisited, by rw [idle]; rfl, by rw [idle], fun same => ?_⟩
  rcases exactly.1 same with unwatched | already
  · rw [unwatched] at watched
    cases watched
  · exact other (already consumer subscribed "providers")

end Stale

end ServiceGovernance.Synced
