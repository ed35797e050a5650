import ServiceGovernance.Proofs.Synced.Events
import ServiceGovernance.Proofs.Synced.Reading

/-!
When the list cached for a query is current after the children of a category have been processed. It is
if the query asks for one of the updates that the children make. Otherwise the list stays what it was:
a query that asks for none of the endpoints there, nor for the sentinel, keeps those that have left.
-/

namespace ServiceGovernance

open SyncedRegistry Store.Path

namespace Synced

variable {s t : Synced} {query owner narrowed e : Endpoint} {interface category : String}
  {names : List String} {asked : List Endpoint}

/-- The members cached of an interface and a category are the endpoints among the children that the
query asks for. -/
def Current (s : Synced) (query : Endpoint) (interface category : String) (names : List String) : Prop :=
  ∃ endpoints, (s.sync.registry.cacheOf query).get? category = some endpoints ∧
    ∀ e, e ∈ Endpoint.members endpoints ∧ e.interface = interface ↔
      e ∈ names.filterMap decodeChild? ∧ query.admits e = true

/-- The endpoints among the children have been registered under this interface and category. -/
def Filed (interface category : String) (names : List String) : Prop :=
  ∀ e ∈ names.filterMap decodeChild?, e.interface = interface ∧ e.category = category

/-- All children of a category have been processed on behalf of the queries asked for: either a notice
has told them, or they have been read together with the other categories of a query. -/
inductive Processes (interface category : String) :
    Synced → List String → List Endpoint → Synced → Prop where
  | told {s : Synced} {names : List String}
      (watched : (s.sync.watched.get? (categoryPath s.sync.root interface category)).isSome = true)
      (filed : Filed interface category names) :
      Processes interface category s names
        ((s.ownersOf (categoryPath s.sync.root interface category)).map (·.2))
        (s.handleChildren (categoryPath s.sync.root interface category) names)
  | read {s t : Synced} {owner narrowed : Endpoint} (scope : narrowed.interface = interface)
      (flat : FlatQuery narrowed) (listed : category ∈ narrowed.expandedCategories)
      (filed : ∀ other ∈ narrowed.expandedCategories,
        Filed interface other (t.store.children (categoryPath s.sync.root interface other)))
      (done : s.watchCategories owner narrowed = (.ok (), t)) :
      Processes interface category s
        (t.store.children (categoryPath s.sync.root interface category)) [narrowed] t

section Updates

theorem mem_decodeChildren :
    e ∈ decodeChildren narrowed category names ↔ e ∈ names.filterMap decodeChild? ∨
      names.filterMap decodeChild? = [] ∧ e = Endpoint.sentinel narrowed category := by
  unfold decodeChildren
  split
  · next none_there => simp [none_there]
  · next filled => exact (or_iff_left fun both => filled both.1).symm

theorem mem_distinct {endpoints : List Endpoint} : e ∈ distinct endpoints ↔ e ∈ endpoints := by
  suffices general : ∀ seen : List Endpoint, e ∈ endpoints.foldl (fun seen e =>
      if e ∈ seen then seen else seen ++ [e]) seen ↔ e ∈ seen ∨ e ∈ endpoints by
    simpa [distinct] using general []
  induction endpoints with
  | nil => simp
  | cons first rest ih =>
      intro seen
      rw [List.foldl_cons, ih]
      split
      · next there => grind
      · grind

theorem interface_sentinel (narrowed : Endpoint) (category : String) :
    (Endpoint.sentinel narrowed category).interface = narrowed.interface := by
  simp [Endpoint.sentinel, Endpoint.interface, Endpoint.withProtocol, Endpoint.withParam, Endpoint.param?]

/-- What the children of a category make for the queries asked, sorted under it. -/
theorem filed_decodeChildren (filed : Filed interface category names)
    (scope : narrowed.interface = interface)
    (member : e ∈ decodeChildren narrowed category names) :
    e.interface = interface ∧ e.category = category := by
  rcases mem_decodeChildren.1 member with there | ⟨_, rfl⟩
  · exact filed e there
  · exact ⟨(interface_sentinel narrowed category).trans scope, Endpoint.category_sentinel narrowed category⟩

/-- A share of what the children make speaks of the interface, so nothing that was cached of it stays. -/
theorem mem_merge_share_iff {cached share : List Endpoint} (filed : Filed interface category names)
    (scope : ∀ narrowed ∈ asked, narrowed.interface = interface)
    (share_iff : ∀ e, e ∈ share ↔
      query.admits e = true ∧ ∃ narrowed ∈ asked, e ∈ decodeChildren narrowed category names)
    (filled : share ≠ []) :
    e ∈ Endpoint.members (Registry.merge cached share) ∧ e.interface = interface ↔
      e ∈ names.filterMap decodeChild? ∧ query.admits e = true ∧ e.isSentinel = false := by
  obtain ⟨u, shared⟩ := List.exists_mem_of_ne_nil _ filled
  obtain ⟨_, first, first_asked, u_child⟩ := (share_iff u).1 shared
  rw [Registry.mem_members_merge, Registry.mem_members_iff, share_iff]
  constructor
  · rintro ⟨⟨⟨admitted, narrowed, _, child⟩, real⟩ | ⟨_, unspoken⟩, same⟩
    · rcases mem_decodeChildren.1 child with there | ⟨_, rfl⟩
      · exact ⟨there, admitted, real⟩
      · rw [Endpoint.isSentinel_sentinel] at real
        cases real
    · have spoken := (filed_decodeChildren filed (scope first first_asked) u_child).1
      exact absurd (spoken.trans same.symm) (unspoken u shared).2
  · rintro ⟨there, admitted, real⟩
    exact ⟨.inl ⟨⟨admitted, first, first_asked, mem_decodeChildren.2 (.inl there)⟩, real⟩,
      (filed e there).1⟩

/-- With updates of which those under the category come from the children, it is the query's share that
decides. -/
theorem current_notify_iff (subscribed : query ∈ s.sync.registry.queries) {updates : List Endpoint}
    (filed : Filed interface category names) (scope : ∀ narrowed ∈ asked, narrowed.interface = interface)
    (updates_iff : ∀ e, e ∈ updates ∧ e.category = category ↔
      ∃ narrowed ∈ asked, e ∈ decodeChildren narrowed category names) :
    (s.notify updates).Current query interface category names ↔
      ((∃ narrowed ∈ asked, ∃ e ∈ decodeChildren narrowed category names, query.admits e = true) ∧
        ∀ e ∈ names.filterMap decodeChild?, query.admits e = true → e.isSentinel = false) ∨
      ((∀ narrowed ∈ asked, ∀ e ∈ decodeChildren narrowed category names, query.admits e = false) ∧
        s.Current query interface category names) := by
  have share_iff : ∀ e, e ∈ Registry.share query updates category ↔
      query.admits e = true ∧ ∃ narrowed ∈ asked, e ∈ decodeChildren narrowed category names := by
    intro e
    rw [Registry.mem_share_iff, ← updates_iff]
    exact and_left_comm
  have cached := Registry.get?_cacheOf_notify subscribed updates category
  by_cases some_share :
      ∃ narrowed ∈ asked, ∃ e ∈ decodeChildren narrowed category names, query.admits e = true
  · obtain ⟨first, first_asked, u, u_child, wanted⟩ := some_share
    have u_shared : u ∈ Registry.share query updates category :=
      (share_iff u).2 ⟨wanted, first, first_asked, u_child⟩
    have not_none : Registry.share query updates category ≠ [] := List.ne_nil_of_mem u_shared
    rw [if_neg not_none] at cached
    have refuted : ¬ ∀ narrowed ∈ asked, ∀ e ∈ decodeChildren narrowed category names,
        query.admits e = false := by
      intro none_wanted
      simp [none_wanted first first_asked u u_child] at wanted
    have members_iff : ∀ e, e ∈ Endpoint.members (Registry.merge (s.sync.registry.listOf query category)
        (Registry.share query updates category)) ∧ e.interface = interface ↔
          e ∈ names.filterMap decodeChild? ∧ query.admits e = true ∧ e.isSentinel = false :=
      fun _ => mem_merge_share_iff filed scope share_iff not_none
    rw [or_iff_left fun both => refuted both.1, and_iff_right ⟨first, first_asked, u, u_child, wanted⟩]
    constructor
    · rintro ⟨endpoints, found, exactly⟩ e there admitted
      cases cached.symm.trans found
      exact ((members_iff e).1 ((exactly e).2 ⟨there, admitted⟩)).2.2
    · intro real
      refine ⟨_, cached, fun e => (members_iff e).trans ?_⟩
      exact ⟨fun all => ⟨all.1, all.2.1⟩, fun both => ⟨both.1, both.2, real e both.1 both.2⟩⟩
  · have no_share : Registry.share query updates category = [] :=
      List.eq_nil_iff_forall_not_mem.2 fun e member => by
        obtain ⟨admitted, narrowed, there, child⟩ := (share_iff e).1 member
        exact some_share ⟨narrowed, there, e, child, admitted⟩
    rw [if_pos no_share] at cached
    have none_wanted : ∀ narrowed ∈ asked, ∀ e ∈ decodeChildren narrowed category names,
        query.admits e = false := by
      intro narrowed there e child
      exact Bool.eq_false_iff.2 fun admitted => some_share ⟨narrowed, there, e, child, admitted⟩
    have same : (s.notify updates).Current query interface category names ↔
        s.Current query interface category names :=
      exists_congr fun _ => and_congr_left fun _ => ⟨cached.symm.trans, cached.trans⟩
    rw [or_iff_right fun both => some_share both.1, and_iff_right none_wanted, same]

end Updates

section Scope

/-- The states that a registry can come to, whatever it is asked and whatever store others make of its own. -/
def Reached : Synced → Prop := Run (fun _ _ => True) fun _ _ => True

/-- Any owner that has come to a path since has come to a valid one, which is that of a category only if
the owner's query is narrowed to its interface. -/
structure Scoping (s t : Synced) : Prop where
  root : t.sync.root = s.sync.root
  owners : ∀ path, ∀ owner ∈ t.ownersOf path, owner ∈ s.ownersOf path ∨ isValid path = true ∧
    (path = s.sync.root ∨ ∃ category, path = categoryPath s.sync.root owner.2.interface category)

theorem Scoping.trans {u : Synced} (first : Scoping s t) (second : Scoping t u) : Scoping s u := by
  refine ⟨second.root.trans first.root, fun path owner member => ?_⟩
  rcases second.owners path owner member with member | scope
  · exact first.owners path owner member
  · exact .inr (first.root ▸ scope)

theorem scoping_of_watched (root : t.sync.root = s.sync.root) (watched : t.sync.watched = s.sync.watched) :
    Scoping s t := by
  refine ⟨root, fun path owner member => .inl ?_⟩
  rwa [ownersOf, watched] at member

theorem scoping_watchPath {path : String}
    (scope : path = s.sync.root ∨ ∃ category, path = categoryPath s.sync.root narrowed.interface category) :
    Scoping s (s.watchPath path owner narrowed).2 := by
  have grown : isValid path = true → ∀ (store : Store) (w : WatchedPath),
      w.owners = (addOwner (s.watchedAt path) owner narrowed).owners →
      Scoping s ({ s with store }.putWatched path w) := by
    intro valid store w same
    refine ⟨rfl, fun other pair member => ?_⟩
    rw [ownersOf_putWatched] at member
    split at member
    · next here =>
        subst here
        rw [same, mem_owners_addOwner] at member
        rcases member with rfl | member
        · exact .inr ⟨valid, scope⟩
        · exact .inl member
    · exact .inl member
  rcases s.watchPath_cases path owner narrowed with ⟨_, error, failed⟩ | ⟨_, watch, _, done⟩ | ⟨_, _, done⟩
  · rw [failed]
    exact scoping_of_watched rfl rfl
  all_goals
    have valid := isValid_of_watchPath done
    rw [done]
    exact grown valid _ _ rfl

theorem listenerSteps_scoping : ListenerSteps (fun _ => True) Scoping where
  refl _ := scoping_of_watched rfl rfl
  trans := .trans
  watchRoot _ _ _ := scoping_watchPath (.inl rfl)
  watchCategory _ _ _ category _ _ := scoping_watchPath (.inr ⟨category, rfl⟩)
  notify _ _ := scoping_of_watched rfl rfl
  wait _ _ := scoping_of_watched rfl rfl
  listen _ _ _ _ := scoping_of_watched rfl rfl
  leave _ _ _ := scoping_of_watched rfl rfl
  dropPending _ _ := scoping_of_watched rfl rfl
  dropWatches _ _ := ⟨rfl, fun _ _ member => .inl (mem_ownersOf_dropWatches.1 member).1⟩

theorem nodeSteps_scoping : NodeSteps Scoping where
  refl _ := scoping_of_watched rfl rfl
  trans := .trans
  write s e := scoping_of_watched (by rw [sync_writeNode]) (by rw [sync_writeNode])
  remove s e := scoping_of_watched (by rw [sync_removeNode]) (by rw [sync_removeNode])
  enlist _ _ := scoping_of_watched rfl rfl
  delist _ _ := scoping_of_watched rfl rfl
  shelve _ _ _ := scoping_of_watched rfl rfl

theorem scoping_after (s : Synced) (event : Event) : Scoping s (s.after event) := by
  cases event with
  | register e => exact nodeSteps_scoping.register s e
  | unregister e => exact nodeSteps_scoping.unregister s e
  | publish interface rule => exact nodeSteps_scoping.register s _
  | subscribe query listener => exact listenerSteps_scoping.attend trivial listener s
  | unsubscribe query listener => exact listenerSteps_scoping.unsubscribe s query listener
  | retry =>
      exact (nodeSteps_scoping.retryNodes s).trans (foldl_of_steps listenerSteps_scoping.refl .trans
        (fun _ _ _ => listenerSteps_scoping.retrySubscribe fun _ => trivial) _)
  | handle aboutSession =>
      exact listenerSteps_scoping.handleNext nodeSteps_scoping (fun _ _ _ _ _ => scoping_of_watched rfl rfl)
        s aboutSession
  | setOnline online => exact scoping_of_watched rfl rfl
  | expire => exact scoping_of_watched rfl rfl
  | elsewhere store => exact scoping_of_watched rfl rfl

/-- The owners of a category's path are narrowed to its interface. -/
theorem Reached.scoped (reached : Reached s) : ∀ path, ∀ owner ∈ s.ownersOf path, isValid path = true ∧
    (path = s.sync.root ∨ ∃ category, path = categoryPath s.sync.root owner.2.interface category) := by
  induction reached with
  | start => exact fun _ _ member => absurd member List.not_mem_nil
  | @step s before event _ ih =>
      have scoping := s.scoping_after event
      rw [scoping.root]
      exact fun path owner member => (scoping.owners path owner member).elim (ih path owner) id

end Scope

section Processing

theorem handleChildren_categoryPath (plain : '/' ∉ category.toList) (names : List String)
    (watched : (s.sync.watched.get? (categoryPath s.sync.root interface category)).isSome = true) :
    s.handleChildren (categoryPath s.sync.root interface category) names =
      s.notify (distinct ((s.ownersOf (categoryPath s.sync.root interface category)).flatMap fun owner =>
        decodeChildren owner.2 category names)) := by
  have there : ¬ (s.sync.watched.get? (categoryPath s.sync.root interface category)).isNone = true := by
    rw [Option.isNone_iff_eq_none]
    intro absent
    rw [absent] at watched
    cases watched
  have last : lastSegment (categoryPath s.sync.root interface category) = category := lastSegment_join plain
  rw [handleChildren, if_neg (categoryPath_ne_root s.sync.root interface category), handleMembers,
    if_neg there, last]

/-- The cached list is current exactly if the query asks for an update that the children make, and for no
sentinel among the children, or asks for none and the list has been current before. -/
theorem Processes.current_iff (reached : Reached s) (subscribed : query ∈ s.sync.registry.queries)
    (plain : '/' ∉ category.toList) (processed : Processes interface category s names asked t) :
    t.Current query interface category names ↔
      ((∃ narrowed ∈ asked, ∃ e ∈ decodeChildren narrowed category names, query.admits e = true) ∧
        ∀ e ∈ names.filterMap decodeChild?, query.admits e = true → e.isSentinel = false) ∨
      ((∀ narrowed ∈ asked, ∀ e ∈ decodeChildren narrowed category names, query.admits e = false) ∧
        s.Current query interface category names) := by
  cases processed with
  | told watched filed =>
      have scope : ∀ narrowed ∈ (s.ownersOf (categoryPath s.sync.root interface category)).map (·.2),
          narrowed.interface = interface := by
        intro narrowed member
        obtain ⟨owner, owns, rfl⟩ := List.mem_map.1 member
        obtain ⟨other, same⟩ := (reached.scoped _ owner owns).2.resolve_left
          (categoryPath_ne_root s.sync.root interface category)
        exact (categoryPath_inj same).1.symm
      rw [handleChildren_categoryPath plain names watched]
      refine current_notify_iff subscribed filed scope fun e => ?_
      rw [mem_distinct, List.mem_flatMap]
      constructor
      · rintro ⟨⟨owner, owns, child⟩, _⟩
        exact ⟨owner.2, List.mem_map_of_mem owns, child⟩
      · rintro ⟨narrowed, member, child⟩
        have same := (filed_decodeChildren filed (scope narrowed member) child).2
        obtain ⟨owner, owns, rfl⟩ := List.mem_map.1 member
        exact ⟨⟨owner, owns, child⟩, same⟩
  | @read _ _ narrowed scope flat listed filed done =>
      subst scope
      obtain ⟨listing, u, reads, rfl⟩ := watchCategories_eq_ok done
      obtain ⟨_, _, registry, _⟩ := reads.sync_eq
      have read_as := (reads.children_eq flat).2
      have categories := reads.categories_eq
      have earlier : u.Current query narrowed.interface category
          (u.store.children (categoryPath s.sync.root narrowed.interface category)) ↔
            s.Current query narrowed.interface category
              (u.store.children (categoryPath s.sync.root narrowed.interface category)) := by
        rw [Current, Current, registry]
      refine (current_notify_iff (registry ▸ subscribed) (filed category listed) (fun other member => ?_)
        fun e => ?_).trans (or_congr_right (and_congr_right fun _ => earlier))
      · rw [List.mem_singleton.1 member]
      · simp only [List.mem_singleton, exists_eq_left, decodeListing, List.mem_flatMap]
        constructor
        · rintro ⟨⟨⟨other, read⟩, member, child⟩, same⟩
          have other_listed : other ∈ narrowed.expandedCategories := categories ▸ List.mem_map_of_mem member
          rw [read_as _ member] at child
          have filed_as := (filed_decodeChildren (filed other other_listed) rfl child).2
          cases filed_as.symm.trans same
          exact child
        · intro child
          obtain ⟨⟨other, read⟩, member, here⟩ := List.mem_map.1 (categories ▸ listed)
          cases here
          refine ⟨⟨(other, read), member, ?_⟩, (filed_decodeChildren (filed other listed) rfl child).2⟩
          rw [read_as _ member]
          exact child

end Processing

section Departure

def leaving : Endpoint := { protocol := "p", host := "a", port := 1, path := "i" }

def staying : Endpoint :=
  { protocol := "p", host := "b", port := 1, path := "i", params := SortedMap.ofList [("group", "g")] }

/-- A query without a group does not ask for endpoints of a group. -/
def consumer : Endpoint := { protocol := "c", host := "d", port := 1, path := "i" }

def home : String := categoryPath "/r" "i" "providers"

/-- The first subscription while only an endpoint of a group is there. -/
def unanswered : Synced :=
  ((start {} "/r" 5000 5000).after (.register staying)).after (.subscribe consumer 0)

/-- The children have been read without a failure, and yet nothing is cached: a lookup gets no answer. -/
theorem unanswered_not_current :
    Reached unanswered ∧ unanswered.ownersOf home = [(consumer, consumer)] ∧
      unanswered.sync.backlog.subscribed.toList = [] ∧
      (unanswered.store.children home).filterMap decodeChild? = [staying] ∧
      consumer.admits staying = false ∧
      unanswered.sync.registry.cached? consumer = none ∧
      ¬ unanswered.Current consumer "i" "providers" (unanswered.store.children home) := by
  have facts : unanswered.ownersOf home = [(consumer, consumer)] ∧
      unanswered.sync.backlog.subscribed.toList = [] ∧
      (unanswered.store.children home).filterMap decodeChild? = [staying] ∧
        consumer.admits staying = false ∧
      unanswered.sync.registry.cached? consumer = none ∧
      (unanswered.sync.registry.cacheOf consumer).get? "providers" = none := by
    decide +kernel
  obtain ⟨owners, backlog, children, unwanted, unknown, missing⟩ := facts
  have reached : Reached unanswered :=
    .step (.step (.start trivial 5000 5000) _ trivial) _ trivial
  refine ⟨reached, owners, backlog, children, unwanted, unknown, ?_⟩
  rintro ⟨endpoints, found, _⟩
  rw [missing] at found
  cases found

/-- An endpoint that the query asks for comes, and goes again. -/
def departed : Synced :=
  ((((start {} "/r" 5000 5000).after (.register leaving)).after (.register staying)).after
    (.subscribe consumer 0)).after (.unregister leaving)

theorem departed_not_current :
    (departed.store.children home).filterMap decodeChild? = [staying] ∧
      ¬ (departed.handleChildren (categoryPath departed.sync.root "i" "providers")
        (departed.store.children home)).Current consumer "i" "providers"
        (departed.store.children home) := by
  have facts : departed.sync.root = "/r" ∧ (departed.sync.watched.get? home).isSome = true ∧
      consumer ∈ departed.sync.registry.queries ∧ departed.ownersOf home = [(consumer, consumer)] ∧
      (departed.store.children home).filterMap decodeChild? = [staying] ∧
      (departed.sync.registry.cacheOf consumer).get? "providers" = some [leaving] := by
    decide +kernel
  obtain ⟨root, watched, subscribed, owners, children, cached⟩ := facts
  have reached : Reached departed :=
    .step (.step (.step (.step (.start trivial 5000 5000) _ trivial) _ trivial) _ trivial) _ trivial
  have filed : Filed "i" "providers" (departed.store.children home) := by
    rw [Filed, children]
    decide
  have processed := Processes.told (s := departed) (show (departed.sync.watched.get?
    (categoryPath departed.sync.root "i" "providers")).isSome = true from root ▸ watched) filed
  refine ⟨children, fun current => ?_⟩
  rcases (processed.current_iff reached subscribed (by decide)).1 current with
    ⟨⟨narrowed, asked, e, child, wanted⟩, _⟩ | ⟨_, before⟩
  · have only : e = staying := by
      rcases mem_decodeChildren.1 child with there | ⟨nothing, _⟩
      · rw [children] at there
        exact List.mem_singleton.1 there
      · rw [children] at nothing
        cases nothing
    subst only
    cases wanted
  · obtain ⟨endpoints, found, exactly⟩ := before
    cases cached.symm.trans found
    have there := ((exactly leaving).1 (by decide)).1
    rw [children] at there
    revert there
    decide

end Departure

end Synced

end ServiceGovernance
