import ServiceGovernance.Proofs.Synced.Mirror

/-!
Mirrors stay mirrors while they watch and read. A path that is watched anew has not been notified of;
the notification of what has been read makes up for it, for all queries that have the path.
-/

namespace ServiceGovernance.Synced

open SyncedRegistry Store.Path

variable {s t u : Synced} {query narrowed e : Endpoint} {interface category path : String}
  {unread : String → Prop} {owed : Endpoint → Prop} {listing : List (String × List String)}
  {updates : List Endpoint}

/-- A registry has got on without changing what it is asked for, and all others have been told of what has
come meanwhile. -/
structure AllAhead (s t : Synced) : Prop extends Ahead s t where
  queries : t.sync.registry.queries = s.sync.registry.queries
  online : t.store.online = s.store.online
  others : ∀ other, other ≠ s.sync.mailbox → Later s.sync.root other s.store t.store

/-- Only an offline store can fail an operation, which then has done nothing. -/
def Fails {α : Type} (s : Synced) (result : Except Store.Error α × Synced) : Prop :=
  s.store.online = false ∧ ∃ error, result = (.error error, s)

section AllAhead

theorem Ahead.trans (first : Ahead s t) (second : Ahead t u) : Ahead s u where
  root := second.root.trans first.root
  mailbox := second.mailbox.trans first.mailbox
  owns query path := second.owns query path ∘ first.owns query path
  onward := by
    have onward := second.onward
    rw [first.root, first.mailbox] at onward
    exact first.onward.trans onward

theorem AllAhead.refl : AllAhead s s := ⟨⟨rfl, rfl, fun _ _ => id, .refl⟩, rfl, rfl, fun _ _ => .refl⟩

theorem AllAhead.trans (first : AllAhead s t) (second : AllAhead t u) : AllAhead s u where
  toAhead := first.toAhead.trans second.toAhead
  queries := second.queries.trans first.queries
  online := second.online.trans first.online
  others other apart := by
    have later := second.others other (first.mailbox ▸ apart)
    rw [first.root] at later
    exact (first.others other apart).trans later

/-- What concerns the local registry alone. -/
theorem allAhead_of_store (store : t.store = s.store) (root : t.sync.root = s.sync.root)
    (mailbox : t.sync.mailbox = s.sync.mailbox) (watched : t.sync.watched = s.sync.watched)
    (queries : t.sync.registry.queries = s.sync.registry.queries) : AllAhead s t := by
  refine ⟨⟨root, mailbox, fun query path owns => ?_, store ▸ .refl⟩, queries, congrArg _ store,
    fun _ _ => store ▸ .refl⟩
  rwa [Owns, ownersOf, watched]

end AllAhead

section Watching

theorem Scope.directory (broad : Broad query) (scope : Scope s.sync.root query path narrowed) :
    DirectoryPath s.sync.root path := by
  cases scope with
  | root all => exact .root
  | category named single listed narrows => exact .category named single (category_segment broad listed)

theorem Scope.absolute (absolute : Absolute s.sync.root) (broad : Broad query)
    (scope : Scope s.sync.root query path narrowed) : Absolute path := by
  cases scope with
  | root all => exact absolute
  | category named single listed narrows =>
      exact absolute_categoryPath absolute named (category_segment broad listed)

theorem heard_withDirectory {root : String} {store : Store} (filled : root ≠ "")
    (directory : DirectoryPath root path) :
    Heard root store (withDirectory store path) := by
  unfold withDirectory
  split
  · exact .refl
  · exact heard_planted filled (.inl (.inl directory)) fun _ => rfl

/-- A query has got a path, which has the watch of this number. -/
def withOwner (s : Synced) (store : Store) (path : String) (watch : Nat)
    (query narrowed : Endpoint) : Synced :=
  { s with store }.putWatched path { addOwner (s.watchedAt path) query narrowed with watch := some watch }

theorem mem_ownersOf_withOwner {store : Store} {watch : Nat} {other : String} {pair : Endpoint × Endpoint} :
    pair ∈ (s.withOwner store path watch query narrowed).ownersOf other ↔
      other = path ∧ pair = (query, narrowed) ∨ pair ∈ s.ownersOf other := by
  rw [withOwner, ownersOf_putWatched]
  split
  · next same =>
      subst same
      exact mem_owners_addOwner.trans (or_congr_left (and_iff_right rfl).symm)
  · next apart => exact (or_iff_right fun both => apart both.1).symm

theorem get?_withOwner (s : Synced) (store : Store) (path other : String) (watch : Nat)
    (query narrowed : Endpoint) :
    (s.withOwner store path watch query narrowed).sync.watched.get? other =
      if other = path then some { addOwner (s.watchedAt path) query narrowed with watch := some watch }
      else s.sync.watched.get? other :=
  SortedMap.get?_insert ..

theorem MirrorsExcept.withOwner {store : Store} {watch : Nat} (mirrors : MirrorsExcept unread owed s)
    (subscribed : query ∈ s.sync.registry.queries) (scope : Scope s.sync.root query path narrowed)
    (sound : Sound s.sync.root store) (onward : Onward s.sync.root s.sync.mailbox s.store store)
    (watching : store.watches.get? watch = some ⟨path, s.sync.mailbox⟩)
    (only : ∀ number other, store.watches.get? number = some ⟨other, s.sync.mailbox⟩ →
      number = watch ∨ s.store.watches.get? number = some ⟨other, s.sync.mailbox⟩)
    (alone : ∀ w number, s.sync.watched.get? path = some w → w.watch = some number → number = watch) :
    MirrorsExcept (fun other => unread other ∨ other = path) owed (s.withOwner store path watch query narrowed) ∧
      Ahead s (s.withOwner store path watch query narrowed) ∧
      (s.withOwner store path watch query narrowed).Owns query path := by
  have ahead : Ahead s (s.withOwner store path watch query narrowed) :=
    ⟨rfl, rfl, fun _ _ ⟨other, member⟩ => ⟨other, mem_ownersOf_withOwner.2 (.inr member)⟩, onward⟩
  refine ⟨?_, ahead, narrowed, mem_ownersOf_withOwner.2 (.inl ⟨rfl, rfl⟩)⟩
  exact {
    absolute := mirrors.absolute
    sound := sound
    mailbox := Nat.lt_of_lt_of_le mirrors.mailbox onward.mailboxes
    hears := onward.listens mirrors.hears
    registered := mirrors.registered
    failed := mirrors.failed
    queries := mirrors.queries
    watches := fun other w found => by
      rw [get?_withOwner] at found
      split at found
      · next same =>
          cases found
          exact ⟨watch, rfl, same ▸ watching⟩
      · obtain ⟨number, named, there⟩ := mirrors.watches other w found
        exact ⟨number, named, onward.watches number other there⟩
    recorded := fun number other found => by
      rw [get?_withOwner]
      rcases only number other found with rfl | before
      · cases watching.symm.trans found
        exact ⟨_, if_pos rfl, rfl⟩
      · obtain ⟨w, recorded, named⟩ := mirrors.recorded number other before
        by_cases same : other = path
        · rw [alone w number (same ▸ recorded) named]
          exact ⟨_, if_pos same, rfl⟩
        · exact ⟨w, (if_neg same).trans recorded, named⟩
    owners := fun other owner asked member => by
      rcases mem_ownersOf_withOwner.1 member with ⟨rfl, same⟩ | member
      · cases same
        exact ⟨subscribed, scope⟩
      · exact mirrors.owners other owner asked member
    genuine := fun owner category e member => by
      obtain ⟨publishable, filed, wanted, there⟩ := mirrors.genuine owner category e member
      exact ⟨publishable, filed, wanted,
        onward.directories _ (.interface publishable.named publishable.single) there⟩
    fresh := fun owner interface category ⟨asked, member⟩ read unheard e same => by
      have owns : s.Owns owner (categoryPath s.sync.root interface category) :=
        (mem_ownersOf_withOwner.1 member).elim (fun both => absurd (.inr both.1) read) fun member =>
          ⟨asked, member⟩
      obtain ⟨number, there⟩ := mirrors.watch_of_owns owns
      rw [ahead.children unheard there]
      exact mirrors.fresh owner interface category owns (fun before => read (.inl before))
        (ahead.unheard unheard) e same
    covered := fun online quiet owner owns settled => by
      obtain ⟨online_before, quiet_before⟩ := onward.awake mirrors.hears online quiet
      exact (mirrors.covered online_before quiet_before owner owns settled).ahead mirrors ahead }

theorem MirrorsExcept.watchPath (mirrors : MirrorsExcept unread owed s)
    (subscribed : query ∈ s.sync.registry.queries)
    (scope : Scope s.sync.root query path narrowed) : Fails s (s.watchPath path query narrowed) ∨
      s.store.online = true ∧ ∃ names t, s.watchPath path query narrowed = (.ok names, t) ∧
        MirrorsExcept (fun other => unread other ∨ other = path) owed t ∧ AllAhead s t ∧ t.Owns query path ∧
        names = t.store.children path := by
  have broad := mirrors.queries query subscribed
  have valid := (scope.absolute mirrors.absolute broad).isValid
  have directory := scope.directory broad
  obtain ⟨sound, later⟩ := heard_withDirectory mirrors.filled directory mirrors.sound
  have online_still := (undisturbed_withDirectory s.store path).online
  rcases s.watchPath_cases path query narrowed with
    ⟨refused, failed⟩ | ⟨online, watch, watching, done⟩ | ⟨online, unwatched, done⟩
  · exact .inl ⟨refused.resolve_left (by simp [valid]), failed⟩
  · have same : { addOwner (s.watchedAt path) query narrowed with watch := some watch } =
        addOwner (s.watchedAt path) query narrowed := by
      rw [← watching, ← watch_addOwner (s.watchedAt path) query narrowed]
    cases recorded : s.sync.watched.get? path with
    | none => simp [watchedAt, recorded] at watching
    | some w =>
        have at_path : s.watchedAt path = w := by rw [watchedAt, recorded, Option.getD_some]
        obtain ⟨number, named, there⟩ := mirrors.watches path w recorded
        have one : number = watch := Option.some.inj (named.symm.trans (at_path ▸ watching))
        subst one
        obtain ⟨after, ahead, owns⟩ := mirrors.withOwner subscribed scope sound (later _).toOnward
          ((later _).watches _ _ there) (fun other path found => .inr ((later _).only other path found))
          (fun v other found watched => by
            cases recorded.symm.trans found
            exact Option.some.inj (watched.symm.trans named))
        rw [Synced.withOwner, same] at after ahead owns
        exact .inr ⟨online, _, _, done, after,
          ⟨ahead, rfl, online_still, fun other _ => later other⟩, owns, rfl⟩
  · have there := isNode_withDirectory s.store path
    have placed := sound_withWatch sound directory there
      (Nat.lt_of_lt_of_le mirrors.mailbox (later s.sync.mailbox).mailboxes)
    obtain ⟨after, ahead, owns⟩ := mirrors.withOwner subscribed scope placed
      ((later _).toOnward.trans (onward_withWatch sound path s.sync.mailbox _))
      (by rw [get?_withWatch, if_pos rfl])
      (fun other path found => by
        rw [get?_withWatch] at found
        split at found
        · next new => exact .inl new
        · exact .inr ((later _).only other path found))
      (fun w number found watched => by
        rw [watchedAt, found, Option.getD_some, watched] at unwatched
        cases unwatched)
    exact .inr ⟨online, _, _, done, after, ⟨ahead, rfl, online_still, fun other apart =>
      (later other).trans (later_withWatch sound path apart)⟩, owns, rfl⟩

end Watching

section Notifying

/-- The children read of a category are known ones, and if nothing is queued they are those of now. -/
structure Report (s : Synced) (interface category : String) (names : List String) : Prop where
  plain : '/' ∉ category.toList
  there : s.store.isNode (categoryPath s.sync.root interface category) = true
  placed : ∀ name ∈ names, ∃ key, childName? (categoryPath s.sync.root interface category) key = some name ∧
    Placed s.sync.root key
  latest : s.Unheard (categoryPath s.sync.root interface category) →
    names = s.store.children (categoryPath s.sync.root interface category)

/-- The updates are those that a listing of categories makes for some queries for the interface. -/
structure Speaks (interface : String) (listing : List (String × List String))
    (updates : List Endpoint) : Prop where
  sourced : ∀ u ∈ updates, ∃ entry ∈ listing, ∃ narrowed : Endpoint, narrowed.interface = interface ∧
    u ∈ decodeChildren narrowed entry.1 entry.2
  complete : ∀ entry ∈ listing, ∃ narrowed : Endpoint, narrowed.interface = interface ∧
    ∀ u ∈ decodeChildren narrowed entry.1 entry.2, u ∈ updates

theorem exists_mem_decodeChildren (narrowed : Endpoint) (category : String) (names : List String) :
    ∃ e, e ∈ decodeChildren narrowed category names := by
  unfold decodeChildren
  split
  · exact ⟨_, List.mem_singleton_self _⟩
  · next filled => exact List.exists_mem_of_ne_nil _ filled

theorem mem_known_notify (subscribed : query ∈ s.sync.registry.queries) :
    e ∈ (s.notify updates).known query category ↔
      e ∈ Endpoint.members (Registry.share query updates category) ∨ e ∈ s.known query category ∧
        ∀ u ∈ Registry.share query updates category, u.interface ≠ Endpoint.anyValue ∧
        u.interface ≠ e.interface :=
  Registry.mem_members_notify subscribed

theorem known_notify_of_not_mem (absent : query ∉ s.sync.registry.queries) (updates : List Endpoint)
    (category : String) : (s.notify updates).known query category = s.known query category := by
  have same := Registry.cacheOf_notify_of_not_mem absent updates
  exact congrArg (fun lists : CategoryLists => Endpoint.members ((lists.get? category).getD [])) same

theorem Broad.admits_of_scope (broad : Broad query) (narrows : Narrows query interface narrowed)
    (listed : category ∈ query.expandedCategories) (same : e.interface = interface)
    (filed : e.category = category) :
    query.admits e = true :=
  (broad.admits_iff e).2 ⟨narrows.wantsInterface same, filed ▸ wantsCategory_of_mem listed⟩

theorem Scope.all {root : String} (scope : Scope root query path narrowed) (top : path = root) :
    query.interface = Endpoint.anyValue := by
  cases scope with
  | root all => exact all
  | category => exact absurd top (categoryPath_ne_root _ _ _)

theorem Scope.of_categoryPath {root : String}
    (scope : Scope root query (categoryPath root interface category) narrowed) :
    interface ≠ "" ∧ interface ≠ Endpoint.anyValue ∧ category ∈ query.expandedCategories ∧
      Narrows query interface narrowed := by
  generalize whole : categoryPath root interface category = path at scope
  cases scope with
  | root all => exact absurd whole (categoryPath_ne_root root interface category)
  | category named single listed narrows =>
      obtain ⟨rfl, rfl⟩ := categoryPath_inj whole
      exact ⟨named, single, listed, narrows⟩

/-- Each update is filed under an entry of the listing, as one of its endpoints or as a sentinel. -/
theorem Speaks.filed (filled : s.sync.root ≠ "") (speaks : Speaks interface listing updates)
    (reported : ∀ entry ∈ listing, Report s interface entry.1 entry.2) {u : Endpoint}
    (member : u ∈ updates) :
    u.interface = interface ∧ ∃ entry ∈ listing, u.category = entry.1 ∧
      (u ∈ entry.2.filterMap decodeChild? ∧ u.Publishable ∨ u.isSentinel = true) := by
  obtain ⟨entry, listed, narrowed, same, child⟩ := speaks.sourced u member
  have report := reported entry listed
  rcases mem_decodeChildren.1 child with decoded | ⟨_, rfl⟩
  · obtain ⟨publishable, interfaces, categories⟩ :=
      publishable_of_decoded filled report.plain report.placed decoded
    exact ⟨interfaces, entry, listed, categories, .inl ⟨decoded, publishable⟩⟩
  · exact ⟨(interface_sentinel narrowed entry.1).trans same, entry, listed,
      Endpoint.category_sentinel narrowed entry.1,
      .inr (Endpoint.isSentinel_sentinel ..)⟩

theorem mem_spoken_iff {names : List String} (filled : s.sync.root ≠ "") (broad : Broad query)
    (narrows : Narrows query interface narrowed)
    (wanted : category ∈ query.expandedCategories) (speaks : Speaks interface listing updates)
    (reported : ∀ entry ∈ listing, Report s interface entry.1 entry.2)
    (listed : (category, names) ∈ listing)
    (unheard : s.Unheard (categoryPath s.sync.root interface category)) (same : e.interface = interface) :
    (e ∈ Endpoint.members (Registry.share query updates category) ∨ e ∈ s.known query category ∧
      ∀ u ∈ Registry.share query updates category, u.interface ≠ Endpoint.anyValue ∧
      u.interface ≠ e.interface) ↔
        e ∈ (s.store.children (categoryPath s.sync.root interface category)).filterMap decodeChild? := by
  have report := reported _ listed
  have filed : ∀ f ∈ names.filterMap decodeChild?, f.Publishable ∧ f.interface = interface ∧
    f.category = category :=
    fun f => publishable_of_decoded filled report.plain report.placed
  have shared_of : ∀ f ∈ updates, f.interface = interface → f.category = category →
      f ∈ Registry.share query updates category := fun f update interfaces categories =>
    Registry.mem_share_iff.2 ⟨update, broad.admits_of_scope narrows wanted interfaces categories,
      categories⟩
  obtain ⟨asked, asked_of, complete⟩ := speaks.complete _ listed
  rw [← report.latest unheard]
  constructor
  · rintro (shared | ⟨_, unspoken⟩)
    · obtain ⟨shared, real⟩ := Registry.mem_members_iff.1 shared
      obtain ⟨update, _, filed_as⟩ := Registry.mem_share_iff.1 shared
      obtain ⟨_, ⟨other, read⟩, there, categories, decoded⟩ := speaks.filed filled reported update
      cases categories.symm.trans filed_as
      rw [report.latest unheard, ← (reported _ there).latest unheard]
      exact (decoded.resolve_right (by simp [real])).1
    · -- There is an update, the sentinel if nothing else, which takes the place of what was known.
      obtain ⟨first, child⟩ := exists_mem_decodeChildren asked category names
      obtain ⟨interfaces, categories⟩ :=
        filed_decodeChildren (fun f decoded => (filed f decoded).2) asked_of child
      have shared := shared_of first (complete first child) interfaces categories
      exact absurd (interfaces.trans same.symm) (unspoken first shared).2
  · intro decoded
    obtain ⟨publishable, interfaces, categories⟩ := filed e decoded
    have update := complete e (mem_decodeChildren.2 (.inl decoded))
    exact .inl (Registry.mem_members_iff.2 ⟨shared_of e update interfaces categories, publishable.real⟩)

/-- A notification brings the queries with a path what has been read there. -/
theorem MirrorsExcept.notify (mirrors : MirrorsExcept unread owed s)
    (speaks : Speaks interface listing updates)
    (single : interface ≠ Endpoint.anyValue)
    (reported : ∀ entry ∈ listing, Report s interface entry.1 entry.2)
    (spoken : ∀ path, unread path → ∃ entry ∈ listing, path = categoryPath s.sync.root interface entry.1) :
    MirrorsExcept (fun _ => False) owed (s.notify updates) := by
  have filled := mirrors.filled
  refine { mirrors with
    genuine := fun query category e member => ?_
    fresh := fun query known_as category owns _ unheard e same => ?_ }
  · by_cases subscribed : query ∈ s.sync.registry.queries
    · rcases (mem_known_notify subscribed).1 member with shared | ⟨before, _⟩
      · obtain ⟨shared, real⟩ := Registry.mem_members_iff.1 shared
        obtain ⟨update, admitted, filed⟩ := Registry.mem_share_iff.1 shared
        obtain ⟨interfaces, entry, listed, _, decoded⟩ := speaks.filed filled reported update
        have publishable := (decoded.resolve_right (by simp [real])).2
        refine ⟨publishable, filed, ?_, ?_⟩
        · simp only [Endpoint.admits, Bool.and_eq_true] at admitted
          exact admitted.1.1.1
        · have report := reported entry listed
          have ours := (mirrors.sound.placed _ report.there).ours (root_mem_ancestors_categoryPath filled _ _)
          refine mirrors.sound.rooted _ report.there ours _ ?_
          rw [ancestors_categoryPath filled _ report.plain, interfaces]
          exact List.mem_append_right _ (List.mem_singleton_self _)
      · exact mirrors.genuine query category e before
    · rw [known_notify_of_not_mem subscribed] at member
      exact mirrors.genuine query category e member
  · obtain ⟨narrowed, owner⟩ := owns
    obtain ⟨subscribed, scope⟩ := mirrors.owners _ query narrowed owner
    obtain ⟨_, _, wanted, narrows⟩ := scope.of_categoryPath
    have broad := mirrors.queries query subscribed
    have before := mirrors.fresh query known_as category ⟨narrowed, owner⟩
    rw [mem_known_notify subscribed]
    by_cases spoken_of : known_as = interface ∧ ∃ entry ∈ listing, entry.1 = category
    · obtain ⟨rfl, ⟨_, names⟩, listed, rfl⟩ := spoken_of
      exact mem_spoken_iff filled broad narrows wanted speaks reported listed unheard same
    · have not_here : ∀ u ∈ Registry.share query updates category,
          u.interface ≠ Endpoint.anyValue ∧ u.interface ≠ known_as := by
        intro u shared
        obtain ⟨update, _, filed⟩ := Registry.mem_share_iff.1 shared
        obtain ⟨interfaces, entry, listed, categories, _⟩ := speaks.filed filled reported update
        rw [interfaces]
        exact ⟨single, fun same => spoken_of ⟨same.symm, entry, listed, categories.symm.trans filed⟩⟩
      have read : ¬ unread (categoryPath s.sync.root known_as category) := by
        intro unread
        obtain ⟨entry, listed, here⟩ := spoken _ unread
        obtain ⟨same, last⟩ := categoryPath_inj here
        exact spoken_of ⟨same, entry, listed, last.symm⟩
      rw [or_iff_right fun shared => (not_here e (Registry.mem_members_iff.1 shared).1).2 same,
        and_iff_left (same ▸ not_here)]
      exact before read unheard e same

end Notifying

section Reading

variable {categories : List String}

theorem MirrorsExcept.readCategories (mirrors : MirrorsExcept unread owed s)
    (subscribed : query ∈ s.sync.registry.queries)
    (narrows : Narrows query interface narrowed) (named : interface ≠ "")
    (single : interface ≠ Endpoint.anyValue)
    (listed : ∀ category ∈ categories, category ∈ query.expandedCategories) (updates : List Endpoint) :
    Fails s (readCategories query narrowed categories updates s) ∨
      ∃ listing t, readCategories query narrowed categories updates s =
          (.ok (updates ++ decodeListing narrowed listing), t) ∧
        Reads query narrowed categories s listing t ∧
        MirrorsExcept (fun path => unread path ∨
          ∃ category ∈ categories, path = categoryPath s.sync.root interface category) owed t ∧
        AllAhead s t ∧
        ∀ category ∈ categories, t.Owns query (categoryPath s.sync.root interface category) := by
  induction categories generalizing unread updates s with
  | nil =>
      refine .inr ⟨[], s, ?_, .done, mirrors.mono (fun _ => .inl) fun _ => id, .refl, fun _ member => ?_⟩
      · unfold Synced.readCategories
        rw [decodeListing, List.flatMap_nil, List.append_nil]
      · cases member
  | cons category categories ih =>
      have interfaces := narrows.interface_eq
      have scope : Scope s.sync.root query (categoryPath s.sync.root interface category) narrowed :=
        .category named single (listed category List.mem_cons_self) narrows
      rcases mirrors.watchPath subscribed scope with
        ⟨offline, error, failed⟩ | ⟨online, names, t, done, first, ahead, owns, _⟩
      · refine .inl ⟨offline, error, ?_⟩
        unfold Synced.readCategories
        rw [interfaces, failed]
      · have rest := ih first (ahead.queries ▸ subscribed)
          (fun other member => listed other (List.mem_cons_of_mem _ member))
          (updates ++ decodeChildren narrowed category names)
        rw [ahead.root] at rest
        rcases rest with ⟨offline, _⟩ | ⟨listing, u, read, reads, after, more, owned⟩
        · rw [ahead.online, online] at offline
          cases offline
        · refine .inr ⟨(category, names) :: listing, u, ?_, .next (interfaces ▸ done) reads,
            after.mono ?_ fun _ => id,
            ahead.trans more, fun other member => ?_⟩
          · unfold Synced.readCategories
            rw [interfaces, done, decodeListing, List.flatMap_cons, ← List.append_assoc]
            exact read
          · rintro path ((unread | rfl) | ⟨other, member, rfl⟩)
            · exact .inl unread
            · exact .inr ⟨category, List.mem_cons_self, rfl⟩
            · exact .inr ⟨other, List.mem_cons_of_mem _ member, rfl⟩
          · rcases List.mem_cons.1 member with rfl | member
            · exact more.owns _ _ owns
            · exact owned other member

theorem speaks_decodeListing (same : narrowed.interface = interface)
    (listing : List (String × List String)) :
    Speaks interface listing (decodeListing narrowed listing) where
  sourced u member := by
    obtain ⟨entry, listed, child⟩ := List.mem_flatMap.1 member
    exact ⟨entry, listed, narrowed, same, child⟩
  complete entry listed := ⟨narrowed, same, fun _ child => List.mem_flatMap.2 ⟨entry, listed, child⟩⟩

theorem allAhead_notify (s : Synced) (updates : List Endpoint) : AllAhead s (s.notify updates) :=
  allAhead_of_store rfl rfl rfl rfl rfl

/-- All categories of an interface, read and notified. -/
theorem MirrorsExcept.watchCategories (mirrors : MirrorsExcept (fun _ => False) owed s)
    (subscribed : query ∈ s.sync.registry.queries)
    (narrows : Narrows query interface narrowed) (named : interface ≠ "")
    (single : interface ≠ Endpoint.anyValue) :
    Fails s (s.watchCategories query narrowed) ∨ ∃ t, s.watchCategories query narrowed = (.ok (), t) ∧
      MirrorsExcept (fun _ => False) owed t ∧ AllAhead s t ∧ t.OwnsAll query interface := by
  have expanded := narrows.expandedCategories_eq
  rcases mirrors.readCategories subscribed narrows named single (fun _ => id) [] with
    ⟨offline, error, failed⟩ | ⟨listing, t, read, reads, after, ahead, owned⟩
  · exact .inl ⟨offline, error, by rw [Synced.watchCategories, expanded, failed]⟩
  · have flat := (mirrors.queries query subscribed).flat
    have listed : ∀ entry ∈ listing, entry.1 ∈ query.expandedCategories := fun entry member =>
      reads.categories_eq ▸ List.mem_map_of_mem member
    have read_as := (reads.children_eq flat).2
    rw [narrows.interface_eq, ← ahead.root] at read_as
    rw [← ahead.root] at owned after
    have reported : ∀ entry ∈ listing, Report t interface entry.1 entry.2 := by
      intro entry member
      obtain ⟨watch, found⟩ := after.watch_of_owns (owned entry.1 (listed entry member))
      refine ⟨flat _ (listed entry member), (after.sound.watched watch _ found).2, ?_, fun _ =>
        read_as entry member⟩
      rw [read_as entry member]
      exact genuine_children after.sound.toGrown _
    have spoken : ∀ path, (False ∨ ∃ category ∈ query.expandedCategories,
        path = categoryPath t.sync.root interface category) →
        ∃ entry ∈ listing, path = categoryPath t.sync.root interface entry.1 := by
      rintro path (⟨⟨⟩⟩ | ⟨category, wanted, rfl⟩)
      rw [← reads.categories_eq] at wanted
      obtain ⟨entry, member, rfl⟩ := List.mem_map.1 wanted
      exact ⟨entry, member, rfl⟩
    refine .inr ⟨t.notify (decodeListing narrowed listing), ?_, ?_, ahead.trans (allAhead_notify t _), owned⟩
    · rw [Synced.watchCategories, expanded, read, List.nil_append]
    · exact after.notify (speaks_decodeListing narrows.interface_eq listing) single reported spoken

end Reading

end ServiceGovernance.Synced
