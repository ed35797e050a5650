import ServiceGovernance.Proofs.Synced.Events
import ServiceGovernance.Proofs.Synced.Registrations

/-!
Upkeep of the nodes of a registry that alone writes below its root. Whatever the store and the session go
through, each registered endpoint that has a place has its node or waits in the backlog. Endpoints and
queries may be of any look; if their categories are single segments, each node that has to go waits in the
backlog as well.
-/

namespace ServiceGovernance.Synced

open SyncedRegistry Store.Path

variable {flat : Prop} {s t u : Synced} {e : Endpoint} {path : String}

/-- What a registry is used for: the endpoints that come to it, whether its sessions may be lost, and whether
all queries are flat; then the endpoints have single categories, too. -/
structure Usage where
  known : Endpoint → Prop
  expiring : Prop
  flat : Prop
  plain : flat → ∀ e, known e → '/' ∉ e.category.toList

variable {usage : Usage} {owed owed' loose loose' : Endpoint → Prop}

/-- What others do with the store, as far as it concerns a registry that writes below its root alone. -/
structure Elsewhere (s : Synced) (store : Store) : Prop where
  below : ∀ rest, store.nodes.get? (s.sync.root ++ "/" ++ rest) =
    s.store.nodes.get? (s.sync.root ++ "/" ++ rest)
  listens : s.sync.mailbox ∈ s.store.listeners → s.sync.mailbox ∈ store.listeners
  notices : ∀ notice, notice.mailbox = s.sync.mailbox → (notice ∈ store.outbox ↔ notice ∈ s.store.outbox)

/-- The events of such a use. Nobody else writes below the root. -/
def Usage.Allows (usage : Usage) (s : Synced) : Event → Prop
  | .register e => usage.known e
  | .unregister e => usage.known e
  | .publish interface rule => usage.known (Endpoint.conditionRule interface rule)
  | .subscribe query _ => usage.flat → FlatQuery query
  | .expire => usage.expiring
  | .elsewhere store => Elsewhere s store
  | _ => True

/-- No notice waits that says that the session is back. -/
def Returned (s : Synced) : Prop := .session s.sync.mailbox .reconnected ∉ s.store.outbox

/-- Each registered endpoint has its node or is in the backlog, but for those that are owed their node; and
in a flat use each node is that of an endpoint that is registered or in the backlog to be removed, but for
loose ones. Nodes that are lost with a session are to be expected again once it is known to be back, and only
where no node goes with another one. -/
structure NodesOrBacklog (usage : Usage) (owed loose : Endpoint → Prop) (s : Synced) : Prop where
  root : Absolute s.sync.root
  listens : s.sync.mailbox ∈ s.store.listeners
  valid : ∀ rest, s.store.isNode (s.sync.root ++ "/" ++ rest) = true →
    isValid (s.sync.root ++ "/" ++ rest) = true
  queries : usage.flat → FlatQueries s
  known : ∀ e ∈ s.sync.registry.registered.toList, usage.known e
  leaving : ∀ e ∈ s.sync.backlog.unregistered.toList, usage.known e
  failed : ∀ e ∈ s.sync.backlog.registered.toList, e ∈ s.sync.registry.registered.toList
  apart : ∀ e ∈ s.sync.backlog.unregistered.toList, e ∉ s.sync.registry.registered.toList
  settled : ∀ e ∈ s.sync.registry.registered.toList, ¬ owed e → e ∈ s.sync.backlog.registered.toList ∨
    e.Placeable ∧ (Unnested usage.known s.sync.root → (usage.expiring → s.Returned) →
      s.store.isNode (nodePath s.sync.root e) = true)
  owned : usage.flat → ∀ path node, s.store.nodes.get? path = some node → Leaf s.sync.root path →
    ∃ e, nodePath s.sync.root e = path ∧ node.ephemeral = e.isDynamic ∧
      (e ∈ s.sync.registry.registered.toList ∨ e ∈ s.sync.backlog.unregistered.toList ∨ loose e)

section NodesOrBacklog

theorem isNode_congr {store other : Store} {path : String}
    (same : store.nodes.get? path = other.nodes.get? path) :
    store.isNode path = other.isNode path := by
  simp only [Store.isNode, SortedMap.contains, same]

theorem NodesOrBacklog.congr (holds : NodesOrBacklog usage owed loose s)
    (same : SameRegistrations usage.flat s t) : NodesOrBacklog usage owed loose t := by
  have returned : t.Returned → s.Returned := fun quiet queued => by
    rw [Returned, same.mailbox] at quiet
    exact quiet ((same.session.sessions _ _).2 queued)
  refine ⟨same.root ▸ holds.root, ?_, ?_, fun plain => same.queries plain (holds.queries plain),
    ?_, ?_, ?_, ?_, ?_, ?_⟩
  · rw [same.mailbox, same.listeners]
    exact holds.listens
  · rw [same.root]
    exact fun rest there => (same.valid _ there).elim (holds.valid rest) id
  · rw [same.registered]
    exact holds.known
  · rw [same.removed]
    exact holds.leaving
  · rw [same.failed, same.registered]
    exact holds.failed
  · rw [same.removed, same.registered]
    exact holds.apart
  · rw [same.registered, same.failed, same.root]
    refine fun e member settled => (holds.settled e member settled).imp_right fun ⟨placeable, there⟩ =>
      ⟨placeable, fun unnested quiet => ?_⟩
    exact same.nodes _ (there unnested fun lost => returned (quiet lost))
  · rw [same.root, same.registered, same.removed]
    intro plain path node found leaf
    exact holds.owned plain path node (same.leaves plain path leaf ▸ found) leaf

/-- Owing less to more endpoints than necessary does no harm. -/
theorem NodesOrBacklog.mono (holds : NodesOrBacklog usage owed loose s)
    (owes : ∀ e ∈ s.sync.registry.registered.toList, owed e → owed' e) (loosens : ∀ e, loose e → loose' e) :
    NodesOrBacklog usage owed' loose' s := by
  refine { holds with
    settled := fun e member settled => holds.settled e member fun owing => settled (owes e member owing)
    owned := fun plain path node found leaf => ?_ }
  obtain ⟨e, place, brief, owner⟩ := holds.owned plain path node found leaf
  exact ⟨e, place, brief, owner.imp_right (.imp_right (loosens e))⟩

theorem NodesOrBacklog.withFailed {failed : SortedSet Endpoint} (holds : NodesOrBacklog usage owed loose s)
    (inside : ∀ e ∈ failed.toList, e ∈ s.sync.registry.registered.toList)
    (settled : ∀ e ∈ s.sync.registry.registered.toList, ¬ owed' e → e ∈ failed.toList ∨
      e.Placeable ∧ (Unnested usage.known s.sync.root → (usage.expiring → s.Returned) →
        s.store.isNode (nodePath s.sync.root e) = true)) :
    NodesOrBacklog usage owed' loose (s.withBacklog { s.sync.backlog with registered := failed }) where
  root := holds.root
  listens := holds.listens
  valid := holds.valid
  queries plain := ⟨(holds.queries plain).subscribed, (holds.queries plain).owners⟩
  known := holds.known
  leaving := holds.leaving
  failed := inside
  apart := holds.apart
  settled := settled
  owned := holds.owned

theorem NodesOrBacklog.withRemoved {removed : SortedSet Endpoint} (holds : NodesOrBacklog usage owed loose s)
    (leaving : ∀ e ∈ removed.toList, usage.known e)
    (apart : ∀ e ∈ removed.toList, e ∉ s.sync.registry.registered.toList)
    (owned : usage.flat → ∀ path node, s.store.nodes.get? path = some node → Leaf s.sync.root path →
      ∃ e, nodePath s.sync.root e = path ∧ node.ephemeral = e.isDynamic ∧
        (e ∈ s.sync.registry.registered.toList ∨ e ∈ removed.toList ∨ loose' e)) :
    NodesOrBacklog usage owed loose' (s.withBacklog { s.sync.backlog with unregistered := removed }) where
  root := holds.root
  listens := holds.listens
  valid := holds.valid
  queries plain := ⟨(holds.queries plain).subscribed, (holds.queries plain).owners⟩
  known := holds.known
  leaving := leaving
  failed := holds.failed
  apart := apart
  settled := holds.settled
  owned := owned

/-- A store in which registered endpoints keep their nodes, and others have come for registered endpoints
only. -/
theorem NodesOrBacklog.withStore {store : Store} (holds : NodesOrBacklog usage owed loose s)
    (listens : s.sync.mailbox ∈ s.store.listeners → s.sync.mailbox ∈ store.listeners)
    (valid : ∀ rest, store.isNode (s.sync.root ++ "/" ++ rest) = true →
      s.store.isNode (s.sync.root ++ "/" ++ rest) = true ∨ isValid (s.sync.root ++ "/" ++ rest) = true)
    (stays : ∀ f ∈ s.sync.registry.registered.toList, ¬ owed f → f.Placeable →
      Unnested usage.known s.sync.root → (usage.expiring → Returned { s with store }) →
        (usage.expiring → s.Returned) ∧ (s.store.isNode (nodePath s.sync.root f) = true →
          store.isNode (nodePath s.sync.root f) = true))
    (owned : usage.flat → ∀ path node, store.nodes.get? path = some node → Leaf s.sync.root path →
      s.store.nodes.get? path = some node ∨ ∃ e ∈ s.sync.registry.registered.toList,
        nodePath s.sync.root e = path ∧ node.ephemeral = e.isDynamic) :
    NodesOrBacklog usage owed loose { s with store } where
  root := holds.root
  listens := listens holds.listens
  valid rest there := (valid rest there).elim (holds.valid rest) id
  queries plain := ⟨(holds.queries plain).subscribed, (holds.queries plain).owners⟩
  known := holds.known
  leaving := holds.leaving
  failed := holds.failed
  apart := holds.apart
  settled f member settled := (holds.settled f member settled).imp_right fun ⟨place, there⟩ =>
    ⟨place, fun unnested quiet =>
      have ⟨before, still⟩ := stays f member settled place unnested quiet
      still (there unnested before)⟩
  owned plain path node found leaf := by
    rcases owned plain path node found leaf with before | ⟨e, member, place, brief⟩
    · exact holds.owned plain path node before leaf
    · exact ⟨e, place, brief, .inl member⟩

theorem NodesOrBacklog.isValid_nodePath (holds : NodesOrBacklog usage owed loose s)
    (there : s.store.isNode (nodePath s.sync.root e) = true) : isValid (nodePath s.sync.root e) = true := by
  obtain ⟨rest, below⟩ := (@leaf_nodePath s.sync.root e).1
  rw [below] at there ⊢
  exact holds.valid rest there

theorem NodesOrBacklog.placeable (holds : NodesOrBacklog usage owed loose s)
    (there : s.store.isNode (nodePath s.sync.root e) = true) : e.Placeable :=
  (isValid_nodePath_iff_placeable holds.root).1 (holds.isValid_nodePath there)

end NodesOrBacklog

/-- Nothing has come to the backlog, and no directory has gone. -/
structure BacklogShrinks (s t : Synced) : Prop where
  root : t.sync.root = s.sync.root
  mailbox : t.sync.mailbox = s.sync.mailbox
  registered : t.sync.registry.registered = s.sync.registry.registered
  session : Store.Undisturbed s.store t.store
  directories : ∀ path, slashes path < slashes s.sync.root + 3 → s.store.isNode path = true →
    t.store.isNode path = true
  failed : ∀ e ∈ t.sync.backlog.registered.toList, e ∈ s.sync.backlog.registered.toList
  removed : ∀ e ∈ t.sync.backlog.unregistered.toList, e ∈ s.sync.backlog.unregistered.toList

section Nodes

theorem BacklogShrinks.refl : BacklogShrinks s s :=
  ⟨rfl, rfl, rfl, .refl, fun _ _ => id, fun _ => id, fun _ => id⟩

theorem BacklogShrinks.trans (first : BacklogShrinks s t) (second : BacklogShrinks t u) :
    BacklogShrinks s u where
  root := second.root.trans first.root
  mailbox := second.mailbox.trans first.mailbox
  registered := second.registered.trans first.registered
  session := first.session.trans second.session
  directories path short there :=
    second.directories path (first.root ▸ short) (first.directories path short there)
  failed e waits := first.failed e (second.failed e waits)
  removed e waits := first.removed e (second.removed e waits)

theorem backlogShrinks_of_store {store : Store} (session : Store.Undisturbed s.store store)
    (directories : ∀ path, slashes path < slashes s.sync.root + 3 → s.store.isNode path = true →
      store.isNode path = true) : BacklogShrinks s { s with store } :=
  ⟨rfl, rfl, rfl, session, directories, fun _ => id, fun _ => id⟩

theorem SameRegistrations.shrinks (same : SameRegistrations flat s t) : BacklogShrinks s t where
  root := same.root
  mailbox := same.mailbox
  registered := same.registered
  session := same.session
  directories path _ := same.nodes path
  failed _ waits := same.failed ▸ waits
  removed _ waits := same.removed ▸ waits

/-- A node is refused only while the store is offline, or to an endpoint that has no place. -/
theorem NodesOrBacklog.writeNode (holds : NodesOrBacklog usage owed loose s)
    (here : e ∈ s.sync.registry.registered.toList) :
    ((s.store.online = true → ¬ e.Placeable) ∧ ∃ error, s.writeNode e = (.error error, s)) ∨
    ∃ store, s.writeNode e = (.ok (), { s with store }) ∧ NodesOrBacklog usage owed loose { s with store } ∧
      store.isNode (nodePath s.sync.root e) = true ∧ BacklogShrinks s { s with store } := by
  rcases s.ensureNode_cases (nodePath s.sync.root e) e.isDynamic with
    ⟨refused, failed⟩ | ⟨_, there, done⟩ | ⟨_, _, done⟩
  · refine .inl ⟨fun online placeable => ?_, failed⟩
    have valid := (isValid_nodePath_iff_placeable holds.root).2 placeable
    rcases refused with invalid | offline
    · rw [valid] at invalid
      cases invalid
    · rw [online] at offline
      cases offline
  · exact .inr ⟨s.store, done, holds, there, .refl⟩
  · have valid := isValid_of_ensureNode done
    have told := s.store.told_of_planted (nodePath s.sync.root e) e.isDynamic
    have session := s.store.undisturbed_planted (nodePath s.sync.root e) e.isDynamic
    have stays : ∀ path, s.store.isNode path = true →
        (s.store.planted (nodePath s.sync.root e) e.isDynamic).isNode path = true :=
      fun path there => (s.store.isNode_planted ..).2 (.inr (.inr there))
    refine .inr ⟨_, done, holds.withStore (told.listeners ▸ id)
      (fun rest there => isNode_or_isValid_of_planted valid there)
      (fun f _ _ _ _ quiet => ⟨fun lost queued => ?returned, stays _⟩) fun plain path node found leaf => ?owned,
      (s.store.isNode_planted ..).2 (.inl rfl), backlogShrinks_of_store session fun path _ => stays path⟩
    case returned => exact quiet lost ((session.sessions _ _).2 queued)
    case owned =>
      by_cases same : path = nodePath s.sync.root e
      · rw [same, Store.get?_planted, if_pos rfl] at found
        cases found
        exact .inr ⟨e, here, same.symm, rfl⟩
      · have deep := slashes_nodePath (usage.plain plain e (holds.known e here)) s.sync.root
        exact .inl ((get?_planted_leaf (Nat.le_of_eq deep) leaf same).symm.trans found)

/-- What is less deep than the nodes of endpoints does not go with one of them. -/
theorem isNode_pruned_of_short (short : slashes path < slashes s.sync.root + 3)
    (there : s.store.isNode path = true) : (s.store.pruned (nodePath s.sync.root e)).isNode path = true := by
  have deep := (@leaf_nodePath s.sync.root e).2
  refine Store.isNode_pruned.2 ⟨⟨fun same => ?_, Bool.eq_false_iff.2 fun below => ?_⟩, there⟩
  · rw [same] at short
    omega
  · obtain ⟨rest, rfl⟩ := (isBelow_iff leaf_nodePath.ne_rootPath).1 below
    rw [slashes_join] at short
    omega

/-- To remove the node of an endpoint that is not registered takes nothing from the others. -/
theorem NodesOrBacklog.removeNode (holds : NodesOrBacklog usage owed loose s) (known : usage.known e)
    (absent : e ∉ s.sync.registry.registered.toList) :
    (s.store.online = false ∧ ∃ error, s.removeNode e = (.error error, s)) ∨
    ∃ store, s.removeNode e = (.ok (), { s with store }) ∧ NodesOrBacklog usage owed loose { s with store } ∧
      store.isNode (nodePath s.sync.root e) = false ∧ BacklogShrinks s { s with store } := by
  rcases s.removeNode_cases e with failed | ⟨missing, done⟩ | ⟨_, there, done⟩
  · exact .inl failed
  · refine .inr ⟨s.store, done, holds, Bool.eq_false_iff.2 fun there => ?_, .refl⟩
    rcases missing with invalid | missing
    · rw [holds.isValid_nodePath there] at invalid
      cases invalid
    · rw [there] at missing
      cases missing
  · have session := s.store.undisturbed_pruned (nodePath s.sync.root e)
    have listeners : (s.store.pruned (nodePath s.sync.root e)).listeners = s.store.listeners := by
      rw [Store.pruned_eq]
      rfl
    refine .inr ⟨_, done, holds.withStore (listeners ▸ id)
      (fun rest there => .inl (Store.isNode_pruned.1 there).2)
      (fun f member _ place unnested quiet => ⟨fun lost queued => ?returned, fun stands => ?stays⟩)
      (fun plain path node found leaf => ?owned), ?gone,
      backlogShrinks_of_store session fun _ => isNode_pruned_of_short⟩
    case returned => exact quiet lost ((session.sessions _ _).2 queued)
    case stays =>
      have apart : e ≠ f := fun same => absent (same ▸ member)
      exact Store.isNode_pruned.2 ⟨unnested e f known (holds.known f member) (holds.placeable there)
        place apart, stands⟩
    case owned =>
      rw [Store.get?_pruned] at found
      split at found
      · cases found
      · exact .inl found
    case gone =>
      rw [Bool.eq_false_iff]
      exact fun still => (Store.isNode_pruned.1 still).1.1 rfl

end Nodes

section Operations

variable {items : List Endpoint}

theorem NodesOrBacklog.recoverEndpoint (holds : NodesOrBacklog usage owed loose s)
    (here : e ∈ s.sync.registry.registered.toList) :
    NodesOrBacklog usage (fun f => owed f ∧ f ≠ e) loose (s.recoverEndpoint e) := by
  unfold Synced.recoverEndpoint
  rcases holds.writeNode here with ⟨_, error, failed⟩ | ⟨store, done, written, there, _⟩
  · rw [failed]
    refine holds.withFailed (fun f waits => ?_) fun f member settled => ?_
    · exact (SortedSet.mem_toList_add.1 waits).elim (· ▸ here) (holds.failed f)
    · by_cases same : f = e
      · exact .inl (SortedSet.mem_toList_add.2 (.inl same))
      · exact (holds.settled f member fun owing => settled ⟨owing, same⟩).imp_left fun waits =>
          SortedSet.mem_toList_add.2 (.inr waits)
  · rw [done]
    dsimp only
    refine { written with settled := fun f member settled => ?_ }
    by_cases same : f = e
    · subst same
      exact .inr ⟨written.placeable there, fun _ _ => there⟩
    · exact written.settled f member fun owing => settled ⟨owing, same⟩

theorem registry_recoverEndpoint (s : Synced) (e : Endpoint) :
    (s.recoverEndpoint e).sync.registry = s.sync.registry := by
  unfold recoverEndpoint writeNode
  rcases s.ensureNode_cases (nodePath s.sync.root e) e.isDynamic with
    ⟨_, error, failed⟩ | ⟨_, _, done⟩ | ⟨_, _, done⟩
  · rw [failed]; rfl
  · rw [done]
  · rw [done]

theorem NodesOrBacklog.foldl_recoverEndpoint (holds : NodesOrBacklog usage owed loose s)
    (here : ∀ e ∈ items, e ∈ s.sync.registry.registered.toList) :
    NodesOrBacklog usage (fun f => owed f ∧ f ∉ items) loose (items.foldl Synced.recoverEndpoint s) ∧
      (items.foldl Synced.recoverEndpoint s).sync.registry = s.sync.registry := by
  induction items generalizing s owed with
  | nil => exact ⟨holds.mono (fun e _ owing => ⟨owing, List.not_mem_nil⟩) fun _ => id, rfl⟩
  | cons e items ih =>
      have registry := registry_recoverEndpoint s e
      have first := holds.recoverEndpoint (here e List.mem_cons_self)
      obtain ⟨rest, same⟩ := ih first fun f member => by
        rw [registry]
        exact here f (List.mem_cons_of_mem _ member)
      refine ⟨rest.mono (fun f _ owing => ⟨owing.1.1, ?_⟩) fun _ => id, same.trans registry⟩
      exact fun member => (List.mem_cons.1 member).elim owing.1.2 owing.2

/-- Recovery pays what is owed. -/
theorem NodesOrBacklog.recover (holds : NodesOrBacklog usage owed loose s) :
    NodesOrBacklog usage (fun _ => False) loose s.recover := by
  obtain ⟨written, registry⟩ := holds.foldl_recoverEndpoint fun e member => member
  have settled : NodesOrBacklog usage (fun _ => False) loose
      (s.sync.registry.registered.toList.foldl Synced.recoverEndpoint s) :=
    written.mono (fun e member owing => owing.2 (registry ▸ member)) fun _ => id
  refine settled.congr (.foldl (fun t _ query member => ?_) settled.queries)
  exact listenerSteps_sameRegistrations.recoverQuery
    (fun plain => (holds.queries plain).subscribed query member) t

theorem NodesOrBacklog.register (holds : NodesOrBacklog usage (fun _ => False) loose s)
    (known : usage.known e) : NodesOrBacklog usage (fun _ => False) loose (s.register e) := by
  have added : ∀ f, f ∈ (s.sync.registry.registered.add e).toList ↔
      f = e ∨ f ∈ s.sync.registry.registered.toList := fun f => SortedSet.mem_toList_add
  have begun : NodesOrBacklog usage (· = e) loose
      ((s.withRegistry (s.sync.registry.register e)).withBacklog (s.sync.backlog.forget e)) := by
    refine { holds with
      queries := fun plain => ⟨(holds.queries plain).subscribed, (holds.queries plain).owners⟩
      known := fun f member => ((added f).1 member).elim (· ▸ known) (holds.known f)
      leaving := fun f member => holds.leaving f (SortedSet.mem_toList_erase.1 member).2
      failed := fun f member => (added f).2 (.inr (holds.failed f (SortedSet.mem_toList_erase.1 member).2))
      apart := fun f member => ?_
      settled := fun f member settled => ?_
      owned := fun plain path node found leaf => ?_ }
    · obtain ⟨other, waits⟩ := SortedSet.mem_toList_erase.1 member
      exact fun there => ((added f).1 there).elim other (holds.apart f waits)
    · have there := ((added f).1 member).resolve_left settled
      exact (holds.settled f there id).imp_left fun waits => SortedSet.mem_toList_erase.2 ⟨settled, waits⟩
    · obtain ⟨f, place, brief, owner⟩ := holds.owned plain path node found leaf
      refine ⟨f, place, brief, ?_⟩
      by_cases same : f = e
      · exact .inl ((added f).2 (.inl same))
      · refine owner.imp (fun there => (added f).2 (.inr there)) (.imp_left fun waits => ?_)
        exact SortedSet.mem_toList_erase.2 ⟨same, waits⟩
  refine (begun.recoverEndpoint ((added e).2 (.inl rfl))).mono ?_ fun _ => id
  exact fun f _ owing => owing.2 owing.1

/-- A node that is gone needs no owner. -/
theorem NodesOrBacklog.settle (holds : NodesOrBacklog usage owed loose s)
    (gone : s.store.isNode (nodePath s.sync.root e) = false) :
    NodesOrBacklog usage owed (fun f => loose f ∧ f ≠ e)
      (s.withBacklog { s.sync.backlog with unregistered := s.sync.backlog.unregistered.erase e }) := by
  refine holds.withRemoved (fun f member => holds.leaving f (SortedSet.mem_toList_erase.1 member).2)
    (fun f member => holds.apart f (SortedSet.mem_toList_erase.1 member).2)
    fun plain path node found leaf => ?_
  obtain ⟨f, rfl, brief, owner⟩ := holds.owned plain path node found leaf
  have other : f ≠ e := by
    rintro rfl
    exact absurd (Store.isNode_iff.2 ⟨node, found⟩) (Bool.eq_false_iff.1 gone)
  refine ⟨f, rfl, brief, owner.imp_right (.imp ?_ fun free => ⟨free, other⟩)⟩
  exact fun waits => SortedSet.mem_toList_erase.2 ⟨other, waits⟩

/-- A loose node goes, or else waits in the backlog to go. -/
theorem NodesOrBacklog.removeLoose (holds : NodesOrBacklog usage owed (· = e) s) (known : usage.known e)
    (absent : e ∉ s.sync.registry.registered.toList) :
    NodesOrBacklog usage owed (fun _ => False) (match s.removeNode e with
      | (.ok (), s) => s
      | (.error _, s) =>
          s.withBacklog { s.sync.backlog with unregistered := s.sync.backlog.unregistered.add e }) := by
  rcases holds.removeNode known absent with ⟨_, error, failed⟩ | ⟨store, done, removed, gone, _⟩
  · rw [failed]
    dsimp only
    refine holds.withRemoved (fun f waits => ?_) (fun f waits => ?_) fun plain path node found leaf => ?_
    · exact (SortedSet.mem_toList_add.1 waits).elim (· ▸ known) (holds.leaving f)
    · exact (SortedSet.mem_toList_add.1 waits).elim (· ▸ absent) (holds.apart f)
    · obtain ⟨f, place, brief, owner⟩ := holds.owned plain path node found leaf
      refine ⟨f, place, brief, owner.imp_right fun waits => .inl ?_⟩
      exact SortedSet.mem_toList_add.2 waits.symm
  · rw [done]
    dsimp only
    refine { removed with owned := fun plain path node found leaf => ?_ }
    obtain ⟨f, rfl, brief, owner⟩ := removed.owned plain path node found leaf
    refine ⟨f, rfl, brief, owner.imp_right (.imp_right ?_)⟩
    rintro rfl
    exact absurd (Store.isNode_iff.2 ⟨node, found⟩) (Bool.eq_false_iff.1 gone)

theorem NodesOrBacklog.unregister (holds : NodesOrBacklog usage owed (fun _ => False) s)
    (known : usage.known e) : NodesOrBacklog usage owed (fun _ => False) (s.unregister e) := by
  have fewer : ∀ f, f ∈ SortedSet.toList (s.sync.registry.registered.erase e) ↔
      f ≠ e ∧ f ∈ s.sync.registry.registered.toList := fun f => SortedSet.mem_toList_erase
  have begun : NodesOrBacklog usage owed (· = e)
      ((s.withRegistry (s.sync.registry.unregister e)).withBacklog (s.sync.backlog.forget e)) := by
    refine { holds with
      queries := fun plain => ⟨(holds.queries plain).subscribed, (holds.queries plain).owners⟩
      known := fun f member => holds.known f ((fewer f).1 member).2
      leaving := fun f member => holds.leaving f (SortedSet.mem_toList_erase.1 member).2
      failed := fun f member => ?_
      apart := fun f member there => holds.apart f (SortedSet.mem_toList_erase.1 member).2
        ((fewer f).1 there).2
      settled := fun f member settled => ?_
      owned := fun plain path node found leaf => ?_ }
    · obtain ⟨other, waits⟩ := SortedSet.mem_toList_erase.1 member
      exact (fewer f).2 ⟨other, holds.failed f waits⟩
    · obtain ⟨other, there⟩ := (fewer f).1 member
      exact (holds.settled f there settled).imp_left fun waits =>
        SortedSet.mem_toList_erase.2 ⟨other, waits⟩
    · obtain ⟨f, place, brief, owner⟩ := holds.owned plain path node found leaf
      refine ⟨f, place, brief, ?_⟩
      by_cases same : f = e
      · exact .inr (.inr same)
      · refine owner.imp (fun there => (fewer f).2 ⟨same, there⟩) fun waits => .inl ?_
        exact SortedSet.mem_toList_erase.2 ⟨same, waits.resolve_right id⟩
  exact begun.removeLoose known fun member => ((fewer e).1 member).1 rfl

/-- What is tried again while the store is online waits no more, unless it has no place. -/
theorem NodesOrBacklog.retryRegister (holds : NodesOrBacklog usage owed loose s)
    (here : e ∈ s.sync.registry.registered.toList) :
    NodesOrBacklog usage owed loose (s.retryRegister e) ∧ BacklogShrinks s (s.retryRegister e) ∧
      (s.store.online = true → e ∈ (s.retryRegister e).sync.backlog.registered.toList → ¬ e.Placeable) := by
  unfold Synced.retryRegister
  rcases holds.writeNode here with ⟨unplaced, error, failed⟩ | ⟨store, done, written, there, shrinks⟩
  · rw [failed]
    exact ⟨holds, .refl, fun online _ => unplaced online⟩
  · rw [done]
    dsimp only
    refine ⟨?_, shrinks.trans ⟨rfl, rfl, rfl, .refl, fun _ _ => id,
      fun f waits => (SortedSet.mem_toList_erase.1 waits).2, fun _ => id⟩,
      fun _ waits => absurd rfl (SortedSet.mem_toList_erase.1 waits).1⟩
    refine written.withFailed (fun f waits => written.failed f (SortedSet.mem_toList_erase.1 waits).2)
      fun f member settled => ?_
    by_cases same : f = e
    · subst same
      exact .inr ⟨written.placeable there, fun _ _ => there⟩
    · exact (written.settled f member settled).imp_left fun waits =>
        SortedSet.mem_toList_erase.2 ⟨same, waits⟩

theorem NodesOrBacklog.retryUnregister (holds : NodesOrBacklog usage owed loose s) (known : usage.known e)
    (absent : e ∉ s.sync.registry.registered.toList) :
    NodesOrBacklog usage owed loose (s.retryUnregister e) ∧ BacklogShrinks s (s.retryUnregister e) ∧
      (s.store.online = true → e ∉ (s.retryUnregister e).sync.backlog.unregistered.toList) := by
  unfold Synced.retryUnregister
  rcases holds.removeNode known absent with
    ⟨offline, error, failed⟩ | ⟨store, done, removed, gone, shrinks⟩
  · rw [failed]
    exact ⟨holds, .refl, fun online => by simp [online] at offline⟩
  · rw [done]
    dsimp only
    refine ⟨(removed.settle gone).mono (fun _ _ => id) fun f free => free.1,
      shrinks.trans ⟨rfl, rfl, rfl, .refl, fun _ _ => id, fun _ => id, fun f waits =>
        (SortedSet.mem_toList_erase.1 waits).2⟩, fun _ waits => ?_⟩
    exact (SortedSet.mem_toList_erase.1 waits).1 rfl

theorem NodesOrBacklog.foldl_retryRegister (holds : NodesOrBacklog usage owed loose s)
    (here : ∀ e ∈ items, e ∈ s.sync.registry.registered.toList) :
    NodesOrBacklog usage owed loose (items.foldl Synced.retryRegister s) ∧
      BacklogShrinks s (items.foldl Synced.retryRegister s) ∧
      (s.store.online = true → ∀ e ∈ items,
        e ∈ (items.foldl Synced.retryRegister s).sync.backlog.registered.toList → ¬ e.Placeable) := by
  induction items generalizing s with
  | nil => exact ⟨holds, .refl, fun _ _ member => absurd member List.not_mem_nil⟩
  | cons e items ih =>
      obtain ⟨first, shrinks, done⟩ := holds.retryRegister (here e List.mem_cons_self)
      obtain ⟨rest, more, cleared⟩ := ih first fun f member => by
        rw [shrinks.registered]
        exact here f (List.mem_cons_of_mem _ member)
      refine ⟨rest, shrinks.trans more, fun online f member waits => ?_⟩
      rcases List.mem_cons.1 member with rfl | member
      · exact done online (more.failed f waits)
      · exact cleared (shrinks.session.online.trans online) f member waits

theorem NodesOrBacklog.foldl_retryUnregister (holds : NodesOrBacklog usage owed loose s)
    (known : ∀ e ∈ items, usage.known e) (absent : ∀ e ∈ items, e ∉ s.sync.registry.registered.toList) :
    NodesOrBacklog usage owed loose (items.foldl Synced.retryUnregister s) ∧
      BacklogShrinks s (items.foldl Synced.retryUnregister s) ∧
      (s.store.online = true → ∀ e ∈ items,
        e ∉ (items.foldl Synced.retryUnregister s).sync.backlog.unregistered.toList) := by
  induction items generalizing s with
  | nil => exact ⟨holds, .refl, fun _ _ member => absurd member List.not_mem_nil⟩
  | cons e items ih =>
      obtain ⟨first, shrinks, done⟩ :=
        holds.retryUnregister (known e List.mem_cons_self) (absent e List.mem_cons_self)
      obtain ⟨rest, more, cleared⟩ := ih first (fun f member => known f (List.mem_cons_of_mem _ member))
        fun f member => by
          rw [shrinks.registered]
          exact absent f (List.mem_cons_of_mem _ member)
      refine ⟨rest, shrinks.trans more, fun online f member waits => ?_⟩
      rcases List.mem_cons.1 member with rfl | member
      · exact done online (more.removed f waits)
      · exact cleared (shrinks.session.online.trans online) f member waits

/-- With the store online, a retry leaves those registrations that have no place, and no removals. -/
theorem NodesOrBacklog.retryNodes (holds : NodesOrBacklog usage owed loose s) :
    NodesOrBacklog usage owed loose s.retryNodes ∧ BacklogShrinks s s.retryNodes ∧
      (s.store.online = true → (∀ e ∈ s.retryNodes.sync.backlog.registered.toList, ¬ e.Placeable) ∧
        ∀ e, e ∉ s.retryNodes.sync.backlog.unregistered.toList) := by
  obtain ⟨written, wrote, placed⟩ := holds.foldl_retryRegister holds.failed
  obtain ⟨removed, cleared, gone⟩ := written.foldl_retryUnregister holds.leaving fun e member => by
    rw [wrote.registered]
    exact holds.apart e member
  refine ⟨removed, wrote.trans cleared, fun online => ⟨fun e waits => ?_, fun e waits => ?_⟩⟩
  · have before := cleared.failed e waits
    exact placed online e (wrote.failed e before) before
  · exact gone (wrote.session.online.trans online) e (wrote.removed e (cleared.removed e waits)) waits

theorem NodesOrBacklog.retry (holds : NodesOrBacklog usage owed loose s) :
    NodesOrBacklog usage owed loose s.retry ∧ BacklogShrinks s s.retry ∧ (s.store.online = true →
      (∀ e ∈ s.retry.sync.backlog.registered.toList, ¬ e.Placeable) ∧
      ∀ e, e ∉ s.retry.sync.backlog.unregistered.toList) := by
  obtain ⟨tried, shrinks, left⟩ := holds.retryNodes
  have watching := sameRegistrations_foldl_retrySubscribe tried.queries s.sync.backlog.subscribed.toList
  rw [retry_eq]
  refine ⟨tried.congr watching, shrinks.trans watching.shrinks, fun online => ?_⟩
  rw [watching.failed, watching.removed]
  exact left online

end Operations

section Runs

theorem NodesOrBacklog.setOnline (holds : NodesOrBacklog usage owed loose s) (online : Bool) :
    NodesOrBacklog usage owed loose (s.setOnline online) := by
  have listeners := (Store.told_setOnline online : Store.Told (fun _ => True) s.store _).listeners
  obtain ⟨nodes, queue⟩ : (s.store.setOnline online).nodes = s.store.nodes ∧
      (.session s.sync.mailbox .reconnected ∈ s.store.outbox →
        .session s.sync.mailbox .reconnected ∈ (s.store.setOnline online).outbox) := by
    rcases s.store.setOnline_cases online with ⟨_, same⟩ | ⟨_, changed⟩
    · rw [same]
      exact ⟨rfl, id⟩
    · rw [changed]
      exact ⟨rfl, List.mem_append_left _⟩
  refine holds.withStore (listeners ▸ id) (fun rest there => .inl ?_) (fun f _ _ _ _ quiet =>
    ⟨fun lost queued => quiet lost (queue queued), fun there => ?_⟩) fun plain path node found _ =>
      .inl (nodes ▸ found)
  · rwa [Store.isNode, nodes] at there
  · rwa [Store.isNode, nodes]

/-- What is lost with the session is expected when it is known that the session is back. -/
theorem NodesOrBacklog.expire (holds : NodesOrBacklog usage owed loose s) (lost : usage.expiring) :
    NodesOrBacklog usage owed loose s.expire := by
  have told : Store.Told (fun _ => True) s.store s.store.expire := Store.told_expire (by simp)
  refine holds.withStore (told.listeners ▸ id) (fun rest there => .inl (Store.isNode_of_expire there))
    (fun f _ _ _ _ quiet => absurd (Store.reconnected_expire holds.listens) (quiet lost))
    fun plain path node found leaf => .inl ?_
  rw [Store.get?_expire, Option.filter_eq_some_iff] at found
  exact found.1

theorem NodesOrBacklog.elsewhere {store : Store} (holds : NodesOrBacklog usage owed loose s)
    (apart : Elsewhere s store) : NodesOrBacklog usage owed loose { s with store } := by
  refine holds.withStore apart.listens
    (fun rest there => .inl ((isNode_congr (apart.below rest)).symm.trans there))
    (fun f _ _ _ _ quiet =>
      ⟨fun lost queued => quiet lost ((apart.notices _ rfl).2 queued), fun there => ?stays⟩)
    fun plain path node found leaf => .inl ?owned
  case stays =>
    obtain ⟨rest, below⟩ := (@leaf_nodePath s.sync.root f).1
    rw [below] at there ⊢
    exact (isNode_congr (apart.below rest)).trans there
  case owned =>
    obtain ⟨rest, rfl⟩ := leaf.1
    exact apart.below rest ▸ found

theorem NodesOrBacklog.handleNext (holds : NodesOrBacklog usage (fun _ => False) loose s)
    (aboutSession : Bool) : NodesOrBacklog usage (fun _ => False) loose (s.handleNext aboutSession) := by
  rcases s.handleNext_cases aboutSession with
    same | ⟨before, notice, after, whole, _, mine, handled⟩
  · rwa [same]
  rw [handled]
  have taken : NodesOrBacklog usage (fun _ => notice = .session s.sync.mailbox .reconnected) loose
      { s with store := { s.store with outbox := before ++ after } } := by
    refine (holds.mono (fun _ _ => False.elim) fun _ => id).withStore id (fun _ => .inl)
      (fun f _ settled _ _ quiet => ⟨fun lost queued => ?_, id⟩) fun _ _ _ found _ => .inl found
    rw [whole] at queued
    rcases List.mem_append.1 queued with queued | queued
    · exact quiet lost (List.mem_append_left _ queued)
    · rcases List.mem_cons.1 queued with same | queued
      · exact settled same.symm
      · exact quiet lost (List.mem_append_right _ queued)
  cases notice with
  | children watch mailbox path names =>
      have settled : NodesOrBacklog usage (fun _ => False) loose _ :=
        taken.mono (fun _ _ same => by cases same) fun _ => id
      exact settled.congr (sameRegistrations_handleChildren settled.queries path names)
  | session mailbox state =>
      cases state with
      | connected => exact taken.mono (fun _ _ same => by cases same) fun _ => id
      | disconnected => exact taken.mono (fun _ _ same => by cases same) fun _ => id
      | reconnected => exact taken.recover

theorem nodesOrBacklog_start {store : Store} {root : String} (absolute : Absolute root)
    (valid : ∀ rest, store.isNode (root ++ "/" ++ rest) = true → isValid (root ++ "/" ++ rest) = true)
    (clear : usage.flat → ∀ rest, store.nodes.get? (root ++ "/" ++ rest) = none)
    (lookupTimeout retryPeriod : Nat) :
    NodesOrBacklog usage owed loose (start store root lookupTimeout retryPeriod) where
  root := absolute
  listens := by simp [start, Store.openMailbox, Store.watchState]
  valid := valid
  queries _ :=
    ⟨fun _ member => absurd member List.not_mem_nil, fun _ _ member => absurd member List.not_mem_nil⟩
  known _ member := absurd member List.not_mem_nil
  leaving _ member := absurd member List.not_mem_nil
  failed _ member := absurd member List.not_mem_nil
  apart _ member := absurd member List.not_mem_nil
  settled _ member := absurd member List.not_mem_nil
  owned plain path node found leaf := by
    obtain ⟨rest, rfl⟩ := leaf.1
    cases (clear plain rest).symm.trans found

theorem NodesOrBacklog.after {event : Event}
    (holds : NodesOrBacklog usage (fun _ => False) (fun _ => False) s)
    (allowed : usage.Allows s event) :
    NodesOrBacklog usage (fun _ => False) (fun _ => False) (s.after event) := by
  cases event with
  | register e => exact holds.register allowed
  | unregister e => exact holds.unregister allowed
  | publish interface rule => exact holds.register allowed
  | subscribe query listener =>
      exact holds.congr (listenerSteps_sameRegistrations.attend allowed listener s)
  | unsubscribe query listener =>
      exact holds.congr (listenerSteps_sameRegistrations.unsubscribe s query listener)
  | retry => exact holds.retry.1
  | handle aboutSession => exact holds.handleNext aboutSession
  | setOnline online => exact holds.setOnline online
  | expire => exact holds.expire allowed
  | elsewhere store => exact holds.elsewhere allowed

theorem Run.nodesOrBacklog {Fit : Store → String → Prop} {Allowed : Synced → Event → Prop}
    (run : Run Fit Allowed s) (absolute : ∀ store root, Fit store root → Absolute root)
    (valid : ∀ store root rest, Fit store root → store.isNode (root ++ "/" ++ rest) = true →
      isValid (root ++ "/" ++ rest) = true)
    (clear : usage.flat → ∀ store root rest, Fit store root → store.nodes.get? (root ++ "/" ++ rest) = none)
    (allows : ∀ s event, Allowed s event → usage.Allows s event) :
    NodesOrBacklog usage (fun _ => False) (fun _ => False) s := by
  induction run with
  | start fit lookupTimeout retryPeriod =>
      exact nodesOrBacklog_start (absolute _ _ fit) (fun rest => valid _ _ rest fit)
        (fun plain rest => clear plain _ _ rest fit) lookupTimeout retryPeriod
  | step before event allowed ih => exact ih.after (allows _ event allowed)

end Runs

end ServiceGovernance.Synced
