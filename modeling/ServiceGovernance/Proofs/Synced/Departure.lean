import ServiceGovernance.Proofs.Synced.Settling
import ServiceGovernance.Proofs.Synced.Tenure

/-!
A registry that goes. While the store is online, its dynamic endpoints take their nodes with them and
nothing else, whatever else is registered stays as it is, and of its subscriptions, lists and watches
nothing is left.
-/

namespace ServiceGovernance.Synced

open SyncedRegistry Store.Path

variable {s t u : Synced} {e : Endpoint} {leaving : List Endpoint}

/-- Endpoints have been unregistered, and their nodes have gone with what was below them. -/
structure Parted (leaving : List Endpoint) (s t : Synced) : Prop where
  root : t.sync.root = s.sync.root
  online : t.store.online = s.store.online
  registered : ∀ e, e ∈ t.sync.registry.registered.toList ↔
    e ∈ s.sync.registry.registered.toList ∧ e ∉ leaving
  nodes : ∀ path, s.store.isNode path = false → t.store.isNode path = false
  gone : ∀ e ∈ leaving, t.store.isNode (nodePath s.sync.root e) = false
  others : ∀ path, (∀ e ∈ leaving, path ≠ nodePath s.sync.root e ∧
    isBelow (nodePath s.sync.root e) path = false) → t.store.nodes.get? path = s.store.nodes.get? path

section Parted

theorem Parted.refl : Parted [] s s :=
  ⟨rfl, rfl, fun _ => (and_iff_left List.not_mem_nil).symm, fun _ => id, fun _ member =>
    absurd member List.not_mem_nil, fun _ _ => rfl⟩

theorem Parted.trans {more : List Endpoint} (first : Parted leaving s t) (second : Parted more t u) :
    Parted (leaving ++ more) s u where
  root := second.root.trans first.root
  online := second.online.trans first.online
  registered e := by
    rw [second.registered, first.registered, List.mem_append, not_or, and_assoc]
  nodes path absent := second.nodes path (first.nodes path absent)
  gone e member := by
    rcases List.mem_append.1 member with member | member
    · exact second.nodes _ (first.gone e member)
    · exact first.root ▸ second.gone e member
  others path apart := by
    refine (second.others path fun e member => ?_).trans
      (first.others path fun e member => apart e (List.mem_append_left _ member))
    rw [first.root]
    exact apart e (List.mem_append_right _ member)

theorem parted_unregister (online : s.store.online = true)
    (valid : ∀ rest, s.store.isNode (s.sync.root ++ "/" ++ rest) = true →
      isValid (s.sync.root ++ "/" ++ rest) = true) (e : Endpoint) :
    Parted [e] s (s.unregister e) := by
  have registered : ∀ f, f ∈ SortedSet.toList (s.sync.registry.registered.erase e) ↔
      f ∈ s.sync.registry.registered.toList ∧ f ∉ [e] := fun f => by
    rw [SortedSet.mem_toList_erase, List.mem_singleton, and_comm]
  unfold unregister
  dsimp only
  generalize begun : (s.withRegistry (s.sync.registry.unregister e)).withBacklog
    ((s.withRegistry (s.sync.registry.unregister e)).sync.backlog.forget e) = t
  obtain ⟨root, store, without⟩ : t.sync.root = s.sync.root ∧ t.store = s.store ∧
      t.sync.registry.registered = s.sync.registry.registered.erase e := by
    subst begun
    exact ⟨rfl, rfl, rfl⟩
  rcases t.removeNode_cases e with ⟨offline, _⟩ | ⟨missing, done⟩ | ⟨_, there, done⟩
  · rw [store, online] at offline
    cases offline
  · rw [done]
    refine ⟨root, by rw [store], fun f => by rw [without]; exact registered f, fun path absent => ?_,
      fun f member => ?_, fun path _ => by rw [store]⟩
    · rw [store]
      exact absent
    · cases List.mem_singleton.1 member
      rw [store, root] at missing
      rw [store, Bool.eq_false_iff]
      intro there
      rcases missing with invalid | absent
      · obtain ⟨rest, below⟩ := (@leaf_nodePath s.sync.root e).1
        rw [below] at there invalid
        rw [valid rest there] at invalid
        cases invalid
      · rw [there] at absent
        cases absent
  · rw [done, root, store]
    refine ⟨root, (s.store.undisturbed_pruned _).online, fun f => by rw [without]; exact registered f,
      fun path absent => ?_, fun f member => ?_, fun path apart => ?_⟩
    · rw [Bool.eq_false_iff] at absent ⊢
      exact fun still => absent (Store.isNode_pruned.1 still).2
    · cases List.mem_singleton.1 member
      rw [Bool.eq_false_iff]
      exact fun still => (Store.isNode_pruned.1 still).1.1 rfl
    · obtain ⟨other, beside⟩ := apart e (List.mem_singleton.2 rfl)
      exact (Store.get?_pruned ..).trans (if_neg (by simp [other, beside]))

theorem parted_foldl_unregister (online : s.store.online = true)
    (valid : ∀ rest, s.store.isNode (s.sync.root ++ "/" ++ rest) = true →
      isValid (s.sync.root ++ "/" ++ rest) = true) (leaving : List Endpoint) :
    Parted leaving s (leaving.foldl unregister s) := by
  induction leaving generalizing s with
  | nil => exact .refl
  | cons e leaving ih =>
      have first := parted_unregister online valid e
      refine first.trans (ih (first.online.trans online) fun rest there => ?_)
      rw [first.root] at there ⊢
      refine valid rest ?_
      by_contra absent
      rw [first.nodes _ (Bool.eq_false_iff.2 absent)] at there
      cases there

end Parted

section Withdrawn

theorem nodes_dropWatches (s : Synced) (owner : Endpoint) :
    (s.dropWatches owner).store.nodes = s.store.nodes := by
  obtain ⟨watches, same⟩ := foldl_unwatch_eq (s.released owner) s.store
  have store : (s.dropWatches owner).store = { s.store with watches } := same
  rw [store]

/-- A subscription that ends leaves nodes and registrations alone. -/
theorem unsubscribe_frame (s : Synced) (query : Endpoint) (listener : Listener) :
    (s.unsubscribe query listener).store.nodes = s.store.nodes ∧
      (s.unsubscribe query listener).sync.registry.registered = s.sync.registry.registered ∧
      (s.unsubscribe query listener).sync.mailbox = s.sync.mailbox := by
  have registered : (s.unsubscribe query listener).sync.registry.registered =
      s.sync.registry.registered := by
    rw [registry_unsubscribe, Registry.registered_unsubscribe]
  refine ⟨?_, registered, ?_⟩
  all_goals
    unfold unsubscribe
    dsimp only
    split
  · rfl
  · exact nodes_dropWatches ..
  · rfl
  · rfl

theorem foldl_unsubscribe_frame (s : Synced) (items : List (Endpoint × Listener)) :
    let t := items.foldl (fun s item => s.unsubscribe item.1 item.2) s
    t.store.nodes = s.store.nodes ∧ t.sync.registry.registered = s.sync.registry.registered ∧
      t.sync.mailbox = s.sync.mailbox := by
  induction items generalizing s with
  | nil => exact ⟨rfl, rfl, rfl⟩
  | cons item items ih =>
      obtain ⟨nodes, registered, mailbox⟩ := s.unsubscribe_frame item.1 item.2
      obtain ⟨later_nodes, later_registered, later_mailbox⟩ := ih (s.unsubscribe item.1 item.2)
      exact ⟨later_nodes.trans nodes, later_registered.trans registered, later_mailbox.trans mailbox⟩

/-- The nodes and registrations of a registry that is destroyed are those without its dynamic endpoints. -/
theorem destroy_frame (s : Synced) :
    let parted := s.sync.registry.dynamicRegistered.foldl unregister s
    s.destroy.store.nodes = parted.store.nodes ∧
      s.destroy.sync.registry.registered = parted.sync.registry.registered ∧
      s.destroy.sync.mailbox = s.sync.mailbox ∧ s.withdrawn.sync.mailbox = s.sync.mailbox := by
  have parted := nodeSteps_sameWatching.dynamicUnregister s
  obtain ⟨nodes, registered, mailbox⟩ := foldl_unsubscribe_frame
    (s.sync.registry.dynamicRegistered.foldl unregister s) s.sync.registry.subscriptions
  have same : s.withdrawn.sync.mailbox = s.sync.mailbox := mailbox.trans parted.mailbox
  rw [destroy_eq]
  exact ⟨nodes, registered, same, same⟩

theorem mem_dynamicRegistered_iff :
    e ∈ s.sync.registry.dynamicRegistered ↔
      e ∈ s.sync.registry.registered.toList ∧ e.isDynamic = true := by
  rw [Registry.dynamicRegistered, List.mem_filter]

end Withdrawn

section Departure

/-- With the store online, the endpoints that are not dynamic stay with the nodes that they have, the
others go with theirs, and so do all subscriptions with what was cached and watched for them. -/
theorem Tenure.destroy_clean (tenure : Tenure Ordinary True s) (online : s.store.online = true) :
    (∀ e, e ∈ s.destroy.sync.registry.registered.toList ↔
      e ∈ s.sync.registry.registered.toList ∧ e.isDynamic = false) ∧
    (∀ e ∈ s.destroy.sync.registry.registered.toList,
      s.destroy.store.nodes.get? (nodePath s.sync.root e) = s.store.nodes.get? (nodePath s.sync.root e)) ∧
    (∀ e ∈ s.sync.registry.registered.toList, e.isDynamic = true →
      s.destroy.store.isNode (nodePath s.sync.root e) = false) ∧
    (∀ path, (∀ e ∈ s.sync.registry.registered.toList, e.isDynamic = true →
      path ≠ nodePath s.sync.root e ∧ isBelow (nodePath s.sync.root e) path = false) →
        s.destroy.store.nodes.get? path = s.store.nodes.get? path) ∧
    s.destroy.sync.registry.subscribed = .empty ∧ s.destroy.sync.registry.notified = .empty ∧
    s.destroy.sync.watched = .empty ∧
    (∀ watch path, s.withdrawn.store.watches.get? watch ≠ some ⟨path, s.sync.mailbox⟩) ∧
    ∀ watch path, s.destroy.store.watches.get? watch ≠ some ⟨path, s.sync.mailbox⟩ := by
  have holds := tenure.nodesOrBacklog
  obtain ⟨_, _, _, forgotten, absent, unwatched⟩ := tenure.course.books
  obtain ⟨nodes, registered, mailbox, withdrawn⟩ := s.destroy_frame
  have parted := parted_foldl_unregister online holds.valid s.sync.registry.dynamicRegistered
  have stays : ∀ e, e ∈ s.destroy.sync.registry.registered.toList ↔
      e ∈ s.sync.registry.registered.toList ∧ e.isDynamic = false := by
    intro e
    rw [registered, parted.registered, mem_dynamicRegistered_iff]
    refine and_congr_right fun here => ?_
    simp [here]
  have others : ∀ path, (∀ e ∈ s.sync.registry.registered.toList, e.isDynamic = true →
      path ≠ nodePath s.sync.root e ∧ isBelow (nodePath s.sync.root e) path = false) →
        s.destroy.store.nodes.get? path = s.store.nodes.get? path := by
    intro path apart
    rw [nodes]
    refine parted.others path fun e member => ?_
    obtain ⟨here, dynamic⟩ := mem_dynamicRegistered_iff.1 member
    exact apart e here dynamic
  rw [withdrawn] at unwatched
  refine ⟨stays, fun e member => others _ fun f here dynamic => ?beside, fun e here dynamic => ?gone, others,
    SortedMap.ext fun query => ?unheard, SortedMap.ext fun query => (forgotten query).uncached,
    SortedMap.ext absent, unwatched, fun watch path found => ?closed⟩
  case beside =>
    obtain ⟨there, static⟩ := (stays e).1 member
    have known : Ordinary e := holds.known e there
    have other : Ordinary f := holds.known f here
    refine ⟨fun same => ?_, beside_of_plain other.category known.category⟩
    rw [nodePath_injective known.plain other.plain same, dynamic] at static
    cases static
  case gone =>
    have goes := parted.gone e (mem_dynamicRegistered_iff.2 ⟨here, dynamic⟩)
    rwa [Store.isNode, nodes]
  case unheard =>
    have unheard := (forgotten query).unheard
    rw [mem_queries_iff, not_exists] at unheard
    exact Option.eq_none_iff_forall_ne_some.2 unheard
  case closed =>
    rw [destroy_eq] at found
    change (s.withdrawn.store.watches.filter _).get? watch = _ at found
    rw [SortedMap.get?_filter, Option.filter_eq_some_iff] at found
    exact unwatched watch path found.1

def lasting : Endpoint :=
  { protocol := "a", host := "c", port := 1, path := "i", params := .ofList [("dynamic", "false")] }

/-- A dynamic endpoint, a lasting one and a subscription. -/
def inhabited : Synced :=
  (((start {} "/r" 5000 5000).after (.register lone)).after (.register lasting)).after (.subscribe consumer 0)

theorem ordinary_lasting : Ordinary lasting where
  made := .inl ⟨"a://c:1/i?dynamic=false", Endpoint.parse_eq_ok_of_toOption (by decide +kernel)⟩
  category := by decide

theorem tenure_inhabited : Tenure Ordinary True inhabited := by
  have started : Tenure Ordinary True (start {} "/r" 5000 5000) :=
    tenure_start (@Absolute.top "r" (by decide)) 5000 5000
  exact .step (.step (.step started (.register lone) ⟨registrable_lone.toOrdinary, trivial⟩)
    (.register lasting) ⟨ordinary_lasting, trivial⟩) (.subscribe consumer 0) ⟨False.elim, trivial⟩

theorem inhabited_departs :
    inhabited.sync.registry.registered.toList = [lone, lasting] ∧
      inhabited.store.isNode (nodePath "/r" lone) = true ∧
      inhabited.store.watches.get? 0 = some ⟨home, inhabited.sync.mailbox⟩ ∧
      lasting ∈ inhabited.destroy.sync.registry.registered.toList ∧
      inhabited.destroy.store.isNode (nodePath "/r" lasting) = true ∧
      inhabited.destroy.store.isNode (nodePath "/r" lone) = false ∧
      inhabited.destroy.store.watches.get? 0 ≠ some ⟨home, inhabited.sync.mailbox⟩ := by
  have facts : inhabited.store.online = true ∧ inhabited.sync.root = "/r" ∧
      inhabited.sync.registry.registered.toList = [lone, lasting] ∧
      inhabited.store.isNode (nodePath "/r" lone) = true ∧
      inhabited.store.isNode (nodePath "/r" lasting) = true ∧
      inhabited.store.watches.get? 0 = some ⟨home, inhabited.sync.mailbox⟩ := by
    decide +kernel
  obtain ⟨online, root, members, there, stands, live⟩ := facts
  obtain ⟨stays, others, gone, _, _, _, _, _, unwatched⟩ := tenure_inhabited.destroy_clean online
  rw [root, members] at *
  have remains : lasting ∈ inhabited.destroy.sync.registry.registered.toList :=
    (stays lasting).2 ⟨by simp, by decide⟩
  have same := isNode_congr (others lasting remains)
  exact ⟨rfl, there, live, remains, same.trans stands, gone lone (by simp) (by decide), unwatched 0 home⟩

end Departure

end ServiceGovernance.Synced
