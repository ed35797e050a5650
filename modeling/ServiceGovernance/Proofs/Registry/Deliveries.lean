import Mathlib.Data.List.Basic
import ServiceGovernance.Proofs.Registry.Requests

/-!
Whom a request tells what. Only a notification tells those something who listen already: on behalf of a
query the query's fresh lists, one for each category of which the query has a share, and nothing else. For a
query of one interface such a list is the share itself.
-/

namespace ServiceGovernance.Registry

open Endpoint

variable {r : Registry} {query other : Endpoint} {listener : Listener} {category : String}
  {updates endpoints : List Endpoint} {e : Endpoint}

/-- What a listener is told on behalf of a query, in this order. -/
def calls (query : Endpoint) (listener : Listener) (deliveries : List Delivery) : List (List Endpoint) :=
  (deliveries.filter fun d => d.query = query ∧ d.listener = listener).map (·.endpoints)

def speaksOf (category : String) (endpoints : List Endpoint) : Bool :=
  endpoints.any fun e => e.category = category

/-- The share of a query, without the sentinels among members. -/
def announced (query : Endpoint) (updates : List Endpoint) (category : String) : List Endpoint :=
  if ∀ e ∈ share query updates category, e.isSentinel = true then share query updates category
  else members (share query updates category)

section Calls

theorem flatMap_ite_nil {α β : Type} (items : List α) (p : α → Bool) (f : α → List β) :
    (items.flatMap fun item => if p item then f item else []) = (items.filter p).flatMap f := by
  induction items with
  | nil => rfl
  | cons item items ih => cases wanted : p item <;> simp [wanted, ih]

theorem calls_flatMap {α : Type} (items : List α) (f : α → List Delivery) :
    calls query listener (items.flatMap f) = items.flatMap fun item => calls query listener (f item) := by
  simp only [calls, List.filter_flatMap, List.map_flatMap]

theorem calls_deliveriesOf {listeners : List Listener} (nodup : listeners.Nodup) (lists : CategoryLists) :
    calls query listener (deliveriesOf other listeners lists) =
      if other = query ∧ listener ∈ listeners then lists.values else [] := by
  have each : ∀ endpoints : List Endpoint,
      calls query listener (listeners.map fun listener => ⟨other, listener, endpoints⟩) =
        if other = query ∧ listener ∈ listeners then [endpoints] else [] := by
    intro endpoints
    unfold calls
    rw [List.filter_map, List.map_map]
    by_cases same : other = query
    · have one : listeners.filter (· = listener) = if listener ∈ listeners then [listener] else [] := by
        rw [List.filter_eq, nodup.count]
        split <;> rfl
      simp only [same, true_and, Function.comp_def, one]
      split <;> rfl
    · simp [same, Function.comp_def]
  rw [deliveriesOf, calls_flatMap]
  simp only [each]
  split
  · exact List.flatMap_singleton' _
  · simp

theorem mem_deliveriesOf_iff {listeners : List Listener} {lists : CategoryLists} {d : Delivery} :
    d ∈ deliveriesOf query listeners lists ↔
      d.query = query ∧ d.listener ∈ listeners ∧ ∃ category, lists.get? category = some d.endpoints := by
  simp only [deliveriesOf, List.mem_flatMap, List.mem_map, SortedMap.mem_values_iff]
  constructor
  · rintro ⟨endpoints, listed, listener, listens, rfl⟩
    exact ⟨rfl, listens, listed⟩
  · rintro ⟨rfl, listens, listed⟩
    exact ⟨d.endpoints, listed, d.listener, listens, rfl⟩

/-- A query without a fresh list makes no deliveries. -/
theorem deliveries_notify (r : Registry) (updates : List Endpoint) :
    (r.notify updates).2 = r.subscribed.entries.flatMap fun entry =>
      deliveriesOf entry.1 entry.2 (r.freshLists entry.1 updates) := by
  show (r.touched updates).flatMap (fun entry => deliveriesOf entry.1 entry.2.1 entry.2.2) = _
  rw [touched, ← flatMap_ite_nil, List.flatMap_map]
  refine List.flatMap_congr fun entry _ => ?_
  dsimp only
  split
  · rfl
  · next none_fresh =>
      have empty : (r.freshLists entry.1 updates).entries = [] := by simpa using none_fresh
      simp [deliveriesOf, SortedMap.values, empty]

theorem calls_notify (orderly : Orderly r) (query : Endpoint) (listener : Listener) (updates : List Endpoint) :
    calls query listener (r.notify updates).2 =
      if listener ∈ r.listeners query then (r.freshLists query updates).values else [] := by
  have each : ∀ entry ∈ r.subscribed.entries,
      calls query listener (deliveriesOf entry.1 entry.2 (r.freshLists entry.1 updates)) =
        if entry.1 = query then
          if listener ∈ entry.2 then (r.freshLists query updates).values else []
        else [] := by
    intro entry member
    have known := (SortedMap.mem_entries_iff r.subscribed entry.1 entry.2).1 member
    rw [calls_deliveriesOf (orderly.heard entry.1 entry.2 known).2]
    by_cases same : entry.1 = query
    · simp [same]
    · simp [same]
  rw [deliveries_notify, calls_flatMap, List.flatMap_congr each]
  have ours := flatMap_ite_nil r.subscribed.entries (fun entry => decide (entry.1 = query)) fun entry =>
    if listener ∈ entry.2 then (r.freshLists query updates).values else []
  simp only [decide_eq_true_eq] at ours
  rw [ours, SortedMap.filter_entries, Registry.listeners]
  cases r.subscribed.get? query with
  | none => simp
  | some listeners => simp

/-- Whoever is told something listens to the query it is told for, and is told one of its fresh lists. -/
theorem mem_deliveries_notify {d : Delivery} (told : d ∈ (r.notify updates).2) :
    d.listener ∈ r.listeners d.query ∧
      ∃ category, (r.freshLists d.query updates).get? category = some d.endpoints := by
  rw [deliveries_notify] at told
  obtain ⟨⟨query, listeners⟩, member, told⟩ := List.mem_flatMap.1 told
  obtain ⟨same, listens, fresh⟩ := mem_deliveriesOf_iff.1 told
  have known := (SortedMap.mem_entries_iff ..).1 member
  rw [same, Registry.listeners, known]
  exact ⟨listens, fresh⟩

/-- Each listener of a query is told each of its fresh lists. -/
theorem mem_deliveries_of_fresh (listens : listener ∈ r.listeners query)
    (fresh : (r.freshLists query updates).get? category = some endpoints) :
    ⟨query, listener, endpoints⟩ ∈ (r.notify updates).2 := by
  rw [deliveries_notify]
  cases known : r.subscribed.get? query with
  | none => simp [Registry.listeners, known] at listens
  | some listeners =>
      have here : listener ∈ listeners := by simpa [Registry.listeners, known] using listens
      refine List.mem_flatMap.2 ⟨(query, listeners), (SortedMap.mem_entries_iff ..).2 known, ?_⟩
      exact mem_deliveriesOf_iff.2 ⟨rfl, here, category, fresh⟩

/-- An update that a query asks for reaches its listeners: they are told the new list, which has of the update's
interface what the updates say and nothing older. -/
theorem told_of_share {u : Endpoint} (listens : listener ∈ r.listeners query)
    (shared : u ∈ share query updates category) :
    ∃ endpoints, ((r.notify updates).1.cacheOf query).get? category = some endpoints ∧
      ⟨query, listener, endpoints⟩ ∈ (r.notify updates).2 ∧
      ∀ e, e.interface = u.interface →
        (e ∈ members endpoints ↔ e ∈ members (share query updates category)) := by
  have filled : share query updates category ≠ [] := List.ne_nil_of_mem shared
  have fresh : (r.freshLists query updates).get? category =
      some (merge (r.listOf query category) (share query updates category)) := by
    rw [get?_freshLists, if_neg filled]
  refine ⟨_, ?_, mem_deliveries_of_fresh listens fresh, fun e same => ?_⟩
  · rw [get?_cacheOf_notify (mem_queries_of_listens listens), if_neg filled]
  · rw [mem_members_merge]
    exact or_iff_left fun older => (older.2 u shared).2 same.symm

end Calls

section Others

/-- A request of others. -/
def Request.Spares (listener : Listener) : Request → Prop
  | .subscribe _ other | .unsubscribe _ other | .beginLookup _ other | .endLookup _ other => other ≠ listener
  | .register _ | .unregister _ | .notify _ => True
  | .destroy => False

variable {request : Request}

theorem mem_listeners_perform (spares : request.Spares listener) (query : Endpoint) :
    listener ∈ (r.perform request).1.listeners query ↔ listener ∈ r.listeners query := by
  have unsubscribed : ∀ asked other, other ≠ listener →
      (listener ∈ (r.unsubscribe asked other).listeners query ↔ listener ∈ r.listeners query) := by
    intro asked other apart
    rw [listeners_unsubscribe]
    split
    · next same => simp [same, apart.symm]
    · rfl
  have attended : ∀ asked other, other ≠ listener →
      (listener ∈ (r.attend asked other).1.listeners query ↔ listener ∈ r.listeners query) := by
    intro asked other apart
    rcases r.attend_cases asked other with same | added
    · rw [same]
    · rw [added, listeners_addListener]
      split
      · next same => split <;> simp [same, apart.symm]
      · rfl
  cases request with
  | register e => rfl
  | unregister e => rfl
  | subscribe asked other => exact attended asked other spares
  | unsubscribe asked other => exact unsubscribed asked other spares
  | notify updates => rfl
  | beginLookup asked other =>
      rcases r.perform_beginLookup_cases asked other with same | added
      · rw [same]
      · rw [added]
        exact attended asked other spares
  | endLookup asked other => exact unsubscribed asked other spares
  | destroy => exact spares.elim

/-- Only a notification tells somebody something who has not just come. -/
theorem not_told_perform (spares : request.Spares listener) (silent : ∀ updates, request ≠ .notify updates) :
    ∀ told ∈ (r.perform request).2, told.listener ≠ listener := by
  have attended : ∀ asked other, other ≠ listener →
      ∀ told ∈ (r.attend asked other).2, told.listener ≠ listener := by
    intro asked other apart told member
    rcases r.attend_cases asked other with same | added
    · rw [same] at member
      cases member
    · rw [added] at member
      rw [List.mem_singleton.1 (mem_deliveriesOf_iff.1 member).2.1]
      exact apart
  cases request with
  | subscribe asked other => exact attended asked other spares
  | notify updates => exact absurd rfl (silent updates)
  | beginLookup asked other =>
      rcases r.perform_beginLookup_cases asked other with same | added
      · exact same ▸ nofun
      · exact added ▸ attended asked other spares
  | register _ | unregister _ | unsubscribe _ _ | endLookup _ _ | destroy => nofun

end Others

section Categories

theorem Fitting.speaksOf_iff {about : String} (fitting : Fitting query about endpoints) :
    speaksOf category endpoints = true ↔ about = category := by
  simp only [speaksOf, List.any_eq_true, decide_eq_true_eq]
  constructor
  · rintro ⟨e, member, same⟩
    exact (fitting.asked e member).1.symm.trans same
  · rintro rfl
    obtain ⟨e, member⟩ := List.exists_mem_of_ne_nil _ fitting.filled
    exact ⟨e, member, (fitting.asked e member).1⟩

/-- Of each category there is one list at most. -/
theorem values_filter_speaksOf {lists : CategoryLists}
    (fitting : ∀ category endpoints, lists.get? category = some endpoints → Fitting query category endpoints) :
    lists.values.filter (speaksOf category) = (lists.get? category).toList := by
  have keys : ∀ entry ∈ lists.entries, speaksOf category entry.2 = decide (entry.1 = category) := by
    intro entry member
    have found := (SortedMap.mem_entries_iff lists entry.1 entry.2).1 member
    rw [Bool.eq_iff_iff, (fitting _ _ found).speaksOf_iff, decide_eq_true_eq]
  rw [SortedMap.values, List.filter_map]
  show (lists.entries.filter fun entry => speaksOf category entry.2).map (·.2) = _
  rw [List.filter_congr keys, SortedMap.filter_entries]
  cases lists.get? category <;> rfl

/-- A listener of a query is told one list of each category that the query has a share of. -/
theorem calls_notify_filter (orderly : Orderly r) (listens : listener ∈ r.listeners query)
    (updates : List Endpoint) (category : String) :
    (calls query listener (r.notify updates).2).filter (speaksOf category) =
      if share query updates category = [] then []
      else [merge (r.listOf query category) (share query updates category)] := by
  rw [calls_notify orderly, if_pos listens, values_filter_speaksOf fun _ _ => orderly.fitting_fresh,
    get?_freshLists]
  split <;> rfl

theorem interface_of_admits (plain : query.interface ≠ anyValue) (admitted : query.admits e = true) :
    e.interface = query.interface := by
  have wanted : query.wantsInterface e = true := by
    simp only [admits, Bool.and_eq_true] at admitted
    exact admitted.1.1.1
  simp only [wantsInterface, Bool.or_eq_true, beq_iff_eq] at wanted
  exact (wanted.resolve_left plain).symm

/-- Everything that is cached for a query of one interface is of that interface, so a share of it replaces
all of it. -/
theorem merge_eq_announced (orderly : Orderly r) (plain : query.interface ≠ anyValue)
    (filled : share query updates category ≠ []) :
    merge (r.listOf query category) (share query updates category) = announced query updates category := by
  obtain ⟨u, member⟩ := List.exists_mem_of_ne_nil _ filled
  have none_kept : kept (r.listOf query category) (share query updates category) = [] := by
    refine List.eq_nil_iff_forall_not_mem.2 fun e remains => ?_
    obtain ⟨cached, apart⟩ := mem_kept_iff.1 remains
    have old := interface_of_admits plain (orderly.known query category e cached).2
    have new := interface_of_admits plain (mem_share_iff.1 member).2.1
    exact (apart u member).2 (new.trans old.symm)
  rw [merge, none_kept, List.nil_append, withoutIdleSentinels, announced]
  exact if_congr members_isEmpty_iff rfl rfl

/-- A notification changes what it should and nothing else. For a query of one interface the list of each
category among the updates that it asks for becomes these updates, and each of its listeners is told this list
once on its behalf, and no other list of the category. What the updates do not speak of stays, nobody is told
of it, and nobody is told anything who does not listen. -/
theorem Reached.notify_exact (reached : Reached r) (updates : List Endpoint) :
    (∀ query ∈ r.queries, query.interface ≠ anyValue → ∀ category, share query updates category ≠ [] →
      ((r.notify updates).1.cacheOf query).get? category = some (announced query updates category) ∧
      ∀ listener ∈ r.listeners query,
        (calls query listener (r.notify updates).2).filter (speaksOf category) =
          [announced query updates category]) ∧
    (∀ query category, share query updates category = [] →
      ((r.notify updates).1.cacheOf query).get? category = (r.cacheOf query).get? category ∧
      ∀ listener, (calls query listener (r.notify updates).2).filter (speaksOf category) = []) ∧
    (∀ query, query ∉ r.queries ∨ (∀ u ∈ updates, query.admits u = false) →
      (r.notify updates).1.notified.get? query = r.notified.get? query ∧
      ∀ d ∈ (r.notify updates).2, d.query ≠ query) ∧
    (∀ d ∈ (r.notify updates).2, d.listener ∈ r.listeners d.query ∧ d.endpoints ≠ []) ∧
    (r.notify updates).1 = { r with notified := (r.notify updates).1.notified } := by
  have orderly := reached.orderly
  refine ⟨fun query subscribed plain category filled => ⟨?_, fun listener listens => ?_⟩,
    fun query category none_there => ⟨?_, fun listener => ?_⟩, fun query spared => ⟨?_, fun d told same => ?_⟩,
    fun d told => ?_, rfl⟩
  · rw [get?_cacheOf_notify subscribed, if_neg filled, merge_eq_announced orderly plain filled]
  · rw [calls_notify_filter orderly listens, if_neg filled, merge_eq_announced orderly plain filled]
  · by_cases subscribed : query ∈ r.queries
    · rw [get?_cacheOf_notify subscribed, if_pos none_there]
    · rw [cacheOf_notify_of_not_mem subscribed]
  · by_cases listens : listener ∈ r.listeners query
    · rw [calls_notify_filter orderly listens, if_pos none_there]
    · rw [calls_notify orderly, if_neg listens]
      rfl
  · rw [get?_notified_notify, if_neg fun both => ?_]
    obtain ⟨subscribed, u, member, admitted⟩ := both
    exact spared.elim (fun absent => absent subscribed) fun none_wanted => by
      simp [none_wanted u member] at admitted
  · subst same
    obtain ⟨listens, category, fresh⟩ := mem_deliveries_notify told
    rw [get?_freshLists] at fresh
    have shared : share d.query updates category ≠ [] := fun none_mine => by simp [none_mine] at fresh
    obtain ⟨u, member⟩ := List.exists_mem_of_ne_nil _ shared
    obtain ⟨update, admitted, _⟩ := mem_share_iff.1 member
    exact spared.elim (fun absent => absent (mem_queries_of_listens listens)) fun none_wanted => by
      simp [none_wanted u update] at admitted
  · obtain ⟨listens, category, fresh⟩ := mem_deliveries_notify told
    exact ⟨listens, (orderly.fitting_fresh fresh).filled⟩

/-- A query for the providers of one interface. -/
def plain : Endpoint := { everywhere with path := "i" }

/-- Two listeners of one query, one of which listens to another query too. -/
def shared : Registry := after {} [.subscribe plain 0, .subscribe plain 1, .subscribe everywhere 1]

/-- A sentinel does not stand beside a member, and of other categories nothing is said. -/
theorem shared_told : Reached shared ∧ plain ∈ shared.queries ∧ plain.interface ≠ anyValue ∧
    1 ∈ shared.listeners plain ∧
    (calls plain 1 (shared.notify [sentinel plain "providers", offer]).2).filter (speaksOf "providers") =
      [[offer]] ∧
    (calls plain 1 (shared.notify [sentinel plain "providers", offer]).2).filter (speaksOf "routers") = [] := by
  have reached : Reached shared := (Reached.fresh 5000).after _
  have subscribed : plain ∈ shared.queries := by decide +kernel
  have one : plain.interface ≠ anyValue := by decide +kernel
  have listens : 1 ∈ shared.listeners plain := by decide +kernel
  obtain ⟨replaced, left, _⟩ := reached.notify_exact [sentinel plain "providers", offer]
  obtain ⟨_, told⟩ := replaced plain subscribed one "providers" (by decide +kernel)
  obtain ⟨_, untold⟩ := left plain "routers" (by decide +kernel)
  refine ⟨reached, subscribed, one, listens, ?_, untold 1⟩
  rw [told 1 listens]
  decide +kernel

end Categories

end ServiceGovernance.Registry
