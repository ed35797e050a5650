import ServiceGovernance.Proofs.Registry.Listeners

/-!
What a registry can be asked to do, and the states that it comes to. Somebody listens to every query for
which anything is cached, nobody twice, and a cached list holds endpoints of its category that the query
asks for: sentinels only, or none.
-/

namespace ServiceGovernance.Registry

open Endpoint

/-- A lookup that the cache does not answer subscribes a listener of its own when it begins and unsubscribes
it when it ends, told or not; other requests come in between. -/
inductive Request where
  | register (e : Endpoint)
  | unregister (e : Endpoint)
  | subscribe (query : Endpoint) (listener : Listener)
  | unsubscribe (query : Endpoint) (listener : Listener)
  | notify (updates : List Endpoint)
  | beginLookup (query : Endpoint) (listener : Listener)
  | endLookup (query : Endpoint) (listener : Listener)
  | destroy

/-- A subscription that is refused changes nothing. -/
def attend (r : Registry) (query : Endpoint) (listener : Listener) : Registry × List Delivery :=
  (r.subscribe query listener).toOption.getD (r, [])

/-- The registry after a request, and what the listeners are told meanwhile. -/
def perform (r : Registry) : Request → Registry × List Delivery
  | .register e => (r.register e, [])
  | .unregister e => (r.unregister e, [])
  | .subscribe query listener => r.attend query listener
  | .unsubscribe query listener => (r.unsubscribe query listener, [])
  | .notify updates => r.notify updates
  | .beginLookup query listener => if (r.cached? query).isSome then (r, []) else r.attend query listener
  | .endLookup query listener => (r.unsubscribe query listener, [])
  | .destroy => (r.destroy, [])

inductive Reached : Registry → Prop where
  | fresh (lookupTimeout : Nat) : Reached { lookupTimeout }
  | step {r : Registry} (before : Reached r) (request : Request) : Reached (r.perform request).1

/-- What a list says of a category to a query. -/
structure Fitting (query : Endpoint) (category : String) (endpoints : List Endpoint) : Prop where
  filled : endpoints ≠ []
  uniform : (∀ e ∈ endpoints, e.isSentinel = true) ∨ ∀ e ∈ endpoints, e.isSentinel = false
  asked : ∀ e ∈ endpoints, e.category = category ∧ query.admits e = true

structure Orderly (r : Registry) : Prop where
  heard : ∀ query listeners, r.subscribed.get? query = some listeners → listeners ≠ [] ∧ listeners.Nodup
  cached : ∀ query lists, r.notified.get? query = some lists → query ∈ r.queries
  fitting : ∀ query lists, r.notified.get? query = some lists →
    ∀ category endpoints, lists.get? category = some endpoints → Fitting query category endpoints

/-- What is cached for a query stays, or it goes together with the query. -/
def Stays (query : Endpoint) (r s : Registry) : Prop :=
  s.notified.get? query = r.notified.get? query ∨ s.notified.get? query = none ∧ query ∉ s.queries

variable {r s : Registry} {query other : Endpoint} {listener : Listener} {category : String}
  {cached update updates endpoints : List Endpoint} {e : Endpoint}

section Lists

theorem members_isEmpty_iff : (members endpoints).isEmpty = true ↔ ∀ e ∈ endpoints, e.isSentinel = true := by
  simp [members]

theorem mem_withoutIdleSentinels_iff : e ∈ withoutIdleSentinels endpoints ↔
    e ∈ endpoints ∧ (e.isSentinel = true → ∀ other ∈ endpoints, other.isSentinel = true) := by
  unfold withoutIdleSentinels
  split
  · next idle => exact (and_iff_left fun _ => members_isEmpty_iff.1 idle).symm
  · next busy => simp [mem_members_iff, mt members_isEmpty_iff.2 busy]

theorem withoutIdleSentinels_ne_nil (filled : endpoints ≠ []) : withoutIdleSentinels endpoints ≠ [] := by
  unfold withoutIdleSentinels
  split
  · exact filled
  · next busy => simpa using busy

theorem uniform_withoutIdleSentinels (endpoints : List Endpoint) :
    (∀ e ∈ withoutIdleSentinels endpoints, e.isSentinel = true) ∨
      ∀ e ∈ withoutIdleSentinels endpoints, e.isSentinel = false := by
  by_cases idle : ∀ e ∈ endpoints, e.isSentinel = true
  · exact .inl fun e member => idle e (mem_withoutIdleSentinels_iff.1 member).1
  · exact .inr fun e member =>
      Bool.eq_false_iff.2 fun sentinel => idle ((mem_withoutIdleSentinels_iff.1 member).2 sentinel)

/-- A merge says what the update says, and for the rest what was known before. -/
theorem fitting_merge (filled : update ≠ [])
    (known : ∀ e ∈ cached, e.category = category ∧ query.admits e = true)
    (asked : ∀ e ∈ update, e.category = category ∧ query.admits e = true) :
    Fitting query category (merge cached update) where
  filled := withoutIdleSentinels_ne_nil fun none_there => filled (List.append_eq_nil_iff.1 none_there).2
  uniform := uniform_withoutIdleSentinels _
  asked e member := by
    rcases List.mem_append.1 (mem_withoutIdleSentinels_iff.1 member).1 with old | new
    · exact known e (mem_kept_iff.1 old).1
    · exact asked e new

end Lists

section Subscriptions

theorem get?_subscribed_unsubscribe (r : Registry) (query : Endpoint) (listener : Listener) (other : Endpoint) :
    (r.unsubscribe query listener).subscribed.get? other =
      if other = query then ((r.subscribed.get? query).map (·.filter (· != listener))).filter (!·.isEmpty)
      else r.subscribed.get? other := by
  unfold unsubscribe
  split
  · next absent =>
      split
      · next same => rw [same, absent]; rfl
      · rfl
  · next present there =>
      rw [there]
      dsimp only
      split
      · next emptied => simp [Option.filter, emptied]
      · next filled => simp [Option.filter, filled]

theorem stays_unsubscribe (r : Registry) (query : Endpoint) (listener : Listener) (other : Endpoint) :
    Stays other r (r.unsubscribe query listener) := by
  unfold Stays unsubscribe
  split
  · exact .inl rfl
  · dsimp only
    split
    · by_cases same : other = query
      · simp [same, queries, SortedMap.mem_keys_iff]
      · simp [same]
    · exact .inl rfl

theorem Stays.found {lists : CategoryLists} (stays : Stays query r s)
    (found : s.notified.get? query = some lists) : r.notified.get? query = some lists := by
  rcases stays with same | gone
  · exact same.symm.trans found
  · rw [gone.1] at found
    cases found

theorem Stays.unsubscribe (stays : Stays other r s) (query : Endpoint) (listener : Listener) :
    Stays other r (s.unsubscribe query listener) := by
  rcases s.stays_unsubscribe query listener other with same | gone
  · refine stays.imp same.trans fun gone => ⟨same.trans gone.1, fun member => ?_⟩
    exact gone.2 (mem_queries_of_unsubscribe member)
  · exact .inr gone

theorem Stays.cacheOf (stays : Stays query r s) (subscribed : query ∈ s.queries) :
    s.cacheOf query = r.cacheOf query := by
  unfold Registry.cacheOf
  rw [stays.resolve_right fun gone => gone.2 subscribed]

/-- A subscription is refused, or it adds a listener and tells it what is cached. -/
theorem attend_cases (r : Registry) (query : Endpoint) (listener : Listener) :
    r.attend query listener = (r, []) ∨
      r.attend query listener =
        (r.addListener query listener, deliveriesOf query [listener] (r.cacheOf query)) := by
  unfold attend subscribe
  cases refusal? query with
  | some fault => exact .inl rfl
  | none => exact .inr rfl

/-- Only a known query is cached, so a lookup that begins adds its listener or finds its answer. -/
theorem perform_beginLookup_cases (r : Registry) (query : Endpoint) (listener : Listener) :
    r.perform (.beginLookup query listener) = (r, []) ∨
      r.perform (.beginLookup query listener) = r.perform (.subscribe query listener) := by
  unfold perform
  dsimp only
  split
  · exact .inl rfl
  · exact .inr rfl

theorem stays_attend (r : Registry) (query : Endpoint) (listener : Listener) (other : Endpoint) :
    Stays other r (r.attend query listener).1 := by
  rcases r.attend_cases query listener with same | added
  · exact same ▸ .inl rfl
  · exact added ▸ .inl rfl

/-- Only a notification changes what is cached for a query that remains. -/
theorem stays_perform (r : Registry) (query : Endpoint) {request : Request}
    (silent : ∀ updates, request ≠ .notify updates) : Stays query r (r.perform request).1 := by
  cases request with
  | register e => exact .inl rfl
  | unregister e => exact .inl rfl
  | subscribe asked listener => exact r.stays_attend asked listener query
  | unsubscribe asked listener => exact r.stays_unsubscribe asked listener query
  | notify updates => exact absurd rfl (silent updates)
  | beginLookup asked listener =>
      rcases r.perform_beginLookup_cases asked listener with same | added
      · exact same ▸ .inl rfl
      · exact added ▸ r.stays_attend asked listener query
  | endLookup asked listener => exact r.stays_unsubscribe asked listener query
  | destroy =>
      have unregistered : Stays query r (r.dynamicRegistered.foldl unregister r) :=
        List.foldlRecOn r.dynamicRegistered unregister (.inl rfl) fun _ stays _ _ => stays
      exact List.foldlRecOn r.subscriptions _ unregistered fun _ stays pair _ =>
        stays.unsubscribe pair.1 pair.2

/-- What is cached for a query that remains changes with a notification, or not at all. -/
theorem perform_cases (r : Registry) {request : Request} (remains : query ∈ (r.perform request).1.queries) :
    (∃ updates, request = .notify updates) ∨
      (∀ updates, request ≠ .notify updates) ∧ (r.perform request).1.cacheOf query = r.cacheOf query := by
  by_cases notified : ∃ updates, request = .notify updates
  · exact .inl notified
  · have silent : ∀ updates, request ≠ .notify updates := fun updates same => notified ⟨updates, same⟩
    exact .inr ⟨silent, (r.stays_perform query silent).cacheOf remains⟩

end Subscriptions

section Steps

theorem Orderly.withRegistered (orderly : Orderly r) (registered : SortedSet Endpoint) :
    Orderly { r with registered } :=
  ⟨orderly.heard, orderly.cached, orderly.fitting⟩

theorem Orderly.nodup_listeners (orderly : Orderly r) (query : Endpoint) : (r.listeners query).Nodup := by
  unfold listeners
  cases found : r.subscribed.get? query with
  | none => exact .nil
  | some listeners => exact (orderly.heard query listeners found).2

theorem Orderly.addListener (orderly : Orderly r) (query : Endpoint) (listener : Listener) :
    Orderly (r.addListener query listener) where
  heard other listeners found := by
    have nodup := orderly.nodup_listeners query
    unfold Registry.addListener at found
    rw [SortedMap.get?_insert] at found
    split at found
    · cases found
      split
      · next there => exact ⟨List.ne_nil_of_mem there, nodup⟩
      · next new =>
          exact ⟨by simp, List.nodup_append.2 ⟨nodup, List.pairwise_singleton _ _, fun a old b last => by
            rw [List.mem_singleton.1 last]
            rintro rfl
            exact new old⟩⟩
    · exact orderly.heard other listeners found
  cached other lists found := mem_queries_addListener.2 (.inr (orderly.cached other lists found))
  fitting := orderly.fitting

theorem Orderly.attend (orderly : Orderly r) (query : Endpoint) (listener : Listener) :
    Orderly (r.attend query listener).1 := by
  rcases r.attend_cases query listener with same | added
  · exact same ▸ orderly
  · exact added ▸ orderly.addListener query listener

theorem Orderly.unsubscribe (orderly : Orderly r) (query : Endpoint) (listener : Listener) :
    Orderly (r.unsubscribe query listener) where
  heard other listeners found := by
    rw [get?_subscribed_unsubscribe] at found
    split at found
    · obtain ⟨remaining, filled⟩ := Option.filter_eq_some_iff.1 found
      obtain ⟨before, known, rfl⟩ := Option.map_eq_some_iff.1 remaining
      exact ⟨by simpa using filled, (orderly.heard query before known).2.filter _⟩
    · exact orderly.heard other listeners found
  cached := cached_unsubscribe query listener orderly.cached
  fitting other lists found := orderly.fitting other lists ((r.stays_unsubscribe query listener other).found found)

theorem Orderly.fitting_cacheOf (orderly : Orderly r)
    (listed : (r.cacheOf query).get? category = some endpoints) : Fitting query category endpoints := by
  unfold cacheOf at listed
  cases found : r.notified.get? query with
  | none => simp [found] at listed
  | some lists =>
      rw [found] at listed
      exact orderly.fitting query lists found category endpoints listed

theorem Orderly.known (orderly : Orderly r) (query : Endpoint) (category : String) :
    ∀ e ∈ r.listOf query category, e.category = category ∧ query.admits e = true := by
  unfold listOf
  cases listed : (r.cacheOf query).get? category with
  | none => simp
  | some endpoints => exact (orderly.fitting_cacheOf listed).asked

/-- What an update brings fits. -/
theorem Orderly.fitting_fresh (orderly : Orderly r)
    (fresh : (r.freshLists query updates).get? category = some endpoints) :
    Fitting query category endpoints := by
  rw [get?_freshLists] at fresh
  split at fresh
  · cases fresh
  · next filled =>
      cases fresh
      exact fitting_merge filled (orderly.known query category) fun e member =>
        (mem_share_iff.1 member).2.symm

theorem Orderly.notify (orderly : Orderly r) (updates : List Endpoint) : Orderly (r.notify updates).1 where
  heard := orderly.heard
  cached query lists found := by
    rw [get?_notified_notify] at found
    split at found
    · next both => exact both.1
    · exact orderly.cached query lists found
  fitting query lists found category endpoints listed := by
    rw [get?_notified_notify] at found
    split at found
    · cases found
      rw [get?_overlay, Option.or_eq_some_iff] at listed
      rcases listed with fresh | ⟨_, old⟩
      · exact orderly.fitting_fresh fresh
      · exact orderly.fitting_cacheOf old
    · exact orderly.fitting query lists found category endpoints listed

theorem Orderly.destroy (orderly : Orderly r) : Orderly r.destroy := by
  have unregistered : Orderly (r.dynamicRegistered.foldl Registry.unregister r) :=
    List.foldlRecOn r.dynamicRegistered Registry.unregister orderly fun _ kept e _ =>
      kept.withRegistered _
  exact List.foldlRecOn r.subscriptions _ unregistered fun _ kept pair _ => kept.unsubscribe pair.1 pair.2

theorem Orderly.perform (orderly : Orderly r) (request : Request) : Orderly (r.perform request).1 := by
  cases request with
  | register e => exact orderly.withRegistered _
  | unregister e => exact orderly.withRegistered _
  | subscribe query listener => exact orderly.attend query listener
  | unsubscribe query listener => exact orderly.unsubscribe query listener
  | notify updates => exact orderly.notify updates
  | beginLookup query listener =>
      rcases r.perform_beginLookup_cases query listener with same | added
      · exact same ▸ orderly
      · exact added ▸ orderly.attend query listener
  | endLookup query listener => exact orderly.unsubscribe query listener
  | destroy => exact orderly.destroy

theorem Reached.orderly (reached : Reached r) : Orderly r := by
  induction reached with
  | fresh lookupTimeout => exact ⟨nofun, nofun, nofun⟩
  | step before request ih => exact ih.perform request

/-- In every state somebody listens to each cached query, no query has an empty list of listeners or one with
repetitions, and a cached list is not empty, does not mix sentinels with members, and holds endpoints of its
category that the query asks for. -/
theorem Reached.caches_fit (reached : Reached r) :
    (∀ query lists, r.notified.get? query = some lists → r.listeners query ≠ []) ∧
    (∀ query listeners, r.subscribed.get? query = some listeners → listeners ≠ [] ∧ listeners.Nodup) ∧
    ∀ query lists category endpoints, r.notified.get? query = some lists →
      lists.get? category = some endpoints →
        endpoints ≠ [] ∧
        ((∀ e ∈ endpoints, e.isSentinel = true) ∨ ∀ e ∈ endpoints, e.isSentinel = false) ∧
        ∀ e ∈ endpoints, e.category = category ∧ query.admits e = true := by
  have orderly := reached.orderly
  refine ⟨fun query lists found => ?_, orderly.heard, fun query lists category endpoints found listed => ?_⟩
  · obtain ⟨listeners, known⟩ := SortedMap.mem_keys_iff.1 (orderly.cached query lists found)
    rw [Registry.listeners, known]
    exact (orderly.heard query listeners known).1
  · have fitting := orderly.fitting query lists found category endpoints listed
    exact ⟨fitting.filled, fitting.uniform, fitting.asked⟩

/-- The registry after some requests, one after the other. -/
def after (r : Registry) (requests : List Request) : Registry :=
  requests.foldl (fun r request => (r.perform request).1) r

theorem Reached.after (reached : Reached r) (requests : List Request) : Reached (r.after requests) :=
  List.foldlRecOn requests _ reached fun _ before request _ => before.step request

def offer : Endpoint := { protocol := "a", host := "b", port := 1, path := "i" }

/-- A query for the providers of all interfaces. -/
def everywhere : Endpoint := { protocol := "c", host := "d", port := 1, path := "*" }

/-- A sentinel comes together with a member, and a lookup that nobody answers comes and goes. -/
def visited : Registry := after {} [.subscribe everywhere 0,
  .notify [sentinel everywhere "providers", offer], .beginLookup offer 1, .endLookup offer 1]

theorem reached_visited : Reached visited := (Reached.fresh 5000).after _

theorem visited_fits : Reached visited ∧ visited.listeners offer = [] ∧
    visited.notified.get? everywhere = some (SortedMap.ofList [("providers", [offer])]) ∧
    visited.listeners everywhere ≠ [] ∧ offer.category = "providers" ∧ everywhere.admits offer = true := by
  have cached : visited.notified.get? everywhere = some (SortedMap.ofList [("providers", [offer])]) := by
    decide +kernel
  obtain ⟨attended, _, fits⟩ := reached_visited.caches_fit
  obtain ⟨_, _, asked⟩ := fits everywhere _ "providers" [offer] cached (by decide +kernel)
  exact ⟨reached_visited, by decide +kernel, cached, attended everywhere _ cached,
    asked offer List.mem_cons_self⟩

end Steps

end ServiceGovernance.Registry
