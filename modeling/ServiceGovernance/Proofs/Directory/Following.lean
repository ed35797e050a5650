import ServiceGovernance.Directory
import ServiceGovernance.Proofs.Registry.Deliveries

/-!
A directory that stays subscribed agrees with the registry. What is cached for its query and what it holds
change together: each list that the cache takes up is delivered to it, and with its subscription it hears all
that is cached already.
-/

namespace ServiceGovernance

open Endpoint Registry

namespace Directory

/-- A directory hears what is delivered to the listener that stands for it. -/
def hear (d : Directory) (listener : Listener) (deliveries : List Delivery) : Directory :=
  (deliveries.filter (·.listener = listener)).foldl (fun d told => d.receive told.endpoints) d

/-- A directory as it is with these lists. -/
def ofLists (consumer : Endpoint) (lists : CategoryLists) : Directory where
  consumer
  providers := members ((lists.get? providersCategory).getD [])
  rules := Routing.Chain.ofEndpoints (members ((lists.get? routersCategory).getD []))

/-- The directory of a consumer has subscribed with a listener of its own, and since then others have made
requests. -/
inductive Following (consumer : Endpoint) (listener : Listener) : Registry → Directory → Prop where
  | start {r s : Registry} {deliveries : List Delivery} (reached : Reached r)
      (own : ∀ query, listener ∉ r.listeners query)
      (subscribed : r.subscribe (query { consumer }) listener = .ok (s, deliveries)) :
      Following consumer listener s (hear { consumer } listener deliveries)
  | step {r : Registry} {d : Directory} (before : Following consumer listener r d) (request : Request)
      (spares : request.Spares listener) :
      Following consumer listener (r.perform request).1 (d.hear listener (r.perform request).2)

/-- The directory listens for its own query and no other, and holds the lists that are cached for it. -/
structure Mirrors (consumer : Endpoint) (listener : Listener) (r : Registry) (d : Directory) : Prop where
  orderly : Orderly r
  listens : ∀ asked, listener ∈ r.listeners asked ↔ asked = query { consumer }
  agrees : d = ofLists consumer (r.cacheOf (query { consumer }))

variable {r s : Registry} {d : Directory} {listener : Listener} {asked consumer : Endpoint} {category : String}
  {endpoints : List Endpoint} {lists fresh : CategoryLists} {deliveries : List Delivery} {request : Request}

section Hearing

theorem hear_of_forall_ne (apart : ∀ told ∈ deliveries, told.listener ≠ listener) :
    d.hear listener deliveries = d := by
  rw [hear, List.filter_eq_nil_iff.2 fun told member => by simpa using apart told member]
  rfl

theorem hear_eq_foldl_calls (only : ∀ told ∈ deliveries, told.listener = listener → told.query = asked) :
    d.hear listener deliveries = (calls asked listener deliveries).foldl receive d := by
  have same : deliveries.filter (fun told => told.query = asked ∧ told.listener = listener) =
      deliveries.filter (·.listener = listener) :=
    List.filter_congr fun told member => by
      simpa using only told member
  rw [hear, calls, same, List.foldl_map]

theorem receive_ofLists (fitting : Fitting asked category endpoints) :
    (ofLists consumer lists).receive endpoints = ofLists consumer (lists.insert category endpoints) := by
  have about : categoryOf? endpoints = some category := by
    cases endpoints with
    | nil => exact absurd rfl fitting.filled
    | cons e rest => exact congrArg some (fitting.asked e List.mem_cons_self).1
  unfold receive
  rw [about]
  by_cases providers : category = providersCategory
  · subst providers
    simp [ofLists, providersCategory, routersCategory]
  · by_cases routers : category = routersCategory
    · subst routers
      simp [ofLists, providersCategory, routersCategory]
    · simp [ofLists, providers, routers, Ne.symm providers, Ne.symm routers]

theorem foldl_receive_ofLists
    (fitting : ∀ category endpoints, fresh.get? category = some endpoints → Fitting asked category endpoints) :
    fresh.values.foldl receive (ofLists consumer lists) = ofLists consumer (overlay lists fresh) := by
  have known : ∀ entry ∈ fresh.entries, Fitting asked entry.1 entry.2 := fun entry member =>
    fitting entry.1 entry.2 ((SortedMap.mem_entries_iff ..).1 member)
  rw [SortedMap.values, List.foldl_map, overlay]
  -- List by list, each one heard as the map takes it up, whatever came before.
  generalize fresh.entries = entries at known
  induction entries generalizing lists with
  | nil => rfl
  | cons entry rest ih =>
      rw [List.foldl_cons, List.foldl_cons, receive_ofLists (known entry List.mem_cons_self)]
      exact ih fun entry member => known entry (List.mem_cons_of_mem _ member)

/-- Told once of each of these lists, the directory holds them, and of the other categories what it held. -/
theorem hear_ofLists (only : ∀ told ∈ deliveries, told.listener = listener → told.query = asked)
    (told : calls asked listener deliveries = fresh.values)
    (fitting : ∀ category endpoints, fresh.get? category = some endpoints → Fitting asked category endpoints) :
    (ofLists consumer lists).hear listener deliveries = ofLists consumer (overlay lists fresh) := by
  rw [hear_eq_foldl_calls only, told]
  exact foldl_receive_ofLists fitting

end Hearing

section Following

theorem Mirrors.notify (mirrors : Mirrors consumer listener r d) (updates : List Endpoint) :
    d.hear listener (r.notify updates).2 =
      ofLists consumer ((r.notify updates).1.cacheOf (query { consumer })) := by
  have listens := (mirrors.listens (query { consumer })).2 rfl
  have told : calls (query { consumer }) listener (r.notify updates).2 =
      (r.freshLists (query { consumer }) updates).values := by
    rw [calls_notify mirrors.orderly, if_pos listens]
  have only : ∀ told ∈ (r.notify updates).2, told.listener = listener → told.query = query { consumer } :=
    fun told member same => (mirrors.listens told.query).1 (same ▸ (mem_deliveries_notify member).1)
  rw [mirrors.agrees, cacheOf_notify (mem_queries_of_listens listens)]
  exact hear_ofLists only told fun _ _ => mirrors.orderly.fitting_fresh

theorem Mirrors.perform (mirrors : Mirrors consumer listener r d) (spares : request.Spares listener) :
    Mirrors consumer listener (r.perform request).1 (d.hear listener (r.perform request).2) where
  orderly := mirrors.orderly.perform request
  listens asked := (mem_listeners_perform spares asked).trans (mirrors.listens asked)
  agrees := by
    have remains := mem_queries_of_listens ((mem_listeners_perform spares _).2 ((mirrors.listens _).2 rfl))
    rcases r.perform_cases remains with ⟨updates, rfl⟩ | ⟨silent, same⟩
    · exact mirrors.notify updates
    · rw [hear_of_forall_ne (not_told_perform spares silent), same]
      exact mirrors.agrees

theorem ofLists_empty (consumer : Endpoint) : ofLists consumer .empty = { consumer } := by
  simp [ofLists, members, Routing.Chain.ofEndpoints, Routing.Chain.byTimestamp]

/-- What is cached already is heard first. -/
theorem Mirrors.start (orderly : Orderly r) (own : ∀ asked, listener ∉ r.listeners asked)
    (subscribed : r.subscribe (query { consumer }) listener = .ok (s, deliveries)) :
    Mirrors consumer listener s (hear { consumer } listener deliveries) := by
  unfold subscribe at subscribed
  split at subscribed
  · cases subscribed
  · cases subscribed
    refine ⟨orderly.addListener _ _, fun asked => ?_, ?_⟩
    · rw [listeners_addListener, if_neg (own _)]
      split
      · next same => simp [same]
      · next apart => exact iff_of_false (own asked) apart
    · generalize query { consumer } = asked
      have told : calls asked listener (deliveriesOf asked [listener] (r.cacheOf asked)) =
          (r.cacheOf asked).values := by
        rw [calls_deliveriesOf (List.pairwise_singleton _ _), if_pos ⟨rfl, List.mem_singleton_self listener⟩]
      rw [← ofLists_empty, hear_ofLists (fun told member _ => (mem_deliveriesOf_iff.1 member).1) told
        fun _ _ => orderly.fitting_cacheOf, overlay_empty]
      rfl

theorem Following.mirrors (following : Following consumer listener r d) : Mirrors consumer listener r d := by
  induction following with
  | start reached own subscribed => exact .start reached.orderly own subscribed
  | step before request spares ih => exact ih.perform spares

/-- A directory that has subscribed, and has not been unsubscribed since, holds the members that the registry
has cached for its query: as its providers those of the providers, and as its rules the chain made from those
of the routing rules. So where a call is routed depends on nothing but the cache. -/
theorem Following.holds_cached (following : Following consumer listener r d) :
    d.query = query { consumer } ∧
    d.providers = members (r.listOf d.query providersCategory) ∧
    d.rules = Routing.Chain.ofEndpoints (members (r.listOf d.query routersCategory)) ∧
    ∀ call, d.routed call =
      (Routing.Chain.ofEndpoints (members (r.listOf d.query routersCategory))).route
        (members (r.listOf d.query providersCategory)) call := by
  rw [following.mirrors.agrees]
  exact ⟨rfl, rfl, rfl, fun _ => rfl⟩

/-- Another consumer asks the same before the directory of this one comes. -/
def asker : Endpoint := { plain with host := "e" }

def occupied : Registry := after {} [.subscribe (query { consumer := asker }) 1, .notify [offer]]

/-- The other listener leaves, and then the routing rules come. -/
theorem newcomer_holds_cached : ∃ r d, Following asker 0 r d ∧ r.listeners d.query = [0] ∧
    d.providers = [offer] ∧ d.rules.length = 1 ∧ d.routed asker = [] := by
  have elsewhere : (Request.subscribe (query { consumer := asker }) 1).Spares 0 := Nat.one_ne_zero
  have notified : (Request.notify [offer]).Spares 0 := trivial
  have own : ∀ asked, 0 ∉ occupied.listeners asked := fun asked =>
    (mem_listeners_perform notified asked).not.2
      ((mem_listeners_perform elsewhere asked).not.2 List.not_mem_nil)
  have subscribed : occupied.subscribe (query { consumer := asker }) 0 =
      .ok (occupied.addListener (query { consumer := asker }) 0,
        deliveriesOf (query { consumer := asker }) [0] (occupied.cacheOf (query { consumer := asker }))) := by
    have allowed : refusal? (query { consumer := asker }) = none := by decide +kernel
    rw [subscribe, allowed]
  have started := Following.start ((Reached.fresh 5000).after _) own subscribed
  have alone := started.step (.unsubscribe (query { consumer := asker }) 1) Nat.one_ne_zero
  have ruled := alone.step (.notify [conditionRule "i" "host = e => host = c"]) trivial
  obtain ⟨_, providers, rules, routed⟩ := ruled.holds_cached
  refine ⟨_, _, ruled, by decide +kernel, providers.trans (by decide +kernel), ?_, ?_⟩
  · rw [rules]
    decide +kernel
  · rw [routed]
    decide +kernel

end Following

end Directory

end ServiceGovernance
