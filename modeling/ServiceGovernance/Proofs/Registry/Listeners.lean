import ServiceGovernance.Proofs.Registry.Notification

/-!
Who listens to a query, after a listener has come or gone. A query is known as long as somebody listens
to it, and only for a known query is anything cached.
-/

namespace ServiceGovernance.Registry

variable {r : Registry} {query other : Endpoint} {listener : Listener}

theorem mem_queries_of_listens (listens : listener ∈ r.listeners query) : query ∈ r.queries := by
  rw [queries, SortedMap.mem_keys_iff]
  cases known : r.subscribed.get? query with
  | none => simp [listeners, known] at listens
  | some listeners => exact ⟨listeners, rfl⟩

theorem hasListeners_iff : r.hasListeners query = true ↔ r.listeners query ≠ [] := by
  simp [hasListeners]

theorem listeners_addListener (r : Registry) (query : Endpoint) (listener : Listener) (other : Endpoint) :
    (r.addListener query listener).listeners other =
      if other = query then
        if listener ∈ r.listeners query then r.listeners query else r.listeners query ++ [listener]
      else r.listeners other := by
  rw [listeners, addListener, SortedMap.get?_insert]
  split <;> rfl

theorem hasListeners_addListener :
    (r.addListener query listener).hasListeners other = true ↔
      other = query ∨ r.hasListeners other = true := by
  rw [hasListeners_iff, hasListeners_iff, listeners_addListener]
  by_cases same : other = query
  · subst same
    rw [if_pos rfl]
    split
    · next there => simp [List.ne_nil_of_mem there]
    · simp
  · simp [same]

theorem listeners_unsubscribe (r : Registry) (query : Endpoint) (listener : Listener) (other : Endpoint) :
    (r.unsubscribe query listener).listeners other =
      if other = query then (r.listeners query).filter (· != listener) else r.listeners other := by
  unfold unsubscribe
  split
  · next absent =>
      split
      · next same => simp [same, listeners, absent]
      · rfl
  · next present there =>
      have known : r.listeners query = present := by rw [listeners, there, Option.getD_some]
      rw [known]
      dsimp only
      split
      · next emptied =>
          rw [listeners, SortedMap.get?_erase]
          split
          · exact (List.isEmpty_iff.1 emptied).symm
          · rfl
      · rw [listeners, SortedMap.get?_insert]
        split <;> rfl

theorem hasListeners_unsubscribe_of_ne (apart : other ≠ query) :
    (r.unsubscribe query listener).hasListeners other = r.hasListeners other := by
  rw [hasListeners, hasListeners, listeners_unsubscribe, if_neg apart]

theorem attended_unsubscribe (query : Endpoint) (listener : Listener)
    (attended : ∀ query ∈ r.queries, r.hasListeners query = true) :
    ∀ other ∈ (r.unsubscribe query listener).queries,
      (r.unsubscribe query listener).hasListeners other = true := by
  intro other member
  rcases r.unsubscribe_cases query listener with ⟨heard, queries, _⟩ | ⟨_, queries, _⟩
  · by_cases same : other = query
    · rw [same]
      exact heard
    · rw [hasListeners_unsubscribe_of_ne same]
      exact attended other ((queries other).1 member)
  · obtain ⟨subscribed, apart⟩ := (queries other).1 member
    rw [hasListeners_unsubscribe_of_ne apart]
    exact attended other subscribed

theorem cached_unsubscribe (query : Endpoint) (listener : Listener)
    (cached : ∀ query lists, r.notified.get? query = some lists → query ∈ r.queries) :
    ∀ other lists, (r.unsubscribe query listener).notified.get? other = some lists →
      other ∈ (r.unsubscribe query listener).queries := by
  intro other lists found
  unfold unsubscribe at found ⊢
  split at found
  · exact cached other lists found
  · next present there =>
      dsimp only at found ⊢
      split at found
      · next emptied =>
          rw [SortedMap.get?_erase] at found
          split at found
          · cases found
          · next apart =>
              obtain ⟨listeners, known⟩ := SortedMap.mem_keys_iff.1 (cached other lists found)
              rw [if_pos emptied, queries, SortedMap.mem_keys_iff]
              exact ⟨listeners, (SortedMap.get?_erase ..).trans ((if_neg apart).trans known)⟩
      · next filled =>
          obtain ⟨listeners, known⟩ := SortedMap.mem_keys_iff.1 (cached other lists found)
          rw [if_neg filled, queries, SortedMap.mem_keys_iff, SortedMap.get?_insert]
          split
          · exact ⟨_, rfl⟩
          · exact ⟨listeners, known⟩

theorem mem_subscriptions_iff :
    (query, listener) ∈ r.subscriptions ↔ listener ∈ r.listeners query := by
  simp only [subscriptions, List.mem_flatMap, Prod.exists, SortedMap.mem_entries_iff, List.mem_map,
    Prod.mk.injEq, listeners]
  constructor
  · rintro ⟨_, listeners, found, _, member, rfl, rfl⟩
    rw [found]
    exact member
  · intro member
    cases found : r.subscribed.get? query with
    | none => simp [found] at member
    | some listeners =>
        rw [found] at member
        exact ⟨query, listeners, found, listener, member, rfl, rfl⟩

end ServiceGovernance.Registry
