import ServiceGovernance.Proofs.SortedSets
import ServiceGovernance.Registry.Basic

/-!
What a notification does to the list of one category that is cached for a query. The query's share of
the updates decides: without a share the list stays, otherwise the share takes the place of what was
cached of its interfaces. With the last listener of a query all of its lists go.
-/

namespace ServiceGovernance

namespace Registry

open Endpoint

variable {r : Registry} {query : Endpoint} {category : String} {updates : List Endpoint}

/-- The updates of a category that a query asks for. -/
def share (query : Endpoint) (updates : List Endpoint) (category : String) : List Endpoint :=
  (updates.filter query.admits).filter (·.category = category)

/-- The list that is cached of a category. -/
def listOf (r : Registry) (query : Endpoint) (category : String) : List Endpoint :=
  ((r.cacheOf query).get? category).getD []

theorem get?_overlay (lists fresh : CategoryLists) (category : String) :
    (overlay lists fresh).get? category = (fresh.get? category).or (lists.get? category) := by
  unfold overlay
  have distinct : (fresh.entries.map (·.1)).Nodup := fresh.nodup_keys
  cases found : fresh.get? category with
  | none =>
      refine SortedMap.get?_foldl_insert_of_not_mem fun member => ?_
      obtain ⟨value, there⟩ := SortedMap.mem_keys_iff.1 member
      rw [found] at there
      cases there
  | some value =>
      have member := (SortedMap.mem_entries_iff fresh category value).2 found
      rw [SortedMap.get?_foldl_insert_of_mem distinct member, Option.some_or]

theorem overlay_empty (lists : CategoryLists) : overlay .empty lists = lists :=
  SortedMap.ofList_entries lists

theorem get?_byCategory (endpoints : List Endpoint) (category : String) :
    (byCategory endpoints).get? category =
      if endpoints.filter (·.category = category) = [] then none
      else some (endpoints.filter (·.category = category)) := by
  suffices general : ∀ lists : CategoryLists,
      (endpoints.foldl (fun lists e => lists.update e.category [] (· ++ [e])) lists).get? category =
        if endpoints.filter (·.category = category) = [] then lists.get? category
        else some ((lists.get? category).getD [] ++ endpoints.filter (·.category = category)) by
    simpa [byCategory] using general SortedMap.empty
  induction endpoints with
  | nil => simp
  | cons e rest ih =>
      intro lists
      rw [List.foldl_cons, ih, SortedMap.update, SortedMap.get?_insert]
      by_cases same : e.category = category
      · subst same
        by_cases more : rest.filter (·.category = e.category) = [] <;> simp [more]
      · have apart : ¬ category = e.category := fun h => same h.symm
        simp [same, apart]

theorem get?_freshLists (r : Registry) (query : Endpoint) (updates : List Endpoint) (category : String) :
    (r.freshLists query updates).get? category =
      if share query updates category = [] then none
      else some (merge (r.listOf query category) (share query updates category)) := by
  rw [freshLists, SortedMap.get?_mapValues, get?_byCategory]
  show Option.map _ (if share query updates category = [] then none
    else some (share query updates category)) = _
  split <;> rfl

theorem freshLists_isEmpty_iff :
    (r.freshLists query updates).entries.isEmpty = true ↔ ∀ u ∈ updates, query.admits u = false := by
  simp only [SortedMap.entries_isEmpty_iff, get?_freshLists]
  constructor
  · intro none_fresh u member
    have no_share : share query updates u.category = [] := by
      have absent := none_fresh u.category
      split at absent
      · assumption
      · cases absent
    refine Bool.eq_false_iff.2 fun admitted => ?_
    have shared : u ∈ share query updates u.category := by simp [share, member, admitted]
    rw [no_share] at shared
    cases shared
  · intro none_mine category
    refine if_pos (List.eq_nil_iff_forall_not_mem.2 fun u shared => ?_)
    have admitted : u ∈ updates ∧ query.admits u = true := by simpa [share] using (List.mem_filter.1 shared).1
    rw [none_mine u admitted.1] at admitted
    cases admitted.2

theorem mem_touched_iff {entry : Endpoint × List Listener × CategoryLists} :
    entry ∈ r.touched updates ↔ r.subscribed.get? entry.1 = some entry.2.1 ∧
      entry.2.2 = r.freshLists entry.1 updates ∧ entry.2.2.entries.isEmpty = false := by
  obtain ⟨query, listeners, lists⟩ := entry
  simp only [touched, List.mem_filter, List.mem_map, Prod.exists, SortedMap.mem_entries_iff, Prod.mk.injEq,
    Bool.not_eq_true']
  constructor
  · rintro ⟨⟨_, _, found, rfl, rfl, rfl⟩, filled⟩
    exact ⟨found, rfl, filled⟩
  · rintro ⟨found, rfl, filled⟩
    exact ⟨⟨query, listeners, found, rfl, rfl, rfl⟩, filled⟩

theorem nodup_touched (r : Registry) (updates : List Endpoint) : ((r.touched updates).map (·.1)).Nodup := by
  have keys : (r.subscribed.entries.map fun entry => entry.1).Nodup := r.subscribed.nodup_keys
  unfold touched
  refine (List.filter_sublist.map _).nodup ?_
  rw [List.map_map]
  exact keys

/-- What is cached for a query changes exactly if somebody listens to it and it asks for an update. -/
theorem get?_notified_notify (r : Registry) (updates : List Endpoint) (query : Endpoint) :
    (r.notify updates).1.notified.get? query =
      if query ∈ r.queries ∧ ∃ u ∈ updates, query.admits u = true then
        some (overlay (r.cacheOf query) (r.freshLists query updates))
      else r.notified.get? query := by
  have asked_iff : ∀ query, (r.freshLists query updates).entries.isEmpty = false ↔
      ∃ u ∈ updates, query.admits u = true := fun query => by
    rw [← Bool.not_eq_true, freshLists_isEmpty_iff]
    simp
  show ((r.touched updates).foldl (fun notified entry => notified.insert entry.1
    (overlay (r.cacheOf entry.1) entry.2.2)) r.notified).get? query = _
  split
  · next both =>
      obtain ⟨listeners, found⟩ := SortedMap.mem_keys_iff.1 both.1
      have member : (query, listeners, r.freshLists query updates) ∈ r.touched updates :=
        mem_touched_iff.2 ⟨found, rfl, (asked_iff query).2 both.2⟩
      rw [SortedMap.get?_foldl_insert_of_mem (nodup_touched r updates) member]
  · next spared =>
      rw [SortedMap.get?_foldl_insert_of_not_mem fun member => spared ?_]
      obtain ⟨entry, there, rfl⟩ := List.mem_map.1 member
      obtain ⟨found, lists, filled⟩ := mem_touched_iff.1 there
      exact ⟨SortedMap.mem_keys_iff.2 ⟨_, found⟩, (asked_iff entry.1).1 (lists ▸ filled)⟩

theorem cacheOf_notify (subscribed : query ∈ r.queries) (updates : List Endpoint) :
    (r.notify updates).1.cacheOf query = overlay (r.cacheOf query) (r.freshLists query updates) := by
  rw [cacheOf, get?_notified_notify]
  split
  · rfl
  · next spared =>
      have untouched : ∀ u ∈ updates, query.admits u = false := fun u member =>
        Bool.eq_false_iff.2 fun admitted => spared ⟨subscribed, u, member, admitted⟩
      have empty := List.isEmpty_iff.1 (freshLists_isEmpty_iff (r := r) |>.2 untouched)
      rw [overlay, empty]
      rfl

/-- Where a query has no share of the updates, what is cached stays. -/
theorem get?_cacheOf_notify (subscribed : query ∈ r.queries) (updates : List Endpoint) (category : String) :
    ((r.notify updates).1.cacheOf query).get? category =
      if share query updates category = [] then (r.cacheOf query).get? category
      else some (merge (r.listOf query category) (share query updates category)) := by
  rw [cacheOf_notify subscribed, get?_overlay, get?_freshLists]
  split <;> rfl

theorem cacheOf_notify_of_not_mem (absent : query ∉ r.queries) (updates : List Endpoint) :
    (r.notify updates).1.cacheOf query = r.cacheOf query := by
  rw [cacheOf, get?_notified_notify, if_neg fun both => absent both.1]
  rfl

theorem mem_members_iff {endpoints : List Endpoint} {e : Endpoint} :
    e ∈ members endpoints ↔ e ∈ endpoints ∧ e.isSentinel = false := by
  simp [members]

theorem members_withoutIdleSentinels (endpoints : List Endpoint) :
    members (withoutIdleSentinels endpoints) = members endpoints := by
  unfold withoutIdleSentinels
  split
  · rfl
  · simp [members]

theorem mem_kept_iff {cached update : List Endpoint} {e : Endpoint} :
    e ∈ kept cached update ↔
      e ∈ cached ∧ ∀ u ∈ update, u.interface ≠ anyValue ∧ u.interface ≠ e.interface := by
  unfold kept
  simp only
  split
  · next every =>
      obtain ⟨u, member, any⟩ := List.mem_map.1 every
      exact iff_of_false List.not_mem_nil fun kept => (kept.2 u member).1 any
  · next some_only =>
      simp only [List.mem_map, not_exists, not_and] at some_only
      simp only [List.mem_filter, Bool.not_eq_true', List.contains_eq_mem, decide_eq_false_iff_not,
        List.mem_map,
        not_exists, not_and]
      exact and_congr_right fun _ => forall₂_congr fun u member =>
        (and_iff_right (some_only u member)).symm

/-- The members after a merge: those of the update, and those cached that it does not speak of. -/
theorem mem_members_merge {cached update : List Endpoint} {e : Endpoint} :
    e ∈ members (merge cached update) ↔ e ∈ members update ∨
      e ∈ members cached ∧ ∀ u ∈ update, u.interface ≠ anyValue ∧ u.interface ≠ e.interface := by
  rw [merge, members_withoutIdleSentinels, mem_members_iff, mem_members_iff, mem_members_iff,
    List.mem_append,
    mem_kept_iff]
  grind

theorem mem_share_iff {e : Endpoint} :
    e ∈ share query updates category ↔ e ∈ updates ∧ query.admits e = true ∧ e.category = category := by
  simp only [share, List.mem_filter, decide_eq_true_eq, and_assoc]

/-- The members of a category after a notification, in one formula for queries with and without a share. -/
theorem mem_members_notify (subscribed : query ∈ r.queries) {e : Endpoint} :
    e ∈ members ((r.notify updates).1.listOf query category) ↔
      e ∈ members (share query updates category) ∨ e ∈ members (r.listOf query category) ∧
        ∀ u ∈ share query updates category, u.interface ≠ anyValue ∧ u.interface ≠ e.interface := by
  rw [listOf, get?_cacheOf_notify subscribed]
  split
  · next none_mine => simp [none_mine, listOf, members]
  · exact mem_members_merge

section Subscription

variable {other : Endpoint} {listener : Listener}

theorem mem_queries_addListener :
    other ∈ (r.addListener query listener).queries ↔ other = query ∨ other ∈ r.queries := by
  rw [queries, SortedMap.mem_keys_iff, queries, SortedMap.mem_keys_iff]
  by_cases same : other = query <;> simp [addListener, same]

theorem registered_unsubscribe (r : Registry) (query : Endpoint) (listener : Listener) :
    (r.unsubscribe query listener).registered = r.registered := by
  unfold unsubscribe
  split
  · rfl
  · simp only
    split <;> rfl

/-- With its last listener a query goes, and what is cached for it. -/
theorem unsubscribe_cases (r : Registry) (query : Endpoint) (listener : Listener) :
    ((r.unsubscribe query listener).hasListeners query = true ∧
      (∀ other, other ∈ (r.unsubscribe query listener).queries ↔ other ∈ r.queries) ∧
      (r.unsubscribe query listener).notified = r.notified) ∨
    ((r.unsubscribe query listener).hasListeners query = false ∧
      (∀ other, other ∈ (r.unsubscribe query listener).queries ↔ other ∈ r.queries ∧ other ≠ query) ∧
      ∀ other, (r.unsubscribe query listener).cacheOf other = r.cacheOf other ∨
        other = query ∧ (r.unsubscribe query listener).cacheOf other = .empty) := by
  simp only [queries, SortedMap.mem_keys_iff]
  unfold unsubscribe
  split
  · next absent =>
      refine .inr ⟨by simp [hasListeners, listeners, absent], fun other => ?_, fun _ => .inl rfl⟩
      refine (and_iff_left_of_imp ?_).symm
      rintro ⟨present, found⟩ rfl
      cases absent.symm.trans found
  · next present there =>
      dsimp only
      split
      · refine .inr ⟨by simp [hasListeners, listeners], fun other => ?_, fun other => ?_⟩
        · by_cases same : other = query <;> simp [same]
        · by_cases same : other = query <;> simp [cacheOf, same]
      · next some_left =>
          refine .inl ⟨by simpa [hasListeners, listeners] using some_left, fun other => ?_, rfl⟩
          by_cases same : other = query <;> simp [same, there]

theorem mem_queries_of_unsubscribe (member : other ∈ (r.unsubscribe query listener).queries) :
    other ∈ r.queries := by
  rcases r.unsubscribe_cases query listener with ⟨_, queries, _⟩ | ⟨_, queries, _⟩
  · exact (queries other).1 member
  · exact ((queries other).1 member).1

end Subscription

end Registry

end ServiceGovernance
