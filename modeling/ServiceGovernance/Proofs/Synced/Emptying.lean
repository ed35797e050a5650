import ServiceGovernance.Proofs.Registry.Deliveries
import ServiceGovernance.Proofs.Synced.Mirror

/-!
What becomes of a query when a category that it watches has no members left. The sentinel that is made then has
the query's own group, version and flags, whatever lists and wildcards they are, so the query asks for it unless
it is disabled itself. With the sentinel each of its listeners is told a list from which the members are gone.
-/

namespace ServiceGovernance

open Endpoint SyncedRegistry

namespace Endpoint

variable {query narrowed e : Endpoint} {category name : String}

/-- A query as it is put to the store: as it is, or, if it wants all interfaces, for one of them. -/
def PutAs (query narrowed : Endpoint) : Prop :=
  narrowed = query ∨ query.interface = anyValue ∧ ∃ interface, narrowed = scopeTo query interface

/-- Whatever is wanted, be it `*`, a list or nothing, the same text offered is wanted. -/
theorem valueMatches_self (value : Option String) : valueMatches value value = true := by
  simp [valueMatches]

theorem isEnabled_of_wantsDisabled (disabled : query.wantsDisabled = true) : query.isEnabled = true := by
  rw [wantsDisabled, beq_iff_eq] at disabled
  rw [isEnabled, disabled]
  decide

theorem param?_sentinel (other : name ≠ "category") :
    (sentinel query category).param? name = query.param? name := by
  rw [sentinel, param?_withParam, if_neg other]
  rfl

theorem PutAs.param?_eq (put : PutAs query narrowed) (other : name ≠ "interface") :
    narrowed.param? name = query.param? name := by
  rcases put with rfl | ⟨_, interface, rfl⟩
  · rfl
  · rw [scopeTo, param?_withParam, if_neg other]

theorem PutAs.wantsInterface (put : PutAs query narrowed) (same : e.interface = narrowed.interface) :
    query.wantsInterface e = true := by
  rcases put with rfl | ⟨all, _⟩
  · simp [Endpoint.wantsInterface, same]
  · simp [Endpoint.wantsInterface, all]

/-- A query asks for the sentinels made for it exactly if it is enabled. -/
theorem PutAs.admits_sentinel (put : PutAs query narrowed) (listed : category ∈ query.expandedCategories) :
    query.admits (sentinel narrowed category) = query.isEnabled := by
  have carried : ∀ {name}, name ≠ "category" → name ≠ "interface" →
      (sentinel narrowed category).param? name = query.param? name :=
    fun plain single => (param?_sentinel plain).trans (put.param?_eq single)
  have interface : query.wantsInterface (sentinel narrowed category) = true :=
    put.wantsInterface (Synced.interface_sentinel narrowed category)
  have wanted : query.wantsCategory category = true := Synced.wantsCategory_of_mem listed
  have release : query.wantsRelease (sentinel narrowed category) = true := by
    have group : (sentinel narrowed category).group? = query.group? := carried (by decide) (by decide)
    have version : (sentinel narrowed category).version? = query.version? := carried (by decide) (by decide)
    rw [wantsRelease, group, version, valueMatches_self, valueMatches_self]
    rfl
  have enabled : (sentinel narrowed category).isEnabled = query.isEnabled := by
    rw [isEnabled, isEnabled, carried (by decide) (by decide)]
  have flag : (query.isEnabled || query.wantsDisabled) = query.isEnabled := by
    rw [Bool.or_eq_left_iff_imp]
    exact isEnabled_of_wantsDisabled
  simp only [admits, interface, category_sentinel, wanted, release, enabled, flag, Bool.or_true, Bool.and_true,
    Bool.true_and]

end Endpoint

namespace Synced

variable {s : Synced} {query narrowed : Endpoint} {category interface : String} {names : List String}

/-- The sentinel of a category that an enabled query watches is one that the query asks for, whatever its
parameters are, and is of this category and of the interface that the query is put for. So when no child of the
category stands for an endpoint any more, each listener of the query is told a list, cached as well, that has no
other members of the interface than those that are among the same updates. -/
theorem sentinel_reaches (put : PutAs query narrowed) (enabled : query.param? "enabled" ≠ some "false")
    (listed : category ∈ query.expandedCategories) :
    query.admits (sentinel narrowed category) = true ∧
    (sentinel narrowed category).category = category ∧
    (∀ interface, narrowed = scopeTo query interface →
      (sentinel narrowed category).interface = interface) ∧
    ∀ (r : Registry) (names : List String) (updates : List Endpoint), names.filterMap decodeChild? = [] →
      decodeChildren narrowed category names ⊆ updates → ∀ listener ∈ r.listeners query,
        ∃ endpoints, ((r.notify updates).1.cacheOf query).get? category = some endpoints ∧
          ⟨query, listener, endpoints⟩ ∈ (r.notify updates).2 ∧
          ∀ e ∈ members endpoints, e.interface = narrowed.interface → e ∈ updates := by
  have admitted : query.admits (sentinel narrowed category) = true := by
    rw [put.admits_sentinel listed]
    simpa [isEnabled] using enabled
  refine ⟨admitted, category_sentinel narrowed category, ?_, fun r names updates emptied told listener listens => ?_⟩
  · rintro interface rfl
    rw [interface_sentinel, scopeTo, interface_withParam_interface]
  · have update : sentinel narrowed category ∈ updates := told (mem_decodeChildren.2 (.inr ⟨emptied, rfl⟩))
    have shared := Registry.mem_share_iff.2 ⟨update, admitted, category_sentinel narrowed category⟩
    obtain ⟨endpoints, cached, delivered, fresh⟩ := Registry.told_of_share listens shared
    refine ⟨endpoints, cached, delivered, fun e member same => ?_⟩
    rw [fresh e (same.trans (interface_sentinel narrowed category).symm), Registry.mem_members_iff,
      Registry.mem_share_iff] at member
    exact member.1.1

/-- A query for all interfaces with lists and blanks in what it asks for. -/
def choosy : Endpoint :=
  { protocol := "c", host := "d", port := 0, path := "*"
    params := SortedMap.ofList [("category", " routers , providers"), ("group", "a, b"), ("version", " 1,2 ")] }

def chosen : Endpoint :=
  { protocol := "p", host := "b", port := 1, path := "i"
    params := SortedMap.ofList [("group", "b"), ("version", "2")] }

def supplied : Registry := Registry.after {} [.subscribe choosy 0, .notify [chosen]]

/-- The only endpoint of an interface goes, and what is left below the interface is a name that is none. -/
theorem choosy_reached :
    PutAs choosy (scopeTo choosy "i") ∧ choosy.param? "enabled" ≠ some "false" ∧
    "providers" ∈ choosy.expandedCategories ∧ ["%zz"].filterMap decodeChild? = [] ∧
    0 ∈ supplied.listeners choosy ∧ supplied.listOf choosy "providers" = [chosen] ∧
    choosy.admits (sentinel (scopeTo choosy "i") "providers") = true ∧
    (sentinel (scopeTo choosy "i") "providers").interface = "i" ∧
    ∃ endpoints, ⟨choosy, 0, endpoints⟩ ∈
        (supplied.notify (decodeChildren (scopeTo choosy "i") "providers" ["%zz"])).2 ∧
      chosen ∉ members endpoints := by
  have put : PutAs choosy (scopeTo choosy "i") := .inr ⟨by decide +kernel, "i", rfl⟩
  have enabled : choosy.param? "enabled" ≠ some "false" := by decide +kernel
  have listed : "providers" ∈ choosy.expandedCategories := by decide +kernel
  have emptied : ["%zz"].filterMap decodeChild? = [] := by decide +kernel
  have listens : 0 ∈ supplied.listeners choosy := by decide +kernel
  obtain ⟨admitted, _, named, reaches⟩ := sentinel_reaches put enabled listed
  obtain ⟨endpoints, _, told, others⟩ := reaches supplied ["%zz"] _ emptied (List.Subset.refl _) 0 listens
  refine ⟨put, enabled, listed, emptied, listens, by decide +kernel, admitted, named "i" rfl, endpoints, told,
    fun stays => ?_⟩
  have among := others chosen stays (by decide +kernel)
  revert among
  decide +kernel

/-- A notice that the children of a category have gone leaves nothing of the interface cached for any of the
enabled queries that watch it. -/
theorem handleChildren_emptied (plain : '/' ∉ category.toList) (emptied : names.filterMap decodeChild? = [])
    (owns : (query, narrowed) ∈ s.ownersOf (categoryPath s.sync.root interface category))
    (put : PutAs query narrowed) (enabled : query.isEnabled = true)
    (listed : category ∈ query.expandedCategories) {listener : Listener}
    (listens : listener ∈ s.sync.registry.listeners query) :
    ∃ endpoints, ((s.handleChildren (categoryPath s.sync.root interface category) names).sync.registry.cacheOf
        query).get? category = some endpoints ∧
      ⟨query, listener, endpoints⟩ ∈
        (s.handleChildren (categoryPath s.sync.root interface category) names).deliveries ∧
      ∀ e ∈ members endpoints, e.interface ≠ narrowed.interface := by
  have watched : (s.sync.watched.get? (categoryPath s.sync.root interface category)).isSome = true := by
    cases found : s.sync.watched.get? (categoryPath s.sync.root interface category) with
    | none => simp [ownersOf, found] at owns
    | some w => rfl
  rw [handleChildren_categoryPath plain names watched]
  generalize updates_eq : distinct ((s.ownersOf (categoryPath s.sync.root interface category)).flatMap
    fun owner => decodeChildren owner.2 category names) = updates
  have made_iff : ∀ e, e ∈ updates ↔ ∃ owner ∈ s.ownersOf (categoryPath s.sync.root interface category),
      e = sentinel owner.2 category := by
    intro e
    simp only [← updates_eq, mem_distinct, List.mem_flatMap, mem_decodeChildren, emptied, List.not_mem_nil,
      false_or, true_and]
  have admitted : query.admits (sentinel narrowed category) = true := (put.admits_sentinel listed).trans enabled
  have shared := Registry.mem_share_iff.2
    ⟨(made_iff _).2 ⟨_, owns, rfl⟩, admitted, category_sentinel narrowed category⟩
  obtain ⟨endpoints, cached, delivered, fresh⟩ := Registry.told_of_share listens shared
  refine ⟨endpoints, cached, List.mem_append_right _ delivered, fun e member same => ?_⟩
  rw [fresh e (same.trans (interface_sentinel narrowed category).symm), Registry.mem_members_iff,
    Registry.mem_share_iff] at member
  obtain ⟨owner, _, rfl⟩ := (made_iff e).1 member.1.1
  rw [isSentinel_sentinel] at member
  cases member.2

end Synced

end ServiceGovernance
