import Mathlib.Data.List.Infix
import ServiceGovernance.Proofs.Routing.Chains

/-!
What a chain of rules leaves of a list of providers. A rule filters the list or leaves it alone, and which
of the two can depend on what the rules before it kept. But once a rule is settled with a list it stays so
with every part of it. So the rest of the chain, which only takes away, cannot unsettle it again, and a
list that has gone through a chain goes through it once more unchanged.
-/

namespace ServiceGovernance.Routing

variable {rule : Rule} {chain : Chain} {providers part : List Endpoint} {consumer : Endpoint}

namespace Rule

/-- The rule takes nobody away from these providers: it is not for the consumer, it admits all of them,
or it is passed over because it admits none. -/
def Settled (rule : Rule) (consumer : Endpoint) (providers : List Endpoint) : Prop :=
  rule.appliesTo consumer = true →
    (∀ p ∈ providers, rule.admits p = true) ∨ rule.yields = true ∧ ∀ p ∈ providers, rule.admits p = false

theorem route_of_apart (apart : rule.appliesTo consumer = false) (providers : List Endpoint) :
    rule.route providers consumer = providers := by
  simp [route, apart]

theorem route_of_yields (applies : rule.appliesTo consumer = true) (yields : rule.yields = true)
    (none_fits : ∀ p ∈ providers, rule.admits p = false) : rule.route providers consumer = providers := by
  have nobody : providers.filter rule.admits = [] :=
    List.filter_eq_nil_iff.2 fun p member => by simp [none_fits p member]
  simp [route, applies, nobody, yields]

theorem route_of_admitted (applies : rule.appliesTo consumer = true)
    (stays : rule.yields = true → ∃ p ∈ providers, rule.admits p = true) :
    rule.route providers consumer = providers.filter rule.admits := by
  simp only [route, applies, if_true]
  refine if_neg fun passed => ?_
  obtain ⟨empty, yields⟩ := Bool.and_eq_true_iff.1 passed
  obtain ⟨p, member, fits⟩ := stays yields
  exact List.filter_eq_nil_iff.1 (List.isEmpty_iff.1 empty) p member fits

/-- A rule leaves the list alone, for one of two reasons, or it filters. -/
theorem route_cases (rule : Rule) (providers : List Endpoint) (consumer : Endpoint) :
    rule.appliesTo consumer = false ∧ rule.route providers consumer = providers ∨
      rule.appliesTo consumer = true ∧ rule.yields = true ∧ (∀ p ∈ providers, rule.admits p = false) ∧
        rule.route providers consumer = providers ∨
      rule.appliesTo consumer = true ∧ (rule.yields = true → ∃ p ∈ providers, rule.admits p = true) ∧
        rule.route providers consumer = providers.filter rule.admits := by
  cases applies : rule.appliesTo consumer with
  | false => exact .inl ⟨rfl, route_of_apart applies providers⟩
  | true =>
      by_cases passed : rule.yields = true ∧ ∀ p ∈ providers, rule.admits p = false
      · exact .inr (.inl ⟨rfl, passed.1, passed.2, route_of_yields applies passed.1 passed.2⟩)
      · have stays : rule.yields = true → ∃ p ∈ providers, rule.admits p = true := by
          intro yields
          simpa [yields] using passed
        exact .inr (.inr ⟨rfl, stays, route_of_admitted applies stays⟩)

theorem route_sublist (rule : Rule) (providers : List Endpoint) (consumer : Endpoint) :
    (rule.route providers consumer).Sublist providers := by
  rcases rule.route_cases providers consumer with ⟨_, same⟩ | ⟨_, _, _, same⟩ | ⟨_, _, filtered⟩
  · rw [same]
  · rw [same]
  · rw [filtered]
    exact List.filter_sublist

theorem settled_route (rule : Rule) (providers : List Endpoint) (consumer : Endpoint) :
    rule.Settled consumer (rule.route providers consumer) := by
  intro applies
  rcases rule.route_cases providers consumer with ⟨apart, _⟩ | ⟨_, yields, none_fits, same⟩ | ⟨_, _, filtered⟩
  · rw [applies] at apart
    cases apart
  · rw [same]
    exact .inr ⟨yields, none_fits⟩
  · rw [filtered]
    exact .inl fun p member => (List.mem_filter.1 member).2

theorem Settled.mono (settled : rule.Settled consumer providers) (fewer : part ⊆ providers) :
    rule.Settled consumer part := by
  intro applies
  rcases settled applies with all_fit | ⟨yields, none_fits⟩
  · exact .inl fun p member => all_fit p (fewer member)
  · exact .inr ⟨yields, fun p member => none_fits p (fewer member)⟩

theorem Settled.route_eq (settled : rule.Settled consumer providers) :
    rule.route providers consumer = providers := by
  rcases rule.route_cases providers consumer with ⟨_, same⟩ | ⟨_, _, _, same⟩ | ⟨applies, stays, filtered⟩
  · exact same
  · exact same
  · rw [filtered, List.filter_eq_self]
    rcases settled applies with all_fit | ⟨yields, none_fits⟩
    · exact all_fit
    · -- a rule that admits nobody would have been passed over
      obtain ⟨p, member, fits⟩ := stays yields
      rw [none_fits p member] at fits
      cases fits

theorem route_ne_nil (yields : rule.appliesTo consumer = true → rule.yields = true)
    (filled : providers ≠ []) : rule.route providers consumer ≠ [] := by
  rcases rule.route_cases providers consumer with ⟨_, same⟩ | ⟨_, _, _, same⟩ | ⟨applies, stays, filtered⟩
  · rwa [same]
  · rwa [same]
  · obtain ⟨p, member, fits⟩ := stays (yields applies)
    rw [filtered]
    exact List.ne_nil_of_mem (List.mem_filter.2 ⟨member, fits⟩)

theorem yields_iff : rule.yields = true ↔ rule.force = false ∧ rule.consequence ≠ [] := by
  simp [yields]

end Rule

namespace Chain

theorem route_cons (rule : Rule) (chain : Chain) (providers : List Endpoint) (consumer : Endpoint) :
    route (rule :: chain) providers consumer = chain.route (rule.route providers consumer) consumer := rfl

theorem route_sublist (chain : Chain) (providers : List Endpoint) (consumer : Endpoint) :
    (chain.route providers consumer).Sublist providers := by
  induction chain generalizing providers with
  | nil => exact List.Sublist.refl providers
  | cons rule chain ih => exact (ih _).trans (rule.route_sublist providers consumer)

/-- Every rule of the chain is settled with what the whole chain leaves. -/
theorem settled_route (chain : Chain) (providers : List Endpoint) (consumer : Endpoint) :
    ∀ rule ∈ chain, rule.Settled consumer (chain.route providers consumer) := by
  induction chain generalizing providers with
  | nil => simp
  | cons rule chain ih =>
      rw [route_cons]
      have here := (rule.settled_route providers consumer).mono (route_sublist chain _ consumer).subset
      exact List.forall_mem_cons.2 ⟨here, ih _⟩

theorem route_eq_of_settled (settled : ∀ rule ∈ chain, rule.Settled consumer providers) :
    chain.route providers consumer = providers := by
  induction chain with
  | nil => rfl
  | cons rule chain ih =>
      obtain ⟨here, others⟩ := List.forall_mem_cons.1 settled
      rw [route_cons, here.route_eq, ih others]

theorem route_ne_nil (yields : ∀ rule ∈ chain, rule.appliesTo consumer = true → rule.yields = true)
    (filled : providers ≠ []) : chain.route providers consumer ≠ [] := by
  induction chain generalizing providers with
  | nil => exact filled
  | cons rule chain ih =>
      obtain ⟨here, others⟩ := List.forall_mem_cons.1 yields
      exact ih others (Rule.route_ne_nil here filled)

/-- A chain takes providers away, keeps the order of the others and has no more to take from what it has
left. Where no forced rule and none with an empty consequence is for the consumer, somebody is left
behind every rule. -/
theorem route_narrows (chain : Chain) (providers : List Endpoint) (consumer : Endpoint) :
    (chain.route providers consumer).Sublist providers ∧
      chain.route (chain.route providers consumer) consumer = chain.route providers consumer ∧
      ((∀ rule ∈ chain, rule.appliesTo consumer = true → rule.force = false ∧ rule.consequence ≠ []) →
        providers ≠ [] → ∀ stage, stage <+: chain → route stage providers consumer ≠ []) := by
  refine ⟨chain.route_sublist providers consumer,
    route_eq_of_settled (chain.settled_route providers consumer), ?_⟩
  intro lenient filled stage first
  refine route_ne_nil (fun rule member applies => ?_) filled
  exact Rule.yields_iff.2 (lenient rule (first.subset member) applies)

/-- The first rule is passed over as long as nobody is at `d`; of the others `a` and `b` are left, then
`b`. The last rule is forced, but for another consumer. -/
def lenientRules : Chain :=
  [{ text := "=> host = d", condition := [], consequence := [⟨"host", false, [.exact "d".toList]⟩]
     force := false },
    { text := "=> host != c", condition := [], consequence := [⟨"host", true, [.exact "c".toList]⟩]
      force := false },
    { text := "=> host = b", condition := [], consequence := [⟨"host", false, [.exact "b".toList]⟩]
      force := false },
    { text := "host = y =>", condition := [⟨"host", false, [.exact "y".toList]⟩], consequence := [] }]

theorem lenient_narrows :
    lenientRules.route machines (machine "x") = [machine "b"] ∧
      lenientRules.route [machine "b"] (machine "x") = [machine "b"] ∧
      (∀ stage, stage <+: lenientRules → route stage machines (machine "x") ≠ []) ∧
      lenientRules.route machines (machine "y") = [] := by
  have routed : lenientRules.route machines (machine "x") = [machine "b"] := by decide
  have lenient : ∀ rule ∈ lenientRules, rule.appliesTo (machine "x") = true →
      rule.force = false ∧ rule.consequence ≠ [] := by decide
  obtain ⟨_, again, somebody⟩ := route_narrows lenientRules machines (machine "x")
  rw [routed] at again
  exact ⟨routed, again, somebody lenient (by decide), by decide⟩

end Chain

end ServiceGovernance.Routing
