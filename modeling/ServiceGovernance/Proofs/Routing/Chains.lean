import Mathlib.Data.List.Nodup
import ServiceGovernance.Routing.Chain

/-!
What the order of rule endpoints means. A forced rule keeps or drops each provider by itself, so a chain
of forced rules is one filter and neither the order of the endpoints nor their timestamps matter. A rule
that may be passed over looks at what is left of the others; then the timestamps decide, and as long as no
two standing rules share one, the order of the endpoints does not matter either.
-/

namespace ServiceGovernance

theorem Endpoint.param?_withoutParam (e : Endpoint) (name other : String) :
    (e.withoutParam name).param? other = if other = name then none else e.param? other :=
  SortedMap.get?_erase ..

namespace Routing

open Endpoint

/-- If the consumer satisfies the condition, the consequence is not empty and the provider satisfies it. -/
def Rule.Allows (rule : Rule) (consumer provider : Endpoint) : Prop :=
  (∀ m ∈ rule.condition, m.accepts consumer = true) →
    rule.consequence ≠ [] ∧ ∀ m ∈ rule.consequence, m.accepts provider = true

instance (rule : Rule) (consumer provider : Endpoint) : Decidable (rule.Allows consumer provider) :=
  inferInstanceAs (Decidable (_ → _))

theorem Rule.appliesTo_iff {rule : Rule} {consumer : Endpoint} :
    rule.appliesTo consumer = true ↔ ∀ m ∈ rule.condition, m.accepts consumer = true :=
  List.all_eq_true

theorem Rule.admits_iff {rule : Rule} {provider : Endpoint} :
    rule.admits provider = true ↔
      rule.consequence ≠ [] ∧ ∀ m ∈ rule.consequence, m.accepts provider = true := by
  simp [admits]

theorem Rule.route_of_force {rule : Rule} (forced : rule.force = true) (providers : List Endpoint)
    (consumer : Endpoint) :
    rule.route providers consumer = providers.filter fun p => rule.Allows consumer p := by
  have strict : rule.yields = false := by simp [yields, forced]
  simp only [route, strict, Bool.and_false, Bool.false_eq_true, if_false]
  split
  · next applies =>
      refine List.filter_congr fun p _ => ?_
      have met := appliesTo_iff.1 applies
      rw [Bool.eq_iff_iff, admits_iff, decide_eq_true_eq]
      exact ⟨fun asked _ => asked, fun allowed => allowed met⟩
  · next apart =>
      refine (List.filter_eq_self.2 fun p _ => ?_).symm
      rw [decide_eq_true_eq]
      exact fun met => absurd (appliesTo_iff.2 met) apart

namespace Chain

/-- The rule that an endpoint puts up, if it is enabled, no sentinel and carries a rule that can be read. -/
def rule? (e : Endpoint) : Option Rule :=
  if isUsable e then (Rule.ofEndpoint e).toOption else none

/-- The usable rules in the order of their endpoints. -/
def standing (endpoints : List Endpoint) : List Rule := endpoints.filterMap rule?

variable {chain : Chain} {endpoints others : List Endpoint}

/-- Forced rules filter one after the other, so together they are one filter. -/
theorem route_of_force (forced : ∀ rule ∈ chain, rule.force = true) (providers : List Endpoint)
    (consumer : Endpoint) :
    chain.route providers consumer =
      providers.filter fun p => ∀ rule ∈ chain, rule.Allows consumer p := by
  induction chain generalizing providers with
  | nil => simp [route]
  | cons rule chain ih =>
      have rest := ih fun rule member => forced rule (List.mem_cons_of_mem _ member)
      calc route (rule :: chain) providers consumer
          = route chain (rule.route providers consumer) consumer := rfl
        _ = (providers.filter fun p => rule.Allows consumer p).filter
              fun p => ∀ rule ∈ chain, rule.Allows consumer p := by
            rw [rest, Rule.route_of_force (forced rule List.mem_cons_self)]
        _ = _ := by
            rw [List.filter_filter]
            refine List.filter_congr fun p _ => ?_
            rw [Bool.eq_iff_iff]
            simp [and_comm]

theorem ofEndpoints_perm (endpoints : List Endpoint) :
    (ofEndpoints endpoints).Perm (standing endpoints) := by
  have sorted : (ofEndpoints endpoints).Perm
      ((endpoints.filter isUsable).filterMap fun e => (Rule.ofEndpoint e).toOption) :=
    (List.mergeSort_perm ..).filterMap _
  rw [List.filterMap_filter] at sorted
  exact sorted

theorem mem_ofEndpoints_iff {rule : Rule} : rule ∈ ofEndpoints endpoints ↔ rule ∈ standing endpoints :=
  (ofEndpoints_perm endpoints).mem_iff

section Timestamps

/-- The same endpoints in some order, each with any timestamp or none. -/
def Restamped (endpoints others : List Endpoint) : Prop :=
  (endpoints.map (·.withoutParam "timestamp")).Perm (others.map (·.withoutParam "timestamp"))

instance (endpoints others : List Endpoint) : Decidable (Restamped endpoints others) :=
  inferInstanceAs (Decidable (List.Perm _ _))

/-- What a rule says does not depend on its timestamp. -/
theorem rule?_withoutParam (e : Endpoint) : rule? (e.withoutParam "timestamp") = rule? e := by
  have enabled : (e.withoutParam "timestamp").param? "enabled" = e.param? "enabled" :=
    param?_withoutParam ..
  have text : (e.withoutParam "timestamp").param? "rule" = e.param? "rule" := param?_withoutParam ..
  have force : (e.withoutParam "timestamp").param? "force" = e.param? "force" := param?_withoutParam ..
  have usable : isUsable (e.withoutParam "timestamp") = isUsable e := by
    rw [isUsable, isUsable, isEnabled, isEnabled, enabled]
    rfl
  rw [rule?, rule?, usable, Rule.ofEndpoint, Rule.ofEndpoint, text, force]
  -- only the fault of an endpoint without a rule prints the timestamp
  cases e.param? "rule" <;> simp only [Except.toOption]

theorem standing_withoutParam (endpoints : List Endpoint) :
    standing (endpoints.map (·.withoutParam "timestamp")) = standing endpoints := by
  rw [standing, List.filterMap_map]
  exact List.filterMap_congr fun e _ => rule?_withoutParam e

theorem Restamped.standing_perm (same : Restamped endpoints others) :
    (standing endpoints).Perm (standing others) := by
  rw [← standing_withoutParam endpoints, ← standing_withoutParam others]
  exact same.filterMap rule?

end Timestamps

section Order

theorem notAfter_trans {a b c : Option UInt64} (first : notAfter a b = true)
    (second : notAfter b c = true) : notAfter a c = true := by
  cases a <;> cases b <;> cases c <;> simp_all [notAfter]
  exact UInt64.le_trans first second

theorem notAfter_total (a b : Option UInt64) : (notAfter a b || notAfter b a) = true := by
  cases a <;> cases b <;> simp [notAfter]
  exact UInt64.le_total _ _

theorem notAfter_antisymm {a b : Option UInt64} (first : notAfter a b = true)
    (second : notAfter b a = true) : a = b := by
  cases a <;> cases b <;> simp_all [notAfter]
  exact UInt64.le_antisymm first second

/-- No two endpoints whose rules stand have the same timestamp; at most one has none. -/
def Stamped (endpoints : List Endpoint) : Prop :=
  ((endpoints.filter fun e => (rule? e).isSome).map timestamp?).Nodup

instance (endpoints : List Endpoint) : Decidable (Stamped endpoints) :=
  inferInstanceAs (Decidable (List.Nodup _))

/-- The endpoints with a standing rule, in the order of the chain. -/
def standingByTimestamp (endpoints : List Endpoint) : List Endpoint :=
  (byTimestamp (endpoints.filter isUsable)).filter fun e => (rule? e).isSome

theorem standingByTimestamp_perm (endpoints : List Endpoint) :
    (standingByTimestamp endpoints).Perm (endpoints.filter fun e => (rule? e).isSome) := by
  have sorted : (standingByTimestamp endpoints).Perm
      ((endpoints.filter isUsable).filter fun e => (rule? e).isSome) :=
    (List.mergeSort_perm ..).filter _
  rw [List.filter_filter] at sorted
  refine sorted.trans (.of_eq (List.filter_congr fun e _ => ?_))
  cases usable : isUsable e <;> simp [rule?, usable]

theorem standingByTimestamp_pairwise (endpoints : List Endpoint) :
    (standingByTimestamp endpoints).Pairwise fun a b => notAfter a.timestamp? b.timestamp? = true := by
  apply List.Pairwise.filter
  apply List.pairwise_mergeSort
  · exact fun _ _ _ => notAfter_trans
  · exact fun _ _ => notAfter_total _ _

theorem ofEndpoints_eq (endpoints : List Endpoint) :
    ofEndpoints endpoints = (standingByTimestamp endpoints).filterMap rule? := by
  rw [ofEndpoints, standingByTimestamp, List.filterMap_filter]
  refine List.filterMap_congr fun e member => ?_
  have usable : isUsable e = true :=
    (List.mem_filter.1 ((List.mergeSort_perm ..).mem_iff.1 member)).2
  rw [rule?, if_pos usable]
  cases Rule.ofEndpoint e <;> rfl

/-- Distinct timestamps leave a single order. -/
theorem Stamped.ofEndpoints_eq_of_perm (stamped : Stamped endpoints) (same : endpoints.Perm others) :
    ofEndpoints others = ofEndpoints endpoints := by
  have distinct : ((standingByTimestamp endpoints).map timestamp?).Nodup :=
    ((standingByTimestamp_perm endpoints).map timestamp?).nodup_iff.2 stamped
  have sorted : (standingByTimestamp others).Perm (standingByTimestamp endpoints) :=
    calc List.Perm (standingByTimestamp others) (others.filter fun e => (rule? e).isSome) :=
          standingByTimestamp_perm others
      List.Perm _ (endpoints.filter fun e => (rule? e).isSome) := same.symm.filter _
      List.Perm _ (standingByTimestamp endpoints) := (standingByTimestamp_perm endpoints).symm
  have one : standingByTimestamp others = standingByTimestamp endpoints := by
    refine sorted.eq_of_pairwise ?_ (standingByTimestamp_pairwise others)
      (standingByTimestamp_pairwise endpoints)
    -- neither is after the other, so their timestamps are the same
    intro a b here there first second
    exact List.inj_on_of_nodup_map distinct (sorted.mem_iff.1 here) there
      (notAfter_antisymm first second)
  rw [ofEndpoints_eq, ofEndpoints_eq, one]

end Order

theorem route_ofEndpoints_of_force (forced : ∀ rule ∈ standing endpoints, rule.force = true)
    (providers : List Endpoint) (consumer : Endpoint) :
    (ofEndpoints endpoints).route providers consumer =
      providers.filter fun p => ∀ rule ∈ standing endpoints, rule.Allows consumer p := by
  rw [route_of_force fun rule member => forced rule (mem_ofEndpoints_iff.1 member)]
  simp only [mem_ofEndpoints_iff]

/-- If all usable rules are forced, the providers that all rules allow are kept in their order, whatever
the order of the rule endpoints and their timestamps. In any case distinct timestamps fix the chain. -/
theorem indifferent_to_order (endpoints : List Endpoint) :
    ((∀ rule ∈ standing endpoints, rule.force = true) → ∀ providers consumer,
      (ofEndpoints endpoints).route providers consumer =
          providers.filter (fun p => ∀ rule ∈ standing endpoints, rule.Allows consumer p) ∧
        ∀ others, Restamped endpoints others →
          (ofEndpoints others).route providers consumer =
            (ofEndpoints endpoints).route providers consumer) ∧
      (Stamped endpoints → ∀ others, endpoints.Perm others →
        ofEndpoints others = ofEndpoints endpoints) := by
  refine ⟨fun forced providers consumer => ?_, fun stamped others => stamped.ofEndpoints_eq_of_perm⟩
  have kept := route_ofEndpoints_of_force forced providers consumer
  refine ⟨kept, fun others same => ?_⟩
  have rules (rule : Rule) : rule ∈ standing others ↔ rule ∈ standing endpoints :=
    same.standing_perm.symm.mem_iff
  rw [kept, route_ofEndpoints_of_force fun rule member => forced rule ((rules rule).1 member)]
  simp only [rules]

/-- The consumer `x` is for `b` or `c`, and nobody is for `c`. -/
def twoRules (first second : String) : List Endpoint :=
  [(conditionRule "greeter" "host = x => host = b,c").withParam "timestamp" first,
    (conditionRule "greeter" "=> host != c").withParam "timestamp" second]

def machine (name : String) : Endpoint := { protocol := "tri", host := name, port := 50051 }

def machines : List Endpoint := [machine "a", machine "b", machine "c"]

theorem two_rules_any_order :
    (ofEndpoints (twoRules "2" "1")).route machines (machine "x") = [machine "b"] ∧
      (ofEndpoints (twoRules "1" "2").reverse).route machines (machine "x") = [machine "b"] ∧
      ofEndpoints (twoRules "2" "1").reverse = ofEndpoints (twoRules "2" "1") := by
  have forced : ∀ rule ∈ standing (twoRules "2" "1"), rule.force = true := by decide
  have stamped : Stamped (twoRules "2" "1") := by decide
  have restamped : Restamped (twoRules "2" "1") (twoRules "1" "2").reverse := by decide
  obtain ⟨routed, fixed⟩ := indifferent_to_order (twoRules "2" "1")
  obtain ⟨kept, other⟩ := routed forced machines (machine "x")
  have left : (ofEndpoints (twoRules "2" "1")).route machines (machine "x") = [machine "b"] :=
    kept.trans (by decide)
  exact ⟨left, (other _ restamped).trans left, fixed stamped _ (List.reverse_perm _).symm⟩

end Chain

end Routing

end ServiceGovernance
