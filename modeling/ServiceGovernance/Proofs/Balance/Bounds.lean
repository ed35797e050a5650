import Mathlib.Algebra.Order.BigOperators.Group.List
import Mathlib.Logic.Function.Basic
import ServiceGovernance.Proofs.Balance.Answering
import ServiceGovernance.Proofs.Balance.Words

/-!
How far current weights stray. They sum to zero after every turn, and the winner of a turn has no debt
before it pays, so nobody owes more than the largest total weight that a turn was taken with; what one
entry is ahead the others owe. Weights may change before every turn. Main statement: these bounds hold
along all runs of selections, and with up to 32768 entries no number of a turn leaves 64 bits.
-/

namespace ServiceGovernance.Balance

variable {entries : List Entry} {limit : Int} {candidates : List Endpoint}

/-- The weight of an endpoint is a number of 32 bits. -/
def maxWeight : Int := 2 ^ 32 - 1

/-- Entries whose current weights sum to zero and are at least `-limit`, a bound that so many weights can
come to. -/
structure Bounded (limit : Int) (entries : List Entry) : Prop where
  distinct : (keys entries).Nodup
  weights : ∀ e ∈ entries, 0 ≤ e.weight ∧ e.weight ≤ maxWeight
  balanced : (entries.map (·.current)).sum = 0
  above : ∀ e ∈ entries, -limit ≤ e.current
  nonneg : 0 ≤ limit
  modest : limit ≤ entries.length * maxWeight

theorem totalWeight_le (weights : ∀ e ∈ entries, e.weight ≤ maxWeight) :
    totalWeight entries ≤ entries.length * maxWeight := by
  have each : ∀ w ∈ entries.map (·.weight), w ≤ maxWeight := by simpa using weights
  have whole := List.sum_le_card_nsmul _ _ each
  simpa [totalWeight_eq_sum] using whole

theorem Bounded.totalWeight_nonneg (bounded : Bounded limit entries) : 0 ≤ totalWeight entries :=
  Balance.totalWeight_nonneg fun e member => (bounded.weights e member).1

theorem Bounded.totalWeight_le (bounded : Bounded limit entries) :
    totalWeight entries ≤ entries.length * maxWeight :=
  Balance.totalWeight_le fun e member => (bounded.weights e member).2

/-- What one entry is ahead the others owe. -/
theorem Bounded.below (bounded : Bounded limit entries) {e : Entry} (member : e ∈ entries) :
    e.current ≤ (entries.length - 1) * limit := by
  obtain ⟨before, after, rfl⟩ := List.append_of_mem member
  have owed : ∀ others : List Entry, (∀ other ∈ others, -limit ≤ other.current) →
      -(others.length * limit) ≤ (others.map (·.current)).sum := by
    intro others floor
    have each : ∀ c ∈ others.map (·.current), -limit ≤ c := by simpa using floor
    simpa using List.card_nsmul_le_sum _ _ each
  have first := owed before fun other there => bounded.above other (by simp [there])
  have second := owed after fun other there => bounded.above other (by simp [there])
  have zero := bounded.balanced
  simp only [List.map_append, List.map_cons, List.sum_append, List.sum_cons] at zero
  simp only [List.length_append, List.length_cons]
  push_cast
  linarith

/-- The raised weights sum to the total weight, so the greatest of them is no debt. -/
theorem Bounded.raised_nonneg (bounded : Bounded limit entries) (filled : entries ≠ []) {top : Int}
    (greatest : ∀ e ∈ entries, e.current + e.weight ≤ top) : 0 ≤ top := by
  have each : ∀ r ∈ entries.map (fun e => e.current + e.weight), r ≤ top := by simpa using greatest
  have whole := List.sum_le_card_nsmul _ _ each
  rw [sum_raised bounded.balanced, List.length_map, nsmul_eq_mul] at whole
  have some_entry : (0 : Int) < entries.length := by exact_mod_cast List.length_pos_iff.2 filled
  exact nonneg_of_mul_nonneg_right (bounded.totalWeight_nonneg.trans whole) some_entry

theorem Bounded.turn (bounded : Bounded limit entries) :
    Bounded (max limit (totalWeight entries)) (turn entries).2 := by
  rcases eq_or_ne entries [] with rfl | filled
  · have idle : max limit (totalWeight []) = limit := max_eq_left bounded.nonneg
    rw [idle]
    exact bounded
  obtain ⟨position, winner, _, here, greatest, after⟩ := turn_spec bounded.distinct filled
  have member := List.mem_of_getElem? here
  have ahead := bounded.raised_nonneg filled greatest
  rw [after]
  constructor
  · rw [keys_map_settled]
    exact bounded.distinct
  · intro e there
    obtain ⟨old, old_there, rfl⟩ := List.mem_map.1 there
    exact bounded.weights old old_there
  · rw [sum_settled bounded.distinct (List.mem_map_of_mem member), bounded.balanced]
    ring
  · intro e there
    obtain ⟨old, old_there, rfl⟩ := List.mem_map.1 there
    by_cases wins : old.key = winner.key
    · have : old = winner := List.inj_on_of_nodup_map bounded.distinct old_there member wins
      subst this
      simp only [settled, if_true]
      omega
    · have floor := bounded.above old old_there
      have gain := (bounded.weights old old_there).1
      simp only [settled, if_neg wins]
      omega
  · exact bounded.nonneg.trans (le_max_left _ _)
  · rw [List.length_map]
    exact max_le bounded.modest bounded.totalWeight_le

/-- Other weights for the same entries leave the bounds as they are. -/
theorem Bounded.map (bounded : Bounded limit entries) {f : Entry → Entry}
    (same : ∀ e, (f e).key = e.key ∧ (f e).current = e.current)
    (weights : ∀ e ∈ entries, 0 ≤ (f e).weight ∧ (f e).weight ≤ maxWeight) :
    Bounded limit (entries.map f) := by
  constructor
  · have kept : keys (entries.map f) = keys entries := by simp [keys, same]
    rw [kept]
    exact bounded.distinct
  · simpa using weights
  · have kept : (entries.map f).map (·.current) = entries.map (·.current) := by simp [same]
    rw [kept]
    exact bounded.balanced
  · simpa [same] using bounded.above
  · exact bounded.nonneg
  · rw [List.length_map]
    exact bounded.modest

/-- With so few entries no sum or difference of a turn overflows. -/
theorem Bounded.wordTurn?_eq (bounded : Bounded limit entries) (few : entries.length ≤ 32768) :
    wordTurn? entries = some (Balance.turn entries) := by
  have count : (entries.length : Int) ≤ 32768 := by exact_mod_cast few
  have heaviest : (entries.length : Int) * maxWeight ≤ 32768 * maxWeight :=
    mul_le_mul_of_nonneg_right count (by decide)
  have limit_le := bounded.modest.trans heaviest
  have total_le := bounded.totalWeight_le.trans heaviest
  have total_nonneg := bounded.totalWeight_nonneg
  have furthest : ((entries.length : Int) - 1) * limit ≤ 32767 * (32768 * maxWeight) :=
    mul_le_mul (by omega) limit_le bounded.nonneg (by decide)
  have raised : ∀ e ∈ entries, -limit ≤ e.current + e.weight ∧
      e.current + e.weight ≤ 32767 * (32768 * maxWeight) + maxWeight := by
    intro e member
    have low := bounded.above e member
    have high := bounded.below member
    obtain ⟨gain, light⟩ := bounded.weights e member
    omega
  apply Balance.wordTurn?_eq fun e member => (bounded.weights e member).1
  · intro e member
    obtain ⟨low, high⟩ := raised e member
    simp only [Fits, maxWeight] at limit_le high ⊢
    omega
  · simp only [Fits, maxWeight] at total_le ⊢
    omega
  · intro position top leading
    obtain ⟨_, here, rfl, greatest⟩ := leader?_spec leading
    obtain ⟨winner, member, rfl⟩ := List.mem_map.1 (List.mem_of_getElem? here)
    have ahead : 0 ≤ winner.current + winner.weight :=
      bounded.raised_nonneg (List.ne_nil_of_mem member) (by simpa [Entry.raise] using greatest)
    have high := (raised winner member).2
    simp only [Fits, maxWeight, Entry.raise] at total_le high ⊢
    omega

namespace Snapshot

theorem nodup_firstOfEachAddress (seen : List String) (candidates : List Endpoint) :
    ((firstOfEachAddress seen candidates).map Endpoint.address).Nodup := by
  induction candidates generalizing seen with
  | nil => exact List.nodup_nil
  | cons e rest ih =>
      unfold firstOfEachAddress
      split
      · exact ih seen
      · rw [List.map_cons, List.nodup_cons, mem_firstOfEachAddress_iff]
        exact ⟨fun again => again.1 List.mem_cons_self, ih (e.address :: seen)⟩

theorem weight_le_maxWeight (e : Endpoint) : (e.weight.toNat : Int) ≤ maxWeight := by
  have := e.weight.toNat_lt
  simp only [maxWeight]
  omega

theorem bounded_afresh (candidates : List Endpoint) :
    Bounded 0 ((firstOfEachAddress [] candidates).map Entry.ofEndpoint) := by
  constructor
  · simpa [keys, Entry.ofEndpoint, Function.comp_def] using nodup_firstOfEachAddress [] candidates
  · intro entry member
    obtain ⟨e, _, rfl⟩ := List.mem_map.1 member
    exact ⟨Int.natCast_nonneg _, weight_le_maxWeight e⟩
  · simp [Entry.ofEndpoint, Function.comp_def]
  · simp [Entry.ofEndpoint]
  · exact le_rfl
  · exact mul_nonneg (Int.natCast_nonneg _) (by decide)

theorem reweigh_weight (candidates : List Endpoint) (e : Entry) :
    (reweigh candidates e).weight = e.weight ∨
      ∃ other : Endpoint, (reweigh candidates e).weight = (other.weight.toNat : Int) := by
  unfold reweigh announcedWeight?
  cases candidates.reverse.find? (·.address = e.key) with
  | none => exact .inl rfl
  | some other => exact .inr ⟨other, rfl⟩

end Snapshot

theorem Bounded.reweigh (bounded : Bounded limit entries) (candidates : List Endpoint) :
    Bounded limit (entries.map (Snapshot.reweigh candidates)) := by
  refine bounded.map (fun _ => ⟨rfl, rfl⟩) fun e member => ?_
  rcases Snapshot.reweigh_weight candidates e with same | ⟨other, announced⟩
  · rw [same]
    exact bounded.weights e member
  · rw [announced]
    exact ⟨Int.natCast_nonneg _, Snapshot.weight_le_maxWeight other⟩

namespace Snapshot

/-- The largest total weight that a turn has been taken with since the snapshot was built, after one more
turn. Other addresses build it anew. -/
def heavier (s : Snapshot) (heaviest : Int) (candidates : List Endpoint) : Int :=
  max (if addresses candidates = s.members then heaviest else 0)
    (totalWeight (s.refresh candidates).entries)

theorem bounded_refresh {s : Snapshot} (bounded : Bounded limit s.entries) (candidates : List Endpoint) :
    Bounded (if addresses candidates = s.members then limit else 0) (s.refresh candidates).entries := by
  unfold refresh
  split
  · exact bounded.reweigh candidates
  · exact bounded_afresh candidates

end Snapshot

namespace RoundRobin

variable {r : RoundRobin} {heaviest : String → Int}

/-- The snapshots that selections lead to, for any services and with any weights, and for each service
the largest total weight of a turn on its snapshot. A selection from nobody takes no turn. -/
inductive Reached : RoundRobin → (String → Int) → Prop where
  | start : Reached {} fun _ => 0
  | select {r : RoundRobin} {heaviest : String → Int} (before : Reached r heaviest) (service : String)
      {candidates : List Endpoint} (filled : candidates ≠ []) :
      Reached (r.select service candidates).2 (Function.update heaviest service
        ((r.snapshot service).heavier (heaviest service) candidates))

theorem snapshot_after (filled : candidates ≠ []) (service other : String) :
    ((r.select service candidates).2).snapshot other =
      if other = service then
        { (r.snapshot service).refresh candidates with
          entries := (turn ((r.snapshot service).refresh candidates).entries).2 }
      else r.snapshot other := by
  rw [select, if_neg (by simpa using filled), snapshot, SortedMap.get?_insert]
  split <;> rfl

theorem Reached.bounded (reached : Reached r heaviest) (service : String) :
    Bounded (heaviest service) (r.snapshot service).entries := by
  induction reached with
  | start =>
      constructor <;> simp [snapshot, keys]
  | select before changed filled ih =>
      rw [snapshot_after filled]
      by_cases here : service = changed
      · subst here
        rw [if_pos rfl, Function.update_self]
        exact (Snapshot.bounded_refresh ih _).turn
      · rw [if_neg here, Function.update_of_ne here]
        exact ih

/-- After every selection the current weights of a service sum to zero. With the largest total weight of
a turn on them, none is below minus that weight, and none is above it times the number of the others. The
next turn, whatever the candidates, stays within 64 bits if it is among at most 32768 entries. -/
theorem Reached.currents_bounded (reached : Reached r heaviest) (service : String) :
    ((r.snapshot service).entries.map (·.current)).sum = 0 ∧
      (∀ e ∈ (r.snapshot service).entries, -heaviest service ≤ e.current ∧
        e.current ≤ ((r.snapshot service).entries.length - 1) * heaviest service) ∧
      ∀ candidates, ((r.snapshot service).refresh candidates).entries.length ≤ 32768 →
        wordTurn? ((r.snapshot service).refresh candidates).entries =
          some (turn ((r.snapshot service).refresh candidates).entries) := by
  have bounded := reached.bounded service
  refine ⟨bounded.balanced, fun e member => ⟨bounded.above e member, bounded.below member⟩, ?_⟩
  intro candidates few
  exact (Snapshot.bounded_refresh bounded candidates).wordTurn?_eq few

/-- Two candidates. The second weighs as much as one can, the first what is given. -/
def rivals (weight : String) : List Endpoint :=
  [("a", weight), ("b", "4294967295")].map fun (host, weight) =>
    { protocol := "tri", host, port := 50051 : Endpoint }.withParam "weight" weight

/-- The first turn is among equals; before the second the first candidate becomes light. -/
def lightened : RoundRobin :=
  ((({} : RoundRobin).select "greeter" (rivals "4294967295")).2.select "greeter" (rivals "2")).2

theorem lightened_bounded : ∃ heaviest, Reached lightened heaviest ∧ heaviest "greeter" = 8589934590 ∧
    (lightened.snapshot "greeter").entries.map (·.current) = [-4294967293, 4294967293] ∧
    (∀ e ∈ (lightened.snapshot "greeter").entries,
      -8589934590 ≤ e.current ∧ e.current ≤ (2 - 1) * 8589934590) ∧
    wordTurn? ((lightened.snapshot "greeter").refresh (rivals "7")).entries =
      some (turn ((lightened.snapshot "greeter").refresh (rivals "7")).entries) := by
  have first : rivals "4294967295" ≠ [] := by decide
  have second : rivals "2" ≠ [] := by decide
  obtain ⟨heaviest, reached, most⟩ : ∃ heaviest, Reached lightened heaviest ∧
      heaviest "greeter" = 8589934590 :=
    ⟨_, (Reached.start.select "greeter" first).select "greeter" second, by decide +kernel⟩
  have two : (lightened.snapshot "greeter").entries.length = 2 := by decide +kernel
  obtain ⟨_, bounds, words⟩ := reached.currents_bounded "greeter"
  rw [most, two] at bounds
  exact ⟨heaviest, reached, most, by decide +kernel, bounds, words (rivals "7") (by decide +kernel)⟩

end RoundRobin

end ServiceGovernance.Balance
