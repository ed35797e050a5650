import ServiceGovernance.Proofs.Balance.Refreshing
import ServiceGovernance.Proofs.Balance.Sharing

/-!
Candidates that have lost their weight. What an entry has gained in earlier turns is its credit, and the
credit stays when the weight becomes zero. Such a candidate wins a turn only with credit, and pays the
total weight for it; so its credit bounds how often it is still picked, and without credit it is never
picked. Entries that are built anew have no credit.
-/

namespace ServiceGovernance.Balance

open Snapshot (total)

variable {entries : List Entry} {key : String} {candidates : List Endpoint}

/-- The current weight of the entry with this key. -/
def credit (entries : List Entry) (key : String) : Int :=
  ((entries.find? (·.key = key)).map (·.current)).getD 0

/-- What the entry of a candidate has when it is raised by the candidate's weight. -/
def raised (entries : List Entry) (e : Endpoint) : Int := credit entries e.address + e.weight.toNat

section Credit

theorem credit_of_mem (distinct : (keys entries).Nodup) {e : Entry} (member : e ∈ entries) :
    credit entries e.key = e.current := by
  rw [credit, find?_of_distinct distinct member]
  rfl

theorem credit_of_not_mem (absent : key ∉ keys entries) : credit entries key = 0 := by
  have missing : entries.find? (·.key = key) = none := by
    rw [List.find?_eq_none]
    intro e member same
    exact absent (List.mem_map.2 ⟨e, member, of_decide_eq_true same⟩)
  rw [credit, missing]
  rfl

theorem credit_of_untouched (untouched : Untouched entries) (key : String) : credit entries key = 0 := by
  cases found : entries.find? (·.key = key) with
  | none => simp [credit, found]
  | some e => simp [credit, found, untouched e (List.mem_of_find?_eq_some found)]

/-- Changing weights alone leaves all credit as it is. -/
theorem credit_map {f : Entry → Entry} (same : ∀ e, (f e).key = e.key ∧ (f e).current = e.current)
    (entries : List Entry) (key : String) : credit (entries.map f) key = credit entries key := by
  have keeps : ((fun e : Entry => decide (e.key = key)) ∘ f) = fun e => decide (e.key = key) := by
    funext e
    simp [same]
  rw [credit, List.find?_map, keeps, credit, Option.map_map]
  congr 2
  funext e
  exact (same e).2

end Credit

namespace Snapshot

variable {s : Snapshot}

theorem credit_refresh (s : Snapshot) (candidates : List Endpoint) (key : String) :
    credit (s.refresh candidates).entries key =
      if addresses candidates = s.members then credit s.entries key else 0 := by
  unfold refresh
  split
  · exact credit_map (f := reweigh candidates) (fun _ => ⟨rfl, rfl⟩) s.entries key
  · apply credit_of_untouched
    intro entry member
    obtain ⟨e, _, rfl⟩ := List.mem_map.1 member
    rfl

theorem firstAt_eq_some_iff (apart : (candidates.map Endpoint.address).Nodup) {e : Endpoint} :
    firstAt? candidates key = some e ↔ e ∈ candidates ∧ e.address = key := by
  constructor
  · intro found
    exact ⟨List.mem_of_find?_eq_some found, by simpa using List.find?_some found⟩
  · rintro ⟨member, rfl⟩
    exact find?_of_distinct apart member

end Snapshot

section Enlisted

/-- Every candidate has an address and an entry of its own, with its weight, and nobody else has one. -/
structure Enlisted (candidates : List Endpoint) (entries : List Entry) : Prop where
  apart : (candidates.map Endpoint.address).Nodup
  distinct : (keys entries).Nodup
  covers : ∀ key, key ∈ keys entries ↔ ∃ e ∈ candidates, e.address = key
  weighs : ∀ entry ∈ entries, ∀ e ∈ candidates, e.address = entry.key → entry.weight = e.weight.toNat

variable (enlisted : Enlisted candidates entries)

include enlisted

theorem Enlisted.exists_entry {e : Endpoint} (listed : e ∈ candidates) :
    ∃ entry ∈ entries, entry.key = e.address ∧ raised entries e = entry.current + entry.weight := by
  obtain ⟨entry, member, same⟩ := List.mem_map.1 ((enlisted.covers e.address).2 ⟨e, listed, rfl⟩)
  refine ⟨entry, member, same, ?_⟩
  rw [raised, ← same, credit_of_mem enlisted.distinct member, enlisted.weighs entry member e listed same.symm]

theorem Enlisted.exists_candidate {entry : Entry} (member : entry ∈ entries) :
    ∃ e ∈ candidates, e.address = entry.key ∧ raised entries e = entry.current + entry.weight := by
  obtain ⟨e, listed, same⟩ := (enlisted.covers entry.key).1 (List.mem_map_of_mem member)
  refine ⟨e, listed, same, ?_⟩
  rw [raised, same, credit_of_mem enlisted.distinct member, enlisted.weighs entry member e listed same]

theorem Enlisted.totalWeight_eq : totalWeight entries = total candidates := by
  have pairs : (entries.map fun entry => (entry.key, entry.weight)).Perm
      (candidates.map fun e => (e.address, (e.weight.toNat : Int))) := by
    have entries_apart : (entries.map fun entry => (entry.key, entry.weight)).Nodup :=
      List.Nodup.of_map Prod.fst (by simpa [keys, Function.comp_def] using enlisted.distinct)
    have candidates_apart : (candidates.map fun e => (e.address, (e.weight.toNat : Int))).Nodup :=
      List.Nodup.of_map Prod.fst (by simpa [Function.comp_def] using enlisted.apart)
    refine (List.perm_ext_iff_of_nodup entries_apart candidates_apart).2 fun pair => ?_
    simp only [List.mem_map]
    constructor
    · rintro ⟨entry, member, rfl⟩
      obtain ⟨e, listed, same⟩ := (enlisted.covers entry.key).1 (List.mem_map_of_mem member)
      exact ⟨e, listed, by rw [same, enlisted.weighs entry member e listed same]⟩
    · rintro ⟨e, listed, rfl⟩
      obtain ⟨entry, member, same⟩ := List.mem_map.1 ((enlisted.covers e.address).2 ⟨e, listed, rfl⟩)
      exact ⟨entry, member, by rw [same, enlisted.weighs entry member e listed same.symm]⟩
  have sums := (pairs.map Prod.snd).sum_eq
  rw [List.map_map, List.map_map] at sums
  rw [totalWeight_eq_sum, total, Nat.cast_list_sum, List.map_map]
  exact sums

/-- The winner of a turn has most when it is raised, and it alone pays. -/
theorem Enlisted.turn (balanced : (entries.map (·.current)).sum = 0) (heavy : 0 < total candidates) :
    ∃ position winner e, (turn entries).1 = some position ∧ entries[position]? = some winner ∧
      e ∈ candidates ∧ e.address = winner.key ∧ 0 < raised entries e ∧
      (∀ f ∈ candidates, raised entries f ≤ raised entries e) ∧
      ∀ f ∈ candidates, credit (turn entries).2 f.address =
        raised entries f - if f.address = e.address then (total candidates : Int) else 0 := by
  have whole := enlisted.totalWeight_eq
  have positive : 0 < totalWeight entries := by
    rw [whole]
    exact_mod_cast heavy
  obtain ⟨credited, there, ahead⟩ := exists_raised_pos balanced positive
  obtain ⟨position, winner, won, here, greatest, after⟩ :=
    turn_spec enlisted.distinct (List.ne_nil_of_mem there)
  obtain ⟨e, listed, same, leads⟩ := enlisted.exists_candidate (List.mem_of_getElem? here)
  refine ⟨position, winner, e, won, here, listed, same, ?_, fun f member => ?_, fun f member => ?_⟩
  · rw [leads]
    exact ahead.trans_le (greatest credited there)
  · obtain ⟨entry, entered, _, raises⟩ := enlisted.exists_entry member
    rw [leads, raises]
    exact greatest entry entered
  · obtain ⟨entry, entered, named, raises⟩ := enlisted.exists_entry member
    have distinct : (keys (entries.map (settled (totalWeight entries) winner.key))).Nodup := by
      rw [keys_map_settled]
      exact enlisted.distinct
    have paid := credit_of_mem distinct (List.mem_map_of_mem entered)
    rw [after, raises, ← named, same, ← whole]
    exact paid

end Enlisted

namespace Snapshot

variable {s : Snapshot}

/-- With distinct addresses a refresh enlists the candidates, whether entries are kept or built anew. -/
theorem Keyed.enlisted (keyed : s.Keyed) (distinct : (keys (s.refresh candidates).entries).Nodup)
    (apart : (candidates.map Endpoint.address).Nodup) : Enlisted candidates (s.refresh candidates).entries where
  apart := apart
  distinct := distinct
  covers := keyed.refresh_covers candidates
  weighs := by
    intro entry member e listed same
    have front := (firstAt_eq_some_iff apart).2 ⟨listed, same⟩
    have apart_back : (candidates.reverse.map Endpoint.address).Nodup := by
      rw [List.map_reverse]
      exact List.nodup_reverse.2 apart
    have back : lastAt? candidates entry.key = some e :=
      (firstAt_eq_some_iff apart_back).2 ⟨List.mem_reverse.2 listed, same⟩
    exact (keyed.weight_eq_iff member front back).2 (.inr rfl)

end Snapshot

namespace RoundRobin

open Snapshot

variable {r : RoundRobin} {heaviest : String → Int} {service : String}

/-- A selection among candidates with distinct addresses. The one that has most when it is raised is
picked, and it alone pays. -/
theorem Reached.select_leads (reached : Reached r heaviest) (service : String)
    (apart : (candidates.map Endpoint.address).Nodup) (heavy : 0 < total candidates) :
    ∃ e ∈ candidates, (r.select service candidates).1 = some e ∧
      0 < raised ((r.snapshot service).refresh candidates).entries e ∧
      (∀ f ∈ candidates, raised ((r.snapshot service).refresh candidates).entries f ≤
        raised ((r.snapshot service).refresh candidates).entries e) ∧
      ∀ f ∈ candidates, credit ((r.select service candidates).2.snapshot service).entries f.address =
        raised ((r.snapshot service).refresh candidates).entries f -
          if f.address = e.address then (total candidates : Int) else 0 := by
  have filled : candidates ≠ [] := by
    rintro rfl
    cases heavy
  have bounded := bounded_refresh (reached.bounded service) candidates
  have enlisted := (reached.keyed.snapshot service).enlisted bounded.distinct apart
  obtain ⟨position, winner, e, won, here, listed, same, ahead, leads, pays⟩ :=
    enlisted.turn bounded.balanced heavy
  refine ⟨e, listed, ?_, ahead, leads, fun f member => ?_⟩
  · rw [select_of_winner filled won here]
    exact (firstAt_eq_some_iff apart).2 ⟨listed, same⟩
  · rw [snapshot_after filled, if_pos rfl]
    exact pays f member

/-- Candidates with addresses of their own and at least so much weight, of which none is at this address
and has a weight. -/
structure Drained (address : String) (least : Nat) (candidates : List Endpoint) : Prop where
  apart : (candidates.map Endpoint.address).Nodup
  weightless : ∀ e ∈ candidates, e.address = address → e.weight = 0
  heavy : least ≤ total candidates

variable {address : String} {least : Nat}

/-- What is not enlisted has no credit. -/
theorem Reached.credit_unlisted (reached : Reached r heaviest) (service : String) (filled : candidates ≠ [])
    (missing : ∀ e ∈ candidates, e.address ≠ address) :
    credit ((r.select service candidates).2.snapshot service).entries address = 0 := by
  apply credit_of_not_mem
  rw [snapshot_after filled, if_pos rfl, keys_turn]
  intro member
  obtain ⟨e, listed, same⟩ := ((reached.keyed.snapshot service).refresh_covers candidates address).1 member
  exact missing e listed same

/-- Being picked without a weight takes credit, and costs the total weight; not being picked adds none. -/
theorem Reached.drained_step (reached : Reached r heaviest) (service : String)
    (drained : Drained address least candidates) (positive : 0 < least) :
    ∃ e ∈ candidates, (r.select service candidates).1 = some e ∧
      (e.address = address → 0 < credit (r.snapshot service).entries address ∧
        credit ((r.select service candidates).2.snapshot service).entries address ≤
          credit (r.snapshot service).entries address - least) ∧
      (e.address ≠ address → credit ((r.select service candidates).2.snapshot service).entries address ≤
        max 0 (credit (r.snapshot service).entries address)) := by
  have heavy : 0 < total candidates := positive.trans_le drained.heavy
  obtain ⟨e, listed, picked, ahead, _, pays⟩ := reached.select_leads service drained.apart heavy
  refine ⟨e, listed, picked, ?_, ?_⟩
  · rintro rfl
    have paid := pays e listed
    rw [if_pos rfl] at paid
    have light : raised ((r.snapshot service).refresh candidates).entries e =
        credit ((r.snapshot service).refresh candidates).entries e.address := by
      simp [raised, drained.weightless e listed rfl]
    rw [light, credit_refresh] at ahead paid
    have heavier : (least : Int) ≤ total candidates := by exact_mod_cast drained.heavy
    split at ahead
    · next same =>
        rw [if_pos same] at paid
        exact ⟨ahead, by omega⟩
    · exact absurd ahead (lt_irrefl 0)
  · intro apart
    by_cases present : ∃ f ∈ candidates, f.address = address
    · obtain ⟨f, member, rfl⟩ := present
      have kept := pays f member
      rw [if_neg (Ne.symm apart), raised, drained.weightless f member rfl, credit_refresh] at kept
      split at kept <;> simp at kept <;> omega
    · have filled : candidates ≠ [] := List.ne_nil_of_mem listed
      rw [reached.credit_unlisted service filled (by simpa using present)]
      exact le_max_left _ _

/-- How often the calls for a service have been answered with an address. -/
def answeredBy (address service : String) (r : RoundRobin) (calls : List Call) : Nat :=
  (choices service r calls).countP fun chosen => chosen.any (·.address = address)

theorem answeredBy_cons (address service : String) (r : RoundRobin) (call : Call) (calls : List Call) :
    answeredBy address service r (call :: calls) =
      answeredBy address service (r.select call.service call.candidates).2 calls +
        if call.service = service ∧ (r.select call.service call.candidates).1.any (·.address = address)
        then 1 else 0 := by
  by_cases ours : call.service = service
  · simp [answeredBy, choices, ours, List.countP_cons]
  · simp [answeredBy, choices, ours]

theorem answeredBy_other (address : String) (r : RoundRobin) {call : Call} (calls : List Call)
    (other : call.service ≠ service) : answeredBy address service r (call :: calls) =
      answeredBy address service (r.select call.service call.candidates).2 calls := by
  simp [answeredBy_cons, other]

theorem snapshot_select_other {other : String} (apart : service ≠ other) (candidates : List Endpoint) :
    (r.select other candidates).2.snapshot service = r.snapshot service := by
  rw [snapshot, snapshot, get?_select_other apart]

/-- The credit pays for all answers but the last: each of them costs at least the least total weight. -/
theorem Reached.answeredBy_lt (reached : Reached r heaviest) (positive : 0 < least) {calls : List Call}
    (drained : ∀ call ∈ calls, call.service = service → Drained address least call.candidates) :
    (least : Int) * answeredBy address service r calls <
      max 0 (credit (r.snapshot service).entries address) + least := by
  induction calls generalizing r heaviest with
  | nil =>
      simp [answeredBy, choices]
      omega
  | cons call calls ih =>
      obtain ⟨first, later⟩ := List.forall_mem_cons.1 drained
      obtain ⟨_, next⟩ := reached.select_any call.service call.candidates
      have rest := ih next later
      by_cases ours : call.service = service
      · obtain ⟨e, _, picked, spends, keeps⟩ := reached.drained_step service (first ours) positive
        rw [answeredBy_cons]
        rw [ours] at rest ⊢
        by_cases hit : e.address = address
        · obtain ⟨credited, paid⟩ := spends hit
          simp only [picked, hit, Option.any_some, decide_true, and_self, if_true]
          push_cast
          rw [mul_add, mul_one]
          by_cases spent : credit ((r.select service call.candidates).2.snapshot service).entries address ≤ 0
          · rw [max_eq_left spent, zero_add] at rest
            have done := lt_of_mul_lt_mul_left (rest.trans_eq (mul_one (least : Int)).symm) (by omega)
            have none_left : answeredBy address service (r.select service call.candidates).2 calls = 0 := by
              omega
            rw [none_left]
            omega
          · omega
        · have kept := keeps hit
          simp only [picked, hit, Option.any_some, decide_false, Bool.false_eq_true, and_false, if_false,
            add_zero]
          omega
      · rw [snapshot_select_other (Ne.symm ours)] at rest
        rw [answeredBy_other address r calls ours]
        exact rest

theorem total_pos_of_mem {e : Endpoint} (listed : e ∈ candidates) (heavy : 0 < e.weight) :
    0 < total candidates := by
  have gain : e.weight.toNat ≤ total candidates := List.single_le_sum (by simp) _ (List.mem_map_of_mem listed)
  have positive : 0 < e.weight.toNat := UInt32.lt_iff_toNat_lt.1 heavy
  omega

/-- Among candidates with distinct addresses and some weight, one without a weight is picked only if it
has credit left, and no other one has more when it is raised; it is picked if each other one has less. As
long as it is without a weight, each time costs it the total weight, so its credit bounds how often it is
still picked; and without credit it never is. -/
theorem Reached.credit_bounds (reached : Reached r heaviest) (service : String) :
    (∀ candidates : List Endpoint, (candidates.map Endpoint.address).Nodup →
      (∃ f ∈ candidates, 0 < f.weight) → ∀ e ∈ candidates, e.weight = 0 →
        ((r.select service candidates).1 = some e →
          0 < credit ((r.snapshot service).refresh candidates).entries e.address ∧
          ∀ f ∈ candidates, raised ((r.snapshot service).refresh candidates).entries f ≤
            credit ((r.snapshot service).refresh candidates).entries e.address) ∧
        ((∀ f ∈ candidates, f ≠ e → raised ((r.snapshot service).refresh candidates).entries f <
            credit ((r.snapshot service).refresh candidates).entries e.address) →
          (r.select service candidates).1 = some e)) ∧
    ∀ address (least : Nat) (calls : List Call), 0 < least →
      (∀ call ∈ calls, call.service = service → Drained address least call.candidates) →
        (least : Int) * answeredBy address service r calls <
          max 0 (credit (r.snapshot service).entries address) + least := by
  refine ⟨fun candidates apart ⟨heavy, there, weighs⟩ e listed weightless => ?_,
    fun address least calls positive drained => reached.answeredBy_lt positive drained⟩
  obtain ⟨winner, member, picked, ahead, leads, _⟩ :=
    reached.select_leads service apart (total_pos_of_mem there weighs)
  have light : raised ((r.snapshot service).refresh candidates).entries e =
      credit ((r.snapshot service).refresh candidates).entries e.address := by
    simp [raised, weightless]
  rw [picked, ← light]
  constructor
  · intro same
    cases same
    exact ⟨ahead, leads⟩
  · intro behind
    by_contra other
    have apart_from : winner ≠ e := fun same => other (congrArg some same)
    exact absurd (leads e listed) (Int.not_le.2 (behind winner member apart_from))

/-- Two candidates, of which the second has this weight. -/
def couple (weight : String) : List Endpoint := [weighing "a" "1", weighing "b" weight]

/-- The first of two equals has been picked, so the second one has credit. -/
def owing : RoundRobin := (({} : RoundRobin).select "greeter" (couple "1")).2

theorem reached_owing : ∃ heaviest, Reached owing heaviest :=
  ⟨_, Reached.start.select "greeter" (show couple "1" ≠ [] by decide)⟩

/-- The second one is picked although it has lost its weight. -/
theorem owing_picks_weightless : (∃ heaviest, Reached owing heaviest) ∧
    ((couple "0").map Endpoint.address).Nodup ∧ (weighing "a" "1").weight = 1 ∧
    (weighing "b" "0").weight = 0 ∧
    (owing.select "greeter" (couple "0")).1 = some (weighing "b" "0") := by
  refine ⟨reached_owing, ?_, ?_, ?_, ?_⟩ <;> decide +kernel

theorem owing_bounded : ∃ heaviest, Reached owing heaviest ∧
    ((couple "0").map Endpoint.address).Nodup ∧ (∃ f ∈ couple "0", 0 < f.weight) ∧
    Drained "b:50051" 1 (couple "0") ∧
    0 < credit ((owing.snapshot "greeter").refresh (couple "0")).entries (weighing "b" "0").address ∧
    ∀ n, answeredBy "b:50051" "greeter" owing (List.replicate n ⟨"greeter", couple "0"⟩) ≤ 1 := by
  obtain ⟨heaviest, reached⟩ := reached_owing
  have apart : ((couple "0").map Endpoint.address).Nodup := by decide +kernel
  have weighs : ∃ f ∈ couple "0", 0 < f.weight := ⟨weighing "a" "1", by simp [couple], by decide +kernel⟩
  have drained : Drained "b:50051" 1 (couple "0") := by
    refine ⟨apart, ?_, ?_⟩ <;> decide +kernel
  obtain ⟨once, often⟩ := reached.credit_bounds "greeter"
  have picked : (owing.select "greeter" (couple "0")).1 = some (weighing "b" "0") := by decide +kernel
  have credited := (once (couple "0") apart weighs (weighing "b" "0") (by simp [couple])
    (by decide +kernel)).1 picked
  refine ⟨heaviest, reached, apart, weighs, drained, credited.1, fun n => ?_⟩
  have one : credit (owing.snapshot "greeter").entries "b:50051" = 1 := by decide +kernel
  have bound := often "b:50051" 1 (List.replicate n ⟨"greeter", couple "0"⟩) Nat.one_pos
    fun call member _ => List.eq_of_mem_replicate member ▸ drained
  rw [one] at bound
  omega

end RoundRobin

end ServiceGovernance.Balance
