import Mathlib.Data.List.Perm.Basic
import Mathlib.Data.Nat.Periodic
import ServiceGovernance.Proofs.Balance.Answering
import ServiceGovernance.Proofs.Balance.Sharing
import ServiceGovernance.Traffic

/-!
Two methods of one service that are routed to lists of their own take turns on the one snapshot that the
service has. If the lists have the same addresses, a call of either method is one more turn of a common
schedule. If not, a call of the other method starts the schedule anew. Main statement: every call is
answered from its place in a schedule that repeats itself, and as many calls of one method as its candidates
weigh share exactly by weight, if no two of them have the same place in a round.
-/

namespace ServiceGovernance.Balance

section Schedule

variable {base : List Entry} {key : String}

theorem winners_one (entries : List Entry) : winners 1 entries = (winner? entries).toList := by
  simp [winners]

/-- How often a key wins is counted over the states that the turns are taken from. -/
theorem count_winners (n : Nat) (entries : List Entry) :
    (winners n entries).count key =
      (List.range n).countP fun i => winner? (turns i entries) = some key := by
  induction n with
  | zero => rfl
  | succ n ih =>
      have last : (winner? (turns n entries)).toList.count key =
          if winner? (turns n entries) = some key then 1 else 0 := by
        cases found : winner? (turns n entries) <;> simp [List.count_singleton]
      rw [winners_add, winners_one, List.count_append, ih, last, List.range_succ, List.countP_append,
        List.countP_singleton]
      simp

theorem periodic_turns (level : Level base) (untouched : Untouched base) :
    Function.Periodic (fun n => turns n base) (totalWeight base).toNat := by
  intro n
  simp only
  rw [Nat.add_comm, turns_add, turns_totalWeight level untouched]

end Schedule

namespace Snapshot

variable {candidates others : List Endpoint} {base : List Entry}

theorem roster_iff : Roster candidates base ↔ base.Perm (candidates.map Entry.ofEndpoint) := by
  have composed := congrFun (congrFun (List.eq_map_comp_perm Entry.ofEndpoint) base) candidates
  rw [← composed]
  constructor
  · rintro ⟨order, perm, equal⟩
    exact ⟨order, equal, perm⟩
  · rintro ⟨order, equal, perm⟩
    exact ⟨order, perm, equal⟩

theorem total_pos (filled : candidates ≠ []) (weighty : ∀ e ∈ candidates, 0 < e.weight) :
    0 < total candidates := by
  obtain ⟨first, rest, rfl⟩ := List.exists_cons_of_ne_nil filled
  have heavy : 0 < first.weight.toNat := UInt32.lt_iff_toNat_lt.1 (weighty first List.mem_cons_self)
  rw [total, List.map_cons, List.sum_cons]
  omega

/-- Each entry of the one list is an entry of the other. -/
theorem ofEndpoint_subset (same : addresses candidates = addresses others)
    (agree : ∀ e ∈ candidates, ∀ other ∈ others, e.address = other.address → e.weight = other.weight) :
    candidates.map Entry.ofEndpoint ⊆ others.map Entry.ofEndpoint := by
  intro entry member
  obtain ⟨e, there, rfl⟩ := List.mem_map.1 member
  obtain ⟨other, here, equal⟩ : ∃ other ∈ others, other.address = e.address := by
    rw [← mem_addresses_iff, ← same, mem_addresses_iff]
    exact ⟨e, there, rfl⟩
  have weights := agree e there other here equal.symm
  exact List.mem_map.2 ⟨other, here, by simp [Entry.ofEndpoint, equal, weights]⟩

/-- Lists with the same addresses and the same weight for each of them have the same rosters. -/
theorem Roster.congr (roster : Roster others base) (apart : (candidates.map Endpoint.address).Nodup)
    (others_apart : (others.map Endpoint.address).Nodup) (same : addresses candidates = addresses others)
    (agree : ∀ e ∈ candidates, ∀ other ∈ others, e.address = other.address → e.weight = other.weight) :
    Roster candidates base := by
  have distinct : ∀ {list : List Endpoint}, (list.map Endpoint.address).Nodup →
      (list.map Entry.ofEndpoint).Nodup := by
    intro list nodup
    apply List.Nodup.of_map Entry.key
    simpa [Entry.ofEndpoint, Function.comp_def] using nodup
  have back : others.map Entry.ofEndpoint ⊆ candidates.map Entry.ofEndpoint :=
    ofEndpoint_subset same.symm fun other here e there equal => (agree e there other here equal.symm).symm
  rw [roster_iff] at roster ⊢
  apply roster.trans
  rw [List.perm_ext_iff_of_nodup (distinct others_apart) (distinct apart)]
  exact fun entry => ⟨fun member => back member, fun member => ofEndpoint_subset same agree member⟩

/-- A snapshot of other addresses is built anew, in the order of the candidates. -/
theorem refresh_other {s : Snapshot} (other : s.members ≠ addresses candidates)
    (apart : (candidates.map Endpoint.address).Nodup) :
    s.refresh candidates = ⟨s.generation + 1, addresses candidates, candidates.map Entry.ofEndpoint⟩ := by
  rw [refresh, if_neg other.symm, firstOfEachAddress_eq_self apart fun _ _ => List.not_mem_nil]

end Snapshot

namespace RoundRobin

open Snapshot

section Places

variable {routed : String → List Endpoint} {one : String} {n k : Nat}

/-- The places in the schedule of one method from which its calls are answered. A call of a method with
the same addresses takes a place too, and one with other addresses starts the schedule anew. -/
def places (routed : String → List Endpoint) (one : String) : Nat → List String → List Nat
  | _, [] => []
  | n, method :: calls =>
      if method = one then n :: places routed one (n + 1) calls
      else if routed method = [] then places routed one n calls
      else if addresses (routed method) = addresses (routed one) then places routed one (n + 1) calls
      else places routed one 0 calls

/-- No two places are the same one of a round. -/
def Spread (round : Nat) (places : List Nat) : Prop := (places.map (· % round)).Nodup

instance (round : Nat) (places : List Nat) : Decidable (Spread round places) :=
  inferInstanceAs (Decidable (List.Nodup _))

theorem length_places (calls : List String) : (places routed one n calls).length = calls.count one := by
  induction calls generalizing n with
  | nil => rfl
  | cons method calls ih =>
      unfold places
      split
      · next ours => simp [ours, ih]
      · next theirs =>
          have rest : (method :: calls).count one = calls.count one := List.count_cons_of_ne theirs
          rw [rest]
          split
          · exact ih
          · split <;> exact ih

/-- The places of later calls are those from some place on. -/
theorem places_append (before after : List String) :
    ∃ m, places routed one n (before ++ after) = places routed one n before ++ places routed one m after := by
  induction before generalizing n with
  | nil => exact ⟨n, rfl⟩
  | cons method before ih =>
      simp only [List.cons_append, places]
      split
      · obtain ⟨m, rest⟩ := ih (n := n + 1)
        exact ⟨m, by rw [rest, List.cons_append]⟩
      · split
        · exact ih
        · split <;> exact ih

theorem places_replicate (k : Nat) (after : List String) :
    places routed one n (List.replicate k one ++ after) =
      List.range' n k ++ places routed one (n + k) after := by
  induction k generalizing n with
  | zero => rfl
  | succ k ih =>
      have next : n + 1 + k = n + (k + 1) := by omega
      rw [List.replicate_succ, List.cons_append, places, if_pos rfl, ih, List.range'_succ, next,
        List.cons_append]

/-- A whole round of places of which no two are the same are all places of the round, in some order. -/
theorem Spread.perm_range {round : Nat} {window : List Nat} (spread : Spread round window)
    (full : window.length = round) : (window.map (· % round)).Perm (List.range round) := by
  have inside : window.map (· % round) ⊆ List.range round := by
    intro place member
    obtain ⟨n, there, rfl⟩ := List.mem_map.1 member
    rw [List.mem_range]
    apply Nat.mod_lt
    rw [← full]
    exact List.length_pos_of_mem there
  apply (List.subperm_of_subset spread inside).perm_of_length_le
  rw [List.length_range, List.length_map, full]

theorem spread_range' (first round : Nat) : Spread round (List.range' first round) := by
  rw [Spread, List.range'_eq_map_range, List.map_map]
  refine List.Nodup.map_on ?_ List.nodup_range
  intro i before j behind same
  have cancelled : i ≡ j [MOD round] := Nat.ModEq.add_left_cancel' first same
  exact cancelled.eq_of_lt_of_lt (List.mem_range.1 before) (List.mem_range.1 behind)

/-- A whole round of calls that no other call comes between has all places of the round. -/
theorem spread_replicate (round : Nat) (before after : List String) :
    Spread round (((places routed one n (before ++ List.replicate round one ++ after)).drop
      (before.count one)).take round) := by
  rw [List.append_assoc]
  obtain ⟨m, split⟩ : ∃ m, places routed one n (before ++ (List.replicate round one ++ after)) =
      places routed one n before ++ places routed one m (List.replicate round one ++ after) :=
    places_append before (List.replicate round one ++ after)
  have window : ((places routed one n (before ++ (List.replicate round one ++ after))).drop
      (before.count one)).take round = List.range' m round := by
    rw [split, places_replicate, List.drop_left' (length_places before),
      List.take_left' List.length_range']
  rw [window]
  exact spread_range' m round

end Places

section Share

variable {candidates : List Endpoint} {base : List Entry}

/-- Who is picked after `n` turns. -/
def scheduled (candidates : List Endpoint) (base : List Entry) (n : Nat) : Option Endpoint :=
  (winner? (turns n base)).bind fun key => candidates.find? (·.address = key)

theorem scheduled_eq_some_iff (apart : (candidates.map Endpoint.address).Nodup) {e : Endpoint}
    (member : e ∈ candidates) {n : Nat} :
    scheduled candidates base n = some e ↔ winner? (turns n base) = some e.address := by
  rw [scheduled, Option.bind_eq_some_iff]
  constructor
  · rintro ⟨key, won, found⟩
    have same : e.address = key := by simpa using List.find?_some found
    rw [won, same]
  · intro won
    obtain ⟨other, found⟩ : ∃ other, candidates.find? (·.address = e.address) = some other :=
      Option.isSome_iff_exists.1 (List.find?_isSome.2 ⟨e, member, by simp⟩)
    have same : other.address = e.address := by simpa using List.find?_some found
    refine ⟨e.address, won, ?_⟩
    rw [found, List.inj_on_of_nodup_map apart (List.mem_of_find?_eq_some found) member same]

theorem periodic_scheduled (apart : (candidates.map Endpoint.address).Nodup) (heavy : 0 < total candidates)
    (roster : Roster candidates base) : Function.Periodic (scheduled candidates base) (total candidates) := by
  have round : (totalWeight base).toNat = total candidates := by
    rw [totalWeight_roster roster, Int.toNat_natCast]
  intro n
  have same := periodic_turns (level_roster apart heavy roster) (untouched_roster roster) n
  dsimp only at same
  rw [round] at same
  rw [scheduled, scheduled, same]

/-- In a round of the schedule everybody has as many places as his weight is. -/
theorem count_scheduled_range (apart : (candidates.map Endpoint.address).Nodup) (heavy : 0 < total candidates)
    (roster : Roster candidates base) {e : Endpoint} (member : e ∈ candidates) :
    ((List.range (total candidates)).map (scheduled candidates base)).count (some e) = e.weight.toNat := by
  have round : (totalWeight base).toNat = total candidates := by
    rw [totalWeight_roster roster, Int.toNat_natCast]
  have named : (Entry.ofEndpoint e).key = e.address := rfl
  have weighs : (Entry.ofEndpoint e).weight = (e.weight.toNat : Int) := rfl
  have share := count_winners_window (level_roster apart heavy roster) (untouched_roster roster) 0
    (ofEndpoint_mem roster member)
  rw [round, named, weighs, turns, count_winners] at share
  rw [List.count_eq_countP, List.countP_map, ← Int.ofNat_inj.1 share]
  apply List.countP_congr
  intro n _
  simpa using scheduled_eq_some_iff apart member

/-- Wherever a round of places is taken from, it is shared by weight if no two of them are the same. -/
theorem count_scheduled (apart : (candidates.map Endpoint.address).Nodup) (heavy : 0 < total candidates)
    (roster : Roster candidates base) {window : List Nat} (full : window.length = total candidates)
    (spread : Spread (total candidates) window) {e : Endpoint} (member : e ∈ candidates) :
    (window.map (scheduled candidates base)).count (some e) = e.weight.toNat := by
  have periodic := periodic_scheduled apart heavy roster
  have modulo : window.map (scheduled candidates base) =
      (window.map (· % total candidates)).map (scheduled candidates base) := by
    rw [List.map_map]
    exact List.map_congr_left fun n _ => (periodic.map_mod_nat n).symm
  calc (window.map (scheduled candidates base)).count (some e)
      = ((List.range (total candidates)).map (scheduled candidates base)).count (some e) := by
        rw [modulo]
        exact ((spread.perm_range full).map _).count_eq _
    _ = e.weight.toNat := count_scheduled_range apart heavy roster member

end Share

section Mixed

variable {r : RoundRobin} {service one other method : String} {routed : String → List Endpoint}
  {base : List Entry} {n generation : Nat} {calls : List String}

/-- What the calls of one method are answered, whatever other methods are called in between. -/
def answersTo (service : String) (routed : String → List Endpoint) (one : String) :
    RoundRobin → List String → List (Option Endpoint)
  | _, [] => []
  | r, method :: calls =>
      let (chosen, next) := r.select service (routed method)
      if method = one then chosen :: answersTo service routed one next calls
      else answersTo service routed one next calls

/-- Two methods with distinct addresses and positive weights on both sides. Where the addresses are the
same, so are the weights. -/
structure Paired (routed : String → List Endpoint) (one other : String) : Prop where
  distinct : ∀ method ∈ [one, other], ((routed method).map Endpoint.address).Nodup
  weighty : ∀ method ∈ [one, other], ∀ e ∈ routed method, 0 < e.weight
  agree : addresses (routed one) = addresses (routed other) →
    ∀ e ∈ routed one, ∀ rival ∈ routed other, e.address = rival.address → e.weight = rival.weight

theorem Paired.roster (paired : Paired routed one other) (either : method ∈ [one, other])
    (same : addresses (routed method) = addresses (routed one)) :
    Roster (routed method) base ↔ Roster (routed one) base := by
  have here := paired.distinct one (by simp)
  have there := paired.distinct other (by simp)
  rcases List.mem_pair.1 either with rfl | rfl
  · rfl
  · have agree := paired.agree same.symm
    constructor
    · intro roster
      exact roster.congr here there same.symm agree
    · intro roster
      exact roster.congr there here same fun rival member e listed equal =>
        (agree e listed rival member equal.symm).symm

theorem snapshot_select (filled : routed method ≠ []) :
    (((r.select service (routed method)).2).snapshot service).members = addresses (routed method) := by
  rw [select, if_neg (by simpa using filled), snapshot, SortedMap.get?_insert, if_pos rfl]
  exact members_refresh (r.snapshot service) (routed method)

/-- A call that finds its own addresses takes the turn at which the schedule stands. -/
theorem Paired.select (paired : Paired routed one other) (either : method ∈ [one, other])
    (filled : routed method ≠ []) (roster : Roster (routed method) base)
    (refreshed : (r.snapshot service).refresh (routed method) =
      ⟨generation, addresses (routed method), turns n base⟩) :
    (r.select service (routed method)).1 = scheduled (routed method) base n ∧
      ((r.select service (routed method)).2).snapshot service =
        ⟨generation, addresses (routed method), turns (n + 1) base⟩ := by
  have distinct := paired.distinct method either
  have heavy := total_pos filled (paired.weighty method either)
  obtain ⟨e, member, chosen, won, next⟩ := select_turns distinct heavy roster .rfl refreshed
  rw [winners_one, Option.toList_eq_singleton_iff] at won
  rw [snapshot, next, chosen, (scheduled_eq_some_iff distinct member).2 won]
  exact ⟨rfl, rfl⟩

/-- Where the schedule stands before the next call. Only a list of other addresses sets it back. -/
def Stands (routed : String → List Endpoint) (one other : String) (base : List Entry) (n : Nat)
    (s : Snapshot) : Prop :=
  (∃ generation, s = ⟨generation, addresses (routed one), turns n base⟩) ∨
  (n = 0 ∧ s.members ≠ addresses (routed one) ∧ addresses (routed other) ≠ addresses (routed one) ∧
    base = (routed one).map Entry.ofEndpoint)

theorem Stands.refresh {s : Snapshot} (stands : Stands routed one other base n s)
    (paired : Paired routed one other) (either : method ∈ [one, other]) (filled : routed method ≠ [])
    (same : addresses (routed method) = addresses (routed one)) (roster : Roster (routed method) base) :
    ∃ generation, s.refresh (routed method) = ⟨generation, addresses (routed method), turns n base⟩ := by
  have distinct := paired.distinct method either
  rcases stands with ⟨generation, rfl⟩ | ⟨rfl, changed, apart, rfl⟩
  · have heavy := total_pos filled (paired.weighty method either)
    rw [← same]
    exact ⟨generation, refresh_turns distinct heavy roster .rfl generation n⟩
  · rcases List.mem_pair.1 either with rfl | rfl
    · exact ⟨s.generation + 1, refresh_other changed distinct⟩
    · exact absurd same apart

/-- A call that finds the addresses of the schedule is answered from the next place, or takes it for the
other method; the rest of the calls goes on from there. -/
theorem Paired.answersTo_cons (paired : Paired routed one other) (either : method ∈ [one, other])
    (filled : routed method ≠ []) (same : addresses (routed method) = addresses (routed one))
    (roster : Roster (routed method) base)
    (refreshed : (r.snapshot service).refresh (routed method) =
      ⟨generation, addresses (routed method), turns n base⟩)
    (rest : Stands routed one other base (n + 1) (((r.select service (routed method)).2).snapshot service) →
      answersTo service routed one (r.select service (routed method)).2 calls =
        (places routed one (n + 1) calls).map (scheduled (routed one) base)) :
    answersTo service routed one r (method :: calls) =
      (places routed one n (method :: calls)).map (scheduled (routed one) base) := by
  obtain ⟨chosen, next⟩ := paired.select either filled roster refreshed
  have rest := rest (.inl ⟨generation, by rw [next, same]⟩)
  by_cases ours : method = one
  · subst ours
    simp only [answersTo, places, if_true, List.map_cons, chosen, rest]
  · simp only [answersTo, places, if_neg ours, if_neg filled, if_pos same, rest]

/-- Every call of the one method is answered from its place in the schedule. -/
theorem Paired.answersTo_eq (paired : Paired routed one other) (filled : routed one ≠ [])
    (roster : Roster (routed one) base)
    (restart : addresses (routed other) ≠ addresses (routed one) →
      base = (routed one).map Entry.ofEndpoint)
    (only : ∀ method ∈ calls, method ∈ [one, other])
    (stands : Stands routed one other base n (r.snapshot service)) :
    answersTo service routed one r calls =
      (places routed one n calls).map (scheduled (routed one) base) := by
  induction calls generalizing r n with
  | nil => rfl
  | cons method calls ih =>
      have either := only method List.mem_cons_self
      have later : ∀ method ∈ calls, method ∈ [one, other] :=
        fun method member => only method (List.mem_cons_of_mem _ member)
      by_cases empty : routed method = []
      · have theirs : method ≠ one := fun same => filled (same ▸ empty)
        have idle : r.select service (routed method) = (none, r) := by
          rw [empty]
          rfl
        simp only [answersTo, places, if_neg theirs, if_pos empty, idle]
        exact ih later stands
      · by_cases same : addresses (routed method) = addresses (routed one)
        · have own := (paired.roster either same).2 roster
          obtain ⟨generation, refreshed⟩ := stands.refresh paired either empty same own
          exact paired.answersTo_cons either empty same own refreshed (ih later)
        · have theirs : method ≠ one := by
            rintro rfl
            exact same rfl
          have method_eq : method = other := (List.mem_pair.1 either).resolve_left theirs
          subst method_eq
          simp only [answersTo, places, if_neg theirs, if_neg empty, if_neg same]
          apply ih later
          exact .inr ⟨rfl, by rwa [snapshot_select empty], same, restart same⟩

theorem Paired.exists_schedule (paired : Paired routed one other) (filled : routed one ≠ [])
    (fresh : (r.snapshot service).members ≠ addresses (routed one))
    (only : ∀ method ∈ calls, method ∈ [one, other]) :
    ∃ base, Roster (routed one) base ∧ answersTo service routed one r calls =
      (places routed one 0 calls).map (scheduled (routed one) base) := by
  by_cases apart : addresses (routed other) ≠ addresses (routed one)
  · have roster : Roster (routed one) ((routed one).map Entry.ofEndpoint) := ⟨routed one, .rfl, rfl⟩
    exact ⟨_, roster, paired.answersTo_eq filled roster (fun _ => rfl) only
      (.inr ⟨rfl, fresh, apart, rfl⟩)⟩
  · -- The first call decides in which order the common addresses take their turns.
    have common := not_not.1 apart
    cases calls with
    | nil => exact ⟨_, ⟨routed one, .rfl, rfl⟩, rfl⟩
    | cons method calls =>
        have either := only method List.mem_cons_self
        have same : addresses (routed method) = addresses (routed one) := by
          rcases List.mem_pair.1 either with rfl | rfl
          · rfl
          · exact common
        have somebody : routed method ≠ [] := by
          obtain ⟨e, rest, first⟩ := List.exists_cons_of_ne_nil filled
          have listed : e.address ∈ (addresses (routed one)).toList :=
            mem_addresses_iff.2 ⟨e, first ▸ List.mem_cons_self, rfl⟩
          rw [← same, mem_addresses_iff] at listed
          obtain ⟨found, member, _⟩ := listed
          exact List.ne_nil_of_mem member
        have own : Roster (routed method) ((routed method).map Entry.ofEndpoint) := ⟨_, .rfl, rfl⟩
        have roster := (paired.roster either same).1 own
        refine ⟨_, roster, paired.answersTo_cons (n := 0) either somebody same own
          (refresh_other (same ▸ fresh) (paired.distinct method either)) fun stands => ?_⟩
        exact paired.answersTo_eq filled roster (fun other => absurd other apart)
          (fun method member => only method (List.mem_cons_of_mem _ member)) stands

/-- Every call of the one method is answered from its place in a schedule that goes round with the total
weight and has a place for each unit of it. So a whole round of calls is shared by weight if no two of them
have the same place in the round; and none have if no call of the other method comes between. -/
theorem mixed_calls_share (r : RoundRobin) (service : String) (routed : String → List Endpoint)
    (one other : String) (calls : List String) (paired : Paired routed one other)
    (fresh : routed one ≠ [] → (r.snapshot service).members ≠ addresses (routed one))
    (only : ∀ method ∈ calls, method ∈ [one, other]) :
    (routed one ≠ [] → ∃ schedule, Function.Periodic schedule (total (routed one)) ∧
      (∀ e ∈ routed one, ((List.range (total (routed one))).map schedule).count (some e) = e.weight.toNat) ∧
      answersTo service routed one r calls = (places routed one 0 calls).map schedule) ∧
    (∀ start, start + total (routed one) ≤ calls.count one →
      Spread (total (routed one)) (((places routed one 0 calls).drop start).take (total (routed one))) →
      ∀ e ∈ routed one,
        (((answersTo service routed one r calls).drop start).take (total (routed one))).count (some e) =
          e.weight.toNat) ∧
    ∀ before after, calls = before ++ List.replicate (total (routed one)) one ++ after →
      Spread (total (routed one))
        (((places routed one 0 calls).drop (before.count one)).take (total (routed one))) := by
  have apart := paired.distinct one (by simp)
  have heavy : routed one ≠ [] → 0 < total (routed one) := fun filled =>
    total_pos filled (paired.weighty one (by simp))
  refine ⟨fun filled => ?_, fun start inside spread e member => ?_, ?_⟩
  · obtain ⟨base, roster, answers⟩ := paired.exists_schedule filled (fresh filled) only
    exact ⟨scheduled (routed one) base, periodic_scheduled apart (heavy filled) roster,
      fun e member => count_scheduled_range apart (heavy filled) roster member, answers⟩
  · have filled := List.ne_nil_of_mem member
    obtain ⟨base, roster, answers⟩ := paired.exists_schedule filled (fresh filled) only
    have full : (((places routed one 0 calls).drop start).take (total (routed one))).length =
        total (routed one) := by
      rw [List.length_take, List.length_drop, length_places]
      omega
    rw [answers, ← List.map_drop, ← List.map_take]
    exact count_scheduled apart (heavy filled) roster full spread member
  · rintro before after rfl
    exact spread_replicate (total (routed one)) before after

/-- Two thirds of the greetings are for `big`. -/
def big : Endpoint := { protocol := "tri", host := "big", port := 50051 : Endpoint }.withParam "weight" "2"

def small : Endpoint := { protocol := "tri", host := "small", port := 50051 : Endpoint }.withParam "weight" "1"

/-- Calls of `bye` are routed to `big` alone. -/
def counter : Dispatcher where
  directory := {
    consumer := { protocol := "consumer", host := "c", port := 0, path := "greeter" }
    providers := [big, small]
    rules := [
      { text := "method = bye => host = big", condition := [⟨"method", false, [.exact "bye".toList]⟩],
        consequence := [⟨"host", false, [.exact "big".toList]⟩] }] }

theorem counter_hello : counter.candidates "hello" = [big, small] := by decide +kernel

theorem counter_bye : counter.candidates "bye" = [big] := by decide +kernel

theorem paired_counter : Paired counter.candidates "hello" "bye" where
  distinct := by
    simp only [List.forall_mem_cons, counter_hello, counter_bye]
    decide +kernel
  weighty := by
    simp only [List.forall_mem_cons, counter_hello, counter_bye]
    decide +kernel
  agree := by
    rw [counter_hello, counter_bye]
    exact fun same => absurd same (by decide +kernel)

/-- The list for `bye` as it would be if `big` weighed more for it. -/
def reweighed (method : String) : List Endpoint :=
  if method = "bye" then [big.withParam "weight" "10", small] else [big, small]

/-- A farewell after each greeting sets the greetings back every time, so `small` never gets one. And
where the farewells find other weights, what they leave behind is made up for by the greetings. -/
theorem greetings_not_shared :
    Paired counter.candidates "hello" "bye" ∧ counter.candidates "hello" = [big, small] ∧
      total [big, small] = 3 ∧ small.weight = 1 ∧
      answersTo "greeter" counter.candidates "hello" {} ["hello", "bye", "hello", "bye", "hello"] =
        [some big, some big, some big] ∧
      answersTo "greeter" reweighed "hello" {} ["bye", "bye", "hello", "hello", "hello"] =
        [some small, some big, some small] := by
  refine ⟨paired_counter, counter_hello, ?_⟩
  decide +kernel

/-- One farewell before the first greeting, and one after a whole round of them. -/
def visits : List String := ["bye", "hello", "hello", "hello", "bye", "hello", "hello"]

/-- The same two for both methods. -/
def alike (_ : String) : List Endpoint := [big, small]

/-- Greetings and farewells in turn. -/
def inTurn : List String := ["hello", "bye", "hello", "bye", "hello"]

theorem paired_alike : Paired alike "hello" "bye" where
  distinct _ _ := by
    rw [alike]
    decide +kernel
  weighty _ _ := by
    rw [alike]
    decide +kernel
  agree _ := by
    rw [alike, alike]
    decide +kernel

/-- Three greetings in a row have all three places of the round, and so have three greetings with a farewell
to the same two between any of them: the first one has the first place, the second one the third. -/
theorem greetings_share :
    Paired counter.candidates "hello" "bye" ∧ (∀ method ∈ visits, method ∈ ["hello", "bye"]) ∧
      (({} : RoundRobin).snapshot "greeter").members ≠ addresses (counter.candidates "hello") ∧
      Spread 3 (((places counter.candidates "hello" 0 visits).drop 1).take 3) ∧
      (∀ e ∈ counter.candidates "hello",
        (((answersTo "greeter" counter.candidates "hello" {} visits).drop 1).take 3).count (some e) =
          e.weight.toNat) ∧
      places alike "hello" 0 inTurn = [0, 2, 4] ∧
      ∀ e ∈ alike "hello", (answersTo "greeter" alike "hello" {} inTurn).count (some e) = e.weight.toNat := by
  have fresh : (({} : RoundRobin).snapshot "greeter").members ≠ addresses (counter.candidates "hello") := by
    decide +kernel
  have only : ∀ method ∈ visits, method ∈ ["hello", "bye"] := by decide
  have round : total (counter.candidates "hello") = 3 := by decide +kernel
  have spread : Spread 3 (((places counter.candidates "hello" 0 visits).drop 1).take 3) := by decide +kernel
  have shares := (mixed_calls_share {} "greeter" counter.candidates "hello" "bye" visits paired_counter
    (fun _ => fresh) only).2.1 1
  rw [round] at shares
  have turned : places alike "hello" 0 inTurn = [0, 2, 4] := by decide +kernel
  have whole : total (alike "hello") = 3 := by decide +kernel
  have answered : (answersTo "greeter" alike "hello" {} inTurn).length = 3 := by decide +kernel
  have turns_share := (mixed_calls_share {} "greeter" alike "hello" "bye" inTurn paired_alike
    (fun _ => by decide +kernel) (by decide)).2.1 0
  rw [whole, turned] at turns_share
  simp only [List.drop_zero, List.take_of_length_le (Nat.le_of_eq answered)] at turns_share
  exact ⟨paired_counter, only, fresh, spread, shares (by decide) spread, turned,
    turns_share (by decide) (by decide)⟩

end Mixed

end RoundRobin

end ServiceGovernance.Balance
