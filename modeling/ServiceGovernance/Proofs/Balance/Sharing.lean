import Mathlib.Algebra.BigOperators.Ring.Finset
import Mathlib.Algebra.Order.Floor.Div
import ServiceGovernance.Proofs.Balance.Turns
import ServiceGovernance.Proofs.SortedSets

/-!
Runs of selections. The calls for one service take turns on its snapshot whatever is called for the
others in between, and a list of the same candidates in another order is no new membership. Main
statement: the calls share exactly by weight, in every window as long as the total weight.
-/

namespace ServiceGovernance.Balance

structure Call where
  service : String
  candidates : List Endpoint

namespace Snapshot

def total (candidates : List Endpoint) : Nat := (candidates.map fun e => e.weight.toNat).sum

variable {candidates order : List Endpoint}

theorem addresses_perm (same : order.Perm candidates) : addresses order = addresses candidates :=
  SortedSet.ofList_perm (same.map _)

theorem firstOfEachAddress_eq_self {seen : List String} (apart : (candidates.map Endpoint.address).Nodup)
    (unseen : ∀ e ∈ candidates, e.address ∉ seen) : firstOfEachAddress seen candidates = candidates := by
  induction candidates generalizing seen with
  | nil => rfl
  | cons e rest ih =>
      obtain ⟨absent, rest_apart⟩ := List.nodup_cons.1 apart
      rw [firstOfEachAddress, if_neg (unseen e (by simp)), ih rest_apart]
      intro other member
      have other_apart : other.address ≠ e.address := fun same =>
        absent (List.mem_map.2 ⟨other, member, same⟩)
      simpa [other_apart] using unseen other (List.mem_cons_of_mem _ member)

/-- Where addresses are distinct, the weight announced for one is its candidate's. -/
theorem announcedWeight?_address (apart : (candidates.map Endpoint.address).Nodup) {e : Endpoint}
    (member : e ∈ candidates) : announcedWeight? candidates e.address = some (e.weight.toNat : Int) := by
  have apart_back : (candidates.reverse.map Endpoint.address).Nodup := by
    rw [List.map_reverse]
    exact List.nodup_reverse.2 apart
  rw [announcedWeight?, find?_of_distinct apart_back (List.mem_reverse.2 member)]
  rfl

/-- The entries of a fresh snapshot for these candidates, in some order of them. -/
def Roster (candidates : List Endpoint) (base : List Entry) : Prop :=
  ∃ order : List Endpoint, order.Perm candidates ∧ base = order.map Entry.ofEndpoint

/-- Nothing has been gained yet: either the next call rebuilds the snapshot, or it has just been
rebuilt from these candidates. -/
def StartsAfresh (s : Snapshot) (candidates : List Endpoint) : Prop :=
  s.members ≠ addresses candidates ∨
    s.members = addresses candidates ∧ Roster candidates s.entries

variable {base : List Entry}

theorem totalWeight_roster (roster : Roster candidates base) :
    totalWeight base = total candidates := by
  obtain ⟨order, same, rfl⟩ := roster
  rw [totalWeight_eq_sum, total, ← (same.map _).sum_eq]
  simp [Entry.ofEndpoint, Function.comp_def, Nat.cast_list_sum]

theorem level_roster (apart : (candidates.map Endpoint.address).Nodup) (heavy : 0 < total candidates)
    (roster : Roster candidates base) : Level base := by
  have whole := totalWeight_roster roster
  obtain ⟨order, same, rfl⟩ := roster
  constructor
  · simpa [keys, Entry.ofEndpoint, Function.comp_def] using (same.map Endpoint.address).nodup_iff.2 apart
  · intro entry member
    obtain ⟨e, _, rfl⟩ := List.mem_map.1 member
    exact Int.natCast_nonneg _
  · omega
  · simp [Entry.ofEndpoint, Function.comp_def]
  · intro entry member
    obtain ⟨e, _, rfl⟩ := List.mem_map.1 member
    rw [whole]
    simpa [Entry.ofEndpoint] using heavy

theorem untouched_roster (roster : Roster candidates base) : Untouched base := by
  obtain ⟨order, _, rfl⟩ := roster
  intro entry member
  obtain ⟨e, _, rfl⟩ := List.mem_map.1 member
  rfl

theorem exists_candidate (roster : Roster candidates base) {entry : Entry} (member : entry ∈ base) :
    ∃ e ∈ candidates, entry = Entry.ofEndpoint e := by
  obtain ⟨order, same, rfl⟩ := roster
  obtain ⟨e, there, rfl⟩ := List.mem_map.1 member
  exact ⟨e, same.mem_iff.1 there, rfl⟩

theorem ofEndpoint_mem (roster : Roster candidates base) {e : Endpoint} (member : e ∈ candidates) :
    Entry.ofEndpoint e ∈ base := by
  obtain ⟨order, same, rfl⟩ := roster
  exact List.mem_map_of_mem (same.mem_iff.2 member)

/-- The same weights announced again change nothing. -/
theorem reweigh_roster (apart : (candidates.map Endpoint.address).Nodup) (same : order.Perm candidates)
    (roster : Roster candidates base) {entry : Entry} (member : entry ∈ base) (current : Int) :
    reweigh order { entry with current } = { entry with current } := by
  obtain ⟨e, there, rfl⟩ := exists_candidate roster member
  have announced := announcedWeight?_address ((same.map Endpoint.address).nodup_iff.2 apart)
    (same.mem_iff.2 there)
  simp [reweigh, Entry.ofEndpoint, announced]

theorem refresh_turns (apart : (candidates.map Endpoint.address).Nodup) (heavy : 0 < total candidates)
    (roster : Roster candidates base) (same : order.Perm candidates) (generation n : Nat) :
    refresh ⟨generation, addresses candidates, turns n base⟩ order =
      ⟨generation, addresses candidates, turns n base⟩ := by
  have kept : (turns n base).map (reweigh order) = turns n base := by
    rw [turns_eq_map (level_roster apart heavy roster), List.map_map]
    exact List.map_congr_left fun entry member => reweigh_roster apart same roster member _
  rw [refresh, if_pos (addresses_perm same), kept]

theorem refresh_afresh (apart : (candidates.map Endpoint.address).Nodup) {s : Snapshot}
    (fresh : s.StartsAfresh candidates) (same : order.Perm candidates) :
    ∃ base, Roster candidates base ∧
      s.refresh order = ⟨(s.refresh candidates).generation, addresses candidates, base⟩ := by
  rcases fresh with other | ⟨members, roster⟩
  · refine ⟨order.map Entry.ofEndpoint, ⟨order, same, rfl⟩, ?_⟩
    have order_apart := (same.map Endpoint.address).nodup_iff.2 apart
    simp [refresh, addresses_perm same, Ne.symm other,
      firstOfEachAddress_eq_self order_apart (fun _ _ => List.not_mem_nil)]
  · refine ⟨s.entries, roster, ?_⟩
    have kept : s.entries.map (reweigh order) = s.entries := by
      conv_rhs => rw [← List.map_id s.entries]
      exact List.map_congr_left fun entry member => reweigh_roster apart same roster member entry.current
    simp [refresh, addresses_perm same, members, kept]

end Snapshot

namespace RoundRobin

open Snapshot

def after (r : RoundRobin) (calls : List Call) : RoundRobin :=
  calls.foldl (fun r call => (r.select call.service call.candidates).2) r

/-- What the calls for one service are answered. -/
def choices (service : String) : RoundRobin → List Call → List (Option Endpoint)
  | _, [] => []
  | r, call :: calls =>
      let (chosen, next) := r.select call.service call.candidates
      if call.service = service then chosen :: choices service next calls
      else choices service next calls

variable {candidates order : List Endpoint} {base : List Entry} {r : RoundRobin} {service : String}

theorem get?_select_other {other : String} (apart : service ≠ other) (candidates : List Endpoint) :
    (r.select other candidates).2.snapshots.get? service = r.snapshots.get? service := by
  unfold select
  split
  · rfl
  · simp [apart]

/-- A selection on a snapshot that has taken `n` turns takes the next one. -/
theorem select_turns (apart : (candidates.map Endpoint.address).Nodup) (heavy : 0 < total candidates)
    (roster : Roster candidates base) (same : order.Perm candidates) {generation n : Nat}
    (refreshed : (r.snapshot service).refresh order = ⟨generation, addresses candidates, turns n base⟩) :
    ∃ e ∈ candidates, (r.select service order).1 = some e ∧
      winners 1 (turns n base) = [e.address] ∧
      (r.select service order).2.snapshots.get? service =
        some ⟨generation, addresses candidates, turns (n + 1) base⟩ := by
  have level := level_roster apart heavy roster
  obtain ⟨position, winner, won, here, wins, member, after, _⟩ := next_turn (level_turns level n)
  rw [turns_eq_map level] at member
  obtain ⟨entry, there, rfl⟩ := List.mem_map.1 member
  obtain ⟨e, listed, rfl⟩ := exists_candidate roster there
  have filled : order ≠ [] := fun empty => by
    rw [empty] at same
    rw [← same.nil_eq] at listed
    cases listed
  have found : order.find? (·.address = e.address) = some e :=
    find?_of_distinct ((same.map _).nodup_iff.2 apart) (same.mem_iff.2 listed)
  refine ⟨e, listed, ?_, ?_, ?_⟩
  · rw [select, if_neg (by simpa using filled)]
    simp [refreshed, won, after, here, settled, Entry.ofEndpoint, found]
  · simp [winners, wins, Entry.ofEndpoint]
  · rw [select, if_neg (by simpa using filled)]
    have step : turns (n + 1) base = (turn (turns n base)).2 := turns_add n 1 base
    simp [refreshed, step]

/-- The calls on a running snapshot: each takes the next turn, and other services do not disturb. -/
theorem choices_turns (apart : (candidates.map Endpoint.address).Nodup) (heavy : 0 < total candidates)
    (roster : Roster candidates base) {generation n : Nat} {calls : List Call}
    (same : ∀ call ∈ calls, call.service = service → call.candidates.Perm candidates)
    (running : r.snapshots.get? service = some ⟨generation, addresses candidates, turns n base⟩) :
    ∃ picks : List Endpoint, r.choices service calls = picks.map some ∧ (∀ e ∈ picks, e ∈ candidates) ∧
      picks.map Endpoint.address = winners picks.length (turns n base) ∧
      (r.after calls).snapshots.get? service =
        some ⟨generation, addresses candidates, turns (n + picks.length) base⟩ := by
  induction calls generalizing r n with
  | nil => exact ⟨[], rfl, by simp, rfl, running⟩
  | cons call calls ih =>
      have later : ∀ other ∈ calls, other.service = service → other.candidates.Perm candidates :=
        fun other member => same other (List.mem_cons_of_mem _ member)
      by_cases ours : call.service = service
      · subst ours
        have perm := same call (by simp) rfl
        have refreshed : (r.snapshot call.service).refresh call.candidates =
            ⟨generation, addresses candidates, turns n base⟩ := by
          rw [snapshot, running]
          exact refresh_turns apart heavy roster perm generation n
        obtain ⟨e, listed, chosen, wins, next⟩ := select_turns apart heavy roster perm refreshed
        obtain ⟨picks, answers, members, addresses_eq, rest⟩ := ih later next
        refine ⟨e :: picks, ?_, ?_, ?_, ?_⟩
        · simp [choices, chosen, answers]
        · simpa [listed] using members
        · rw [List.map_cons, List.length_cons, Nat.add_comm, winners_add, wins, ← turns_add,
            addresses_eq]
          rfl
        · rw [List.length_cons, Nat.add_comm picks.length, ← Nat.add_assoc]
          exact rest
      · have kept : (r.select call.service call.candidates).2.snapshots.get? service =
            some ⟨generation, addresses candidates, turns n base⟩ := by
          rw [← running, get?_select_other (Ne.symm ours)]
        obtain ⟨picks, answers, rest⟩ := ih later kept
        exact ⟨picks, by simpa [choices, ours] using answers, rest⟩

/-- From a fresh snapshot on, the picks are the winners of turns on one roster. -/
theorem choices_afresh (apart : (candidates.map Endpoint.address).Nodup) (heavy : 0 < total candidates)
    {calls : List Call} (fresh : (r.snapshot service).StartsAfresh candidates)
    (same : ∀ call ∈ calls, call.service = service → call.candidates.Perm candidates) :
    ∃ base, Roster candidates base ∧ ∀ earlier, earlier <+: calls →
      ∃ picks : List Endpoint, r.choices service earlier = picks.map some ∧
        (∀ e ∈ picks, e ∈ candidates) ∧ picks.map Endpoint.address = winners picks.length base ∧
        (picks ≠ [] → (r.after earlier).snapshots.get? service =
          some ⟨((r.snapshot service).refresh candidates).generation, addresses candidates,
            turns picks.length base⟩) := by
  induction calls generalizing r with
  | nil =>
      refine ⟨_, ⟨candidates, .rfl, rfl⟩, fun earlier early => ?_⟩
      rw [List.prefix_nil.1 early]
      exact ⟨[], rfl, by simp, rfl, by simp⟩
  | cons call calls ih =>
      have later : ∀ other ∈ calls, other.service = service → other.candidates.Perm candidates :=
        fun other member => same other (List.mem_cons_of_mem _ member)
      by_cases ours : call.service = service
      · subst ours
        have perm := same call (by simp) rfl
        obtain ⟨base, roster, refreshed⟩ := refresh_afresh apart fresh perm
        refine ⟨base, roster, fun earlier early => ?_⟩
        rcases List.prefix_cons_iff.1 early with rfl | ⟨rest, rfl, shorter⟩
        · exact ⟨[], rfl, by simp, rfl, by simp⟩
        obtain ⟨e, listed, chosen, wins, next⟩ :=
          select_turns (n := 0) apart heavy roster perm refreshed
        obtain ⟨picks, answers, members, addresses_eq, running⟩ := choices_turns apart heavy roster
          (fun other member => later other (shorter.subset member)) next
        refine ⟨e :: picks, ?_, ?_, ?_, fun _ => ?_⟩
        · simp [choices, chosen, answers]
        · simpa [listed] using members
        · rw [List.map_cons, List.length_cons, Nat.add_comm, winners_add, addresses_eq]
          exact congrArg (· ++ _) wins.symm
        · rw [List.length_cons, Nat.add_comm]
          rw [Nat.zero_add] at running
          exact running
      · have kept : (r.select call.service call.candidates).2.snapshot service = r.snapshot service := by
          rw [snapshot, snapshot, get?_select_other (Ne.symm ours)]
        obtain ⟨base, roster, run⟩ := ih (kept.symm ▸ fresh) later
        refine ⟨base, roster, fun earlier early => ?_⟩
        rcases List.prefix_cons_iff.1 early with rfl | ⟨rest, rfl, shorter⟩
        · exact ⟨[], rfl, by simp, rfl, by simp⟩
        obtain ⟨picks, answers, members, addresses_eq, running⟩ := run rest shorter
        rw [kept] at running
        exact ⟨picks, by simpa [choices, ours] using answers, members, addresses_eq, running⟩

theorem count_address (apart : (candidates.map Endpoint.address).Nodup) {picks : List Endpoint}
    (members : ∀ e ∈ picks, e ∈ candidates) {e : Endpoint} (member : e ∈ candidates) :
    (picks.map Endpoint.address).count e.address = picks.count e := by
  rw [List.count_eq_countP, List.count_eq_countP, List.countP_map]
  apply List.countP_congr
  intro other there
  have same : other.address = e.address → other = e :=
    List.inj_on_of_nodup_map apart (members other there) member
  simp only [Function.comp_apply, beq_iff_eq]
  exact ⟨same, congrArg _⟩

/-- The picks made on one roster: each candidate's count in the first picks is at most its share
rounded up, and in a window as long as the total weight it is its weight. -/
theorem shares_of_winners (apart : (candidates.map Endpoint.address).Nodup)
    (heavy : 0 < total candidates) (roster : Roster candidates base) {picks : List Endpoint}
    (members : ∀ e ∈ picks, e ∈ candidates)
    (won : picks.map Endpoint.address = winners picks.length base) {e : Endpoint}
    (member : e ∈ candidates) :
    (∀ k ≤ picks.length, (picks.take k).count e ≤ (k * e.weight.toNat) ⌈/⌉ total candidates) ∧
      ∀ start, start + total candidates ≤ picks.length →
        ((picks.drop start).take (total candidates)).count e = e.weight.toNat := by
  have level := level_roster apart heavy roster
  have whole := totalWeight_roster roster
  have entry := ofEndpoint_mem roster member
  have named : (Entry.ofEndpoint e).key = e.address := rfl
  have weighs : (Entry.ofEndpoint e).weight = (e.weight.toNat : Int) := rfl
  constructor
  · intro k short
    have first : (picks.take k).map Endpoint.address = winners k base := by
      obtain ⟨rest, equal⟩ := Nat.exists_eq_add_of_le short
      rw [List.map_take, won, equal, winners_add, List.take_left' (length_winners level k)]
    have bound := count_winners_lt level (untouched_roster roster) k entry
    have counted : ((picks.take k).map Endpoint.address).count e.address = (picks.take k).count e :=
      count_address apart (fun x there => members x (List.mem_of_mem_take there)) member
    rw [whole, ← first, named, weighs, counted] at bound
    rw [Nat.ceilDiv_eq_add_pred_div, Nat.le_div_iff_mul_le heavy, Nat.mul_comm]
    have bound : total candidates * (picks.take k).count e < k * e.weight.toNat + total candidates := by
      exact_mod_cast bound
    omega
  · intro start inside
    have window : ((picks.drop start).take (total candidates)).map Endpoint.address =
        winners (total candidates) (turns start base) := by
      obtain ⟨rest, equal⟩ := Nat.exists_eq_add_of_le inside
      rw [List.map_take, List.map_drop, won, equal, Nat.add_assoc, winners_add,
        List.drop_left' (length_winners level start), winners_add,
        List.take_left' (length_winners (level_turns level start) _)]
    have exact_count := count_winners_window level (untouched_roster roster) start entry
    have counted : (((picks.drop start).take (total candidates)).map Endpoint.address).count e.address =
        ((picks.drop start).take (total candidates)).count e :=
      count_address apart
        (fun x there => members x (List.mem_of_mem_drop (List.mem_of_mem_take there))) member
    rw [whole, Int.toNat_natCast, ← window, named, weighs, counted] at exact_count
    exact_mod_cast exact_count

/-- Every call on the service is answered, the answers share by weight, and at every moment of the
run the snapshot is the one generation, with nothing gained where the total weight divides the
number of picks. -/
theorem choices_share_by_weight (r : RoundRobin) (service : String) (candidates : List Endpoint)
    (calls : List Call) (apart : (candidates.map Endpoint.address).Nodup)
    (heavy : 0 < total candidates) (fresh : (r.snapshot service).StartsAfresh candidates)
    (same : ∀ call ∈ calls, call.service = service → call.candidates.Perm candidates) :
    (∃ picks : List Endpoint, r.choices service calls = picks.map some ∧
      (∀ e ∈ picks, e ∈ candidates) ∧
      ∀ e ∈ candidates,
        (∀ k ≤ picks.length, (picks.take k).count e ≤ (k * e.weight.toNat) ⌈/⌉ total candidates) ∧
        ∀ start, start + total candidates ≤ picks.length →
          ((picks.drop start).take (total candidates)).count e = e.weight.toNat) ∧
    ∀ earlier, earlier <+: calls → r.choices service earlier ≠ [] →
      (r.after earlier).generation? service =
        some ((r.snapshot service).refresh candidates).generation ∧
      (total candidates ∣ (r.choices service earlier).length →
        ∀ entry ∈ ((r.after earlier).snapshot service).entries, entry.current = 0) := by
  obtain ⟨base, roster, run⟩ := choices_afresh apart heavy fresh same
  constructor
  · obtain ⟨picks, answers, members, won, _⟩ := run calls (List.prefix_refl calls)
    exact ⟨picks, answers, members, fun e member =>
      shares_of_winners apart heavy roster members won member⟩
  · intro earlier early picked
    obtain ⟨picks, answers, _, _, running⟩ := run earlier early
    have running := running fun empty => picked (by rw [answers, empty]; rfl)
    refine ⟨by rw [generation?, running]; rfl, fun divides => ?_⟩
    obtain ⟨m, rounds⟩ : total candidates ∣ picks.length := by simpa [answers] using divides
    have whole : total candidates = (totalWeight base).toNat := by
      rw [totalWeight_roster roster, Int.toNat_natCast]
    have zero := untouched_turns (level_roster apart heavy roster) (untouched_roster roster) m
    rw [← whole, Nat.mul_comm, ← rounds] at zero
    rw [snapshot, running]
    exact zero

/-- Three candidates that weigh five, three and two. -/
def trio : List Endpoint :=
  [("a", "5"), ("b", "3"), ("c", "2")].map fun (host, weight) =>
    { protocol := "tri", host, port := 50051 : Endpoint }.withParam "weight" weight

/-- Twenty calls with the trio in two orders, and calls on another service in between. -/
def trioCalls : List Call :=
  (List.replicate 10 [⟨"greeter", trio⟩, ⟨"other", trio.take 1⟩, ⟨"greeter", trio.reverse⟩]).flatten

theorem trio_shares_by_weight :
    (trio.map Endpoint.address).Nodup ∧ total trio = 10 ∧
      (({} : RoundRobin).snapshot "greeter").StartsAfresh trio ∧
      (⟨"greeter", trio.reverse⟩ : Call) ∈ trioCalls ∧
      ∃ picks : List Endpoint, ({} : RoundRobin).choices "greeter" trioCalls = picks.map some ∧
        ∀ e ∈ trio, ∀ start, start + 10 ≤ picks.length →
          ((picks.drop start).take 10).count e = e.weight.toNat := by
  have apart : (trio.map Endpoint.address).Nodup := by decide +kernel
  have ten : total trio = 10 := by decide +kernel
  have fresh : (({} : RoundRobin).snapshot "greeter").StartsAfresh trio := .inl (by decide +kernel)
  have same : ∀ call ∈ trioCalls, call.service = "greeter" → call.candidates.Perm trio := by
    intro call member ours
    have kinds : call = ⟨"greeter", trio⟩ ∨ call = ⟨"other", trio.take 1⟩ ∨
        call = ⟨"greeter", trio.reverse⟩ := by
      obtain ⟨round, repeated, member⟩ := List.mem_flatten.1 member
      rw [List.eq_of_mem_replicate repeated] at member
      simpa using member
    rcases kinds with rfl | rfl | rfl
    · exact .rfl
    · exact absurd ours (by decide)
    · exact trio.reverse_perm
  obtain ⟨⟨picks, answers, _, shares⟩, _⟩ :=
    choices_share_by_weight {} "greeter" trio trioCalls apart (by omega) fresh same
  refine ⟨apart, ten, fresh, by simp [trioCalls], picks, answers, fun e member start inside => ?_⟩
  have exact_count := (shares e member).2 start
  rw [ten] at exact_count
  exact exact_count inside

end RoundRobin

end ServiceGovernance.Balance
