import ServiceGovernance.Proofs.Balance.Refreshing

/-!
Selections after which a balancer is the one it was before. A turn on a snapshot is such a one if the
snapshot has the addresses and weights of the candidates already and nobody but the winner has a weight,
for then the winner is paid what it pays. A call in connection scope leaves the balancer alone exactly if
it finds the address that it got before.
-/

namespace ServiceGovernance.Balance

variable {entries : List Entry} {candidates : List Endpoint}

/-- All weight is the winner's. -/
def OneSided (entries : List Entry) : Prop :=
  ∀ e ∈ entries, winner? entries ≠ some e.key → e.weight = 0

theorem totalWeight_of_alone (distinct : (keys entries).Nodup) {winner : Entry} (member : winner ∈ entries)
    (alone : ∀ e ∈ entries, e.key ≠ winner.key → e.weight = 0) : totalWeight entries = winner.weight := by
  have others : ∀ e, e ≠ winner → e ∈ entries → e.weight = 0 := fun e apart there =>
    alone e there fun same => apart (List.inj_on_of_nodup_map distinct there member same)
  rw [totalWeight_eq_sum, List.sum_map_eq_nsmul_single winner _ others,
    List.count_eq_one_of_mem (List.Nodup.of_map _ distinct) member, one_nsmul]

theorem turn_eq_self_iff (distinct : (keys entries).Nodup) (filled : entries ≠ []) :
    (turn entries).2 = entries ↔ OneSided entries := by
  obtain ⟨position, winner, won, here, _, after⟩ := turn_spec distinct filled
  have wins : winner? entries = some winner.key := by simp [winner?, won, here]
  have still : (turn entries).2 = entries ↔
      ∀ e ∈ entries, settled (totalWeight entries) winner.key e = e := by
    rw [after]
    conv_lhs => rhs; rw [← List.map_id entries]
    exact List.map_inj_left
  rw [still]
  constructor
  · intro fixed e member loses
    have other : e.key ≠ winner.key := fun same => loses (by rw [wins, same])
    have kept := congrArg Entry.current (fixed e member)
    simp only [settled, if_neg other] at kept
    omega
  · intro alone e member
    have whole : totalWeight entries = winner.weight :=
      totalWeight_of_alone distinct (List.mem_of_getElem? here) fun e there other =>
        alone e there (by simpa [wins] using Ne.symm other)
    by_cases same : e.key = winner.key
    · have : e = winner :=
        List.inj_on_of_nodup_map distinct member (List.mem_of_getElem? here) same
      subst this
      simp [settled, whole]
    · have light := alone e member (by simpa [wins] using Ne.symm same)
      have kept : e.current + e.weight - 0 = e.current := by omega
      rw [settled, if_neg same, kept]

namespace Snapshot

variable {s : Snapshot}

theorem Keyed.refresh_filled (keyed : s.Keyed) (filled : candidates ≠ []) :
    (s.refresh candidates).entries ≠ [] := by
  obtain ⟨first, rest, rfl⟩ := List.exists_cons_of_ne_nil filled
  intro empty
  have member := (keyed.refresh_covers (first :: rest) first.address).2 ⟨first, List.mem_cons_self, rfl⟩
  rw [empty] at member
  cases member

/-- A turn that leads back to the snapshot before has found the weights of the candidates there. -/
theorem refresh_eq_self (distinct : (keys (s.refresh candidates).entries).Nodup)
    (filled : (s.refresh candidates).entries ≠ [])
    (back : { s.refresh candidates with entries := (turn (s.refresh candidates).entries).2 } = s) :
    s.refresh candidates = s := by
  obtain ⟨_, winner, _, _, _, after⟩ := turn_spec distinct filled
  have generation := congrArg Snapshot.generation back
  have entries := (congrArg Snapshot.entries back).symm
  rw [after] at entries
  unfold Snapshot.refresh at generation entries ⊢
  split at generation
  · next same =>
      simp only [if_pos same] at entries ⊢
      generalize totalWeight _ = total at entries
      rw [List.map_map] at entries
      conv_lhs at entries => rw [← List.map_id s.entries]
      have kept : s.entries.map (reweigh candidates) = s.entries.map id := by
        apply List.map_congr_left
        intro e member
        have weight := congrArg Entry.weight (List.map_inj_left.1 entries e member)
        have same_weight : (reweigh candidates e).weight = e.weight := weight.symm
        rw [reweigh] at same_weight ⊢
        simp only at same_weight
        rw [same_weight]
        rfl
      rw [kept, List.map_id]
  · exact absurd generation (Nat.succ_ne_self _)

end Snapshot

namespace RoundRobin

open Snapshot

variable {r : RoundRobin} {heaviest : String → Int}

/-- The service's snapshot has the addresses and weights of the candidates, and all weight is on the one
that wins. -/
def Idle (r : RoundRobin) (service : String) (candidates : List Endpoint) : Prop :=
  (r.snapshot service).refresh candidates = r.snapshot service ∧ OneSided (r.snapshot service).entries

theorem Reached.select_eq_self_iff (reached : Reached r heaviest) (service : String)
    (filled : candidates ≠ []) :
    (r.select service candidates).2 = r ↔ r.Idle service candidates := by
  have keyed := reached.keyed.snapshot service
  have distinct := (bounded_refresh (reached.bounded service) candidates).distinct
  have entries_filled := keyed.refresh_filled filled
  constructor
  · intro same
    have back := snapshot_after (r := r) filled service service
    rw [same, if_pos rfl] at back
    have kept := refresh_eq_self distinct entries_filled back.symm
    refine ⟨kept, (turn_eq_self_iff (reached.bounded service).distinct ?_).1 ?_⟩
    · exact kept ▸ entries_filled
    · have turned := congrArg Snapshot.entries back
      rw [kept] at turned
      exact turned.symm
  · rintro ⟨kept, one_sided⟩
    have still := (turn_eq_self_iff (reached.bounded service).distinct (kept ▸ entries_filled)).2 one_sided
    have found : r.snapshots.get? service = some (r.snapshot service) := by
      cases known : r.snapshots.get? service with
      | some s => simp [snapshot, known]
      | none =>
          have unknown : r.snapshot service = {} := by simp [snapshot, known]
          rw [kept, unknown] at entries_filled
          exact absurd rfl entries_filled
    rw [RoundRobin.select, if_neg (by simpa using filled)]
    simp only [kept, still]
    rw [SortedMap.insert_eq_self found]

end RoundRobin

namespace Balancer

variable {b : Balancer}

theorem Reached.roundRobin (reached : b.Reached) : ∃ heaviest, RoundRobin.Reached b.roundRobin heaviest := by
  induction reached with
  | start settings => exact ⟨_, .start⟩
  | configure before settings ih => exact ih
  | @select b before consumer method candidates scope ih =>
      obtain ⟨_, turns⟩ := ih
      rcases b.roundRobin_select_cases consumer method candidates scope with same | turned
      · exact ⟨_, same ▸ turns⟩
      · rw [turned]
        exact turns.select_any consumer.serviceKey candidates
  | rotate before service candidates ih =>
      obtain ⟨_, turns⟩ := ih
      exact turns.select_any service candidates

/-- A call that leaves the balancer as it is: in connection scope it finds the address that the service
got before; in request scope it takes no turn, or one that changes nothing. -/
def Idle (b : Balancer) (consumer : Endpoint) (method : String) (candidates : List Endpoint) : Scope → Prop
  | .connection => (b.remembered? consumer.serviceKey candidates).isSome = true
  | .request =>
      b.settings.resolve consumer.interface method candidates = .pickFirst ∨
        b.roundRobin.Idle consumer.serviceKey candidates

/-- What is remembered is the address of a candidate, and it was not before. -/
theorem remember_ne (b next : Balancer) {service : String} {e : Endpoint} (listed : e ∈ candidates)
    (forgotten : b.remembered? service candidates = none) : next.remember service e ≠ b := by
  intro same
  have found : b.sticky.get? service = some e.address := by
    rw [← same, remember, SortedMap.get?_insert, if_pos rfl]
  rw [remembered?, found, Option.bind_some, List.find?_eq_none] at forgotten
  exact forgotten e listed (decide_eq_true rfl)

theorem Reached.select_eq_self_iff (reached : b.Reached) (consumer : Endpoint) (method : String)
    (filled : candidates ≠ []) (scope : Scope) :
    (b.select consumer method candidates scope).2 = b ↔ b.Idle consumer method candidates scope := by
  unfold Balancer.select
  rw [if_neg (by simpa using filled)]
  cases scope with
  | request =>
      obtain ⟨_, turns⟩ := reached.roundRobin
      rw [Idle, ← turns.select_eq_self_iff consumer.serviceKey filled]
      unfold choose pick
      cases b.settings.resolve consumer.interface method candidates with
      | pickFirst => simp
      | roundRobin =>
          simp only [reduceCtorEq, false_or]
          constructor
          · exact fun same => congrArg Balancer.roundRobin same
          · intro same
            rw [same]
  | connection =>
      cases kept : b.remembered? consumer.serviceKey candidates with
      | some e => simp [Idle, kept]
      | none =>
          obtain ⟨e, listed, chosen⟩ := choose_answers reached.keyed consumer method filled
          have changed := remember_ne b (b.choose consumer method candidates).2 listed kept
          have picked : b.choose consumer method candidates = (some e, (b.choose consumer method candidates).2) :=
            Prod.ext chosen rfl
          rw [picked]
          simp [Idle, kept, changed]

end Balancer

end ServiceGovernance.Balance
