import ServiceGovernance.Balance.Balancer
import ServiceGovernance.Proofs.Balance.Turns
import ServiceGovernance.Proofs.SortedSets

/-!
A balancer that is asked with candidates answers with one of them. Whatever lists a snapshot has seen,
its entries stand for exactly the addresses of its members, and a refresh makes the members the
addresses of the candidates at hand, so the winner of a turn is always an address that one of them has.
-/

namespace ServiceGovernance.Balance

variable {entries : List Entry} {candidates : List Endpoint} {service : String}

section Turn

theorem keys_modify {f : Entry → Entry} (kept : ∀ e, (f e).key = e.key) (position : Nat)
    (entries : List Entry) : keys (entries.modify position f) = keys entries := by
  apply List.ext_getElem?
  intro place
  simp only [keys, List.getElem?_map, List.getElem?_modify]
  cases entries[place]? with
  | none => rfl
  | some e => by_cases here : position = place <;> simp [here, kept]

theorem keys_turn (entries : List Entry) : keys (turn entries).2 = keys entries := by
  have raised : keys (entries.map Entry.raise) = keys entries := by
    simp [keys, Entry.raise]
  simp only [turn]
  split
  · exact raised
  · next position _ _ =>
      exact (keys_modify (f := Entry.charge (totalWeight entries)) (fun _ => rfl) position _).trans raised

/-- Whatever the weights are, somebody wins. -/
theorem exists_winner (filled : entries ≠ []) :
    ∃ position winner, (turn entries).1 = some position ∧ (turn entries).2[position]? = some winner := by
  simp only [turn]
  cases leading : leader? (entries.map Entry.raise) with
  | none => exact absurd (by simpa using leader?_eq_none_iff.1 leading) filled
  | some found =>
      obtain ⟨position, top⟩ := found
      obtain ⟨raised, here, _⟩ := leader?_spec leading
      refine ⟨position, raised.charge (totalWeight entries), rfl, ?_⟩
      rw [List.getElem?_modify, here]
      simp

end Turn

namespace Snapshot

variable {s : Snapshot} {key : String}

/-- The entries stand for the members, each of them and nobody else. -/
def Keyed (s : Snapshot) : Prop := ∀ key, key ∈ keys s.entries ↔ key ∈ s.members.toList

theorem mem_addresses_iff : key ∈ (addresses candidates).toList ↔ ∃ e ∈ candidates, e.address = key := by
  rw [addresses, SortedSet.mem_toList_ofList, List.mem_map]

theorem mem_firstOfEachAddress_iff {seen : List String} :
    key ∈ (firstOfEachAddress seen candidates).map Endpoint.address ↔
      key ∉ seen ∧ ∃ e ∈ candidates, e.address = key := by
  induction candidates generalizing seen with
  | nil => simp [firstOfEachAddress]
  | cons e rest ih =>
      unfold firstOfEachAddress
      split
      · next known =>
          rw [ih]
          apply and_congr_right
          intro unseen
          have apart : e.address ≠ key := fun same => unseen (same ▸ known)
          simp [apart]
      · next new =>
          rw [List.map_cons, List.mem_cons, ih, List.mem_cons]
          by_cases same : e.address = key
          · subst same
            simp [new]
          · simp [same, eq_comm (a := key)]

theorem keyed_empty : Keyed {} := by
  intro key
  simp [keys]

theorem members_refresh (s : Snapshot) (candidates : List Endpoint) :
    (s.refresh candidates).members = addresses candidates := by
  unfold refresh
  split
  · next same => exact same.symm
  · rfl

theorem Keyed.refresh (keyed : s.Keyed) (candidates : List Endpoint) : (s.refresh candidates).Keyed := by
  intro key
  rw [members_refresh]
  unfold Snapshot.refresh
  split
  · next same =>
      have kept : keys (s.entries.map (reweigh candidates)) = keys s.entries := by
        simp [keys, reweigh]
      rw [kept, keyed key, same]
  · have fresh : keys ((firstOfEachAddress [] candidates).map Entry.ofEndpoint) =
        (firstOfEachAddress [] candidates).map Endpoint.address := by
      simp [keys, Entry.ofEndpoint]
    rw [fresh, mem_firstOfEachAddress_iff, mem_addresses_iff]
    simp

theorem Keyed.turn (keyed : s.Keyed) : Keyed { s with entries := (turn s.entries).2 } := by
  intro key
  rw [keys_turn]
  exact keyed key

/-- After a refresh every turn is won by the address of a candidate. -/
theorem Keyed.winner_listed (keyed : s.Keyed) (filled : candidates ≠ []) :
    ∃ position winner, (Balance.turn (s.refresh candidates).entries).1 = some position ∧
      (Balance.turn (s.refresh candidates).entries).2[position]? = some winner ∧
      ∃ e ∈ candidates, e.address = winner.key := by
  have refreshed := keyed.refresh candidates
  have listed : ∀ key ∈ keys (s.refresh candidates).entries, ∃ e ∈ candidates, e.address = key := by
    intro key member
    rwa [refreshed key, members_refresh, mem_addresses_iff] at member
  have some_entry : (s.refresh candidates).entries ≠ [] := by
    obtain ⟨first, rest, rfl⟩ := List.exists_cons_of_ne_nil filled
    have member : first.address ∈ keys (s.refresh (first :: rest)).entries := by
      rw [refreshed, members_refresh, mem_addresses_iff]
      exact ⟨first, List.mem_cons_self, rfl⟩
    intro empty
    rw [empty] at member
    cases member
  obtain ⟨position, winner, won, here⟩ := exists_winner some_entry
  refine ⟨position, winner, won, here, listed winner.key ?_⟩
  rw [← keys_turn]
  exact List.mem_map_of_mem (List.mem_of_getElem? here)

end Snapshot

namespace RoundRobin

variable {r : RoundRobin}

def Keyed (r : RoundRobin) : Prop := ∀ service s, r.snapshots.get? service = some s → s.Keyed

theorem Keyed.snapshot (keyed : r.Keyed) (service : String) : (r.snapshot service).Keyed := by
  unfold RoundRobin.snapshot
  cases found : r.snapshots.get? service with
  | none => exact Snapshot.keyed_empty
  | some s => exact keyed service s found

theorem Keyed.select (keyed : r.Keyed) (service : String) (candidates : List Endpoint) :
    (r.select service candidates).2.Keyed := by
  unfold RoundRobin.select
  split
  · exact keyed
  · intro other s found
    rw [SortedMap.get?_insert] at found
    split at found
    · cases found
      exact ((keyed.snapshot service).refresh candidates).turn
    · exact keyed other s found

theorem Keyed.answers (keyed : r.Keyed) (service : String) (filled : candidates ≠ []) :
    ∃ e ∈ candidates, (r.select service candidates).1 = some e := by
  obtain ⟨position, winner, won, here, e, listed, same⟩ := (keyed.snapshot service).winner_listed filled
  obtain ⟨chosen, found⟩ : ∃ chosen, candidates.find? (·.address = winner.key) = some chosen :=
    Option.isSome_iff_exists.1 (List.find?_isSome.2 ⟨e, listed, decide_eq_true same⟩)
  refine ⟨chosen, List.mem_of_find?_eq_some found, ?_⟩
  rw [RoundRobin.select, if_neg (by simpa using filled)]
  simp [won, here, found]

end RoundRobin

theorem pickFirst?_answers (filled : candidates ≠ []) : ∃ e ∈ candidates, pickFirst? candidates = some e := by
  induction candidates with
  | nil => exact absurd rfl filled
  | cons e rest ih =>
      unfold pickFirst?
      split
      · exact ⟨e, List.mem_cons_self, rfl⟩
      · next best found =>
          have nonempty : rest ≠ [] := by
            rintro rfl
            cases found
          obtain ⟨other, member, same⟩ := ih nonempty
          cases found.symm.trans same
          split
          · exact ⟨best, List.mem_cons_of_mem _ member, rfl⟩
          · exact ⟨e, List.mem_cons_self, rfl⟩

namespace Balancer

variable {b : Balancer}

/-- The balancers that there can be: settings may change at any time, and candidates of all kinds may
have been picked from, with a consumer or by weight alone. -/
inductive Reached : Balancer → Prop where
  | start (settings : Settings) : Reached { settings }
  | configure {b : Balancer} (before : Reached b) (settings : Settings) : Reached { b with settings }
  | select {b : Balancer} (before : Reached b) (consumer : Endpoint) (method : String)
      (candidates : List Endpoint) (scope : Scope) :
      Reached (b.select consumer method candidates scope).2
  | rotate {b : Balancer} (before : Reached b) (service : String) (candidates : List Endpoint) :
      Reached { b with roundRobin := (b.roundRobin.select service candidates).2 }

theorem select_nil (b : Balancer) (consumer : Endpoint) (method : String) (scope : Scope) :
    b.select consumer method [] scope = (none, b) := rfl

/-- Whatever is asked, the turns are left alone or one is taken. -/
theorem roundRobin_select_cases (b : Balancer) (consumer : Endpoint) (method : String)
    (candidates : List Endpoint) (scope : Scope) :
    (b.select consumer method candidates scope).2.roundRobin = b.roundRobin ∨
      (b.select consumer method candidates scope).2.roundRobin =
        (b.roundRobin.select consumer.serviceKey candidates).2 := by
  have chosen : (b.choose consumer method candidates).2.roundRobin = b.roundRobin ∨
      (b.choose consumer method candidates).2.roundRobin =
        (b.roundRobin.select consumer.serviceKey candidates).2 := by
    unfold choose pick
    split
    · exact .inl rfl
    · exact .inr rfl
  unfold select
  split
  · exact .inl rfl
  cases scope with
  | request => exact chosen
  | connection =>
      cases b.remembered? consumer.serviceKey candidates with
      | some e => exact .inl rfl
      | none =>
          cases found : b.choose consumer method candidates with
          | mk answer next =>
              rw [found] at chosen
              cases answer <;> exact chosen

theorem Reached.keyed (reached : b.Reached) : b.roundRobin.Keyed := by
  induction reached with
  | start settings =>
      intro service s found
      cases found
  | configure before settings ih => exact ih
  | @select b before consumer method candidates scope ih =>
      rcases b.roundRobin_select_cases consumer method candidates scope with same | turned
      · rw [same]
        exact ih
      · rw [turned]
        exact ih.select consumer.serviceKey candidates
  | rotate before service candidates ih => exact ih.select service candidates

theorem choose_answers (keyed : b.roundRobin.Keyed) (consumer : Endpoint) (method : String)
    (filled : candidates ≠ []) : ∃ e ∈ candidates, (b.choose consumer method candidates).1 = some e := by
  unfold choose pick
  split
  · exact pickFirst?_answers filled
  · exact keyed.answers consumer.serviceKey filled

theorem Reached.answers (reached : b.Reached) (consumer : Endpoint) (method : String)
    (filled : candidates ≠ []) (scope : Scope) :
    ∃ e ∈ candidates, (b.select consumer method candidates scope).1 = some e := by
  obtain ⟨picked, member, chosen⟩ := choose_answers reached.keyed consumer method filled
  unfold Balancer.select
  rw [if_neg (by simpa using filled)]
  cases scope with
  | request => exact ⟨picked, member, chosen⟩
  | connection =>
      cases kept : b.remembered? consumer.serviceKey candidates with
      | some e =>
          obtain ⟨address, _, found⟩ := Option.bind_eq_some_iff.1 kept
          exact ⟨e, List.mem_of_find?_eq_some found, rfl⟩
      | none =>
          refine ⟨picked, member, ?_⟩
          cases found : b.choose consumer method candidates with
          | mk answer next =>
              rw [found] at chosen
              cases chosen
              rfl

end Balancer

end ServiceGovernance.Balance
