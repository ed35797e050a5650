import ServiceGovernance.Proofs.Balance.Bounds

/-!
What a refresh makes of a snapshot. Afterwards the entries stand for the addresses of the candidates,
each address once, and a new generation has begun exactly if the addresses are others than before. Of
several candidates with one address the first is handed out. Entries that are built anew take its weight;
entries that are kept take the weight of the last one.
-/

namespace ServiceGovernance.Balance

variable {candidates : List Endpoint} {entry : Entry}

namespace Snapshot

variable {s : Snapshot}

/-- The entries stand for the addresses of the candidates. -/
def Covers (s : Snapshot) (candidates : List Endpoint) : Prop :=
  ∀ key, key ∈ keys s.entries ↔ ∃ e ∈ candidates, e.address = key

/-- The candidate that is handed out for an entry. -/
def firstAt? (candidates : List Endpoint) (key : String) : Option Endpoint :=
  candidates.find? (·.address = key)

def lastAt? (candidates : List Endpoint) (key : String) : Option Endpoint :=
  candidates.reverse.find? (·.address = key)

theorem exists_firstAt {key : String} (listed : ∃ e ∈ candidates, e.address = key) :
    ∃ first, firstAt? candidates key = some first := by
  obtain ⟨e, member, same⟩ := listed
  exact Option.isSome_iff_exists.1 (List.find?_isSome.2 ⟨e, member, decide_eq_true same⟩)

theorem exists_lastAt {key : String} (listed : ∃ e ∈ candidates, e.address = key) :
    ∃ last, lastAt? candidates key = some last := by
  obtain ⟨e, member, same⟩ := listed
  exact Option.isSome_iff_exists.1
    (List.find?_isSome.2 ⟨e, List.mem_reverse.2 member, decide_eq_true same⟩)

theorem Keyed.covers_iff (keyed : s.Keyed) : s.Covers candidates ↔ addresses candidates = s.members := by
  constructor
  · intro covers
    apply SortedSet.ext_toList
    intro key
    rw [mem_addresses_iff, ← keyed key, covers key]
  · intro same key
    rw [keyed key, ← same, mem_addresses_iff]

theorem Keyed.refresh_covers (keyed : s.Keyed) (candidates : List Endpoint) :
    (s.refresh candidates).Covers candidates :=
  (keyed.refresh candidates).covers_iff.2 (members_refresh s candidates).symm

theorem Keyed.generation_refresh (keyed : s.Keyed) :
    (s.Covers candidates → (s.refresh candidates).generation = s.generation) ∧
      (¬ s.Covers candidates → (s.refresh candidates).generation = s.generation + 1) := by
  rw [keyed.covers_iff]
  constructor
  · intro same
    rw [Snapshot.refresh, if_pos same]
  · intro other
    rw [Snapshot.refresh, if_neg other]

/-- Of the candidates whose address did not come before, the first with its address is taken. -/
theorem firstAt_of_mem_firstOfEachAddress {seen : List String} {e : Endpoint}
    (member : e ∈ firstOfEachAddress seen candidates) : firstAt? candidates e.address = some e := by
  induction candidates generalizing seen with
  | nil => cases member
  | cons head rest ih =>
      unfold firstOfEachAddress at member
      have unseen : e.address ∉ seen := by
        have listed := List.mem_map_of_mem (f := Endpoint.address) member
        split at listed
        · exact (mem_firstOfEachAddress_iff.1 listed).1
        · next new =>
            rcases List.mem_cons.1 listed with same | listed
            · exact same ▸ new
            · exact fun known => (mem_firstOfEachAddress_iff.1 listed).1 (List.mem_cons_of_mem _ known)
      split at member
      · next known =>
          have apart : head.address ≠ e.address := fun same => unseen (same ▸ known)
          rw [firstAt?, List.find?_cons_of_neg (by simpa using apart)]
          exact ih member
      · rcases List.mem_cons.1 member with rfl | member
        · simp [firstAt?]
        · have later := (mem_firstOfEachAddress_iff.1 (List.mem_map_of_mem (f := Endpoint.address) member)).1
          have apart : head.address ≠ e.address := fun same => later (same ▸ List.mem_cons_self)
          rw [firstAt?, List.find?_cons_of_neg (by simpa using apart)]
          exact ih member

theorem weight_afresh (member : entry ∈ (firstOfEachAddress [] candidates).map Entry.ofEndpoint)
    {first : Endpoint} (found : firstAt? candidates entry.key = some first) :
    entry.weight = first.weight.toNat := by
  obtain ⟨e, there, rfl⟩ := List.mem_map.1 member
  have same := (firstAt_of_mem_firstOfEachAddress there).symm.trans found
  cases same
  rfl

theorem weight_reweigh {old : Entry} {last : Endpoint}
    (found : lastAt? candidates (reweigh candidates old).key = some last) :
    (reweigh candidates old).weight = last.weight.toNat := by
  have announced : candidates.reverse.find? (·.address = old.key) = some last := found
  simp [reweigh, announcedWeight?, announced]

theorem Keyed.weight_eq_iff (keyed : s.Keyed) (member : entry ∈ (s.refresh candidates).entries)
    {first last : Endpoint} (front : firstAt? candidates entry.key = some first)
    (back : lastAt? candidates entry.key = some last) :
    entry.weight = first.weight.toNat ↔ ¬ s.Covers candidates ∨ last.weight = first.weight := by
  rw [keyed.covers_iff]
  unfold Snapshot.refresh at member
  split at member
  · next same =>
      obtain ⟨old, _, rfl⟩ := List.mem_map.1 member
      rw [weight_reweigh back]
      simp [same, UInt32.toNat_inj]
  · next other =>
      exact iff_of_true (weight_afresh member front) (.inl other)

end Snapshot

namespace RoundRobin

variable {r : RoundRobin} {heaviest : String → Int}

theorem Reached.keyed (reached : Reached r heaviest) : r.Keyed := by
  induction reached with
  | start =>
      intro service s found
      cases found
  | select before service filled ih => exact ih.select service _

theorem Reached.select_any (reached : Reached r heaviest) (service : String) (candidates : List Endpoint) :
    ∃ heaviest, Reached (r.select service candidates).2 heaviest := by
  by_cases empty : candidates = []
  · exact ⟨heaviest, by simpa [empty, RoundRobin.select] using reached⟩
  · exact ⟨_, reached.select service empty⟩

/-- The winner of the turn is answered by the first candidate with its address. -/
theorem select_of_winner (filled : candidates ≠ []) {service : String} {position : Nat}
    (won : (turn ((r.snapshot service).refresh candidates).entries).1 = some position)
    (here : ((r.snapshot service).refresh candidates).entries[position]? = some entry) :
    (r.select service candidates).1 = Snapshot.firstAt? candidates entry.key := by
  have kept : ((turn ((r.snapshot service).refresh candidates).entries).2[position]?).map (·.key) =
      some entry.key := by
    have same := congrArg (·[position]?) (keys_turn ((r.snapshot service).refresh candidates).entries)
    simpa [keys, here] using same
  obtain ⟨winner, there, same⟩ := Option.map_eq_some_iff.1 kept
  rw [select, if_neg (by simpa using filled)]
  simp [won, there, same, Snapshot.firstAt?]

/-- After a refresh with candidates there is one entry for each of their addresses and no other one, and
the generation is the next one exactly if the addresses have changed. The candidate that is handed out
for an entry is the first one with its address, and the entry weighs as much as that one exactly if it has
been built anew or the last candidate with the address has the same weight. -/
theorem Reached.refresh_agrees_iff (reached : Reached r heaviest) (service : String)
    (filled : candidates ≠ []) :
    (keys ((r.snapshot service).refresh candidates).entries).Nodup ∧
    ((r.snapshot service).refresh candidates).Covers candidates ∧
    ((r.snapshot service).Covers candidates →
      ((r.snapshot service).refresh candidates).generation = (r.snapshot service).generation) ∧
    (¬ (r.snapshot service).Covers candidates →
      ((r.snapshot service).refresh candidates).generation = (r.snapshot service).generation + 1) ∧
    ∀ entry ∈ ((r.snapshot service).refresh candidates).entries, ∃ first last,
      Snapshot.firstAt? candidates entry.key = some first ∧
      Snapshot.lastAt? candidates entry.key = some last ∧
      (∀ position, (turn ((r.snapshot service).refresh candidates).entries).1 = some position →
        ((r.snapshot service).refresh candidates).entries[position]? = some entry →
        (r.select service candidates).1 = some first) ∧
      (entry.weight = first.weight.toNat ↔
        ¬ (r.snapshot service).Covers candidates ∨ last.weight = first.weight) := by
  have keyed := reached.keyed.snapshot service
  have covers := keyed.refresh_covers candidates
  refine ⟨(Snapshot.bounded_refresh (reached.bounded service) candidates).distinct, covers,
    keyed.generation_refresh.1, keyed.generation_refresh.2, fun entry member => ?_⟩
  have listed := (covers entry.key).1 (List.mem_map_of_mem member)
  obtain ⟨first, front⟩ := Snapshot.exists_firstAt listed
  obtain ⟨last, back⟩ := Snapshot.exists_lastAt listed
  exact ⟨first, last, front, back, fun position won here => (select_of_winner filled won here).trans front,
    keyed.weight_eq_iff member front back⟩

def weighing (host weight : String) : Endpoint :=
  { protocol := "tri", host, port := 50051 : Endpoint }.withParam "weight" weight

/-- Two candidates behind one address, of which the second weighs more, and a third one. -/
def twins : List Endpoint := [weighing "a" "1", weighing "a" "5", weighing "b" "2"]

/-- Two turns on them: the first on entries that are built for it, the second on the same ones. -/
def twinned : RoundRobin :=
  ((({} : RoundRobin).select "greeter" twins).2.select "greeter" twins).2

theorem reached_twinned : ∃ heaviest, Reached twinned heaviest := by
  have filled : twins ≠ [] := by decide
  exact ⟨_, (Reached.start.select "greeter" filled).select "greeter" filled⟩

/-- The third turn counts the weight of the second twin and hands out the first one. -/
theorem twins_disagree : (∃ heaviest, Reached twinned heaviest) ∧
    (((twinned.snapshot "greeter").refresh twins).entries.map fun e => (e.key, e.weight)) =
      [("a:50051", 5), ("b:50051", 2)] ∧
    (turn ((twinned.snapshot "greeter").refresh twins).entries).1 = some 0 ∧
    (twinned.select "greeter" twins).1 = some (weighing "a" "1") ∧ (weighing "a" "1").weight = 1 := by
  refine ⟨reached_twinned, ?_, ?_, ?_, ?_⟩ <;> decide +kernel

theorem twins_refreshed : ∃ heaviest, Reached twinned heaviest ∧ twins ≠ [] ∧
    ((twinned.snapshot "greeter").refresh twins).Covers twins ∧
    ((twinned.snapshot "greeter").refresh twins).generation = 1 ∧
    ∀ entry ∈ ((twinned.snapshot "greeter").refresh twins).entries, ∃ first,
      Snapshot.firstAt? twins entry.key = some first ∧
        (entry.weight = first.weight.toNat ↔ entry.key = "b:50051") := by
  obtain ⟨heaviest, reached⟩ := reached_twinned
  have filled : twins ≠ [] := by decide
  have covers : (twinned.snapshot "greeter").Covers twins := by
    rw [(reached.keyed.snapshot "greeter").covers_iff]
    decide +kernel
  obtain ⟨_, covered, same, _, weights⟩ := reached.refresh_agrees_iff "greeter" filled
  refine ⟨heaviest, reached, filled, covered, (same covers).trans (by decide +kernel), fun entry member => ?_⟩
  obtain ⟨first, last, front, back, _, agrees⟩ := weights entry member
  refine ⟨first, front, agrees.trans ?_⟩
  have either : entry.key ∈ ["a:50051", "b:50051"] := by
    have names : keys ((twinned.snapshot "greeter").refresh twins).entries = ["a:50051", "b:50051"] := by
      decide +kernel
    exact names ▸ List.mem_map_of_mem member
  rcases List.mem_pair.1 either with here | here
  · rw [here] at front back ⊢
    obtain rfl : first = weighing "a" "1" := Option.some.inj (front.symm.trans (by decide +kernel))
    obtain rfl : last = weighing "a" "5" := Option.some.inj (back.symm.trans (by decide +kernel))
    have apart : (weighing "a" "5").weight ≠ (weighing "a" "1").weight := by decide +kernel
    simp [covers, apart]
  · rw [here] at front back ⊢
    obtain rfl : first = weighing "b" "2" := Option.some.inj (front.symm.trans (by decide +kernel))
    obtain rfl : last = weighing "b" "2" := Option.some.inj (back.symm.trans (by decide +kernel))
    simp

end RoundRobin

end ServiceGovernance.Balance
