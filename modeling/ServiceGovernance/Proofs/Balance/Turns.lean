import Mathlib.Algebra.BigOperators.Group.List.Lemmas
import Mathlib.Algebra.Order.BigOperators.Group.List
import Mathlib.Tactic.Linarith
import Mathlib.Tactic.Ring
import ServiceGovernance.Balance.RoundRobin

/-!
Turns taken one after another on the same entries. A turn raises every current weight and the winner
pays, so the current weights keep their sum and none falls to minus the total weight. From level
entries this makes the schedule exact: after as many turns as the total weight it starts anew, with
each entry having won as often as it weighs.
-/

namespace ServiceGovernance.Balance

variable {entries : List Entry}

def keys (entries : List Entry) : List String := entries.map (·.key)

/-- Where the items have different images, an item is found by its image. -/
theorem find?_of_distinct {α β : Type} [DecidableEq β] {items : List α} {f : α → β}
    (distinct : (items.map f).Nodup) {item : α} (member : item ∈ items) :
    items.find? (f · = f item) = some item := by
  obtain ⟨found, searched⟩ : ∃ found, items.find? (f · = f item) = some found :=
    Option.isSome_iff_exists.1 (List.find?_isSome.2 ⟨item, member, by simp⟩)
  have same : f found = f item := by simpa using List.find?_some searched
  rw [searched, List.inj_on_of_nodup_map distinct (List.mem_of_find?_eq_some searched) member same]

/-- What a turn does to an entry, given the winner's key. -/
def settled (total : Int) (winner : String) (e : Entry) : Entry :=
  { e with current := e.current + e.weight - if e.key = winner then total else 0 }

theorem leader?_eq_none_iff : leader? entries = none ↔ entries = [] := by
  cases entries with
  | nil => simp [leader?]
  | cons e rest =>
      unfold leader?
      split
      · simp
      · split <;> simp

theorem leader?_spec {position : Nat} {top : Int} (found : leader? entries = some (position, top)) :
    ∃ e, entries[position]? = some e ∧ e.current = top ∧ ∀ other ∈ entries, other.current ≤ top := by
  induction entries generalizing position top with
  | nil => cases found
  | cons e rest ih =>
      unfold leader? at found
      split at found
      · next empty =>
          cases found
          rw [leader?_eq_none_iff] at empty
          exact ⟨e, rfl, rfl, by simp [empty]⟩
      · next place best later =>
          obtain ⟨winner, at_place, is_best, greatest⟩ := ih later
          split at found
          · next first =>
              cases found
              refine ⟨e, rfl, rfl, fun other member => ?_⟩
              rcases List.mem_cons.1 member with rfl | member
              · exact le_rfl
              · exact (greatest other member).trans first
          · next behind =>
              cases found
              refine ⟨winner, by simpa using at_place, is_best, fun other member => ?_⟩
              rcases List.mem_cons.1 member with rfl | member
              · omega
              · exact greatest other member

/-- Where keys are distinct, changing the entry at a position changes the entry with its key. -/
theorem modify_eq_map {position : Nat} {e : Entry} (distinct : (keys entries).Nodup)
    (here : entries[position]? = some e) (f : Entry → Entry) :
    entries.modify position f = entries.map fun other => if other.key = e.key then f other else other := by
  induction entries generalizing position with
  | nil => simp at here
  | cons head rest ih =>
      obtain ⟨absent, rest_distinct⟩ := List.nodup_cons.1 distinct
      have apart : ∀ other ∈ rest, other.key ≠ head.key := fun other member same =>
        absent (List.mem_map.2 ⟨other, member, same⟩)
      cases position with
      | zero =>
          cases here
          have others : rest.map (fun other => if other.key = e.key then f other else other) = rest := by
            rw [List.map_congr_left (g := id), List.map_id]
            intro other member
            simp [apart other member]
          simp [others]
      | succ position =>
          have here : rest[position]? = some e := by simpa using here
          have apart := (apart e (List.mem_of_getElem? here)).symm
          simp [apart, ih rest_distinct here]

/-- The winner has the greatest raised weight, and it alone pays. -/
theorem turn_spec (distinct : (keys entries).Nodup) (filled : entries ≠ []) :
    ∃ position winner, (turn entries).1 = some position ∧ entries[position]? = some winner ∧
      (∀ e ∈ entries, e.current + e.weight ≤ winner.current + winner.weight) ∧
      (turn entries).2 = entries.map (settled (totalWeight entries) winner.key) := by
  simp only [turn]
  cases leading : leader? (entries.map Entry.raise) with
  | none => exact absurd (by simpa using leader?_eq_none_iff.1 leading) filled
  | some found =>
      obtain ⟨position, top⟩ := found
      obtain ⟨raised, here, is_top, greatest⟩ := leader?_spec leading
      obtain ⟨winner, place, rfl⟩ : ∃ winner, entries[position]? = some winner ∧ winner.raise = raised := by
        simpa using here
      refine ⟨position, winner, rfl, place, fun e member => ?_, ?_⟩
      · have below := greatest e.raise (List.mem_map_of_mem member)
        simpa [← is_top, Entry.raise] using below
      · have same_keys : keys (entries.map Entry.raise) = keys entries := by
          simp [keys, Entry.raise]
        simp only
        rw [modify_eq_map (same_keys ▸ distinct) here, List.map_map]
        apply List.map_congr_left
        intro e member
        by_cases wins : e.key = winner.key <;> simp [settled, Entry.raise, Entry.charge, wins]

theorem totalWeight_eq_sum (entries : List Entry) :
    totalWeight entries = (entries.map (·.weight)).sum := by
  induction entries with
  | nil => rfl
  | cons e rest ih => simp [totalWeight, ih]

section Run

/-- The key of the entry that the next turn takes. -/
def winner? (entries : List Entry) : Option String :=
  ((turn entries).1.bind (entries[·]?)).map (·.key)

def turns : Nat → List Entry → List Entry
  | 0, entries => entries
  | n + 1, entries => turns n (turn entries).2

def winners : Nat → List Entry → List String
  | 0, _ => []
  | n + 1, entries => (winner? entries).toList ++ winners n (turn entries).2

theorem turns_add (m n : Nat) (entries : List Entry) :
    turns (m + n) entries = turns n (turns m entries) := by
  induction m generalizing entries with
  | zero => rw [Nat.zero_add]; rfl
  | succ m ih => rw [Nat.succ_add]; exact ih (turn entries).2

theorem winners_add (m n : Nat) (entries : List Entry) :
    winners (m + n) entries = winners m entries ++ winners n (turns m entries) := by
  induction m generalizing entries with
  | zero => rw [Nat.zero_add]; rfl
  | succ m ih =>
      rw [Nat.succ_add, winners, ih, ← List.append_assoc]
      rfl

/-- Entries that a turn can be taken on for ever: what has been gained is what has been paid, and no
entry owes the total weight or more. -/
structure Level (entries : List Entry) : Prop where
  distinct : (keys entries).Nodup
  nonneg : ∀ e ∈ entries, 0 ≤ e.weight
  positive : 0 < totalWeight entries
  balanced : (entries.map (·.current)).sum = 0
  above : ∀ e ∈ entries, -totalWeight entries < e.current

theorem filled_of_level (level : Level entries) : entries ≠ [] := by
  rintro rfl
  exact absurd level.positive (by decide)

theorem keys_map_settled (total : Int) (winner : String) :
    keys (entries.map (settled total winner)) = keys entries := by
  simp [keys, settled]

theorem totalWeight_map_settled (total : Int) (winner : String) :
    totalWeight (entries.map (settled total winner)) = totalWeight entries := by
  simp [totalWeight_eq_sum, settled, Function.comp_def]

theorem sum_settled {winner : String} (distinct : (keys entries).Nodup)
    (one : winner ∈ keys entries) (total : Int) :
    ((entries.map (settled total winner)).map (·.current)).sum =
      (entries.map (·.current)).sum + totalWeight entries - total := by
  induction entries with
  | nil => cases one
  | cons e rest ih =>
      obtain ⟨absent, rest_distinct⟩ := List.nodup_cons.1 distinct
      simp only [List.map_cons, List.sum_cons, totalWeight]
      by_cases wins : e.key = winner
      · subst wins
        have others : rest.map (settled total e.key) = rest.map Entry.raise := by
          apply List.map_congr_left
          intro other member
          have apart : other.key ≠ e.key := fun same => absent (List.mem_map.2 ⟨other, member, same⟩)
          simp [settled, Entry.raise, apart]
        have raised : ((rest.map Entry.raise).map (·.current)).sum =
            (rest.map (·.current)).sum + totalWeight rest := by
          simp [totalWeight_eq_sum, Entry.raise, Function.comp_def, List.sum_map_add]
        rw [others, raised]
        simp [settled]
        ring
      · have later : winner ∈ keys rest :=
          (List.mem_cons.1 one).resolve_left fun same => wins same.symm
        rw [ih rest_distinct later]
        simp [settled, wins]
        ring

theorem sum_raised (balanced : (entries.map (·.current)).sum = 0) :
    (entries.map fun e => e.current + e.weight).sum = totalWeight entries := by
  rw [List.sum_map_add, balanced, totalWeight_eq_sum, zero_add]

theorem exists_raised_pos (balanced : (entries.map (·.current)).sum = 0)
    (positive : 0 < totalWeight entries) : ∃ e ∈ entries, 0 < e.current + e.weight := by
  apply List.exists_lt_of_sum_lt (fun _ : Entry => (0 : Int)) fun e => e.current + e.weight
  simpa [sum_raised balanced] using positive

/-- The next turn on level entries: there is a winner, and the entries stay level. -/
theorem next_turn (level : Level entries) :
    ∃ position winner, (turn entries).1 = some position ∧ entries[position]? = some winner ∧
      winner? entries = some winner.key ∧ winner ∈ entries ∧
      (turn entries).2 = entries.map (settled (totalWeight entries) winner.key) ∧
      Level (turn entries).2 := by
  obtain ⟨position, winner, won, here, greatest, after⟩ :=
    turn_spec level.distinct (filled_of_level level)
  have member := List.mem_of_getElem? here
  refine ⟨position, winner, won, here, by simp [winner?, won, here], member, after, ?_⟩
  have wins : winner.key ∈ keys entries := List.mem_map_of_mem member
  -- The raised weights sum to a positive total, so the greatest of them stays above minus it.
  have positive : 0 < winner.current + winner.weight := by
    obtain ⟨e, there, raised⟩ := exists_raised_pos level.balanced level.positive
    have := greatest e there
    omega
  rw [after]
  constructor
  · rw [keys_map_settled]; exact level.distinct
  · intro e there
    obtain ⟨old, old_there, rfl⟩ := List.mem_map.1 there
    exact level.nonneg old old_there
  · rw [totalWeight_map_settled]; exact level.positive
  · rw [sum_settled level.distinct wins, level.balanced]; ring
  · intro e there
    obtain ⟨old, old_there, rfl⟩ := List.mem_map.1 there
    rw [totalWeight_map_settled]
    by_cases same : old.key = winner.key
    · have : old = winner := List.inj_on_of_nodup_map level.distinct old_there member same
      subst this
      simp [settled]
      omega
    · have low := level.above old old_there
      have gain := level.nonneg old old_there
      simp [settled, same]
      omega

theorem level_turns (level : Level entries) (n : Nat) : Level (turns n entries) := by
  induction n generalizing entries with
  | zero => exact level
  | succ n ih =>
      obtain ⟨_, _, _, _, _, _, _, next⟩ := next_turn level
      exact ih next

theorem length_winners (level : Level entries) (n : Nat) :
    (winners n entries).length = n := by
  induction n generalizing entries with
  | zero => rfl
  | succ n ih =>
      obtain ⟨_, _, _, _, wins, _, _, next⟩ := next_turn level
      simp [winners, wins, ih next]

/-- Every current weight is what has been gained less what has been paid. -/
theorem turns_eq_map (level : Level entries) (n : Nat) :
    turns n entries = entries.map fun e =>
      { e with current :=
          e.current + n * e.weight - totalWeight entries * (winners n entries).count e.key } := by
  induction n generalizing entries with
  | zero => simp [turns, winners]
  | succ n ih =>
      obtain ⟨_, winner, _, _, wins, _, after, next⟩ := next_turn level
      rw [turns, ih next, winners, wins, after, totalWeight_map_settled, List.map_map]
      apply List.map_congr_left
      intro e _
      simp only [Function.comp_apply, settled, Option.toList_some, List.cons_append, List.nil_append,
        List.count_cons, beq_iff_eq, Entry.mk.injEq, true_and, eq_comm (a := winner.key)]
      by_cases same : e.key = winner.key <;> simp [same] <;> ring

theorem totalWeight_turns (level : Level entries) (n : Nat) :
    totalWeight (turns n entries) = totalWeight entries := by
  rw [turns_eq_map level]
  simp [totalWeight_eq_sum, Function.comp_def]

theorem mem_turns (level : Level entries) (n : Nat) {e : Entry} (member : e ∈ entries) :
    { e with current :=
        e.current + n * e.weight - totalWeight entries * (winners n entries).count e.key } ∈
      turns n entries := by
  rw [turns_eq_map level]
  exact List.mem_map.2 ⟨e, member, rfl⟩

/-- Entries that nobody has gained on or paid from yet. -/
def Untouched (entries : List Entry) : Prop := ∀ e ∈ entries, e.current = 0

/-- From the start no entry is a whole win ahead of its share. -/
theorem count_winners_lt (level : Level entries) (untouched : Untouched entries) (n : Nat)
    {e : Entry} (member : e ∈ entries) :
    totalWeight entries * (winners n entries).count e.key < n * e.weight + totalWeight entries := by
  have above := (level_turns level n).above _ (mem_turns level n member)
  rw [totalWeight_turns level, untouched e member] at above
  simp only at above
  omega

/-- After any multiple of the total weight all current weights are back at zero: none is below,
because a debt would be a whole total weight, and their sum is zero. -/
theorem untouched_turns (level : Level entries) (untouched : Untouched entries) (m : Nat) :
    Untouched (turns (m * (totalWeight entries).toNat) entries) := by
  have after := level_turns level (m * (totalWeight entries).toNat)
  have whole : (((totalWeight entries).toNat : Nat) : Int) = totalWeight entries :=
    Int.toNat_of_nonneg level.positive.le
  have credit : ∀ x ∈ (turns (m * (totalWeight entries).toNat) entries).map (·.current), 0 ≤ x := by
    intro x there
    rw [turns_eq_map level, List.map_map] at there
    obtain ⟨e, member, rfl⟩ := List.mem_map.1 there
    have bound := count_winners_lt level untouched (m * (totalWeight entries).toNat) member
    simp only [Function.comp_apply, untouched e member, Nat.cast_mul, whole] at bound ⊢
    have wins_le : ((winners (m * (totalWeight entries).toNat) entries).count e.key : Int) <
        m * e.weight + 1 := by
      apply lt_of_mul_lt_mul_left _ level.positive.le
      linarith
    have := mul_nonneg level.positive.le (sub_nonneg.2 (Int.lt_add_one_iff.1 wins_le))
    linarith
  intro e there
  exact List.all_zero_of_le_zero_le_of_sum_eq_zero credit after.balanced (List.mem_map_of_mem there)

theorem turns_totalWeight (level : Level entries) (untouched : Untouched entries) :
    turns (totalWeight entries).toNat entries = entries := by
  have zero := untouched_turns level untouched 1
  rw [Nat.one_mul, turns_eq_map level] at zero
  rw [turns_eq_map level]
  conv_rhs => rw [← List.map_id entries]
  apply List.map_congr_left
  intro e member
  have same := (zero _ (List.mem_map_of_mem member)).trans (untouched e member).symm
  exact congrArg (fun current => { e with current }) same

/-- The run starts anew after as many turns as the total weight, so from any of its states so many
turns lead back to it. What an entry gains on the way is what it pays. -/
theorem count_winners_window (level : Level entries) (untouched : Untouched entries) (n : Nat)
    {e : Entry} (member : e ∈ entries) :
    ((winners (totalWeight entries).toNat (turns n entries)).count e.key : Int) = e.weight := by
  have there := level_turns level n
  have total := totalWeight_turns level n
  have round : turns (totalWeight entries).toNat (turns n entries) = turns n entries := by
    rw [← turns_add, Nat.add_comm, turns_add, turns_totalWeight level untouched]
  have here := mem_turns level n member
  have moved := mem_turns there (totalWeight entries).toNat here
  rw [round] at moved
  have same := List.inj_on_of_nodup_map there.distinct moved here rfl
  simp only [Entry.mk.injEq, true_and, total, Int.toNat_of_nonneg level.positive.le] at same
  have equal : totalWeight entries *
      ((winners (totalWeight entries).toNat (turns n entries)).count e.key : Int) =
        totalWeight entries * e.weight := by
    linarith
  exact mul_left_cancel₀ level.positive.ne' equal

end Run

end ServiceGovernance.Balance
