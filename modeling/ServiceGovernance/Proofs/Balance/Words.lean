import ServiceGovernance.Proofs.Balance.Turns

/-!
A turn in numbers of 64 bits. One pass over the entries raises each of them, adds up the weights and
keeps the first entry with the greatest current weight so far; at the end the winner pays. Every sum and
difference on the way has to fit. Where all of them do, the pass comes to the same end as a turn.
-/

namespace ServiceGovernance.Balance

variable {entries : List Entry}

def Fits (n : Int) : Prop := -2 ^ 63 ≤ n ∧ n < 2 ^ 63

instance (n : Int) : Decidable (Fits n) := inferInstanceAs (Decidable (_ ∧ _))

def word? (n : Int) : Option Int := if Fits n then some n else none

/-- The best entry so far stays unless the next one has more. -/
def better (best : Option (Nat × Int)) (position : Nat) (current : Int) : Option (Nat × Int) :=
  match best with
  | none => some (position, current)
  | some (place, top) => if current ≤ top then some (place, top) else some (position, current)

/-- The raised entries, the total weight and the best entry, with its place and what it has. -/
def scan? (position : Nat) (total : Int) (best : Option (Nat × Int)) :
    List Entry → Option (List Entry × Int × Option (Nat × Int))
  | [] => some ([], total, best)
  | e :: rest => do
      let current ← word? (e.current + e.weight)
      let total ← word? (total + e.weight)
      let (raised, found) ← scan? (position + 1) total (better best position current) rest
      some ({ e with current } :: raised, found)

def wordTurn? (entries : List Entry) : Option (Option Nat × List Entry) := do
  let (raised, total, best) ← scan? 0 0 none entries
  match best with
  | none => some (none, raised)
  | some (position, top) => do
      let paid ← word? (top - total)
      some (some position, raised.modify position fun e => { e with current := paid })

theorem word?_of_fits {n : Int} (fits : Fits n) : word? n = some n := if_pos fits

/-- The best of the entries so far and of those from `position` on. -/
def contest (best : Option (Nat × Int)) (position : Nat) : Option (Nat × Int) → Option (Nat × Int)
  | none => best
  | some (place, top) => better best (position + place) top

theorem contest_none (leader : Option (Nat × Int)) : contest none 0 leader = leader := by
  cases leader with
  | none => rfl
  | some found => simp [contest, better]

theorem better_better (best : Option (Nat × Int)) (position place : Nat) (current top : Int) :
    better (better best position current) place top =
      if top ≤ current then better best position current else better best place top := by
  cases best with
  | none => rfl
  | some earlier => grind [better]

/-- From the front or from the back, the first of the greatest is found. -/
theorem contest_leader?_cons (best : Option (Nat × Int)) (position : Nat) (e : Entry) (rest : List Entry) :
    contest best position (leader? (e :: rest)) =
      contest (better best position e.current) (position + 1) (leader? rest) := by
  rw [leader?]
  cases leader? rest with
  | none => rfl
  | some found =>
      obtain ⟨place, top⟩ := found
      have later : position + 1 + place = position + (place + 1) := by omega
      by_cases first : top ≤ e.current
      · simp [contest, better_better, first]
      · simp [contest, better_better, first, later]

theorem totalWeight_nonneg (nonneg : ∀ e ∈ entries, 0 ≤ e.weight) : 0 ≤ totalWeight entries := by
  rw [totalWeight_eq_sum]
  apply List.sum_nonneg
  simpa using nonneg

theorem scan?_eq (position : Nat) (best : Option (Nat × Int)) {total : Int}
    (nonneg : ∀ e ∈ entries, 0 ≤ e.weight) (raised_fits : ∀ e ∈ entries, Fits (e.current + e.weight))
    (start : 0 ≤ total) (total_fits : Fits (total + totalWeight entries)) :
    scan? position total best entries = some (entries.map Entry.raise, total + totalWeight entries,
      contest best position (leader? (entries.map Entry.raise))) := by
  induction entries generalizing position total best with
  | nil => simp [scan?, totalWeight, leader?, contest]
  | cons e rest ih =>
      obtain ⟨gain, rest_nonneg⟩ := List.forall_mem_cons.1 nonneg
      obtain ⟨here, rest_fits⟩ := List.forall_mem_cons.1 raised_fits
      have left := totalWeight_nonneg rest_nonneg
      have whole : total + totalWeight (e :: rest) = total + e.weight + totalWeight rest := by
        rw [totalWeight, add_assoc]
      rw [whole] at total_fits ⊢
      -- a partial total lies between zero and the whole one
      have so_far : Fits (total + e.weight) := by
        unfold Fits at total_fits ⊢
        omega
      have later := ih (position + 1) (better best position (e.current + e.weight)) rest_nonneg rest_fits
        (add_nonneg start gain) total_fits
      rw [List.map_cons, contest_leader?_cons]
      simp only [scan?, word?_of_fits here, word?_of_fits so_far, later, Option.bind_eq_bind,
        Option.bind_some, Entry.raise]

theorem modify_congr {position : Nat} {e : Entry} (here : entries[position]? = some e)
    {f g : Entry → Entry} (same : f e = g e) : entries.modify position f = entries.modify position g := by
  apply List.ext_getElem?
  intro place
  rw [List.getElem?_modify, List.getElem?_modify]
  by_cases there : position = place
  · subst there
    simp [here, same]
  · simp [there]

/-- If the raised weights, the total weight and what the winner is left with fit, nothing overflows. -/
theorem wordTurn?_eq (nonneg : ∀ e ∈ entries, 0 ≤ e.weight)
    (raised_fits : ∀ e ∈ entries, Fits (e.current + e.weight)) (total_fits : Fits (totalWeight entries))
    (paid_fits : ∀ position top, leader? (entries.map Entry.raise) = some (position, top) →
      Fits (top - totalWeight entries)) :
    wordTurn? entries = some (turn entries) := by
  have scanned := scan?_eq 0 none nonneg raised_fits le_rfl
    ((zero_add (totalWeight entries)).symm ▸ total_fits)
  rw [zero_add, contest_none] at scanned
  simp only [wordTurn?, turn, scanned, Option.bind_eq_bind, Option.bind_some]
  cases leading : leader? (entries.map Entry.raise) with
  | none => rfl
  | some found =>
      obtain ⟨position, top⟩ := found
      obtain ⟨winner, here, most, _⟩ := leader?_spec leading
      simp only [word?_of_fits (paid_fits position top leading), Option.bind_some]
      rw [modify_congr here (g := Entry.charge (totalWeight entries))]
      rw [Entry.charge, most]

/-- One more than the greatest number does not fit. -/
example : wordTurn? [{ key := "a", weight := 1, current := 2 ^ 63 - 1 }] = none := by decide

end ServiceGovernance.Balance
