import ServiceGovernance.Text.Numeral

/-!
Reading undoes the decimal writing of a number, and reads nothing that holds another character.
-/

namespace ServiceGovernance.Text

theorem digitValue?_digitChar {digit : Nat} (small : digit < 10) :
    digitValue? digit.digitChar = some digit := by
  have all : ∀ d < 10, digitValue? (Nat.digitChar d) = some d := by decide
  exact all digit small

theorem digitsFrom_append (value : Nat) (cs : List Char) (c : Char) :
    digitsFrom value (cs ++ [c]) =
      (digitsFrom value cs).bind fun read => (digitValue? c).map (10 * read + ·) := by
  induction cs generalizing value with
  | nil =>
      simp only [List.nil_append, digitsFrom, Option.bind_some]
      cases digitValue? c <;> rfl
  | cons d cs ih =>
      simp only [List.cons_append, digitsFrom]
      cases digitValue? d with
      | none => rfl
      | some digit => exact ih _

theorem digitsFrom_toDigits (n : Nat) : digitsFrom 0 (Nat.toDigits 10 n) = some n := by
  induction n using Nat.strongRecOn with
  | ind n ih =>
      rw [Nat.toDigits_eq_if (by decide)]
      split
      · next small => simp [digitsFrom, digitValue?_digitChar small]
      · next large =>
          have last := digitValue?_digitChar (Nat.mod_lt n (show 0 < 10 by decide))
          rw [digitsFrom_append, ih (n / 10) (by omega), last]
          simp only [Option.bind_some, Option.map_some, Option.some.injEq]
          omega

theorem toDigits_injective {m n : Nat} (same : Nat.toDigits 10 m = Nat.toDigits 10 n) : m = n := by
  have read := congrArg (digitsFrom 0) same
  rw [digitsFrom_toDigits, digitsFrom_toDigits] at read
  exact Option.some.inj read

theorem not_mem_toDigits {c : Char} (other : c.isDigit = false) (n : Nat) :
    c ∉ Nat.toDigits 10 n := by
  intro member
  rw [Nat.isDigit_of_mem_toDigits (by decide) (by decide) member] at other
  cases other

theorem natural?_toDigits {n bound : Nat} (small : n < bound) :
    natural? bound (Nat.toDigits 10 n) = some n := by
  have sign : '+' ∉ Nat.toDigits 10 n := not_mem_toDigits (by decide) n
  have value := digitsFrom_toDigits n
  cases digits : Nat.toDigits 10 n with
  | nil => exact absurd digits Nat.toDigits_ne_nil
  | cons c cs =>
      rw [digits] at sign value
      rw [natural?]
      · simp [digits?, value, small]
      · intro rest same
        exact sign (same ▸ List.mem_cons_self)

theorem digitsFrom_eq_none {c : Char} {cs : List Char} (member : c ∈ cs) (other : digitValue? c = none)
    (value : Nat) : digitsFrom value cs = none := by
  induction cs generalizing value with
  | nil => cases member
  | cons d cs ih =>
      rw [digitsFrom]
      cases read : digitValue? d with
      | none => rfl
      | some digit =>
          rcases List.mem_cons.1 member with rfl | member
          · rw [read] at other
            cases other
          · exact ih member _

theorem natural?_eq_none {bound : Nat} {c : Char} {cs : List Char} (member : c ∈ cs)
    (other : digitValue? c = none) (sign : c ≠ '+') : natural? bound cs = none := by
  have none_there : ∀ {text}, c ∈ text → digits? text = none := by
    intro text member
    cases text with
    | nil => cases member
    | cons d text => exact digitsFrom_eq_none member other 0
  unfold natural?
  split
  · rw [none_there ((List.mem_cons.1 member).resolve_left sign)]
    rfl
  · rw [none_there member]
    rfl

end ServiceGovernance.Text
