import Mathlib.Data.String.Basic
import ServiceGovernance.Text.Utf8

/-!
Texts are in the order of their bytes. A character's first byte tells its size and its highest bits, so
the first byte in which two characters differ is less in the lesser one, and what follows does not matter.
-/

namespace ServiceGovernance.Text.Utf8

variable {xs ys : List UInt8} {a b v w : Nat} {c d : Char} {cs ds : List Char}

theorem cons_lt_of_byte (small : b < 256) (less : a < b) : UInt8.ofNat a :: xs < UInt8.ofNat b :: ys := by
  rw [List.cons_lt_cons_iff, UInt8.lt_iff_toNat_lt]
  left
  simp
  omega

theorem cons_lt_of_same (same : a = b) (less : xs < ys) : UInt8.ofNat a :: xs < UInt8.ofNat b :: ys := by
  rw [same, List.cons_lt_cons_iff]
  exact .inr ⟨rfl, less⟩

/-- Where the bits before are the same, the last byte decides. -/
theorem tail_lt (less : v < w) (before : v / 64 = w / 64) :
    UInt8.ofNat (v % 64 + 128) :: xs < UInt8.ofNat (w % 64 + 128) :: ys :=
  cons_lt_of_byte (by omega) (by omega)

theorem tails_lt (less : v < w) (before : v / 4096 = w / 4096) :
    UInt8.ofNat (v / 64 % 64 + 128) :: UInt8.ofNat (v % 64 + 128) :: xs <
      UInt8.ofNat (w / 64 % 64 + 128) :: UInt8.ofNat (w % 64 + 128) :: ys := by
  rcases Nat.lt_or_eq_of_le (Nat.div_le_div_right (c := 64) less.le) with lower | same
  · exact cons_lt_of_byte (by omega) (by omega)
  · exact cons_lt_of_same (by rw [same]) (tail_lt less same)

/-- The lesser character has the lesser bytes, whatever follows. -/
theorem encodeChar_lt (less : c < d) (xs ys : List UInt8) :
    String.utf8EncodeChar c ++ xs < String.utf8EncodeChar d ++ ys := by
  have code : c.val.toNat < d.val.toNat := less
  have bound : d.val.toNat < 0x110000 := by
    rcases d.valid with low | high
    · exact Nat.lt_trans low (by decide)
    · exact high.2
  simp only [String.utf8EncodeChar]
  generalize c.val.toNat = v at *
  generalize d.val.toNat = w at *
  -- Of two characters of different sizes the first byte decides.
  by_cases one : v ≤ 0x7F
  · rw [if_pos one]
    split
    · exact cons_lt_of_byte (by omega) code
    split
    · exact cons_lt_of_byte (by omega) (by omega)
    split
    · exact cons_lt_of_byte (by omega) (by omega)
    · exact cons_lt_of_byte (by omega) (by omega)
  rw [if_neg one, if_neg (show ¬ w ≤ 0x7F by omega)]
  by_cases two : v ≤ 0x7FF
  · rw [if_pos two]
    split
    · rcases Nat.lt_or_eq_of_le (Nat.div_le_div_right (c := 64) code.le) with lower | same
      · exact cons_lt_of_byte (by omega) (by omega)
      · exact cons_lt_of_same (by rw [same]) (tail_lt code same)
    split
    · exact cons_lt_of_byte (by omega) (by omega)
    · exact cons_lt_of_byte (by omega) (by omega)
  rw [if_neg two, if_neg (show ¬ w ≤ 0x7FF by omega)]
  by_cases three : v ≤ 0xFFFF
  · rw [if_pos three]
    split
    · rcases Nat.lt_or_eq_of_le (Nat.div_le_div_right (c := 4096) code.le) with lower | same
      · exact cons_lt_of_byte (by omega) (by omega)
      · exact cons_lt_of_same (by rw [same]) (tails_lt code same)
    · exact cons_lt_of_byte (by omega) (by omega)
  rw [if_neg three, if_neg (show ¬ w ≤ 0xFFFF by omega)]
  rcases Nat.lt_or_eq_of_le (Nat.div_le_div_right (c := 262144) code.le) with lower | same
  · exact cons_lt_of_byte (by omega) (by omega)
  refine cons_lt_of_same (by rw [same]) ?_
  rcases Nat.lt_or_eq_of_le (Nat.div_le_div_right (c := 4096) code.le) with lower | again
  · exact cons_lt_of_byte (by omega) (by omega)
  · exact cons_lt_of_same (by rw [again]) (tails_lt code again)

theorem encodeChar_ne_nil (c : Char) : String.utf8EncodeChar c ≠ [] := by
  unfold String.utf8EncodeChar
  dsimp only
  split_ifs <;> exact List.cons_ne_nil _ _

theorem encode_lt (less : cs < ds) : encode cs < encode ds := by
  induction cs generalizing ds with
  | nil =>
      cases ds with
      | nil => exact absurd less (List.not_lt_nil _)
      | cons d ds =>
          obtain ⟨byte, bytes, first⟩ := List.exists_cons_of_ne_nil (encodeChar_ne_nil d)
          rw [encode, encode, List.flatMap_cons, first]
          exact List.nil_lt_cons ..
  | cons c cs ih =>
      cases ds with
      | nil => exact absurd less (List.not_lt_nil _)
      | cons d ds =>
          rcases List.cons_lt_cons_iff.1 less with first | ⟨rfl, later⟩
          · exact encodeChar_lt first _ _
          · exact List.append_left_lt (ih later)

/-- A text is less than another one exactly if its bytes are. -/
theorem encode_lt_iff : encode cs < encode ds ↔ cs < ds := by
  refine ⟨fun less => ?_, encode_lt⟩
  rcases lt_trichotomy cs ds with below | rfl | above
  · exact below
  · exact absurd less (List.lt_irrefl _)
  · exact absurd less (List.lt_asymm (encode_lt above))

end ServiceGovernance.Text.Utf8
