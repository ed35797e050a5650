/-!
The bytes of a text in UTF-8 and back. `decode` takes shortest forms of Unicode scalar values only,
and `decode_encode` says that it undoes `encode`.
-/

namespace ServiceGovernance.Text.Utf8

def encode (cs : List Char) : List UInt8 := cs.flatMap String.utf8EncodeChar

/-- A character of several bytes that has been read in part: how many bytes it still lacks, the bits
read so far, and the least code point that needs this many bytes. -/
structure Unfinished where
  lacking : Nat
  bits : Nat
  least : Nat

def charOf? (code : Nat) : Option Char :=
  if code.isValidChar then some (Char.ofNat code) else none

/-- The character begun by a byte that starts no one-byte character. -/
def lead? (byte : Nat) : Option Unfinished :=
  if 0xC2 ≤ byte ∧ byte < 0xE0 then some ⟨1, byte % 32, 0x80⟩
  else if 0xE0 ≤ byte ∧ byte < 0xF0 then some ⟨2, byte % 16, 0x800⟩
  else if 0xF0 ≤ byte ∧ byte < 0xF5 then some ⟨3, byte % 8, 0x10000⟩
  else none

def decodeFrom : Option Unfinished → List UInt8 → Option (List Char)
  | none, [] => some []
  | some _, [] => none
  | none, byte :: bytes =>
      if byte.toNat < 0x80 then (decodeFrom none bytes).map (Char.ofNat byte.toNat :: ·)
      else
        match lead? byte.toNat with
        | some unfinished => decodeFrom (some unfinished) bytes
        | none => none
  | some unfinished, byte :: bytes =>
      if 0x80 ≤ byte.toNat ∧ byte.toNat < 0xC0 then
        let bits := unfinished.bits * 64 + byte.toNat % 64
        if unfinished.lacking ≤ 1 then
          if unfinished.least ≤ bits then
            match charOf? bits with
            | some c => (decodeFrom none bytes).map (c :: ·)
            | none => none
          else none
        else decodeFrom (some ⟨unfinished.lacking - 1, bits, unfinished.least⟩) bytes
      else none

def decode (bytes : List UInt8) : Option (List Char) := decodeFrom none bytes

theorem charOf?_toNat (c : Char) : charOf? c.toNat = some c := by
  have valid : c.toNat.isValidChar := c.valid
  simp [charOf?, valid]

theorem decodeFrom_tail {lacking bits least tail : Nat} (small : tail < 64) (more : 1 < lacking)
    (bytes : List UInt8) :
    decodeFrom (some ⟨lacking, bits, least⟩) (UInt8.ofNat (tail + 128) :: bytes) =
      decodeFrom (some ⟨lacking - 1, bits * 64 + tail, least⟩) bytes := by
  have value : (UInt8.ofNat (tail + 128)).toNat = tail + 128 := by
    simp; omega
  have digit : (tail + 128) % 64 = tail := by omega
  rw [decodeFrom, value, if_pos (by omega), digit]
  simp only
  rw [if_neg (by omega)]

theorem decodeFrom_last {bits least tail : Nat} {c : Char} (small : tail < 64)
    (code : bits * 64 + tail = c.toNat) (shortest : least ≤ c.toNat) (bytes : List UInt8) :
    decodeFrom (some ⟨1, bits, least⟩) (UInt8.ofNat (tail + 128) :: bytes) =
      (decodeFrom none bytes).map (c :: ·) := by
  have value : (UInt8.ofNat (tail + 128)).toNat = tail + 128 := by
    simp; omega
  have digit : (tail + 128) % 64 = tail := by omega
  rw [decodeFrom, value, if_pos (by omega), digit, code]
  simp [shortest, charOf?_toNat]

theorem decodeFrom_encodeChar (c : Char) (bytes : List UInt8) :
    decodeFrom none (String.utf8EncodeChar c ++ bytes) = (decodeFrom none bytes).map (c :: ·) := by
  have valid : c.toNat.isValidChar := c.valid
  have bound : c.toNat < 0x110000 := by unfold Nat.isValidChar at valid; omega
  have code : c.val.toNat = c.toNat := rfl
  simp only [String.utf8EncodeChar, code]
  split
  · next small =>
      have value : (UInt8.ofNat c.toNat).toNat = c.toNat := by simp; omega
      simp only [List.cons_append, List.nil_append]
      rw [decodeFrom, value, if_pos (by omega), Char.ofNat_toNat]
  split
  · have value : (UInt8.ofNat (c.toNat / 64 % 32 + 192)).toNat = c.toNat / 64 % 32 + 192 := by
      simp; omega
    have lead : lead? (c.toNat / 64 % 32 + 192) = some ⟨1, c.toNat / 64, 0x80⟩ := by
      rw [lead?, if_pos (by omega)]
      congr 2; omega
    simp only [List.cons_append, List.nil_append]
    rw [decodeFrom, value, if_neg (by omega), lead]
    exact decodeFrom_last (by omega) (by omega) (by omega) bytes
  split
  · have value : (UInt8.ofNat (c.toNat / 4096 % 16 + 224)).toNat = c.toNat / 4096 % 16 + 224 := by
      simp; omega
    have lead : lead? (c.toNat / 4096 % 16 + 224) = some ⟨2, c.toNat / 4096, 0x800⟩ := by
      rw [lead?, if_neg (by omega), if_pos (by omega)]
      congr 2; omega
    simp only [List.cons_append, List.nil_append]
    rw [decodeFrom, value, if_neg (by omega), lead]
    simp only
    rw [decodeFrom_tail (by omega) (by omega)]
    exact decodeFrom_last (by omega) (by omega) (by omega) bytes
  · have value : (UInt8.ofNat (c.toNat / 262144 % 8 + 240)).toNat = c.toNat / 262144 % 8 + 240 := by
      simp; omega
    have lead : lead? (c.toNat / 262144 % 8 + 240) = some ⟨3, c.toNat / 262144, 0x10000⟩ := by
      rw [lead?, if_neg (by omega), if_neg (by omega), if_pos (by omega)]
      congr 2; omega
    simp only [List.cons_append, List.nil_append]
    rw [decodeFrom, value, if_neg (by omega), lead]
    simp only
    rw [decodeFrom_tail (by omega) (by omega), decodeFrom_tail (by omega) (by omega)]
    exact decodeFrom_last (by omega) (by omega) (by omega) bytes

theorem decode_encode (cs : List Char) : decode (encode cs) = some cs := by
  unfold decode encode
  induction cs with
  | nil => rfl
  | cons c cs ih => rw [List.flatMap_cons, decodeFrom_encodeChar, ih]; rfl
end ServiceGovernance.Text.Utf8
