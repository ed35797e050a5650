import ServiceGovernance.Text.Percent

/-!
Reading undoes percent encoding. A written component holds no character that separates components,
so it can stand as one segment of a path. Nothing but the empty text is read as nothing.
-/

namespace ServiceGovernance.Text

namespace Utf8

theorem eq_nil_of_encode {cs : List Char} (written : encode cs = []) : cs = [] := by
  cases cs with
  | nil => rfl
  | cons c cs =>
      have first : String.utf8EncodeChar c = [] := (List.append_eq_nil_iff.1 written).1
      have positive := c.utf8Size_pos
      rw [← String.length_utf8EncodeChar, first] at positive
      cases positive

theorem decodeFrom_some_ne_nil (unfinished : Unfinished) (bytes : List UInt8) :
    decodeFrom (some unfinished) bytes ≠ some [] := by
  induction bytes generalizing unfinished with
  | nil => simp [decodeFrom]
  | cons byte bytes ih =>
      unfold decodeFrom
      dsimp only
      split
      · split
        · split
          · split <;> simp
          · simp
        · exact ih _
      · simp

theorem eq_nil_of_decode {bytes : List UInt8} (read : decode bytes = some []) : bytes = [] := by
  cases bytes with
  | nil => rfl
  | cons byte bytes =>
      unfold decode decodeFrom at read
      split at read
      · simp at read
      · split at read
        · exact absurd read (decodeFrom_some_ne_nil _ _)
        · cases read

end Utf8

namespace Percent

/-- The written form of a byte, as bytes. -/
def escaped (byte : UInt8) : List UInt8 := Utf8.encode (encodeByte byte)

/-- What the characters of a written byte can be. -/
def isWritten (c : Char) : Bool := c == '%' || c.isAlphanum || c ∈ ['-', '_', '.', '~', '*']

theorem forall_byte {P : UInt8 → Prop} (all : ∀ n < 256, P (UInt8.ofNat n)) (byte : UInt8) : P byte := by
  have this_one := all byte.toNat byte.toNat_lt
  rwa [UInt8.ofNat_toNat] at this_one

theorem isWritten_of_mem_encodeByte : ∀ byte : UInt8, (encodeByte byte).all isWritten = true :=
  forall_byte (by decide +kernel)

theorem escaped_unreserved : ∀ byte : UInt8, isUnreserved byte = true →
    escaped byte = [byte] ∧ byte ≠ 0x25 ∧ byte ≠ 0x2B :=
  forall_byte (by decide +kernel)

def digitByte (value : Nat) : UInt8 := UInt8.ofNat (hexDigit value).toNat

theorem encode_hexDigit : ∀ value < 16, Utf8.encode [hexDigit value] = [digitByte value] := by
  decide +kernel

theorem hexValue?_digitByte : ∀ value < 16, hexValue? (digitByte value) = some value := by
  decide +kernel

theorem escaped_reserved {byte : UInt8} (reserved : isUnreserved byte = false) :
    escaped byte = [0x25, digitByte (byte.toNat / 16), digitByte (byte.toNat % 16)] := by
  have size := byte.toNat_lt
  have high := encode_hexDigit (byte.toNat / 16) (by omega)
  have low := encode_hexDigit (byte.toNat % 16) (by omega)
  simp only [Utf8.encode, List.flatMap_cons, List.flatMap_nil, List.append_nil] at high low
  simp only [escaped, encodeByte, reserved, Bool.false_eq_true, if_false, Utf8.encode,
    List.flatMap_cons, List.flatMap_nil, high, low]
  rfl

theorem decodeBytes_escaped (byte : UInt8) (rest : List UInt8) :
    decodeBytes (escaped byte ++ rest) = (decodeBytes rest).map (byte :: ·) := by
  cases kind : isUnreserved byte with
  | true =>
      obtain ⟨written, plain, no_blank⟩ := escaped_unreserved byte kind
      rw [written, List.singleton_append, decodeBytes, if_neg plain, if_neg no_blank]
      intro high low tail percent
      exact absurd percent plain
  | false =>
      have size := byte.toNat_lt
      rw [escaped_reserved kind]
      simp only [List.cons_append, List.nil_append]
      rw [decodeBytes, hexValue?_digitByte _ (by omega), hexValue?_digitByte _ (by omega)]
      simp only
      rw [Nat.div_add_mod, UInt8.ofNat_toNat]

theorem decodeBytes_encode (bytes : List UInt8) :
    decodeBytes (Utf8.encode (bytes.flatMap encodeByte)) = .ok bytes := by
  induction bytes with
  | nil => rfl
  | cons byte bytes ih =>
      have split : Utf8.encode ((byte :: bytes).flatMap encodeByte) =
          escaped byte ++ Utf8.encode (bytes.flatMap encodeByte) := by
        simp [Utf8.encode, escaped]
      rw [split, decodeBytes_escaped, ih]
      rfl

theorem decodeChars_encodeChars (cs : List Char) : decodeChars (encodeChars cs) = .ok cs := by
  unfold decodeChars encodeChars
  rw [decodeBytes_encode]
  simp only [bind, Except.bind, Utf8.decode_encode]

theorem decode_encode (text : String) : decode (encode text) = .ok text := by
  rw [decode, encode, String.toList_ofList, decodeChars_encodeChars]
  exact congrArg Except.ok String.ofList_toList

theorem encodeChars_injective {cs ds : List Char} (same : encodeChars cs = encodeChars ds) : cs = ds := by
  have read := congrArg decodeChars same
  rw [decodeChars_encodeChars, decodeChars_encodeChars] at read
  exact Except.ok.inj read

theorem encode_injective {text other : String} (same : encode text = encode other) : text = other := by
  have read := congrArg decode same
  rw [decode_encode, decode_encode] at read
  exact Except.ok.inj read

theorem isWritten_of_mem {cs : List Char} {c : Char} (member : c ∈ encodeChars cs) :
    isWritten c = true := by
  obtain ⟨byte, _, there⟩ := List.mem_flatMap.1 member
  exact List.all_eq_true.1 (isWritten_of_mem_encodeByte byte) c there

theorem not_mem_encodeChars {c : Char} (separates : isWritten c = false) (cs : List Char) :
    c ∉ encodeChars cs := fun member => by
  rw [isWritten_of_mem member] at separates
  cases separates

theorem eq_nil_of_decodeBytes {bytes : List UInt8} (read : decodeBytes bytes = .ok []) : bytes = [] := by
  have mapped : ∀ (rest : Except Defect (List UInt8)) (byte : UInt8), rest.map (byte :: ·) ≠ .ok [] := by
    intro rest byte same
    cases rest <;> cases same
  unfold decodeBytes at read
  split at read
  · rfl
  · split at read
    · exact absurd read (mapped _ _)
    · cases read
  · split at read
    · cases read
    · split at read
      · exact absurd read (mapped _ _)
      · exact absurd read (mapped _ _)

/-- Only the empty text is read as the empty one. -/
theorem eq_empty_of_decode {text : String} (read : decode text = .ok "") : text = "" := by
  unfold decode decodeChars at read
  cases bytes : decodeBytes (Utf8.encode text.toList) with
  | error defect =>
      rw [bytes] at read
      cases read
  | ok content =>
      rw [bytes] at read
      simp only [bind, Except.bind] at read
      cases chars : Utf8.decode content with
      | none =>
          rw [chars] at read
          cases read
      | some cs =>
          rw [chars] at read
          have none_read : cs = [] := by simpa [Except.map] using read
          subst none_read
          rw [Utf8.eq_nil_of_decode chars] at bytes
          simpa using Utf8.eq_nil_of_encode (eq_nil_of_decodeBytes bytes)

end Percent

end ServiceGovernance.Text
