/-!
Whole numbers in decimal. A numeral is a sequence of ASCII digits after an optional sign; leading
zeros are allowed, an empty sequence is not, and a value beyond the wanted range is no numeral.
-/

namespace ServiceGovernance.Text

def digitValue? (c : Char) : Option Nat :=
  if '0' ≤ c ∧ c ≤ '9' then some (c.toNat - '0'.toNat) else none

def digitsFrom (value : Nat) : List Char → Option Nat
  | [] => some value
  | c :: rest =>
      match digitValue? c with
      | some digit => digitsFrom (10 * value + digit) rest
      | none => none

def digits? : List Char → Option Nat
  | [] => none
  | cs => digitsFrom 0 cs

/-- The sign `-` is not accepted, not even before zero. -/
def natural? (bound : Nat) : List Char → Option Nat
  | '+' :: cs => (digits? cs).filter (· < bound)
  | cs => (digits? cs).filter (· < bound)

def word16? (text : String) : Option UInt16 :=
  (natural? UInt16.size text.toList).map UInt16.ofNat

def word32? (text : String) : Option UInt32 :=
  (natural? UInt32.size text.toList).map UInt32.ofNat

def word64? (text : String) : Option UInt64 :=
  (natural? UInt64.size text.toList).map UInt64.ofNat

end ServiceGovernance.Text
