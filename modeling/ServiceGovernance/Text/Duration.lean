/-!
Lengths of time as messages show them. Times are whole milliseconds; from one second on the text
counts seconds, with as many decimals as are needed.
-/

namespace ServiceGovernance.Text

/-- The three decimals of a thousandth part, without the zeros at the end. -/
def thousandths (n : Nat) : List Char :=
  let digits := [n / 100 % 10, n / 10 % 10, n % 10].map Nat.digitChar
  (digits.reverse.dropWhile (· = '0')).reverse

def durationText (milliseconds : Nat) : String :=
  if milliseconds = 0 then "0ns"
  else if milliseconds < 1000 then s!"{milliseconds}ms"
  else
    let seconds := milliseconds / 1000
    match thousandths (milliseconds % 1000) with
    | [] => s!"{seconds}s"
    | decimals => s!"{seconds}." ++ String.ofList decimals ++ "s"

end ServiceGovernance.Text
