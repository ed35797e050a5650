import ServiceGovernance.Text.Cut

/-!
Patterns for attribute values. A `*` stands for any text, also for none. A pattern with a `*` among
other characters is kept as the pieces between its stars: the first piece starts the value, the last
one ends it, and the others follow each other in between, each at its first occurrence.
-/

namespace ServiceGovernance.Routing

open Text

inductive Pattern where
  | any
  | exact (text : List Char)
  | pieces (first : List Char) (middle : List (List Char)) (last : List Char)
deriving DecidableEq, Repr

namespace Pattern

def ofPieces : List (List Char) → Pattern
  | [] => .any
  | [text] => .exact text
  | first :: piece :: rest =>
      .pieces first ((piece :: rest).dropLast) ((piece :: rest).getLast (by simp))

def ofText (raw : List Char) : Pattern :=
  if raw.all (· = '*') then .any else ofPieces (Text.pieces '*' raw)

/-- What is left of the value after the pieces, each taken at its first occurrence. -/
def skip : List (List Char) → List Char → Option (List Char)
  | [], value => some value
  | piece :: rest, value =>
      match cut piece value with
      | some (_, remaining) => skip rest remaining
      | none => none

def accepts : Pattern → List Char → Bool
  | .any, _ => true
  | .exact text, value => value == text
  | .pieces first middle last, value =>
      match (after? first value).bind (skip middle) with
      | some remaining => last.isSuffixOf remaining
      | none => false

end Pattern

end ServiceGovernance.Routing
