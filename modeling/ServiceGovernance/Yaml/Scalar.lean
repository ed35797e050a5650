import ServiceGovernance.Yaml.Layout

/-!
Scalars, with quotes or without. Blank space inside a scalar is folded: on one line it stands as it
is written, one line end stands for a space, and of several line ends the first one is dropped.
-/

namespace ServiceGovernance.Yaml

/-- Blank space between two words of a scalar. -/
structure Gap where
  blanks : String := ""
  firstBreak : Option Char := none
  moreBreaks : String := ""
  isBroken : Bool := false

namespace Gap

def isOpen (g : Gap) : Bool := g.isBroken || !g.blanks.isEmpty

/-- Blanks after a line end are indentation, and say nothing. -/
def add (g : Gap) (c : Char) : Gap :=
  if isBreak c then
    if g.isBroken then { g with moreBreaks := g.moreBreaks.push c }
    else { firstBreak := some c, isBroken := true }
  else if g.isBroken then g
  else { g with blanks := g.blanks.push c }

/-- The gap after a line end that a backslash takes away. -/
def escaped : Gap := { isBroken := true }

def text (g : Gap) : String :=
  if g.isBroken then
    match g.firstBreak with
    | some '\n' => if g.moreBreaks.isEmpty then " " else g.moreBreaks
    | some c => "".push c ++ g.moreBreaks
    | none => g.moreBreaks
  else g.blanks

end Gap

/-- What stands for itself or has a one-letter name after a backslash. -/
def escape? : Char → Option Char
  | '0' => some '\x00' | 'a' => some '\x07' | 'b' => some '\x08'
  | 't' => some '\t' | '\t' => some '\t' | 'n' => some '\n'
  | 'v' => some '\x0b' | 'f' => some '\x0c' | 'r' => some '\r'
  | 'e' => some '\x1b' | ' ' => some ' ' | '"' => some '"'
  | '/' => some '/' | '\\' => some '\\' | 'N' => some '\u0085'
  | '_' => some '\u00a0' | 'L' => some '\u2028' | 'P' => some '\u2029'
  | _ => none

/-- How many hexadecimal digits follow such a letter. -/
def escapeWidth? : Char → Option Nat
  | 'x' => some 2 | 'u' => some 4 | 'U' => some 8
  | _ => none

def hexDigit? (c : Char) : Option Nat :=
  let n := c.toNat
  if 0x30 ≤ n ∧ n ≤ 0x39 then some (n - 0x30)
  else if 0x61 ≤ n ∧ n ≤ 0x66 then some (n - 0x61 + 10)
  else if 0x41 ≤ n ∧ n ≤ 0x46 then some (n - 0x41 + 10)
  else none

def codeFrom? (value : Nat) : List Char → Option Nat
  | [] => some value
  | c :: rest => (hexDigit? c).bind fun digit => codeFrom? (16 * value + digit) rest

/-- The character with the code point that exactly `width` digits give. -/
def codeChar? (width : Nat) (cs : List Char) : Option Char :=
  if (cs.take width).length = width then
    (codeFrom? 0 (cs.take width)).bind fun code =>
      if code.isValidChar then some (Char.ofNat code) else none
  else none

/-- After the opening quote, up to the first quote that is not written twice. -/
def single? (place : Place) (gap : Gap) (text : String) : List Char → Option (String × Cursor)
  | [] => none
  | c :: rest =>
      if atDocumentMark place (c :: rest) then none
      else if isSpace c then single? (place.past c) (gap.add c) text rest
      else if c = '\'' then
        match rest with
        | '\'' :: rest => single? (place.right 2) {} ((text ++ gap.text).push '\'') rest
        | rest => some (text ++ gap.text, ⟨place.right 1, rest⟩)
      else single? (place.right 1) {} ((text ++ gap.text).push c) rest

/-- After the opening quote, up to the first quote that no backslash stands before. -/
def double? (place : Place) (gap : Gap) (text : String) : List Char → Option (String × Cursor)
  | [] => none
  | c :: rest =>
      if atDocumentMark place (c :: rest) then none
      else if isSpace c then double? (place.past c) (gap.add c) text rest
      else if c = '"' then some (text ++ gap.text, ⟨place.right 1, rest⟩)
      else if c = '\\' then
        match rest with
        | [] => none
        | e :: rest =>
            if isBreak e then double? place.nextLine Gap.escaped (text ++ gap.text) rest
            else
              match escape? e, escapeWidth? e with
              | some named, _ => double? (place.right 2) {} ((text ++ gap.text).push named) rest
              | none, some width =>
                  match codeChar? width rest with
                  | some coded =>
                      double? (place.right (2 + width)) {} ((text ++ gap.text).push coded)
                        (rest.drop width)
                  | none => none
              | none, none => none
      else double? (place.right 1) {} ((text ++ gap.text).push c) rest
termination_by cs => cs.length
decreasing_by all_goals (simp only [List.length_cons, List.length_drop]; omega)

def flowMarks : List Char := [',', '[', ']', '{', '}']

/-- A colon ends a word where a value may follow it, and so do the marks of a collection in flow
style. -/
def endsPlain (inFlow : Bool) (c : Char) (rest : List Char) : Bool :=
  (c == ':' && endsWord rest) || (inFlow && flowMarks.contains c)

def isStrayColon (inFlow : Bool) (c : Char) (rest : List Char) : Bool :=
  inFlow && c == ':' && rest.head?.any fun next => next == '?' || flowMarks.contains next

/-- Where a new word would stand, the scalar may be over: before a comment, a document's mark, or text
that is indented less. -/
def endsBeforeWord (inFlow : Bool) (indent : Nat) (place : Place) (rest : List Char) : Bool :=
  rest.head? == some '#' || atDocumentMark place rest || (!inFlow && place.column < indent)

/-- A scalar without quotes whose lines have to be indented by `indent`, with the place after it, and
whether a line ended there. -/
def plain? (inFlow : Bool) (indent : Nat) (place : Place) (gap : Gap) (text : String) :
    List Char → Option (String × Cursor × Bool)
  | [] => some (text, ⟨place, []⟩, gap.isBroken)
  | c :: rest =>
      if isSpace c then
        if c = '\t' ∧ gap.isBroken ∧ place.column < indent then none
        else plain? inFlow indent (place.past c) (gap.add c) text rest
      else if gap.isOpen && endsBeforeWord inFlow indent place (c :: rest) then
        some (text, ⟨place, c :: rest⟩, gap.isBroken)
      else if isStrayColon inFlow c rest then none
      else if endsPlain inFlow c rest then some (text, ⟨place, c :: rest⟩, gap.isBroken)
      else plain? inFlow indent (place.right 1) {} ((text ++ gap.text).push c) rest

end ServiceGovernance.Yaml
