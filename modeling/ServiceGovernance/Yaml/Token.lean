import ServiceGovernance.Config.Document
import ServiceGovernance.Yaml.Scalar

/-!
The tokens of a YAML text. Indentation shows as the begin and the end of block collections. That a
token is the key of a field is known only at the colon behind it, so the marks that begin the field
are put in front of the key then. A key that needs no question mark stands on one line and is not
longer than 1024 characters.
-/

namespace ServiceGovernance.Yaml

inductive Token where
  | documentStart
  | documentEnd
  | listStart
  | recordStart
  | blockEnd
  | flowListStart
  | flowListEnd
  | flowRecordStart
  | flowRecordEnd
  | item
  | comma
  | key
  | value
  | scalar (content : Document)

/-- Where a key may have begun. In a block record at its own indentation nothing else can begin. -/
structure PossibleKey where
  token : Nat
  place : Place
  isRequired : Bool

/-- The tokens up to a place. `indents` are the columns of the open block collections, the innermost
one first, and `outerKeys` has an element for each open collection in flow style. -/
structure Lexing where
  tokens : List Token := []
  cursor : Cursor
  indents : List Nat := []
  key : Option PossibleKey := none
  outerKeys : List (Option PossibleKey) := []
  keyAllowed : Bool := true

namespace Lexing

def inFlow (s : Lexing) : Bool := !s.outerKeys.isEmpty

def place (s : Lexing) : Place := s.cursor.place

def emit (s : Lexing) (token : Token) : Lexing := { s with tokens := s.tokens ++ [token] }

/-- Appends the token that the next `length` characters make. -/
def take (s : Lexing) (length : Nat) (token : Token) : Lexing :=
  { s.emit token with cursor := s.cursor.ahead length }

def allowKey (s : Lexing) (allowed : Bool) : Lexing := { s with keyAllowed := allowed }

/-- The column that text of the innermost collection must reach. -/
def leastColumn (s : Lexing) : Nat :=
  match s.indents with
  | [] => 0
  | column :: _ => column + 1

def closeWhile (still : Nat → Bool) (s : Lexing) : Lexing :=
  { s with
    tokens := s.tokens ++ (s.indents.takeWhile still).map fun _ => .blockEnd
    indents := s.indents.dropWhile still }

/-- Closes the block collections that are indented more than the next token. -/
def closeDeeper (s : Lexing) : Lexing :=
  if s.inFlow then s else s.closeWhile (s.place.column < ·)

def closeAll (s : Lexing) : Lexing := if s.inFlow then s else s.closeWhile fun _ => true

/-- Puts the begin of a collection in front of the token with this number, where the column is deeper
than that of every open collection. -/
def openBlock (s : Lexing) (column number : Nat) (token : Token) : Lexing :=
  if s.inFlow ∨ column < s.leastColumn then s
  else
    { s with
      indents := column :: s.indents
      tokens := s.tokens.take number ++ token :: s.tokens.drop number }

/-- Where a key can begin, this may be one. -/
def markKey (s : Lexing) : Option Lexing :=
  if s.keyAllowed then
    if s.key.any (·.isRequired) then none
    else
      some { s with
        key := some {
          token := s.tokens.length
          place := s.place
          isRequired := !s.inFlow && s.indents.head? == some s.place.column } }
  else some s

/-- What was begun is not a key. -/
def dropKey (s : Lexing) : Option Lexing :=
  if s.key.any (·.isRequired) then none else some { s with key := none }

def isOutdated (place : Place) (k : PossibleKey) : Bool :=
  k.place.line < place.line || k.place.column + 1024 < place.column

/-- A key that is too long to be one is given up; a required one cannot be. -/
def expire? (place : Place) (key : Option PossibleKey) : Option (Option PossibleKey) :=
  match key with
  | none => some none
  | some k =>
      if isOutdated place k then if k.isRequired then none else some none
      else some (some k)

def expireKeys (s : Lexing) : Option Lexing := do
  let key ← expire? s.place s.key
  let outerKeys ← s.outerKeys.mapM (expire? s.place)
  some { s with key, outerKeys }

/-- Passes over blanks, comments and line ends. Tabs separate only where nothing can be indented. -/
def separation (inFlow : Bool) (inComment keyAllowed : Bool) (place : Place) :
    List Char → Bool × Cursor
  | [] => (keyAllowed, ⟨place, []⟩)
  | c :: rest =>
      if isBreak c then separation inFlow false (keyAllowed || !inFlow) place.nextLine rest
      else if inComment ∨ c = ' ' ∨ (c = '\t' ∧ (inFlow ∨ !keyAllowed)) then
        separation inFlow inComment keyAllowed (place.right 1) rest
      else if c = '#' then separation inFlow true keyAllowed (place.right 1) rest
      else (keyAllowed, ⟨place, c :: rest⟩)

def separate (s : Lexing) : Lexing :=
  let (keyAllowed, cursor) :=
    separation s.inFlow false s.keyAllowed s.place s.cursor.rest
  { s with keyAllowed, cursor }

def documentMark (s : Lexing) (token : Token) : Option Lexing := do
  let s ← s.closeAll.dropKey
  some ((s.allowKey false).take 3 token)

def openFlow (s : Lexing) (token : Token) : Option Lexing := do
  let s ← s.markKey
  some (take { s with key := none, outerKeys := s.key :: s.outerKeys, keyAllowed := true } 1 token)

def closeFlow (s : Lexing) (token : Token) : Option Lexing := do
  let s ← s.dropKey
  let left := match s.outerKeys with
    | [] => s
    | key :: outerKeys => { s with key, outerKeys }
  some ((left.allowKey false).take 1 token)

def comma (s : Lexing) : Option Lexing := do
  let s ← s.dropKey
  some ((s.allowKey true).take 1 .comma)

/-- The begin of an item or a key with a mark of its own, where one may stand. -/
def openMarked (s : Lexing) (token : Token) : Option Lexing :=
  if s.inFlow then some s
  else if s.keyAllowed then some (s.openBlock s.place.column s.tokens.length token)
  else none

def item (s : Lexing) : Option Lexing := do
  let s ← (← s.openMarked .listStart).dropKey
  some ((s.allowKey true).take 1 .item)

def markedKey (s : Lexing) : Option Lexing := do
  let s ← (← s.openMarked .recordStart).dropKey
  some ((s.allowKey !s.inFlow).take 1 .key)

/-- The colon makes a key of what has been taken for a possible key. -/
def value (s : Lexing) : Option Lexing :=
  match s.key with
  | some k =>
      let keyed := {
        s with tokens := s.tokens.take k.token ++ Token.key :: s.tokens.drop k.token }
      let opened := openBlock keyed k.place.column k.token .recordStart
      some (take { opened with key := none, keyAllowed := false } 1 .value)
  | none => do
      let s ← s.openMarked .recordStart
      some ((s.allowKey !s.inFlow).take 1 .value)

def put (s : Lexing) (content : Document) (keyAllowed : Bool) (cursor : Cursor) : Lexing :=
  { s.emit (.scalar content) with keyAllowed, cursor }

def quotedScalar (s : Lexing)
    (read : Place → Gap → String → List Char → Option (String × Cursor)) (rest : List Char) :
    Option Lexing := do
  let s ← s.markKey
  let (text, cursor) ← read (s.place.right 1) {} "" rest
  some (s.put (.text text) false cursor)

def plainScalar (s : Lexing) : Option Lexing := do
  let s ← s.markKey
  let (word, cursor, lineEnded) ←
    plain? s.inFlow s.leastColumn s.place {} "" s.cursor.rest
  some (s.put (.bare word) lineEnded cursor)

/-- Characters that have a meaning of their own, or are kept for one. -/
def indicators : List Char :=
  ['-', '?', ':', ',', '[', ']', '{', '}', '#', '&', '*', '!', '|', '>', '\'', '"', '%', '@', '\x60']

def beginsPlain (inFlow : Bool) (c : Char) (rest : List Char) : Bool :=
  !(isSpace c || indicators.contains c) || (c == '-' && !rest.head?.any isBlank) ||
    (!inFlow && (c == '?' || c == ':') && !endsWord rest)

/-- Takes the token that begins with the character `c`. -/
def takeToken (s : Lexing) (c : Char) (rest : List Char) : Option Lexing :=
  if isDocumentMark startMark s.place (c :: rest) then s.documentMark .documentStart
  else if isDocumentMark endMark s.place (c :: rest) then s.documentMark .documentEnd
  else if c = '[' then s.openFlow .flowListStart
  else if c = '{' then s.openFlow .flowRecordStart
  else if c = ']' then s.closeFlow .flowListEnd
  else if c = '}' then s.closeFlow .flowRecordEnd
  else if c = ',' then s.comma
  else if c = '-' ∧ endsWord rest then s.item
  else if c = '?' ∧ (s.inFlow ∨ endsWord rest) then s.markedKey
  else if c = ':' ∧ (s.inFlow ∨ endsWord rest) then s.value
  else if c = '\'' then s.quotedScalar single? rest
  else if c = '"' then s.quotedScalar double? rest
  else if beginsPlain s.inFlow c rest then s.plainScalar
  else none

/-- At the end everything is closed, and a key that has to be one is missing its colon. -/
def finish (s : Lexing) : Option (List Token) := do
  let s ← s.closeAll.dropKey
  some s.tokens

/-- Each step takes at least one character, so `fuel` above their number is enough. -/
def run : Nat → Lexing → Option (List Token)
  | 0, _ => none
  | fuel + 1, s => do
      let s ← s.separate.expireKeys
      let s := s.closeDeeper
      match s.cursor.rest with
      | [] => s.finish
      | c :: rest => run fuel (← s.takeToken c rest)

end Lexing

/-- The tokens of a text. What names nodes or gives them types is not taken, nor are block scalars. -/
def tokens? (cs : List Char) : Option (List Token) :=
  Lexing.run (cs.length + 1) { cursor := ⟨{}, cs⟩ }

end ServiceGovernance.Yaml
