/-!
The layout of a YAML text: which characters may stand in it, where its lines end, and the place of a
character. All line ends but the two Unicode separators are read as one newline character, so that
what comes after sees a break as a single character.
-/

namespace ServiceGovernance.Yaml

/-- Control characters other than tab and line ends do not stand in a text, and a mark of byte order
stands only before it. -/
def isAllowed (c : Char) : Bool :=
  let n := c.toNat
  n == 0x09 || n == 0x0A || n == 0x0D || (0x20 ≤ n && n ≤ 0x7E) || n == 0x85 ||
    (0xA0 ≤ n && n ≤ 0xFFFD && n != 0xFEFF) || 0x10000 ≤ n

def isBreak (c : Char) : Bool := c == '\n' || c == '\u2028' || c == '\u2029'

def isBlank (c : Char) : Bool := c == ' ' || c == '\t'

def isSpace (c : Char) : Bool := isBlank c || isBreak c

/-- Whether a word could not go on here. -/
def endsWord : List Char → Bool
  | [] => true
  | c :: _ => isSpace c

def foldBreaks : List Char → List Char
  | [] => []
  | '\r' :: '\n' :: rest => '\n' :: foldBreaks rest
  | c :: rest => (if c = '\r' ∨ c = '\u0085' then '\n' else c) :: foldBreaks rest

/-- The characters of a text without its mark of byte order, if all of them are allowed. -/
def characters? (text : String) : Option (List Char) :=
  let body := match text.toList with
    | '\uFEFF' :: rest => rest
    | cs => cs
  if body.all isAllowed then some (foldBreaks body) else none

structure Place where
  line : Nat := 0
  column : Nat := 0
deriving DecidableEq, Repr

namespace Place

def right (p : Place) (count : Nat) : Place := { p with column := p.column + count }

def nextLine (p : Place) : Place := ⟨p.line + 1, 0⟩

def past (p : Place) (c : Char) : Place := if isBreak c then p.nextLine else p.right 1

end Place

/-- A place in the text and what comes from there on. -/
structure Cursor where
  place : Place
  rest : List Char

namespace Cursor

def ahead (c : Cursor) (count : Nat) : Cursor := ⟨c.place.right count, c.rest.drop count⟩

end Cursor

/-- Three characters at the start of a line that stand for the start or the end of a document. -/
def isDocumentMark (mark : List Char) (place : Place) (rest : List Char) : Bool :=
  place.column == 0 && rest.take 3 == mark && endsWord (rest.drop 3)

def startMark : List Char := ['-', '-', '-']

def endMark : List Char := ['.', '.', '.']

def atDocumentMark (place : Place) (rest : List Char) : Bool :=
  isDocumentMark startMark place rest || isDocumentMark endMark place rest

end ServiceGovernance.Yaml
