import ServiceGovernance.Text.Cut

/-!
Paths of a tree of nodes as texts, with `/` for the root and no slash at the end. Main statements:
a child's path tells its name, and the proper ancestors of a path come from the top down.
-/

namespace ServiceGovernance.Store.Path

open Text

def rootPath : String := "/"

/-- An absolute path has no empty segment; the root alone ends in a slash. -/
def isValidChars (path : List Char) : Bool :=
  path.head? == some '/' && (path.length ≤ 1 || path.getLast? != some '/') &&
    !occurs ['/', '/'] path

def isValid (path : String) : Bool := isValidChars path.toList

def parentChars? (path : List Char) : Option (List Char) :=
  match cutLast '/' path with
  | none => none
  | some ([], []) => none
  | some ([], _) => some ['/']
  | some (parent, _) => some parent

def parent? (path : String) : Option String := (parentChars? path.toList).map String.ofList

def childLead (path : List Char) : List Char := if path = ['/'] then path else path ++ ['/']

/-- What the paths below `path` begin with. -/
def lead (path : String) : String := String.ofList (childLead path.toList)

/-- The name under which `key` is a child of `path`, if it is one. -/
def childName? (path key : String) : Option String :=
  match after? (childLead path.toList) key.toList with
  | some name => if name = [] ∨ '/' ∈ name then none else some (String.ofList name)
  | none => none

def isBelow (path key : String) : Bool := (after? (childLead path.toList) key.toList).isSome

/-- The texts before each slash but the first, `before` being what has been passed. -/
def ancestorsFrom (before : List Char) : List Char → List (List Char)
  | [] => []
  | c :: rest =>
      if c = '/' ∧ before ≠ [] then before :: ancestorsFrom (before ++ [c]) rest
      else ancestorsFrom (before ++ [c]) rest

/-- The proper ancestors other than the root, from the top down. -/
def ancestors (path : String) : List String :=
  (ancestorsFrom [] path.toList).map String.ofList

/-- The last segment of a path. -/
def lastSegment (path : String) : String :=
  match cutLast '/' path.toList with
  | some (_, name) => String.ofList name
  | none => path

end ServiceGovernance.Store.Path
