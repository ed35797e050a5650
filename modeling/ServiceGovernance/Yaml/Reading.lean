import ServiceGovernance.Yaml.Token

/-!
The document that a YAML text holds. A text holds at most one document, and where a value is left out
there is a scalar without characters.
-/

namespace ServiceGovernance.Yaml

/-- Where a value stands: among the items of a list or in the field of a record, in block style or in
flow style. -/
inductive Position where
  | item
  | field
  | flowItem
  | flowField
deriving DecidableEq, Repr

def Position.inFlow : Position → Bool
  | .item | .field => false
  | .flowItem | .flowField => true

/-- The value that is left out. -/
def nothing : Document := .bare ""

/-- Whether the value before this token was left out. -/
def isLeftOut : Position → List Token → Bool
  | .item, .item :: _ | .item, .blockEnd :: _ => true
  | .field, .key :: _ | .field, .value :: _ | .field, .blockEnd :: _ => true
  | .flowItem, .value :: _ | .flowItem, .comma :: _ | .flowItem, .flowListEnd :: _ => true
  | .flowField, .value :: _ | .flowField, .comma :: _ | .flowField, .flowRecordEnd :: _ => true
  | _, _ => false

abbrev DocumentFields := List (Document × Document)

mutual

/-- Calls that take no token are followed by one that does, so three calls for each token are
enough. -/
def value? : Nat → Position → List Token → Option (Document × List Token)
  | 0, _, _ => none
  | fuel + 1, position, tokens =>
      match tokens with
      | .scalar content :: rest => some (content, rest)
      | .flowListStart :: rest => flowItems? fuel [] rest
      | .flowRecordStart :: rest => flowFields? fuel [] rest
      | .listStart :: rest => if position.inFlow then none else items? fuel [] rest
      | .recordStart :: rest => if position.inFlow then none else fields? fuel [] rest
      | .item :: _ => if position = .field then alignedItems? fuel [] tokens else none
      | _ => none

def valueOrNothing? : Nat → Position → List Token → Option (Document × List Token)
  | 0, _, _ => none
  | fuel + 1, position, tokens =>
      if isLeftOut position tokens then some (nothing, tokens) else value? fuel position tokens

/-- The value of a field, if a mark for it follows the key. -/
def afterKey? : Nat → Position → List Token → Option (Document × List Token)
  | 0, _, _ => none
  | fuel + 1, position, tokens =>
      match tokens with
      | .value :: rest => valueOrNothing? fuel position rest
      | _ => some (nothing, tokens)

/-- The items of a block list after those that have been read. -/
def items? : Nat → List Document → List Token → Option (Document × List Token)
  | 0, _, _ => none
  | fuel + 1, before, tokens =>
      match tokens with
      | .blockEnd :: rest => some (.list before, rest)
      | .item :: rest => do
          let (content, rest) ← valueOrNothing? fuel .item rest
          items? fuel (before ++ [content]) rest
      | _ => none

/-- A list in a field may stand at the column of the field's key, and has no end of its own then. -/
def alignedItems? : Nat → List Document → List Token → Option (Document × List Token)
  | 0, _, _ => none
  | fuel + 1, before, tokens =>
      match tokens with
      | .item :: rest =>
          if isLeftOut .field rest then alignedItems? fuel (before ++ [nothing]) rest
          else do
            let (content, rest) ← valueOrNothing? fuel .item rest
            alignedItems? fuel (before ++ [content]) rest
      | _ => some (.list before, tokens)

def fields? : Nat → DocumentFields → List Token → Option (Document × List Token)
  | 0, _, _ => none
  | fuel + 1, before, tokens =>
      match tokens with
      | .blockEnd :: rest => some (.record before, rest)
      | .key :: rest => do
          let (key, rest) ← valueOrNothing? fuel .field rest
          let (content, rest) ← afterKey? fuel .field rest
          fields? fuel (before ++ [(key, content)]) rest
      | _ => none

/-- The items of a list in flow style, with a comma between two and perhaps after the last one. -/
def flowItems? : Nat → List Document → List Token → Option (Document × List Token)
  | 0, _, _ => none
  | fuel + 1, before, tokens =>
      match tokens with
      | .flowListEnd :: rest => some (.list before, rest)
      | _ => do
          let (content, rest) ← flowItem? fuel tokens
          match rest with
          | .comma :: rest => flowItems? fuel (before ++ [content]) rest
          | .flowListEnd :: rest => some (.list (before ++ [content]), rest)
          | _ => none

/-- A single field among items is a record of its own. A key mark that no key follows takes the token
after it along. -/
def flowItem? : Nat → List Token → Option (Document × List Token)
  | 0, _ => none
  | fuel + 1, tokens =>
      match tokens with
      | .key :: rest => do
          let (key, rest) ←
            if isLeftOut .flowItem rest then some (nothing, rest.drop 1) else value? fuel .flowItem rest
          let (content, rest) ← afterKey? fuel .flowItem rest
          some (.record [(key, content)], rest)
      | _ => value? fuel .flowItem tokens

def flowFields? : Nat → DocumentFields → List Token → Option (Document × List Token)
  | 0, _, _ => none
  | fuel + 1, before, tokens =>
      match tokens with
      | .flowRecordEnd :: rest => some (.record before, rest)
      | _ => do
          let (field, rest) ← flowField? fuel tokens
          match rest with
          | .comma :: rest => flowFields? fuel (before ++ [field]) rest
          | .flowRecordEnd :: rest => some (.record (before ++ [field]), rest)
          | _ => none

/-- A field in flow style; one without a key mark is a key alone. -/
def flowField? : Nat → List Token → Option ((Document × Document) × List Token)
  | 0, _ => none
  | fuel + 1, tokens =>
      match tokens with
      | .key :: rest => do
          let (key, rest) ← valueOrNothing? fuel .flowField rest
          let (content, rest) ← afterKey? fuel .flowField rest
          some ((key, content), rest)
      | _ => do
          let (key, rest) ← value? fuel .flowField tokens
          some ((key, nothing), rest)

end

def fuelFor (tokens : List Token) : Nat := 3 * tokens.length + 3

def isDocumentEnd : Token → Bool
  | .documentEnd => true
  | _ => false

/-- The value of a document. A document with a start mark may be without one. -/
def documentValue? : List Token → Option (Document × List Token)
  | [] => some (nothing, [])
  | [.documentStart] => some (nothing, [])
  | .documentStart :: .documentStart :: rest => some (nothing, .documentStart :: rest)
  | .documentStart :: .documentEnd :: rest => some (nothing, .documentEnd :: rest)
  | .documentStart :: rest => value? (fuelFor rest) .item rest
  | tokens => value? (fuelFor tokens) .item tokens

/-- After the value there are at most marks of the document's end. -/
def ofTokens? (tokens : List Token) : Option Document := do
  let (content, rest) ← documentValue? tokens
  if rest.all isDocumentEnd then some content else none

end ServiceGovernance.Yaml

namespace ServiceGovernance

/-- The document of a YAML text; a text without any content has the empty scalar. -/
def Document.ofYaml? (text : String) : Option Document := do
  Yaml.ofTokens? (← Yaml.tokens? (← Yaml.characters? text))

end ServiceGovernance
