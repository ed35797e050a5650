import ServiceGovernance.Endpoint.Basic
import ServiceGovernance.Fault

/-!
The canonical text `protocol://host:port/path?name=value&…` of an endpoint, and reading it. A host
with a colon stands in brackets, parameters are percent encoded and come in the order of their names.
Reading takes a first `://`, then a first `?`, then a first `/`, and of the rest the last `:`.
-/

namespace ServiceGovernance.Endpoint

open Text

def paramChars (param : String × String) : List Char :=
  Percent.encodeChars param.1.toList ++ '=' :: Percent.encodeChars param.2.toList

def queryChars : List (String × String) → List Char
  | [] => []
  | first :: rest =>
      '?' :: paramChars first ++ rest.flatMap fun param => '&' :: paramChars param

def canonicalChars (e : Endpoint) : List Char :=
  e.protocol.toList ++ "://".toList ++ addressChars e.host.toList e.port ++
    (if e.path = "" then [] else '/' :: e.path.toList) ++ queryChars e.params.entries

def canonical (e : Endpoint) : String := String.ofList (canonicalChars e)

/-- The host and the text of the port. -/
def splitAuthority : List Char → Except Defect (List Char × List Char)
  | '[' :: bracketed =>
      match cut [']'] bracketed with
      | none => .error .unterminatedHost
      | some (_, []) => .error .missingPort
      | some (host, ':' :: port) => .ok (host, port)
      | some _ => .error .textAfterHost
  | authority =>
      match cutLast ':' authority with
      | none => .error .missingPort
      | some halves => .ok halves

def readAuthority (authority : List Char) : Except Defect (String × UInt16) := do
  let (host, port) ← splitAuthority authority
  match natural? UInt16.size port with
  | some port => .ok (String.ofList host, UInt16.ofNat port)
  | none => .error (.invalidPort (String.ofList authority))

/-- A fault in an escape speaks of the component, any other one of the whole input. -/
def readComponent (component : List Char) : Except Fault String :=
  match Percent.decodeChars component with
  | .ok text => .ok (String.ofList text)
  | .error defect => .error (.invalidEndpoint (String.ofList component) (.escape defect))

def readParam (input : String) (pair : List Char) : Except Fault (String × String) :=
  match cut ['='] pair with
  | none => .error (.invalidEndpoint input (.missingValue (String.ofList pair)))
  | some (name, value) => do
      let name ← readComponent name
      if name = "" then .error (.invalidEndpoint input .emptyName)
      else do
        let value ← readComponent value
        .ok (name, value)

/-- Of two values for one name the later one stays. -/
def readParams (input : String) (params : SortedMap String String) :
    List (List Char) → Except Fault (SortedMap String String)
  | [] => .ok params
  | pair :: pairs => do
      let (name, value) ← readParam input pair
      readParams input (params.insert name value) pairs

def queryPairs (query : List Char) : List (List Char) := (pieces '&' query).filter (· ≠ [])

def parse (input : String) : Except Fault Endpoint :=
  let refuse {α : Type} (defect : Defect) : Except Fault α :=
    .error (.invalidEndpoint input defect)
  match cut "://".toList input.toList with
  | none => refuse .missingSeparator
  | some ([], _) => refuse .emptyProtocol
  | some (protocol, rest) =>
      let (head, query) := (cut ['?'] rest).getD (rest, [])
      let (authority, path) := (cut ['/'] head).getD (head, [])
      match readAuthority authority with
      | .error defect => refuse defect
      | .ok (host, port) => do
          let params ← readParams input .empty (queryPairs query)
          .ok {
            protocol := String.ofList protocol
            host := host
            port := port
            path := String.ofList path
            params := params }

/-- Texts in the order given; the first that is no endpoint decides. -/
def parseAll : List String → Except Fault (List Endpoint)
  | [] => .ok []
  | text :: texts => do
      let e ← parse text
      let rest ← parseAll texts
      .ok (e :: rest)

end ServiceGovernance.Endpoint
