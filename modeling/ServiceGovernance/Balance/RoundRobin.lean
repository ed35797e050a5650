import ServiceGovernance.Endpoint.Basic

/-!
Smooth weighted round robin. In one turn every entry gains its weight, the first entry with the
greatest current weight wins, and the winner pays back the sum of all weights. The entries of a
service belong to one membership, the set of the candidates' addresses: another membership starts
afresh in a new generation, the same one keeps what was gained and only takes over changed weights.
-/

namespace ServiceGovernance.Balance

structure Entry where
  key : String
  weight : Int
  current : Int := 0
deriving DecidableEq, Repr, Inhabited

namespace Entry

def raise (e : Entry) : Entry := { e with current := e.current + e.weight }

def charge (total : Int) (e : Entry) : Entry := { e with current := e.current - total }

def ofEndpoint (e : Endpoint) : Entry := { key := e.address, weight := e.weight.toNat }

end Entry

def totalWeight : List Entry → Int
  | [] => 0
  | e :: rest => e.weight + totalWeight rest

/-- The first position with the greatest current weight, and that weight. -/
def leader? : List Entry → Option (Nat × Int)
  | [] => none
  | e :: rest =>
      match leader? rest with
      | none => some (0, e.current)
      | some (position, top) =>
          if top ≤ e.current then some (0, e.current) else some (position + 1, top)

/-- One turn: the position of the winner and the entries after it. -/
def turn (entries : List Entry) : Option Nat × List Entry :=
  let raised := entries.map Entry.raise
  match leader? raised with
  | none => (none, raised)
  | some (position, _) =>
      (some position, raised.modify position (Entry.charge (totalWeight entries)))

structure Snapshot where
  generation : Nat := 0
  members : SortedSet String := .empty
  entries : List Entry := []
deriving DecidableEq, Inhabited

namespace Snapshot

def addresses (candidates : List Endpoint) : SortedSet String :=
  SortedSet.ofList (candidates.map Endpoint.address)

/-- The candidates whose address did not come before. -/
def firstOfEachAddress (seen : List String) : List Endpoint → List Endpoint
  | [] => []
  | e :: rest =>
      if e.address ∈ seen then firstOfEachAddress seen rest
      else e :: firstOfEachAddress (e.address :: seen) rest

/-- The weight of the last candidate with this address. -/
def announcedWeight? (candidates : List Endpoint) (key : String) : Option Int :=
  (candidates.reverse.find? (·.address = key)).map fun e => (e.weight.toNat : Int)

def reweigh (candidates : List Endpoint) (e : Entry) : Entry :=
  { e with weight := (announcedWeight? candidates e.key).getD e.weight }

def refresh (s : Snapshot) (candidates : List Endpoint) : Snapshot :=
  if addresses candidates = s.members then
    { s with entries := s.entries.map (reweigh candidates) }
  else {
    generation := s.generation + 1
    members := addresses candidates
    entries := (firstOfEachAddress [] candidates).map Entry.ofEndpoint }

end Snapshot

/-- The snapshots of all services that have been balanced. -/
structure RoundRobin where
  snapshots : SortedMap String Snapshot := .empty
deriving DecidableEq, Inhabited

namespace RoundRobin

def snapshot (r : RoundRobin) (service : String) : Snapshot :=
  (r.snapshots.get? service).getD {}

def generation? (r : RoundRobin) (service : String) : Option Nat :=
  (r.snapshots.get? service).map (·.generation)

/-- The winner's address picks the first candidate that has it. -/
def select (r : RoundRobin) (service : String) (candidates : List Endpoint) :
    Option Endpoint × RoundRobin :=
  if candidates.isEmpty then (none, r)
  else
    let refreshed := (r.snapshot service).refresh candidates
    let (winner, entries) := turn refreshed.entries
    let chosen := (winner.bind (entries[·]?)).bind fun e => candidates.find? (·.address = e.key)
    (chosen, ⟨r.snapshots.insert service { refreshed with entries }⟩)

end RoundRobin

end ServiceGovernance.Balance
