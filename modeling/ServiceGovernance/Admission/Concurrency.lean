import ServiceGovernance.Fault
import ServiceGovernance.SortedMap

/-!
Provider-side limits on requests in flight. A limit of zero admits everybody, and a name that nobody
has spoken of has no limit and no request.
-/

namespace ServiceGovernance.Admission

structure ActiveCounter where
  max : UInt32 := 0
  current : UInt32 := 0
deriving DecidableEq, Repr, Inhabited

namespace ActiveCounter

def isFull (c : ActiveCounter) : Bool := c.max != 0 && c.current ≥ c.max

def increase? (c : ActiveCounter) : Option ActiveCounter :=
  if c.isFull then none else some { c with current := c.current + 1 }

/-- A count never drops below zero. -/
def decrease (c : ActiveCounter) : ActiveCounter :=
  if c.current = 0 then c else { c with current := c.current - 1 }

end ActiveCounter

structure ConcurrencyLimiter where
  counters : SortedMap String ActiveCounter := .empty
deriving DecidableEq, Inhabited

namespace ConcurrencyLimiter

def methodScope (interface method : String) : String := interface ++ "#" ++ method

def counter (l : ConcurrencyLimiter) (name : String) : ActiveCounter :=
  (l.counters.get? name).getD {}

def put (l : ConcurrencyLimiter) (name : String) (c : ActiveCounter) : ConcurrencyLimiter :=
  ⟨l.counters.insert name c⟩

def configure (l : ConcurrencyLimiter) (name : String) (max : UInt32) : ConcurrencyLimiter :=
  l.put name { l.counter name with max }

def active (l : ConcurrencyLimiter) (name : String) : UInt32 := (l.counter name).current

def rejection (l : ConcurrencyLimiter) (name : String) : CallFault :=
  .rejected .concurrency name (l.counter name).max.toNat

def check (l : ConcurrencyLimiter) (name : String) : Except CallFault Unit :=
  if (l.counter name).isFull then .error (l.rejection name) else .ok ()

def increase (l : ConcurrencyLimiter) (name : String) : Bool × ConcurrencyLimiter :=
  match (l.counter name).increase? with
  | some counted => (true, l.put name counted)
  | none => (false, l)

def decrease (l : ConcurrencyLimiter) (name : String) : ConcurrencyLimiter :=
  l.put name (l.counter name).decrease

/-- The name is the permit: giving it back is one `decrease` under that name. -/
def acquire (l : ConcurrencyLimiter) (name : String) :
    Except CallFault String × ConcurrencyLimiter :=
  match l.increase name with
  | (true, next) => (.ok name, next)
  | (false, next) => (.error (l.rejection name), next)

end ConcurrencyLimiter

end ServiceGovernance.Admission
