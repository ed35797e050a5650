import ServiceGovernance.Balance.Mode
import ServiceGovernance.Balance.RoundRobin
import ServiceGovernance.Endpoint.Wire

/-!
Picking one candidate for a call. The mode is the method's setting, else what the first candidate
announces for the method, else the interface's setting, else what the first candidate announces, else
the global one. A call in connection scope stays with the address it got before while a candidate
still has it.
-/

namespace ServiceGovernance.Balance

inductive Scope where
  | request
  | connection
deriving DecidableEq, Repr, Inhabited

structure Settings where
  global : Mode := .pickFirst
  interfaces : SortedMap String Mode := .empty
  methods : SortedMap String (SortedMap String Mode) := .empty
deriving DecidableEq, Inhabited

namespace Settings

def setGlobal (s : Settings) (mode : Mode) : Settings := { s with global := mode }

def setInterface (s : Settings) (interface : String) (mode : Mode) : Settings :=
  { s with interfaces := s.interfaces.insert interface mode }

def setMethod (s : Settings) (interface method : String) (mode : Mode) : Settings :=
  { s with methods := s.methods.update interface .empty (·.insert method mode) }

def interface? (s : Settings) (interface : String) : Option Mode := s.interfaces.get? interface

def method? (s : Settings) (interface method : String) : Option Mode :=
  (s.methods.get? interface).bind (·.get? method)

/-- What the first candidate says under `name`, if it is a mode. -/
def announced? (candidates : List Endpoint) (name : String) : Option Mode :=
  (candidates.head?.bind (·.param? name)).bind Mode.parse?

def resolve (s : Settings) (interface method : String) (candidates : List Endpoint) : Mode :=
  ((s.method? interface method).or <|
    (announced? candidates (method ++ ".loadbalance")).or <|
    (s.interface? interface).or <|
    announced? candidates "loadbalance").getD s.global

end Settings

/-- The candidate with the least canonical text, the first such one. -/
def pickFirst? : List Endpoint → Option Endpoint
  | [] => none
  | e :: rest =>
      match pickFirst? rest with
      | none => some e
      | some best => if best.canonical < e.canonical then some best else some e

structure Balancer where
  settings : Settings := {}
  roundRobin : RoundRobin := {}
  sticky : SortedMap String String := .empty
deriving DecidableEq, Inhabited

namespace Balancer

/-- The candidate that a connection-scope call stays with. -/
def remembered? (b : Balancer) (service : String) (candidates : List Endpoint) : Option Endpoint :=
  (b.sticky.get? service).bind fun address => candidates.find? (·.address = address)

def pick (b : Balancer) (mode : Mode) (service : String) (candidates : List Endpoint) :
    Option Endpoint × Balancer :=
  match mode with
  | .pickFirst => (pickFirst? candidates, b)
  | .roundRobin =>
      let (chosen, roundRobin) := b.roundRobin.select service candidates
      (chosen, { b with roundRobin })

def remember (b : Balancer) (service : String) (e : Endpoint) : Balancer :=
  { b with sticky := b.sticky.insert service e.address }

def choose (b : Balancer) (consumer : Endpoint) (method : String) (candidates : List Endpoint) :
    Option Endpoint × Balancer :=
  b.pick (b.settings.resolve consumer.interface method candidates) consumer.serviceKey candidates

def select (b : Balancer) (consumer : Endpoint) (method : String) (candidates : List Endpoint)
    (scope : Scope) : Option Endpoint × Balancer :=
  if candidates.isEmpty then (none, b)
  else
    match scope with
    | .request => b.choose consumer method candidates
    | .connection =>
        match b.remembered? consumer.serviceKey candidates with
        | some e => (some e, b)
        | none =>
            match b.choose consumer method candidates with
            | (some e, next) => (some e, next.remember consumer.serviceKey e)
            | (none, next) => (none, next)

end Balancer

end ServiceGovernance.Balance
