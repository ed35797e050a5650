import ServiceGovernance.AddressSet
import ServiceGovernance.Fault

/-!
Connections kept for reuse, at most one idle connection for each target. A returned connection stays
idle until its eviction timer fires; taking it again cancels that timer. A connection is checked out,
idle or closed, and `closed` lists the closed ones in the order of their closing.
-/

namespace ServiceGovernance

/-- What a taker holds. A handle may be copied, and given back more than once. -/
structure Handle where
  connection : Nat
  target : AddressSet
deriving DecidableEq, Inhabited

def Handle.description (h : Handle) : String :=
  "PooledConnection \x7b id: " ++ toString h.connection ++ ", addresses: " ++
    h.target.description ++ " \x7d"

structure EvictionTimer where
  serial : Nat
  handle : Handle
  due : Nat
deriving DecidableEq

structure IdleConnection where
  connection : Nat
  timer : Nat
deriving DecidableEq

structure PoolMeter where
  created : Nat := 0
  evicted : Nat := 0
  idle : Nat := 0
deriving DecidableEq, Repr, Inhabited

structure Pool where
  idleTimeout : Nat
  idle : SortedMap AddressSet IdleConnection := .empty
  out : SortedMap Nat AddressSet := .empty
  nextConnection : Nat := 1
  timers : List EvictionTimer := []
  nextTimer : Nat := 0
  closed : List Nat := []
  meter : Option PoolMeter := none
deriving DecidableEq, Inhabited

/-- A connection as it was handed out, and whether it was opened for that. -/
structure Taken where
  handle : Handle
  opened : Bool
deriving DecidableEq

namespace Pool

def gauge (p : Pool) : Pool :=
  { p with meter := p.meter.map fun m => { m with idle := p.idle.size } }

def cancel (p : Pool) (serial : Nat) : Pool :=
  { p with timers := p.timers.filter (·.serial != serial) }

/-- The idle connection of the target if there is one, else a new one if `connecting` succeeds. -/
def take (p : Pool) (target : AddressSet) (connecting : Except CallFault Unit) :
    Except CallFault Taken × Pool :=
  match p.idle.get? target with
  | some found =>
      let handle : Handle := ⟨found.connection, target⟩
      let reused := p.cancel found.timer
      (.ok ⟨handle, false⟩,
        gauge { reused with
          idle := p.idle.erase target
          out := p.out.insert found.connection target })
  | none =>
      match connecting with
      | .error fault => (.error fault, p)
      | .ok () =>
          (.ok ⟨⟨p.nextConnection, target⟩, true⟩,
            { p with
              out := p.out.insert p.nextConnection target
              nextConnection := p.nextConnection + 1
              meter := p.meter.map fun m => { m with created := m.created + 1 } })

/-- Only a connection that is checked out can be given back. It becomes idle, or is closed if another
one is idle for its target. The timer of one that becomes idle is taken to start with the return. -/
def giveBack (p : Pool) (now : Nat) (handle : Handle) : Pool :=
  if p.out.contains handle.connection then
    let returned := { p with out := p.out.erase handle.connection }
    if p.idle.contains handle.target then
      gauge { returned with closed := p.closed ++ [handle.connection] }
    else
      gauge { returned with
        idle := p.idle.insert handle.target ⟨handle.connection, p.nextTimer⟩
        timers := p.timers ++ [⟨p.nextTimer, handle, now + p.idleTimeout⟩]
        nextTimer := p.nextTimer + 1 }
  else p

/-- A timer closes its connection if that one is still idle for its target. -/
def fire (p : Pool) (timer : EvictionTimer) : Pool :=
  let spent := p.cancel timer.serial
  match p.idle.get? timer.handle.target with
  | some found =>
      if found.connection = timer.handle.connection then
        gauge { spent with
          idle := p.idle.erase timer.handle.target
          closed := p.closed ++ [found.connection]
          meter := p.meter.map fun m => { m with evicted := m.evicted + 1 } }
      else spent
  | none => spent

/-- Fires what is due by now, the earliest first: a timer is taken to fire as soon as its time is reached. -/
def fireDue (p : Pool) (now : Nat) : Pool :=
  ((p.timers.filter (·.due ≤ now)).mergeSort fun a b => a.due ≤ b.due).foldl fire p

def nextDue? (p : Pool) : Option Nat := (p.timers.map (·.due)).min?

/-- Closes every idle connection and no other one. -/
def clear (p : Pool) : Pool :=
  gauge { p with
    idle := .empty
    timers := p.timers.filter fun timer => p.idle.values.all (·.timer != timer.serial)
    closed := p.closed ++ p.idle.values.map (·.connection) }

def idleCount (p : Pool) : Nat := p.idle.size

def outCount (p : Pool) : Nat := p.out.size

def openedCount (p : Pool) : Nat := p.nextConnection - 1

end Pool

end ServiceGovernance
