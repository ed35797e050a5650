import ServiceGovernance.Fault
import ServiceGovernance.SortedMap

/-!
Consumer-side limits on requests per window. A window is one second long and starts anew with the
first request that comes more than a second after its start. Names without a limit, or with one that
is not positive, are not counted.
-/

namespace ServiceGovernance.Admission

def windowMilliseconds : Nat := 1000

structure RateWindow where
  max : Int
  start : Nat
  count : Nat := 0
deriving DecidableEq, Repr

structure RateLimiter where
  windows : SortedMap String RateWindow := .empty
deriving DecidableEq, Inhabited

namespace RateWindow

def refresh (w : RateWindow) (now : Nat) : RateWindow :=
  if now - w.start > windowMilliseconds then { w with start := now, count := 0 } else w

/-- The window after one more request, or none if it is full. -/
def admit? (w : RateWindow) : Option RateWindow :=
  if (w.count : Int) ≥ w.max then none else some { w with count := w.count + 1 }

end RateWindow

namespace RateLimiter

/-- A known name keeps its window and its count. -/
def configure (l : RateLimiter) (now : Nat) (name : String) (max : Int) : RateLimiter :=
  ⟨l.windows.update name { max, start := now } fun w => { w with max }⟩

def limit? (l : RateLimiter) (name : String) : Option Int := (l.windows.get? name).map (·.max)

def add (l : RateLimiter) (now : Nat) (name : String) : Except CallFault Unit × RateLimiter :=
  match l.windows.get? name with
  | none => (.ok (), l)
  | some window =>
      if window.max ≤ 0 then (.ok (), l)
      else
        let refreshed := window.refresh now
        match refreshed.admit? with
        | some counted => (.ok (), ⟨l.windows.insert name counted⟩)
        | none => (.error (.rejected .rate name window.max), ⟨l.windows.insert name refreshed⟩)

end RateLimiter

end ServiceGovernance.Admission
