import ServiceGovernance.Session.World

/-!
What happened since the last report: what the recording listeners heard, what the session's own
watches received, and which connections were closed. Reporting takes it out of the world.
-/

namespace ServiceGovernance.Session

structure Report where
  deliveries : SortedMap String (List (List Endpoint)) := .empty
  events : List (String × List (String × List String)) := []
  states : List (String × List Store.SessionState) := []
  closings : List Nat := []

namespace Report

/-- The calls of each listener, in their order. -/
def byListener (heard : List (String × List Endpoint)) :
    SortedMap String (List (List Endpoint)) :=
  heard.foldl (fun calls (name, endpoints) => calls.update name [] (· ++ [endpoints])) .empty

def childEvent? (mailbox : Store.Mailbox) : Store.Notice → Option (String × List String)
  | .children _ receiver path names => if receiver = mailbox then some (path, names) else none
  | .session .. => none

def state? (mailbox : Store.Mailbox) : Store.Notice → Option Store.SessionState
  | .session receiver state => if receiver = mailbox then some state else none
  | .children .. => none

def withoutIdle {α : Type} (entries : List (String × List α)) : List (String × List α) :=
  entries.filter fun entry => !entry.2.isEmpty

def eventsOf (w : World) : List (String × List (String × List String)) :=
  withoutIdle (w.observers.entries.map fun (name, observer) =>
    (name, w.store.outbox.filterMap (childEvent? observer.mailbox)))

def statesOf (w : World) : List (String × List Store.SessionState) :=
  withoutIdle (w.stateObservers.entries.map fun (name, mailbox) =>
    (name, w.store.outbox.filterMap (state? mailbox)))

def closingsOf (w : World) : List Nat :=
  (w.traffic.pool.closed.drop w.reportedClosings).mergeSort

def ofWorld (w : World) : Report where
  deliveries := byListener w.heard
  events := eventsOf w
  states := statesOf w
  closings := closingsOf w

/-- The members of a list as increasing texts, with a text of its own where a sentinel is among
them. -/
def asSet (endpoints : List Endpoint) : List String :=
  let names := (Endpoint.members endpoints).map Endpoint.canonical
  (SortedSet.ofList (if endpoints.any (·.isSentinel) then "(empty)" :: names else names)).toList

/-- The last call of each category, the first endpoint of a call telling its category. -/
def lastCalls (calls : List (List Endpoint)) : SortedMap String (List Endpoint) :=
  calls.foldl
    (fun last endpoints => last.insert ((Directory.categoryOf? endpoints).getD "") endpoints) .empty

end Report

namespace World

def isObserved (w : World) (notice : Store.Notice) : Bool :=
  w.observers.values.any (·.mailbox == notice.mailbox) ||
    w.stateObservers.values.contains notice.mailbox

def report (w : World) : Report × World :=
  (Report.ofWorld w,
    { w with
      store := { w.store with outbox := w.store.outbox.filter (!w.isObserved ·) }
      heard := []
      reportedClosings := w.traffic.pool.closed.length })

end World

end ServiceGovernance.Session
