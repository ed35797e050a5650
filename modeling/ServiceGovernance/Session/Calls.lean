import ServiceGovernance.Session.Sites

/-!
What a session does on the way of a call: directories, the pool, and the dispatchers that join them
with the balancer and the limiter.
-/

namespace ServiceGovernance.Session.World

/-- A new directory with the listener that stands for it, not subscribed anywhere. -/
def newDirectory (w : World) (consumer : Endpoint) : Nat × Listener × World :=
  let number := w.nextDirectory
  let (listener, w) := w.openListener (.directory number)
  let w := w.putDirectory number { consumer }
  (number, listener,
    { w with
      nextDirectory := number + 1
      directoryListeners := w.directoryListeners.insert number listener })

def nameDirectory (w : World) (name : String) (number : Nat) : World :=
  { w with directoryNames := w.directoryNames.insert name number }

def directory? (w : World) (name : String) : Option (Nat × Directory) :=
  (w.directoryNames.get? name).bind fun number =>
    (w.directories.get? number).map fun d => (number, d)

def queryText (consumer : Endpoint) : Reply :=
  .text (some (Directory.query { consumer }).canonical)

def openDirectory (w : World) (consumer : Endpoint) (name : String) : Answered :=
  let (number, _, w) := w.newDirectory consumer
  (w.nameDirectory name number).answer (queryText consumer)

def subscribeDirectory (w : World) (registry : String) (consumer : Endpoint) (name : String) :
    Answered :=
  let (number, listener, w) := w.newDirectory consumer
  match w.actOn registry (Act.subscribe (Directory.query { consumer }) listener)
      (faultOutcome fun _ => queryText consumer) with
  | (.ok reply, w) => (w.nameDirectory name number).answer reply
  | (.error (.fault fault), w) => w.refuse (.call (.core fault))
  | (.error failure, w) => w.refuse failure

def unsubscribeDirectory (w : World) (registry name : String) : Answered :=
  match w.directory? name with
  | some (number, d) =>
      match w.directoryListeners.get? number with
      | some listener => w.actOn registry (Act.unsubscribe d.query listener) done
      | none => w.refuse .unknownName
  | none => w.refuse .unknownName

def notifyDirectory (w : World) (name : String) (updates : List Endpoint) : Answered :=
  match w.directory? name with
  | some (number, _) => (w.directoryHears number updates).answer .nothing
  | none => w.refuse .unknownName

def readDirectory (w : World) (name : String) (read : Directory → Reply) : Answered :=
  match w.directory? name with
  | some (_, d) => w.answer (read d)
  | none => w.refuse .unknownName

def callOutcome {α : Type} (reply : α → Reply) : Except CallFault α → Outcome
  | .ok value => .ok (reply value)
  | .error fault => .error (.call fault)

/-- A target with a refused address takes no connection. -/
def connecting (w : World) (target : AddressSet) : Except CallFault Unit :=
  if target.toList.any w.refused.contains then
    .error (.connectionFailed target.display "refused")
  else .ok ()

/-- From now on these addresses are refused and no others. -/
def refuseAddresses (w : World) (addresses : List String) : Answered :=
  { w with refused := SortedSet.ofList addresses }.answer .nothing

def keepHandle (w : World) (name : String) (handle : Handle) : World :=
  { w with handles := w.handles.insert name handle }

def view (taken : Taken) (attributes : List (String × String)) : HandleView where
  handle := taken.handle
  openedWith := if taken.opened then some attributes else none

def withPool (w : World) (pool : Pool) : World := w.updateTraffic ({ · with pool })

def take (w : World) (addresses : List String) (attributes : List (String × String))
    (name : String) : Answered :=
  let target := AddressSet.ofList addresses
  let (result, pool) := w.traffic.pool.take target (w.connecting target)
  let w := w.withPool pool
  match result with
  | .ok taken => (w.keepHandle name taken.handle).answer (.handle (view taken attributes))
  | .error fault => w.refuse (.call fault)

def counts (w : World) : Answered :=
  w.answer (.counts w.traffic.pool.idleCount w.traffic.pool.outCount)

def giveBack (w : World) (name : String) : Answered :=
  match w.handles.get? name with
  | some handle => (w.withPool (w.traffic.pool.giveBack w.time handle)).counts
  | none => w.refuse .unknownName

def clearPool (w : World) : Answered := (w.withPool w.traffic.pool.clear).counts

def describePool (w : World) : Answered :=
  let pool := w.traffic.pool
  w.answer (.pool pool.idleCount pool.outCount pool.openedCount (Text.durationText pool.idleTimeout))

def describeHandle (w : World) (name : String) : Answered :=
  match w.handles.get? name with
  | some handle => w.answer (.text (some handle.description))
  | none => w.refuse .unknownName

def openDispatcher (w : World) (directory name : String) (scope : Balance.Scope) : Answered :=
  match w.directory? directory with
  | some (number, d) =>
      { w with dispatchers := w.dispatchers.insert name (number, scope) }.answer
        (.text (some d.consumer.canonical))
  | none => w.refuse .unknownName

def dispatcher? (w : World) (name : String) : Option Dispatcher :=
  (w.dispatchers.get? name).bind fun (number, scope) =>
    (w.directories.get? number).map fun directory => { directory, scope }

/-- The results of doing the same thing `times` times. -/
def repeated {α : Type} (act : Traffic → α × Traffic) : Nat → Traffic → List α × Traffic
  | 0, t => ([], t)
  | times + 1, t =>
      let (first, t) := act t
      let (rest, t) := repeated act times t
      (first :: rest, t)

def withTraffic (w : World) (traffic : Traffic) : World := { w with traffic }

def selectProviders (w : World) (name method : String) (times : Nat) : Answered :=
  match w.dispatcher? name with
  | some d =>
      let (outcomes, traffic) := repeated (d.select method) times w.traffic
      (w.withTraffic traffic).answer (.selections outcomes)
  | none => w.refuse .unknownName

/-- A connection of a call is opened with the parameters of the chosen endpoint. -/
def connect (w : World) (name method handleName : String) : Answered :=
  match w.dispatcher? name with
  | some d =>
      let (result, traffic) := d.connect method w.connecting w.traffic
      let w := w.withTraffic traffic
      match result with
      | .ok (e, taken) =>
          (w.keepHandle handleName taken.handle).answer
            (.connection e (view taken e.params.entries))
      | .error fault => w.refuse (.call fault)
  | none => w.refuse .unknownName

def releaseHandle (w : World) (dispatcher handleName : String) : Answered :=
  match w.dispatcher? dispatcher, w.handles.get? handleName with
  | some _, some handle => (w.updateTraffic (Dispatcher.release handle w.time)).counts
  | _, _ => w.refuse .unknownName

end ServiceGovernance.Session.World
