import ServiceGovernance.Registry.Synced
import ServiceGovernance.Traffic

/-!
A session is one world of registries, directories, dispatchers and the live components, over one
store and one virtual time. What runs in the background is a queue of ready tasks: a synced registry
takes its notices, a lookup goes on when it has been told something or has waited long enough, and a
timer makes its task ready when it is due.
-/

namespace ServiceGovernance.Session

/-- Who hears what goes to a listener. -/
inductive Hearer where
  | recorder (name : String)
  | directory (number : Nat)
  | lookup (number : Nat)
deriving DecidableEq, Repr

inductive Site where
  | single (registry : Registry)
  | synced (sync : SyncedRegistry) (nextRetry : Nat)
deriving DecidableEq, Inhabited

namespace Site

def registry : Site → Registry
  | .single registry => registry
  | .synced sync _ => sync.registry

end Site

inductive LookupStage where
  | fresh
  | waiting (listener : Listener) (deadline : Nat)
  | finished (answer : Except Fault (List Endpoint))

/-- A lookup in the background goes on by itself; any other one is carried on by who waits for it. -/
structure Lookup where
  site : Nat
  query : Endpoint
  inBackground : Bool
  told : Bool := false
  stage : LookupStage := .fresh

namespace Lookup

def isPending (l : Lookup) : Bool :=
  match l.stage with
  | .finished _ => false
  | .fresh | .waiting .. => true

def deadline? (l : Lookup) : Option Nat :=
  match l.stage with
  | .waiting _ deadline => some deadline
  | .fresh | .finished _ => none

end Lookup

inductive Task where
  | members (site : Nat)
  | session (site : Nat)
  | lookup (number : Nat)
deriving DecidableEq, Repr

/-- A watch that the session itself holds on the store. -/
structure Observer where
  mailbox : Store.Mailbox
  watch : Nat
deriving DecidableEq, Repr

structure World where
  store : Store := {}
  time : Nat := 0
  traffic : Traffic
  clockIsManual : Bool := true
  sites : SortedMap Nat Site := .empty
  nextSite : Nat := 0
  siteNames : SortedMap String Nat := .empty
  hearers : SortedMap Nat Hearer := .empty
  nextListener : Nat := 0
  recorders : SortedMap String Listener := .empty
  heard : List (String × List Endpoint) := []
  directories : SortedMap Nat Directory := .empty
  directoryListeners : SortedMap Nat Listener := .empty
  nextDirectory : Nat := 0
  directoryNames : SortedMap String Nat := .empty
  dispatchers : SortedMap String (Nat × Balance.Scope) := .empty
  lookups : SortedMap Nat Lookup := .empty
  nextLookup : Nat := 0
  lookupNames : SortedMap String Nat := .empty
  handles : SortedMap String Handle := .empty
  permits : SortedMap String String := .empty
  observers : SortedMap String Observer := .empty
  stateObservers : SortedMap String Store.Mailbox := .empty
  refused : SortedSet String := .empty
  ready : List Task := []
  reportedClosings : Nat := 0

structure Options where
  metered : Bool := true
  clock : Option UInt64 := some 0
  idleTimeout : Nat := 60000
  global : Balance.Mode := .pickFirst

def World.ofOptions (o : Options) : World where
  traffic := {
    balancer := { settings := { global := o.global } }
    pool := {
      idleTimeout := o.idleTimeout
      meter := if o.metered then some {} else none }
    metered := o.metered
    now := o.clock.getD 0 }
  clockIsManual := o.clock.isSome

namespace World

def wake (w : World) (task : Task) : World :=
  if task ∈ w.ready then w else { w with ready := w.ready ++ [task] }

/-- The task that a notice is for, if a synced registry that still runs has its mailbox. -/
def taskOf? (w : World) (notice : Store.Notice) : Option Task :=
  w.sites.entries.findSome? fun (number, site) =>
    match site with
    | .single _ => none
    | .synced sync _ =>
        if sync.running && sync.mailbox == notice.mailbox then
          match notice with
          | .children .. => some (.members number)
          | .session .. => some (.session number)
        else none

def wakeNotified (w : World) : World :=
  (w.store.outbox.filterMap w.taskOf?).foldl wake w

def updateTraffic (w : World) (f : Traffic → Traffic) : World :=
  { w with traffic := f w.traffic }

def putDirectory (w : World) (number : Nat) (d : Directory) : World :=
  { w with directories := w.directories.insert number d }

def directoryHears (w : World) (number : Nat) (endpoints : List Endpoint) : World :=
  match w.directories.get? number with
  | some d =>
      (w.putDirectory number (d.receive endpoints)).updateTraffic (·.countNotification endpoints)
  | none => w

def lookupHears (w : World) (number : Nat) : World :=
  match w.lookups.get? number with
  | some l =>
      let w := { w with lookups := w.lookups.insert number { l with told := true } }
      if l.inBackground then w.wake (.lookup number) else w
  | none => w

def hear (w : World) (d : Delivery) : World :=
  match w.hearers.get? d.listener with
  | some (.recorder name) => { w with heard := w.heard ++ [(name, d.endpoints)] }
  | some (.directory number) => w.directoryHears number d.endpoints
  | some (.lookup number) => w.lookupHears number
  | none => w

def openListener (w : World) (hearer : Hearer) : Listener × World :=
  (w.nextListener,
    { w with
      hearers := w.hearers.insert w.nextListener hearer
      nextListener := w.nextListener + 1 })

/-- The listener that records under a name; it is there from its first mention on. -/
def recorder (w : World) (name : String) : Listener × World :=
  match w.recorders.get? name with
  | some listener => (listener, w)
  | none =>
      let (listener, w) := w.openListener (.recorder name)
      (listener, { w with recorders := w.recorders.insert name listener })

def putSite (w : World) (number : Nat) (site : Site) : World :=
  { w with sites := w.sites.insert number site }

/-- What a registry of either kind can be asked to do. -/
structure Act (α : Type) where
  onRegistry : Registry → α × Registry × List Delivery
  onSynced : Synced → α × Synced

/-- Lets a registry act: its store takes part, and its deliveries are heard. -/
def act {α : Type} (w : World) (number : Nat) (site : Site) (a : Act α) : α × World :=
  match site with
  | .single registry =>
      let (answer, registry, deliveries) := a.onRegistry registry
      (answer, deliveries.foldl hear (w.putSite number (.single registry)))
  | .synced sync nextRetry =>
      let (answer, s) := a.onSynced { sync, store := w.store }
      let w := { w.putSite number (.synced s.sync nextRetry) with store := s.store }
      (answer, (s.deliveries.foldl hear w).wakeNotified)

/-- A registry is in use while it has a name or a lookup goes on in it. -/
def isInUse (w : World) (number : Nat) : Bool :=
  w.siteNames.values.contains number ||
    w.lookups.values.any fun l => l.site == number && l.isPending

/-- Without use a registry is gone, and what is sent to its mailbox reaches nobody. -/
def release (w : World) (number : Nat) : World :=
  if w.isInUse number then w
  else
    match w.sites.get? number with
    | some (.synced sync _) =>
        { w with
          store := w.store.closeMailbox sync.mailbox
          sites := w.sites.erase number }
    | some (.single _) | none => { w with sites := w.sites.erase number }

def silently {α : Type} (f : Registry → Registry) (answer : α) :
    Registry → α × Registry × List Delivery :=
  fun registry => (answer, f registry, [])

namespace Act

def register (e : Endpoint) : Act Unit where
  onRegistry := silently (·.register e) ()
  onSynced s := ((), s.register e)

def unregister (e : Endpoint) : Act Unit where
  onRegistry := silently (·.unregister e) ()
  onSynced s := ((), s.unregister e)

def notify (updates : List Endpoint) : Act Unit where
  onRegistry r := ((), r.notify updates)
  onSynced s := ((), s.notify updates)

def subscribe (query : Endpoint) (listener : Listener) : Act (Except Fault Unit) where
  onRegistry r :=
    match r.subscribe query listener with
    | .ok (r, deliveries) => (.ok (), r, deliveries)
    | .error fault => (.error fault, r, [])
  onSynced s :=
    match s.subscribe query listener with
    | .ok s => (.ok (), s)
    | .error fault => (.error fault, s)

def unsubscribe (query : Endpoint) (listener : Listener) : Act Unit where
  onRegistry := silently (·.unsubscribe query listener) ()
  onSynced s := ((), s.unsubscribe query listener)

def destroy : Act Unit where
  onRegistry := silently Registry.destroy ()
  onSynced s := ((), s.destroy)

end Act

end World

end ServiceGovernance.Session
