import ServiceGovernance.Registry.Basic
import ServiceGovernance.Store.Basic

/-!
A registry kept in step with a coordination store. A registered endpoint is a node under
`root/interface/category`, a subscription is a set of watches on such paths, and the notices of the
watches feed the local lists. A failure of the store reaches no caller: the operation waits in the
backlog until `retry` or a new session of the store takes it up.

An operation is taken as indivisible. Between its requests nobody else uses the store, and no notice is
handled before it has ended.
-/

namespace ServiceGovernance

open Text

/-- A watched path with the queries it is watched for, each with the query narrowed to the path's
interface. -/
structure WatchedPath where
  watch : Option Nat := none
  owners : List (Endpoint × Endpoint) := []
deriving DecidableEq, Inhabited

structure Backlog where
  registered : SortedSet Endpoint := .empty
  unregistered : SortedSet Endpoint := .empty
  subscribed : SortedSet Endpoint := .empty
deriving DecidableEq, Inhabited

structure SyncedRegistry where
  root : String := "/rpc"
  retryPeriod : Nat := 5000
  mailbox : Store.Mailbox
  registry : Registry := {}
  watched : SortedMap String WatchedPath := .empty
  backlog : Backlog := {}
  running : Bool := true
deriving DecidableEq, Inhabited

/-- A synced registry with its store, and the deliveries that an operation has brought about. -/
structure Synced where
  sync : SyncedRegistry
  store : Store
  deliveries : List Delivery := []
deriving DecidableEq, Inhabited

namespace Backlog

def size (b : Backlog) : Nat := b.registered.size + b.unregistered.size + b.subscribed.size

def forget (b : Backlog) (e : Endpoint) : Backlog :=
  { b with registered := b.registered.erase e, unregistered := b.unregistered.erase e }

end Backlog

namespace SyncedRegistry

def categoryPath (root interface category : String) : String :=
  root ++ "/" ++ Percent.encode interface ++ "/" ++ category

def nodePath (root : String) (e : Endpoint) : String :=
  categoryPath root e.interface e.category ++ "/" ++ Percent.encode e.canonical

/-- The endpoint that a node's name stands for. -/
def decodeChild? (name : String) : Option Endpoint :=
  ((Percent.decode name).toOption.bind fun text => (Endpoint.parse text).toOption)

/-- The endpoints among the children, or the sentinel if there are none. -/
def decodeChildren (narrowed : Endpoint) (category : String) (names : List String) :
    List Endpoint :=
  match names.filterMap decodeChild? with
  | [] => [Endpoint.sentinel narrowed category]
  | endpoints => endpoints

def scopeTo (query : Endpoint) (interface : String) : Endpoint :=
  query.withParam "interface" interface

/-- The first of equal endpoints stays. -/
def distinct (endpoints : List Endpoint) : List Endpoint :=
  endpoints.foldl (fun seen e => if e ∈ seen then seen else seen ++ [e]) []

end SyncedRegistry

namespace Synced

open SyncedRegistry

def withBacklog (s : Synced) (backlog : Backlog) : Synced :=
  { s with sync := { s.sync with backlog } }

def withRegistry (s : Synced) (registry : Registry) : Synced :=
  { s with sync := { s.sync with registry } }

def notify (s : Synced) (updates : List Endpoint) : Synced :=
  let (registry, deliveries) := s.sync.registry.notify updates
  { s.withRegistry registry with deliveries := s.deliveries ++ deliveries }

/-- A node that is there already is as good as a new one. -/
def ensureNode (s : Synced) (path : String) (ephemeral : Bool) :
    Except Store.Error Unit × Synced :=
  match s.store.create path ephemeral with
  | (.ok (), store) => (.ok (), { s with store })
  | (.error (.nodeExists _), store) => (.ok (), { s with store })
  | (.error e, store) => (.error e, { s with store })

def writeNode (s : Synced) (e : Endpoint) : Except Store.Error Unit × Synced :=
  s.ensureNode (nodePath s.sync.root e) e.isDynamic

/-- A node that is not there, or cannot be, needs no removal. -/
def removeNode (s : Synced) (e : Endpoint) : Except Store.Error Unit × Synced :=
  match s.store.delete (nodePath s.sync.root e) with
  | (.ok (), store) => (.ok (), { s with store })
  | (.error (.noNode _), store) => (.ok (), { s with store })
  | (.error (.invalidPath _), store) => (.ok (), { s with store })
  | (.error e, store) => (.error e, { s with store })

def addOwner (w : WatchedPath) (owner narrowed : Endpoint) : WatchedPath :=
  if (owner, narrowed) ∈ w.owners then w else { w with owners := w.owners ++ [(owner, narrowed)] }

def putWatched (s : Synced) (path : String) (w : WatchedPath) : Synced :=
  { s with sync := { s.sync with watched := s.sync.watched.insert path w } }

/-- Watches a path for an owner and gives the children of this moment. A path has one watch, however
many owners it has. -/
def watchPath (s : Synced) (path : String) (owner narrowed : Endpoint) :
    Except Store.Error (List String) × Synced :=
  match s.ensureNode path false with
  | (.error e, s) => (.error e, s)
  | (.ok (), s) =>
      let w := addOwner ((s.sync.watched.get? path).getD {}) owner narrowed
      let s := s.putWatched path w
      match w.watch with
      | some _ => (s.store.getChildren path, s)
      | none =>
          match s.store.watchChildren path s.sync.mailbox with
          | (.ok (watch, children), store) =>
              (.ok children, { s with store }.putWatched path { w with watch := some watch })
          | (.error e, store) => (.error e, { s with store })

/-- The endpoints under the categories of one interface, from the categories' paths. -/
def readCategories (owner narrowed : Endpoint) :
    List String → List Endpoint → Synced → Except Store.Error (List Endpoint) × Synced
  | [], updates, s => (.ok updates, s)
  | category :: rest, updates, s =>
      match s.watchPath (categoryPath s.sync.root narrowed.interface category) owner narrowed with
      | (.error e, s) => (.error e, s)
      | (.ok children, s) =>
          readCategories owner narrowed rest (updates ++ decodeChildren narrowed category children) s

def watchCategories (s : Synced) (owner narrowed : Endpoint) : Except Store.Error Unit × Synced :=
  match readCategories owner narrowed narrowed.expandedCategories [] s with
  | (.error e, s) => (.error e, s)
  | (.ok updates, s) => (.ok (), s.notify updates)

/-- Every interface that has a node, for a query that wants all of them. -/
def watchInterfaces (query : Endpoint) :
    List String → Synced → Except Store.Error Unit × Synced
  | [], s => (.ok (), s)
  | name :: rest, s =>
      match Percent.decode name with
      | .error _ => watchInterfaces query rest s
      | .ok interface =>
          match s.watchCategories query (scopeTo query interface) with
          | (.error e, s) => (.error e, s)
          | (.ok (), s) => watchInterfaces query rest s

def watchQuery (s : Synced) (query : Endpoint) : Except Store.Error Unit × Synced :=
  if query.interface = Endpoint.anyValue then
    match s.watchPath s.sync.root query query with
    | (.error e, s) => (.error e, s)
    | (.ok names, s) => watchInterfaces query names s
  else s.watchCategories query query

def ownersOf (s : Synced) (path : String) : List (Endpoint × Endpoint) :=
  ((s.sync.watched.get? path).getD {}).owners

def knowsInterface (s : Synced) (owner narrowed : Endpoint) : Bool :=
  narrowed.expandedCategories.all fun category =>
    (s.ownersOf (categoryPath s.sync.root narrowed.interface category)).any (·.1 == owner)

def addInterface (s : Synced) (owner : Endpoint) (name : String) : Synced :=
  match Percent.decode name with
  | .error _ => s
  | .ok interface =>
      let narrowed := scopeTo owner interface
      if s.knowsInterface owner narrowed then s
      else
        match s.watchCategories owner narrowed with
        | (.ok (), s) => s
        | (.error _, s) =>
            s.withBacklog { s.sync.backlog with
              subscribed := s.sync.backlog.subscribed.add owner }

/-- Interfaces that appear under the root are watched for the queries that want all of them. -/
def handleInterfaces (s : Synced) (names : List String) : Synced :=
  (s.ownersOf s.sync.root).foldl
    (fun s owner => names.foldl (fun s name => s.addInterface owner.1 name) s) s

/-- The children of a watched path, for each of its owners. -/
def handleMembers (s : Synced) (path : String) (names : List String) : Synced :=
  if (s.sync.watched.get? path).isNone then s
  else
    let category := Store.Path.lastSegment path
    s.notify (distinct ((s.ownersOf path).flatMap fun owner =>
      decodeChildren owner.2 category names))

def handleChildren (s : Synced) (path : String) (names : List String) : Synced :=
  if path = s.sync.root then s.handleInterfaces names else s.handleMembers path names

def recoverEndpoint (s : Synced) (e : Endpoint) : Synced :=
  match s.writeNode e with
  | (.ok (), s) => s
  | (.error _, s) =>
      s.withBacklog { s.sync.backlog with registered := s.sync.backlog.registered.add e }

def recoverQuery (s : Synced) (query : Endpoint) : Synced :=
  match s.watchQuery query with
  | (.ok (), s) => s
  | (.error _, s) =>
      s.withBacklog { s.sync.backlog with subscribed := s.sync.backlog.subscribed.add query }

/-- After a lost session: the nodes are written again and the watched paths read again. -/
def recover (s : Synced) : Synced :=
  let queries := s.sync.registry.queries
  queries.foldl recoverQuery (s.sync.registry.registered.toList.foldl recoverEndpoint s)

def handleSession (s : Synced) : Store.SessionState → Synced
  | .connected | .disconnected => s
  | .reconnected => s.recover

def handle (s : Synced) : Store.Notice → Synced
  | .children _ _ path names => s.handleChildren path names
  | .session _ state => s.handleSession state

def retryRegister (s : Synced) (e : Endpoint) : Synced :=
  match s.writeNode e with
  | (.ok (), s) =>
      s.withBacklog { s.sync.backlog with registered := s.sync.backlog.registered.erase e }
  | (.error _, s) => s

def retryUnregister (s : Synced) (e : Endpoint) : Synced :=
  match s.removeNode e with
  | (.ok (), s) =>
      s.withBacklog { s.sync.backlog with unregistered := s.sync.backlog.unregistered.erase e }
  | (.error _, s) => s

def dropPending (s : Synced) (query : Endpoint) : Synced :=
  s.withBacklog { s.sync.backlog with subscribed := s.sync.backlog.subscribed.erase query }

/-- A query without listeners is not worth a retry. -/
def retrySubscribe (s : Synced) (query : Endpoint) : Synced :=
  if s.sync.registry.hasListeners query then
    match s.watchQuery query with
    | (.ok (), s) => s.dropPending query
    | (.error _, s) => s
  else s.dropPending query

/-- Each operation of the backlog once more. -/
def retry (s : Synced) : Synced :=
  let backlog := s.sync.backlog
  backlog.subscribed.toList.foldl retrySubscribe <|
    backlog.unregistered.toList.foldl retryUnregister <|
      backlog.registered.toList.foldl retryRegister s

def register (s : Synced) (e : Endpoint) : Synced :=
  let s := s.withRegistry (s.sync.registry.register e)
  let s := s.withBacklog (s.sync.backlog.forget e)
  s.recoverEndpoint e

def unregister (s : Synced) (e : Endpoint) : Synced :=
  let s := s.withRegistry (s.sync.registry.unregister e)
  let s := s.withBacklog (s.sync.backlog.forget e)
  match s.removeNode e with
  | (.ok (), s) => s
  | (.error _, s) =>
      s.withBacklog { s.sync.backlog with unregistered := s.sync.backlog.unregistered.add e }

def subscribe (s : Synced) (query : Endpoint) (listener : Listener) : Except Fault Synced :=
  match s.sync.registry.subscribe query listener with
  | .error fault => .error fault
  | .ok (registry, deliveries) =>
      .ok ({ s.withRegistry registry with
        deliveries := s.deliveries ++ deliveries }.recoverQuery query)

def withoutOwner (owner : Endpoint) (w : WatchedPath) : WatchedPath :=
  { w with owners := w.owners.filter (·.1 != owner) }

/-- The watches that nobody needs without this owner. -/
def released (s : Synced) (owner : Endpoint) : List Nat :=
  (s.sync.watched.values.filter fun w => (withoutOwner owner w).owners.isEmpty).filterMap (·.watch)

def dropWatches (s : Synced) (owner : Endpoint) : Synced :=
  let remaining := (s.sync.watched.mapValues fun _ => withoutOwner owner).filter
    fun _ w => !w.owners.isEmpty
  { s with
    sync := { s.sync with watched := remaining }
    store := (s.released owner).foldl Store.unwatch s.store }

def unsubscribe (s : Synced) (query : Endpoint) (listener : Listener) : Synced :=
  let s := s.withRegistry (s.sync.registry.unsubscribe query listener)
  if s.sync.registry.hasListeners query then s else (s.dropPending query).dropWatches query

def publishRule (s : Synced) (interface rule : String) : Endpoint × Synced :=
  let e := Endpoint.conditionRule interface rule
  (e, s.register e)

def pending (s : Synced) : Nat := s.sync.backlog.size

/-- Dynamic endpoints and all subscriptions go, and no notice is taken any more. -/
def destroy (s : Synced) : Synced :=
  let r := s.sync.registry
  let s := r.dynamicRegistered.foldl unregister s
  let s := r.subscriptions.foldl (fun s (query, listener) => s.unsubscribe query listener) s
  { s with
    sync := { s.sync with running := false }
    store := s.store.closeMailbox s.sync.mailbox }

/-- A new registry hears the session's present state first. -/
def start (store : Store) (root : String) (lookupTimeout retryPeriod : Nat) : Synced :=
  let (mailbox, store) := store.openMailbox
  { sync := { root, retryPeriod, mailbox, registry := { lookupTimeout } }
    store := store.watchState mailbox }

end Synced

end ServiceGovernance
