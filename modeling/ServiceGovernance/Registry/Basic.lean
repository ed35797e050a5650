import ServiceGovernance.Endpoint.Matching
import ServiceGovernance.Endpoint.Order
import ServiceGovernance.Endpoint.Wire
import ServiceGovernance.Text.Duration

/-!
A registry holds the endpoints that are registered here, the listeners of each query, and for each
query the last known list of every category. An update replaces, per category, the members of the
interfaces it speaks of; each changed list goes whole to the query's listeners.
-/

namespace ServiceGovernance

abbrev Listener := Nat

/-- The list of one category on its way to a listener of a query. -/
structure Delivery where
  query : Endpoint
  listener : Listener
  endpoints : List Endpoint
deriving DecidableEq

abbrev CategoryLists := SortedMap String (List Endpoint)

structure Registry where
  registered : SortedSet Endpoint := .empty
  subscribed : SortedMap Endpoint (List Listener) := .empty
  notified : SortedMap Endpoint CategoryLists := .empty
  lookupTimeout : Nat := 5000
deriving DecidableEq, Inhabited

namespace Registry

/-- Sentinels count only where there is nothing else. -/
def withoutIdleSentinels (endpoints : List Endpoint) : List Endpoint :=
  if (Endpoint.members endpoints).isEmpty then endpoints else Endpoint.members endpoints

/-- Endpoints of interfaces that the update does not speak of stay; the interface `*` speaks of all. -/
def kept (cached update : List Endpoint) : List Endpoint :=
  let interfaces := update.map Endpoint.interface
  if Endpoint.anyValue ∈ interfaces then []
  else cached.filter fun e => !interfaces.contains e.interface

def merge (cached update : List Endpoint) : List Endpoint :=
  withoutIdleSentinels (kept cached update ++ update)

def byCategory (endpoints : List Endpoint) : CategoryLists :=
  endpoints.foldl (fun lists e => lists.update e.category [] (· ++ [e])) .empty

def cacheOf (r : Registry) (query : Endpoint) : CategoryLists :=
  (r.notified.get? query).getD .empty

/-- The new lists that an update brings to a query, none for a category it does not touch. -/
def freshLists (r : Registry) (query : Endpoint) (updates : List Endpoint) : CategoryLists :=
  (byCategory (updates.filter query.admits)).mapValues fun category update =>
    merge (((r.cacheOf query).get? category).getD []) update

def overlay (lists fresh : CategoryLists) : CategoryLists :=
  fresh.entries.foldl (fun lists entry => lists.insert entry.1 entry.2) lists

/-- Each subscription that the update touches, with its listeners and its new lists. -/
def touched (r : Registry) (updates : List Endpoint) :
    List (Endpoint × List Listener × CategoryLists) :=
  (r.subscribed.entries.map fun (query, listeners) =>
    (query, listeners, r.freshLists query updates)).filter fun entry => !entry.2.2.entries.isEmpty

def deliveriesOf (query : Endpoint) (listeners : List Listener) (lists : CategoryLists) :
    List Delivery :=
  lists.values.flatMap fun endpoints => listeners.map fun listener => ⟨query, listener, endpoints⟩

def notify (r : Registry) (updates : List Endpoint) : Registry × List Delivery :=
  let touched := r.touched updates
  let notified := touched.foldl
    (fun notified entry =>
      notified.insert entry.1 (overlay (r.cacheOf entry.1) entry.2.2))
    r.notified
  ({ r with notified },
    touched.flatMap fun entry => deliveriesOf entry.1 entry.2.1 entry.2.2)

/-- The members of all categories known for a query. -/
def cached? (r : Registry) (query : Endpoint) : Option (List Endpoint) :=
  (r.notified.get? query).map fun lists => Endpoint.members lists.values.flatten

def register (r : Registry) (e : Endpoint) : Registry :=
  { r with registered := r.registered.add e }

def unregister (r : Registry) (e : Endpoint) : Registry :=
  { r with registered := r.registered.erase e }

def isRegistered (r : Registry) (e : Endpoint) : Bool := r.registered.contains e

def listeners (r : Registry) (query : Endpoint) : List Listener :=
  (r.subscribed.get? query).getD []

def hasListeners (r : Registry) (query : Endpoint) : Bool := !(r.listeners query).isEmpty

def queries (r : Registry) : List Endpoint := r.subscribed.keys

def refusal? (query : Endpoint) : Option Fault :=
  if query.interface = "" then
    some (.configuration ("subscribe query " ++ query.canonical ++
      " names no interface (use " ++ Text.quoted Endpoint.anyValue ++ " for all)"))
  else none

def addListener (r : Registry) (query : Endpoint) (listener : Listener) : Registry :=
  let present := r.listeners query
  { r with
    subscribed := r.subscribed.insert query
      (if listener ∈ present then present else present ++ [listener]) }

/-- What is known already goes to the new listener at once. -/
def subscribe (r : Registry) (query : Endpoint) (listener : Listener) :
    Except Fault (Registry × List Delivery) :=
  match refusal? query with
  | some fault => .error fault
  | none =>
      .ok (r.addListener query listener, deliveriesOf query [listener] (r.cacheOf query))

/-- With its last listener a query loses what is known for it. -/
def unsubscribe (r : Registry) (query : Endpoint) (listener : Listener) : Registry :=
  match r.subscribed.get? query with
  | none => r
  | some present =>
      let remaining := present.filter (· != listener)
      if remaining.isEmpty then
        { r with
          subscribed := r.subscribed.erase query
          notified := r.notified.erase query }
      else { r with subscribed := r.subscribed.insert query remaining }

/-- The answer of a lookup that has been told something, or that has waited long enough. -/
def lookupAnswer (r : Registry) (query : Endpoint) (told : Bool) : Except Fault (List Endpoint) :=
  match r.cached? query with
  | some endpoints => .ok endpoints
  | none =>
      if told then .ok []
      else .error (.coordinationStore ("lookup of " ++ query.serviceKey ++
        " got no notification within " ++ Text.durationText r.lookupTimeout))

def dynamicRegistered (r : Registry) : List Endpoint := r.registered.toList.filter (·.isDynamic)

def subscriptions (r : Registry) : List (Endpoint × Listener) :=
  r.subscribed.entries.flatMap fun (query, listeners) => listeners.map fun l => (query, l)

def destroy (r : Registry) : Registry :=
  let unregistered := r.dynamicRegistered.foldl unregister r
  r.subscriptions.foldl (fun r (query, listener) => r.unsubscribe query listener) unregistered

end Registry

end ServiceGovernance
