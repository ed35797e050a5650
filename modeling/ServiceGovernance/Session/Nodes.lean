import ServiceGovernance.Session.Command

/-!
What a session does with the store itself: it reads and writes nodes, and keeps watches of its own
under names. A watch that takes over a name closes the one that had it.
-/

namespace ServiceGovernance.Session.World

abbrev Answered := Outcome × World

def answer (w : World) (reply : Reply) : Answered := (.ok reply, w)

def refuse (w : World) (failure : Failure) : Answered := (.error failure, w)

/-- Takes over the store after an operation, and what it has sent. -/
def withStore (w : World) (store : Store) : World := { w with store }.wakeNotified

def storeOutcome {α : Type} (reply : α → Reply) : Except Store.Error α → Outcome
  | .ok value => .ok (reply value)
  | .error e => .error (.store e)

def changeStore (w : World) (change : Store → Except Store.Error Unit × Store) : Answered :=
  let (result, store) := change w.store
  (storeOutcome (fun _ => .nothing) result, w.withStore store)

def readStore {α : Type} (w : World) (reply : α → Reply) (read : Store → Except Store.Error α) :
    Answered :=
  (storeOutcome reply (read w.store), w)

def closeObserver (w : World) (name : String) : World :=
  match w.observers.get? name with
  | some observer =>
      { w with
        store := w.store.closeMailbox observer.mailbox
        observers := w.observers.erase name }
  | none => w

def closeStateObserver (w : World) (name : String) : World :=
  match w.stateObservers.get? name with
  | some mailbox =>
      { w with
        store := w.store.closeMailbox mailbox
        stateObservers := w.stateObservers.erase name }
  | none => w

def watchChildren (w : World) (path name : String) : Answered :=
  let (mailbox, store) := w.store.openMailbox
  match store.watchChildren path mailbox with
  | (.error e, _) => w.refuse (.store e)
  | (.ok (watch, names), store) =>
      let w := { w with store }.closeObserver name
      { w with observers := w.observers.insert name ⟨mailbox, watch⟩ }.answer (.texts names)

def unwatchChildren (w : World) (name : String) : Answered :=
  match w.observers.get? name with
  | some observer => { w with store := w.store.unwatch observer.watch }.answer .nothing
  | none => w.refuse .unknownName

def closeWatch (w : World) (name : String) : Answered :=
  (w.closeObserver name).answer (.flag (w.observers.contains name))

def watchSession (w : World) (name : String) : Answered :=
  let (mailbox, store) := w.store.openMailbox
  let w := { w with store := store.watchState mailbox }.closeStateObserver name
  { w with stateObservers := w.stateObservers.insert name mailbox }.answer .nothing

def closeSession (w : World) (name : String) : Answered :=
  (w.closeStateObserver name).answer (.flag (w.stateObservers.contains name))

def describeNode (w : World) (path : String) : Answered :=
  w.answer (.presence (w.store.isNode path) ((w.store.nodes.get? path).map (·.ephemeral)))

end ServiceGovernance.Session.World
