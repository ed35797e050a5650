import ServiceGovernance.Proofs.Synced.Watching

/-!
What can happen to a registry and its store, one event after the other. An event is a whole operation, the
handling of one notice, or a change of the store. What is supposed of a course of events is where it starts
and which events are allowed in which states.
-/

namespace ServiceGovernance.Synced

variable {s : Synced} {Fit Fit' : Store → String → Prop}

/-- Others may make any store of the one that is there. A lookup that is not answered from the cache is a
subscription with a listener of its own, which is unsubscribed in the end. -/
inductive Event where
  | register (e : Endpoint)
  | unregister (e : Endpoint)
  | publish (interface rule : String)
  | subscribe (query : Endpoint) (listener : Listener)
  | unsubscribe (query : Endpoint) (listener : Listener)
  | retry
  | handle (aboutSession : Bool)
  | setOnline (online : Bool)
  | expire
  | elsewhere (store : Store)

def setOnline (s : Synced) (online : Bool) : Synced := { s with store := s.store.setOnline online }

def expire (s : Synced) : Synced := { s with store := s.store.expire }

/-- A subscription that is refused changes nothing. -/
def after (s : Synced) : Event → Synced
  | .register e => s.register e
  | .unregister e => s.unregister e
  | .publish interface rule => (s.publishRule interface rule).2
  | .subscribe query listener => s.attend query listener
  | .unsubscribe query listener => s.unsubscribe query listener
  | .retry => s.retry
  | .handle aboutSession => s.handleNext aboutSession
  | .setOnline online => s.setOnline online
  | .expire => s.expire
  | .elsewhere store => { s with store }

/-- The states that a registry comes to through allowed events, if it is started where it fits. -/
inductive Run (Fit : Store → String → Prop) (Allowed : Synced → Event → Prop) : Synced → Prop where
  | start {store : Store} {root : String} (fit : Fit store root) (lookupTimeout retryPeriod : Nat) :
      Run Fit Allowed (start store root lookupTimeout retryPeriod)
  | step {s : Synced} (before : Run Fit Allowed s) (event : Event) (allowed : Allowed s event) :
      Run Fit Allowed (s.after event)

/-- A run is one of those of which less is supposed. -/
theorem Run.mono {Allowed Allowed' : Synced → Event → Prop} (run : Run Fit Allowed s)
    (fits : ∀ store root, Fit store root → Fit' store root)
    (allows : ∀ s event, Allowed s event → Allowed' s event) : Run Fit' Allowed' s := by
  induction run with
  | start fit lookupTimeout retryPeriod => exact .start (fits _ _ fit) lookupTimeout retryPeriod
  | step before event allowed ih => exact ih.step event (allows _ event allowed)

end ServiceGovernance.Synced
