import ServiceGovernance.Config.Apply
import ServiceGovernance.Config.OfText
import ServiceGovernance.Registry.Synced

/-!
An agent publishes the providers and routing rules of its configuration, follows the services that it
names, and calls each of them once a round. The registry lives in a store of the agent's own.
-/

namespace ServiceGovernance

/-- Why an agent cannot start. -/
inductive Agent.Obstacle where
  | settings (fault : CallFault)
  | provider (text : String) (fault : Fault)
  | service (fault : Fault)
deriving DecidableEq, Repr

def Agent.Obstacle.message : Agent.Obstacle → String
  | .settings fault => fault.message
  | .provider text fault => "provider " ++ text ++ ": " ++ fault.message
  | .service fault => fault.message

/-- The directory of each service, its place being the listener that stands for it. -/
structure Agent where
  synced : Synced
  traffic : Traffic
  directories : List Directory := []
deriving DecidableEq, Inhabited

namespace Agent

def registry (a : Agent) : Registry := a.synced.sync.registry

def hear (a : Agent) (d : Delivery) : Agent :=
  { a with
    directories := a.directories.modify d.listener (·.receive d.endpoints)
    traffic := a.traffic.countNotification d.endpoints }

/-- Lets the registry change; what it delivers is heard. -/
def afterwards (a : Agent) (s : Synced) : Agent :=
  s.deliveries.foldl hear { a with synced := { s with deliveries := [] } }

def ofConfig (c : Config) : Except Obstacle Agent :=
  let pool : Pool := { idleTimeout := c.pool.idleTimeout.toNat, meter := some {} }
  match c.apply { pool } with
  | .error fault => .error (.settings fault)
  | .ok traffic =>
      .ok {
        synced := Synced.start {} c.registry.root c.registry.lookupTimeout.toNat
          c.registry.retryPeriod.toNat
        traffic }

/-- A provider that says nothing of its weight gets the one that its service is configured with. -/
def weighted (c : Config) (e : Endpoint) : Endpoint :=
  match e.param? "weight", (c.service? e.interface).bind (·.weight) with
  | none, some weight => e.withParam "weight" (toString weight.toNat)
  | _, _ => e

def publishProvider (c : Config) (a : Agent) (text : String) : Except Obstacle Agent :=
  match Endpoint.parse text with
  | .ok e => .ok (a.afterwards (a.synced.register (weighted c e)))
  | .error fault => .error (.provider text fault)

def publishRules (a : Agent) (service : ServiceSettings) : Agent :=
  service.rules.foldl
    (fun a rule => a.afterwards (a.synced.publishRule service.interface rule).2) a

def consumerOf (interface : String) : Endpoint :=
  { protocol := "consumer", host := "127.0.0.1", port := 0 : Endpoint }.withParam
    "interface" interface

/-- A new directory hears already what its subscription brings. -/
def follow (a : Agent) (service : ServiceSettings) : Except Obstacle Agent :=
  let directory : Directory := { consumer := consumerOf service.interface }
  match a.synced.subscribe directory.query a.directories.length with
  | .ok s => .ok ({ a with directories := a.directories ++ [directory] }.afterwards s)
  | .error fault => .error (.service fault)

def start (c : Config) : Except Obstacle Agent := do
  let a ← ofConfig c
  let a ← c.providers.foldlM (publishProvider c) a
  c.services.foldlM follow (c.services.foldl publishRules a)

/-- One call: a connection is taken and given back, and between that the call counts as active if the
limit allows it. -/
def dispatchOnce (time : Nat) (t : Traffic) (d : Dispatcher) : Traffic :=
  match d.connect "ping" (fun _ => .ok ()) t with
  | (.error _, t) => t
  | (.ok (_, taken), t) =>
      let called := match t.acquire d.consumer.interface with
        | (.ok permit, t) => t.giveUp permit
        | (.error _, t) => t
      Dispatcher.release taken.handle time called

/-- Every service is called once, at this moment. -/
def dispatchAll (time : Nat) (a : Agent) : Agent :=
  let dispatchers := a.directories.map fun directory => ({ directory } : Dispatcher)
  { a with traffic := dispatchers.foldl (dispatchOnce time) a.traffic }

def advanceClock (a : Agent) (milliseconds : UInt64) : Agent :=
  { a with traffic := { a.traffic with now := a.traffic.now + milliseconds } }

/-- Counts a call that goes on from outside the rounds. -/
def hold (a : Agent) (name : String) : Agent :=
  { a with traffic := (a.traffic.increase name).2 }

/-- Takes the notices of the store, at most `fuel` of them. -/
def takeNotices : Nat → Agent → Agent
  | 0, a => a
  | fuel + 1, a =>
      match a.synced.store.takeNotice fun _ => true with
      | none => a
      | some (notice, store) =>
          takeNotices fuel (a.afterwards (Synced.handle { a.synced with store } notice))

/-- What is due between rounds: notices, a retry of what is pending, and the end of idle
connections. -/
def attend (time : Nat) (a : Agent) : Agent :=
  let a := takeNotices (a.synced.store.outbox.length + 1) a
  let a := a.afterwards a.synced.retry
  { a with traffic := { a.traffic with pool := a.traffic.pool.fireDue time } }

def unfollow (a : Agent) (listener : Listener) (d : Directory) : Agent :=
  a.afterwards (a.synced.unsubscribe d.query listener)

/-- The directories leave, idle connections close, and the registry is destroyed. -/
def stop (a : Agent) : Agent :=
  let alone := a.directories.zipIdx.foldl (fun a (d, listener) => a.unfollow listener d) a
  { alone with
    synced := alone.synced.destroy
    traffic := { alone.traffic with pool := alone.traffic.pool.clear } }

/-- What is said of a configuration that is not taken, `source` being where it came from. -/
def refusalMessage (source : String) (refusal : Config.Refusal) : String :=
  "parsing traffic config " ++ source ++ ": " ++
    match refusal with
    | .unreadable => "Failed to parse traffic config"
    | .invalid defect => defect.message

end Agent

end ServiceGovernance
