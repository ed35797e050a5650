import ServiceGovernance.Config.OfText
import ServiceGovernance.Session.World

/-!
What a session can be told to do, what it answers, and how a command can fail. Registries,
directories, dispatchers and so on are spoken of by the names that they got when they were made.
-/

namespace ServiceGovernance.Session

inductive Command where
  | advanceTime (milliseconds : Nat)
  | advanceClock (milliseconds : UInt64)
  | setClock (milliseconds : UInt64)
  | createNode (path : String) (ephemeral : Bool)
  | deleteNode (path : String)
  | listChildren (path : String)
  | watchChildren (path name : String)
  | unwatchChildren (name : String)
  | closeWatch (name : String)
  | readData (path : String)
  | writeData (path : String) (data : List UInt8)
  | watchSession (name : String)
  | closeSession (name : String)
  | setOnline (online : Bool)
  | expireSession
  | describeNode (path : String)
  | listTree
  | openRegistry (name : String) (synced : Bool) (lookupTimeout : Nat) (root : String)
      (retryPeriod : Nat)
  | dropRegistry (registry : String)
  | register (registry : String) (endpoint : Endpoint)
  | unregister (registry : String) (endpoint : Endpoint)
  | subscribe (registry : String) (query : Endpoint) (listener : String)
  | unsubscribe (registry : String) (query : Endpoint) (listener : String)
  | notify (registry : String) (updates : List Endpoint)
  | lookup (registry : String) (query : Endpoint)
  | spawnLookup (registry : String) (query : Endpoint) (name : String)
  | joinLookup (name : String)
  | readCached (registry : String) (query : Endpoint)
  | readNotified (registry : String) (query : Endpoint)
  | listRegistered (registry : String)
  | isRegistered (registry : String) (endpoint : Endpoint)
  | listQueries (registry : String)
  | hasListeners (registry : String) (query : Endpoint)
  | destroyRegistry (registry : String)
  | publishRule (registry interface rule : String)
  | countPending (registry : String)
  | retry (registry : String)
  | openDirectory (consumer : Endpoint) (name : String)
  | subscribeDirectory (registry : String) (consumer : Endpoint) (name : String)
  | unsubscribeDirectory (registry directory : String)
  | notifyDirectory (directory : String) (updates : List Endpoint)
  | describeDirectory (directory : String)
  | route (directory : String) (call : Endpoint)
  | refuse (addresses : List String)
  | take (addresses : List String) (attributes : List (String × String)) (name : String)
  | giveBack (name : String)
  | clearPool
  | describePool
  | describeHandle (name : String)
  | openDispatcher (directory name : String) (scope : Balance.Scope)
  | selectProviders (dispatcher method : String) (times : Nat)
  | connect (dispatcher method name : String)
  | release (dispatcher name : String)
  | applyText (text : String)
  | applyDocument (document : Document)
  | configureRate (name : String) (max : Int)
  | readRate (name : String)
  | addRequests (name : String) (times : Nat)
  | configureActive (name : String) (max : UInt32)
  | nameScope (name method : String)
  | countActive (name : String)
  | checkActive (name : String)
  | increaseActive (name : String) (times : Nat)
  | decreaseActive (name : String) (times : Nat)
  | acquirePermit (name permit : String)
  | dropPermit (permit : String)
  | globalMode (mode : Option String)
  | interfaceMode (name : String) (mode : Option String)
  | methodMode (name method : String) (mode : Option String)
  | resolveMode (name method : String) (candidates : List Endpoint)
  | selectCandidates (consumer : Endpoint) (method : String) (candidates : List Endpoint)
      (scope : Balance.Scope) (times : Nat)
  | readGeneration (name : String)
  | countRejection (kind : AdmissionKind)
  | countNotification (category : String)
  | readRejections
  | readMetrics

/-- A handle as it was taken; the attributes are told where the connection was opened for it. -/
structure HandleView where
  handle : Handle
  openedWith : Option (List (String × String))

inductive Reply where
  | nothing
  | flag (value : Bool)
  | flags (values : List Bool)
  | number (value : Option Int)
  | text (value : Option String)
  | texts (values : List String)
  | bytes (data : List UInt8)
  | presence (isPresent : Bool) (ephemeral : Option Bool)
  | tree (nodes : List (String × Bool))
  | endpoints (endpoints : Option (List Endpoint))
  | lists (lists : Option CategoryLists)
  | directory (consumer : Endpoint) (providers : List Endpoint) (rules : Nat)
  | counts (idle out : Nat)
  | pool (idle out opened : Nat) (idleTimeout : String)
  | handle (view : HandleView)
  | connection (endpoint : Endpoint) (view : HandleView)
  | picks (picked : List (Option Endpoint))
  | selections (outcomes : List (Except CallFault Endpoint))
  | admissions (outcomes : List (Except CallFault Unit))
  | permit (name : String) (active : Nat)
  | rejections (rate concurrency : Nat)

inductive Failure where
  | unknownName
  | fault (fault : Fault)
  | store (error : Store.Error)
  | call (fault : CallFault)
  | unknownMode (text : String)
  | config (refusal : Config.Refusal)
  | unfitting

abbrev Outcome := Except Failure Reply

end ServiceGovernance.Session
