import ServiceGovernance.Balance.Mode
import ServiceGovernance.Text.Quoted

/-!
The configuration of a process: where its registry lives, how long connections stay idle, how calls
are balanced and limited, and what it publishes. `check` states the conditions across fields; a
configuration with several faults is told of the first one.
-/

namespace ServiceGovernance

open Balance Text

structure RegistrySettings where
  root : String := "/rpc"
  lookupTimeout : UInt64 := 5000
  retryPeriod : UInt64 := 5000
deriving DecidableEq, Repr, Inhabited

structure PoolSettings where
  idleTimeout : UInt64 := 60000
deriving DecidableEq, Repr, Inhabited

structure MethodSettings where
  name : String
  mode : Option Mode := none
  actives : Option UInt32 := none
deriving DecidableEq, Repr, Inhabited

structure ServiceSettings where
  interface : String
  mode : Option Mode := none
  tps : Option Int64 := none
  actives : Option UInt32 := none
  weight : Option UInt32 := none
  methods : List MethodSettings := []
  rules : List String := []
deriving DecidableEq, Inhabited

structure Config where
  registry : RegistrySettings := {}
  pool : PoolSettings := {}
  mode : Mode := .pickFirst
  services : List ServiceSettings := []
  providers : List String := []
deriving DecidableEq, Inhabited

inductive Config.Defect where
  | relativeRoot (root : String)
  | namelessService
  | repeatedService (interface : String)
  | namelessMethod (interface : String)
  | repeatedMethod (interface method : String)
deriving DecidableEq, Repr

def Config.Defect.detail : Config.Defect → String
  | .relativeRoot root => "registry root must be an absolute path, got " ++ quoted root
  | .namelessService => "service interface must not be empty"
  | .repeatedService interface => "service " ++ interface ++ " configured more than once"
  | .namelessMethod interface => "service " ++ interface ++ " has a method entry without a name"
  | .repeatedMethod interface method =>
      "method " ++ interface ++ "." ++ method ++ " configured more than once"

def Config.Defect.message (d : Config.Defect) : String := "Invalid traffic config: " ++ d.detail

namespace Config

def isBlankText (text : String) : Bool := (trim text.toList).isEmpty

/-- `seen` holds the names of the methods before these. -/
def checkMethods (interface : String) (seen : List String) :
    List MethodSettings → Except Defect Unit
  | [] => .ok ()
  | method :: rest =>
      if isBlankText method.name then .error (.namelessMethod interface)
      else if method.name ∈ seen then .error (.repeatedMethod interface method.name)
      else checkMethods interface (method.name :: seen) rest

/-- `seen` holds the interfaces of the services before these. -/
def checkServices (seen : List String) : List ServiceSettings → Except Defect Unit
  | [] => .ok ()
  | service :: rest =>
      if isBlankText service.interface then .error .namelessService
      else if service.interface ∈ seen then .error (.repeatedService service.interface)
      else do
        checkMethods service.interface [] service.methods
        checkServices (service.interface :: seen) rest

def check (c : Config) : Except Defect Unit :=
  if c.registry.root.toList.head? = some '/' then checkServices [] c.services
  else .error (.relativeRoot c.registry.root)

def service? (c : Config) (interface : String) : Option ServiceSettings :=
  c.services.find? (·.interface = interface)

end Config

end ServiceGovernance
