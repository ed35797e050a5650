import ServiceGovernance.Config.Basic
import ServiceGovernance.Traffic

/-!
Bringing a configuration into force. What a configuration does not set stays as it was, and limits
change in place: nobody in flight is forgotten and no window starts anew. A configuration that fails
its check changes nothing.
-/

namespace ServiceGovernance.Config

open Admission Balance

def whenSome {α : Type} (setting : Option α) (apply : α → Traffic → Traffic) (t : Traffic) :
    Traffic :=
  match setting with
  | some value => apply value t
  | none => t

def withSettings (t : Traffic) (change : Settings → Settings) : Traffic :=
  { t with balancer := { t.balancer with settings := change t.balancer.settings } }

def applyMethod (interface : String) (t : Traffic) (method : MethodSettings) : Traffic :=
  whenSome method.actives
      (fun max t => t.configureActive (ConcurrencyLimiter.methodScope interface method.name) max) <|
    whenSome method.mode
      (fun mode t => withSettings t (·.setMethod interface method.name mode)) t

def applyService (t : Traffic) (service : ServiceSettings) : Traffic :=
  let t := whenSome service.mode
    (fun mode t => withSettings t (·.setInterface service.interface mode)) t
  let t := whenSome service.tps (fun tps t => t.configureRate service.interface tps.toInt) t
  let t := whenSome service.actives (fun max t => t.configureActive service.interface max) t
  service.methods.foldl (applyMethod service.interface) t

def apply (c : Config) (t : Traffic) : Except CallFault Traffic :=
  match c.check with
  | .error defect => .error (.configuration defect.message)
  | .ok () => .ok (c.services.foldl applyService (withSettings t (·.setGlobal c.mode)))

end ServiceGovernance.Config
