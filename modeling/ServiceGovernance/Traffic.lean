import ServiceGovernance.Admission.Concurrency
import ServiceGovernance.Admission.Rate
import ServiceGovernance.Balance.Balancer
import ServiceGovernance.Directory
import ServiceGovernance.Metrics

/-!
The live components that a call goes through: a directory gives the routed candidates, the balancer
picks one of them, the rate limiter admits the request, and the pool opens or reuses a connection.
-/

namespace ServiceGovernance

open Admission Balance

/-- `now` is the reading of the rate limiter's clock, `metered` says whether the limiters count. -/
structure Traffic where
  balancer : Balancer := {}
  rates : RateLimiter := {}
  actives : ConcurrencyLimiter := {}
  pool : Pool
  metrics : Metrics := {}
  metered : Bool := true
  now : UInt64 := 0
deriving DecidableEq, Inhabited

/-- One consumed service with the scope of its selections. -/
structure Dispatcher where
  directory : Directory
  scope : Scope := .request
deriving DecidableEq, Inhabited

namespace Traffic

def countRejection (t : Traffic) (kind : AdmissionKind) : Traffic :=
  if t.metered then { t with metrics := t.metrics.recordRejection kind } else t

/-- What a directory is told counts under its category. -/
def countNotification (t : Traffic) (endpoints : List Endpoint) : Traffic :=
  match Directory.categoryOf? endpoints with
  | some category =>
      if t.metered then { t with metrics := t.metrics.recordNotification category } else t
  | none => t

def addRequest (t : Traffic) (name : String) : Except CallFault Unit × Traffic :=
  match t.rates.add t.now.toNat name with
  | (.ok (), rates) => (.ok (), { t with rates })
  | (.error fault, rates) => (.error fault, countRejection { t with rates } .rate)

def configureRate (t : Traffic) (name : String) (max : Int) : Traffic :=
  { t with rates := t.rates.configure t.now.toNat name max }

def configureActive (t : Traffic) (name : String) (max : UInt32) : Traffic :=
  { t with actives := t.actives.configure name max }

def checkActive (t : Traffic) (name : String) : Except CallFault Unit × Traffic :=
  match t.actives.check name with
  | .ok () => (.ok (), t)
  | .error fault => (.error fault, t.countRejection .concurrency)

def acquire (t : Traffic) (name : String) : Except CallFault String × Traffic :=
  match t.actives.acquire name with
  | (.ok permit, actives) => (.ok permit, { t with actives })
  | (.error fault, actives) => (.error fault, countRejection { t with actives } .concurrency)

/-- Giving back a permit frees its slot. -/
def giveUp (t : Traffic) (permit : String) : Traffic :=
  { t with actives := t.actives.decrease permit }

def increase (t : Traffic) (name : String) : Bool × Traffic :=
  let (admitted, actives) := t.actives.increase name
  (admitted, { t with actives })

/-- The lines of the exposition that are values. -/
def samples (t : Traffic) : List String :=
  (t.metrics.lines (t.pool.meter.getD {})).filter (·.toList.head? != some '#')

def exposition (t : Traffic) : String := t.metrics.exposition (t.pool.meter.getD {})

end Traffic

namespace Dispatcher

def consumer (d : Dispatcher) : Endpoint := d.directory.consumer

/-- The consumer with the method that is called. -/
def call (d : Dispatcher) (method : String) : Endpoint := d.consumer.withParam "method" method

def candidates (d : Dispatcher) (method : String) : List Endpoint := d.directory.routed (d.call method)

def select (d : Dispatcher) (method : String) (t : Traffic) :
    Except CallFault Endpoint × Traffic :=
  match t.balancer.select d.consumer method (d.candidates method) d.scope with
  | (none, balancer) =>
      (.error (.noProvider d.consumer.serviceKey),
        { t with balancer, metrics := t.metrics.recordNoProvider })
  | (some e, balancer) =>
      match Traffic.addRequest { t with balancer } d.consumer.interface with
      | (.ok (), t) => (.ok e, t)
      | (.error fault, t) => (.error fault, t)

/-- `connecting` tells for a target whether a new connection to it can be opened. -/
def connect (d : Dispatcher) (method : String) (connecting : AddressSet → Except CallFault Unit)
    (t : Traffic) : Except CallFault (Endpoint × Taken) × Traffic :=
  match d.select method t with
  | (.error fault, t) => (.error fault, t)
  | (.ok e, t) =>
      let target := AddressSet.single e.address
      match t.pool.take target (connecting target) with
      | (.ok taken, pool) => (.ok (e, taken), { t with pool })
      | (.error fault, pool) => (.error fault, { t with pool })

def release (handle : Handle) (time : Nat) (t : Traffic) : Traffic :=
  { t with pool := t.pool.giveBack time handle }

end Dispatcher

end ServiceGovernance
