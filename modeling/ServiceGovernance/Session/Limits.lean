import ServiceGovernance.Config.Apply
import ServiceGovernance.Session.Calls

/-!
What a session does with settings and counts: configurations, the limiters and their clock, the
balancer, and the metrics.
-/

namespace ServiceGovernance.Session.World

open Admission Balance

/-- The rate limiter's clock counts 64 bits of milliseconds and starts again at zero. A clock that is
not set by hand does not move here. -/
def setClock (w : World) (now : UInt64) : World :=
  if w.clockIsManual then w.updateTraffic ({ · with now }) else w

def applyConfig (w : World) (c : Config) : Answered :=
  match c.apply w.traffic with
  | .ok traffic => (w.withTraffic traffic).answer .nothing
  | .error fault => w.refuse (.call fault)

def applyText (w : World) (text : String) : Answered :=
  match Config.ofText text with
  | .ok c => w.applyConfig c
  | .error refusal => w.refuse (.config refusal)

def applyDocument (w : World) (document : Document) : Answered :=
  match Config.ofDocument? true document with
  | some c => w.applyConfig c
  | none => w.refuse .unfitting

def addRequests (w : World) (name : String) (times : Nat) : Answered :=
  let (outcomes, traffic) := repeated (Traffic.addRequest · name) times w.traffic
  (w.withTraffic traffic).answer (.admissions outcomes)

def checkActive (w : World) (name : String) : Answered :=
  let (result, traffic) := w.traffic.checkActive name
  (callOutcome (fun _ => .flag true) result, w.withTraffic traffic)

def activeCount (w : World) (name : String) : Nat := (w.traffic.actives.active name).toNat

def increaseActive (w : World) (name : String) (times : Nat) : Answered :=
  let (admitted, traffic) := repeated (Traffic.increase · name) times w.traffic
  (w.withTraffic traffic).answer (.flags admitted)

def countActive (w : World) (name : String) : Answered :=
  w.answer (.number (some (w.activeCount name)))

def decreaseActive (w : World) (name : String) (times : Nat) : Answered :=
  let decreased := repeated (fun t => ((), Traffic.giveUp t name)) times w.traffic
  (w.withTraffic decreased.2).countActive name

def giveUpPermit (w : World) (permit : String) : World :=
  match w.permits.get? permit with
  | some name =>
      { w with permits := w.permits.erase permit }.updateTraffic (·.giveUp name)
  | none => w

/-- A permit that had the name before is given up after the new one has been counted. -/
def acquirePermit (w : World) (name permit : String) : Answered :=
  let (result, traffic) := w.traffic.acquire name
  let w := w.withTraffic traffic
  match result with
  | .ok held =>
      let active := w.activeCount name
      let w := w.giveUpPermit permit
      { w with permits := w.permits.insert permit held }.answer (.permit held active)
  | .error fault => w.refuse (.call fault)

def dropPermit (w : World) (permit : String) : Answered :=
  (w.giveUpPermit permit).answer (.flag (w.permits.contains permit))

def updateSettings (w : World) (change : Settings → Settings) : World :=
  w.updateTraffic (Config.withSettings · change)

def settings (w : World) : Settings := w.traffic.balancer.settings

/-- Sets a mode if one is given, then tells the mode in force. -/
def putMode (w : World) (mode : Option String) (change : Mode → Settings → Settings)
    (read : Settings → Option Mode) : Answered :=
  let tell (w : World) : Answered := w.answer (.text ((read w.settings).map Mode.name))
  match mode with
  | none => tell w
  | some text =>
      match Mode.parse? text with
      | some mode => tell (w.updateSettings (change mode))
      | none => w.refuse (.unknownMode text)

def resolveMode (w : World) (name method : String) (candidates : List Endpoint) : Answered :=
  w.answer (.text (some (w.settings.resolve name method candidates).name))

def selectOne (consumer : Endpoint) (method : String) (candidates : List Endpoint) (scope : Scope)
    (t : Traffic) : Option Endpoint × Traffic :=
  let (picked, balancer) := t.balancer.select consumer method candidates scope
  (picked, { t with balancer })

def selectCandidates (w : World) (consumer : Endpoint) (method : String)
    (candidates : List Endpoint) (scope : Scope) (times : Nat) : Answered :=
  let (picked, traffic) :=
    repeated (selectOne consumer method candidates scope) times w.traffic
  (w.withTraffic traffic).answer (.picks picked)

def updateMetrics (w : World) (change : Metrics → Metrics) : World :=
  w.updateTraffic fun t => { t with metrics := change t.metrics }

def readRejections (w : World) : Answered :=
  let (rate, metrics) := w.traffic.metrics.readRejections .rate
  let (concurrency, metrics) := metrics.readRejections .concurrency
  (w.updateMetrics fun _ => metrics).answer (.rejections rate concurrency)

end ServiceGovernance.Session.World
