import ServiceGovernance.Session.Background
import ServiceGovernance.Session.Nodes

/-!
What a session does with its registries. Where a registry stands for a synced one, reading what is
known reads its local side.
-/

namespace ServiceGovernance.Session

namespace World

namespace Act

def publishRule (interface rule : String) : Act (Option Endpoint) where
  onRegistry := silently id none
  onSynced s :=
    let (e, s) := s.publishRule interface rule
    (some e, s)

/-- The number of pending operations, after one retry of each. -/
def retry : Act (Option Nat) where
  onRegistry := silently id none
  onSynced s := (some s.retry.pending, s.retry)

def pending : Act (Option Nat) where
  onRegistry := silently id none
  onSynced s := (some s.pending, s)

end Act

def site? (w : World) (name : String) : Option (Nat × Site) :=
  (w.siteNames.get? name).bind fun number => (w.sites.get? number).map fun site => (number, site)

/-- Lets the registry of a name act. -/
def actOn {α : Type} (w : World) (name : String) (a : Act α) (outcome : α → Outcome) : Answered :=
  match w.site? name with
  | some (number, site) =>
      let (value, w) := w.act number site a
      (outcome value, w)
  | none => w.refuse .unknownName

def readFrom (w : World) (name : String) (read : Registry → Reply) : Answered :=
  match w.site? name with
  | some (_, site) => w.answer (read site.registry)
  | none => w.refuse .unknownName

def done : Unit → Outcome := fun _ => .ok .nothing

def faultOutcome {α : Type} (reply : α → Reply) : Except Fault α → Outcome
  | .ok value => .ok (reply value)
  | .error fault => .error (.fault fault)

/-- Only a synced registry has an answer here. -/
def syncedOutcome {α : Type} (reply : α → Reply) : Option α → Outcome
  | some value => .ok (reply value)
  | none => .error .unknownName

/-- Gives a registry a name; the one that had it loses it. -/
def nameSite (w : World) (name : String) (number : Nat) : World :=
  let named := { w with siteNames := w.siteNames.insert name number }
  match w.siteNames.get? name with
  | some former => named.release former
  | none => named

def addSite (w : World) (name : String) (site : Site) : World :=
  let added := w.putSite w.nextSite site
  { added with nextSite := w.nextSite + 1 }.nameSite name w.nextSite

def openRegistry (w : World) (name : String) (synced : Bool) (lookupTimeout : Nat) (root : String)
    (retryPeriod : Nat) : Answered :=
  let opened :=
    if synced then
      let s := Synced.start w.store root lookupTimeout retryPeriod
      ({ w with store := s.store }.addSite name
        (.synced s.sync (w.time + retryPeriodOf s.sync))).wakeNotified
    else w.addSite name (.single { lookupTimeout })
  opened.answer (.text (some (Text.durationText lookupTimeout)))

/-- Whether the registry is gone with its name. -/
def dropRegistry (w : World) (name : String) : Answered :=
  match w.siteNames.get? name with
  | some number =>
      let w := { w with siteNames := w.siteNames.erase name }
      (w.release number).answer (.flag !(w.isInUse number))
  | none => w.refuse .unknownName

def subscribe (w : World) (name : String) (query : Endpoint) (listenerName : String) : Answered :=
  let (listener, w) := w.recorder listenerName
  w.actOn name (Act.subscribe query listener) (faultOutcome fun _ => .nothing)

def unsubscribe (w : World) (name : String) (query : Endpoint) (listenerName : String) : Answered :=
  let (listener, w) := w.recorder listenerName
  w.actOn name (Act.unsubscribe query listener) done

def endpointsOutcome : Except Fault (List Endpoint) → Outcome :=
  faultOutcome fun endpoints => .endpoints (some endpoints)

def lookupIn (w : World) (name : String) (query : Endpoint) : Answered :=
  match w.site? name with
  | some (number, _) =>
      let (result, w) := w.lookup number query
      (endpointsOutcome result, w)
  | none => w.refuse .unknownName

def spawnLookupIn (w : World) (name : String) (query : Endpoint) (lookupName : String) : Answered :=
  match w.site? name with
  | some (site, _) =>
      let (number, w) := w.spawnLookup site query
      { w with lookupNames := w.lookupNames.insert lookupName number }.answer .nothing
  | none => w.refuse .unknownName

def joinNamed (w : World) (lookupName : String) : Answered :=
  match w.lookupNames.get? lookupName with
  | some number =>
      let (result, w) := w.joinLookup number
      (endpointsOutcome result, { w with lookupNames := w.lookupNames.erase lookupName })
  | none => w.refuse .unknownName

def canonicalTexts (endpoints : List Endpoint) : List String :=
  (endpoints.map Endpoint.canonical).mergeSort fun a b => (compare a b).isLE

end World

end ServiceGovernance.Session
