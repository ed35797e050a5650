import ServiceGovernance.Session.World

/-!
The background of a session. Ready tasks run in turn, each until it has nothing more to do, and only
when none is left do the timers that are due make new ones ready. Virtual time passes from timer to
timer, and only while somebody waits.
-/

namespace ServiceGovernance.Session.World

def putLookup (w : World) (number : Nat) (l : Lookup) : World :=
  { w with lookups := w.lookups.insert number l }

def finishLookup (w : World) (number : Nat) (l : Lookup)
    (answer : Except Fault (List Endpoint)) : World :=
  (w.putLookup number { l with stage := .finished answer }).release l.site

/-- Ends the waiting: what is known now is the answer, and the listener goes. -/
def endLookup (w : World) (number : Nat) (l : Lookup) (listener : Listener) : World :=
  match w.sites.get? l.site with
  | none => w.finishLookup number l (.ok [])
  | some site =>
      let answer := site.registry.lookupAnswer l.query l.told
      let (_, w) := w.act l.site site (Act.unsubscribe l.query listener)
      w.finishLookup number l answer

/-- A lookup with a known answer needs no listener; any other one subscribes, and is told at once if
the subscription brings something. -/
def startLookup (w : World) (number : Nat) (l : Lookup) : World :=
  match w.sites.get? l.site with
  | none => w.finishLookup number l (.ok [])
  | some site =>
      match site.registry.cached? l.query with
      | some endpoints => w.finishLookup number l (.ok endpoints)
      | none =>
          let (listener, w) := w.openListener (.lookup number)
          let deadline := w.time + site.registry.lookupTimeout
          let (outcome, w) :=
            (w.putLookup number { l with stage := .waiting listener deadline }).act l.site site
              (Act.subscribe l.query listener)
          match outcome, w.lookups.get? number with
          | .error fault, _ => w.finishLookup number l (.error fault)
          | .ok (), some begun => if begun.told then w.endLookup number begun listener else w
          | .ok (), none => w

def isOver (w : World) (l : Lookup) (deadline : Nat) : Bool := l.told || deadline ≤ w.time

def runLookup (w : World) (number : Nat) : World :=
  match w.lookups.get? number with
  | none => w
  | some l =>
      match l.stage with
      | .fresh => w.startLookup number l
      | .waiting listener deadline =>
          if w.isOver l deadline then w.endLookup number l listener else w
      | .finished _ => w

def handleNotice (w : World) (number : Nat) (notice : Store.Notice) : World :=
  match w.sites.get? number with
  | some site =>
      (w.act number site {
        onRegistry := silently id ()
        onSynced := fun s => ((), s.handle notice) }).2
  | none => w

/-- Takes the notices of one task until none is left. -/
def drain (task : Task) (number : Nat) : Nat → World → World
  | 0, w => w
  | fuel + 1, w =>
      match w.store.takeNotice (fun notice => w.taskOf? notice = some task) with
      | none => w
      | some (notice, store) =>
          drain task number fuel ({ w with store }.handleNotice number notice)

def knownTo (site : Site) : Nat := site.registry.registered.size + site.registry.queries.length

/-- A bound on the notices that can come up before everything rests. -/
def patience (w : World) : Nat :=
  let known := w.sites.values.foldl (fun count site => count + knownTo site) 0
  let size := 4 + w.store.outbox.length + w.store.nodes.size + w.store.watches.size + known
  size * size * size

def runTask (w : World) : Task → World
  | .members number => drain (.members number) number w.patience w
  | .session number => drain (.session number) number w.patience w
  | .lookup number => w.runLookup number

def retrySite (w : World) (number : Nat) : World :=
  match w.sites.get? number with
  | some site =>
      (w.act number site {
        onRegistry := silently id ()
        onSynced := fun s => ((), s.retry) }).2
  | none => w

def retryPeriodOf (sync : SyncedRegistry) : Nat := max sync.retryPeriod 10

/-- The first time from `time` on that is `next` or a whole number of periods after it. -/
def nextTick (period next time : Nat) : Nat :=
  if time ≤ next then next else next + period * ((time - next + period - 1) / period)

def isDue (w : World) : Site → Bool
  | .synced sync nextRetry => sync.running && nextRetry ≤ w.time
  | .single _ => false

def retryDue (w : World) (number : Nat) : World :=
  match w.sites.get? number with
  | some (.synced sync nextRetry) =>
      if w.isDue (.synced sync nextRetry) then
        (w.putSite number
          (.synced sync (nextTick (retryPeriodOf sync) nextRetry (w.time + 1)))).retrySite number
      else w
  | _ => w

def isLateLookup (w : World) (l : Lookup) : Bool :=
  l.inBackground && l.deadline?.any (· ≤ w.time)

def wakeLateLookups (w : World) : World :=
  (w.lookups.entries.filter fun entry => w.isLateLookup entry.2).foldl
    (fun w entry => w.wake (.lookup entry.1)) w

def fireTimers (w : World) : World :=
  let w := w.updateTraffic fun t => { t with pool := t.pool.fireDue w.time }
  (w.sites.keys.foldl retryDue w).wakeLateLookups

def timerIsDue (w : World) : Bool :=
  w.traffic.pool.nextDue?.any (· ≤ w.time) || w.sites.values.any w.isDue ||
    w.lookups.values.any w.isLateLookup

def settleWithin : Nat → World → World
  | 0, w => w
  | fuel + 1, w =>
      match w.ready with
      | task :: rest => settleWithin fuel ({ w with ready := rest }.runTask task)
      | [] => if w.timerIsDue then settleWithin fuel w.fireTimers else w

/-- Runs the background until nothing is left to do at this moment. -/
def settle (w : World) : World := settleWithin w.patience w

/-- When a site's retry has something to do; without a backlog a retry changes nothing. -/
def retryAt? : Site → Option Nat
  | .synced sync nextRetry =>
      if sync.running && sync.backlog.size != 0 then some nextRetry else none
  | .single _ => none

def lateAt? (l : Lookup) : Option Nat := if l.inBackground then l.deadline? else none

/-- The first timer after this moment and before `limit`, if there is one. -/
def timerBefore? (w : World) (limit : Nat) : Option Nat :=
  ((w.traffic.pool.nextDue?.toList ++ w.sites.values.filterMap retryAt? ++
    w.lookups.values.filterMap lateAt?).filter fun due => w.time < due && due < limit).min?

def passTick (time : Nat) : Site → Site
  | .synced sync nextRetry => .synced sync (nextTick (retryPeriodOf sync) nextRetry time)
  | .single registry => .single registry

/-- Moves to a later time, past the retries in between, which have nothing to do. -/
def passTo (w : World) (time : Nat) : World :=
  { w with time, sites := w.sites.mapValues fun _ => passTick time }

def waitWithin (ended : World → Bool) (limit : Nat) : Nat → World → World
  | 0, w => w
  | fuel + 1, w =>
      if ended w || limit ≤ w.time then w
      else
        let w := w.settle
        if ended w then w
        else
          match w.timerBefore? limit with
          | some due => waitWithin ended limit fuel (w.passTo due)
          | none => w.passTo limit

/-- Lets time pass until `ended` holds or `limit` is reached. -/
def waitUntil (w : World) (ended : World → Bool) (limit : Nat) : World :=
  waitWithin ended limit (limit - w.time + 1) w

def advance (w : World) (milliseconds : Nat) : World :=
  w.waitUntil (fun _ => false) (w.time + milliseconds)

def lookupIsTold (number : Nat) (w : World) : Bool :=
  (w.lookups.get? number).any fun l => l.told || !l.isPending

def lookupIsDone (number : Nat) (w : World) : Bool :=
  (w.lookups.get? number).all fun l => !l.isPending

def lookupAnswer (w : World) (number : Nat) : Except Fault (List Endpoint) :=
  match w.lookups.get? number with
  | some l =>
      match l.stage with
      | .finished answer => answer
      | .fresh | .waiting .. => .ok []
  | none => .ok []

def addLookup (w : World) (site : Nat) (query : Endpoint) (inBackground : Bool) : Nat × World :=
  let added := w.putLookup w.nextLookup { site, query, inBackground }
  (w.nextLookup, { added with nextLookup := w.nextLookup + 1 })

/-- Starts a lookup that goes on in the background. -/
def spawnLookup (w : World) (site : Nat) (query : Endpoint) : Nat × World :=
  let (number, w) := w.addLookup site query true
  (number, w.wake (.lookup number))

/-- A lookup that the session itself waits for. -/
def lookup (w : World) (site : Nat) (query : Endpoint) :
    Except Fault (List Endpoint) × World :=
  let (number, w) := w.addLookup site query false
  let w := w.runLookup number
  match (w.lookups.get? number).bind (·.deadline?) with
  | none => (w.lookupAnswer number, w)
  | some deadline =>
      let w := (w.waitUntil (lookupIsTold number) deadline).runLookup number
      (w.lookupAnswer number, w)

/-- Waits for a lookup that runs in the background; its deadline bounds the waiting. -/
def joinLookup (w : World) (number : Nat) : Except Fault (List Endpoint) × World :=
  let w := w.settle
  match (w.lookups.get? number).bind (·.deadline?) with
  | none => (w.lookupAnswer number, w)
  | some deadline =>
      let w := (w.waitUntil (lookupIsDone number) deadline).settle
      (w.lookupAnswer number, w)

end ServiceGovernance.Session.World
