import ServiceGovernance.Session.Limits
import ServiceGovernance.Session.Report

/-!
One turn of a session: a command runs, then the background comes to rest unless it is told to wait,
and then everything that has happened is reported.
-/

namespace ServiceGovernance.Session

namespace World

/-- Carries out one command. -/
def run (w : World) : Command → Answered
  | .advanceTime milliseconds => (w.advance milliseconds).answer .nothing
  | .advanceClock milliseconds => (w.setClock (w.traffic.now + milliseconds)).answer .nothing
  | .setClock milliseconds => (w.setClock milliseconds).answer .nothing
  | .createNode path ephemeral => w.changeStore (·.create path ephemeral)
  | .deleteNode path => w.changeStore (·.delete path)
  | .listChildren path => w.readStore .texts (·.getChildren path)
  | .watchChildren path name => w.watchChildren path name
  | .unwatchChildren name => w.unwatchChildren name
  | .closeWatch name => w.closeWatch name
  | .readData path => w.readStore .bytes (·.getData path)
  | .writeData path data => w.changeStore (·.setData path data)
  | .watchSession name => w.watchSession name
  | .closeSession name => w.closeSession name
  | .setOnline online => (w.withStore (w.store.setOnline online)).answer .nothing
  | .expireSession => (w.withStore w.store.expire).answer .nothing
  | .describeNode path => w.describeNode path
  | .listTree => w.readStore .tree Store.tree
  | .openRegistry name synced lookupTimeout root retryPeriod =>
      w.openRegistry name synced lookupTimeout root retryPeriod
  | .dropRegistry registry => w.dropRegistry registry
  | .register registry endpoint => w.actOn registry (Act.register endpoint) done
  | .unregister registry endpoint => w.actOn registry (Act.unregister endpoint) done
  | .subscribe registry query listener => w.subscribe registry query listener
  | .unsubscribe registry query listener => w.unsubscribe registry query listener
  | .notify registry updates => w.actOn registry (Act.notify updates) done
  | .lookup registry query => w.lookupIn registry query
  | .spawnLookup registry query name => w.spawnLookupIn registry query name
  | .joinLookup name => w.joinNamed name
  | .readCached registry query => w.readFrom registry fun r => .endpoints (r.cached? query)
  | .readNotified registry query => w.readFrom registry fun r => .lists (r.notified.get? query)
  | .listRegistered registry =>
      w.readFrom registry fun r => .texts (canonicalTexts r.registered.toList)
  | .isRegistered registry endpoint => w.readFrom registry fun r => .flag (r.isRegistered endpoint)
  | .listQueries registry => w.readFrom registry fun r => .texts (canonicalTexts r.queries)
  | .hasListeners registry query => w.readFrom registry fun r => .flag (r.hasListeners query)
  | .destroyRegistry registry => w.actOn registry Act.destroy done
  | .publishRule registry interface rule =>
      w.actOn registry (Act.publishRule interface rule)
        (syncedOutcome fun e => .text (some e.canonical))
  | .countPending registry =>
      w.actOn registry Act.pending (syncedOutcome fun n => .number (some n))
  | .retry registry => w.actOn registry Act.retry (syncedOutcome fun n => .number (some n))
  | .openDirectory consumer name => w.openDirectory consumer name
  | .subscribeDirectory registry consumer name => w.subscribeDirectory registry consumer name
  | .unsubscribeDirectory registry directory => w.unsubscribeDirectory registry directory
  | .notifyDirectory directory updates => w.notifyDirectory directory updates
  | .describeDirectory directory =>
      w.readDirectory directory fun d => .directory d.consumer d.providers d.rules.length
  | .route directory call =>
      w.readDirectory directory fun d => .endpoints (some (d.routed call))
  | .refuse addresses => w.refuseAddresses addresses
  | .take addresses attributes name => w.take addresses attributes name
  | .giveBack name => w.giveBack name
  | .clearPool => w.clearPool
  | .describePool => w.describePool
  | .describeHandle name => w.describeHandle name
  | .openDispatcher directory name scope => w.openDispatcher directory name scope
  | .selectProviders dispatcher method times => w.selectProviders dispatcher method times
  | .connect dispatcher method name => w.connect dispatcher method name
  | .release dispatcher name => w.releaseHandle dispatcher name
  | .applyText text => w.applyText text
  | .applyDocument document => w.applyDocument document
  | .configureRate name max => (w.updateTraffic (·.configureRate name max)).answer .nothing
  | .readRate name => w.answer (.number (w.traffic.rates.limit? name))
  | .addRequests name times => w.addRequests name times
  | .configureActive name max => (w.updateTraffic (·.configureActive name max)).answer .nothing
  | .nameScope name method =>
      w.answer (.text (some (Admission.ConcurrencyLimiter.methodScope name method)))
  | .countActive name => w.countActive name
  | .checkActive name => w.checkActive name
  | .increaseActive name times => w.increaseActive name times
  | .decreaseActive name times => w.decreaseActive name times
  | .acquirePermit name permit => w.acquirePermit name permit
  | .dropPermit permit => w.dropPermit permit
  | .globalMode mode => w.putMode mode (fun m s => s.setGlobal m) fun s => some s.global
  | .interfaceMode name mode =>
      w.putMode mode (fun m s => s.setInterface name m) (·.interface? name)
  | .methodMode name method mode =>
      w.putMode mode (fun m s => s.setMethod name method m) (·.method? name method)
  | .resolveMode name method candidates => w.resolveMode name method candidates
  | .selectCandidates consumer method candidates scope times =>
      w.selectCandidates consumer method candidates scope times
  | .readGeneration name =>
      w.answer (.number ((w.traffic.balancer.roundRobin.generation? name).map Int.ofNat))
  | .countRejection kind => (w.updateMetrics (·.recordRejection kind)).answer .nothing
  | .countNotification category => (w.updateMetrics (·.recordNotification category)).answer .nothing
  | .readRejections => w.readRejections
  | .readMetrics => w.answer (.text (some w.traffic.exposition))

/-- A turn whose command could not be made out does nothing else. -/
def turn (w : World) (request : Except Failure Command) (settles : Bool) :
    Outcome × Report × World :=
  let (outcome, w) := match request with
    | .ok command => w.run command
    | .error failure => w.refuse failure
  (outcome, (if settles then w.settle else w).report)

end World

end ServiceGovernance.Session
