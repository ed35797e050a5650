import ServiceGovernance.Fault
import ServiceGovernance.SortedMap
import ServiceGovernance.Store.Path

/-!
A coordination store: a tree of nodes, watches on the children of a path, and listeners to the state
of the session. Nodes are kept by their paths in increasing order. A change sends a notice to every
watch on the parent's path; notices wait in `outbox`, in the order of sending, until they are taken.
-/

namespace ServiceGovernance

structure Store.Node where
  ephemeral : Bool := false
  data : List UInt8 := []
deriving DecidableEq, Repr

inductive Store.Error where
  | nodeExists (path : String)
  | noNode (path : String)
  | invalidPath (path : String)
  | unavailable (path : String)
deriving DecidableEq, Repr

def Store.Error.message : Store.Error → String
  | .nodeExists path => "Node already exists: " ++ path
  | .noNode path => "Node not found: " ++ path
  | .invalidPath path => "Node not found: invalid path " ++ Text.quoted path
  | .unavailable path => "Coordination store unavailable: store offline while accessing " ++ path

def Store.Error.toFault (e : Store.Error) : Fault := .coordinationStore e.message

inductive Store.SessionState where
  | connected
  | disconnected
  | reconnected
deriving DecidableEq, Repr

/-- The receiving end of watches and of session listeners. -/
abbrev Store.Mailbox := Nat

structure Store.Watch where
  path : String
  mailbox : Store.Mailbox
deriving DecidableEq, Repr

inductive Store.Notice where
  | children (watch : Nat) (mailbox : Store.Mailbox) (path : String) (children : List String)
  | session (mailbox : Store.Mailbox) (state : Store.SessionState)
deriving DecidableEq, Repr

def Store.Notice.mailbox : Store.Notice → Store.Mailbox
  | .children _ mailbox _ _ => mailbox
  | .session mailbox _ => mailbox

structure Store where
  nodes : SortedMap String Store.Node := .empty
  online : Bool := true
  watches : SortedMap Nat Store.Watch := .empty
  nextWatch : Nat := 0
  listeners : List Store.Mailbox := []
  nextMailbox : Nat := 0
  outbox : List Store.Notice := []
deriving DecidableEq, Inhabited

namespace Store

def isNode (s : Store) (path : String) : Bool := s.nodes.contains path

/-- The root is there without being a node. -/
def isPresent (s : Store) (path : String) : Bool := path == Path.rootPath || s.isNode path

/-- Reads the nodes from the lead of the path on, as far as they have it. -/
def children (s : Store) (path : String) : List String :=
  ((s.nodes.keysFrom (Path.lead path)).takeWhile (Path.isBelow path)).filterMap (Path.childName? path)

def childNotices (s : Store) (path : String) : List Notice :=
  (s.watches.entries.filter (·.2.path = path)).map fun (id, watch) =>
    .children id watch.mailbox path (s.children path)

def sendChildren (s : Store) (path : String) : Store :=
  { s with outbox := s.outbox ++ s.childNotices path }

/-- Tells the watches on the path above. -/
def sendParent (s : Store) (path : String) : Store :=
  match Path.parent? path with
  | some parent => s.sendChildren parent
  | none => s

def sendState (s : Store) (state : SessionState) : Store :=
  { s with outbox := s.outbox ++ s.listeners.map fun mailbox => .session mailbox state }

def addNode (s : Store) (path : String) (node : Node) : Store :=
  sendParent { s with nodes := s.nodes.insert path node } path

/-- The ancestors that are no nodes, up to the nearest one that is, from the top down. -/
def missingAncestors (s : Store) (path : String) : List String :=
  ((Path.ancestors path).reverse.takeWhile (!s.isNode ·)).reverse

def create (s : Store) (path : String) (ephemeral : Bool) : Except Error Unit × Store :=
  if !Path.isValid path then (.error (.invalidPath path), s)
  else if !s.online then (.error (.unavailable path), s)
  else if s.isNode path then (.error (.nodeExists path), s)
  else
    let parents := (s.missingAncestors path).foldl (fun s parent => s.addNode parent {}) s
    (.ok (), parents.addNode path { ephemeral })

def removeSubtree (s : Store) (path : String) : Store :=
  { s with nodes := s.nodes.filter fun key _ => key != path && !Path.isBelow path key }

def delete (s : Store) (path : String) : Except Error Unit × Store :=
  if !Path.isValid path then (.error (.invalidPath path), s)
  else if !s.online then (.error (.unavailable path), s)
  else if !s.isNode path then (.error (.noNode path), s)
  else (.ok (), (s.removeSubtree path).sendParent path)

def getChildren (s : Store) (path : String) : Except Error (List String) :=
  if !s.online then .error (.unavailable path)
  else if !s.isPresent path then .error (.noNode path)
  else .ok (s.children path)

def isReachable (s : Store) (path : String) : Bool :=
  path != Path.rootPath && (Path.ancestors path).all s.isNode

/-- The nodes that can be come to from the root, each with whether it is ephemeral. A node whose
parent is lost stays, but is not come to. -/
def reachable (s : Store) : List (String × Bool) :=
  (s.nodes.entries.filter fun entry => s.isReachable entry.1).map fun entry =>
    (entry.1, entry.2.ephemeral)

def tree (s : Store) : Except Error (List (String × Bool)) :=
  (s.getChildren Path.rootPath).map fun _ => s.reachable

/-- The watch's number and the children at this moment. -/
def watchChildren (s : Store) (path : String) (mailbox : Mailbox) :
    Except Error (Nat × List String) × Store :=
  if !s.online then (.error (.unavailable path), s)
  else if !s.isPresent path then (.error (.noNode path), s)
  else
    (.ok (s.nextWatch, s.children path),
      { s with
        watches := s.watches.insert s.nextWatch ⟨path, mailbox⟩
        nextWatch := s.nextWatch + 1 })

def unwatch (s : Store) (watch : Nat) : Store := { s with watches := s.watches.erase watch }

def getData (s : Store) (path : String) : Except Error (List UInt8) :=
  if !s.online then .error (.unavailable path)
  else
    match s.nodes.get? path with
    | some node => .ok node.data
    | none => .error (.noNode path)

def setData (s : Store) (path : String) (data : List UInt8) : Except Error Unit × Store :=
  if !s.online then (.error (.unavailable path), s)
  else
    match s.nodes.get? path with
    | some node => (.ok (), { s with nodes := s.nodes.insert path { node with data } })
    | none => (.error (.noNode path), s)

def currentState (s : Store) : SessionState := if s.online then .connected else .disconnected

/-- A new listener hears the present state at once. -/
def watchState (s : Store) (mailbox : Mailbox) : Store :=
  { s with
    listeners := s.listeners ++ [mailbox]
    outbox := s.outbox ++ [.session mailbox s.currentState] }

def setOnline (s : Store) (online : Bool) : Store :=
  if s.online = online then s
  else sendState { s with online } (if online then .reconnected else .disconnected)

def ephemeralPaths (s : Store) : List String :=
  (s.nodes.entries.filter (·.2.ephemeral)).map (·.1)

/-- A lost session takes its ephemeral nodes with it. -/
def expire (s : Store) : Store :=
  let lost := s.ephemeralPaths
  let told := s.sendState .disconnected
  let removed := { told with nodes := s.nodes.filter fun _ node => !node.ephemeral }
  (lost.foldl sendParent removed).sendState .reconnected

def openMailbox (s : Store) : Mailbox × Store :=
  (s.nextMailbox, { s with nextMailbox := s.nextMailbox + 1 })

/-- A closed mailbox takes nothing any more: its watches, its listeners and its notices go. -/
def closeMailbox (s : Store) (mailbox : Mailbox) : Store :=
  { s with
    watches := s.watches.filter fun _ watch => watch.mailbox != mailbox
    listeners := s.listeners.filter (· != mailbox)
    outbox := s.outbox.filter (·.mailbox != mailbox) }

def hasNotice (s : Store) (mailbox : Mailbox) : Bool := s.outbox.any (·.mailbox == mailbox)

/-- The oldest notice that `wanted` takes, and the store without it. -/
def takeNotice (s : Store) (wanted : Notice → Bool) : Option (Notice × Store) :=
  match s.outbox.find? wanted with
  | some notice => some (notice, { s with outbox := s.outbox.eraseP wanted })
  | none => none

end Store

end ServiceGovernance
