import ServiceGovernance.Routing.Rule

/-!
Rules applied one after the other, each to what the one before it kept. A chain made from rule
endpoints orders them by their timestamps, those without one first, and leaves out sentinels,
disabled endpoints and rules that cannot be read.
-/

namespace ServiceGovernance.Routing

abbrev Chain := List Rule

namespace Chain

def notAfter : Option UInt64 → Option UInt64 → Bool
  | none, _ => true
  | some _, none => false
  | some a, some b => a ≤ b

def isUsable (e : Endpoint) : Bool := !e.isSentinel && e.isEnabled

def byTimestamp (endpoints : List Endpoint) : List Endpoint :=
  endpoints.mergeSort fun a b => notAfter a.timestamp? b.timestamp?

def ofEndpoints (endpoints : List Endpoint) : Chain :=
  (byTimestamp (endpoints.filter isUsable)).filterMap fun e => (Rule.ofEndpoint e).toOption

def route (chain : Chain) (providers : List Endpoint) (consumer : Endpoint) : List Endpoint :=
  chain.foldl (fun kept rule => rule.route kept consumer) providers

end Chain

end ServiceGovernance.Routing
