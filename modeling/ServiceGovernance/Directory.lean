import ServiceGovernance.Endpoint.Matching
import ServiceGovernance.Routing.Chain

/-!
The live providers and routing rules of one consumed service. A notification is the whole new list of
one category; its first endpoint tells which one.
-/

namespace ServiceGovernance

structure Directory where
  consumer : Endpoint
  providers : List Endpoint := []
  rules : Routing.Chain := []
deriving DecidableEq, Inhabited

namespace Directory

/-- What a directory subscribes to: the consumer's providers and routing rules. -/
def query (d : Directory) : Endpoint :=
  d.consumer.withParam "category"
    (Endpoint.providersCategory ++ "," ++ Endpoint.routersCategory)

def categoryOf? (endpoints : List Endpoint) : Option String :=
  endpoints.head?.map (·.category)

def receive (d : Directory) (endpoints : List Endpoint) : Directory :=
  let members := Endpoint.members endpoints
  match categoryOf? endpoints with
  | none => d
  | some category =>
      if category = Endpoint.providersCategory then { d with providers := members }
      else if category = Endpoint.routersCategory then
        { d with rules := Routing.Chain.ofEndpoints members }
      else d

def routed (d : Directory) (call : Endpoint) : List Endpoint := d.rules.route d.providers call

end Directory

end ServiceGovernance
