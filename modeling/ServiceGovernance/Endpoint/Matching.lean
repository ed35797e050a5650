import ServiceGovernance.Endpoint.Basic

/-!
Which endpoints a query asks for. Interface, category and the enabled flag decide for every endpoint;
group and version decide for providers only, because rules and overrides are scoped by interface.
-/

namespace ServiceGovernance.Endpoint

/-- An absent value counts as empty. The wanted value is `*`, the offered one, or a comma list with
the offered one among its items. -/
def valueMatches (wanted offered : Option String) : Bool :=
  let wanted := wanted.getD ""
  let offered := offered.getD ""
  wanted == anyValue || wanted == offered ||
    (Text.pieces ',' wanted.toList).any fun item => Text.trim item == offered.toList

def wantsInterface (query candidate : Endpoint) : Bool :=
  query.interface == anyValue || query.interface == candidate.interface

def wantsCategory (query : Endpoint) (category : String) : Bool :=
  query.categories.any fun wanted => wanted == anyValue || wanted == category

def wantsDisabled (query : Endpoint) : Bool := query.param? "enabled" == some anyValue

def wantsRelease (query candidate : Endpoint) : Bool :=
  valueMatches query.group? candidate.group? && valueMatches query.version? candidate.version?

def admits (query candidate : Endpoint) : Bool :=
  query.wantsInterface candidate &&
    query.wantsCategory candidate.category &&
    (candidate.isEnabled || query.wantsDisabled) &&
    (candidate.category != providersCategory || query.wantsRelease candidate)

/-- The categories to watch for a query: a `*` among them stands for the three known ones. -/
def expandedCategories (query : Endpoint) : List String :=
  if anyValue ∈ query.categories then [providersCategory, routersCategory, configuratorsCategory]
  else query.categories

end ServiceGovernance.Endpoint
