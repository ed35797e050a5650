import ServiceGovernance.Endpoint.Wire
import ServiceGovernance.Routing.Pattern

/-!
Routing rules `condition => consequence`. Each side is a conjunction, joined by `&`, of matchers
`key=v1,v2` or `key!=v1,v2`. When the consumer satisfies the condition, only providers that satisfy
the consequence stay. A rule without an arrow is a consequence for every consumer.
-/

namespace ServiceGovernance.Routing

open Text

structure Matcher where
  key : String
  negated : Bool
  patterns : List Pattern
deriving DecidableEq, Repr

inductive Rule.Defect where
  | empty
  | severalArrows
  | noOperator (matcher : String)
  | emptyKey (matcher : String)
  | danglingOperator (matcher : String)
  | noValues (matcher : String)
deriving DecidableEq, Repr

def Rule.Defect.reason : Rule.Defect → String
  | .empty => "rule is empty"
  | .severalArrows => "more than one \"=>\""
  | .noOperator matcher => "matcher " ++ quoted matcher ++ " has no operator"
  | .emptyKey matcher => "matcher " ++ quoted matcher ++ " has an empty key"
  | .danglingOperator matcher => "matcher " ++ quoted matcher ++ " has a dangling operator"
  | .noValues matcher => "matcher " ++ quoted matcher ++ " has no values"

namespace Matcher

/-- Key, values and whether the operator is `!=`, which is looked for first. -/
def split (raw : List Char) : Option (List Char × List Char × Bool) :=
  match cut "!=".toList raw with
  | some (key, values) => some (key, values, true)
  | none => (cut ['='] raw).map fun halves => (halves.1, halves.2, false)

def valuesOf (values : List Char) : List (List Char) :=
  ((pieces ',' values).map trim).filter (· ≠ [])

def ofText (raw : List Char) : Except Rule.Defect Matcher :=
  let told := String.ofList raw
  match split raw with
  | none => .error (.noOperator told)
  | some (key, values, negated) =>
      if trim key = [] then .error (.emptyKey told)
      else if '=' ∈ values then .error (.danglingOperator told)
      else if valuesOf values = [] then .error (.noValues told)
      else .ok {
        key := String.ofList (trim key)
        negated := negated
        patterns := (valuesOf values).map Pattern.ofText }

/-- The value that a key stands for; any other key is the parameter of that name. -/
def valueOf (e : Endpoint) (key : String) : Option String :=
  if key = "host" then some e.host
  else if key = "port" then some (toString e.port.toNat)
  else if key = "protocol" then some e.protocol
  else if key = "address" then some e.address
  else if key = "path" ∨ key = "interface" then some e.interface
  else e.param? key

/-- An absent attribute satisfies exactly the negated matchers. -/
def accepts (m : Matcher) (e : Endpoint) : Bool :=
  match valueOf e m.key with
  | some value => (m.patterns.any fun pattern => pattern.accepts value.toList) != m.negated
  | none => m.negated

end Matcher

structure Rule where
  text : String
  condition : List Matcher
  consequence : List Matcher
  force : Bool := true
deriving DecidableEq, Repr

namespace Rule

def parseMatchers : List (List Char) → Except Defect (List Matcher)
  | [] => .ok []
  | raw :: rest => do
      let matcher ← Matcher.ofText raw
      let matchers ← parseMatchers rest
      .ok (matcher :: matchers)

def parseSide (side : List Char) : Except Defect (List Matcher) :=
  parseMatchers (((pieces '&' side).map trim).filter (· ≠ []))

/-- The two sides; without an arrow the condition is empty. -/
def sides (text : List Char) : Except Defect (List Char × List Char) :=
  match cut "=>".toList text with
  | none => .ok ([], text)
  | some (condition, consequence) =>
      if occurs "=>".toList consequence then .error .severalArrows
      else .ok (condition, consequence)

def ofChars (raw : List Char) : Except Defect Rule :=
  if trim raw = [] then .error .empty
  else do
    let (condition, consequence) ← sides (trim raw)
    let condition ← parseSide condition
    let consequence ← parseSide consequence
    .ok { text := String.ofList (trim raw), condition, consequence }

def parse (raw : String) : Except CallFault Rule :=
  match ofChars raw.toList with
  | .ok rule => .ok rule
  | .error defect =>
      .error (.configuration ("invalid routing rule " ++ quoted raw ++ ": " ++ defect.reason))

def withForce (rule : Rule) (force : Bool) : Rule := { rule with force }

/-- A rule endpoint carries its text in `rule`; it is forced unless `force` is `false`. -/
def ofEndpoint (e : Endpoint) : Except CallFault Rule :=
  match e.param? "rule" with
  | none => .error (.configuration ("router endpoint " ++ e.canonical ++ " has no rule"))
  | some raw => (parse raw).map (·.withForce (e.param? "force" != some "false"))

def appliesTo (rule : Rule) (consumer : Endpoint) : Bool :=
  rule.condition.all (·.accepts consumer)

/-- An empty consequence admits nobody. -/
def admits (rule : Rule) (provider : Endpoint) : Bool :=
  !rule.consequence.isEmpty && rule.consequence.all (·.accepts provider)

/-- A rule that is not forced and that would keep nobody is passed over, unless its consequence is
empty, which asks for nobody. -/
def yields (rule : Rule) : Bool := !rule.force && !rule.consequence.isEmpty

def route (rule : Rule) (providers : List Endpoint) (consumer : Endpoint) : List Endpoint :=
  if rule.appliesTo consumer then
    let kept := providers.filter rule.admits
    if kept.isEmpty && rule.yields then providers else kept
  else providers

end Rule

end ServiceGovernance.Routing
