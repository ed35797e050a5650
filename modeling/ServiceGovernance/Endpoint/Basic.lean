import ServiceGovernance.SortedMap
import ServiceGovernance.Text.Blank
import ServiceGovernance.Text.Cut
import ServiceGovernance.Text.Numeral

/-!
An endpoint is a service instance, a routing rule or a query, with its address and its parameters.
Parameters are sorted by name, so equal endpoints have equal canonical texts. What an endpoint says
about itself (interface, category, weight and so on) is read from well-known parameters.
-/

namespace ServiceGovernance

structure Endpoint where
  protocol : String
  host : String
  port : UInt16
  path : String := ""
  params : SortedMap String String := .empty
deriving DecidableEq, Inhabited

namespace Endpoint

def anyValue : String := "*"
def emptyProtocol : String := "empty"
def conditionProtocol : String := "condition"
def anyHost : String := "0.0.0.0"
def providersCategory : String := "providers"
def routersCategory : String := "routers"
def configuratorsCategory : String := "configurators"
def defaultWeight : UInt32 := 100

def param? (e : Endpoint) (name : String) : Option String := e.params.get? name

def withParam (e : Endpoint) (name value : String) : Endpoint :=
  { e with params := e.params.insert name value }

def withoutParam (e : Endpoint) (name : String) : Endpoint :=
  { e with params := e.params.erase name }

/-- A path is kept without the slashes at its start. -/
def withPath (e : Endpoint) (path : String) : Endpoint :=
  { e with path := String.ofList (path.toList.dropWhile (· = '/')) }

def withProtocol (e : Endpoint) (protocol : String) : Endpoint := { e with protocol }

/-- A host that holds a colon stands in brackets. -/
def addressChars (host : List Char) (port : UInt16) : List Char :=
  let bracketed := if ':' ∈ host then '[' :: host ++ [']'] else host
  bracketed ++ ':' :: (toString port.toNat).toList

def address (e : Endpoint) : String := String.ofList (addressChars e.host.toList e.port)

def interface (e : Endpoint) : String := (e.param? "interface").getD e.path

def category (e : Endpoint) : String := (e.param? "category").getD providersCategory

/-- The items of a comma list, without blanks around them and without empty items. -/
def listItems (list : String) : List String :=
  ((Text.pieces ',' list.toList).map Text.trim).filter (· ≠ []) |>.map String.ofList

def categories (e : Endpoint) : List String :=
  match e.param? "category" with
  | some list => listItems list
  | none => [providersCategory]

def version? (e : Endpoint) : Option String := e.param? "version"

def group? (e : Endpoint) : Option String := e.param? "group"

/-- A weight that is absent or no number in range counts as the default. -/
def weight (e : Endpoint) : UInt32 :=
  ((e.param? "weight").bind Text.word32?).getD defaultWeight

def isDynamic (e : Endpoint) : Bool := e.param? "dynamic" != some "false"

def isEnabled (e : Endpoint) : Bool := e.param? "enabled" != some "false"

def timestamp? (e : Endpoint) : Option UInt64 :=
  (e.param? "timestamp").bind Text.word64?

/-- A sentinel says that a category of a query has no members. -/
def isSentinel (e : Endpoint) : Bool := e.protocol == emptyProtocol

/-- A parameter of one method, or else of the whole service. -/
def methodParam? (e : Endpoint) (method name : String) : Option String :=
  (e.param? (method ++ "." ++ name)).orElse fun _ => e.param? name

/-- `group/interface:version` without the parts that are absent or empty. -/
def serviceKey (e : Endpoint) : String :=
  let lead := match e.group? with
    | some group => if group = "" then "" else group ++ "/"
    | none => ""
  let tail := match e.version? with
    | some version => if version = "" then "" else ":" ++ version
    | none => ""
  lead ++ e.interface ++ tail

def sentinel (query : Endpoint) (category : String) : Endpoint :=
  (query.withProtocol emptyProtocol).withParam "category" category

/-- A routing rule for an interface; it is persistent, so it outlives the session that wrote it. -/
def conditionRule (interface rule : String) : Endpoint :=
  ((({ protocol := conditionProtocol, host := anyHost, port := 0 : Endpoint }.withParam
    "interface" interface).withParam
    "category" routersCategory).withParam
    "dynamic" "false").withParam
    "rule" rule

def members (endpoints : List Endpoint) : List Endpoint := endpoints.filter (!·.isSentinel)

theorem isSentinel_sentinel (query : Endpoint) (category : String) :
    (sentinel query category).isSentinel = true := by
  simp [sentinel, isSentinel, withProtocol, withParam]

theorem category_sentinel (query : Endpoint) (category : String) :
    (sentinel query category).category = category := by
  simp [sentinel, Endpoint.category, param?, withParam]

theorem param?_withParam (e : Endpoint) (name other value : String) :
    (e.withParam name value).param? other = if other = name then some value else e.param? other :=
  SortedMap.get?_insert ..

end Endpoint

end ServiceGovernance
