import ServiceGovernance.Config.Basic
import ServiceGovernance.Config.Document
import ServiceGovernance.Text.Numeral

/-!
Reading a configuration from a document and writing it as one. Fields that are not known are passed
over; a known field stands once, and one that is left out has its default. What is optional may be
null, and nothing else may. Where positions are allowed a record may also be the list of its fields,
in their order, with those at the end left out.
-/

namespace ServiceGovernance.Document

open Balance Text

def isNullWord (word : String) : Bool := word ∈ ["", "~", "null", "Null", "NULL"]

def isAbsent : Document → Bool
  | .null => true
  | .bare word => isNullWord word
  | .bool _ | .integer _ | .text _ | .list _ | .record _ => false

def readText? : Document → Option String
  | .bare word | .text word => some word
  | .null | .bool _ | .integer _ | .list _ | .record _ => none

def radixDigit? (radix : Nat) (c : Char) : Option Nat :=
  let code := c.toNat
  let digit? :=
    if 0x30 ≤ code ∧ code ≤ 0x39 then some (code - 0x30)
    else if 0x61 ≤ code ∧ code ≤ 0x66 then some (code - 0x61 + 10)
    else if 0x41 ≤ code ∧ code ≤ 0x46 then some (code - 0x41 + 10)
    else none
  digit?.filter (· < radix)

def radixFrom (radix value : Nat) : List Char → Option Nat
  | [] => some value
  | c :: rest =>
      match radixDigit? radix c with
      | some digit => radixFrom radix (radix * value + digit) rest
      | none => none

def radix? (radix : Nat) : List Char → Option Nat
  | [] => none
  | cs => radixFrom radix 0 cs

/-- A number without a sign. Zeros before other digits make no number but a text. -/
def magnitude? : List Char → Option Nat
  | '0' :: 'x' :: digits => radix? 16 digits
  | '0' :: 'o' :: digits => radix? 8 digits
  | '0' :: 'b' :: digits => radix? 2 digits
  | '0' :: _ :: _ => none
  | cs => radix? 10 cs

def bareInteger? : List Char → Option Int
  | '+' :: cs => (magnitude? cs).map Int.ofNat
  | '-' :: cs => (magnitude? cs).map fun n => -(n : Int)
  | cs => (magnitude? cs).map Int.ofNat

def readInteger? : Document → Option Int
  | .integer value => some value
  | .bare word => bareInteger? word.toList
  | .null | .bool _ | .text _ | .list _ | .record _ => none

def readBetween? (least bound : Int) (d : Document) : Option Int :=
  d.readInteger?.filter fun n => least ≤ n && n < bound

/-- A number that cannot be negative takes no minus sign, not even before zero. -/
def isNegated : Document → Bool
  | .bare word => word.toList.head? == some '-'
  | .null | .bool _ | .integer _ | .text _ | .list _ | .record _ => false

def readNatural? (bound : Nat) (d : Document) : Option Nat :=
  if d.isNegated then none else (d.readBetween? 0 bound).map Int.toNat

def readWord32? (d : Document) : Option UInt32 := (d.readNatural? UInt32.size).map UInt32.ofNat

def readWord64? (d : Document) : Option UInt64 := (d.readNatural? UInt64.size).map UInt64.ofNat

def readInt64? (d : Document) : Option Int64 :=
  (d.readBetween? (-0x8000000000000000) 0x8000000000000000).map Int64.ofInt

/-- A mode is its name, or a record of that name with nothing under it. -/
def readMode? : Document → Option Mode
  | .bare word | .text word => Mode.ofSetting? word
  | .record [(.text name, .null)] => Mode.ofSetting? name
  | .null | .bool _ | .integer _ | .list _ | .record _ => none

def readOptional? {α : Type} (read : Document → Option α) (d : Document) : Option (Option α) :=
  if d.isAbsent then some none else (read d).map some

def readEach? {α : Type} (read : Document → Option α) : List Document → Option (List α)
  | [] => some []
  | item :: rest => do
      let value ← read item
      let values ← readEach? read rest
      some (value :: values)

/-- Nothing after a key is an empty list. -/
def readList? {α : Type} (read : Document → Option α) : Document → Option (List α)
  | .list items => readEach? read items
  | .bare word => if word = "" then some [] else none
  | .null | .bool _ | .integer _ | .text _ | .record _ => none

abbrev Fields := List (String × Document)

/-- The known fields among these; a field that stands twice is refused, and so is a key that is no
scalar. -/
def knownFields? (known : List String) : List (Document × Document) → Option Fields
  | [] => some []
  | (key, value) :: rest => do
      let name ← key.readText?
      let fields ← knownFields? known rest
      if name ∈ known then
        if (fields.map (·.1)).contains name then none else some ((name, value) :: fields)
      else some fields

/-- Nothing after a key is a record without fields. -/
def readFields? (positions : Bool) (known : List String) : Document → Option Fields
  | .record fields => knownFields? known fields
  | .bare word => if word = "" then some [] else none
  | .list items =>
      if positions && items.length ≤ known.length then some (known.zip items) else none
  | .null | .bool _ | .integer _ | .text _ => none

def required? {α : Type} (fields : Fields) (name : String) (read : Document → Option α) : Option α :=
  (fields.lookup name).bind read

def defaulted? {α : Type} (fields : Fields) (name : String) (read : Document → Option α)
    (default : α) : Option α :=
  match fields.lookup name with
  | some value => read value
  | none => some default

def optional? {α : Type} (fields : Fields) (name : String) (read : Document → Option α) :
    Option (Option α) :=
  defaulted? fields name (readOptional? read) none

end ServiceGovernance.Document

namespace ServiceGovernance

open Document

def RegistrySettings.fieldNames : List String := ["root", "lookupTimeoutMs", "retryPeriodMs"]

def RegistrySettings.ofDocument? (positions : Bool) (d : Document) : Option RegistrySettings := do
  let fields ← d.readFields? positions fieldNames
  let root ← defaulted? fields "root" readText? "/rpc"
  let lookupTimeout ← defaulted? fields "lookupTimeoutMs" readWord64? 5000
  let retryPeriod ← defaulted? fields "retryPeriodMs" readWord64? 5000
  some { root, lookupTimeout, retryPeriod }

def PoolSettings.fieldNames : List String := ["idleTimeoutMs"]

def PoolSettings.ofDocument? (positions : Bool) (d : Document) : Option PoolSettings := do
  let fields ← d.readFields? positions fieldNames
  let idleTimeout ← defaulted? fields "idleTimeoutMs" readWord64? 60000
  some { idleTimeout }

def MethodSettings.fieldNames : List String := ["name", "loadbalance", "actives"]

def MethodSettings.ofDocument? (positions : Bool) (d : Document) : Option MethodSettings := do
  let fields ← d.readFields? positions fieldNames
  let name ← required? fields "name" readText?
  let mode ← optional? fields "loadbalance" readMode?
  let actives ← optional? fields "actives" readWord32?
  some { name, mode, actives }

def ServiceSettings.fieldNames : List String :=
  ["interface", "loadbalance", "tps", "actives", "weight", "methods", "rules"]

def ServiceSettings.ofDocument? (positions : Bool) (d : Document) : Option ServiceSettings := do
  let fields ← d.readFields? positions fieldNames
  let interface ← required? fields "interface" readText?
  let mode ← optional? fields "loadbalance" readMode?
  let tps ← optional? fields "tps" readInt64?
  let actives ← optional? fields "actives" readWord32?
  let weight ← optional? fields "weight" readWord32?
  let methods ← defaulted? fields "methods" (readList? (MethodSettings.ofDocument? positions)) []
  let rules ← defaulted? fields "rules" (readList? readText?) []
  some { interface, mode, tps, actives, weight, methods, rules }

namespace Config

def fieldNames : List String := ["registry", "pool", "load_balance", "services", "providers"]

def ofDocument? (positions : Bool) (d : Document) : Option Config := do
  let fields ← d.readFields? positions fieldNames
  let registry ← defaulted? fields "registry" (RegistrySettings.ofDocument? positions) {}
  let pool ← defaulted? fields "pool" (PoolSettings.ofDocument? positions) {}
  let mode ← defaulted? fields "load_balance" readMode? .pickFirst
  let services ←
    defaulted? fields "services" (readList? (ServiceSettings.ofDocument? positions)) []
  let providers ← defaulted? fields "providers" (readList? readText?) []
  some { registry, pool, mode, services, providers }

end Config

namespace Document

def field (name : String) (value : Document) : Document × Document := (.text name, value)

def optionalField (name : String) : Option Document → List (Document × Document)
  | some value => [field name value]
  | none => []

def ofMode (mode : Balance.Mode) : Document := .text mode.name

def ofTexts (texts : List String) : Document := .list (texts.map .text)

end Document

def RegistrySettings.toDocument (s : RegistrySettings) : Document :=
  .record [field "root" (.text s.root),
    field "lookupTimeoutMs" (.integer s.lookupTimeout.toNat),
    field "retryPeriodMs" (.integer s.retryPeriod.toNat)]

def PoolSettings.toDocument (s : PoolSettings) : Document :=
  .record [field "idleTimeoutMs" (.integer s.idleTimeout.toNat)]

def MethodSettings.toDocument (s : MethodSettings) : Document :=
  .record ([field "name" (.text s.name)] ++
    optionalField "loadbalance" (s.mode.map ofMode) ++
    optionalField "actives" (s.actives.map fun n => .integer n.toNat))

def ServiceSettings.toDocument (s : ServiceSettings) : Document :=
  .record ([field "interface" (.text s.interface)] ++
    optionalField "loadbalance" (s.mode.map ofMode) ++
    optionalField "tps" (s.tps.map fun n => .integer n.toInt) ++
    optionalField "actives" (s.actives.map fun n => .integer n.toNat) ++
    optionalField "weight" (s.weight.map fun n => .integer n.toNat) ++
    [field "methods" (.list (s.methods.map MethodSettings.toDocument)),
     field "rules" (ofTexts s.rules)])

def Config.toDocument (c : Config) : Document :=
  .record [field "registry" c.registry.toDocument,
    field "pool" c.pool.toDocument,
    field "load_balance" (ofMode c.mode),
    field "services" (.list (c.services.map ServiceSettings.toDocument)),
    field "providers" (ofTexts c.providers)]

end ServiceGovernance
