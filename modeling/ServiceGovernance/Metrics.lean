import ServiceGovernance.Fault
import ServiceGovernance.Pool
import ServiceGovernance.SortedMap

/-!
Counts of traffic decisions and their text exposition. A family with a label shows a line for each
value of the label that has been spoken of, and is left out when there is none.
-/

namespace ServiceGovernance

structure Metrics where
  rejections : SortedMap String Nat := .empty
  noProvider : Nat := 0
  notifications : SortedMap String Nat := .empty
deriving DecidableEq, Inhabited

namespace Metrics

def recordRejection (m : Metrics) (kind : AdmissionKind) : Metrics :=
  { m with rejections := m.rejections.update kind.name 0 (· + 1) }

/-- Asking for a count makes its line appear. -/
def readRejections (m : Metrics) (kind : AdmissionKind) : Nat × Metrics :=
  ((m.rejections.get? kind.name).getD 0,
    { m with rejections := m.rejections.update kind.name 0 id })

def recordNoProvider (m : Metrics) : Metrics := { m with noProvider := m.noProvider + 1 }

def recordNotification (m : Metrics) (category : String) : Metrics :=
  { m with notifications := m.notifications.update category 0 (· + 1) }

def escapeLabel (text : String) : String :=
  String.ofList <| text.toList.flatMap fun c =>
    if c = '\\' then ['\\', '\\'] else if c = '\n' then ['\\', 'n']
    else if c = '"' then ['\\', '"'] else [c]

def heading (name help kind : String) : List String :=
  ["# HELP " ++ name ++ " " ++ help, "# TYPE " ++ name ++ " " ++ kind]

def single (name help kind : String) (value : Nat) : List String :=
  heading name help kind ++ [name ++ " " ++ toString value]

def labelled (name help label : String) (values : SortedMap String Nat) : List String :=
  if values.entries.isEmpty then []
  else heading name help "counter" ++ values.entries.map fun (value, count) =>
    name ++ "\x7b" ++ label ++ "=\"" ++ escapeLabel value ++ "\"\x7d " ++ toString count

def lines (m : Metrics) (pool : PoolMeter) : List String :=
  labelled "admission_rejections_total" "Calls rejected by admission control" "kind"
      m.rejections ++
    single "no_provider_total" "Calls with no available provider" "counter" m.noProvider ++
    single "pool_connections_created_total" "Connections created by the pool" "counter"
      pool.created ++
    single "pool_connections_evicted_total" "Idle connections evicted by the pool" "counter"
      pool.evicted ++
    single "pool_idle_connections" "Connections currently idle in the pool" "gauge" pool.idle ++
    labelled "registry_notifications_total" "Registry notifications by category" "category"
      m.notifications

def exposition (m : Metrics) (pool : PoolMeter) : String :=
  String.join ((m.lines pool).map (· ++ "\n"))

end Metrics

end ServiceGovernance
