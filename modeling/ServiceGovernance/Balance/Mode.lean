import ServiceGovernance.Text.Blank

/-!
How one provider is picked from many: always the first in canonical order, or in smooth weighted
turns. A mode that a person sets may be spelled in several ways; `parse?` says which.
-/

namespace ServiceGovernance.Balance

inductive Mode where
  | pickFirst
  | roundRobin
deriving DecidableEq, Repr, Inhabited

namespace Mode

def name : Mode → String
  | .pickFirst => "pick_first"
  | .roundRobin => "round_robin"

def spelling (text : String) : String :=
  String.ofList ((Text.trim text.toList).map Char.toLower)

def ofSpelling? (spelled : String) : Option Mode :=
  if spelled ∈ ["pick_first", "pickfirst", "first"] then some .pickFirst
  else if spelled ∈ ["round_robin", "roundrobin", "smooth_weighted_round_robin", "wrr"] then
    some .roundRobin
  else none

def parse? (text : String) : Option Mode := ofSpelling? (spelling text)

def unknownMessage (text : String) : String := "unknown load balance mode: " ++ spelling text

/-- In a configuration document a mode is spelled exactly, and in fewer ways. -/
def ofSetting? (text : String) : Option Mode :=
  if text = "pick_first" then some .pickFirst
  else if text ∈ ["round_robin", "smooth_weighted_round_robin", "roundrobin"] then some .roundRobin
  else none

theorem ofSetting?_name (mode : Mode) : ofSetting? mode.name = some mode := by
  cases mode <;> decide

end Mode

end ServiceGovernance.Balance
