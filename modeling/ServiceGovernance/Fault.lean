import ServiceGovernance.Text.Percent
import ServiceGovernance.Text.Quoted

/-!
What can be wrong with an endpoint's text, with a query or with the coordination store, and why a call
finds no way to a provider. Each cause has one text.
-/

namespace ServiceGovernance

inductive Endpoint.Defect where
  | missingSeparator
  | emptyProtocol
  | unterminatedHost
  | textAfterHost
  | missingPort
  | invalidPort (authority : String)
  | missingValue (pair : String)
  | emptyName
  | escape (defect : Text.Percent.Defect)
deriving DecidableEq, Repr

def Endpoint.Defect.reason : Endpoint.Defect → String
  | .missingSeparator => "missing protocol separator"
  | .emptyProtocol => "empty protocol"
  | .unterminatedHost => "unterminated IPv6 host"
  | .textAfterHost => "garbage after IPv6 host"
  | .missingPort => "missing port"
  | .invalidPort authority => "invalid port in " ++ Text.quoted authority
  | .missingValue pair => "parameter " ++ Text.quoted pair ++ " has no value"
  | .emptyName => "empty parameter name"
  | .escape defect => defect.reason

inductive Fault where
  | configuration (detail : String)
  | invalidEndpoint (input : String) (defect : Endpoint.Defect)
  | coordinationStore (detail : String)
deriving DecidableEq, Repr

def Fault.message : Fault → String
  | .configuration detail => "Invalid configuration: " ++ detail
  | .invalidEndpoint input defect =>
      "Invalid endpoint " ++ Text.quoted input ++ ": " ++ defect.reason
  | .coordinationStore detail => "Coordination store error: " ++ detail

inductive AdmissionKind where
  | rate
  | concurrency
deriving DecidableEq, Repr

def AdmissionKind.name : AdmissionKind → String
  | .rate => "rate"
  | .concurrency => "concurrency"

inductive CallFault where
  | configuration (detail : String)
  | noProvider (service : String)
  | rejected (kind : AdmissionKind) (name : String) (max : Int)
  | connectionFailed (address reason : String)
  | core (fault : Fault)
deriving DecidableEq, Repr

def CallFault.message : CallFault → String
  | .configuration detail => "Invalid configuration: " ++ detail
  | .noProvider service => "No available provider for " ++ service
  | .rejected kind name max =>
      "Admission rejected by " ++ kind.name ++ " limit on " ++ name ++ " (max " ++ toString max ++ ")"
  | .connectionFailed address reason => "Connection to " ++ address ++ " failed: " ++ reason
  | .core fault => fault.message

/-- A rejection or a failed connection may pass; a missing provider or a wrong setting stays. -/
def CallFault.isRetryable : CallFault → Bool
  | .rejected .. | .connectionFailed .. => true
  | .configuration _ | .noProvider _ | .core _ => false

end ServiceGovernance
