import ServiceGovernance.Config.OfDocument
import ServiceGovernance.Yaml.Reading

/-!
Reading a configuration from its text. The text holds a document that is a configuration, and the
configuration passes its check.
-/

namespace ServiceGovernance.Config

inductive Refusal where
  | unreadable
  | invalid (defect : Defect)
deriving DecidableEq, Repr

def checked (c : Config) : Except Refusal Config :=
  match c.check with
  | .ok () => .ok c
  | .error defect => .error (.invalid defect)

def ofText (text : String) : Except Refusal Config :=
  match (Document.ofYaml? text).bind (ofDocument? false) with
  | some c => c.checked
  | none => .error .unreadable

end ServiceGovernance.Config
