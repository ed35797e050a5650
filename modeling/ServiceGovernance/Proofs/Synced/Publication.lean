import ServiceGovernance.Proofs.Endpoint.RoundTrip
import ServiceGovernance.Proofs.Routing.Grammar
import ServiceGovernance.Proofs.Synced.Nodes
import ServiceGovernance.Proofs.Synced.Tree
import ServiceGovernance.Routing.Chain

/-!
A routing rule on its way through the store. Its text becomes a parameter of an endpoint, the endpoint
a text again and that the name of a node. Whoever reads the node has the rule as it was written.
-/

namespace ServiceGovernance

open Endpoint SyncedRegistry Store.Path Text

namespace Routing

/-- A rule is read as forced. -/
theorem Rule.force_of_parse {rule : String} {parsed : Rule} (read : Rule.parse rule = .ok parsed) :
    parsed.force = true := by
  obtain ⟨_, _, _, _, _, _, _, _, rfl⟩ := Rule.parse_eq_ok_iff.1 read
  rfl

theorem Rule.ofEndpoint_conditionRule (interface rule : String) :
    Rule.ofEndpoint (conditionRule interface rule) = Rule.parse rule := by
  have text : (conditionRule interface rule).param? "rule" = some rule := by
    simp [conditionRule, param?_withParam]
  have force : (conditionRule interface rule).param? "force" = none := param?_conditionRule (by decide)
  simp only [Rule.ofEndpoint, text, force]
  cases read : Rule.parse rule with
  | error fault => rfl
  | ok parsed =>
      have forced := Rule.force_of_parse read
      obtain ⟨text, condition, consequence, force⟩ := parsed
      cases forced
      rfl

theorem Chain.ofEndpoints_conditionRule (interface rule : String) :
    Chain.ofEndpoints [conditionRule interface rule] = (Rule.parse rule).toOption.toList := by
  have enabled : (conditionRule interface rule).param? "enabled" = none := param?_conditionRule (by decide)
  have usable : Chain.isUsable (conditionRule interface rule) = true := by
    rw [Chain.isUsable, isEnabled, enabled]
    rfl
  simp only [Chain.ofEndpoints, List.filter_cons_of_pos usable, List.filter_nil, Chain.byTimestamp,
    List.mergeSort_singleton, List.filterMap_cons, List.filterMap_nil, Rule.ofEndpoint_conditionRule]
  cases Rule.parse rule <;> rfl

end Routing

namespace Synced

/-- A published rule is one more child of its interface's rules, if the store takes it. Its name stands
for the rule's endpoint, and a chain made from that has the rule, unless its text cannot be read. -/
theorem publishRule_read_back (s : Synced) (interface rule : String) :
    let published := conditionRule interface rule
    let rules := categoryPath s.sync.root interface routersCategory
    let node := Percent.encode published.canonical
    (∀ name, name ∈ (s.publishRule interface rule).2.store.children rules ↔
      name ∈ s.store.children rules ∨
        name = node ∧ isValid (rules ++ "/" ++ node) = true ∧ s.store.online = true) ∧
    (interface ≠ "" → Absolute s.sync.root → isValid (rules ++ "/" ++ node) = true) ∧
    decodeChild? node = some published ∧
    (∀ narrowed, decodeChildren narrowed routersCategory [node] = [published]) ∧
    (∀ parsed, Routing.Rule.parse rule = .ok parsed → Routing.Chain.ofEndpoints [published] = [parsed]) ∧
    ((∃ fault, Routing.Rule.parse rule = .error fault) ↔ Routing.Chain.ofEndpoints [published] = []) := by
  intro published rules node
  have place : nodePath s.sync.root published = rules ++ "/" ++ node := by
    rw [nodePath, interface_conditionRule, category_conditionRule]
  have segment : Segment node := segment_encode published.canonical_ne_empty
  have stands : decodeChild? node = some published :=
    decodeChild?_encode (reparses_conditionRule interface rule)
  refine ⟨fun name => ?_, fun filled absolute => ?_, stands, fun narrowed => ?_, fun parsed read => ?_, ?_⟩
  · have written : (s.publishRule interface rule).2.store = _ := store_register s published
    rw [written, place]
    exact Store.mem_children_create (categoryPath_ne_rootPath (by decide)) segment
  · have directory := absolute_categoryPath absolute filled (show Segment routersCategory by decide)
    exact (Absolute.child directory segment).isValid
  · simp [decodeChildren, stands]
  · rw [Routing.Chain.ofEndpoints_conditionRule, read]
    rfl
  · rw [Routing.Chain.ofEndpoints_conditionRule]
    cases Routing.Rule.parse rule <;> simp [Except.toOption]

-- What the text of the rule itself holds is escaped twice.
example : Percent.encode (conditionRule "i" "%=>ä").canonical =
    "condition%3A%2F%2F0.0.0.0%3A0%3Fcategory%3Drouters%26dynamic%3Dfalse%26interface%3Di%26rule%3D" ++
      "%2525%253D%253E%25C3%25A4" := by
  decide +kernel

end Synced

end ServiceGovernance
