import ServiceGovernance.Proofs.Endpoint.Canonical
import ServiceGovernance.Proofs.SortedSets

/-!
Which endpoints come back from their canonical text. The parts of the text are ended by separators, so
no part may hold its own; and the host alone decides about its brackets, whatever brackets it was read
from.
-/

namespace ServiceGovernance.Endpoint

open Text

variable {e : Endpoint} {input : String} {host authority port : List Char}

section Address

/-- A host is told from its brackets: with a colon in it, it is written in brackets and must not close
them itself; without one it is written as it is and must not open any. -/
def Unambiguous (host : List Char) : Prop := if ':' ∈ host then ']' ∉ host else host.head? ≠ some '['

instance (host : List Char) : Decidable (Unambiguous host) :=
  inferInstanceAs (Decidable (if ':' ∈ host then ']' ∉ host else host.head? ≠ some '['))

theorem splitAuthority_bracketed (plain : ']' ∉ host) :
    splitAuthority ('[' :: (host ++ ']' :: ':' :: port)) = .ok (host, port) := by
  rw [splitAuthority, cut_single_eq_some_iff.2 ⟨rfl, plain⟩]
  rfl

theorem splitAuthority_open (begins : authority.head? ≠ some '[')
    (found : cutLast ':' authority = some (host, port)) : splitAuthority authority = .ok (host, port) := by
  unfold splitAuthority
  split
  · exact absurd rfl begins
  · rw [found]

theorem readAuthority_addressChars (clear : Unambiguous host) (port : UInt16) :
    readAuthority (addressChars host port) = .ok (String.ofList host, port) := by
  have halves : splitAuthority (addressChars host port) = .ok (host, Nat.toDigits 10 port.toNat) := by
    unfold Unambiguous at clear
    rw [addressChars_eq, bracketed]
    split at clear
    · next colon =>
        rw [if_pos colon]
        simpa using splitAuthority_bracketed clear
    · next none_there =>
        rw [if_neg none_there]
        refine splitAuthority_open ?_ (cutLast_eq_some_iff.2 ⟨rfl, not_mem_toDigits (by decide) _⟩)
        cases host with
        | nil => simp
        | cons c host => simpa using clear
  have number : natural? UInt16.size (Nat.toDigits 10 port.toNat) = some port.toNat :=
    natural?_toDigits port.toNat_lt
  simp only [readAuthority, halves, bind, Except.bind, number, UInt16.ofNat_toNat]

theorem readAuthority_of_split {defect : Defect} (split : splitAuthority authority = .error defect) :
    readAuthority authority = .error defect := by
  rw [readAuthority, split]
  rfl

/-- Behind a closing bracket there is no port with another one. -/
theorem readAuthority_closed {rest : List Char} (plain : ']' ∉ host) (more : ']' ∈ rest) :
    ∃ defect, readAuthority ('[' :: (host ++ ']' :: rest)) = .error defect := by
  have found : cut [']'] (host ++ ']' :: rest) = some (host, rest) := cut_single_eq_some_iff.2 ⟨rfl, plain⟩
  cases rest with
  | nil => cases more
  | cons c port =>
      by_cases colon : c = ':'
      · subst colon
        have there : ']' ∈ port := by simpa using more
        have number : natural? UInt16.size port = none := natural?_eq_none there (by decide) (by decide)
        refine ⟨.invalidPort (String.ofList ('[' :: (host ++ ']' :: ':' :: port))), ?_⟩
        simp only [readAuthority, splitAuthority_bracketed plain, bind, Except.bind, number]
      · exact ⟨.textAfterHost, readAuthority_of_split (by simp [splitAuthority, found, colon])⟩

/-- Of a host that was read, the written form is refused if it is ambiguous. -/
theorem readAuthority_ambiguous (ambiguous : ¬ Unambiguous host) (read : ']' ∉ host ∨ host.head? ≠ some '[')
    (port : UInt16) : ∃ defect, readAuthority (addressChars host port) = .error defect := by
  unfold Unambiguous at ambiguous
  rw [addressChars_eq, bracketed]
  split at ambiguous
  · next colon =>
      have inside : cut [']'] host ≠ none := fun missing => ambiguous (cut_single_eq_none_iff.1 missing)
      obtain ⟨⟨left, more⟩, found⟩ := Option.ne_none_iff_exists'.1 inside
      obtain ⟨rfl, plain⟩ := cut_single_eq_some_iff.1 found
      rw [if_pos colon]
      have closed : ']' ∈ more ++ ']' :: ':' :: Nat.toDigits 10 port.toNat := by simp
      simpa using readAuthority_closed plain closed
  · next none_there =>
      rw [if_neg none_there]
      have opens := Decidable.not_not.1 ambiguous
      have plain : ']' ∉ host := read.resolve_right (Decidable.not_not.2 opens)
      cases host with
      | nil => cases opens
      | cons c host =>
          cases opens
          have missing : cut [']'] (host ++ ':' :: Nat.toDigits 10 port.toNat) = none := by
            rw [cut_single_eq_none_iff]
            have digits := not_mem_toDigits (c := ']') (by decide) port.toNat
            simpa [digits] using plain
          exact ⟨.unterminatedHost, readAuthority_of_split (by simp [splitAuthority, missing])⟩

end Address

section Whole

/-- A text that ends where the rest, if there is one, starts with the separator. -/
theorem cut_getD_append {c : Char} {left rest : List Char} (absent : c ∉ left)
    (starts : rest = [] ∨ rest.head? = some c) :
    (cut [c] (left ++ rest)).getD (left ++ rest, []) = (left, rest.tail) := by
  cases rest with
  | nil => simp [cut_single_eq_none_iff.2 absent]
  | cons d rest =>
      have same : d = c := by simpa using starts
      subst same
      rw [cut_single_eq_some_iff.2 ⟨rfl, absent⟩]
      rfl

theorem pieces_paramChars (param : String × String) (params : List (String × String)) :
    pieces '&' (paramChars param ++ moreChars params) = paramChars param :: params.map paramChars := by
  have absent := not_mem_paramChars (c := '&') (by decide) (by decide)
  induction params generalizing param with
  | nil => simpa [moreChars, pieces] using List.splitOn_eq_singleton (absent param)
  | cons next params ih =>
      have whole : moreChars (next :: params) = '&' :: (paramChars next ++ moreChars params) := rfl
      rw [whole, pieces, List.splitOn_append_cons_self_of_not_mem (absent param)]
      exact congrArg _ (ih next)

theorem queryPairs_queryChars (params : List (String × String)) :
    queryPairs (queryChars params).tail = params.map paramChars := by
  have filled : ∀ param, paramChars param ≠ [] := fun param => by simp [paramChars]
  cases params with
  | nil => rfl
  | cons param params =>
      show (pieces '&' (paramChars param ++ moreChars params)).filter (· ≠ []) = _
      rw [pieces_paramChars, ← List.map_cons, List.filter_eq_self]
      intro pair member
      obtain ⟨other, _, rfl⟩ := List.mem_map.1 member
      simpa using filled other

theorem readComponent_encodeChars (text : String) :
    readComponent (Percent.encodeChars text.toList) = .ok text := by
  simp [readComponent, Percent.decodeChars_encodeChars]

theorem readParam_paramChars {param : String × String} (filled : param.1 ≠ "") (input : String) :
    readParam input (paramChars param) = .ok param := by
  have found : cut ['='] (paramChars param) =
      some (Percent.encodeChars param.1.toList, Percent.encodeChars param.2.toList) :=
    cut_single_eq_some_iff.2 ⟨rfl, Percent.not_mem_encodeChars (by decide) _⟩
  simp only [readParam, found, readComponent_encodeChars, bind, Except.bind, filled, if_false]

theorem readParams_paramChars {params : List (String × String)} (filled : ∀ param ∈ params, param.1 ≠ "")
    (input : String) (before : SortedMap String String) :
    readParams input before (params.map paramChars) =
      .ok (params.foldl (fun m param => m.insert param.1 param.2) before) := by
  induction params generalizing before with
  | nil => rfl
  | cons param params ih =>
      rw [List.map_cons, readParams, readParam_paramChars (filled param List.mem_cons_self)]
      exact ih (fun other member => filled other (List.mem_cons_of_mem _ member)) _

/-- An endpoint whose written form can be taken apart at its separators and whose parameters have
names. Its address may still be ambiguous. -/
structure Legible (e : Endpoint) : Prop extends Plain e where
  protocol_filled : e.protocol ≠ ""
  names_filled : e.param? "" = none

theorem Legible.parse_canonical (legible : e.Legible) :
    parse e.canonical = match readAuthority (addressChars e.host.toList e.port) with
      | .error defect => .error (.invalidEndpoint e.canonical defect)
      | .ok (host, port) => .ok { e with host, port } := by
  have path : String.ofList (pathChars e.path).tail = e.path := by
    unfold pathChars
    split
    · next empty => rw [empty]; rfl
    · exact String.ofList_toList
  have params : readParams e.canonical .empty (queryPairs (queryChars e.params.entries).tail) = .ok e.params := by
    rw [queryPairs_queryChars, readParams_paramChars (fun param member empty => ?_)]
    · exact congrArg Except.ok (SortedMap.ofList_entries e.params)
    · have found := (SortedMap.mem_entries_iff e.params param.1 param.2).1 member
      rw [empty] at found
      exact absurd (legible.names_filled.symm.trans found) (by simp)
  unfold parse
  rw [toList_canonical, cut_scheme legible.protocol]
  cases protocol : e.protocol.toList with
  | nil => exact absurd (String.toList_inj.1 protocol) legible.protocol_filled
  | cons c rest =>
      have text : String.ofList (c :: rest) = e.protocol := by rw [← protocol, String.ofList_toList]
      simp only [cut_getD_append legible.head (queryChars_starts _),
        cut_getD_append legible.address (pathChars_starts _)]
      cases readAuthority (addressChars e.host.toList e.port) with
      | error defect => rfl
      | ok address =>
          simp only [bind, Except.bind, params, path, text]

theorem name_ne_empty_of_readParam {pair : List Char} {param : String × String}
    (read : readParam input pair = .ok param) : param.1 ≠ "" := by
  unfold readParam at read
  split at read
  · cases read
  · obtain ⟨name, _, read⟩ := bind_eq_ok_iff.1 read
    split at read
    · cases read
    · next filled =>
        obtain ⟨value, _, read⟩ := bind_eq_ok_iff.1 read
        cases read
        exact filled

theorem readParams_names {before params : SortedMap String String} {pairs : List (List Char)}
    (read : readParams input before pairs = .ok params) (filled : before.get? "" = none) :
    params.get? "" = none := by
  induction pairs generalizing before with
  | nil =>
      cases read
      exact filled
  | cons pair pairs ih =>
      rw [readParams] at read
      obtain ⟨param, first, rest⟩ := bind_eq_ok_iff.1 read
      refine ih rest ?_
      rw [SortedMap.get?_insert, if_neg (name_ne_empty_of_readParam first).symm, filled]

theorem Legible.of_parse (read : parse input = .ok e) : e.Legible := by
  obtain ⟨filled, rest, _, _, _, params⟩ := parse_parts read
  exact { Plain.of_parse read with
    protocol_filled := filled
    names_filled := readParams_names params rfl }

/-- The host of an endpoint that was read does not open and close brackets. -/
theorem host_of_parse (read : parse input = .ok e) : ']' ∉ e.host.toList ∨ e.host.toList.head? ≠ some '[' := by
  obtain ⟨_, _, _, address, _⟩ := parse_parts read
  obtain ⟨digits, halves⟩ := splitAuthority_of_read address
  rcases splitAuthority_cases halves with ⟨_, plain⟩ | ⟨begins, whole⟩
  · exact .inl plain
  · refine .inr fun opens => ?_
    obtain ⟨rest, same⟩ := List.head?_eq_some_iff.1 opens
    rw [same] at whole
    exact begins _ whole

/-- The written form of an endpoint that was read is refused if its host is ambiguous. -/
theorem refused_of_parse (read : parse input = .ok e) (ambiguous : ¬ Unambiguous e.host.toList) :
    ∃ defect, parse e.canonical = .error (.invalidEndpoint e.canonical defect) := by
  obtain ⟨defect, refused⟩ := readAuthority_ambiguous ambiguous (host_of_parse read) e.port
  exact ⟨defect, by rw [(Legible.of_parse read).parse_canonical, refused]⟩

theorem Legible.reparses (legible : e.Legible) (clear : Unambiguous e.host.toList) :
    parse e.canonical = .ok e := by
  rw [legible.parse_canonical, readAuthority_addressChars clear]
  simp only [String.ofList_toList]

/-- A rule says nothing of what it has no parameter for. -/
theorem param?_conditionRule {interface rule name : String}
    (other : name ∉ ["interface", "category", "dynamic", "rule"]) :
    (conditionRule interface rule).param? name = none := by
  simp only [List.mem_cons, List.not_mem_nil, or_false, not_or] at other
  simp only [conditionRule, param?_withParam, other, if_false]
  rfl

/-- A rule comes back whatever its text is: only parameters hold it, and these are percent encoded. -/
theorem reparses_conditionRule (interface rule : String) :
    parse (conditionRule interface rule).canonical = .ok (conditionRule interface rule) := by
  have host : (conditionRule interface rule).host = anyHost := rfl
  have protocol : (conditionRule interface rule).protocol = conditionProtocol := rfl
  refine Legible.reparses ⟨.conditionRule interface rule, ?_, param?_conditionRule (by decide)⟩ ?_
  · rw [protocol]
    decide
  · rw [host]
    decide

/-- What comes back from its canonical text has a host that goes with its brackets. -/
theorem unambiguous_of_reparses (again : parse e.canonical = .ok e) : Unambiguous e.host.toList := by
  apply Decidable.byContradiction
  intro ambiguous
  obtain ⟨defect, refused⟩ := refused_of_parse again ambiguous
  rw [again] at refused
  cases refused

/-- The canonical text of an endpoint is read as that endpoint exactly if no part holds what ends it,
every parameter has a name, and the host goes with its brackets. -/
theorem parse_canonical_eq_iff (e : Endpoint) :
    parse e.canonical = .ok e ↔
      (e.protocol ≠ "" ∧ ¬ "://".toList <:+: e.protocol.toList) ∧
      ('/' ∉ e.host.toList ∧ '?' ∉ e.host.toList) ∧
      (if ':' ∈ e.host.toList then ']' ∉ e.host.toList else e.host.toList.head? ≠ some '[') ∧
      '?' ∉ e.path.toList ∧ e.param? "" = none := by
  constructor
  · intro read
    have legible := Legible.of_parse read
    exact ⟨⟨legible.protocol_filled, legible.protocol⟩, legible.host, unambiguous_of_reparses read,
      legible.path, legible.names_filled⟩
  · rintro ⟨⟨filled, protocol⟩, host, clear, path, names⟩
    exact Legible.reparses ⟨⟨protocol, host, path⟩, filled, names⟩ clear

/-- The canonical text of an endpoint that was read gives the endpoint again unless its host goes with
other brackets than it is written with; then the canonical text is refused. -/
theorem parse_again (read : parse input = .ok e) :
    (parse e.canonical = .ok e ↔ Unambiguous e.host.toList) ∧
      (¬ Unambiguous e.host.toList →
        ∃ defect, parse e.canonical = .error (.invalidEndpoint e.canonical defect)) :=
  ⟨⟨unambiguous_of_reparses, (Legible.of_parse read).reparses⟩, refused_of_parse read⟩

def loopback : Endpoint := { protocol := "tri", host := "::1", port := 8080, path := "org.Greeter" }

theorem loopback_again :
    parse "tri://[::1]:08080/org.Greeter?" = .ok loopback ∧ parse loopback.canonical = .ok loopback :=
  ⟨rfl, (parse_again (show parse "tri://[::1]:08080/org.Greeter?" = .ok loopback from rfl)).1.2 (by decide)⟩

def reopened : Endpoint := { protocol := "p", host := "[a", port := 1 }

/-- The brackets of a host without a colon are not written again, so one that it begins with is taken
for theirs. -/
theorem reopened_refused :
    parse "p://[[a]:1" = .ok reopened ∧
      parse reopened.canonical = .error (.invalidEndpoint "p://[a:1" .unterminatedHost) :=
  ⟨rfl, rfl⟩

end Whole

end ServiceGovernance.Endpoint
