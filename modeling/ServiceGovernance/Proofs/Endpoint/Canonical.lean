import ServiceGovernance.Endpoint.Wire
import ServiceGovernance.Proofs.Store.Paths
import ServiceGovernance.Proofs.Text.Numeral
import ServiceGovernance.Proofs.Text.Percent

/-!
The canonical text tells endpoints apart. Every part of the text ends at a separator that the part
itself does not hold, at least for the endpoints that come from reading a text and for routing rules.
-/

namespace ServiceGovernance.Endpoint

open Text

/-- The parts before a separator hold none, so the canonical text can be taken apart. -/
structure Plain (e : Endpoint) : Prop where
  protocol : ¬ "://".toList <:+: e.protocol.toList
  host : '/' ∉ e.host.toList ∧ '?' ∉ e.host.toList
  path : '?' ∉ e.path.toList

section Split

/-- A text without `c` ends where the rest, if there is one, starts with `c`. -/
theorem append_inj_of_separator {c : Char} {left other rest more : List Char} (absent : c ∉ left)
    (missing : c ∉ other) (starts : rest = [] ∨ rest.head? = some c)
    (begins : more = [] ∨ more.head? = some c) :
    left ++ rest = other ++ more ↔ left = other ∧ rest = more := by
  have head : ∀ {text tail : List Char}, c ∉ text → tail = [] ∨ tail.head? = some c →
      (text ++ tail).takeWhile (· ≠ c) = text := by
    intro text tail free tail_starts
    rw [List.takeWhile_append_of_pos fun x member => by
      simpa using fun same : x = c => free (same ▸ member)]
    rcases tail_starts with rfl | tail_starts
    · simp
    · cases tail with
      | nil => cases tail_starts
      | cons d tail => cases tail_starts; simp
  constructor
  · intro same
    have lefts := congrArg (List.takeWhile (· ≠ c)) same
    rw [head absent starts, head missing begins] at lefts
    subst lefts
    exact ⟨rfl, List.append_cancel_left same⟩
  · rintro ⟨rfl, rfl⟩
    rfl

theorem cut_scheme {left : List Char} (absent : ¬ "://".toList <:+: left) (rest : List Char) :
    cut "://".toList (left ++ "://".toList ++ rest) = some (left, rest) := by
  have chars : "://".toList = [':', '/', '/'] := rfl
  rw [chars] at absent ⊢
  induction left with
  | nil => simp [cut, after?]
  | cons c left ih =>
      have later : ¬ [':', '/', '/'] <:+: left :=
        fun inside => absent (inside.trans (List.suffix_cons c left).isInfix)
      have here : after? [':', '/', '/'] (c :: left ++ [':', '/', '/'] ++ rest) = none := by
        cases found : after? [':', '/', '/'] (c :: left ++ [':', '/', '/'] ++ rest) with
        | none => rfl
        | some tail =>
            have whole := after?_eq_some_iff.1 found
            exfalso
            rcases left with _ | ⟨d, _ | ⟨e, left⟩⟩ <;> simp_all
            exact absent ⟨[], left, by simp⟩
      rw [List.cons_append, List.cons_append, cut]
      simp only [List.cons_append] at here
      rw [here]
      simp only
      rw [ih later]
      rfl

theorem not_infix_of_cut {separator text left right : List Char} (filled : separator ≠ [])
    (found : cut separator text = some (left, right)) : ¬ separator <:+: left := by
  induction text generalizing left with
  | nil =>
      obtain ⟨rest, _, same⟩ := Option.map_eq_some_iff.1 found
      cases same
      exact fun inside => filled (List.infix_nil.1 inside)
  | cons c text ih =>
      unfold cut at found
      split at found
      · next rest _ =>
          cases found
          exact fun inside => filled (List.infix_nil.1 inside)
      · next not_here =>
          obtain ⟨halves, tail, same⟩ := Option.map_eq_some_iff.1 found
          cases same
          intro inside
          rcases List.infix_cons_iff.1 inside with ⟨more, whole⟩ | inside
          · have text_eq := eq_append_of_cut tail
            have : after? separator (c :: text) = some (more ++ (separator ++ halves.2)) := by
              rw [after?_eq_some_iff, text_eq, List.append_assoc, ← List.append_assoc separator more, whole]
              rfl
            rw [not_here] at this
            cases this
          · exact ih tail inside

end Split

section Parts

def bracketed (host : List Char) : List Char := if ':' ∈ host then '[' :: host ++ [']'] else host

def pathChars (path : String) : List Char := if path = "" then [] else '/' :: path.toList

theorem addressChars_eq (host : List Char) (port : UInt16) :
    addressChars host port = bracketed host ++ ':' :: Nat.toDigits 10 port.toNat := by
  simp only [addressChars, bracketed, Nat.toString_eq_repr, Nat.toList_repr]

theorem mem_bracketed {c : Char} {host : List Char} (member : c ∈ bracketed host) :
    c = '[' ∨ c ∈ host ∨ c = ']' := by
  unfold bracketed at member
  split at member
  · simpa using member
  · exact .inr (.inl member)

theorem bracketed_injective {host other : List Char} (same : bracketed host = bracketed other) :
    host = other := by
  unfold bracketed at same
  split at same <;> split at same
  · simpa using same
  · next inside outside => exact absurd (same ▸ by simp [inside]) outside
  · next outside inside => exact absurd (same ▸ by simp [inside]) outside
  · exact same

/-- No digit, colon or bracket is a separator of the other parts. -/
theorem not_mem_addressChars {c : Char} {host : List Char} (absent : c ∉ host) (other : c.isDigit = false)
    (sign : c ∉ ['[', ']', ':']) (port : UInt16) : c ∉ addressChars host port := by
  rw [addressChars_eq]
  intro member
  simp only [List.mem_cons, List.not_mem_nil, or_false, not_or] at sign
  rcases List.mem_append.1 member with member | member
  · rcases mem_bracketed member with same | member | same
    · exact sign.1 same
    · exact absent member
    · exact sign.2.1 same
  · rcases List.mem_cons.1 member with same | member
    · exact sign.2.2 same
    · exact not_mem_toDigits other _ member

theorem addressChars_injective {host other : List Char} {port mark : UInt16}
    (same : addressChars host port = addressChars other mark) : host = other ∧ port = mark := by
  rw [addressChars_eq, addressChars_eq] at same
  have no_colon : ∀ n, ':' ∉ Nat.toDigits 10 n := not_mem_toDigits (by decide)
  have cut_here := cutLast_eq_some_iff.2 ⟨same, no_colon _⟩
  rw [cutLast_eq_some_iff.2 ⟨rfl, no_colon _⟩] at cut_here
  simp only [Option.some.injEq, Prod.mk.injEq] at cut_here
  exact ⟨bracketed_injective cut_here.1, UInt16.toNat_inj.1 (toDigits_injective cut_here.2)⟩

theorem pathChars_starts (path : String) : pathChars path = [] ∨ (pathChars path).head? = some '/' := by
  unfold pathChars
  split <;> simp

theorem pathChars_injective {path other : String} (same : pathChars path = pathChars other) :
    path = other := by
  unfold pathChars at same
  split at same <;> split at same
  · next empty blank => rw [empty, blank]
  · cases same
  · cases same
  · exact String.toList_inj.1 (List.cons.inj same).2

theorem not_mem_paramChars {c : Char} (separates : Percent.isWritten c = false) (other : c ≠ '=')
    (param : String × String) : c ∉ paramChars param := by
  have absent := Percent.not_mem_encodeChars separates
  simp [paramChars, other, absent]

theorem paramChars_injective {param other : String × String} (same : paramChars param = paramChars other) :
    param = other := by
  have absent := Percent.not_mem_encodeChars (c := '=') (by decide)
  obtain ⟨names, values⟩ :=
    (append_inj_of_separator (absent _) (absent _) (.inr rfl) (.inr rfl)).1 same
  have names := String.toList_inj.1 (Percent.encodeChars_injective names)
  have values := String.toList_inj.1 (Percent.encodeChars_injective (List.cons.inj values).2)
  exact Prod.ext names values

def moreChars (params : List (String × String)) : List Char :=
  params.flatMap fun param => '&' :: paramChars param

theorem moreChars_starts (params : List (String × String)) :
    moreChars params = [] ∨ (moreChars params).head? = some '&' := by
  cases params <;> simp [moreChars]

theorem paramList_injective {param other : String × String} {params others : List (String × String)}
    (same : paramChars param ++ moreChars params = paramChars other ++ moreChars others) :
    param = other ∧ params = others := by
  have absent := not_mem_paramChars (c := '&') (by decide) (by decide)
  obtain ⟨firsts, rests⟩ := (append_inj_of_separator (absent _) (absent _)
    (moreChars_starts _) (moreChars_starts _)).1 same
  refine ⟨paramChars_injective firsts, ?_⟩
  induction params generalizing param other others with
  | nil =>
      cases others with
      | nil => rfl
      | cons second others => cases rests
  | cons first params ih =>
      cases others with
      | nil => cases rests
      | cons second others =>
          have same : paramChars first ++ moreChars params = paramChars second ++ moreChars others :=
            (List.cons.inj rests).2
          obtain ⟨heads, tails⟩ := (append_inj_of_separator (absent _) (absent _)
            (moreChars_starts _) (moreChars_starts _)).1 same
          rw [paramChars_injective heads, ih same heads tails]

theorem queryChars_starts (params : List (String × String)) :
    queryChars params = [] ∨ (queryChars params).head? = some '?' := by
  cases params <;> simp [queryChars]

theorem queryChars_injective {params others : List (String × String)}
    (same : queryChars params = queryChars others) : params = others := by
  cases params with
  | nil =>
      cases others with
      | nil => rfl
      | cons other others => cases same
  | cons param params =>
      cases others with
      | nil => cases same
      | cons other others =>
          obtain ⟨heads, tails⟩ := paramList_injective (List.cons.inj same).2
          rw [heads, tails]

end Parts

section Whole

variable {e f : Endpoint}

theorem toList_canonical (e : Endpoint) : e.canonical.toList = e.protocol.toList ++ "://".toList ++
    ((addressChars e.host.toList e.port ++ pathChars e.path) ++ queryChars e.params.entries) := by
  simp only [canonical, canonicalChars, pathChars, String.toList_ofList, List.append_assoc]

theorem Plain.address (plain : e.Plain) : '/' ∉ addressChars e.host.toList e.port :=
  not_mem_addressChars plain.host.1 (by decide) (by decide) _

theorem Plain.head (plain : e.Plain) : '?' ∉ addressChars e.host.toList e.port ++ pathChars e.path := by
  intro member
  rcases List.mem_append.1 member with member | member
  · exact not_mem_addressChars plain.host.2 (by decide) (by decide) _ member
  · unfold pathChars at member
    split at member
    · cases member
    · exact plain.path (by simpa using member)

/-- Endpoints with the same canonical text are the same endpoint. -/
theorem canonical_injective (plain : e.Plain) (other : f.Plain) (same : e.canonical = f.canonical) :
    e = f := by
  have whole := congrArg (fun text => cut "://".toList (String.toList text)) same
  simp only [toList_canonical, cut_scheme plain.protocol, cut_scheme other.protocol, Option.some.injEq,
    Prod.mk.injEq] at whole
  obtain ⟨protocols, rests⟩ := whole
  obtain ⟨firsts, queries⟩ := (append_inj_of_separator plain.head other.head
    (queryChars_starts _) (queryChars_starts _)).1 rests
  obtain ⟨addresses, paths⟩ := (append_inj_of_separator plain.address other.address
    (pathChars_starts _) (pathChars_starts _)).1 firsts
  obtain ⟨hosts, ports⟩ := addressChars_injective addresses
  obtain ⟨protocol, host, port, path, params⟩ := e
  obtain ⟨protocol', host', port', path', params'⟩ := f
  simp only [Endpoint.mk.injEq]
  exact ⟨String.toList_inj.1 protocols, String.toList_inj.1 hosts, ports, pathChars_injective paths,
    SortedMap.eq_of_entries (queryChars_injective queries)⟩

end Whole

section Plain

theorem not_mem_cut_getD {c : Char} {text : List Char} : c ∉ ((cut [c] text).getD (text, [])).1 := by
  cases found : cut [c] text with
  | none => exact cut_single_eq_none_iff.1 found
  | some halves => exact (cut_single_eq_some_iff.1 found).2

theorem mem_of_mem_cut_getD {separator : List Char} {c : Char} {text : List Char}
    (member : c ∈ ((cut separator text).getD (text, [])).1 ∨ c ∈ ((cut separator text).getD (text, [])).2) :
    c ∈ text := by
  cases found : cut separator text with
  | none => simpa [found] using member
  | some halves =>
      rw [eq_append_of_cut found]
      rw [found] at member
      rcases member with member | member
      · exact List.mem_append_left _ (List.mem_append_left _ member)
      · exact List.mem_append_right _ member

/-- A host stands in brackets and has none that closes, or it stands in front of the last colon. -/
theorem splitAuthority_cases {authority host port : List Char}
    (read : splitAuthority authority = .ok (host, port)) :
    (authority = '[' :: (host ++ ']' :: ':' :: port) ∧ ']' ∉ host) ∨
      ((∀ rest, authority ≠ '[' :: rest) ∧ authority = host ++ ':' :: port) := by
  unfold splitAuthority at read
  split at read
  · next rest =>
      split at read
      · cases read
      · cases read
      · next found =>
          cases read
          obtain ⟨whole, plain⟩ := cut_single_eq_some_iff.1 found
          exact .inl ⟨congrArg _ whole, plain⟩
      · cases read
  · next begins =>
      split at read
      · cases read
      · next halves found =>
          cases read
          exact .inr ⟨begins, (cutLast_eq_some_iff.1 found).1⟩

theorem splitAuthority_of_read {authority : List Char} {host : String} {port : UInt16}
    (read : readAuthority authority = .ok (host, port)) :
    ∃ digits, splitAuthority authority = .ok (host.toList, digits) := by
  unfold readAuthority at read
  obtain ⟨⟨name, digits⟩, halves, read⟩ := bind_eq_ok_iff.1 read
  simp only at read
  split at read
  · cases read
    exact ⟨digits, by rw [String.toList_ofList, halves]⟩
  · cases read

theorem mem_of_mem_readAuthority {authority : List Char} {host : String} {port : UInt16} {c : Char}
    (read : readAuthority authority = .ok (host, port)) (member : c ∈ host.toList) : c ∈ authority := by
  obtain ⟨digits, halves⟩ := splitAuthority_of_read read
  rcases splitAuthority_cases halves with ⟨rfl, _⟩ | ⟨_, rfl⟩
  · simp [member]
  · simp [member]

/-- What has been read comes from the parts of the text, each up to its first separator. -/
theorem parse_parts {input : String} {e : Endpoint} (read : parse input = .ok e) :
    e.protocol ≠ "" ∧ ∃ rest, cut "://".toList input.toList = some (e.protocol.toList, rest) ∧
      let halves := (cut ['?'] rest).getD (rest, [])
      let address := (cut ['/'] halves.1).getD (halves.1, [])
      readAuthority address.1 = .ok (e.host, e.port) ∧ e.path.toList = address.2 ∧
        readParams input .empty (queryPairs halves.2) = .ok e.params := by
  unfold parse at read
  split at read
  · cases read
  · cases read
  · next protocol rest filled found =>
      simp only at read
      split at read
      · cases read
      · next host port authority =>
          obtain ⟨params, pairs, read⟩ := bind_eq_ok_iff.1 read
          cases read
          refine ⟨fun empty => ?_, rest, by simpa using found, authority, by simp, pairs⟩
          have : protocol = [] := by simpa using congrArg String.toList empty
          subst this
          exact filled rfl

/-- What a text is read as can be found out by computing. -/
theorem parse_eq_ok_of_toOption {input : String} {e : Endpoint} (read : (parse input).toOption = some e) :
    parse input = .ok e := by
  cases parsed : parse input with
  | error fault =>
      rw [parsed] at read
      cases read
  | ok other =>
      rw [parsed] at read
      cases read
      rfl

/-- What has been read from a text can be taken apart. -/
theorem Plain.of_parse {input : String} {e : Endpoint} (read : parse input = .ok e) : e.Plain := by
  obtain ⟨_, rest, found, authority, path, _⟩ := parse_parts read
  have inside : ∀ {c : Char}, c ∈ e.host.toList → _ :=
    fun member => mem_of_mem_readAuthority authority member
  refine ⟨not_infix_of_cut (by simp) found, ⟨?_, ?_⟩, ?_⟩
  · exact fun member => not_mem_cut_getD (inside member)
  · exact fun member => not_mem_cut_getD (mem_of_mem_cut_getD (.inl (inside member)))
  · intro member
    rw [path] at member
    exact not_mem_cut_getD (mem_of_mem_cut_getD (.inr member))

theorem Plain.conditionRule (interface rule : String) : (conditionRule interface rule).Plain := by
  refine ⟨?_, ?_, ?_⟩
  · show ¬ "://".toList <:+: conditionProtocol.toList
    rw [← occurs_iff]
    decide
  · show '/' ∉ anyHost.toList ∧ '?' ∉ anyHost.toList
    decide
  · show '?' ∉ "".toList
    decide

end Plain

end ServiceGovernance.Endpoint
