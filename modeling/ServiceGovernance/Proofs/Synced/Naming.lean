import ServiceGovernance.Proofs.Store.Footprints
import ServiceGovernance.Proofs.Synced.Layout

/-!
Texts as names of nodes. A text is written with plain characters and whole escapes, so nothing in its written
form separates the segments of a path or the parts of an endpoint's text. Any text but the empty one names a
child of any path, and it alone names that child.
-/

namespace ServiceGovernance

namespace Text.Percent

/-- The characters that stand for themselves, all of ASCII. -/
def isPlain (c : Char) : Bool := c.isAlphanum || c ∈ ['-', '_', '.', '~', '*']

def upperHex : List Char := "0123456789ABCDEF".toList

/-- Plain characters and whole escapes, each of them `%` with two digits of its own. -/
inductive Component : List Char → Prop where
  | nil : Component []
  | plain {c : Char} {cs : List Char} (stands : isPlain c = true) (rest : Component cs) : Component (c :: cs)
  | escape {high low : Char} {cs : List Char} (first : high ∈ upperHex) (second : low ∈ upperHex)
      (rest : Component cs) : Component ('%' :: high :: low :: cs)

theorem isPlain_of_isUnreserved : ∀ byte : UInt8, isUnreserved byte = true →
    isPlain (Char.ofNat byte.toNat) = true :=
  forall_byte (by decide +kernel)

theorem hexDigit_mem_upperHex : ∀ value < 16, hexDigit value ∈ upperHex := by
  decide +kernel

theorem Component.encodeByte_append {cs : List Char} (rest : Component cs) (byte : UInt8) :
    Component (encodeByte byte ++ cs) := by
  have size := byte.toNat_lt
  unfold encodeByte
  split
  · next unreserved => exact .plain (isPlain_of_isUnreserved byte unreserved) rest
  · exact .escape (hexDigit_mem_upperHex _ (by omega)) (hexDigit_mem_upperHex _ (by omega)) rest

theorem component_encodeChars (cs : List Char) : Component (encodeChars cs) := by
  unfold encodeChars
  induction Utf8.encode cs with
  | nil => exact .nil
  | cons byte bytes ih => exact ih.encodeByte_append byte

theorem toNat_lt_of_mem_encodeByte : ∀ byte : UInt8, (encodeByte byte).all (·.toNat < 128) = true :=
  forall_byte (by decide +kernel)

theorem toNat_lt_of_mem_encodeChars {cs : List Char} {c : Char} (member : c ∈ encodeChars cs) : c.toNat < 128 := by
  obtain ⟨byte, _, there⟩ := List.mem_flatMap.1 member
  exact of_decide_eq_true (List.all_eq_true.1 (toNat_lt_of_mem_encodeByte byte) c there)

end Text.Percent

namespace Store.Path

open Text SyncedRegistry

/-- What parts the segments of a path or the parts of an endpoint's text, and what is read as a blank. -/
def separators : List Char := ['/', '?', '&', '=', '+', ':']

theorem isWritten_of_mem_separators {c : Char} (separates : c ∈ separators) : Percent.isWritten c = false := by
  have none_written : separators.all (!Percent.isWritten ·) = true := by decide +kernel
  simpa using List.all_eq_true.1 none_written c separates

/-- Below a valid path every segment makes a valid one. -/
theorem isValid_lead_append {path name : String} (valid : isValid path = true) (segment : Segment name) :
    isValid (lead path ++ name) = true := by
  by_cases top : path = rootPath
  · rw [top, lead_root]
    exact (Absolute.top segment).isValid
  · rw [lead_of_ne top]
    exact (Absolute.child (absolute_of_isValid valid top) segment).isValid

theorem segment_encode_iff {text : String} : Segment (Percent.encode text) ↔ text ≠ "" := by
  refine ⟨?_, segment_encode⟩
  rintro segment rfl
  exact segment.1 rfl

/-- Whatever the text, its written form is read as the text again, and no other text has the same one. It is
made of plain characters and whole escapes, so it holds no separator. If the text is not empty, its written form
is a segment: below every valid path it makes a valid one, of a child that this text alone names. -/
theorem encode_names_child (text : String) :
    Percent.decode (Percent.encode text) = .ok text ∧
    Percent.Component (Percent.encode text).toList ∧
    (∀ c ∈ (Percent.encode text).toList, c.toNat < 128 ∧ c ∉ separators) ∧
    (Segment (Percent.encode text) ↔ text ≠ "") ∧
    (text ≠ "" → ∀ path, isValid path = true →
      isValid (lead path ++ Percent.encode text) = true ∧
      parent? (lead path ++ Percent.encode text) = some path ∧
      ∀ other, childName? path (lead path ++ Percent.encode text) = some (Percent.encode other) ↔ other = text) ∧
    ∀ other, Percent.encode other = Percent.encode text ↔ other = text := by
  have written : (Percent.encode text).toList = Percent.encodeChars text.toList := String.toList_ofList
  have apart : ∀ c ∈ (Percent.encode text).toList, c.toNat < 128 ∧ c ∉ separators := by
    rw [written]
    exact fun c member => ⟨Percent.toNat_lt_of_mem_encodeChars member, fun separates =>
      Percent.not_mem_encodeChars (isWritten_of_mem_separators separates) _ member⟩
  have same_iff : ∀ other, Percent.encode other = Percent.encode text ↔ other = text :=
    fun other => ⟨Percent.encode_injective, congrArg Percent.encode⟩
  refine ⟨Percent.decode_encode text, written ▸ Percent.component_encodeChars _, apart, segment_encode_iff,
    fun filled path valid => ?_, same_iff⟩
  have child : childName? path (lead path ++ Percent.encode text) = some (Percent.encode text) :=
    childName?_iff_lead.2 ⟨rfl, segment_encode filled⟩
  refine ⟨isValid_lead_append valid (segment_encode filled),
    parent?_of_childName? (ne_empty_of_isValid valid) child, fun other => ?_⟩
  rw [child, Option.some.injEq, eq_comm, same_iff]

/-- A text with a slash, a blank, a percent sign and a letter beyond ASCII. -/
theorem path_names_child :
    "a/b %ü" ≠ "" ∧ isValid "/rpc" = true ∧ lead "/rpc" ++ Percent.encode "a/b %ü" = "/rpc/a%2Fb%20%25%C3%BC" ∧
    Percent.decode (Percent.encode "a/b %ü") = .ok "a/b %ü" ∧ '/' ∉ (Percent.encode "a/b %ü").toList ∧
    isValid (lead "/rpc" ++ Percent.encode "a/b %ü") = true ∧
    childName? "/rpc" (lead "/rpc" ++ Percent.encode "a/b %ü") ≠ some (Percent.encode "a/b") := by
  obtain ⟨read, _, apart, _, below, _⟩ := encode_names_child "a/b %ü"
  have filled : "a/b %ü" ≠ "" := by decide
  have root : isValid "/rpc" = true := by decide
  obtain ⟨valid, _, named⟩ := below filled "/rpc" root
  have plain : '/' ∉ (Percent.encode "a/b %ü").toList := fun slash => (apart '/' slash).2 (by decide)
  refine ⟨filled, root, by decide +kernel, read, plain, valid, fun same => ?_⟩
  exact absurd ((named "a/b").1 same) (by decide)

end Store.Path

end ServiceGovernance
