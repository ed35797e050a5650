import Mathlib.Data.List.Infix
import ServiceGovernance.Proofs.Text.Cutting
import ServiceGovernance.Routing.Rule

/-!
Which texts are routing rules. The sides, the matchers and the operator of a matcher are found by first
occurrences alone, so the form of a rule can be said of its text. Main statement: exactly the texts of
this form are read. It is wider than it looks: in front of `!=` a key may hold another operator.
-/

namespace ServiceGovernance.Routing

open Text

namespace Matcher

/-- The operator at which a piece is split. -/
def operatorOf (piece : List Char) : List Char :=
  if "!=".toList <:+: piece then "!=".toList else ['=']

/-- A piece is a key, the operator and a list of values: the key is not blank and of the kind asked for,
the values hold no other operator, and one of them is not blank. -/
def Written (lawful : List Char → Prop) (piece : List Char) : Prop :=
  ∃ key values, Parted (operatorOf piece) piece key values ∧ trim key ≠ [] ∧ lawful (trim key) ∧
    '=' ∉ values ∧ ∃ value ∈ pieces ',' values, trim value ≠ []

variable {lawful : List Char → Prop} {piece lead trail key values : List Char} {m : Matcher}

theorem operatorOf_ne_nil (piece : List Char) : operatorOf piece ≠ [] := by
  unfold operatorOf
  split <;> exact List.cons_ne_nil _ _

theorem operatorOf_subset (piece : List Char) : operatorOf piece ⊆ "!=".toList := by
  unfold operatorOf
  split <;> decide

theorem isBlank_eq_false_of_operator {c : Char} (member : c ∈ "!=".toList) : isBlank c = false := by
  have listed : c = '!' ∨ c = '=' := by simpa using member
  rcases listed with rfl | rfl
  · rfl
  · rfl

theorem split_eq (raw : List Char) : Matcher.split raw =
    (cut (operatorOf raw) raw).map fun halves =>
      (halves.1, halves.2, decide ("!=".toList <:+: raw)) := by
  unfold Matcher.split operatorOf
  cases found : cut "!=".toList raw with
  | none =>
      have absent := cut_eq_none_iff.1 found
      rw [if_neg absent, decide_eq_false absent]
  | some halves =>
      have inside : "!=".toList <:+: raw :=
        ⟨halves.1, halves.2, (cut_eq_some_iff.1 found).1.symm⟩
      rw [if_pos inside, found, decide_eq_true inside]
      rfl

theorem valuesOf_ne_nil_iff : valuesOf values ≠ [] ↔ ∃ value ∈ pieces ',' values, trim value ≠ [] := by
  unfold valuesOf
  rw [ne_eq, List.filter_eq_nil_iff]
  simp

theorem exists_value_iff :
    (∃ value ∈ pieces ',' values, trim value ≠ []) ↔ ∃ c ∈ values, c ≠ ',' ∧ isBlank c = false := by
  have visible (value : List Char) : trim value ≠ [] ↔ ∃ c ∈ value, isBlank c = false := by
    simp [ne_eq, trim_eq_nil_iff]
  constructor
  · rintro ⟨value, listed, filled⟩
    obtain ⟨c, inside, seen⟩ := (visible value).1 filled
    obtain ⟨member, other⟩ := exists_piece_iff.1 ⟨value, listed, inside⟩
    exact ⟨c, member, other, seen⟩
  · rintro ⟨c, member, other, seen⟩
    obtain ⟨value, listed, inside⟩ := exists_piece_iff.2 ⟨member, other⟩
    exact ⟨value, listed, (visible value).2 ⟨c, inside, seen⟩⟩

theorem written_iff : Written lawful piece ↔
    ∃ key values, cut (operatorOf piece) piece = some (key, values) ∧ trim key ≠ [] ∧
      lawful (trim key) ∧ '=' ∉ values ∧ ∃ c ∈ values, c ≠ ',' ∧ isBlank c = false := by
  simp only [Written, cut_eq_some_iff, exists_value_iff]

theorem ofText_eq_ok_iff : Matcher.ofText piece = .ok m ↔
    ∃ key values, cut (operatorOf piece) piece = some (key, values) ∧ trim key ≠ [] ∧ '=' ∉ values ∧
      valuesOf values ≠ [] ∧
      m = {
        key := String.ofList (trim key)
        negated := decide ("!=".toList <:+: piece)
        patterns := (valuesOf values).map Pattern.ofText } := by
  simp only [Matcher.ofText, split_eq]
  cases cut (operatorOf piece) piece with
  | none => simp
  | some halves =>
      obtain ⟨key, values⟩ := halves
      simp only [Option.map_some, Option.some.injEq, Prod.mk.injEq]
      constructor
      · intro read
        split_ifs at read with blank again empty
        cases read
        exact ⟨key, values, ⟨rfl, rfl⟩, blank, again, empty, rfl⟩
      · rintro ⟨_, _, ⟨rfl, rfl⟩, keyed, single, filled, rfl⟩
        rw [if_neg keyed, if_neg single, if_neg filled]

/-- A matcher is read exactly from the texts of its form. -/
theorem written_iff_ofText :
    Written lawful piece ↔ ∃ m, Matcher.ofText piece = .ok m ∧ lawful m.key.toList := by
  simp only [Written, ← cut_eq_some_iff, ← valuesOf_ne_nil_iff, ofText_eq_ok_iff]
  constructor
  · rintro ⟨key, values, parted, keyed, fit, single, filled⟩
    exact ⟨_, ⟨key, values, parted, keyed, single, filled, rfl⟩, by simpa using fit⟩
  · rintro ⟨_, ⟨key, values, parted, keyed, single, filled, rfl⟩, fit⟩
    exact ⟨key, values, parted, keyed, by simpa using fit, single, filled⟩

/-- At a lone `=` the piece is split at the first one. -/
theorem not_mem_key_of_ofText (read : Matcher.ofText piece = .ok m) (plain : m.negated = false) :
    '=' ∉ m.key.toList := by
  obtain ⟨key, values, parted, _, _, _, rfl⟩ := ofText_eq_ok_iff.1 read
  rw [operatorOf, if_neg (of_decide_eq_false plain)] at parted
  have absent : '=' ∉ key := (cut_single_eq_some_iff.1 parted).2
  rwa [String.toList_ofList, mem_trim_iff (by decide)]

section Blanks

variable (before : ∀ c ∈ lead, isBlank c = true) (after : ∀ c ∈ trail, isBlank c = true)
include before after

theorem cut_between_blanks {separator : List Char} (filled : separator ≠ [])
    (operator : separator ⊆ "!=".toList) :
    cut separator (lead ++ piece ++ trail) =
      (cut separator piece).map fun halves => (lead ++ halves.1, halves.2 ++ trail) := by
  have apart (c : Char) (blank : isBlank c = true) : c ∉ separator := by
    intro member
    rw [isBlank_eq_false_of_operator (operator member)] at blank
    cases blank
  rw [cut_append_right filled fun c member => apart c (after c member),
    cut_append_left filled fun c member => apart c (before c member), Option.map_map]
  rfl

theorem operatorOf_between_blanks : operatorOf (lead ++ piece ++ trail) = operatorOf piece := by
  have same : "!=".toList <:+: lead ++ piece ++ trail ↔ "!=".toList <:+: piece := by
    rw [← not_iff_not, ← cut_eq_none_iff, ← cut_eq_none_iff,
      cut_between_blanks before after (by decide) (List.Subset.refl _), Option.map_eq_none_iff]
  simp only [operatorOf, same]

theorem written_between_blanks : Written lawful (lead ++ piece ++ trail) ↔ Written lawful piece := by
  have unmoved : cut (operatorOf piece) (lead ++ piece ++ trail) =
      (cut (operatorOf piece) piece).map fun halves => (lead ++ halves.1, halves.2 ++ trail) :=
    cut_between_blanks before after (operatorOf_ne_nil piece) (operatorOf_subset piece)
  have single (values : List Char) : '=' ∉ values ++ trail ↔ '=' ∉ values := by
    have blank : '=' ∉ trail := fun member => absurd (after _ member) (by decide)
    simp [blank]
  have filled (values : List Char) : (∃ c ∈ values ++ trail, c ≠ ',' ∧ isBlank c = false) ↔
      ∃ c ∈ values, c ≠ ',' ∧ isBlank c = false := by
    constructor
    · rintro ⟨c, member, other, seen⟩
      refine ⟨c, (List.mem_append.1 member).resolve_right fun trailing => ?_, other, seen⟩
      rw [after c trailing] at seen
      cases seen
    · exact fun ⟨c, member, rest⟩ => ⟨c, List.mem_append_left _ member, rest⟩
  rw [written_iff, written_iff, operatorOf_between_blanks before after, unmoved]
  cases cut (operatorOf piece) piece with
  | none => simp
  | some halves =>
      simp only [Option.map_some, Option.some.injEq, Prod.mk.injEq]
      constructor
      · rintro ⟨_, _, ⟨rfl, rfl⟩, written⟩
        rw [trim_append_left before, single, filled] at written
        exact ⟨halves.1, halves.2, rfl, written⟩
      · rintro ⟨_, _, rfl, written⟩
        refine ⟨lead ++ _, _ ++ trail, ⟨rfl, rfl⟩, ?_⟩
        rwa [trim_append_left before, single, filled]

end Blanks

/-- Blanks around a piece are not part of its matcher. -/
theorem written_trim : Written lawful (trim piece) ↔ Written lawful piece := by
  obtain ⟨lead, trail, whole, before, after⟩ := exists_trim piece
  have around : Written lawful (lead ++ trim piece ++ trail) ↔ Written lawful (trim piece) :=
    written_between_blanks before after
  rw [← whole] at around
  exact around.symm

end Matcher

namespace Rule

/-- The sides of a rule part at the first arrow, and no other follows; a text without an arrow is the
consequence. -/
def Sided (text condition consequence : List Char) : Prop :=
  (Parted "=>".toList text condition consequence ∧ ¬ "=>".toList <:+: consequence) ∨
    (¬ "=>".toList <:+: text ∧ condition = [] ∧ consequence = text)

/-- Every piece of a side that is not blank is a matcher. -/
def WrittenSide (lawful : List Char → Prop) (side : List Char) : Prop :=
  ∀ piece ∈ pieces '&' side, trim piece ≠ [] → Matcher.Written lawful piece

/-- A text that is not blank, with two sides that consist of matchers. -/
def Written (lawful : List Char → Prop) (raw : String) : Prop :=
  trim raw.toList ≠ [] ∧ ∃ condition consequence, Sided (trim raw.toList) condition consequence ∧
    WrittenSide lawful condition ∧ WrittenSide lawful consequence

variable {lawful : List Char → Prop} {text side condition consequence : List Char} {raw : String}

theorem sides_eq_ok_iff : sides text = .ok (condition, consequence) ↔ Sided text condition consequence := by
  unfold sides
  cases found : cut "=>".toList text with
  | none =>
      have absent := cut_eq_none_iff.1 found
      constructor
      · intro same
        cases same
        exact .inr ⟨absent, rfl, rfl⟩
      · rintro (⟨⟨whole, _⟩, _⟩ | ⟨_, rfl, rfl⟩)
        · exact absurd ⟨condition, consequence, whole.symm⟩ absent
        · rfl
  | some halves =>
      obtain ⟨left, right⟩ := halves
      have parted := cut_eq_some_iff.1 found
      have present : "=>".toList <:+: text := ⟨left, right, parted.1.symm⟩
      simp only [occurs_iff]
      constructor
      · intro same
        split_ifs at same with again
        cases same
        exact .inl ⟨parted, again⟩
      · rintro (⟨here, single⟩ | ⟨absent, _⟩)
        · rw [← cut_eq_some_iff, found] at here
          cases here
          rw [if_neg single]
        · exact absurd present absent

theorem parseMatchers_ok_iff {q : Matcher → Prop} {texts : List (List Char)} :
    (∃ matchers, parseMatchers texts = .ok matchers ∧ ∀ m ∈ matchers, q m) ↔
      ∀ text ∈ texts, ∃ m, Matcher.ofText text = .ok m ∧ q m := by
  induction texts with
  | nil => simp [parseMatchers]
  | cons text texts ih =>
      rw [List.forall_mem_cons, ← ih]
      simp only [parseMatchers, bind_eq_ok_iff]
      constructor
      · rintro ⟨_, ⟨m, read, matchers, rest, same⟩, fit⟩
        cases same
        rw [List.forall_mem_cons] at fit
        exact ⟨⟨m, read, fit.1⟩, matchers, rest, fit.2⟩
      · rintro ⟨⟨m, read, fit⟩, matchers, rest, others⟩
        exact ⟨m :: matchers, ⟨m, read, matchers, rest, rfl⟩, List.forall_mem_cons.2 ⟨fit, others⟩⟩

theorem exists_ofText_of_parseMatchers {texts : List (List Char)} {matchers : List Matcher}
    (read : parseMatchers texts = .ok matchers) {m : Matcher} (member : m ∈ matchers) :
    ∃ text, Matcher.ofText text = .ok m := by
  -- The matchers that are read are the only ones, so where each of them comes from can be read with it.
  have each : ∀ text ∈ texts, ∃ m, Matcher.ofText text = .ok m ∧ ∃ text, Matcher.ofText text = .ok m := by
    intro text listed
    obtain ⟨m, here, _⟩ := parseMatchers_ok_iff.1 ⟨matchers, read, fun _ _ => trivial⟩ text listed
    exact ⟨m, here, text, here⟩
  obtain ⟨_, again, all⟩ := parseMatchers_ok_iff.2 each
  rw [read] at again
  cases again
  exact all m member

theorem writtenSide_iff_parseSide : WrittenSide lawful side ↔
    ∃ matchers, parseSide side = .ok matchers ∧ ∀ m ∈ matchers, lawful m.key.toList := by
  simp only [WrittenSide, parseSide, parseMatchers_ok_iff, ← Matcher.written_iff_ofText,
    List.mem_filter, List.mem_map, decide_eq_true_eq]
  constructor
  · rintro written _ ⟨⟨piece, listed, rfl⟩, filled⟩
    exact Matcher.written_trim.2 (written piece listed filled)
  · intro written piece listed filled
    exact Matcher.written_trim.1 (written (trim piece) ⟨⟨piece, listed, rfl⟩, filled⟩)

theorem parse_eq_ok_iff {rule : Rule} : parse raw = .ok rule ↔
    trim raw.toList ≠ [] ∧ ∃ condition consequence, Sided (trim raw.toList) condition consequence ∧
      ∃ given asked, parseSide condition = .ok given ∧ parseSide consequence = .ok asked ∧
        rule = { text := String.ofList (trim raw.toList), condition := given, consequence := asked } := by
  have chars : parse raw = .ok rule ↔ ofChars raw.toList = .ok rule := by
    unfold parse
    cases ofChars raw.toList <;> simp
  rw [chars, ofChars]
  split_ifs with blank
  · simp [blank]
  · simp only [bind_eq_ok_iff, Prod.exists, sides_eq_ok_iff]
    constructor
    · rintro ⟨condition, consequence, sided, given, first, asked, second, same⟩
      cases same
      exact ⟨blank, condition, consequence, sided, given, asked, first, second, rfl⟩
    · rintro ⟨_, condition, consequence, sided, given, asked, first, second, rfl⟩
      exact ⟨condition, consequence, sided, given, first, asked, second, rfl⟩

/-- A rule is read exactly from the texts of its form, and its keys stand there. -/
theorem written_iff_parse : Written lawful raw ↔
    ∃ rule, parse raw = .ok rule ∧
      ∀ m ∈ rule.condition ++ rule.consequence, lawful m.key.toList := by
  simp only [Written, writtenSide_iff_parseSide, parse_eq_ok_iff, List.forall_mem_append]
  constructor
  · rintro ⟨filled, condition, consequence, sided, ⟨given, first, fit⟩, asked, second, fits⟩
    exact ⟨_, ⟨filled, condition, consequence, sided, given, asked, first, second, rfl⟩, fit, fits⟩
  · rintro ⟨_, ⟨filled, condition, consequence, sided, given, asked, first, second, rfl⟩, fit, fits⟩
    exact ⟨filled, condition, consequence, sided, ⟨given, first, fit⟩, asked, second, fits⟩

theorem exists_ofText_of_parse {rule : Rule} (read : parse raw = .ok rule) {m : Matcher}
    (member : m ∈ rule.condition ++ rule.consequence) : ∃ text, Matcher.ofText text = .ok m := by
  obtain ⟨_, _, _, _, _, _, first, second, rfl⟩ := parse_eq_ok_iff.1 read
  rcases List.mem_append.1 member with given | asked
  · exact exists_ofText_of_parseMatchers first given
  · exact exists_ofText_of_parseMatchers second asked

/-- Exactly the texts of the form of a rule are read. Those with a single operator in each piece are the
ones where no key before a `!=` holds a `=`; the operator in front is taken into the key. -/
theorem parse_ok_iff_written (raw : String) :
    ((∃ rule, parse raw = .ok rule) ↔ Written (fun _ => True) raw) ∧
      (Written ('=' ∉ ·) raw ↔ ∃ rule, parse raw = .ok rule ∧
        ∀ m ∈ rule.condition ++ rule.consequence, m.negated = true → '=' ∉ m.key.toList) := by
  constructor
  · rw [written_iff_parse]
    simp only [implies_true, and_true]
  · rw [written_iff_parse]
    constructor
    · rintro ⟨rule, read, plain⟩
      exact ⟨rule, read, fun m member _ => plain m member⟩
    · rintro ⟨rule, read, plain⟩
      refine ⟨rule, read, fun m member => ?_⟩
      cases kind : m.negated with
      | true => exact plain m member kind
      | false =>
          obtain ⟨text, here⟩ := exists_ofText_of_parse read member
          exact Matcher.not_mem_key_of_ofText here kind

/-- A second operator in a piece can be read: `host = a` is taken for the key. -/
theorem two_operators_read :
    ¬ ((∃ rule, parse "host = a != b =>" = .ok rule) ↔ Written ('=' ∉ ·) "host = a != b =>") := by
  have read : parse "host = a != b =>" = .ok {
      text := "host = a != b =>"
      condition := [{ key := "host = a", negated := true, patterns := [.exact ['b']] }]
      consequence := [] } := by rfl
  intro same
  obtain ⟨rule, again, plain⟩ := written_iff_parse.1 (same.1 ⟨_, read⟩)
  rw [read] at again
  cases again
  exact absurd (plain _ List.mem_cons_self) (by decide)

end Rule

end ServiceGovernance.Routing
