import Mathlib.Data.List.Infix
import ServiceGovernance.Proofs.Text.Cutting
import ServiceGovernance.Routing.Pattern

/-!
What the text of a pattern stands for. Every star is replaced by a text of its own, all else stays as it
is. Matching looks for the pieces between the stars one after the other and never goes back: whatever
can follow a later occurrence of a piece can follow its first one, after a longer gap.
-/

namespace ServiceGovernance.Routing.Pattern

open Text

/-- The value comes from the text by putting some text, which may be empty, in the place of each star. -/
inductive StandsFor : List Char → List Char → Prop where
  | nil : StandsFor [] []
  | star (filling : List Char) {text value : List Char} (rest : StandsFor text value) :
      StandsFor ('*' :: text) (filling ++ value)
  | keep {c : Char} (plain : c ≠ '*') {text value : List Char} (rest : StandsFor text value) :
      StandsFor (c :: text) (c :: value)

/-- The value consists of the pieces in their order, each after a gap, and ends with the last one. -/
def Strung : List (List Char) → List Char → Prop
  | [], value => value = []
  | piece :: rest, value => ∃ gap after, value = gap ++ piece ++ after ∧ Strung rest after

variable {text value piece last : List Char} {middle rest : List (List Char)} {c : Char}

section Text

theorem standsFor_nil_iff : StandsFor [] value ↔ value = [] := by
  constructor
  · intro stands
    cases stands
    rfl
  · rintro rfl
    exact .nil

theorem standsFor_star_iff :
    StandsFor ('*' :: text) value ↔ ∃ filling after, value = filling ++ after ∧ StandsFor text after := by
  constructor
  · intro stands
    cases stands with
    | star filling rest => exact ⟨filling, _, rfl, rest⟩
    | keep plain => exact absurd rfl plain
  · rintro ⟨filling, after, rfl, rest⟩
    exact .star filling rest

theorem standsFor_keep_iff (plain : c ≠ '*') :
    StandsFor (c :: text) value ↔ ∃ after, value = c :: after ∧ StandsFor text after := by
  constructor
  · intro stands
    cases stands with
    | star => exact absurd rfl plain
    | keep _ rest => exact ⟨_, rfl, rest⟩
  · rintro ⟨after, rfl, rest⟩
    exact .keep plain rest

/-- Stars alone stand for everything. -/
theorem standsFor_of_stars (filled : text ≠ []) (stars : ∀ c ∈ text, c = '*') (value : List Char) :
    StandsFor text value := by
  induction text with
  | nil => exact absurd rfl filled
  | cons c text ih =>
      obtain ⟨rfl, others⟩ := List.forall_mem_cons.1 stars
      cases text with
      | nil => simpa using StandsFor.star value .nil
      | cons d text => exact .star [] (ih (List.cons_ne_nil d text) others)

/-- The first piece begins the value and the others are strung behind it. -/
theorem standsFor_iff_pieces : StandsFor text value ↔
    ∃ first rest tail, Text.pieces '*' text = first :: rest ∧ value = first ++ tail ∧ Strung rest tail := by
  induction text generalizing value with
  | nil => simp [standsFor_nil_iff, Text.pieces, Strung]
  | cons c text ih =>
      by_cases star : c = '*'
      · subst star
        rw [standsFor_star_iff, pieces_cons_separator]
        constructor
        · rintro ⟨filling, after, rfl, stands⟩
          obtain ⟨first, rest, tail, whole, rfl, strung⟩ := ih.1 stands
          refine ⟨[], _, filling ++ (first ++ tail), rfl, rfl, ?_⟩
          rw [whole]
          exact ⟨filling, tail, (List.append_assoc ..).symm, strung⟩
        · rintro ⟨_, _, tail, same, rfl, strung⟩
          obtain ⟨rfl, rfl⟩ := List.cons.inj same
          obtain ⟨first, rest, whole⟩ := exists_pieces_eq_cons '*' text
          rw [whole] at strung
          obtain ⟨gap, after, rfl, strung⟩ := strung
          exact ⟨gap, first ++ after, List.append_assoc .., ih.2 ⟨first, rest, after, whole, rfl, strung⟩⟩
      · rw [standsFor_keep_iff star, pieces_cons_of_ne star]
        constructor
        · rintro ⟨after, rfl, stands⟩
          obtain ⟨first, rest, tail, whole, rfl, strung⟩ := ih.1 stands
          exact ⟨c :: first, rest, tail, by rw [whole]; rfl, rfl, strung⟩
        · rintro ⟨_, rest, tail, same, rfl, strung⟩
          obtain ⟨first, others, whole⟩ := exists_pieces_eq_cons '*' text
          rw [whole] at same
          obtain ⟨rfl, rfl⟩ := List.cons.inj same
          exact ⟨first ++ tail, rfl, ih.2 ⟨first, others, tail, whole, rfl, strung⟩⟩

end Text

section Greedy

/-- The first gap takes in whatever is put in front. -/
theorem Strung.of_suffix {whole : List Char} (filled : rest ≠ []) (strung : Strung rest value)
    (ends : value <:+ whole) : Strung rest whole := by
  obtain ⟨lead, rfl⟩ := ends
  obtain ⟨piece, others, rfl⟩ := List.exists_cons_of_ne_nil filled
  obtain ⟨gap, after, rfl, strung⟩ := strung
  exact ⟨lead ++ gap, after, by simp only [List.append_assoc], strung⟩

/-- The pieces are strung along the value exactly if the last one ends what is left behind the first
occurrences of the others. -/
theorem strung_concat_iff : Strung (middle ++ [last]) value ↔
    ∃ remaining, skip middle value = some remaining ∧ last <:+ remaining := by
  induction middle generalizing value with
  | nil =>
      simp only [List.nil_append, Strung, skip, Option.some.injEq, exists_eq_left', exists_eq_right,
        List.append_nil]
      exact ⟨fun ⟨gap, whole⟩ => ⟨gap, whole.symm⟩, fun ⟨gap, whole⟩ => ⟨gap, whole.symm⟩⟩
  | cons piece middle ih =>
      rw [List.cons_append, skip]
      constructor
      · rintro ⟨gap, after, whole, strung⟩
        cases found : cut piece value with
        | none => exact absurd ⟨gap, after, whole.symm⟩ (cut_eq_none_iff.1 found)
        | some halves =>
            -- the piece occurs here for the first time, so what followed it then is still to come
            have later : after <:+ halves.2 := suffix_of_cut found whole
            exact ih.1 (strung.of_suffix (by simp) later)
      · rintro ⟨remaining, skipped, ends⟩
        cases found : cut piece value with
        | none =>
            rw [found] at skipped
            cases skipped
        | some halves =>
            rw [found] at skipped
            exact ⟨halves.1, halves.2, eq_append_of_cut found, ih.2 ⟨remaining, skipped, ends⟩⟩

theorem accepts_ofPieces_iff (first : List Char) (rest : List (List Char)) :
    (ofPieces (first :: rest)).accepts value = true ↔ ∃ tail, value = first ++ tail ∧ Strung rest tail := by
  cases rest with
  | nil => simp [ofPieces, accepts, Strung]
  | cons piece others =>
      obtain ⟨middle, last, whole⟩ :=
        (List.eq_nil_or_concat' (piece :: others)).resolve_left (List.cons_ne_nil piece others)
      simp only [ofPieces, accepts, whole, List.dropLast_concat, List.getLast_append_singleton,
        strung_concat_iff, ← after?_eq_some_iff]
      cases after? first value with
      | none => simp
      | some tail =>
          simp only [Option.bind_some, Option.some.injEq, exists_eq_left']
          cases skip middle tail <;> simp

end Greedy

/-- A pattern accepts exactly the values that its text stands for. -/
theorem accepts_ofText_iff (filled : text ≠ []) (value : List Char) :
    (ofText text).accepts value = true ↔ StandsFor text value := by
  unfold ofText
  split
  · next stars =>
      have stars : ∀ c ∈ text, c = '*' := by simpa using stars
      exact iff_of_true rfl (standsFor_of_stars filled stars value)
  · rw [standsFor_iff_pieces]
    obtain ⟨first, rest, whole⟩ := exists_pieces_eq_cons '*' text
    rw [whole, accepts_ofPieces_iff]
    constructor
    · rintro ⟨tail, begins, strung⟩
      exact ⟨first, rest, tail, rfl, begins, strung⟩
    · rintro ⟨_, _, tail, same, begins, strung⟩
      obtain ⟨rfl, rfl⟩ := List.cons.inj same
      exact ⟨tail, begins, strung⟩

/-- Stars inside a text take in what stands between, but no two pieces share a character of the value. -/
theorem interior_stars :
    "*0.*.9".toList ≠ [] ∧ StandsFor "*0.*.9".toList "10.1.0.9".toList ∧
      ¬ StandsFor "10.0*0.5".toList "10.0.5".toList := by
  have filled : "*0.*.9".toList ≠ [] := by decide
  have other : "10.0*0.5".toList ≠ [] := by decide
  exact ⟨filled, (accepts_ofText_iff filled _).1 (by decide), fun stands =>
    absurd ((accepts_ofText_iff other _).2 stands) (by decide)⟩

end ServiceGovernance.Routing.Pattern
