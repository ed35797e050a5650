import Mathlib.Data.List.TakeWhile
import ServiceGovernance.Text.Blank
import ServiceGovernance.Text.Cut

/-!
Cutting and trimming as statements on the text. A cut is at the first occurrence of the separator,
whatever else the text holds, and blanks around a text do not move the cut at a separator without blanks.
-/

namespace ServiceGovernance.Text

/-- What is read step by step is read if every step is. -/
theorem bind_eq_ok_iff {ε α β : Type} {first : Except ε α} {next : α → Except ε β} {result : β} :
    (first >>= next) = .ok result ↔ ∃ a, first = .ok a ∧ next a = .ok result := by
  cases first with
  | error defect => simp [bind, Except.bind]
  | ok a => simp [bind, Except.bind]

theorem after?_eq_some_iff {lead text rest : List Char} :
    after? lead text = some rest ↔ text = lead ++ rest :=
  ⟨eq_append_of_after?, fun same => same ▸ after?_append lead rest⟩

theorem cutLast_eq_some_iff {c : Char} {text left right : List Char} :
    cutLast c text = some (left, right) ↔ text = left ++ c :: right ∧ c ∉ right := by
  have turned : text = left ++ c :: right ↔ text.reverse = right.reverse ++ c :: left.reverse := by
    rw [← List.reverse_inj]
    simp
  simp only [cutLast, Option.map_eq_some_iff, Prod.exists, Prod.mk.injEq]
  constructor
  · rintro ⟨last, first, found, rfl, rfl⟩
    obtain ⟨whole, absent⟩ := cut_single_eq_some_iff.1 found
    refine ⟨turned.2 ?_, by simpa using absent⟩
    simpa using whole
  · rintro ⟨whole, absent⟩
    exact ⟨right.reverse, left.reverse,
      cut_single_eq_some_iff.2 ⟨turned.1 whole, by simpa using absent⟩, by simp, by simp⟩

theorem cutLast_eq_none_iff {c : Char} {text : List Char} : cutLast c text = none ↔ c ∉ text := by
  rw [cutLast, Option.map_eq_none_iff, cut_single_eq_none_iff, List.mem_reverse]

theorem occurs_iff {part text : List Char} : occurs part text = true ↔ part <:+: text := by
  constructor
  · intro found
    obtain ⟨⟨left, right⟩, cut_here⟩ := Option.isSome_iff_exists.1 found
    exact ⟨left, right, (eq_append_of_cut cut_here).symm⟩
  · rintro ⟨left, right, rfl⟩
    induction left with
    | nil =>
        cases text : part ++ right with
        | nil =>
            obtain ⟨rfl, rfl⟩ := List.append_eq_nil_iff.1 text
            rfl
        | cons c rest =>
            have here : after? part (c :: rest) = some right := after?_eq_some_iff.2 text.symm
            simp [occurs, cut, here, text]
    | cons c left ih =>
        simp only [occurs, List.cons_append, cut]
        split
        · rfl
        · simpa [occurs] using ih

/-- The text falls apart at the first separator that is in it. -/
def Parted (separator text left right : List Char) : Prop :=
  text = left ++ separator ++ right ∧
    ∀ before after, text = before ++ separator ++ after → left.length ≤ before.length

section Cut

variable {separator text left right lead trail : List Char} {c : Char}

theorem cut_eq_none_iff : cut separator text = none ↔ ¬ separator <:+: text := by
  rw [← occurs_iff, occurs, Option.not_isSome_iff_eq_none]

theorem length_le_of_cut (found : cut separator text = some (left, right)) {before after : List Char}
    (whole : text = before ++ separator ++ after) : left.length ≤ before.length := by
  induction text generalizing left before with
  | nil =>
      obtain ⟨rest, _, same⟩ := Option.map_eq_some_iff.1 found
      cases same
      exact Nat.zero_le _
  | cons c text ih =>
      unfold cut at found
      split at found
      · cases found
        exact Nat.zero_le _
      · next elsewhere =>
          obtain ⟨halves, tail, same⟩ := Option.map_eq_some_iff.1 found
          cases same
          cases before with
          | nil =>
              have here : after? separator (c :: text) = some after := after?_eq_some_iff.2 whole
              rw [elsewhere] at here
              cases here
          | cons d before =>
              -- neither of the two occurrences is here, so both are in the rest
              obtain ⟨_, whole⟩ := List.cons.inj whole
              exact Nat.succ_le_succ (ih tail whole)

/-- Behind the first occurrence stands all that stands behind any other one. -/
theorem suffix_of_cut (found : cut separator text = some (left, right)) {before after : List Char}
    (whole : text = before ++ separator ++ after) : after <:+ right := by
  have split := eq_append_of_cut found
  have ends : after <:+ text := ⟨before ++ separator, whole.symm⟩
  have rest : right <:+ text := ⟨left ++ separator, split.symm⟩
  refine List.suffix_of_suffix_length_le ends rest ?_
  have first := length_le_of_cut found whole
  have lengths := congrArg List.length (whole.symm.trans split)
  simp only [List.length_append] at lengths
  omega

theorem cut_eq_some_iff : cut separator text = some (left, right) ↔ Parted separator text left right := by
  constructor
  · intro found
    exact ⟨eq_append_of_cut found, fun before after whole => length_le_of_cut found whole⟩
  · rintro ⟨whole, first⟩
    cases found : cut separator text with
    | none => exact absurd ⟨left, right, whole.symm⟩ (cut_eq_none_iff.1 found)
    | some halves =>
        have parted := eq_append_of_cut found
        have same : left.length = halves.1.length :=
          Nat.le_antisymm (first halves.1 halves.2 parted) (length_le_of_cut found whole)
        rw [whole, List.append_assoc, List.append_assoc] at parted
        obtain ⟨lefts, rest⟩ := List.append_inj parted same
        rw [lefts, List.append_cancel_left rest]

theorem cut_append_left (filled : separator ≠ []) (apart : ∀ c ∈ lead, c ∉ separator) :
    cut separator (lead ++ text) = (cut separator text).map fun halves => (lead ++ halves.1, halves.2) := by
  induction lead with
  | nil => simp
  | cons c lead ih =>
      have here : after? separator (c :: (lead ++ text)) = none := by
        cases separator with
        | nil => exact absurd rfl filled
        | cons d separator =>
            have other : d ≠ c := fun same => apart c List.mem_cons_self (same ▸ List.mem_cons_self)
            simp [after?, other]
      rw [List.cons_append, cut, here]
      simp only
      rw [ih fun d member => apart d (List.mem_cons_of_mem _ member), Option.map_map]
      rfl

theorem after?_append_right (apart : ∀ c ∈ trail, c ∉ separator) :
    after? separator (text ++ trail) = (after? separator text).map (· ++ trail) := by
  fun_induction after? separator text with
  | case1 text => rfl
  | case2 d separator =>
      cases trail with
      | nil => rfl
      | cons c trail =>
          have other : d ≠ c := fun same => apart c List.mem_cons_self (same ▸ List.mem_cons_self)
          simp [after?, other]
  | case3 separator d text ih =>
      have apart : ∀ c ∈ trail, c ∉ separator :=
        fun c member inside => apart c member (List.mem_cons_of_mem _ inside)
      simp [after?, ih apart]
  | case4 d separator e text other => simp [after?, other]

theorem cut_append_right (filled : separator ≠ []) (apart : ∀ c ∈ trail, c ∉ separator) :
    cut separator (text ++ trail) = (cut separator text).map fun halves => (halves.1, halves.2 ++ trail) := by
  induction text with
  | nil =>
      have absent : ¬ separator <:+: trail := by
        intro inside
        obtain ⟨c, rest, whole⟩ := List.exists_cons_of_ne_nil filled
        have first : c ∈ separator := whole ▸ List.mem_cons_self
        exact apart c (inside.subset first) first
      have nowhere : cut separator [] = none := by
        rw [cut_eq_none_iff, List.infix_nil]
        exact filled
      rw [List.nil_append, cut_eq_none_iff.2 absent, nowhere]
      rfl
  | cons c text ih =>
      have here : after? separator (c :: text ++ trail) =
          (after? separator (c :: text)).map (· ++ trail) := after?_append_right apart
      rw [List.cons_append] at here ⊢
      rw [cut, cut, here]
      cases after? separator (c :: text) with
      | some rest => rfl
      | none =>
          simp only [Option.map_none]
          rw [ih, Option.map_map, Option.map_map]
          rfl

end Cut

section Pieces

variable {separator c : Char} {text : List Char}

theorem exists_pieces_eq_cons (separator : Char) (text : List Char) :
    ∃ first rest, pieces separator text = first :: rest :=
  List.exists_cons_of_ne_nil (List.splitOn_ne_nil separator text)

theorem pieces_cons_separator : pieces separator (separator :: text) = [] :: pieces separator text := by
  simp [pieces, List.splitOn_cons_eq_if_modifyHead]

/-- Any other character belongs to the first piece. -/
theorem pieces_cons_of_ne (other : c ≠ separator) :
    pieces separator (c :: text) = (pieces separator text).modifyHead (c :: ·) := by
  simp [pieces, List.splitOn_cons_eq_if_modifyHead, other]

/-- All but the separators stands in the pieces. -/
theorem exists_piece_iff : (∃ piece ∈ pieces separator text, c ∈ piece) ↔ c ∈ text ∧ c ≠ separator := by
  induction text with
  | nil => simp [pieces]
  | cons d text ih =>
      by_cases same : d = separator
      · subst same
        rw [pieces_cons_separator]
        by_cases other : c = d
        · subst other
          simpa using ih
        · simp [ih, other]
      · rw [pieces_cons_of_ne same]
        obtain ⟨first, rest, whole⟩ := exists_pieces_eq_cons separator text
        rw [whole] at ih ⊢
        simp only [List.mem_cons, exists_eq_or_imp] at ih
        by_cases here : c = d
        · subst here
          simp [same]
        · simp [here, ih]

end Pieces

section Trim

variable {text lead trail : List Char} {c : Char}

theorem exists_trim (text : List Char) : ∃ lead trail, text = lead ++ trim text ++ trail ∧
    (∀ c ∈ lead, isBlank c = true) ∧ ∀ c ∈ trail, isBlank c = true := by
  have start : text = text.takeWhile isBlank ++ trimStart text := List.takeWhile_append_dropWhile.symm
  have turned : (trimStart text).reverse = (trimStart text).reverse.takeWhile isBlank ++
      trimStart (trimStart text).reverse := List.takeWhile_append_dropWhile.symm
  have stop := congrArg List.reverse turned
  rw [List.reverse_reverse, List.reverse_append] at stop
  refine ⟨text.takeWhile isBlank, ((trimStart text).reverse.takeWhile isBlank).reverse, ?_, ?_, ?_⟩
  · calc text = text.takeWhile isBlank ++ trimStart text := start
      _ = text.takeWhile isBlank ++
            (trim text ++ ((trimStart text).reverse.takeWhile isBlank).reverse) :=
          congrArg (text.takeWhile isBlank ++ ·) stop
      _ = _ := (List.append_assoc _ _ _).symm
  · exact fun c member => List.mem_takeWhile_imp member
  · exact fun c member => List.mem_takeWhile_imp (List.mem_reverse.1 member)

theorem trim_eq_nil_iff : trim text = [] ↔ ∀ c ∈ text, isBlank c = true := by
  constructor
  · intro empty
    obtain ⟨lead, trail, whole, before, after⟩ := exists_trim text
    rw [empty, List.append_nil] at whole
    intro c member
    rw [whole, List.mem_append] at member
    exact member.elim (before c) (after c)
  · intro blank
    have start : trimStart text = [] := List.dropWhile_eq_nil_iff.2 blank
    rw [trim, start]
    rfl

theorem mem_trim_iff (visible : isBlank c = false) : c ∈ trim text ↔ c ∈ text := by
  obtain ⟨lead, trail, whole, before, after⟩ := exists_trim text
  have not_before : c ∉ lead := fun member => by simp [before c member] at visible
  have not_after : c ∉ trail := fun member => by simp [after c member] at visible
  have members : c ∈ lead ++ trim text ++ trail ↔ c ∈ text := by rw [← whole]
  rw [← members]
  simp [not_before, not_after]

theorem trim_append_left (blank : ∀ c ∈ lead, isBlank c = true) : trim (lead ++ text) = trim text := by
  rw [trim, trim, trimStart, trimStart, List.dropWhile_append_of_pos blank]

end Trim

end ServiceGovernance.Text
