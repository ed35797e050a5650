/-!
Cutting a text at a separator. `cut` splits at the first occurrence, `cutLast` at the last occurrence
of one character, `pieces` at every occurrence of one character.
-/

namespace ServiceGovernance.Text

/-- The rest of the text after `lead`, if the text starts with it. -/
def after? : (lead text : List Char) → Option (List Char)
  | [], text => some text
  | _ :: _, [] => none
  | c :: lead, d :: text => if c = d then after? lead text else none

def cut (separator : List Char) : List Char → Option (List Char × List Char)
  | [] => (after? separator []).map fun rest => ([], rest)
  | c :: text =>
      match after? separator (c :: text) with
      | some rest => some ([], rest)
      | none => (cut separator text).map fun halves => (c :: halves.1, halves.2)

def cutLast (separator : Char) (text : List Char) : Option (List Char × List Char) :=
  (cut [separator] text.reverse).map fun halves => (halves.2.reverse, halves.1.reverse)

def pieces (separator : Char) (text : List Char) : List (List Char) := text.splitOn separator

def occurs (part text : List Char) : Bool := (cut part text).isSome

theorem after?_append (lead rest : List Char) : after? lead (lead ++ rest) = some rest := by
  induction lead with
  | nil => rfl
  | cons c lead ih => simpa [after?] using ih

theorem eq_append_of_after? {lead text rest : List Char} (found : after? lead text = some rest) :
    text = lead ++ rest := by
  fun_induction after? lead text with
  | case1 text => simpa using found
  | case2 => cases found
  | case3 lead d text ih => simpa using ih found
  | case4 => cases found

theorem eq_append_of_cut {separator text left right : List Char}
    (found : cut separator text = some (left, right)) : text = left ++ separator ++ right := by
  induction text generalizing left with
  | nil =>
      obtain ⟨rest, tail, equal⟩ := Option.map_eq_some_iff.1 found
      cases equal
      simpa using eq_append_of_after? tail
  | cons c text ih =>
      unfold cut at found
      split at found
      · next rest tail =>
          cases found
          simpa using eq_append_of_after? tail
      · obtain ⟨halves, tail, equal⟩ := Option.map_eq_some_iff.1 found
        cases equal
        simpa using ih tail

theorem cut_single_eq_some_iff {c : Char} {text left right : List Char} :
    cut [c] text = some (left, right) ↔ text = left ++ c :: right ∧ c ∉ left := by
  induction text generalizing left with
  | nil => simp [cut, after?]
  | cons d text ih =>
      by_cases same : c = d
      · subst same
        cases left with
        | nil => simp [cut, after?]
        | cons e left =>
            simp only [cut, after?, if_true, Option.some.injEq, Prod.mk.injEq, List.mem_cons]
            constructor
            · rintro ⟨h, _⟩; cases h
            · rintro ⟨h, absent⟩
              simp only [List.cons_append, List.cons.injEq] at h
              exact absurd (Or.inl h.1) absent
      · cases left with
        | nil =>
            simp only [cut, after?, if_neg same]
            constructor
            · intro h
              obtain ⟨halves, _, equal⟩ := Option.map_eq_some_iff.1 h
              cases equal
            · rintro ⟨h, _⟩
              simp only [List.nil_append, List.cons.injEq] at h
              exact absurd h.1.symm same
        | cons e left =>
            simp only [cut, after?, if_neg same]
            constructor
            · intro h
              obtain ⟨halves, tail, equal⟩ := Option.map_eq_some_iff.1 h
              cases equal
              obtain ⟨rfl, absent⟩ := ih.1 tail
              exact ⟨rfl, by simp [same, absent]⟩
            · rintro ⟨h, absent⟩
              simp only [List.cons_append, List.cons.injEq] at h
              obtain ⟨rfl, rfl⟩ := h
              have absent : c ∉ left := fun member => absent (List.mem_cons_of_mem _ member)
              rw [ih.2 ⟨rfl, absent⟩]
              rfl

theorem cut_single_eq_none_iff {c : Char} {text : List Char} :
    cut [c] text = none ↔ c ∉ text := by
  induction text with
  | nil => simp [cut, after?]
  | cons d text ih =>
      by_cases same : c = d
      · subst same; simp [cut, after?]
      · simp [cut, after?, same, ih]

end ServiceGovernance.Text
