import ServiceGovernance.Proofs.Text.Cutting
import ServiceGovernance.Store.Path

/-!
Paths put together from segments. A path followed by a slash and a segment tells both apart again:
the path is its parent, the segment the child's name. How many slashes a path has says how deep it
lies, so paths of different depth are different.
-/

namespace ServiceGovernance.Store.Path

open Text

/-- A name that can stand between two slashes. -/
def Segment (name : String) : Prop := name ≠ "" ∧ '/' ∉ name.toList

instance (name : String) : Decidable (Segment name) := inferInstanceAs (Decidable (_ ∧ _))

/-- A path with at least one segment, all of them non-empty. -/
inductive Absolute : String → Prop where
  | top {name : String} (segment : Segment name) : Absolute ("/" ++ name)
  | child {path name : String} (above : Absolute path) (segment : Segment name) :
      Absolute (path ++ "/" ++ name)

def slashes (path : String) : Nat := path.toList.count '/'

section Join

theorem toList_join (path name : String) :
    (path ++ "/" ++ name).toList = path.toList ++ '/' :: name.toList := by
  simp

theorem join_ne_empty (path name : String) : path ++ "/" ++ name ≠ "" := fun empty => by
  simpa using congrArg String.toList empty

theorem slashes_join (path name : String) :
    slashes (path ++ "/" ++ name) = slashes path + 1 + slashes name := by
  rw [slashes, toList_join, List.count_append, List.count_cons_self]
  simp only [slashes]
  omega

theorem slashes_segment {name : String} (plain : '/' ∉ name.toList) : slashes name = 0 :=
  List.count_eq_zero.2 plain

theorem join_inj {path other name last : String} (plain : '/' ∉ name.toList) (flat : '/' ∉ last.toList) :
    path ++ "/" ++ name = other ++ "/" ++ last ↔ path = other ∧ name = last := by
  constructor
  · intro same
    have chars := congrArg String.toList same
    rw [toList_join, toList_join] at chars
    have cut_here := cutLast_eq_some_iff.2 ⟨chars, flat⟩
    rw [cutLast_eq_some_iff.2 ⟨rfl, plain⟩] at cut_here
    simp only [Option.some.injEq, Prod.mk.injEq, String.toList_inj] at cut_here
    exact cut_here
  · rintro ⟨rfl, rfl⟩
    rfl

/-- A text with a slash is joined at the last one. -/
theorem exists_join_of_mem {path : String} (slash : '/' ∈ path.toList) :
    ∃ before name, path = before ++ "/" ++ name ∧ '/' ∉ name.toList := by
  cases found : cutLast '/' path.toList with
  | none => exact absurd slash (cutLast_eq_none_iff.1 found)
  | some halves =>
      obtain ⟨whole, plain⟩ := cutLast_eq_some_iff.1 found
      refine ⟨String.ofList halves.1, String.ofList halves.2, String.toList_inj.1 ?_, by simpa using plain⟩
      rw [toList_join, String.toList_ofList, String.toList_ofList]
      exact whole

theorem parent?_join {path name : String} (filled : path ≠ "") (plain : '/' ∉ name.toList) :
    parent? (path ++ "/" ++ name) = some path := by
  have cut_here : cutLast '/' (path ++ "/" ++ name).toList = some (path.toList, name.toList) :=
    cutLast_eq_some_iff.2 ⟨toList_join path name, plain⟩
  have filled : path.toList ≠ [] := by simpa using filled
  rw [parent?, parentChars?, cut_here]
  cases chars : path.toList with
  | nil => exact absurd chars filled
  | cons c rest => simp [← chars]

theorem parent?_top {name : String} (segment : Segment name) : parent? ("/" ++ name) = some rootPath := by
  have cut_here : cutLast '/' ("/" ++ name).toList = some ([], name.toList) :=
    cutLast_eq_some_iff.2 ⟨by simp, segment.2⟩
  have filled : name.toList ≠ [] := by simpa using segment.1
  rw [parent?, parentChars?, cut_here]
  cases chars : name.toList with
  | nil => exact absurd chars filled
  | cons c rest => rfl

theorem lastSegment_join {path name : String} (plain : '/' ∉ name.toList) :
    lastSegment (path ++ "/" ++ name) = name := by
  have cut_here : cutLast '/' (path ++ "/" ++ name).toList = some (path.toList, name.toList) :=
    cutLast_eq_some_iff.2 ⟨toList_join path name, plain⟩
  rw [lastSegment, cut_here]
  exact String.ofList_toList

theorem childLead_of_ne {path : String} (below_top : path ≠ rootPath) :
    childLead path.toList = path.toList ++ ['/'] := by
  have : path.toList ≠ ['/'] := fun same => below_top (String.toList_inj.1 same)
  rw [childLead, if_neg this]

theorem childName?_eq_some_iff_lead {path key name : String} :
    childName? path key = some name ↔ key.toList = childLead path.toList ++ name.toList ∧ Segment name := by
  unfold childName?
  constructor
  · intro found
    split at found
    · next rest tail =>
        split at found
        · cases found
        · next usable =>
            cases found
            rw [String.toList_ofList]
            exact ⟨after?_eq_some_iff.1 tail, by simpa [Segment, not_or] using usable⟩
    · cases found
  · rintro ⟨whole, filled, plain⟩
    have filled : name.toList ≠ [] := by simpa using filled
    rw [after?_eq_some_iff.2 whole]
    simp [filled, plain]

theorem childName?_eq_some_iff {path key name : String} (below_top : path ≠ rootPath) :
    childName? path key = some name ↔ key = path ++ "/" ++ name ∧ Segment name := by
  rw [childName?_eq_some_iff_lead, childLead_of_ne below_top, ← String.toList_inj, toList_join]
  simp

theorem childName?_root_eq_some_iff {key name : String} :
    childName? rootPath key = some name ↔ key = "/" ++ name ∧ Segment name := by
  have lead : childLead rootPath.toList = ['/'] := rfl
  rw [childName?_eq_some_iff_lead, lead, ← String.toList_inj]
  simp

theorem isBelow_iff {path key : String} (below_top : path ≠ rootPath) :
    isBelow path key = true ↔ ∃ rest, key = path ++ "/" ++ rest := by
  rw [isBelow, childLead_of_ne below_top, Option.isSome_iff_exists]
  constructor
  · rintro ⟨rest, found⟩
    exact ⟨String.ofList rest, String.toList_inj.1 (by simpa using after?_eq_some_iff.1 found)⟩
  · rintro ⟨rest, rfl⟩
    exact ⟨rest.toList, after?_eq_some_iff.2 (by simp)⟩

theorem isBelow_iff_leads {path key : String} :
    isBelow path key = true ↔ childLead path.toList <+: key.toList := by
  rw [isBelow, Option.isSome_iff_exists]
  constructor
  · rintro ⟨rest, found⟩
    exact ⟨rest, (after?_eq_some_iff.1 found).symm⟩
  · rintro ⟨rest, whole⟩
    exact ⟨rest, after?_eq_some_iff.2 whole.symm⟩

theorem isBelow_of_childName? {path key name : String} (found : childName? path key = some name) :
    isBelow path key = true := by
  unfold childName? at found
  unfold isBelow
  split at found
  · next rest tail => rw [tail]; rfl
  · cases found

theorem prefix_childLead (path : List Char) : path <+: childLead path := by
  unfold childLead
  split
  · exact List.prefix_rfl
  · exact List.prefix_append path ['/']

theorem isBelow_trans {top path key : String} (first : isBelow top path = true)
    (second : isBelow path key = true) : isBelow top key = true := by
  rw [isBelow_iff_leads] at *
  exact (first.trans (prefix_childLead path.toList)).trans second

/-- What is below a path is longer, the root apart, which counts as below itself. -/
theorem length_le_of_isBelow {path key : String} (below : isBelow path key = true) :
    path.toList.length ≤ key.toList.length :=
  ((prefix_childLead path.toList).trans (isBelow_iff_leads.1 below)).length_le

theorem length_lt_of_parent? {path above : String} (parent : parent? path = some above) :
    above.toList.length < path.toList.length := by
  obtain ⟨chars, found, rfl⟩ := Option.map_eq_some_iff.1 parent
  rw [String.toList_ofList]
  unfold parentChars? at found
  split at found
  · cases found
  · cases found
  · next name cut_here filled =>
      cases found
      rw [(cutLast_eq_some_iff.1 filled).1]
      have named : name ≠ [] := cut_here
      have := List.length_pos_iff.2 named
      simp
      omega
  · next above name _ _ cut_here =>
      cases found
      rw [(cutLast_eq_some_iff.1 cut_here).1]
      simp

/-- Whoever has a child is its parent. -/
theorem parent?_of_childName? {path key name : String} (filled : path ≠ "")
    (found : childName? path key = some name) : parent? key = some path := by
  by_cases top : path = rootPath
  · subst top
    obtain ⟨rfl, segment⟩ := childName?_root_eq_some_iff.1 found
    exact parent?_top segment
  · obtain ⟨rfl, segment⟩ := (childName?_eq_some_iff top).1 found
    exact parent?_join filled segment.2

end Join

section Ancestors

theorem ancestorsFrom_append (before text more : List Char) :
    ancestorsFrom before (text ++ more) =
      ancestorsFrom before text ++ ancestorsFrom (before ++ text) more := by
  induction text generalizing before with
  | nil => simp [ancestorsFrom]
  | cons c text ih =>
      simp only [List.cons_append, ancestorsFrom, ih, List.append_assoc, List.nil_append]
      split <;> rfl

theorem ancestorsFrom_plain {before text : List Char} (plain : '/' ∉ text) :
    ancestorsFrom before text = [] := by
  induction text generalizing before with
  | nil => rfl
  | cons c text ih =>
      obtain ⟨other, rest⟩ := not_or.1 (mt List.mem_cons.2 plain)
      rw [ancestorsFrom, if_neg fun slash => other slash.1.symm, ih rest]

theorem ancestors_join {path name : String} (filled : path ≠ "") (plain : '/' ∉ name.toList) :
    ancestors (path ++ "/" ++ name) = ancestors path ++ [path] := by
  have filled : path.toList ≠ [] := by simpa using filled
  rw [ancestors, toList_join, ancestorsFrom_append, List.nil_append, ancestorsFrom,
    if_pos ⟨rfl, filled⟩, ancestorsFrom_plain plain, List.map_append]
  simp [ancestors]

theorem ancestors_top {name : String} (plain : '/' ∉ name.toList) : ancestors ("/" ++ name) = [] := by
  have chars : ("/" ++ name).toList = '/' :: name.toList := by simp
  rw [ancestors, chars, ancestorsFrom, if_neg (by simp), ancestorsFrom_plain plain]
  rfl

theorem mem_ancestorsFrom_iff {before text above : List Char} :
    above ∈ ancestorsFrom before text ↔
      above ≠ [] ∧ ∃ passed rest, above = before ++ passed ∧ text = passed ++ '/' :: rest := by
  induction text generalizing before with
  | nil => simp [ancestorsFrom]
  | cons c text ih =>
      have later : above ∈ ancestorsFrom (before ++ [c]) text ↔
          above ≠ [] ∧ ∃ passed rest, above = before ++ c :: passed ∧ text = passed ++ '/' :: rest := by
        rw [ih]
        simp
      have here : (∃ passed rest, above = before ++ passed ∧ c :: text = passed ++ '/' :: rest) ↔
          above = before ∧ c = '/' ∨
            ∃ passed rest, above = before ++ c :: passed ∧ text = passed ++ '/' :: rest := by
        constructor
        · rintro ⟨_ | ⟨d, passed⟩, rest, whole, split⟩
          · exact .inl ⟨by simpa using whole, (List.cons.inj split).1⟩
          · obtain ⟨rfl, tail⟩ := List.cons.inj split
            exact .inr ⟨passed, rest, whole, tail⟩
        · rintro (⟨rfl, rfl⟩ | ⟨passed, rest, whole, split⟩)
          · exact ⟨[], text, by simp, rfl⟩
          · exact ⟨c :: passed, rest, whole, by rw [split]; rfl⟩
      rw [here]
      unfold ancestorsFrom
      split
      · next slash =>
          rw [List.mem_cons, later]
          grind
      · next plain =>
          rw [later]
          grind

theorem mem_ancestors_iff {path above : String} :
    above ∈ ancestors path ↔ above ≠ "" ∧ ∃ rest, path.toList = above.toList ++ '/' :: rest := by
  have filled : above ≠ "" ↔ above.toList ≠ [] := by simp
  rw [filled]
  constructor
  · intro member
    obtain ⟨chars, there, rfl⟩ := List.mem_map.1 member
    obtain ⟨nonempty, passed, rest, rfl, split⟩ := mem_ancestorsFrom_iff.1 there
    rw [String.toList_ofList]
    exact ⟨nonempty, rest, split⟩
  · rintro ⟨nonempty, rest, split⟩
    exact List.mem_map.2 ⟨above.toList, mem_ancestorsFrom_iff.2 ⟨nonempty, above.toList, rest, rfl, split⟩,
      String.ofList_toList⟩

theorem ancestors_trans {path above top : String} (first : top ∈ ancestors above)
    (second : above ∈ ancestors path) :
    top ∈ ancestors path := by
  obtain ⟨filled, rest, split⟩ := mem_ancestors_iff.1 first
  obtain ⟨_, more, whole⟩ := mem_ancestors_iff.1 second
  exact mem_ancestors_iff.2 ⟨filled, rest ++ '/' :: more, by rw [whole, split]; simp⟩

/-- Of two ancestors one is an ancestor of the other. -/
theorem ancestors_comparable {path above other : String} (first : above ∈ ancestors path)
    (second : other ∈ ancestors path) :
    above ∈ ancestors other ∨ above = other ∨ other ∈ ancestors above := by
  obtain ⟨filled, rest, split⟩ := mem_ancestors_iff.1 first
  obtain ⟨filled_other, more, whole⟩ := mem_ancestors_iff.1 second
  rcases List.append_eq_append_iff.1 (split.symm.trans whole) with ⟨gap, longer, tail⟩ | ⟨gap, longer, tail⟩
  · cases gap with
    | nil => exact .inr (.inl (String.toList_inj.1 (by simpa using longer.symm)))
    | cons c gap =>
        cases (List.cons.inj tail).1
        exact .inl (mem_ancestors_iff.2 ⟨filled, gap, longer⟩)
  · cases gap with
    | nil => exact .inr (.inl (String.toList_inj.1 (by simpa using longer)))
    | cons c gap =>
        cases (List.cons.inj tail).1
        exact .inr (.inr (mem_ancestors_iff.2 ⟨filled_other, gap, longer⟩))

theorem isBelow_iff_mem_ancestors {path key : String} (filled : path ≠ "") (below_top : path ≠ rootPath) :
    isBelow path key = true ↔ path ∈ ancestors key := by
  rw [isBelow_iff below_top, mem_ancestors_iff, and_iff_right filled]
  constructor
  · rintro ⟨rest, rfl⟩
    exact ⟨rest.toList, toList_join path rest⟩
  · rintro ⟨rest, split⟩
    exact ⟨String.ofList rest, String.toList_inj.1 (by rw [toList_join, String.toList_ofList, split])⟩

theorem isBelow_of_mem_ancestors {path above : String} (member : above ∈ ancestors path) :
    isBelow above path = true := by
  obtain ⟨_, rest, whole⟩ := mem_ancestors_iff.1 member
  rw [isBelow_iff_leads, whole, childLead]
  split
  · exact List.prefix_append ..
  · exact ⟨rest, by simp⟩

/-- What is above a child is above its parent, or the parent itself. -/
theorem eq_or_isBelow_of_child {top path key name : String} (filled : top ≠ "")
    (starts : path.toList.head? = some '/') (child : childName? path key = some name)
    (below : isBelow top key = true) : top = path ∨ isBelow top path = true := by
  by_cases highest : top = rootPath
  · obtain ⟨rest, whole⟩ := List.head?_eq_some_iff.1 starts
    refine .inr (isBelow_iff_leads.2 ⟨rest, ?_⟩)
    rw [highest, whole]
    rfl
  · have member := (isBelow_iff_mem_ancestors filled highest).1 below
    by_cases path_top : path = rootPath
    · subst path_top
      obtain ⟨rfl, segment⟩ := childName?_root_eq_some_iff.1 child
      rw [ancestors_top segment.2] at member
      cases member
    · obtain ⟨rfl, segment⟩ := (childName?_eq_some_iff path_top).1 child
      have path_filled : path ≠ "" := by
        rintro rfl
        cases starts
      rw [ancestors_join path_filled segment.2, List.mem_append, List.mem_singleton] at member
      exact member.symm.imp_right isBelow_of_mem_ancestors

/-- The ancestors come from the top down: each one is an ancestor of those after it. -/
theorem pairwise_ancestors (path : String) :
    (ancestors path).Pairwise fun top above => top ∈ ancestors above := by
  have ordered : ∀ before text : List Char, (ancestorsFrom before text).Pairwise fun top above =>
      ∃ rest, above = top ++ '/' :: rest := by
    intro before text
    induction text generalizing before with
    | nil => exact .nil
    | cons c text ih =>
        unfold ancestorsFrom
        split
        · next slash =>
            refine .cons (fun above member => ?_) (ih _)
            obtain ⟨_, passed, _, rfl, _⟩ := mem_ancestorsFrom_iff.1 member
            exact ⟨passed, by simp [slash.1]⟩
        · exact ih _
  refine List.pairwise_map.2 ((ordered [] path.toList).imp_of_mem fun {top above} there _ lies => ?_)
  obtain ⟨rest, split⟩ := lies
  have filled := (mem_ancestorsFrom_iff.1 there).1
  exact mem_ancestors_iff.2 ⟨by simpa using filled, rest, by simpa using split⟩

/-- An ancestor lies higher. -/
theorem slashes_lt_of_mem_ancestors {path above : String} (member : above ∈ ancestors path) :
    slashes above < slashes path := by
  obtain ⟨_, rest, whole⟩ := mem_ancestors_iff.1 member
  rw [slashes, slashes, whole, List.count_append, List.count_cons_self]
  omega

end Ancestors

section Absolute

theorem Absolute.ne_empty {path : String} (absolute : Absolute path) : path ≠ "" := by
  cases absolute with
  | top segment => intro same; simpa using congrArg String.toList same
  | child above segment => intro same; simpa using congrArg String.toList same

theorem Absolute.ne_root {path : String} (absolute : Absolute path) : path ≠ rootPath := by
  intro same
  have chars := congrArg String.toList same
  cases absolute with
  | top segment => exact segment.1 (by simpa [rootPath] using chars)
  | @child above_path name above segment =>
      have length := congrArg List.length chars
      have filled : above_path.toList ≠ [] := by simpa using above.ne_empty
      have := List.length_pos_iff.2 filled
      simp [rootPath] at length
      omega

theorem Absolute.of_ancestor {path above : String} (absolute : Absolute path)
    (member : above ∈ ancestors path) :
    Absolute above := by
  induction absolute with
  | top segment =>
      rw [ancestors_top segment.2] at member
      cases member
  | child parent segment ih =>
      rw [ancestors_join parent.ne_empty segment.2] at member
      rcases List.mem_append.1 member with member | member
      · exact ih member
      · exact List.mem_singleton.1 member ▸ parent

theorem Absolute.starts {path : String} (absolute : Absolute path) : path.toList.head? = some '/' := by
  induction absolute with
  | top segment => simp
  | child above segment ih =>
      rw [toList_join, List.head?_append, ih]
      rfl

/-- Neither at the joint nor in the segment is a slash next to another one. -/
theorem not_occurs_join {path name : List Char} (none_before : ¬ ['/', '/'] <:+: path)
    (ends : path.getLast? ≠ some '/') (plain : '/' ∉ name) : ¬ ['/', '/'] <:+: path ++ '/' :: name := by
  rintro ⟨left, right, whole⟩
  rw [List.append_assoc] at whole
  rcases List.append_eq_append_iff.1 whole with ⟨gap, rfl, rest⟩ | ⟨gap, rfl, rest⟩
  · rcases gap with _ | ⟨c, _ | ⟨d, gap⟩⟩
    · simp only [List.cons_append, List.nil_append, List.cons.injEq, true_and] at rest
      exact plain (rest ▸ List.mem_cons_self)
    · simp only [List.cons_append, List.nil_append, List.cons.injEq] at rest
      exact ends (by simp [← rest.1])
    · simp only [List.cons_append, List.nil_append, List.cons.injEq] at rest
      exact none_before ⟨left, gap, by simp [← rest.1, ← rest.2.1]⟩
  · rcases gap with _ | ⟨c, gap⟩
    · simp only [List.cons_append, List.nil_append, List.cons.injEq, true_and] at rest
      exact plain (rest ▸ List.mem_cons_self)
    · simp only [List.cons_append, List.cons.injEq] at rest
      exact plain (rest.2 ▸ by simp)

theorem Absolute.ends {path : String} (absolute : Absolute path) : path.toList.getLast? ≠ some '/' := by
  have last : ∀ before name : String, Segment name →
    (before.toList ++ '/' :: name.toList).getLast? ≠ some '/' := by
    intro before name segment found
    have filled : name.toList ≠ [] := by simpa using segment.1
    rw [List.getLast?_append, List.getLast?_cons, List.getLast?_eq_some_getLast filled] at found
    simp only [Option.getD_some, Option.some_or, Option.some.injEq] at found
    exact segment.2 (found ▸ List.getLast_mem filled)
  cases absolute with
  | top segment => simpa using last "" _ segment
  | child above segment => rw [toList_join]; exact last _ _ segment

theorem Absolute.single {path : String} (absolute : Absolute path) : ¬ ['/', '/'] <:+: path.toList := by
  induction absolute with
  | @top name segment =>
      simpa using @not_occurs_join [] name.toList (by simp) (by simp) segment.2
  | child above segment ih =>
      rw [toList_join]
      exact not_occurs_join ih above.ends segment.2

theorem isValid_iff {path : String} : isValid path = true ↔
    path.toList.head? = some '/' ∧ (path ≠ rootPath → path.toList.getLast? ≠ some '/') ∧
      ¬ ['/', '/'] <:+: path.toList := by
  have top : path.toList.head? = some '/' → (path.toList.length ≤ 1 ↔ path = rootPath) := by
    intro starts
    obtain ⟨rest, whole⟩ := List.head?_eq_some_iff.1 starts
    rw [← String.toList_inj, whole]
    simp [rootPath]
  simp only [isValid, isValidChars, Bool.and_eq_true, Bool.or_eq_true, beq_iff_eq, decide_eq_true_eq,
    bne_iff_ne, Bool.not_eq_true', and_assoc, ← occurs_iff, Bool.not_eq_true]
  refine and_congr_right fun starts => and_congr_left' ?_
  rw [top starts, or_iff_not_imp_left]

theorem Absolute.isValid {path : String} (absolute : Absolute path) : isValid path = true :=
  isValid_iff.2 ⟨absolute.starts, fun _ => absolute.ends, absolute.single⟩

theorem absolute_of_isValid {path : String} (valid : Path.isValid path = true) (below_top : path ≠ rootPath) :
    Absolute path := by
  obtain ⟨starts, ends, single⟩ := isValid_iff.1 valid
  obtain ⟨before, name, whole, plain⟩ := exists_join_of_mem (List.mem_of_mem_head? starts)
  have shorter : before.toList.length < path.toList.length := by simp [whole]
  have ends := ends below_top
  rw [whole, toList_join] at starts ends single
  rw [whole]
  have segment : Segment name := ⟨fun empty => ends (by simp [empty]), plain⟩
  by_cases top : before = ""
  · subst top
    simpa using Absolute.top segment
  · have filled : before.toList ≠ [] := by simpa using top
    have closes : before.toList.getLast? ≠ some '/' := by
      intro last
      obtain ⟨rest, split⟩ := List.getLast?_eq_some_iff.1 last
      exact single ⟨rest, name.toList, by simp [split]⟩
    refine .child (absolute_of_isValid (isValid_iff.2 ⟨?_, fun _ => closes, ?_⟩) ?_) segment
    · rwa [List.head?_append, List.head?_eq_some_head filled, Option.some_or,
        ← List.head?_eq_some_head] at starts
    · exact fun inside => single (inside.trans (List.infix_append' [] _ _))
    · rintro rfl
      exact closes rfl
termination_by path.toList.length

theorem ne_empty_of_isValid {path : String} (valid : Path.isValid path = true) : path ≠ "" := by
  rintro rfl
  cases (isValid_iff.1 valid).1

theorem isValid_of_mem_ancestors {path above : String} (valid : Path.isValid path = true)
    (member : above ∈ ancestors path) : Path.isValid above = true := by
  by_cases top : path = rootPath
  · rw [top, show ancestors rootPath = [] from by decide] at member
    cases member
  · exact ((absolute_of_isValid valid top).of_ancestor member).isValid

section Parts

variable {path name : String}

theorem absolute_top_iff (plain : '/' ∉ name.toList) : Absolute ("/" ++ name) ↔ Segment name := by
  refine ⟨fun absolute => ⟨fun empty => ?_, plain⟩, .top⟩
  subst empty
  exact absolute.ne_root rfl

theorem absolute_join_iff (filled : path ≠ "") (plain : '/' ∉ name.toList) :
    Absolute (path ++ "/" ++ name) ↔ Absolute path ∧ Segment name := by
  constructor
  · intro absolute
    generalize whole : path ++ "/" ++ name = joined at absolute
    cases absolute with
    | @top last segment =>
        have parts : path ++ "/" ++ name = "" ++ "/" ++ last := by simpa using whole
        exact absurd ((join_inj plain segment.2).1 parts).1 filled
    | child above segment =>
        obtain ⟨rfl, rfl⟩ := (join_inj plain segment.2).1 whole
        exact ⟨above, segment⟩
  · rintro ⟨above, segment⟩
    exact .child above segment

/-- What stands behind an absolute path is judged by itself. -/
theorem absolute_append_iff (absolute : Absolute path) (rest : String) :
    Absolute (path ++ "/" ++ rest) ↔ Absolute ("/" ++ rest) := by
  by_cases slash : '/' ∈ rest.toList
  · obtain ⟨before, name, whole, plain⟩ := exists_join_of_mem slash
    have shorter : before.toList.length < rest.toList.length := by simp [whole]
    have behind : path ++ "/" ++ rest = path ++ "/" ++ before ++ "/" ++ name := by
      simp only [whole, String.append_assoc]
    have alone : "/" ++ rest = "/" ++ before ++ "/" ++ name := by
      simp only [whole, String.append_assoc]
    have filled : "/" ++ before ≠ "" := fun empty => by simpa using congrArg String.toList empty
    rw [behind, alone, absolute_join_iff (join_ne_empty _ _) plain, absolute_join_iff filled plain,
      absolute_append_iff absolute before]
  · rw [absolute_join_iff absolute.ne_empty slash, absolute_top_iff slash]
    exact and_iff_right absolute
termination_by rest.toList.length

theorem isValid_iff_absolute (below_top : path ≠ rootPath) : isValid path = true ↔ Absolute path :=
  ⟨fun valid => absolute_of_isValid valid below_top, Absolute.isValid⟩

end Parts

end Absolute

end ServiceGovernance.Store.Path
