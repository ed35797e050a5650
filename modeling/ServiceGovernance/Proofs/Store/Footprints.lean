import ServiceGovernance.Proofs.Store.Requests
import ServiceGovernance.Proofs.Text.ByteOrder

/-!
What is listed below a path, and which nodes an operation touches. The names of children come in the order
of their bytes. Deleting takes a node and what lies under it; creating makes a node and the ancestors that
are missing up to the nearest one; and what is refused leaves no trace.
-/

namespace ServiceGovernance.Store

open Text

namespace Path

/-- A path is strictly below another one. -/
def Under (above path : String) : Prop := ∃ rest, rest ≠ "" ∧ path = lead above ++ rest

theorem lead_root : lead rootPath = "/" := by decide

theorem lead_of_ne {path : String} (below_top : path ≠ rootPath) : lead path = path ++ "/" := by
  rw [lead, childLead_of_ne below_top, ← String.toList_inj]
  simp

theorem toList_lead (path : String) : (lead path).toList = childLead path.toList := String.toList_ofList

/-- The child of a path under a name is put together from both. -/
theorem childName?_iff_lead {path key name : String} :
    childName? path key = some name ↔ key = lead path ++ name ∧ Segment name := by
  rw [childName?_eq_some_iff_lead, ← String.toList_inj, String.toList_append, toList_lead]

theorem isBelow_iff_lead {path key : String} : isBelow path key = true ↔ ∃ rest, key = lead path ++ rest := by
  rw [isBelow_iff_leads, ← toList_lead]
  constructor
  · rintro ⟨rest, whole⟩
    exact ⟨String.ofList rest, String.toList_inj.1 (by simpa using whole.symm)⟩
  · rintro ⟨rest, rfl⟩
    exact ⟨rest.toList, by simp⟩

/-- No valid path ends where the names of its children would begin. -/
theorem eq_or_isBelow_iff {path other : String} (filled : path ≠ "") (valid : isValid other = true) :
    other = path ∨ isBelow path other = true ↔ other = path ∨ Under path other := by
  rw [isBelow_iff_lead]
  refine or_congr_right' fun apart => ⟨fun ⟨rest, whole⟩ => ⟨rest, ?_, whole⟩,
    fun ⟨rest, _, whole⟩ => ⟨rest, whole⟩⟩
  rintro rfl
  rw [String.append_empty] at whole
  by_cases top : path = rootPath
  · exact apart (whole.trans (by rw [top, lead_root]; rfl))
  · rw [lead_of_ne top] at whole
    have ends : other.toList.getLast? = some '/' := by simp [whole]
    have top_other : other ≠ rootPath := by
      intro same
      have chars := congrArg String.toList (whole.symm.trans same)
      exact filled (by simpa [rootPath] using chars)
    exact (isValid_iff.1 valid).2.1 top_other ends

/-- A sibling is not below, whatever its name begins with. -/
theorem not_under_sibling {parent name other : String} (segment : Segment name) (plain : Segment other) :
    ¬ Under (lead parent ++ name) (lead parent ++ other) := by
  rintro ⟨rest, _, whole⟩
  have below_top : lead parent ++ name ≠ rootPath := by
    intro same
    have filled : 0 < name.toList.length := List.length_pos_iff.2 (by simpa using segment.1)
    have lengths := congrArg (·.toList.length) same
    simp only [String.toList_append, List.length_append, toList_lead] at lengths
    have long : 1 ≤ (childLead parent.toList).length := by
      unfold childLead
      split <;> simp_all
    have short : rootPath.toList.length = 1 := rfl
    omega
  rw [lead_of_ne below_top] at whole
  have chars : other.toList = name.toList ++ '/' :: rest.toList := by
    simpa using congrArg String.toList whole
  exact plain.2 (by simp [chars])

end Path

variable {s : Store} {path name other above : String} {request : Request} {fault : Error}

section Children

theorem mem_children_iff_isNode :
    name ∈ s.children path ↔ Path.Segment name ∧ s.isNode (Path.lead path ++ name) = true := by
  rw [mem_children_iff]
  constructor
  · rintro ⟨key, there, child⟩
    obtain ⟨rfl, segment⟩ := Path.childName?_iff_lead.1 child
    exact ⟨segment, there⟩
  · rintro ⟨segment, there⟩
    exact ⟨_, there, Path.childName?_iff_lead.2 ⟨rfl, segment⟩⟩

theorem lt_of_append_lt {lead first second : List Char} (less : lead ++ first < lead ++ second) :
    first < second := by
  induction lead with
  | nil => exact less
  | cons c lead ih =>
      rw [List.cons_append, List.cons_append, List.cons_lt_cons_iff] at less
      exact ih (less.resolve_left (lt_irrefl c)).2

/-- What is before is the same in all of them, so the names are in the order of the paths. -/
theorem children_increasing (s : Store) (path : String) :
    (s.children path).Pairwise fun a b => Utf8.encode a.toList < Utf8.encode b.toList := by
  rw [children_eq_filterMap]
  refine s.nodes.keys_increasing.filterMap _ fun first second before a child b child' => ?_
  obtain ⟨rfl, _⟩ := Path.childName?_iff_lead.1 child
  obtain ⟨rfl, _⟩ := Path.childName?_iff_lead.1 child'
  rw [Std.LawfulLTCmp.eq_lt_iff_lt, String.lt_iff_toList_lt, String.toList_append, String.toList_append] at before
  exact Utf8.encode_lt (lt_of_append_lt before)

theorem getChildren_eq_ok_iff {names : List String} :
    s.getChildren path = .ok names ↔ s.online = true ∧ s.isPresent path = true ∧ names = s.children path := by
  unfold getChildren
  cases s.online <;> cases s.isPresent path <;> simp [eq_comm]

end Children

section Changes

theorem delete_ok_iff :
    (s.delete path).1 = .ok () ↔ Path.isValid path = true ∧ s.online = true ∧ s.isNode path = true := by
  unfold delete
  cases Path.isValid path <;> cases s.online <;> cases s.isNode path <;> simp

theorem create_ok_iff {ephemeral : Bool} :
    (s.create path ephemeral).1 = .ok () ↔
      Path.isValid path = true ∧ s.online = true ∧ s.isNode path = false := by
  unfold create
  cases Path.isValid path <;> cases s.online <;> cases s.isNode path <;> simp

theorem nodes_delete (pathed : Pathed s) (done : (s.delete path).1 = .ok ()) (node : Node) :
    (s.delete path).2.nodes.get? other = some node ↔
      s.nodes.get? other = some node ∧ other ≠ path ∧ ¬ Path.Under path other := by
  obtain ⟨valid, online, there⟩ := delete_ok_iff.1 done
  have gone : (s.delete path).2 = s.pruned path := by simp [delete, pruned, valid, online, there]
  rw [gone, get?_pruned]
  by_cases found : s.nodes.get? other = some node
  · have valid_other := pathed.nodes other (isNode_iff.2 ⟨node, found⟩)
    rw [← not_or, ← Path.eq_or_isBelow_iff (Path.ne_empty_of_isValid valid) valid_other]
    split <;> simp_all
  · split <;> simp_all

/-- An ancestor is lacking if there is no node at it nor between it and the path. -/
def Lacks (s : Store) (path above : String) : Prop :=
  above ∈ Path.ancestors path ∧ ∀ between ∈ Path.ancestors path,
    between = above ∨ above ∈ Path.ancestors between → s.isNode between = false

instance (s : Store) (path above : String) : Decidable (s.Lacks path above) :=
  inferInstanceAs (Decidable (_ ∧ ∀ between ∈ _, _ → _))

theorem mem_missingAncestors_iff : above ∈ s.missingAncestors path ↔ s.Lacks path above := by
  have ordered : (Path.ancestors path).reverse.Pairwise fun below above => above ∈ Path.ancestors below :=
    List.pairwise_reverse.2 (Path.pairwise_ancestors path)
  have asymm : ∀ below above, above ∈ Path.ancestors below → ¬ below ∈ Path.ancestors above := by
    intro below above first second
    have higher := Path.slashes_lt_of_mem_ancestors first
    have lower := Path.slashes_lt_of_mem_ancestors second
    omega
  rw [missingAncestors, List.mem_reverse, mem_takeWhile_iff asymm ordered, Lacks]
  simp only [List.mem_reverse, Bool.not_eq_true']

/-- The missing ancestors are what climbing from parent to parent passes until it meets a node or the root. -/
theorem missingAncestors_eq_climb (valid : Path.isValid path = true) :
    s.missingAncestors path =
      match Path.parent? path with
      | none => []
      | some parent =>
          if parent = Path.rootPath ∨ s.isNode parent = true then []
          else s.missingAncestors parent ++ [parent] := by
  by_cases top : path = Path.rootPath
  · subst top
    rfl
  cases Path.absolute_of_isValid valid top with
  | top segment =>
      rw [Path.parent?_top segment, missingAncestors, Path.ancestors_top segment.2]
      rfl
  | @child parent name absolute segment =>
      rw [Path.parent?_join absolute.ne_empty segment.2, missingAncestors,
        Path.ancestors_join absolute.ne_empty segment.2, List.reverse_append, List.reverse_singleton,
        List.singleton_append, List.takeWhile_cons]
      cases there : s.isNode parent with
      | true => simp [there]
      | false => simp [there, absolute.ne_root, missingAncestors]

theorem nodes_create {ephemeral : Bool} (done : (s.create path ephemeral).1 = .ok ()) (other : String) :
    (other = path → (s.create path ephemeral).2.nodes.get? other = some { ephemeral }) ∧
    (s.Lacks path other → (s.create path ephemeral).2.nodes.get? other = some {}) ∧
    (other ≠ path → ¬ s.Lacks path other →
      (s.create path ephemeral).2.nodes.get? other = s.nodes.get? other) := by
  obtain ⟨valid, online, absent⟩ := create_ok_iff.1 done
  have made : (s.create path ephemeral).2 = s.planted path ephemeral := by
    simp [create, planted, valid, online, absent]
  rw [made, get?_planted]
  refine ⟨fun same => if_pos same, fun lacks => ?_, fun apart stays => ?_⟩
  · have apart : other ≠ path := by
      rintro rfl
      exact absurd (Path.slashes_lt_of_mem_ancestors lacks.1) (Nat.lt_irrefl _)
    rw [if_neg apart, if_pos (mem_missingAncestors_iff.2 lacks)]
  · rw [if_neg apart, if_neg (mt mem_missingAncestors_iff.1 stays)]

end Changes

section Refusals

/-- What a request is answered, as far as it can be refused. -/
def outcome (s : Store) : Request → Except Error Unit
  | .create path ephemeral => (s.create path ephemeral).1
  | .delete path => (s.delete path).1
  | .setData path data => (s.setData path data).1
  | .watchChildren path mailbox => (s.watchChildren path mailbox).1.map fun _ => ()
  | _ => .ok ()

/-- No node, no watch and no notice tells of what has been refused. -/
theorem perform_of_refused (refused : s.outcome request = .error fault) : s.perform request = s := by
  cases request with
  | create path ephemeral =>
      rcases s.create_cases path ephemeral with ⟨_, same⟩ | ⟨_, same⟩ | ⟨_, _, same⟩ | ⟨_, _, made⟩
      · exact congrArg Prod.snd same
      · exact congrArg Prod.snd same
      · exact congrArg Prod.snd same
      · cases refused.symm.trans (congrArg Prod.fst made)
  | delete path =>
      rcases s.delete_cases path with ⟨_, same⟩ | ⟨_, same⟩ | ⟨_, _, same⟩ | ⟨_, _, gone⟩
      · exact congrArg Prod.snd same
      · exact congrArg Prod.snd same
      · exact congrArg Prod.snd same
      · cases refused.symm.trans (congrArg Prod.fst gone)
  | setData path data =>
      simp only [outcome, perform, setData] at refused ⊢
      split
      · rfl
      · next online =>
          rw [if_neg online] at refused
          split
          · next node found =>
              rw [found] at refused
              cases refused
          · rfl
  | watchChildren path mailbox =>
      simp only [outcome, perform, watchChildren] at refused ⊢
      split
      · rfl
      · next online =>
          rw [if_neg online] at refused
          split
          · rfl
          · next present =>
              rw [if_neg present] at refused
              cases refused
  | unwatch | watchState | setOnline | expire | openMailbox | closeMailbox | takeNotice => cases refused

end Refusals

section Reachable

/-- Whatever the store has been asked to do: the children of a path are the names with a node, in the order
of their bytes and each of them once, and this is what a reader gets. A node is deleted if it is there, and
then what goes is this node and those under it, but no sibling. A node is created if there is none, and then
what comes is this node and, as lasting ones, the ancestors that it lacks. What is refused changes nothing
and tells nobody anything. -/
theorem footprints (requests : List Request) :
    (∀ path,
      (∀ name, name ∈ (after requests).children path ↔
        Path.Segment name ∧ (after requests).isNode (Path.lead path ++ name) = true) ∧
      ((after requests).children path).Pairwise (fun a b => Utf8.encode a.toList < Utf8.encode b.toList) ∧
      ∀ names, (after requests).getChildren path = .ok names ↔
        (after requests).online = true ∧ (after requests).isPresent path = true ∧
          names = (after requests).children path) ∧
    (∀ path,
      (((after requests).delete path).1 = .ok () ↔
        Path.isValid path = true ∧ (after requests).online = true ∧ (after requests).isNode path = true) ∧
      (((after requests).delete path).1 = .ok () →
        (∀ other node, ((after requests).delete path).2.nodes.get? other = some node ↔
          (after requests).nodes.get? other = some node ∧ other ≠ path ∧ ¬ Path.Under path other) ∧
        ∀ parent name sibling, path = Path.lead parent ++ name → Path.Segment name → Path.Segment sibling →
          sibling ≠ name → ((after requests).delete path).2.nodes.get? (Path.lead parent ++ sibling) =
            (after requests).nodes.get? (Path.lead parent ++ sibling))) ∧
    (∀ path ephemeral,
      (((after requests).create path ephemeral).1 = .ok () ↔
        Path.isValid path = true ∧ (after requests).online = true ∧ (after requests).isNode path = false) ∧
      (((after requests).create path ephemeral).1 = .ok () → ∀ other,
        (other = path → ((after requests).create path ephemeral).2.nodes.get? other = some { ephemeral }) ∧
        ((after requests).Lacks path other →
          ((after requests).create path ephemeral).2.nodes.get? other = some {}) ∧
        (other ≠ path → ¬ (after requests).Lacks path other →
          ((after requests).create path ephemeral).2.nodes.get? other = (after requests).nodes.get? other))) ∧
    ∀ request fault, (after requests).outcome request = .error fault →
      (after requests).perform request = after requests := by
  have pathed := pathed_after requests
  refine ⟨fun path => ⟨fun name => mem_children_iff_isNode, children_increasing _ path, fun names =>
    getChildren_eq_ok_iff⟩, fun path => ⟨delete_ok_iff, fun done => ⟨fun other => nodes_delete pathed done, ?_⟩⟩,
    fun path ephemeral => ⟨create_ok_iff, nodes_create⟩, fun request fault => perform_of_refused⟩
  rintro parent name sibling rfl segment plain apart
  apply Option.ext
  intro node
  rw [nodes_delete pathed done, and_iff_left]
  refine ⟨fun same => apart (String.toList_inj.1 ?_), Path.not_under_sibling segment plain⟩
  simpa using congrArg String.toList same

/-- A node with one below it, two siblings whose names begin with its name, and an ephemeral one deep below. -/
def planting : List Request :=
  [.create "/a/b" false, .create "/ab" false, .create "/a-" false, .create "/c/d/e" true]

theorem planting_footprints :
    (after planting).children "/" = ["a", "a-", "ab", "c"] ∧
    ((after planting).delete "/a").2.nodes.get? "/a/b" = none ∧
    ((after planting).delete "/a").2.nodes.get? "/ab" = some {} ∧
    ((after planting).create "/c/x/y" true).2.nodes.get? "/c/x/y" = some { ephemeral := true } ∧
    ((after planting).create "/c/x/y" true).2.nodes.get? "/c/x" = some {} ∧
    ((after planting).create "/c/x/y" true).2.nodes.get? "/c/d/e" = some { ephemeral := true } ∧
    (after planting).perform (.create "/a" true) = after planting := by
  obtain ⟨_, deleting, creating, refusing⟩ := footprints planting
  have deleted : ((after planting).delete "/a").1 = .ok () := (deleting "/a").1.2 (by decide +kernel)
  have created : ((after planting).create "/c/x/y" true).1 = .ok () :=
    (creating "/c/x/y" true).1.2 (by decide +kernel)
  obtain ⟨removed, beside⟩ := (deleting "/a").2 deleted
  have made := (creating "/c/x/y" true).2 created
  have lacks : (after planting).Lacks "/c/x/y" "/c/x" := by decide +kernel
  refine ⟨by decide +kernel, ?_, ?_, (made "/c/x/y").1 rfl, (made "/c/x").2.1 lacks, ?_, ?_⟩
  · refine Option.eq_none_iff_forall_ne_some.2 fun node found => ?_
    exact ((removed "/a/b" node).1 found).2.2 ⟨"b", by decide, by decide⟩
  · exact (beside "/" "a" "ab" (by decide) (by decide) (by decide) (by decide)).trans (by decide +kernel)
  · exact ((made "/c/d/e").2.2 (by decide) (by decide +kernel)).trans (by decide +kernel)
  · exact refusing (.create "/a" true) (.nodeExists "/a") (by decide +kernel)

end Reachable

end ServiceGovernance.Store
