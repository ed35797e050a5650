import ServiceGovernance.Proofs.Store.Requests

/-!
What a watch hears when the children of its path become others. Creating nodes and losing a session tell
every watch; deleting tells the watches right above what is deleted. A watch on the deleted path, or on a
path below it, loses its children without a word.
-/

namespace ServiceGovernance.Store

/-- The last notice of the watch brings these names. -/
def Tells (watch : Nat) (w : Watch) (names : List String) (news : List Notice) : Prop :=
  ∃ earlier later, news = earlier ++ .children watch w.mailbox w.path names :: later ∧
    ∀ notice ∈ later, notice.namesFor? watch = none

/-- The request deletes the path or one above it. -/
def Request.Uproots (path : String) : Request → Prop
  | .delete other => other = path ∨ Path.isBelow other path = true
  | _ => False

variable {Known : String → Prop} {s t : Store} {request : Request} {path : String} {watch : Nat} {w : Watch}
  {names : List String} {news : List Notice}

section Told

/-- A live notice of a watch is addressed to it. -/
theorem tells_of_lastNames (found : s.watches.get? watch = some w) (live : ∀ notice ∈ news, Live Known s notice)
    (last : lastNames watch news = some names) : Tells watch w names news := by
  induction news with
  | nil => cases last
  | cons notice news ih =>
      rw [lastNames, Option.or_eq_some_iff] at last
      rcases last with last | ⟨silent, first⟩
      · obtain ⟨earlier, later, whole, quiet⟩ := ih (fun other member => live other (.tail _ member)) last
        exact ⟨notice :: earlier, later, by rw [whole]; rfl, quiet⟩
      · refine ⟨[], news, ?_, lastNames_eq_none_iff.1 silent⟩
        cases notice with
        | session => cases first
        | children number mailbox path others =>
            have own := (live _ (.head _)).1
            simp only [Notice.namesFor?] at first
            split at first
            · next same =>
                subst same
                rw [found] at own
                cases own
                cases first
                rfl
            · cases first

theorem not_tells_of_silent (silent : ∀ notice ∈ news, notice.namesFor? watch = none) :
    ¬ Tells watch w names news := by
  rintro ⟨earlier, later, rfl, _⟩
  have := silent (.children watch w.mailbox w.path names) (by simp)
  simp [Notice.namesFor?] at this

theorem Told.tells (told : Told Known s t) (found : s.watches.get? watch = some w) (filled : w.path ≠ "")
    (changed : t.children w.path ≠ s.children w.path) :
    ∃ news, t.outbox = s.outbox ++ news ∧ Tells watch w (t.children w.path) news := by
  obtain ⟨news, outbox, live, last⟩ := told.outbox
  refine ⟨news, outbox, tells_of_lastNames found live ?_⟩
  exact (last watch w found filled).resolve_right fun same => changed same.2

end Told

section Deleted

theorem children_pruned_of_uproots (uproots : (Request.delete path).Uproots w.path) :
    (s.pruned path).children w.path = [] := by
  refine List.eq_nil_iff_forall_not_mem.2 fun name listed => ?_
  obtain ⟨key, there, child⟩ := mem_children_iff.1 listed
  have spared := (isNode_pruned.1 there).1.2
  have below : Path.isBelow w.path key = true := Path.isBelow_of_childName? child
  rcases uproots with same | higher
  · rw [same, below] at spared
    cases spared
  · rw [Path.isBelow_trans higher below] at spared
    cases spared

theorem parent?_ne_of_uproots (uproots : (Request.delete path).Uproots w.path) :
    Path.parent? path ≠ some w.path := by
  intro parent
  have shorter := Path.length_lt_of_parent? parent
  rcases uproots with same | higher
  · rw [same] at shorter
    exact Nat.lt_irrefl _ shorter
  · have := Path.length_le_of_isBelow higher
    omega

/-- A watch that is not uprooted hears of every child that goes. -/
theorem tells_pruned (there : Path.isValid path = true) (valid : Path.isValid w.path = true)
    (found : s.watches.get? watch = some w) (stays : ¬ (Request.delete path).Uproots w.path)
    (changed : (s.pruned path).children w.path ≠ s.children w.path) :
    Tells watch w ((s.pruned path).children w.path) ((s.removeSubtree path).parentNotices path) := by
  have parent : Path.parent? path = some w.path := by
    refine not_not.1 fun unrelated => changed (children_congr fun key name child => ?_)
    refine Bool.eq_iff_iff.2 (isNode_pruned.trans (and_iff_right ⟨?_, ?_⟩))
    · rintro rfl
      exact unrelated (Path.parent?_of_childName? (Path.ne_empty_of_isValid valid) child)
    · refine Bool.eq_false_iff.2 fun below => stays ?_
      exact Path.eq_or_isBelow_of_child (Path.ne_empty_of_isValid there) (Path.isValid_iff.1 valid).1 child below
  have told : lastNames watch ([path].flatMap (s.removeSubtree path).parentNotices) =
      some ((s.removeSubtree path).children w.path) :=
    lastNames_parentNotices_of_parent found ⟨path, List.mem_singleton_self _, parent⟩
  rw [List.flatMap_singleton] at told
  have same : (s.pruned path).children w.path = (s.removeSubtree path).children w.path := by
    rw [pruned_eq]
    rfl
  have live : ∀ notice ∈ (s.removeSubtree path).parentNotices path,
      Live (fun _ => True) (s.removeSubtree path) notice :=
    fun notice => live_of_mem_parentNotices fun _ _ => trivial
  exact same ▸ tells_of_lastNames found live told

theorem silent_pruned (found : s.watches.get? watch = some w)
    (uproots : (Request.delete path).Uproots w.path) :
    ∀ notice ∈ (s.removeSubtree path).parentNotices path, notice.namesFor? watch = none := by
  have silent : lastNames watch ([path].flatMap (s.removeSubtree path).parentNotices) = none :=
    lastNames_parentNotices_eq_none found fun other member =>
      List.mem_singleton.1 member ▸ parent?_ne_of_uproots uproots
  rwa [List.flatMap_singleton, lastNames_eq_none_iff] at silent

end Deleted

/-- A watch hears of every change of its children, unless its path is deleted or one above it: then the
children are gone and the watch hears nothing. -/
theorem told_iff_not_uprooted (requests : List Request) (request : Request) {watch : Nat} {w : Watch}
    (live : (after requests).watches.get? watch = some w)
    (changed : ((after requests).perform request).children w.path ≠ (after requests).children w.path) :
    ∃ news, ((after requests).perform request).outbox = (after requests).outbox ++ news ∧
      (Tells watch w (((after requests).perform request).children w.path) news ↔ ¬ request.Uproots w.path) ∧
      (request.Uproots w.path → ((after requests).perform request).children w.path = [] ∧
        ∀ notice ∈ news, notice.namesFor? watch = none) := by
  have pathed := pathed_after requests
  have filled : w.path ≠ "" := Path.ne_empty_of_isValid (pathed.watches watch w live)
  generalize after requests = s at *
  rcases s.perform_cases request with idle | ⟨path, ephemeral, rfl, _, made⟩ | ⟨path, rfl, there, gone⟩ | rfl
  · exact absurd (children_congr fun key _ _ => idle.nodes key) changed
  · rw [made] at changed ⊢
    obtain ⟨news, outbox, tells⟩ := (s.told_of_planted path ephemeral).tells live filled changed
    exact ⟨news, outbox, iff_of_true tells id, False.elim⟩
  · rw [gone] at changed ⊢
    refine ⟨_, by rw [pruned_eq], ?_, fun uproots =>
      ⟨children_pruned_of_uproots uproots, silent_pruned live uproots⟩⟩
    constructor
    · intro tells uproots
      exact not_tells_of_silent (silent_pruned live uproots) tells
    · intro stays
      exact tells_pruned (pathed.nodes path there) (pathed.watches watch w live) live stays changed
  · have told : Told (fun _ => True) s s.expire := told_expire fun _ _ => trivial
    obtain ⟨news, outbox, tells⟩ := told.tells live filled changed
    exact ⟨news, outbox, iff_of_true tells id, False.elim⟩

/-- A node comes below a watched path. -/
theorem child_told :
    let requests := [.create "/svc" false, .openMailbox, .watchChildren "/svc" 0]
    ∃ news, ((after requests).perform (.create "/svc/a" true)).outbox = news ∧
      Tells 0 ⟨"/svc", 0⟩ ["a"] news := by
  intro requests
  have children : ((after requests).perform (.create "/svc/a" true)).children "/svc" = ["a"] := by decide +kernel
  have none_before : (after requests).children "/svc" = [] := by decide +kernel
  have live : (after requests).watches.get? 0 = some ⟨"/svc", 0⟩ := by decide +kernel
  obtain ⟨news, outbox, tells, _⟩ := told_iff_not_uprooted requests (.create "/svc/a" true) live
    (by rw [children, none_before]; decide)
  refine ⟨news, ?_, children ▸ tells.2 id⟩
  have quiet : (after requests).outbox = [] := by rfl
  rw [outbox, quiet, List.nil_append]

/-- A watched path goes with its child. -/
theorem uprooted_untold :
    let before := after [.create "/svc/a" false, .openMailbox, .watchChildren "/svc" 0]
    before.watches.get? 0 = some ⟨"/svc", 0⟩ ∧ before.children "/svc" = ["a"] ∧
      (before.delete "/svc").1 = .ok () ∧ (before.perform (.delete "/svc")).children "/svc" = [] ∧
      before.outbox = [] ∧ (before.perform (.delete "/svc")).outbox = [] := by
  decide +kernel

end ServiceGovernance.Store
