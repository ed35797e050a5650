import Mathlib.Data.List.Induction
import ServiceGovernance.Proofs.Store.Changes

/-!
What the store can be asked to do, and the states that it comes to. Nodes and watches have valid paths.
A node that lacks an ancestor has lost it with a session: creating makes what is missing above, deleting
takes what is below, but an ephemeral node goes without the lasting ones below it. So the nodes are a
tree all along exactly if no session is lost while a lasting node is below an ephemeral one.
-/

namespace ServiceGovernance.Store

inductive Request where
  | create (path : String) (ephemeral : Bool)
  | delete (path : String)
  | setData (path : String) (data : List UInt8)
  | watchChildren (path : String) (mailbox : Mailbox)
  | unwatch (watch : Nat)
  | watchState (mailbox : Mailbox)
  | setOnline (online : Bool)
  | expire
  | openMailbox
  | closeMailbox (mailbox : Mailbox)
  | takeNotice (wanted : Notice → Bool)

/-- The store after a request, granted or not. -/
def perform (s : Store) : Request → Store
  | .create path ephemeral => (s.create path ephemeral).2
  | .delete path => (s.delete path).2
  | .setData path data => (s.setData path data).2
  | .watchChildren path mailbox => (s.watchChildren path mailbox).2
  | .unwatch watch => s.unwatch watch
  | .watchState mailbox => s.watchState mailbox
  | .setOnline online => s.setOnline online
  | .expire => s.expire
  | .openMailbox => s.openMailbox.2
  | .closeMailbox mailbox => s.closeMailbox mailbox
  | .takeNotice wanted => ((s.takeNotice wanted).map (·.2)).getD s

/-- The store that was empty before these requests. -/
def after (requests : List Request) : Store := requests.foldl perform {}

/-- Every node has a valid path, and its ancestors are nodes too. -/
def IsTree (s : Store) : Prop :=
  ∀ path, s.isNode path = true →
    Path.isValid path = true ∧ ∀ above ∈ Path.ancestors path, s.isNode above = true

/-- A node below a path that is no node. -/
def Gap (s : Store) (above : String) : Prop :=
  s.isNode above = false ∧ ∃ path, s.isNode path = true ∧ above ∈ Path.ancestors path

/-- An ephemeral node with a lasting one below it. -/
def Undermined (s : Store) (above : String) : Prop :=
  (∃ node, s.nodes.get? above = some node ∧ node.ephemeral = true) ∧
    ∃ path node, s.nodes.get? path = some node ∧ node.ephemeral = false ∧ above ∈ Path.ancestors path

variable {s : Store} {request : Request} {requests : List Request} {path above : String}

theorem after_append_singleton (requests : List Request) (request : Request) :
    after (requests ++ [request]) = (after requests).perform request := by
  rw [after, List.foldl_append]
  rfl

section Effects

/-- No node comes or goes, and no watch comes but to a path that is there. -/
structure Idle (s t : Store) : Prop where
  nodes : ∀ path, t.isNode path = s.isNode path
  watches : ∀ watch w, t.watches.get? watch = some w → s.watches.get? watch = some w ∨ s.isPresent w.path = true

theorem Idle.refl : Idle s s := ⟨fun _ => rfl, fun _ _ live => .inl live⟩

theorem idle_setData (s : Store) (path : String) (data : List UInt8) : Idle s (s.setData path data).2 := by
  unfold setData
  split
  · exact .refl
  · split
    · next node there =>
        refine ⟨fun other => ?_, fun _ _ live => .inl live⟩
        simp only [isNode, SortedMap.contains, SortedMap.get?_insert]
        split
        · next same => rw [same, there]; rfl
        · rfl
    · exact .refl

theorem idle_watchChildren (s : Store) (path : String) (mailbox : Mailbox) :
    Idle s (s.watchChildren path mailbox).2 := by
  unfold watchChildren
  split
  · exact .refl
  · split
    · exact .refl
    · next absent =>
        have present : s.isPresent path = true := by simpa using absent
        refine ⟨fun _ => rfl, fun watch w live => ?_⟩
        rw [SortedMap.get?_insert] at live
        split at live
        · cases live
          exact .inr present
        · exact .inl live

theorem idle_unwatch (s : Store) (watch : Nat) : Idle s (s.unwatch watch) := by
  refine ⟨fun _ => rfl, fun other w live => ?_⟩
  rw [unwatch, SortedMap.get?_erase] at live
  split at live
  · cases live
  · exact .inl live

theorem idle_setOnline (s : Store) (online : Bool) : Idle s (s.setOnline online) := by
  rcases setOnline_cases s online with ⟨_, same⟩ | ⟨_, changed⟩
  · rw [same]
    exact .refl
  · rw [changed]
    exact ⟨fun _ => rfl, fun _ _ live => .inl live⟩

theorem idle_closeMailbox (s : Store) (mailbox : Mailbox) : Idle s (s.closeMailbox mailbox) := by
  refine ⟨fun _ => rfl, fun watch w live => ?_⟩
  rw [closeMailbox, SortedMap.get?_filter, Option.filter_eq_some_iff] at live
  exact .inl live.1

theorem idle_takeNotice (s : Store) (wanted : Notice → Bool) :
    Idle s (((s.takeNotice wanted).map (·.2)).getD s) := by
  unfold takeNotice
  split
  · exact ⟨fun _ => rfl, fun _ _ live => .inl live⟩
  · exact .refl

/-- Nodes come and go with three requests only. -/
theorem perform_cases (s : Store) (request : Request) :
    Idle s (s.perform request) ∨
    (∃ path ephemeral, request = .create path ephemeral ∧ Path.isValid path = true ∧
      s.perform request = s.planted path ephemeral) ∨
    (∃ path, request = .delete path ∧ s.isNode path = true ∧ s.perform request = s.pruned path) ∨
    request = .expire := by
  cases request with
  | create path ephemeral =>
      rcases s.store_create path ephemeral with same | ⟨valid, made⟩
      · exact .inl (by rw [perform, same]; exact .refl)
      · exact .inr (.inl ⟨path, ephemeral, rfl, valid, made⟩)
  | delete path =>
      rcases s.store_delete path with same | ⟨there, gone⟩
      · exact .inl (by rw [perform, same]; exact .refl)
      · exact .inr (.inr (.inl ⟨path, rfl, there, gone⟩))
  | setData path data => exact .inl (s.idle_setData path data)
  | watchChildren path mailbox => exact .inl (s.idle_watchChildren path mailbox)
  | unwatch watch => exact .inl (s.idle_unwatch watch)
  | setOnline online => exact .inl (s.idle_setOnline online)
  | closeMailbox mailbox => exact .inl (s.idle_closeMailbox mailbox)
  | takeNotice wanted => exact .inl (s.idle_takeNotice wanted)
  | watchState | openMailbox => exact .inl ⟨fun _ => rfl, fun _ _ live => .inl live⟩
  | expire => exact .inr (.inr (.inr rfl))

theorem watches_planted (s : Store) (path : String) (ephemeral : Bool) :
    (s.planted path ephemeral).watches = s.watches :=
  (s.told_of_planted path ephemeral).watches

theorem watches_pruned (s : Store) (path : String) : (s.pruned path).watches = s.watches := by
  rw [pruned_eq]
  rfl

theorem watches_expire (s : Store) : s.expire.watches = s.watches := by
  have told : Told (fun _ => True) s s.expire := told_expire fun _ _ => trivial
  exact told.watches

end Effects

section Valid

/-- Nodes have valid paths, and so have watches. -/
structure Pathed (s : Store) : Prop where
  nodes : ∀ path, s.isNode path = true → Path.isValid path = true
  watches : ∀ watch w, s.watches.get? watch = some w → Path.isValid w.path = true

theorem Pathed.present (pathed : Pathed s) (present : s.isPresent path = true) : Path.isValid path = true := by
  rcases Bool.or_eq_true_iff.1 present with top | there
  · rw [beq_iff_eq.1 top]
    decide
  · exact pathed.nodes path there

theorem Pathed.perform (pathed : Pathed s) (request : Request) : Pathed (s.perform request) where
  nodes path there := by
    rcases s.perform_cases request with idle | ⟨new, ephemeral, _, valid, made⟩ | ⟨old, _, _, gone⟩ | rfl
    · exact pathed.nodes path (idle.nodes path ▸ there)
    · rw [made] at there
      rcases (s.isNode_planted ..).1 there with rfl | missing | there
      · exact valid
      · exact Path.isValid_of_mem_ancestors valid (mem_ancestors_of_missing missing)
      · exact pathed.nodes path there
    · rw [gone] at there
      exact pathed.nodes path (isNode_pruned.1 there).2
    · exact pathed.nodes path (isNode_of_expire there)
  watches watch w live := by
    rcases s.perform_cases request with idle | ⟨_, _, _, _, made⟩ | ⟨_, _, _, gone⟩ | rfl
    · exact (idle.watches watch w live).elim (pathed.watches watch w) pathed.present
    · rw [made, watches_planted] at live
      exact pathed.watches watch w live
    · rw [gone, watches_pruned] at live
      exact pathed.watches watch w live
    · exact pathed.watches watch w (s.watches_expire ▸ live)

theorem pathed_after (requests : List Request) : Pathed (after requests) := by
  induction requests using List.reverseRecOn with
  | nil => exact ⟨fun _ there => (nomatch there), fun _ _ live => (nomatch live)⟩
  | append_singleton requests request ih =>
      rw [after_append_singleton]
      exact ih.perform request

end Valid

section Gaps

/-- A gap has been there before, or the session is lost while a lasting node is below an ephemeral one. -/
theorem gap_of_perform (gap : (s.perform request).Gap above) :
    s.Gap above ∨ request = .expire ∧ s.Undermined above := by
  obtain ⟨absent, path, there, member⟩ := gap
  rcases s.perform_cases request with idle | ⟨new, ephemeral, _, _, made⟩ | ⟨old, _, _, gone⟩ | rfl
  · exact .inl ⟨idle.nodes above ▸ absent, path, idle.nodes path ▸ there, member⟩
  · rw [made] at absent there
    have left : above ∉ s.missingAncestors new ∧ s.isNode above = false := by
      have := mt (s.isNode_planted new above ephemeral).2 (by simp [absent])
      simpa [not_or] using (not_or.1 this).2
    refine .inl ⟨left.2, ?_⟩
    have of_new : path = new ∨ path ∈ s.missingAncestors new →
        ∃ other, s.isNode other = true ∧ above ∈ Path.ancestors other := by
      intro fresh
      rcases missing_or_above fresh member with missing | standing | ⟨nearest, _, standing, lies⟩
      · exact absurd missing left.1
      · rw [left.2] at standing
        cases standing
      · exact ⟨nearest, standing, lies⟩
    rcases (s.isNode_planted ..).1 there with fresh | fresh | old
    · exact of_new (.inl fresh)
    · exact of_new (.inr fresh)
    · exact ⟨path, old, member⟩
  · rw [gone] at absent there
    obtain ⟨⟨apart, beside⟩, standing⟩ := isNode_pruned.1 there
    refine .inl ⟨Bool.eq_false_iff.2 fun above_there => ?_, path, standing, member⟩
    -- What is below a node that goes is below the one that is deleted, and goes as well.
    have spared : above ≠ old ∧ Path.isBelow old above = false := by
      constructor
      · rintro rfl
        rw [Path.isBelow_of_mem_ancestors member] at beside
        cases beside
      · refine Bool.eq_false_iff.2 fun below => ?_
        rw [Path.isBelow_trans below (Path.isBelow_of_mem_ancestors member)] at beside
        cases beside
    rw [isNode_pruned.2 ⟨spared, above_there⟩] at absent
    cases absent
  · obtain ⟨node, found, lasting⟩ := isNode_expire.1 there
    cases standing : s.isNode above with
    | false => exact .inl ⟨standing, path, isNode_of_expire there, member⟩
    | true =>
        obtain ⟨lost, held⟩ := isNode_iff.1 standing
        refine .inr ⟨rfl, ⟨lost, held, ?_⟩, path, node, found, lasting, member⟩
        cases brief : lost.ephemeral with
        | true => rfl
        | false =>
            rw [perform, isNode_expire.2 ⟨lost, held, brief⟩] at absent
            cases absent

theorem undermined_of_gap (gap : (after requests).Gap above) :
    ∃ done rest, requests = done ++ .expire :: rest ∧ (after done).Undermined above := by
  induction requests using List.reverseRecOn with
  | nil =>
      obtain ⟨_, path, there, _⟩ := gap
      cases there
  | append_singleton requests request ih =>
      rw [after_append_singleton] at gap
      rcases gap_of_perform gap with old | ⟨rfl, undermined⟩
      · obtain ⟨done, rest, whole, undermined⟩ := ih old
        exact ⟨done, rest ++ [request], by simp [whole], undermined⟩
      · exact ⟨requests, [], rfl, undermined⟩

/-- The paths of the nodes are valid all along. The nodes have been a tree all along exactly if no session
has been lost while a lasting node was below an ephemeral one. -/
theorem tree_throughout_iff (requests : List Request) :
    (∀ path, (after requests).isNode path = true → Path.isValid path = true) ∧
    ((∀ done rest, requests = done ++ rest → (after done).IsTree) ↔
      ∀ done rest, requests = done ++ .expire :: rest → ∀ above, ¬ (after done).Undermined above) := by
  refine ⟨(pathed_after requests).nodes, fun trees done rest whole above undermined => ?_,
    fun sound done rest whole path there => ⟨(pathed_after done).nodes path there, fun above member => ?_⟩⟩
  · obtain ⟨⟨lost, held, brief⟩, path, node, found, lasting, member⟩ := undermined
    have tree := trees (done ++ [.expire]) rest (by simp [whole])
    rw [after_append_singleton] at tree
    have standing := (tree path (isNode_expire.2 ⟨node, found, lasting⟩)).2 above member
    obtain ⟨other, same, stays⟩ := isNode_expire.1 standing
    rw [held] at same
    cases same
    rw [brief] at stays
    cases stays
  · cases standing : (after done).isNode above with
    | true => rfl
    | false =>
        obtain ⟨before, later, split, undermined⟩ := undermined_of_gap ⟨standing, path, there, member⟩
        exact absurd undermined (sound before (later ++ rest) (by simp [whole, split]) above)

/-- A lasting node is left behind by the ephemeral one above it. -/
def orphaned : List Request := [.create "/a" true, .create "/a/b" false, .expire]

theorem orphaned_no_tree :
    (after orphaned).isNode "/a/b" = true ∧ "/a" ∈ Path.ancestors "/a/b" ∧
      (after orphaned).isNode "/a" = false ∧ ¬ (after orphaned).IsTree := by
  have left : (after orphaned).isNode "/a/b" = true := by decide +kernel
  have above : "/a" ∈ Path.ancestors "/a/b" := by decide +kernel
  have gone : (after orphaned).isNode "/a" = false := by decide +kernel
  refine ⟨left, above, gone, fun tree => ?_⟩
  rw [(tree "/a/b" left).2 "/a" above] at gone
  cases gone

end Gaps

end ServiceGovernance.Store
