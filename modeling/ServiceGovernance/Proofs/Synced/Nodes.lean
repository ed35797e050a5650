import ServiceGovernance.Proofs.Store.Changes
import ServiceGovernance.Registry.Synced

/-!
How a synced registry uses its store, one statement for each operation on a path: what can come of it
and under which condition. The store fails only while it is offline or for a path that is no path.
-/

namespace ServiceGovernance.Synced

open SyncedRegistry

variable {s t : Synced} {path : String}

/-- Paths that cannot be written now. -/
def Refused (s : Synced) (path : String) : Prop :=
  Store.Path.isValid path = false ∨ s.store.online = false

theorem ensureNode_cases (s : Synced) (path : String) (ephemeral : Bool) :
    (Refused s path ∧ ∃ e, s.ensureNode path ephemeral = (.error e, s)) ∨
    (s.store.online = true ∧ s.store.isNode path = true ∧ s.ensureNode path ephemeral = (.ok (), s)) ∨
    (s.store.online = true ∧ s.store.isNode path = false ∧
      s.ensureNode path ephemeral = (.ok (), { s with store := s.store.planted path ephemeral })) := by
  unfold ensureNode
  rcases s.store.create_cases path ephemeral with
    ⟨invalid, made⟩ | ⟨offline, made⟩ | ⟨online, there, made⟩ | ⟨online, absent, made⟩
  · exact .inl ⟨.inl invalid, _, by rw [made]⟩
  · exact .inl ⟨.inr offline, _, by rw [made]⟩
  · exact .inr (.inl ⟨online, there, by rw [made]⟩)
  · exact .inr (.inr ⟨online, absent, by rw [made]⟩)

/-- A node that is there afterwards has a valid path. -/
theorem isValid_of_ensureNode {ephemeral : Bool} (done : s.ensureNode path ephemeral = (.ok (), t)) :
    Store.Path.isValid path = true := by
  cases valid : Store.Path.isValid path with
  | true => rfl
  | false =>
      have refused : s.store.create path ephemeral = (.error (.invalidPath path), s.store) := by
        simp [Store.create, valid]
      rw [ensureNode, refused] at done
      cases done

theorem sync_writeNode (s : Synced) (e : Endpoint) : (s.writeNode e).2.sync = s.sync := by
  rcases s.ensureNode_cases (nodePath s.sync.root e) e.isDynamic with
    ⟨_, error, failed⟩ | ⟨_, _, done⟩ | ⟨_, _, done⟩
  · rw [writeNode, failed]
  · rw [writeNode, done]
  · rw [writeNode, done]

theorem store_ensureNode (s : Synced) (path : String) (ephemeral : Bool) :
    (s.ensureNode path ephemeral).2.store = (s.store.create path ephemeral).2 := by
  unfold ensureNode
  split <;> next made => rw [made]

theorem store_recoverEndpoint (s : Synced) (e : Endpoint) :
    (s.recoverEndpoint e).store = (s.store.create (nodePath s.sync.root e) e.isDynamic).2 := by
  have written : (s.writeNode e).2.store = _ := s.store_ensureNode (nodePath s.sync.root e) e.isDynamic
  unfold recoverEndpoint
  cases made : s.writeNode e with
  | mk result t =>
      rw [made] at written
      cases result with
      | ok => exact written
      | error => exact written

/-- All that a registration does to the store is to write the endpoint's node. -/
theorem store_register (s : Synced) (e : Endpoint) :
    (s.register e).store = (s.store.create (nodePath s.sync.root e) e.isDynamic).2 :=
  store_recoverEndpoint _ e

theorem removeNode_cases (s : Synced) (e : Endpoint) :
    (s.store.online = false ∧ ∃ error, s.removeNode e = (.error error, s)) ∨
    ((Store.Path.isValid (nodePath s.sync.root e) = false ∨
    s.store.isNode (nodePath s.sync.root e) = false) ∧
      s.removeNode e = (.ok (), s)) ∨
    (s.store.online = true ∧ s.store.isNode (nodePath s.sync.root e) = true ∧
      s.removeNode e = (.ok (), { s with store := s.store.pruned (nodePath s.sync.root e) })) := by
  unfold removeNode
  rcases s.store.delete_cases (nodePath s.sync.root e) with
    ⟨invalid, gone⟩ | ⟨offline, gone⟩ | ⟨online, absent, gone⟩ | ⟨online, there, gone⟩
  · exact .inr (.inl ⟨.inl invalid, by rw [gone]⟩)
  · exact .inl ⟨offline, _, by rw [gone]⟩
  · exact .inr (.inl ⟨.inr absent, by rw [gone]⟩)
  · exact .inr (.inr ⟨online, there, by rw [gone]⟩)

theorem sync_removeNode (s : Synced) (e : Endpoint) : (s.removeNode e).2.sync = s.sync := by
  rcases s.removeNode_cases e with ⟨_, error, failed⟩ | ⟨_, done⟩ | ⟨_, _, done⟩
  · rw [failed]
  · rw [done]
  · rw [done]

/-- The store in which a path is a directory. -/
def withDirectory (s : Store) (path : String) : Store :=
  if s.isNode path then s else s.planted path false

/-- The store with one more watch. -/
def withWatch (s : Store) (path : String) (mailbox : Store.Mailbox) : Store :=
  { s with
    watches := s.watches.insert s.nextWatch ⟨path, mailbox⟩
    nextWatch := s.nextWatch + 1 }

def watchedAt (s : Synced) (path : String) : WatchedPath := (s.sync.watched.get? path).getD {}

theorem isNode_withDirectory (s : Store) (path : String) : (withDirectory s path).isNode path = true := by
  unfold withDirectory
  split
  · assumption
  · exact (s.isNode_planted path path false).2 (.inl rfl)

/-- Where a node may be put, so may all that come with it. -/
theorem isNode_or_isValid_of_planted {s : Store} {path other : String} {ephemeral : Bool}
    (valid : Store.Path.isValid path = true) (there : (s.planted path ephemeral).isNode other = true) :
    s.isNode other = true ∨ Store.Path.isValid other = true := by
  rcases (s.isNode_planted ..).1 there with rfl | missing | before
  · exact .inr valid
  · exact .inr (Store.Path.isValid_of_mem_ancestors valid (Store.mem_ancestors_of_missing missing))
  · exact .inl before

theorem isNode_or_isValid_of_withDirectory {s : Store} {path other : String}
    (valid : Store.Path.isValid path = true) (there : (withDirectory s path).isNode other = true) :
    s.isNode other = true ∨ Store.Path.isValid other = true := by
  unfold withDirectory at there
  split at there
  · exact .inl there
  · exact isNode_or_isValid_of_planted valid there

theorem isNode_withDirectory_of_isNode {s : Store} {path other : String} (there : s.isNode other = true) :
    (withDirectory s path).isNode other = true := by
  unfold withDirectory
  split
  · exact there
  · exact (s.isNode_planted ..).2 (.inr (.inr there))

theorem listeners_withDirectory (store : Store) (path : String) :
    (withDirectory store path).listeners = store.listeners := by
  unfold withDirectory
  split
  · rfl
  · exact (store.told_of_planted path false).listeners

theorem undisturbed_withDirectory (s : Store) (path : String) :
    Store.Undisturbed s (withDirectory s path) := by
  unfold withDirectory
  split
  · exact .refl
  · exact s.undisturbed_planted path false

theorem ensureNode_directory (s : Synced) (path : String) :
    (Refused s path ∧ ∃ e, s.ensureNode path false = (.error e, s)) ∨
    (s.store.online = true ∧
      s.ensureNode path false = (.ok (), { s with store := withDirectory s.store path })) := by
  rcases s.ensureNode_cases path false with failed | ⟨online, there, made⟩ | ⟨online, absent, made⟩
  · exact .inl failed
  · exact .inr ⟨online, by rw [made, withDirectory, if_pos there]⟩
  · exact .inr ⟨online, by rw [made, withDirectory, if_neg (by simp [absent])]⟩

theorem watch_addOwner (w : WatchedPath) (owner narrowed : Endpoint) :
    (addOwner w owner narrowed).watch = w.watch := by
  unfold addOwner
  split <;> rfl

/-- A path has one watch: an owner of a path that is watched already brings no new one. -/
theorem watchPath_cases (s : Synced) (path : String) (owner narrowed : Endpoint) :
    (Refused s path ∧ ∃ e, s.watchPath path owner narrowed = (.error e, s)) ∨
    (s.store.online = true ∧ ∃ watch, (s.watchedAt path).watch = some watch ∧
      s.watchPath path owner narrowed = (.ok ((withDirectory s.store path).children path),
        { s with store := withDirectory s.store path }.putWatched path
          (addOwner (s.watchedAt path) owner narrowed))) ∨
    (s.store.online = true ∧ (s.watchedAt path).watch = none ∧
      s.watchPath path owner narrowed = (.ok ((withDirectory s.store path).children path),
        { s with store := withWatch (withDirectory s.store path) path s.sync.mailbox }.putWatched path
          { addOwner (s.watchedAt path) owner narrowed with
            watch := some (withDirectory s.store path).nextWatch })) := by
  rcases s.ensureNode_directory path with ⟨refused, error, failed⟩ | ⟨online, made⟩
  · exact .inl ⟨refused, error, by rw [watchPath, failed]⟩
  · have online_still : (withDirectory s.store path).online = true :=
      (undisturbed_withDirectory s.store path).online.trans online
    have there := isNode_withDirectory s.store path
    refine .inr ?_
    rw [watchPath, made]
    have found : (s.sync.watched.get? path).getD {} = s.watchedAt path := rfl
    simp only [found]
    rw [← watch_addOwner (s.watchedAt path) owner narrowed]
    generalize addOwner (s.watchedAt path) owner narrowed = w
    cases watched : w.watch with
    | some watch =>
        refine .inl ⟨online, watch, rfl, ?_⟩
        simp [putWatched, Store.getChildren, online_still, Store.isPresent, there]
    | none =>
        refine .inr ⟨online, rfl, ?_⟩
        have watching : (withDirectory s.store path).watchChildren path s.sync.mailbox =
            (.ok ((withDirectory s.store path).nextWatch, (withDirectory s.store path).children path),
              withWatch (withDirectory s.store path) path s.sync.mailbox) := by
          simp [Store.watchChildren, online_still, Store.isPresent, there, withWatch]
        simp only [putWatched, watching, SortedMap.insert_insert]

theorem isValid_of_watchPath {owner narrowed : Endpoint} {names : List String}
    (done : s.watchPath path owner narrowed = (.ok names, t)) : Store.Path.isValid path = true := by
  unfold watchPath at done
  split at done
  · cases done
  · next u made => exact isValid_of_ensureNode made

section Owners

theorem ownersOf_putWatched (s : Synced) (path other : String) (w : WatchedPath) :
    (s.putWatched path w).ownersOf other = if other = path then w.owners else s.ownersOf other := by
  simp only [ownersOf, putWatched, SortedMap.get?_insert]
  split <;> rfl

theorem mem_owners_addOwner {w : WatchedPath} {owner narrowed : Endpoint} {pair : Endpoint × Endpoint} :
    pair ∈ (addOwner w owner narrowed).owners ↔ pair = (owner, narrowed) ∨ pair ∈ w.owners := by
  unfold addOwner
  split
  · next there => exact ⟨.inr, fun either => either.elim (· ▸ there) id⟩
  · simp [or_comm]

theorem foldl_unwatch_eq (ids : List Nat) (store : Store) :
    ∃ watches, ids.foldl Store.unwatch store = { store with watches } := by
  induction ids generalizing store with
  | nil => exact ⟨store.watches, rfl⟩
  | cons id ids ih =>
      obtain ⟨watches, rest⟩ := ih (store.unwatch id)
      exact ⟨watches, rest⟩

theorem get?_dropWatches (s : Synced) (owner : Endpoint) (path : String) :
    (s.dropWatches owner).sync.watched.get? path =
      ((s.sync.watched.get? path).map (withoutOwner owner)).filter (!·.owners.isEmpty) := by
  simp only [dropWatches, SortedMap.get?_filter, SortedMap.get?_mapValues]

theorem mem_ownersOf_dropWatches {owner : Endpoint} {path : String} {pair : Endpoint × Endpoint} :
    pair ∈ (s.dropWatches owner).ownersOf path ↔ pair ∈ s.ownersOf path ∧ pair.1 ≠ owner := by
  rw [ownersOf, get?_dropWatches, ownersOf]
  cases s.sync.watched.get? path with
  | none => simp
  | some w =>
      have left : pair ∈ (withoutOwner owner w).owners ↔ pair ∈ w.owners ∧ pair.1 ≠ owner := by
        simp [withoutOwner]
      rw [Option.map_some, Option.getD_some, ← left, Option.filter_some]
      split
      · rfl
      · next empty =>
          have none_left : (withoutOwner owner w).owners = [] := by simpa using empty
          simp [none_left]

end Owners

section Notices

/-- A registry takes its notices from two queues: those about the session and those about children. -/
def isMine (mailbox : Store.Mailbox) (aboutSession : Bool) : Store.Notice → Bool
  | .children _ receiver _ _ => receiver == mailbox && !aboutSession
  | .session receiver _ => receiver == mailbox && aboutSession

/-- Takes the oldest notice of one of the queues, if there is one. -/
def handleNext (s : Synced) (aboutSession : Bool) : Synced :=
  match s.store.takeNotice (isMine s.sync.mailbox aboutSession) with
  | some (notice, store) => { s with store }.handle notice
  | none => s

theorem handleNext_cases (s : Synced) (aboutSession : Bool) :
    s.handleNext aboutSession = s ∨ ∃ before notice after,
      s.store.outbox = before ++ notice :: after ∧
      (∀ other ∈ before, isMine s.sync.mailbox aboutSession other = false) ∧
      isMine s.sync.mailbox aboutSession notice = true ∧
      s.handleNext aboutSession =
        { s with store := { s.store with outbox := before ++ after } }.handle notice := by
  unfold handleNext Store.takeNotice
  cases found : s.store.outbox.find? (isMine s.sync.mailbox aboutSession) with
  | none => exact .inl rfl
  | some notice =>
      obtain ⟨mine, before, after, whole, others⟩ := List.find?_eq_some_iff_append.1 found
      have others : ∀ other ∈ before, isMine s.sync.mailbox aboutSession other = false := by
        simpa using others
      refine .inr ⟨before, notice, after, whole, others, mine, ?_⟩
      have rest : s.store.outbox.eraseP (isMine s.sync.mailbox aboutSession) = before ++ after := by
        rw [whole, List.eraseP_append_right _ (by simpa using others), List.eraseP_cons_of_pos mine]
      simp only [rest]

end Notices

end ServiceGovernance.Synced
