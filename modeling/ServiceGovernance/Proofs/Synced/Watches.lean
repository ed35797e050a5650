import ServiceGovernance.Proofs.Synced.Nodes
import ServiceGovernance.Proofs.Synced.Tree

/-!
Watches and mailboxes of a sound store, as they come and go, and notices as they are taken. Each of
these is the doing of one registry: for the mailboxes of the others nothing has happened.
-/

namespace ServiceGovernance.SyncedRegistry

open Store.Path Synced

variable {root path : String} {s : Store} {mailbox other : Store.Mailbox} {before after : List Store.Notice}
  {notice : Store.Notice}

section Watch

theorem get?_withWatch (s : Store) (path : String) (mailbox : Store.Mailbox) (watch : Nat) :
    (withWatch s path mailbox).watches.get? watch =
      if watch = s.nextWatch then some ⟨path, mailbox⟩ else s.watches.get? watch := by
  rw [withWatch, SortedMap.get?_insert]

theorem get?_withWatch_of_some (sound : Sound root s) {watch : Nat} {w : Store.Watch}
    (found : s.watches.get? watch = some w) : (withWatch s path mailbox).watches.get? watch = some w := by
  have := sound.numbered watch w found
  rw [get?_withWatch, if_neg (by omega), found]

/-- Nothing is queued for a watch that is not there yet. -/
theorem lastNames_nextWatch (sound : Sound root s) : Store.lastNames s.nextWatch s.outbox = none := by
  refine Store.lastNames_eq_none_iff.2 fun notice member => ?_
  have live := sound.live notice member
  cases notice with
  | session receiver state => rfl
  | children number receiver path names =>
      have := sound.numbered number _ live.1
      exact if_neg (by omega)

theorem sound_withWatch (sound : Sound root s) (directory : DirectoryPath root path)
    (there : s.isNode path = true)
    (known : mailbox < s.nextMailbox) : Sound root (withWatch s path mailbox) where
  placed := sound.placed
  lasting := sound.lasting
  rooted := sound.rooted
  numbered watch w found := by
    show watch < s.nextWatch + 1
    rw [get?_withWatch] at found
    split at found
    · omega
    · have := sound.numbered watch w found
      omega
  addressed watch w found := by
    rw [get?_withWatch] at found
    split at found
    · cases found
      exact known
    · exact sound.addressed watch w found
  watched watch w found := by
    rw [get?_withWatch] at found
    split at found
    · cases found
      exact ⟨directory, there⟩
    · exact sound.watched watch w found
  live notice member := by
    have live := sound.live notice member
    cases notice with
    | session receiver state => trivial
    | children number receiver path names => exact ⟨get?_withWatch_of_some sound live.1, live.2⟩
  told watch w found := by
    rw [get?_withWatch] at found
    split at found
    · next new =>
        subst new
        exact .inl (lastNames_nextWatch sound)
    · exact sound.told watch w found

theorem onward_withWatch (sound : Sound root s) (path : String) (mailbox other : Store.Mailbox) :
    Onward root other s (withWatch s path mailbox) where
  mailboxes := Nat.le_refl _
  listens := id
  watches _ _ found := get?_withWatch_of_some sound found
  directories _ _ there := there
  quiet _ _ _ silent := ⟨silent, rfl⟩
  awake _ online quiet := ⟨online, quiet⟩

theorem later_withWatch (sound : Sound root s) (path : String) (apart : other ≠ mailbox) :
    Later root other s (withWatch s path mailbox) where
  toOnward := onward_withWatch sound path mailbox other
  only watch path found := by
    rw [get?_withWatch] at found
    split at found
    · cases found
      exact absurd rfl apart
    · exact found

theorem get?_foldl_unwatch (ids : List Nat) (s : Store) (watch : Nat) :
    (ids.foldl Store.unwatch s).watches.get? watch =
      if watch ∈ ids then none else s.watches.get? watch := by
  induction ids generalizing s with
  | nil => rfl
  | cons id ids ih =>
      rw [List.foldl_cons, ih, Store.unwatch, SortedMap.get?_erase]
      by_cases first : watch = id <;> by_cases later : watch ∈ ids <;> simp [first, later]

theorem sound_unwatched (sound : Sound root s) {ids : List Nat}
    (silent : ∀ id ∈ ids, Store.lastNames id s.outbox = none) : Sound root (ids.foldl Store.unwatch s) := by
  obtain ⟨watches, same⟩ := foldl_unwatch_eq ids s
  have found_before : ∀ watch w, watches.get? watch = some w → watch ∉ ids ∧
    s.watches.get? watch = some w := by
    intro watch w found
    have looked := get?_foldl_unwatch ids s watch
    rw [same] at looked
    rw [looked] at found
    split at found
    · cases found
    · next kept => exact ⟨kept, found⟩
  have found_after : ∀ watch, watch ∉ ids → watches.get? watch = s.watches.get? watch := by
    intro watch kept
    have looked := get?_foldl_unwatch ids s watch
    rwa [same, if_neg kept] at looked
  rw [same]
  exact {
    placed := sound.placed
    lasting := sound.lasting
    rooted := sound.rooted
    numbered := fun watch w found => sound.numbered watch w (found_before watch w found).2
    addressed := fun watch w found => sound.addressed watch w (found_before watch w found).2
    watched := fun watch w found => sound.watched watch w (found_before watch w found).2
    live := fun notice member => by
      have live := sound.live notice member
      cases notice with
      | session receiver state => trivial
      | children number receiver path names =>
          refine ⟨(found_after number fun released => ?_).trans live.1, live.2⟩
          have none_for := Store.lastNames_eq_none_iff.1 (silent number released) _ member
          rw [Store.Notice.namesFor?, if_pos rfl] at none_for
          cases none_for
    told := fun watch w found => sound.told watch w (found_before watch w found).2 }

theorem later_unwatched {ids : List Nat}
    (others : ∀ id ∈ ids, ∀ path, s.watches.get? id ≠ some ⟨path, other⟩) :
    Later root other s (ids.foldl Store.unwatch s) := by
  have looked := get?_foldl_unwatch ids s
  obtain ⟨watches, same⟩ := foldl_unwatch_eq ids s
  rw [same] at looked ⊢
  refine ⟨⟨Nat.le_refl _, id, fun watch path found => ?_, fun _ _ => id, fun _ _ _ silent => ⟨silent, rfl⟩,
    fun _ online quiet => ⟨online, quiet⟩⟩, fun watch path found => ?_⟩
  · exact (looked watch).trans ((if_neg fun released => others watch released path found).trans found)
  · have found := (looked watch).symm.trans found
    split at found
    · cases found
    · exact found

end Watch

section Notice

/-- Of the notices for a mailbox the first has been taken. -/
theorem lastNames_taken {watch : Nat} (silent : notice.namesFor? watch = none) :
    Store.lastNames watch (before ++ after) = Store.lastNames watch (before ++ notice :: after) := by
  rw [Store.lastNames_append, Store.lastNames_append, Store.lastNames, silent, Option.or_none]

/-- Before the first notice of a watch there is none. -/
theorem lastNames_before (sound : Sound root s) (whole : s.outbox = before ++ notice :: after)
    {aboutSession : Bool} (others : ∀ n ∈ before, isMine mailbox aboutSession n = false)
    (mine : isMine mailbox aboutSession notice = true) {watch : Nat} {names : List String}
    (tells : notice.namesFor? watch = some names) : Store.lastNames watch before = none := by
  refine Store.lastNames_eq_none_iff.2 fun n member => ?_
  have first := sound.live notice (whole ▸ List.mem_append_right _ List.mem_cons_self)
  have earlier := sound.live n (whole ▸ List.mem_append_left _ member)
  have not_mine := others n member
  cases notice with
  | session receiver state => cases tells
  | children number receiver path names =>
      cases n with
      | session receiver state => rfl
      | children number' receiver' path' names' =>
          refine if_neg fun same => ?_
          subst same
          have number_same : number = number' := by
            simp only [Store.Notice.namesFor?] at tells
            split at tells
            · assumption
            · cases tells
          subst number_same
          cases first.1.symm.trans earlier.1
          simp only [isMine] at mine not_mine
          rw [mine] at not_mine
          cases not_mine

theorem sound_taken (sound : Sound root s) (whole : s.outbox = before ++ notice :: after)
    {aboutSession : Bool}
    (others : ∀ n ∈ before, isMine mailbox aboutSession n = false)
    (mine : isMine mailbox aboutSession notice = true) :
    Sound root { s with outbox := before ++ after } where
  placed := sound.placed
  lasting := sound.lasting
  rooted := sound.rooted
  numbered := sound.numbered
  addressed := sound.addressed
  watched := sound.watched
  live n member := by
    refine sound.live n (whole ▸ ?_)
    rcases List.mem_append.1 member with member | member
    · exact List.mem_append_left _ member
    · exact List.mem_append_right _ (List.mem_cons_of_mem _ member)
  told watch w found := by
    have told := sound.told watch w found
    rw [whole] at told
    cases tells : notice.namesFor? watch with
    | none => rwa [lastNames_taken tells]
    | some names =>
        have none_before := lastNames_before sound whole others mine tells
        rw [Store.lastNames_append, Store.lastNames, none_before, Option.or_none, tells] at told
        rw [Store.lastNames_append, none_before, Option.or_none]
        cases more : Store.lastNames watch after with
        | none => exact .inl rfl
        | some latest =>
            rw [more] at told
            exact told

/-- A notice that is the last one of its watch has the children of this moment. -/
theorem names_of_last (sound : Sound root s) {watch : Nat} {names : List String}
    (whole : s.outbox = before ++ .children watch mailbox path names :: after)
    (last : Store.lastNames watch (before ++ after) = none) : names = s.children path := by
  have live := sound.live _ (whole ▸ List.mem_append_right _ List.mem_cons_self)
  have told := sound.told watch _ live.1
  rw [Store.lastNames_append, Option.or_eq_none_iff] at last
  rw [whole, Store.lastNames_append, Store.lastNames, last.1, last.2] at told
  simp only [Store.Notice.namesFor?, if_true, Option.none_or, Option.or_none, reduceCtorEq, false_or,
    Option.some.injEq] at told
  exact told

theorem later_taken (sound : Sound root s) (whole : s.outbox = before ++ notice :: after)
    (apart : notice.mailbox ≠ other) : Later root other s { s with outbox := before ++ after } where
  mailboxes := Nat.le_refl _
  listens := id
  watches _ _ := id
  directories _ _ := id
  quiet watch path found silent := by
    refine ⟨?_, rfl⟩
    have foreign : notice.namesFor? watch = none := by
      have live := sound.live notice (whole ▸ List.mem_append_right _ List.mem_cons_self)
      cases notice with
      | session receiver state => rfl
      | children number receiver path names =>
          refine if_neg fun same => apart ?_
          subst same
          cases found.symm.trans live.1
          rfl
    rw [whole, ← lastNames_taken foreign]
    exact silent
  awake _ online quiet := by
    refine ⟨online, fun queued => quiet ?_⟩
    rw [whole] at queued
    rcases List.mem_append.1 queued with queued | queued
    · exact List.mem_append_left _ queued
    · rcases List.mem_cons.1 queued with rfl | queued
      · exact absurd rfl apart
      · exact List.mem_append_right _ queued
  only _ _ := id

end Notice

section Mailbox

/-- The store that a new registry starts on. -/
def opened (s : Store) : Store := s.openMailbox.2.watchState s.openMailbox.1

theorem sound_opened (sound : Sound root s) : Sound root (opened s) where
  placed := sound.placed
  lasting := sound.lasting
  rooted := sound.rooted
  numbered := sound.numbered
  addressed watch w found := Nat.lt_succ_of_lt (sound.addressed watch w found)
  watched := sound.watched
  live notice member := by
    rcases List.mem_append.1 member with member | member
    · have live := sound.live notice member
      cases notice with
      | session receiver state => trivial
      | children number receiver path names => exact live
    · rw [List.mem_singleton.1 member]
      trivial
  told watch w found := by
    have told := sound.told watch w found
    rw [opened, Store.watchState, Store.openMailbox, Store.lastNames_append]
    exact told

theorem later_opened (s : Store) (other : Store.Mailbox) : Later root other s (opened s) where
  mailboxes := Nat.le_succ _
  listens := List.mem_append_left _
  watches _ _ := id
  directories _ _ := id
  quiet watch path _ silent := by
    refine ⟨?_, rfl⟩
    rw [opened, Store.watchState, Store.openMailbox, Store.lastNames_append] at silent
    exact silent
  awake _ online quiet := ⟨online, fun queued => quiet (List.mem_append_left _ queued)⟩
  only _ _ := id

end Mailbox

end ServiceGovernance.SyncedRegistry
