import ServiceGovernance.Proofs.Synced.Acting
import ServiceGovernance.Proofs.Synced.Events

/-!
Registries that share a root and a store, each acting in its turn while the store goes on and off line
and loses its session. A turn is a whole operation or the handling of one notice: neither is interrupted by
another turn. Main statement: once a registry has no notice left to take and the store is
online, what it has cached for a query are the endpoints in the store that the query asks for.
-/

namespace ServiceGovernance

open SyncedRegistry Store.Path

structure Fleet where
  store : Store := {}
  members : List SyncedRegistry := []

namespace Synced

/-- What a registry that is to agree with others may do in its turn. The store changes apart from that. -/
def OwnTurn (s : Synced) : Event → Prop
  | .register e => e.Publishable
  | .publish interface rule => (Endpoint.conditionRule interface rule).Publishable
  | .subscribe query _ => Broad query
  | .unsubscribe query listener => s.ReleasesQuietly query listener
  | .unregister _ | .retry | .handle _ => True
  | .setOnline _ | .expire | .elsewhere _ => False

theorem Mirrors.after {s : Synced} {event : Event} (mirrors : Mirrors s) (turn : s.OwnTurn event) :
    StillMirrors s (s.after event) := by
  cases event with
  | register e => exact .of_allAhead (mirrors.register turn).1 (mirrors.register turn).2
  | unregister e => exact .of_allAhead (mirrors.unregister e).1 (mirrors.unregister e).2
  | publish interface rule =>
      show StillMirrors s (s.register (.conditionRule interface rule))
      exact .of_allAhead (mirrors.register turn).1 (mirrors.register turn).2
  | subscribe query listener => exact mirrors.attend turn listener
  | unsubscribe query listener => exact mirrors.unsubscribe turn
  | retry => exact .of_allAhead mirrors.retry.1 mirrors.retry.2
  | handle aboutSession => exact mirrors.handleNext aboutSession
  | setOnline => exact turn.elim
  | expire => exact turn.elim
  | elsewhere => exact turn.elim

end Synced

namespace Fleet

open Synced

variable {root : String} {f g : Fleet} {sync : SyncedRegistry} {query e : Endpoint} {category : String}

def view (f : Fleet) (sync : SyncedRegistry) : Synced := { sync, store := f.store }

/-- Below the root only registries write; elsewhere nodes come and go as others please. -/
inductive Step (root : String) : Fleet → Fleet → Prop where
  | join {f : Fleet} (lookupTimeout retryPeriod : Nat) : Step root f
      ⟨(start f.store root lookupTimeout retryPeriod).store,
        f.members ++ [(start f.store root lookupTimeout retryPeriod).sync]⟩
  | act {f : Fleet} {i : Nat} {sync : SyncedRegistry} {event : Event} (there : f.members[i]? = some sync)
      (turn : (f.view sync).OwnTurn event) : Step root f
        ⟨((f.view sync).after event).store, f.members.set i ((f.view sync).after event).sync⟩
  | setOnline {f : Fleet} (online : Bool) : Step root f { f with store := f.store.setOnline online }
  | expire {f : Fleet} : Step root f { f with store := f.store.expire }
  | create {f : Fleet} {path : String} (foreign : Foreign root path) (ephemeral : Bool) :
      Step root f { f with store := (f.store.create path ephemeral).2 }
  | delete {f : Fleet} {path : String} (foreign : Foreign root path) :
      Step root f { f with store := (f.store.delete path).2 }

/-- The fleets that come of an empty store. -/
inductive Reached (root : String) : Fleet → Prop where
  | empty : Reached root {}
  | step {f g : Fleet} (before : Reached root f) (next : Step root f g) : Reached root g

structure Agrees (root : String) (f : Fleet) : Prop where
  sound : Sound root f.store
  roots : ∀ sync ∈ f.members, sync.root = root
  mirrors : ∀ sync ∈ f.members, Mirrors (f.view sync)
  apart : f.members.Pairwise fun sync other => sync.mailbox ≠ other.mailbox

section Steps

theorem sound_empty (root : String) : Sound root {} where
  placed _ there := by cases there
  lasting _ _ found := by cases found
  rooted _ there := by cases there
  numbered _ _ found := by cases found
  addressed _ _ found := by cases found
  watched _ _ found := by cases found
  live _ member := by cases member
  told _ _ found := by cases found

theorem heard_create (filled : root ≠ "") {path : String} {store : Store} (foreign : Foreign root path)
    (ephemeral : Bool) : Heard root store (store.create path ephemeral).2 := by
  rcases store.store_create path ephemeral with same | ⟨_, made⟩
  · exact same.symm ▸ .refl
  · rw [made]
    exact heard_planted filled (.inr foreign) fun directory =>
      absurd rfl (foreign.spares filled (.inl directory)).1

theorem heard_delete (absolute : Absolute root) {path : String} {store : Store}
    (foreign : Foreign root path) :
    Heard root store (store.delete path).2 := by
  rcases store.store_delete path with same | ⟨_, gone⟩
  · exact same.symm ▸ .refl
  · rw [gone]
    exact heard_pruned absolute.ne_empty (spared_of_foreign absolute foreign)

/-- What concerns no registry more than another. -/
theorem Agrees.heard {store : Store} (agrees : Agrees root f) (heard : Heard root f.store store) :
    Agrees root { f with store } := by
  obtain ⟨sound, later⟩ := heard agrees.sound
  refine ⟨sound, agrees.roots, fun sync member => ?_, agrees.apart⟩
  have same := agrees.roots sync member
  exact (agrees.mirrors sync member).later (same ▸ later sync.mailbox) (same ▸ sound)

theorem Agrees.join (absolute : Absolute root) (agrees : Agrees root f) (lookupTimeout retryPeriod : Nat) :
    Agrees root ⟨(start f.store root lookupTimeout retryPeriod).store,
      f.members ++ [(start f.store root lookupTimeout retryPeriod).sync]⟩ := by
  have sound : Sound root (start f.store root lookupTimeout retryPeriod).store := sound_opened agrees.sound
  refine ⟨sound, fun sync member => ?_, fun sync member => ?_, ?_⟩
  · rcases List.mem_append.1 member with member | member
    · exact agrees.roots sync member
    · rw [List.mem_singleton.1 member]
      rfl
  · rcases List.mem_append.1 member with member | member
    · have same := agrees.roots sync member
      exact (agrees.mirrors sync member).later (later_opened f.store sync.mailbox) (same ▸ sound)
    · rw [List.mem_singleton.1 member]
      exact mirrors_start absolute agrees.sound lookupTimeout retryPeriod
  · refine List.pairwise_append.2 ⟨agrees.apart, List.pairwise_singleton _ _,
      fun sync member new joined => ?_⟩
    rw [List.mem_singleton.1 joined]
    exact Nat.ne_of_lt (agrees.mirrors sync member).mailbox

theorem Agrees.act {i : Nat} {event : Event} (agrees : Agrees root f) (there : f.members[i]? = some sync)
    (turn : (f.view sync).OwnTurn event) : Agrees root
      ⟨((f.view sync).after event).store, f.members.set i ((f.view sync).after event).sync⟩ := by
  obtain ⟨bound, here⟩ := List.getElem?_eq_some_iff.1 there
  have whole : f.members = f.members.take i ++ sync :: f.members.drop (i + 1) := by
    rw [← here, ← List.drop_eq_getElem_cons bound, List.take_append_drop]
  have acted := (agrees.mirrors sync (List.mem_of_getElem? there)).after turn
  generalize (f.view sync).after event = t at acted ⊢
  have root_of := agrees.roots sync (List.mem_of_getElem? there)
  have root_after : t.sync.root = root := acted.root.trans root_of
  have sound : Sound root t.store := root_after ▸ acted.mirrors.sound
  rw [List.set_eq_take_append_cons_drop, if_pos bound]
  generalize f.members.take i = before at whole ⊢
  generalize f.members.drop (i + 1) = after at whole ⊢
  have apart := agrees.apart
  rw [whole, List.pairwise_middle Ne.symm, List.pairwise_cons] at apart
  have others : ∀ other ∈ before ++ after, other ∈ f.members ∧ other.mailbox ≠ sync.mailbox := by
    intro other member
    refine ⟨?_, (apart.1 other member).symm⟩
    rw [whole]
    simp only [List.mem_append, List.mem_cons] at member ⊢
    exact member.imp_right .inr
  have cases_of : ∀ other ∈ before ++ t.sync :: after, other = t.sync ∨ other ∈ before ++ after := by
    intro other member
    simp only [List.mem_append, List.mem_cons] at member ⊢
    exact or_left_comm.1 member
  refine ⟨sound, fun other member => ?_, fun other member => ?_, ?_⟩
  · rcases cases_of other member with rfl | member
    · exact root_after
    · exact agrees.roots other (others other member).1
  · rcases cases_of other member with rfl | member
    · exact acted.mirrors.of_same rfl rfl rfl rfl (fun _ => .rfl) rfl acted.mirrors.registered
        acted.mirrors.failed
    · obtain ⟨member, distinct⟩ := others other member
      have same := agrees.roots other member
      refine (agrees.mirrors other member).later ?_ (same ▸ sound)
      exact same.trans root_of.symm ▸ acted.others other.mailbox distinct
  · rw [List.pairwise_middle Ne.symm, List.pairwise_cons]
    exact ⟨fun other member => acted.mailbox ▸ (others other member).2.symm, apart.2⟩

theorem Agrees.step (absolute : Absolute root) (agrees : Agrees root f) (next : Step root f g) :
    Agrees root g := by
  have filled := absolute.ne_empty
  cases next with
  | join lookupTimeout retryPeriod => exact agrees.join absolute lookupTimeout retryPeriod
  | act there turn => exact agrees.act there turn
  | setOnline online => exact agrees.heard (heard_setOnline filled online)
  | expire => exact agrees.heard (heard_expire filled)
  | create foreign ephemeral => exact agrees.heard (heard_create filled foreign ephemeral)
  | delete foreign => exact agrees.heard (heard_delete absolute foreign)

theorem Reached.agrees (absolute : Absolute root) (reached : Reached root f) : Agrees root f := by
  induction reached with
  | empty => exact ⟨sound_empty root, fun _ member => absurd member List.not_mem_nil,
      fun _ member => absurd member List.not_mem_nil, .nil⟩
  | step before next ih => exact ih.step absolute next

end Steps

section Rest

variable {s : Synced}

/-- Whoever has a node in the store is the endpoint that it has been made for. -/
theorem publishable_of_isNode {store : Store} (absolute : Absolute root) (sound : Sound root store)
    (reparses : Endpoint.parse e.canonical = .ok e) (there : store.isNode (nodePath root e) = true) :
    e.Publishable ∧ store.isNode (interfacePath root e.interface) = true := by
  have filled := absolute.ne_empty
  have below : root ∈ ancestors (nodePath root e) :=
    ancestors_trans (root_mem_ancestors_categoryPath filled e.interface e.category)
      (mem_ancestors_join (join_ne_empty _ _) _)
  have ours := (sound.placed _ there).ours below
  obtain ⟨other, publishable, same⟩ := ours.endpoint leaf_nodePath.2
  have names := ((join_inj (not_mem_encode _) (not_mem_encode _)).1 same).2
  have canonical : e.canonical = other.canonical := Text.Percent.encode_injective names
  rw [canonical, publishable.reparses] at reparses
  cases reparses
  refine ⟨publishable, sound.rooted _ there ours _ ?_⟩
  rw [ancestors_nodePath filled publishable.category.2]
  simp

theorem unheard_of_quiet (mirrors : Mirrors s)
    (quiet : ∀ notice ∈ s.store.outbox, notice.mailbox ≠ s.sync.mailbox)
    (path : String) : s.Unheard path := by
  intro watch found
  refine Store.lastNames_eq_none_iff.2 fun notice queued => ?_
  have live := mirrors.sound.live notice queued
  cases notice with
  | session receiver state => rfl
  | children number receiver told names =>
      refine if_neg fun same => ?_
      subst same
      cases live.1.symm.trans found
      exact quiet _ queued rfl

/-- A mirror at rest has cached what is there. -/
theorem Mirrors.mem_known_iff (mirrors : Mirrors s) (online : s.store.online = true)
    (quiet : ∀ notice ∈ s.store.outbox, notice.mailbox ≠ s.sync.mailbox)
    (subscribed : query ∈ s.sync.registry.queries)
    (listed : category ∈ query.expandedCategories) :
    e ∈ s.known query category ↔ Endpoint.parse e.canonical = .ok e ∧
      s.store.isNode (nodePath s.sync.root e) = true ∧ e.category = category ∧ query.admits e = true := by
  have broad := mirrors.queries query subscribed
  have unheard := unheard_of_quiet mirrors quiet
  have covers := mirrors.covered online (fun queued => quiet _ queued rfl) query subscribed id
  have owns : e.Publishable → query.wantsInterface e = true →
      s.store.isNode (interfacePath s.sync.root e.interface) = true → s.OwnsAll query e.interface := by
    intro publishable wanted there
    unfold Covers at covers
    split at covers
    · exact covers.2 (unheard _) e.interface publishable.named publishable.single there
    · next one =>
        have same : query.interface = e.interface := by simpa [Endpoint.wantsInterface, one] using wanted
        exact same ▸ covers
  have stored_iff := fun owned : s.OwnsAll query e.interface =>
    (mirrors.fresh query e.interface category (owned category listed) id (unheard _) e rfl).trans
      (mem_decoded_children_iff mirrors.filled mirrors.sound.toGrown (broad.flat category listed))
  constructor
  · intro member
    obtain ⟨publishable, filed, wanted, there⟩ := mirrors.genuine query category e member
    obtain ⟨_, _, _, stored⟩ := (stored_iff (owns publishable wanted there)).1 member
    exact ⟨publishable.reparses, stored, filed,
      (broad.admits_iff e).2 ⟨wanted, filed ▸ wantsCategory_of_mem listed⟩⟩
  · rintro ⟨reparses, stored, filed, admitted⟩
    obtain ⟨publishable, there⟩ := publishable_of_isNode mirrors.absolute mirrors.sound reparses stored
    have wanted := ((broad.admits_iff e).1 admitted).1
    exact (stored_iff (owns publishable wanted there)).2 ⟨publishable, rfl, filed, stored⟩

end Rest

/-- A registry with no notice left to take has cached, of each category that a query watches, the
endpoints that are in the store and that the query asks for, whoever has put them there. -/
theorem Reached.cached_iff_stored (absolute : Absolute root) (reached : Reached root f)
    (member : sync ∈ f.members)
    (online : f.store.online = true) (quiet : ∀ notice ∈ f.store.outbox, notice.mailbox ≠ sync.mailbox)
    (subscribed : query ∈ sync.registry.queries) (listed : category ∈ query.expandedCategories)
    (e : Endpoint) :
    e ∈ Endpoint.members (sync.registry.listOf query category) ↔ Endpoint.parse e.canonical = .ok e ∧
      f.store.isNode (nodePath root e) = true ∧ e.category = category ∧ query.admits e = true := by
  have agrees := reached.agrees absolute
  have same : (f.view sync).known query category =
      Endpoint.members (sync.registry.listOf query category) := rfl
  rw [← agrees.roots sync member, ← same]
  exact Mirrors.mem_known_iff (agrees.mirrors sync member) online quiet subscribed listed

section Pair

/-- The fleet after the turn of one member. -/
def did (f : Fleet) (i : Nat) (event : Event) : Fleet :=
  match f.members[i]? with
  | some sync => ⟨((f.view sync).after event).store, f.members.set i ((f.view sync).after event).sync⟩
  | none => f

theorem Reached.did {i : Nat} (reached : Reached root f) (event : Event) (turn : ∀ s, OwnTurn s event) :
    Reached root (f.did i event) := by
  unfold Fleet.did
  split
  · next sync there => exact .step reached (.act there (turn _))
  · exact reached

def offered : Endpoint := { protocol := "a", host := "b", port := 1, path := "i" }

/-- A query for all interfaces. -/
def everything : Endpoint :=
  { protocol := "c", host := "d", port := 1, path := "i"
    params := SortedMap.ofList [("enabled", "*"), ("group", "*"), ("interface", "*"), ("version", "*")] }

theorem broad_everything : Broad everything :=
  ⟨by decide, by unfold FlatQuery; decide, by decide, by decide, by decide⟩

def joined (f : Fleet) : Fleet :=
  ⟨(start f.store "/r" 5000 5000).store, f.members ++ [(start f.store "/r" 5000 5000).sync]⟩

/-- One registry asks for everything, another one puts an endpoint there. -/
def pair : Fleet :=
  ((((joined (joined {})).did 0 (.subscribe everything 0)).did 1 (.register offered)).did 0 (.handle true)).did
    0 (.handle false)

def asking : SyncedRegistry := (pair.members.head?).getD { mailbox := 0 }

theorem publishable_offered : offered.Publishable where
  named := by decide
  single := by decide
  category := by decide
  real := by decide
  reparses := Endpoint.parse_eq_ok_of_toOption (by decide +kernel)

theorem reached_pair : Reached "/r" pair := by
  have joining : ∀ {f : Fleet}, Reached "/r" f → Reached "/r" (joined f) :=
    fun reached => .step reached (.join 5000 5000)
  exact .did (.did (.did (.did (joining (joining .empty)) (.subscribe everything 0) fun _ => broad_everything)
    (.register offered) fun _ => publishable_offered) (.handle true) fun _ => trivial) (.handle false)
    fun _ => trivial

/-- What one registry has put into the store the other one has cached, and nothing else. -/
theorem pair_agrees :
    offered ∈ Endpoint.members (asking.registry.listOf everything "providers") ∧
      ∀ e, e ∈ Endpoint.members (asking.registry.listOf everything "providers") ↔
        Endpoint.parse e.canonical = .ok e ∧ pair.store.isNode (nodePath "/r" e) = true ∧
        e.category = "providers" ∧
          everything.admits e = true := by
  have facts : pair.members.head? = some asking ∧ pair.store.online = true ∧
      (∀ notice ∈ pair.store.outbox, notice.mailbox ≠ asking.mailbox) ∧
        everything ∈ asking.registry.queries ∧
      "providers" ∈ everything.expandedCategories ∧
      offered ∈ Endpoint.members (asking.registry.listOf everything "providers") := by
    decide +kernel
  obtain ⟨first, online, quiet, subscribed, listed, cached⟩ := facts
  have absolute : Absolute "/r" := @Absolute.top "r" (by decide)
  exact ⟨cached, reached_pair.cached_iff_stored absolute (List.mem_of_head? first) online quiet
    subscribed listed⟩

end Pair

end Fleet

end ServiceGovernance
