import ServiceGovernance.Proofs.Store.Requests

/-!
What listeners are told of the session. A listener hears the present state when it begins to listen, and
then every change of availability and every loss of the session. The loss is told as an interruption that is
over, also while the store is offline, and who hears it then takes the store to be back.
-/

namespace ServiceGovernance.Store

/-- What a notice tells a mailbox of the session. -/
def Notice.stateFor? (mailbox : Mailbox) : Notice → Option SessionState
  | .session receiver state => if receiver = mailbox then some state else none
  | .children .. => none

/-- The notices that a request adds to those that wait. -/
def news (s : Store) (request : Request) : List Notice :=
  (s.perform request).outbox.drop s.outbox.length

/-- What a request tells a mailbox of the session. -/
def sends (s : Store) (request : Request) (mailbox : Mailbox) : List SessionState :=
  (s.news request).filterMap (Notice.stateFor? mailbox)

/-- What a mailbox is told of the session along a run of requests. -/
def heard (mailbox : Mailbox) (s : Store) : List Request → List SessionState
  | [] => []
  | request :: rest => s.sends request mailbox ++ heard mailbox (s.perform request) rest

/-- The session was lost while the store was offline and the mailbox listened; since then the store has not
come back, and the mailbox has not begun to listen anew. -/
def Misled (requests : List Request) (mailbox : Mailbox) : Prop :=
  ∃ done rest, requests = done ++ .expire :: rest ∧ mailbox ∈ (after done).listeners ∧
    (after done).online = false ∧ .setOnline true ∉ rest ∧ .watchState mailbox ∉ rest

variable {s t : Store} {request : Request} {requests : List Request} {mailbox : Mailbox} {path : String}

section Sending

/-- The change is told to watches only. -/
def Quiet (s t : Store) : Prop :=
  t.online = s.online ∧ t.listeners = s.listeners ∧ ∃ news, t.outbox = s.outbox ++ news ∧
    ∀ mailbox, news.filterMap (Notice.stateFor? mailbox) = []

theorem Quiet.refl : Quiet s s := ⟨rfl, rfl, [], by simp, fun _ => rfl⟩

theorem Quiet.trans {u : Store} (first : Quiet s t) (second : Quiet t u) : Quiet s u := by
  obtain ⟨online, listeners, news, outbox, quiet⟩ := first
  obtain ⟨online', listeners', more, outbox', quiet'⟩ := second
  refine ⟨online'.trans online, listeners'.trans listeners, news ++ more, ?_, fun mailbox => ?_⟩
  · rw [outbox', outbox, List.append_assoc]
  · rw [List.filterMap_append, quiet mailbox, quiet' mailbox, List.append_nil]

theorem states_parentNotices (s : Store) (path : String) (mailbox : Mailbox) :
    (s.parentNotices path).filterMap (Notice.stateFor? mailbox) = [] := by
  refine List.filterMap_eq_nil_iff.2 fun notice member => ?_
  obtain ⟨_, _, _, _, _, rfl⟩ := mem_parentNotices_iff.1 member
  rfl

theorem quiet_addNode (s : Store) (path : String) (node : Node) : Quiet s (s.addNode path node) := by
  rw [addNode_eq]
  exact ⟨rfl, rfl, _, rfl, states_parentNotices _ path⟩

theorem quiet_planted (s : Store) (path : String) (ephemeral : Bool) : Quiet s (s.planted path ephemeral) := by
  have parents : ∀ (paths : List String) (s : Store),
      Quiet s (paths.foldl (fun s parent => s.addNode parent {}) s) := by
    intro paths
    induction paths with
    | nil => exact fun s => .refl
    | cons parent paths ih => exact fun s => (quiet_addNode s parent {}).trans (ih _)
  exact (parents _ s).trans (quiet_addNode _ path _)

theorem quiet_pruned (s : Store) (path : String) : Quiet s (s.pruned path) := by
  rw [pruned_eq]
  exact ⟨rfl, rfl, _, rfl, states_parentNotices _ path⟩

theorem Quiet.sends (quiet : Quiet s (s.perform request)) (mailbox : Mailbox) :
    s.sends request mailbox = [] := by
  obtain ⟨_, _, news, outbox, silent⟩ := quiet
  rw [Store.sends, Store.news, outbox, List.drop_left]
  exact silent mailbox

/-- Every listener is told once for each time that it listens. -/
theorem states_of_listeners (listeners : List Mailbox) (state : SessionState) (mailbox : Mailbox) :
    (listeners.map fun listener => Notice.session listener state).filterMap (Notice.stateFor? mailbox) =
      List.replicate (listeners.count mailbox) state := by
  induction listeners with
  | nil => rfl
  | cons first rest ih =>
      rw [List.map_cons, List.filterMap_cons, ih, List.count_cons]
      by_cases same : first = mailbox
      · simp [Notice.stateFor?, same, List.replicate_succ]
      · simp [Notice.stateFor?, same]

theorem sends_watchState (s : Store) (listener mailbox : Mailbox) :
    s.sends (.watchState listener) mailbox = if listener = mailbox then [s.currentState] else [] := by
  simp only [sends, news, perform, watchState, List.drop_left, List.filterMap_cons, List.filterMap_nil,
    Notice.stateFor?]
  split <;> simp_all

theorem sends_setOnline (s : Store) (online : Bool) (mailbox : Mailbox) :
    s.sends (.setOnline online) mailbox =
      if s.online = online then []
      else List.replicate (s.listeners.count mailbox) (if online then .reconnected else .disconnected) := by
  unfold sends news
  rcases setOnline_cases s online with ⟨same, still⟩ | ⟨other, changed⟩
  · rw [if_pos same, perform, still, List.drop_length]
    rfl
  · rw [if_neg (by rw [other]; cases online <;> decide), perform, changed, sendState, List.drop_left]
    exact states_of_listeners ..

theorem sends_expire (s : Store) (mailbox : Mailbox) :
    s.sends .expire mailbox =
      List.replicate (s.listeners.count mailbox) .disconnected ++
        List.replicate (s.listeners.count mailbox) .reconnected := by
  have quiet : ∀ (paths : List String) (s : Store),
      (paths.flatMap s.parentNotices).filterMap (Notice.stateFor? mailbox) = [] := by
    intro paths s
    rw [List.filterMap_flatMap]
    exact List.flatMap_eq_nil_iff.2 fun path _ => states_parentNotices s path mailbox
  simp only [sends, news, perform, expire, foldl_sendParent_eq, sendState, List.append_assoc, List.drop_left,
    List.filterMap_append, states_of_listeners, quiet, List.nil_append]

theorem sends_of_shorter (shorter : (s.perform request).outbox.length ≤ s.outbox.length) (mailbox : Mailbox) :
    s.sends request mailbox = [] := by
  rw [sends, news, List.drop_of_length_le shorter]
  rfl

theorem quiet_create (s : Store) (path : String) (ephemeral : Bool) : Quiet s (s.create path ephemeral).2 := by
  rcases s.store_create path ephemeral with same | ⟨_, made⟩
  · rw [same]
    exact .refl
  · rw [made]
    exact s.quiet_planted path ephemeral

theorem quiet_delete (s : Store) (path : String) : Quiet s (s.delete path).2 := by
  rcases s.store_delete path with same | ⟨_, gone⟩
  · rw [same]
    exact .refl
  · rw [gone]
    exact s.quiet_pruned path

theorem quiet_setData (s : Store) (path : String) (data : List UInt8) : Quiet s (s.setData path data).2 := by
  unfold setData
  split
  · exact .refl
  · split <;> exact ⟨rfl, rfl, [], by simp, fun _ => rfl⟩

theorem quiet_watchChildren (s : Store) (path : String) (mailbox : Mailbox) :
    Quiet s (s.watchChildren path mailbox).2 := by
  unfold watchChildren
  split_ifs <;> exact ⟨rfl, rfl, [], by simp, fun _ => rfl⟩

theorem takeNotice_frame (s : Store) (wanted : Notice → Bool) :
    (s.perform (.takeNotice wanted)).online = s.online ∧
      (s.perform (.takeNotice wanted)).listeners = s.listeners ∧
      (s.perform (.takeNotice wanted)).outbox.length ≤ s.outbox.length := by
  simp only [perform, takeNotice]
  split
  · exact ⟨rfl, rfl, List.eraseP_sublist.length_le⟩
  · exact ⟨rfl, rfl, Nat.le_refl _⟩

/-- The mailbox is told nothing of the session, and there is nothing to tell. -/
structure Silent (s : Store) (request : Request) (mailbox : Mailbox) : Prop where
  sends : s.sends request mailbox = []
  online : (s.perform request).online = s.online
  listens : mailbox ∈ (s.perform request).listeners → mailbox ∈ s.listeners

theorem Quiet.silent (quiet : Quiet s (s.perform request)) (mailbox : Mailbox) : Silent s request mailbox where
  sends := quiet.sends mailbox
  online := quiet.1
  listens there := quiet.2.1 ▸ there

/-- A mailbox hears of the session when it begins to listen, when the availability changes and when the
session is lost, and at no other time. -/
theorem silent_of_apart (old : request ≠ .watchState mailbox)
    (steady : ∀ online, request = .setOnline online → s.online = online) (kept : request ≠ .expire) :
    Silent s request mailbox := by
  cases request with
  | create path ephemeral => exact (s.quiet_create path ephemeral).silent mailbox
  | delete path => exact (s.quiet_delete path).silent mailbox
  | setData path data => exact (s.quiet_setData path data).silent mailbox
  | watchChildren path receiver => exact (s.quiet_watchChildren path receiver).silent mailbox
  | unwatch | openMailbox => exact Quiet.silent ⟨rfl, rfl, [], (List.append_nil _).symm, fun _ => rfl⟩ mailbox
  | watchState listener =>
      have other : listener ≠ mailbox := fun same => old (congrArg Request.watchState same)
      refine ⟨by rw [sends_watchState, if_neg other], rfl, fun listens => ?_⟩
      exact (List.mem_append.1 listens).resolve_right fun new => other (List.mem_singleton.1 new).symm
  | setOnline online =>
      have same := steady online rfl
      refine ⟨by rw [sends_setOnline, if_pos same], ?_, ?_⟩
      · rw [perform, setOnline, if_pos same]
      · rw [perform, setOnline, if_pos same]
        exact id
  | expire => exact absurd rfl kept
  | closeMailbox closed =>
      have shorter : (s.perform (.closeMailbox closed)).outbox.length ≤ s.outbox.length :=
        List.length_filter_le ..
      exact ⟨sends_of_shorter shorter mailbox, rfl, fun listens => (List.mem_filter.1 listens).1⟩
  | takeNotice wanted =>
      obtain ⟨online, listeners, shorter⟩ := s.takeNotice_frame wanted
      exact ⟨sends_of_shorter shorter mailbox, online, fun listens => listeners ▸ listens⟩

theorem online_setOnline (s : Store) (online : Bool) : (s.setOnline online).online = online := by
  rcases setOnline_cases s online with ⟨same, still⟩ | ⟨_, changed⟩
  · rw [still, same]
  · rw [changed]
    rfl

theorem online_expire (s : Store) : s.expire.online = s.online := by
  simp only [expire, foldl_sendParent_eq, sendState]

theorem listeners_expire (s : Store) : s.expire.listeners = s.listeners := by
  simp only [expire, foldl_sendParent_eq, sendState]

/-- A mailbox that listens hears of the loss of a session that it is over. -/
theorem getLast?_sends_expire (listens : mailbox ∈ s.listeners) :
    (s.sends .expire mailbox).getLast? = some .reconnected := by
  have counted := List.count_pos_iff.2 listens
  rw [sends_expire, List.getLast?_append, List.getLast?_replicate, if_neg (by omega), Option.some_or]

theorem getLast?_sends_setOnline {online : Bool} (changed : s.online = !online)
    (listens : mailbox ∈ s.listeners) :
    (s.sends (.setOnline online) mailbox).getLast? =
      some (if online then .reconnected else .disconnected) := by
  have counted := List.count_pos_iff.2 listens
  have differs : s.online ≠ online := by
    rw [changed]
    cases online <;> decide
  rw [sends_setOnline, if_neg differs, List.getLast?_replicate, if_neg (by omega)]

end Sending

section Runs

theorem heard_append_singleton (mailbox : Mailbox) (s : Store) (requests : List Request) (request : Request) :
    heard mailbox s (requests ++ [request]) =
      heard mailbox s requests ++ (requests.foldl perform s).sends request mailbox := by
  induction requests generalizing s with
  | nil => simp [heard]
  | cons first rest ih => rw [List.cons_append, heard, ih, heard, List.append_assoc, List.foldl_cons]

theorem misled_append_singleton : Misled (requests ++ [request]) mailbox ↔
    (request = .expire ∧ mailbox ∈ (after requests).listeners ∧ (after requests).online = false) ∨
    (Misled requests mailbox ∧ request ≠ .setOnline true ∧ request ≠ .watchState mailbox) := by
  constructor
  · rintro ⟨done, rest, whole, listens, offline, away, old⟩
    rcases List.eq_nil_or_concat rest with rfl | ⟨before, last, rfl⟩
    · obtain ⟨rfl, same⟩ := List.append_inj' whole rfl
      exact .inl ⟨(List.cons.inj same).1, listens, offline⟩
    · rw [List.concat_eq_append, ← List.cons_append, ← List.append_assoc] at whole
      obtain ⟨rfl, same⟩ := List.append_inj' whole rfl
      obtain ⟨rfl, _⟩ := List.cons.inj same
      rw [List.concat_eq_append, List.mem_append, not_or] at away old
      refine .inr ⟨⟨done, before, rfl, listens, offline, away.1, old.1⟩, ?_, ?_⟩
      · exact fun same => away.2 (List.mem_singleton.2 same.symm)
      · exact fun same => old.2 (List.mem_singleton.2 same.symm)
  · rintro (⟨rfl, listens, offline⟩ | ⟨⟨done, rest, rfl, listens, offline, away, old⟩, not_back, not_new⟩)
    · exact ⟨requests, [], rfl, listens, offline, List.not_mem_nil, List.not_mem_nil⟩
    · refine ⟨done, rest ++ [request], by simp, listens, offline, ?_, ?_⟩
      · simp [away, not_back.symm]
      · simp [old, not_new.symm]

/-- A store that is offline stays so until it is brought back. -/
theorem offline_perform (offline : s.online = false) (away : request ≠ .setOnline true) :
    (s.perform request).online = false := by
  have silent (apart : ∀ mailbox, Silent s request mailbox) : (s.perform request).online = false :=
    (apart 0).online.trans offline
  cases request with
  | watchState listener => exact offline
  | setOnline online =>
      cases online with
      | true => exact absurd rfl away
      | false => exact s.online_setOnline false
  | expire => exact s.online_expire.trans offline
  | _ => exact silent fun mailbox => silent_of_apart nofun nofun nofun

theorem Misled.offline (misled : Misled requests mailbox) : (after requests).online = false := by
  obtain ⟨done, rest, rfl, _, offline, away, _⟩ := misled
  have stays : ∀ (rest : List Request) (s : Store), s.online = false → .setOnline true ∉ rest →
      (rest.foldl perform s).online = false := by
    intro rest
    induction rest with
    | nil => exact fun s offline _ => offline
    | cons request rest ih =>
        intro s offline away
        obtain ⟨here, later⟩ := not_or.1 (mt List.mem_cons.2 away)
        exact ih _ (offline_perform offline fun same => here same.symm) later
  rw [after, List.foldl_append]
  refine stays _ _ offline fun member => ?_
  rcases List.mem_cons.1 member with same | later
  · cases same
  · exact away later

/-- The last that a listener has heard, and when it is true of the store. -/
structure Informed (requests : List Request) (mailbox : Mailbox) (state : SessionState) : Prop where
  last : (heard mailbox {} requests).getLast? = some state
  away : state = .disconnected ↔ (after requests).online = false ∧ ¬ Misled requests mailbox
  misled : Misled requests mailbox → state = .reconnected

theorem last_heard_append {state : SessionState}
    (last : ((after requests).sends request mailbox).getLast? = some state) :
    (heard mailbox {} (requests ++ [request])).getLast? = some state := by
  rw [heard_append_singleton, List.getLast?_append]
  exact (congrArg (Option.or · _) last).trans (Option.some_or ..)

theorem informed_watchState (requests : List Request) (mailbox : Mailbox) :
    Informed (requests ++ [.watchState mailbox]) mailbox (after requests).currentState := by
  have trusting : ¬ Misled (requests ++ [.watchState mailbox]) mailbox := by
    rw [misled_append_singleton]
    rintro (⟨⟨⟩, _⟩ | ⟨_, _, old⟩)
    exact old rfl
  refine ⟨last_heard_append ?_, ?_, fun misled => absurd misled trusting⟩
  · rw [sends_watchState, if_pos rfl]
    rfl
  · rw [and_iff_left trusting, after_append_singleton, currentState]
    show _ ↔ (after requests).online = false
    cases (after requests).online <;> simp

theorem informed_expire (listens : mailbox ∈ (after requests).listeners) :
    Informed (requests ++ [.expire]) mailbox .reconnected := by
  refine ⟨last_heard_append (getLast?_sends_expire listens), ?_, fun _ => rfl⟩
  rw [misled_append_singleton, after_append_singleton, perform, online_expire]
  refine iff_of_false (by decide) ?_
  rintro ⟨offline, trusting⟩
  exact trusting (.inl ⟨rfl, listens, offline⟩)

theorem informed_setOnline {online : Bool} (changed : (after requests).online = !online)
    (listens : mailbox ∈ (after requests).listeners) :
    Informed (requests ++ [.setOnline online]) mailbox (if online then .reconnected else .disconnected) := by
  have now : (after (requests ++ [.setOnline online])).online = online := by
    rw [after_append_singleton]
    exact online_setOnline _ online
  have trusting : ¬ Misled (requests ++ [.setOnline online]) mailbox := by
    rw [misled_append_singleton]
    rintro (⟨⟨⟩, _⟩ | ⟨misled, back, _⟩)
    have was := misled.offline
    rw [changed] at was
    cases online with
    | true => exact back rfl
    | false => cases was
  refine ⟨last_heard_append (getLast?_sends_setOnline changed listens), ?_, fun misled => absurd misled trusting⟩
  rw [and_iff_left trusting, now]
  cases online <;> simp

/-- What is known stays known while nothing is said. -/
theorem Informed.silent {state : SessionState} (informed : Informed requests mailbox state)
    (silent : Silent (after requests) request mailbox) (old : request ≠ .watchState mailbox)
    (steady : ∀ online, request = .setOnline online → (after requests).online = online)
    (kept : request ≠ .expire) : Informed (requests ++ [request]) mailbox state := by
  have same : Misled (requests ++ [request]) mailbox ↔ Misled requests mailbox := by
    rw [misled_append_singleton]
    constructor
    · rintro (⟨lost, _⟩ | ⟨misled, _⟩)
      · exact absurd lost kept
      · exact misled
    · intro misled
      refine .inr ⟨misled, fun back => ?_, old⟩
      cases misled.offline.symm.trans (steady true back)
  refine ⟨?_, ?_, fun misled => informed.misled (same.1 misled)⟩
  · rw [heard_append_singleton]
    show ((_ ++ (after requests).sends request mailbox).getLast?) = _
    rw [silent.sends, List.append_nil]
    exact informed.last
  · rw [same, after_append_singleton, silent.online]
    exact informed.away

theorem exists_informed (requests : List Request) (listens : mailbox ∈ (after requests).listeners) :
    ∃ state, Informed requests mailbox state := by
  -- The induction takes the last request away; that request speaks of the session, or what was heard stands.
  induction requests using List.reverseRecOn with
  | nil => cases listens
  | append_singleton requests request ih =>
      rw [after_append_singleton] at listens
      by_cases new : request = .watchState mailbox
      · subst new
        exact ⟨_, informed_watchState requests mailbox⟩
      by_cases lost : request = .expire
      · subst lost
        rw [perform, listeners_expire] at listens
        exact ⟨_, informed_expire listens⟩
      by_cases steady : ∀ online, request = .setOnline online → (after requests).online = online
      · have silent := silent_of_apart new steady lost
        obtain ⟨state, informed⟩ := ih (silent.listens listens)
        exact ⟨state, informed.silent silent new steady lost⟩
      · simp only [not_forall] at steady
        obtain ⟨online, rfl, other⟩ := steady
        rcases setOnline_cases (after requests) online with ⟨same, _⟩ | ⟨changed, sent⟩
        · exact absurd same other
        · rw [perform, sent] at listens
          exact ⟨_, informed_setOnline changed listens⟩

/-- That the store is back is told of a store that is, or of a session that is lost. -/
theorem online_of_reconnected (told : .reconnected ∈ s.sends request mailbox) :
    (s.perform request).online = true ∨ request = .expire := by
  by_cases new : request = .watchState mailbox
  · subst new
    rw [sends_watchState, if_pos rfl, List.mem_singleton, currentState] at told
    split at told <;> cases told
  by_cases lost : request = .expire
  · exact .inr lost
  by_cases steady : ∀ online, request = .setOnline online → s.online = online
  · rw [(silent_of_apart new steady lost).sends] at told
    cases told
  · simp only [not_forall] at steady
    obtain ⟨online, rfl, other⟩ := steady
    rw [sends_setOnline, if_neg other] at told
    have back := (List.mem_replicate.1 told).2
    cases online with
    | false => cases back
    | true => exact .inl (s.online_setOnline true)

/-- Every listener has heard something, and the last of it is that the store is away exactly if this is so
and the listener has not been misled. A listener that has been misled has heard last that an offline store is
back. That a store is back is told of one that is, or when the session is lost. -/
theorem last_heard (requests : List Request) :
    (∀ mailbox ∈ (after requests).listeners, ∃ state,
      (heard mailbox {} requests).getLast? = some state ∧
      (state = .disconnected ↔ (after requests).online = false ∧ ¬ Misled requests mailbox) ∧
      (Misled requests mailbox → (after requests).online = false ∧ state = .reconnected)) ∧
    ∀ request mailbox, .reconnected ∈ (after requests).sends request mailbox →
      ((after requests).perform request).online = true ∨ request = .expire := by
  refine ⟨fun mailbox listens => ?_, fun request mailbox => online_of_reconnected⟩
  obtain ⟨state, last, away, misled⟩ := exists_informed requests listens
  exact ⟨state, last, away, fun deceived => ⟨deceived.offline, misled deceived⟩⟩

/-- The session is lost while the store is offline. -/
def lostAway : List Request := [.openMailbox, .watchState 0, .setOnline false, .expire]

theorem lostAway_misreported :
    0 ∈ (after lostAway).listeners ∧
      ¬ ((heard 0 {} lostAway).getLast? = some .disconnected ↔ (after lostAway).online = false) := by
  decide +kernel

/-- Then another one begins to listen, and the store comes back and goes away again. -/
def awayAgain : List Request := lostAway ++ [.watchState 1, .setOnline true, .setOnline false]

theorem awayAgain_heard :
    Misled lostAway 0 ∧ ¬ Misled awayAgain 0 ∧
      (heard 0 {} awayAgain).getLast? = some .disconnected ∧
      (heard 1 {} awayAgain).getLast? = some .disconnected := by
  have misled : Misled lostAway 0 :=
    ⟨[.openMailbox, .watchState 0, .setOnline false], [], rfl, by decide +kernel, by decide +kernel,
      List.not_mem_nil, List.not_mem_nil⟩
  obtain ⟨state, last, away, deceived⟩ := (last_heard awayAgain).1 0 (by decide +kernel)
  have disconnected : (heard 0 {} awayAgain).getLast? = some .disconnected := by decide +kernel
  cases last.symm.trans disconnected
  exact ⟨misled, (away.1 rfl).2, disconnected, by decide +kernel⟩

end Runs

end ServiceGovernance.Store
