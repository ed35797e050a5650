import ServiceGovernance.Proofs.Pool.Leases

/-!
The eviction timers of a pool. Each idle connection has a timer and each timer is that of an idle
connection: a connection that is taken or cleared takes its timer with it. So a timer that fires finds the
connection that it was started for, and what is due at a time is closed and nothing else.
-/

namespace ServiceGovernance.Pool

/-- Every idle connection has a timer of its own, and there are no other timers. -/
structure Armed (p : Pool) : Prop where
  numbered : ∀ timer ∈ p.timers, timer.serial < p.nextTimer
  distinct : (p.timers.map (·.serial)).Nodup
  idle_iff : ∀ target found, p.idle.get? target = some found ↔
    ∃ timer ∈ p.timers, timer.handle = ⟨found.connection, target⟩ ∧ timer.serial = found.timer

variable {idleTimeout : Nat} {metered : Bool} {history : List Taken} {p q : Pool} {target : AddressSet}
  {timer other : EvictionTimer} {connection : Nat}

section Armed

theorem armed_fresh (idleTimeout : Nat) (metered : Bool) : Armed (fresh idleTimeout metered) :=
  ⟨nofun, .nil, by simp [fresh]⟩

theorem Armed.found (armed : Armed p) (pending : timer ∈ p.timers) :
    p.idle.get? timer.handle.target = some ⟨timer.handle.connection, timer.serial⟩ :=
  (armed.idle_iff _ _).2 ⟨timer, pending, rfl, rfl⟩

theorem Armed.eq_of_serial (armed : Armed p) (pending : timer ∈ p.timers) (again : other ∈ p.timers)
    (same : timer.serial = other.serial) : timer = other :=
  List.inj_on_of_nodup_map armed.distinct pending again same

theorem Armed.mem_idle_iff (armed : Armed p) :
    connection ∈ p.held .idle ↔ ∃ timer ∈ p.timers, timer.handle.connection = connection := by
  rw [mem_held_idle_iff]
  constructor
  · rintro ⟨target, found, there, rfl⟩
    obtain ⟨timer, pending, same, _⟩ := (armed.idle_iff target found).1 there
    exact ⟨timer, pending, congrArg Handle.connection same⟩
  · rintro ⟨timer, pending, rfl⟩
    exact ⟨_, _, armed.found pending, rfl⟩

/-- Two timers are for two connections. -/
theorem Armed.eq_of_connection (armed : Armed p) (kept : Accounted metered history p)
    (pending : timer ∈ p.timers) (again : other ∈ p.timers)
    (same : timer.handle.connection = other.handle.connection) : timer = other := by
  have first := armed.found pending
  have second := armed.found again
  have opened : OpenedFor history timer.handle.connection other.handle.target := by
    rw [same]
    exact kept.targets _ _ second
  have targets : timer.handle.target = other.handle.target :=
    kept.target_unique (kept.targets _ _ first) opened
  rw [targets, second] at first
  exact armed.eq_of_serial pending again (congrArg IdleConnection.timer (Option.some.inj first)).symm

/-- A timer goes together with its idle connection. -/
theorem Armed.erase (armed : Armed p) (pending : timer ∈ p.timers)
    (timers : q.timers = p.timers.filter (·.serial != timer.serial))
    (idle : q.idle = p.idle.erase timer.handle.target) (next : q.nextTimer = p.nextTimer) : Armed q where
  numbered other member := by
    rw [timers] at member
    rw [next]
    exact armed.numbered other (List.mem_of_mem_filter member)
  distinct := by
    rw [timers]
    exact armed.distinct.sublist (List.filter_sublist.map _)
  idle_iff target found := by
    rw [idle, SortedMap.get?_erase]
    simp only [timers, List.mem_filter, bne_iff_ne]
    constructor
    · intro there
      split at there
      · cases there
      · next apart =>
          obtain ⟨other, member, same, serial⟩ := (armed.idle_iff target found).1 there
          refine ⟨other, ⟨member, fun equal => apart ?_⟩, same, serial⟩
          rw [← armed.eq_of_serial member pending equal, same]
    · rintro ⟨other, ⟨member, unequal⟩, same, serial⟩
      have there := (armed.idle_iff target found).2 ⟨other, member, same, serial⟩
      rw [if_neg]
      · exact there
      · rintro rfl
        rw [armed.found pending] at there
        exact unequal (serial.trans (congrArg IdleConnection.timer (Option.some.inj there)).symm)

/-- A connection that becomes idle gets a timer with a new number. -/
theorem Armed.insert (armed : Armed p) {handle : Handle} {due : Nat} (vacant : p.idle.get? handle.target = none)
    (timers : q.timers = p.timers ++ [⟨p.nextTimer, handle, due⟩])
    (idle : q.idle = p.idle.insert handle.target ⟨handle.connection, p.nextTimer⟩)
    (next : q.nextTimer = p.nextTimer + 1) : Armed q where
  numbered other member := by
    rw [timers, List.mem_append, List.mem_singleton] at member
    rw [next]
    rcases member with member | rfl
    · exact Nat.lt_succ_of_lt (armed.numbered other member)
    · exact Nat.lt_succ_self _
  distinct := by
    rw [timers, List.map_append, List.map_singleton, List.nodup_append]
    refine ⟨armed.distinct, List.nodup_singleton _, fun serial member new last same => ?_⟩
    obtain ⟨other, pending, rfl⟩ := List.mem_map.1 member
    rw [List.mem_singleton.1 last] at same
    exact Nat.ne_of_lt (armed.numbered other pending) same
  idle_iff target found := by
    rw [idle, SortedMap.get?_insert]
    simp only [timers, List.mem_append, List.mem_singleton]
    split
    · next here =>
        subst here
        constructor
        · rintro ⟨⟩
          exact ⟨_, .inr rfl, rfl, rfl⟩
        · rintro ⟨other, member | rfl, same, serial⟩
          · have there := (armed.idle_iff handle.target found).2 ⟨other, member, same, serial⟩
            rw [vacant] at there
            cases there
          · obtain ⟨connection, number⟩ := found
            have of_handle : handle.connection = connection := congrArg Handle.connection same
            have of_number : p.nextTimer = number := serial
            rw [of_handle, of_number]
    · next apart =>
        rw [armed.idle_iff]
        constructor
        · rintro ⟨other, member, fits⟩
          exact ⟨other, .inl member, fits⟩
        · rintro ⟨other, member | rfl, fits⟩
          · exact ⟨other, member, fits⟩
          · exact absurd (congrArg Handle.target fits.1).symm apart

end Armed

section Operations

variable {connecting : Except CallFault Unit} {handle : Handle} {now : Nat}

/-- What a take can do: fail, hand out the idle connection of the target and drop its timer, or open one. -/
theorem Armed.take_cases (armed : Armed p) (target : AddressSet) (connecting : Except CallFault Unit) :
    (∃ fault, p.take target connecting = (.error fault, p)) ∨
    (∃ timer ∈ p.timers, ∃ q, p.take target connecting = (.ok ⟨timer.handle, false⟩, q) ∧ Armed q ∧
      q.timers = p.timers.filter (·.serial != timer.serial)) ∨
    ∃ q, p.take target connecting = (.ok ⟨⟨p.nextConnection, target⟩, true⟩, q) ∧ Armed q ∧
      q.timers = p.timers := by
  unfold Pool.take
  cases there : p.idle.get? target with
  | some found =>
      obtain ⟨timer, pending, same, serial⟩ := (armed.idle_iff target found).1 there
      have gone : p.idle.erase target = p.idle.erase timer.handle.target := by rw [same]
      simp only [← same, ← serial]
      exact .inr (.inl ⟨timer, pending, _, rfl, armed.erase pending rfl gone rfl, rfl⟩)
  | none =>
      cases connecting with
      | error fault => exact .inl ⟨fault, rfl⟩
      | ok => exact .inr (.inr ⟨_, rfl, ⟨armed.numbered, armed.distinct, armed.idle_iff⟩, rfl⟩)

/-- What comes back is closed if its target has an idle connection already, else its timer starts. -/
theorem Armed.giveBack_cases (armed : Armed p) (out : handle.connection ∈ p.held .out) (now : Nat) :
    (∃ found, p.idle.get? handle.target = some found ∧ Armed (p.giveBack now handle) ∧
      (p.giveBack now handle).idle = p.idle ∧ (p.giveBack now handle).timers = p.timers ∧
      (p.giveBack now handle).closed = p.closed ++ [handle.connection]) ∨
    (p.idle.get? handle.target = none ∧ Armed (p.giveBack now handle) ∧
      (p.giveBack now handle).idle =
        p.idle.insert handle.target ⟨handle.connection, p.nextTimer⟩ ∧
      (p.giveBack now handle).timers = p.timers ++ [⟨p.nextTimer, handle, now + p.idleTimeout⟩] ∧
      (p.giveBack now handle).closed = p.closed) := by
  unfold Pool.giveBack
  rw [if_pos (SortedMap.contains_iff.2 (mem_out_iff.1 out))]
  cases there : p.idle.get? handle.target with
  | some found =>
      rw [if_pos (SortedMap.contains_iff.2 ⟨found, there⟩)]
      exact .inl ⟨found, rfl, ⟨armed.numbered, armed.distinct, armed.idle_iff⟩, rfl, rfl, rfl⟩
  | none =>
      rw [if_neg (by simp [SortedMap.contains, there])]
      exact .inr ⟨rfl, armed.insert there rfl rfl rfl, rfl, rfl, rfl⟩

/-- Nothing is idle in a cleared pool, so no timer is left. -/
theorem Armed.clear (armed : Armed p) : Armed p.clear ∧ p.clear.timers = [] := by
  have none_left : p.clear.timers = [] := by
    refine List.filter_eq_nil_iff.2 fun timer pending => ?_
    have found := SortedMap.mem_values_iff.2 ⟨_, armed.found pending⟩
    rw [List.all_eq_true]
    exact fun all => bne_iff_ne.1 (all _ found) rfl
  refine ⟨⟨?_, ?_, ?_⟩, none_left⟩
  · simp [none_left]
  · simp [none_left]
  · intro target found
    rw [none_left]
    simp [Pool.clear, Pool.gauge]

/-- A pending timer closes the connection that it was started for. -/
theorem Armed.fire (armed : Armed p) (pending : timer ∈ p.timers) :
    Armed (p.fire timer) ∧ (p.fire timer).timers = p.timers.filter (·.serial != timer.serial) ∧
      (p.fire timer).closed = p.closed ++ [timer.handle.connection] := by
  unfold Pool.fire
  rw [armed.found pending]
  simp only [if_true]
  exact ⟨armed.erase pending rfl rfl rfl, rfl, rfl⟩

theorem Armed.foldl_fire (armed : Armed p) {due : List EvictionTimer} (pending : ∀ timer ∈ due, timer ∈ p.timers)
    (apart : due.Nodup) :
    Armed (due.foldl Pool.fire p) ∧
      (due.foldl Pool.fire p).timers = p.timers.filter (· ∉ due) ∧
      (due.foldl Pool.fire p).closed = p.closed ++ due.map (·.handle.connection) := by
  induction due generalizing p with
  | nil => simp [armed]
  | cons timer due ih =>
      obtain ⟨fresh, apart⟩ := List.nodup_cons.1 apart
      have here := pending timer List.mem_cons_self
      obtain ⟨still, timers, closed⟩ := armed.fire here
      have left : ∀ other ∈ due, other ∈ (p.fire timer).timers := by
        intro other member
        have there := pending other (List.mem_cons_of_mem _ member)
        rw [timers, List.mem_filter, bne_iff_ne]
        exact ⟨there, fun same => fresh (armed.eq_of_serial there here same ▸ member)⟩
      obtain ⟨after, remaining, gone⟩ := ih still left apart
      refine ⟨after, ?_, ?_⟩
      · rw [List.foldl_cons, remaining, timers, List.filter_filter]
        apply List.filter_congr
        intro other member
        have serial_iff : other.serial = timer.serial ↔ other = timer :=
          ⟨armed.eq_of_serial member here, congrArg EvictionTimer.serial⟩
        rw [Bool.eq_iff_iff]
        simp [serial_iff, and_comm]
      · rw [List.foldl_cons, gone, closed, List.map_cons, List.append_assoc]
        rfl

/-- What is due is closed, and the timers that are left are due later. -/
theorem Armed.fireDue (armed : Armed p) (now : Nat) :
    Armed (p.fireDue now) ∧
      (∀ timer, timer ∈ (p.fireDue now).timers ↔ timer ∈ p.timers ∧ now < timer.due) ∧
      ∃ evicted, (p.fireDue now).closed = p.closed ++ evicted ∧
        ∀ connection, connection ∈ evicted ↔
          ∃ timer ∈ p.timers, timer.due ≤ now ∧ timer.handle.connection = connection := by
  have due_iff : ∀ timer, timer ∈ (p.timers.filter (·.due ≤ now)).mergeSort (fun a b => a.due ≤ b.due) ↔
      timer ∈ p.timers ∧ timer.due ≤ now := by
    intro timer
    rw [(List.mergeSort_perm _ _).mem_iff, List.mem_filter, decide_eq_true_iff]
  have apart : ((p.timers.filter (·.due ≤ now)).mergeSort fun a b => a.due ≤ b.due).Nodup :=
    (List.mergeSort_perm _ _).nodup_iff.2 ((List.Nodup.of_map _ armed.distinct).filter _)
  obtain ⟨after, timers, closed⟩ := armed.foldl_fire (fun timer member => ((due_iff timer).1 member).1) apart
  refine ⟨after, fun timer => ?_, _, closed, fun connection => ?_⟩
  · unfold Pool.fireDue
    rw [timers, List.mem_filter, decide_eq_true_iff, due_iff]
    constructor
    · rintro ⟨pending, early⟩
      exact ⟨pending, Nat.lt_of_not_le fun due => early ⟨pending, due⟩⟩
    · rintro ⟨pending, later⟩
      exact ⟨pending, fun due => Nat.not_le_of_lt later due.2⟩
  · simp only [List.mem_map, due_iff, and_assoc]

theorem take_frame (p : Pool) (target : AddressSet) (connecting : Except CallFault Unit) :
    (p.take target connecting).2.closed = p.closed ∧
      (p.take target connecting).2.idleTimeout = p.idleTimeout := by
  unfold Pool.take
  cases p.idle.get? target with
  | some found => exact ⟨rfl, rfl⟩
  | none => cases connecting <;> exact ⟨rfl, rfl⟩

theorem idleTimeout_giveBack (p : Pool) (now : Nat) (handle : Handle) :
    (p.giveBack now handle).idleTimeout = p.idleTimeout := by
  unfold Pool.giveBack
  simp only
  split
  · split <;> rfl
  · rfl

theorem idleTimeout_fire (p : Pool) (timer : EvictionTimer) : (p.fire timer).idleTimeout = p.idleTimeout := by
  unfold Pool.fire
  simp only
  split
  · split <;> rfl
  · rfl

/-- What fires leaves the connections that are checked out alone. -/
theorem fireDue_frame (p : Pool) (now : Nat) :
    (p.fireDue now).out = p.out ∧ (p.fireDue now).idleTimeout = p.idleTimeout := by
  unfold Pool.fireDue
  generalize (p.timers.filter _).mergeSort _ = due
  induction due generalizing p with
  | nil => exact ⟨rfl, rfl⟩
  | cons timer due ih =>
      obtain ⟨out, timeout⟩ := ih (p.fire timer)
      exact ⟨out.trans (out_fire p timer), timeout.trans (idleTimeout_fire p timer)⟩

end Operations

end ServiceGovernance.Pool
