import ServiceGovernance.Proofs.Pool.Timers

/-!
When a pool closes connections. A run takes connections, gives back what is in somebody's hands, clears the
pool and lets time go on. A connection that came back and was kept is closed by the first passing of time
that reaches the end of its timeout, unless it was taken or cleared before; and whatever else is closed is
closed by a clearing, or on its return while another connection is idle for its target.
-/

namespace ServiceGovernance.Pool

/-- A connection is handed out; a handle comes back at a time, and the pool keeps its connection idle or
not; the pool is cleared; time goes on until then. -/
inductive Move where
  | take (taken : Taken)
  | giveBack (handle : Handle) (time : Nat) (kept : Bool)
  | clear
  | pass (time : Nat)
deriving DecidableEq

/-- What is in somebody's hands. -/
def hands : List Move → List Handle
  | [] => []
  | .take taken :: earlier => taken.handle :: hands earlier
  | .giveBack handle _ _ :: earlier => (hands earlier).erase handle
  | .clear :: earlier => hands earlier
  | .pass _ :: earlier => hands earlier

def takings : List Move → List Taken
  | [] => []
  | .take taken :: earlier => taken :: takings earlier
  | _ :: earlier => takings earlier

/-- A failed take is no move. -/
def takeUp (result : Except CallFault Taken) (log : List Move) : List Move :=
  match result with
  | .ok taken => .take taken :: log
  | .error _ => log

/-- The connection of the handle is the idle one of its target. -/
def caches (p : Pool) (handle : Handle) : Bool :=
  (p.idle.get? handle.target).any (·.connection == handle.connection)

/-- The time, and the pool that a run has come to by then, with the moves on the way, the latest first. A
handle is given back by the one who has it. When time goes on, what is due by then fires. -/
inductive Timed (idleTimeout : Nat) (metered : Bool) : Nat → List Move → Pool → Prop where
  | start (now : Nat) : Timed idleTimeout metered now [] (fresh idleTimeout metered)
  | take {now : Nat} {log : List Move} {p : Pool} (before : Timed idleTimeout metered now log p)
      (target : AddressSet) (connecting : Except CallFault Unit) :
      Timed idleTimeout metered now (takeUp (p.take target connecting).1 log) (p.take target connecting).2
  | giveBack {now : Nat} {log : List Move} {p : Pool} (before : Timed idleTimeout metered now log p)
      {handle : Handle} (held : handle ∈ hands log) :
      Timed idleTimeout metered now
        (.giveBack handle now ((p.giveBack now handle).caches handle) :: log) (p.giveBack now handle)
  | clear {now : Nat} {log : List Move} {p : Pool} (before : Timed idleTimeout metered now log p) :
      Timed idleTimeout metered now (.clear :: log) p.clear
  | pass {now : Nat} {log : List Move} {p : Pool} (before : Timed idleTimeout metered now log p) {later : Nat}
      (forward : now ≤ later) : Timed idleTimeout metered later (.pass later :: log) (p.fireDue later)

/-- The move neither takes this connection nor clears the pool. -/
def Move.spares (connection : Nat) : Move → Bool
  | .take taken => taken.handle.connection != connection
  | .clear => false
  | _ => true

/-- The moves since the connection came back at this time and was kept, if nobody has taken it and the pool
has not been cleared since. -/
def KeptSince (handle : Handle) (time : Nat) (since log : List Move) : Prop :=
  ∃ earlier, log = since ++ .giveBack handle time true :: earlier ∧
    ∀ move ∈ since, move.spares handle.connection = true

/-- Among these moves time has gone on to `due` or beyond. -/
def Reaches (due : Nat) (since : List Move) : Prop := ∃ time, .pass time ∈ since ∧ due ≤ time

/-- The connection was kept, and the end of its timeout has not been reached since. -/
def Rests (idleTimeout : Nat) (handle : Handle) (time : Nat) (log : List Move) : Prop :=
  ∃ since, KeptSince handle time since log ∧ ¬ Reaches (time + idleTimeout) since

attribute [ext] Handle

variable {idleTimeout : Nat} {metered : Bool} {now later time due : Nat} {log since : List Move} {p q : Pool}
  {handle : Handle} {move : Move} {connection : Nat}

section Logs

theorem keptSince_cons (kept : KeptSince handle time since (move :: log)) :
    (since = [] ∧ move = .giveBack handle time true) ∨
    ∃ rest, since = move :: rest ∧ move.spares handle.connection = true ∧ KeptSince handle time rest log := by
  obtain ⟨earlier, split, spared⟩ := kept
  cases since with
  | nil => exact .inl ⟨rfl, (List.cons.inj split).1⟩
  | cons first rest =>
      obtain ⟨rfl, rest_split⟩ := List.cons.inj split
      obtain ⟨here, spared⟩ := List.forall_mem_cons.1 spared
      exact .inr ⟨rest, rfl, here, earlier, rest_split, spared⟩

theorem KeptSince.cons (kept : KeptSince handle time since log)
    (spares : move.spares handle.connection = true) : KeptSince handle time (move :: since) (move :: log) := by
  obtain ⟨earlier, rfl, spared⟩ := kept
  exact ⟨earlier, rfl, List.forall_mem_cons.2 ⟨spares, spared⟩⟩

theorem reaches_cons :
    Reaches due (move :: since) ↔ (∃ time, move = .pass time ∧ due ≤ time) ∨ Reaches due since := by
  simp only [Reaches, List.mem_cons, or_and_right, exists_or, eq_comm]

theorem rests_cons : Rests idleTimeout handle time (move :: log) ↔
    move = .giveBack handle time true ∨
    move.spares handle.connection = true ∧ (∀ s, move = .pass s → s < time + idleTimeout) ∧
      Rests idleTimeout handle time log := by
  constructor
  · rintro ⟨since, kept, early⟩
    rcases keptSince_cons kept with ⟨_, returned⟩ | ⟨rest, rfl, spares, kept⟩
    · exact .inl returned
    · rw [reaches_cons, not_or] at early
      exact .inr ⟨spares, fun s passed => Nat.lt_of_not_le fun reached => early.1 ⟨s, passed, reached⟩,
        rest, kept, early.2⟩
  · rintro (rfl | ⟨spares, early, since, kept, still⟩)
    · exact ⟨[], ⟨log, rfl, by simp⟩, by simp [Reaches]⟩
    · refine ⟨move :: since, kept.cons spares, ?_⟩
      rw [reaches_cons, not_or]
      exact ⟨fun ⟨s, passed, reached⟩ => Nat.not_le_of_lt (early s passed) reached, still⟩

theorem rests_take {taken : Taken} : Rests idleTimeout handle time (.take taken :: log) ↔
    taken.handle.connection ≠ handle.connection ∧ Rests idleTimeout handle time log := by
  simp [rests_cons, Move.spares]

theorem rests_giveBack {other : Handle} {kept : Bool} :
    Rests idleTimeout handle time (.giveBack other now kept :: log) ↔
      (other = handle ∧ now = time ∧ kept = true) ∨ Rests idleTimeout handle time log := by
  simp [rests_cons, Move.spares]

theorem not_rests_clear : ¬ Rests idleTimeout handle time (.clear :: log) := by
  simp [rests_cons, Move.spares]

theorem rests_pass : Rests idleTimeout handle time (.pass later :: log) ↔
    later < time + idleTimeout ∧ Rests idleTimeout handle time log := by
  simp [rests_cons, Move.spares]

theorem takings_takeUp (result : Except CallFault Taken) (log : List Move) :
    takings (takeUp result log) = record result (takings log) := by
  cases result <;> rfl

/-- What is in somebody's hands has been handed out. -/
theorem mem_takings_of_mem_hands (held : handle ∈ hands log) : handle ∈ (takings log).map (·.handle) := by
  induction log with
  | nil => cases held
  | cons move log ih =>
      cases move with
      | take taken =>
          rcases List.mem_cons.1 held with rfl | held
          · exact List.mem_cons_self
          · exact List.mem_cons_of_mem _ (ih held)
      | giveBack other time kept => exact ih (List.mem_of_mem_erase held)
      | clear => exact ih held
      | pass time => exact ih held

theorem Timed.run (timed : Timed idleTimeout metered now log p) : Run idleTimeout metered (takings log) p := by
  induction timed with
  | start now => exact .fresh
  | take before target connecting ih =>
      rw [takings_takeUp]
      exact ih.take target connecting
  | giveBack before held ih => exact ih.giveBack (mem_takings_of_mem_hands held) _
  | clear before ih => exact ih.clear
  | pass before forward ih => exact ih.fireDue _

end Logs

section Hands

/-- The pool knows who has a connection. -/
structure Trusting (log : List Move) (p : Pool) : Prop where
  out_iff : ∀ handle, handle ∈ hands log ↔ p.out.get? handle.connection = some handle.target
  distinct : (hands log).Nodup

theorem Trusting.out (trusting : Trusting log p) (held : handle ∈ hands log) :
    handle.connection ∈ p.held .out :=
  mem_out_iff.2 ⟨_, (trusting.out_iff handle).1 held⟩

theorem take_target {target : AddressSet} {connecting : Except CallFault Unit} {taken : Taken}
    (done : (p.take target connecting).1 = .ok taken) : taken.handle.target = target := by
  unfold Pool.take at done
  cases there : p.idle.get? target with
  | some found =>
      rw [there] at done
      cases done
      rfl
  | none =>
      rw [there] at done
      cases connecting <;> cases done
      rfl

theorem Trusting.take (trusting : Trusting log p) (run : Run idleTimeout metered (takings log) p)
    (target : AddressSet) (connecting : Except CallFault Unit) :
    Trusting (takeUp (p.take target connecting).1 log) (p.take target connecting).2 := by
  rcases p.out_take_cases target connecting with ⟨fault, failed⟩ | ⟨taken, q, done, out⟩
  · rw [failed]
    exact trusting
  · have new : p.out.get? taken.handle.connection = none := by
      refine out_eq_none fun there => ?_
      exact (run.guards there).2.2 target connecting taken (by rw [done]) rfl
    have aimed : taken.handle.target = target := take_target (by rw [done])
    rw [done]
    constructor
    · intro handle
      rw [out, SortedMap.get?_insert, takeUp, hands, List.mem_cons, trusting.out_iff]
      by_cases same : handle.connection = taken.handle.connection
      · rw [if_pos same, same, new, Handle.ext_iff]
        simp [same, aimed, eq_comm]
      · simp [Handle.ext_iff, same]
    · refine List.nodup_cons.2 ⟨fun member => ?_, trusting.distinct⟩
      rw [trusting.out_iff, new] at member
      cases member

theorem Trusting.giveBack (trusting : Trusting log p) (held : handle ∈ hands log) (now : Nat) (kept : Bool) :
    Trusting (.giveBack handle now kept :: log) (p.giveBack now handle) := by
  refine ⟨fun other => ?_, trusting.distinct.erase handle⟩
  rw [get?_out_giveBack, hands, trusting.distinct.mem_erase_iff, trusting.out_iff]
  have there := (trusting.out_iff handle).1 held
  by_cases same : other.connection = handle.connection
  · rw [if_pos same, same, there, ne_eq, Handle.ext_iff]
    simp [same, eq_comm]
  · simp [Handle.ext_iff, same]

end Hands

section Clock

/-- The pending timers are those of the connections that rest, each due at the end of its timeout. -/
def Ticking (idleTimeout : Nat) (log : List Move) (p : Pool) : Prop :=
  ∀ handle time, Rests idleTimeout handle time log ↔
    ∃ timer ∈ p.timers, timer.handle = handle ∧ timer.due = time + idleTimeout

/-- What was kept to the end of its timeout is closed. -/
def Lapsing (idleTimeout : Nat) (log : List Move) (p : Pool) : Prop :=
  ∀ handle time since, KeptSince handle time since log → Reaches (time + idleTimeout) since →
    handle.connection ∈ p.closed

/-- The pool keeps the time of its idle connections. -/
structure Clocked (idleTimeout : Nat) (log : List Move) (p : Pool) : Prop where
  trusting : Trusting log p
  armed : Armed p
  timeout : p.idleTimeout = idleTimeout
  aged : ∀ timer ∈ p.timers, idleTimeout ≤ timer.due
  ticking : Ticking idleTimeout log p
  lapsing : Lapsing idleTimeout log p

/-- A move lets nothing lapse but what rests until it reaches the end of its timeout. -/
theorem Lapsing.cons (lapsing : Lapsing idleTimeout log p) (more : p.closed ⊆ q.closed)
    (passed : ∀ s handle time, move = .pass s → Rests idleTimeout handle time log → time + idleTimeout ≤ s →
      handle.connection ∈ q.closed) : Lapsing idleTimeout (move :: log) q := by
  intro handle time since kept reached
  rcases keptSince_cons kept with ⟨rfl, _⟩ | ⟨rest, rfl, _, kept⟩
  · obtain ⟨s, absurd_member, _⟩ := reached
    cases absurd_member
  · by_cases before : Reaches (time + idleTimeout) rest
    · exact more (lapsing handle time rest kept before)
    · obtain ⟨s, passes, due⟩ := (reaches_cons.1 reached).resolve_right before
      exact passed s handle time passes ⟨rest, kept, before⟩ due

theorem clocked_fresh (idleTimeout : Nat) (metered : Bool) :
    Clocked idleTimeout [] (fresh idleTimeout metered) where
  trusting := ⟨by simp [hands, fresh], .nil⟩
  armed := armed_fresh idleTimeout metered
  timeout := rfl
  aged := nofun
  ticking handle time := by simp [Rests, KeptSince, fresh]
  lapsing handle time since kept := by simp [KeptSince] at kept

theorem Clocked.take (clocked : Clocked idleTimeout log p) (run : Run idleTimeout metered (takings log) p)
    (target : AddressSet) (connecting : Except CallFault Unit) :
    Clocked idleTimeout (takeUp (p.take target connecting).1 log) (p.take target connecting).2 := by
  have trusting := clocked.trusting.take run target connecting
  obtain ⟨closed, timeout⟩ := p.take_frame target connecting
  have timeout := timeout.trans clocked.timeout
  have kept := run.accounted
  rcases clocked.armed.take_cases target connecting with
    ⟨fault, failed⟩ | ⟨timer, pending, q, reused, armed, timers⟩ | ⟨q, opened, armed, timers⟩
  · rw [failed]
    exact clocked
  · rw [reused] at trusting closed timeout ⊢
    refine ⟨trusting, armed, timeout, fun other left => ?_, fun handle time => ?_,
      clocked.lapsing.cons (by rw [closed]; exact List.Subset.refl _) nofun⟩
    · rw [timers] at left
      exact clocked.aged other (List.mem_of_mem_filter left)
    · rw [takeUp, rests_take, clocked.ticking handle time, timers]
      constructor
      · rintro ⟨apart, other, member, rfl, due⟩
        refine ⟨other, List.mem_filter.2 ⟨member, bne_iff_ne.2 fun same => apart ?_⟩, rfl, due⟩
        rw [clocked.armed.eq_of_serial member pending same]
      · rintro ⟨other, left, rfl, due⟩
        obtain ⟨member, unequal⟩ := List.mem_filter.1 left
        refine ⟨fun same => bne_iff_ne.1 unequal ?_, other, member, rfl, due⟩
        rw [clocked.armed.eq_of_connection kept pending member same]
  · rw [opened] at trusting closed timeout ⊢
    refine ⟨trusting, armed, timeout, by rw [timers]; exact clocked.aged, fun handle time => ?_,
      clocked.lapsing.cons (by rw [closed]; exact List.Subset.refl _) nofun⟩
    rw [takeUp, rests_take, clocked.ticking handle time, timers]
    refine and_iff_right_of_imp ?_
    rintro ⟨timer, pending, rfl, _⟩ same
    have idle := clocked.armed.mem_idle_iff.2 ⟨timer, pending, rfl⟩
    have old := kept.numbers.2 _ (kept.ledger.mem_iff.1 (mem_ledger_iff.2 ⟨.idle, idle⟩))
    exact Nat.ne_of_gt old same

theorem Clocked.giveBack (clocked : Clocked idleTimeout log p) (run : Run idleTimeout metered (takings log) p)
    (held : handle ∈ hands log) (now : Nat) :
    Clocked idleTimeout (.giveBack handle now ((p.giveBack now handle).caches handle) :: log)
      (p.giveBack now handle) := by
  have trusting := clocked.trusting.giveBack held now ((p.giveBack now handle).caches handle)
  have timeout := (idleTimeout_giveBack p now handle).trans clocked.timeout
  have out := clocked.trusting.out held
  rcases clocked.armed.giveBack_cases out now with
    ⟨found, there, armed, idle, timers, closed⟩ | ⟨vacant, armed, idle, timers, closed⟩
  · -- The other connection is the one that is cached.
    have apart : found.connection ≠ handle.connection := fun same =>
      (run.guards out).1 (mem_held_idle_iff.2 ⟨_, _, there, same⟩)
    refine ⟨trusting, armed, timeout, by rw [timers]; exact clocked.aged, fun other time => ?_,
      clocked.lapsing.cons (by rw [closed]; exact List.subset_append_left _ _) nofun⟩
    rw [rests_giveBack, clocked.ticking other time, timers, caches, idle, there]
    simp [apart]
  · refine ⟨trusting, armed, timeout, fun timer left => ?_, fun other time => ?_,
      clocked.lapsing.cons (by rw [closed]; exact List.Subset.refl _) nofun⟩
    · rw [timers, List.mem_append, List.mem_singleton] at left
      rcases left with pending | rfl
      · exact clocked.aged timer pending
      · exact clocked.timeout ▸ Nat.le_add_left ..
    · rw [rests_giveBack, clocked.ticking other time, timers, caches, idle, SortedMap.get?_insert, if_pos rfl,
        clocked.timeout]
      simp only [Option.any_some, beq_self_eq_true, and_true, List.mem_append, List.mem_singleton,
        or_and_right, exists_or, exists_eq_left, Nat.add_right_cancel_iff]
      exact or_comm

theorem Clocked.clear (clocked : Clocked idleTimeout log p) : Clocked idleTimeout (.clear :: log) p.clear where
  trusting := ⟨clocked.trusting.out_iff, clocked.trusting.distinct⟩
  armed := clocked.armed.clear.1
  timeout := clocked.timeout
  aged := by
    rw [clocked.armed.clear.2]
    nofun
  ticking handle time := by
    rw [clocked.armed.clear.2]
    simp [not_rests_clear]
  lapsing := clocked.lapsing.cons (List.subset_append_left _ _) nofun

theorem Clocked.pass (clocked : Clocked idleTimeout log p) (later : Nat) :
    Clocked idleTimeout (.pass later :: log) (p.fireDue later) := by
  obtain ⟨out, timeout⟩ := p.fireDue_frame later
  obtain ⟨armed, timers, evicted, closed, evicted_iff⟩ := clocked.armed.fireDue later
  refine ⟨⟨fun handle => ?_, clocked.trusting.distinct⟩, armed, timeout.trans clocked.timeout,
    fun timer left => clocked.aged timer ((timers timer).1 left).1, fun handle time => ?_,
    clocked.lapsing.cons ?_ ?_⟩
  · rw [out]
    exact clocked.trusting.out_iff handle
  · rw [rests_pass, clocked.ticking handle time]
    constructor
    · rintro ⟨early, timer, pending, same, due⟩
      exact ⟨timer, (timers timer).2 ⟨pending, due ▸ early⟩, same, due⟩
    · rintro ⟨timer, left, same, due⟩
      obtain ⟨pending, early⟩ := (timers timer).1 left
      exact ⟨due ▸ early, timer, pending, same, due⟩
  · rw [closed]
    exact List.subset_append_left _ _
  · rintro s handle time ⟨⟩ rests reached
    obtain ⟨timer, pending, rfl, due⟩ := (clocked.ticking handle time).1 rests
    rw [closed, List.mem_append, evicted_iff]
    exact .inr ⟨timer, pending, due ▸ reached, rfl⟩

theorem Timed.clocked (timed : Timed idleTimeout metered now log p) : Clocked idleTimeout log p := by
  induction timed with
  | start now => exact clocked_fresh idleTimeout metered
  | take before target connecting ih => exact ih.take before.run target connecting
  | giveBack before held ih => exact ih.giveBack before.run held _
  | clear before ih => exact ih.clear
  | @pass now log p before later forward ih => exact ih.pass later

theorem Clocked.rests_of_pending (clocked : Clocked idleTimeout log p) {timer : EvictionTimer}
    (pending : timer ∈ p.timers) :
    ∃ time, Rests idleTimeout timer.handle time log ∧ timer.due = time + idleTimeout := by
  have due : timer.due = timer.due - idleTimeout + idleTimeout :=
    (Nat.sub_add_cancel (clocked.aged timer pending)).symm
  exact ⟨_, (clocked.ticking _ _).2 ⟨timer, pending, rfl, due⟩, due⟩

theorem Clocked.mem_idle_iff (clocked : Clocked idleTimeout log p) :
    connection ∈ p.held .idle ↔
      ∃ handle time, Rests idleTimeout handle time log ∧ handle.connection = connection := by
  rw [clocked.armed.mem_idle_iff]
  constructor
  · rintro ⟨timer, pending, same⟩
    obtain ⟨time, rests, _⟩ := clocked.rests_of_pending pending
    exact ⟨timer.handle, time, rests, same⟩
  · rintro ⟨handle, time, rests, same⟩
    obtain ⟨timer, pending, rfl, _⟩ := (clocked.ticking handle time).1 rests
    exact ⟨timer, pending, same⟩

end Clock

section Closings

theorem closed_clear (p : Pool) : p.clear.closed = p.closed ++ p.held .idle := by
  simp [Pool.clear, Pool.gauge, held, SortedMap.values]

/-- What has been kept is idle or closed, the latter from the end of its timeout on. -/
theorem Timed.kept_iff (timed : Timed idleTimeout metered now log p) (kept : KeptSince handle time since log) :
    (handle.connection ∈ p.held .idle ↔ ¬ Reaches (time + idleTimeout) since) ∧
      (handle.connection ∈ p.held .closed ↔ Reaches (time + idleTimeout) since) := by
  have clocked := timed.clocked
  have not_both : handle.connection ∈ p.held .idle → handle.connection ∉ p.held .closed :=
    fun idle closed => nomatch place_unique timed.run.accounted.distinct idle closed
  by_cases reached : Reaches (time + idleTimeout) since
  · have closed : handle.connection ∈ p.held .closed := clocked.lapsing handle time since kept reached
    exact ⟨iff_of_false (fun idle => not_both idle closed) (not_not_intro reached), iff_of_true closed reached⟩
  · have idle := clocked.mem_idle_iff.2 ⟨handle, time, ⟨since, kept, reached⟩, rfl⟩
    exact ⟨iff_of_true idle reached, iff_of_false (not_both idle) reached⟩

theorem Timed.closed_giveBack (timed : Timed idleTimeout metered now log p) (held : handle ∈ hands log) :
    (∃ found, p.idle.get? handle.target = some found ∧ found.connection ≠ handle.connection ∧
      (p.giveBack now handle).closed = p.closed ++ [handle.connection]) ∨
    (p.idle.get? handle.target = none ∧ (p.giveBack now handle).closed = p.closed) := by
  have out := timed.clocked.trusting.out held
  rcases timed.clocked.armed.giveBack_cases out now with
    ⟨found, there, _, _, _, closed⟩ | ⟨vacant, _, _, _, closed⟩
  · refine .inl ⟨found, there, fun same => ?_, closed⟩
    exact (timed.run.guards out).1 (mem_held_idle_iff.2 ⟨_, _, there, same⟩)
  · exact .inr ⟨vacant, closed⟩

theorem Clocked.closed_pass (clocked : Clocked idleTimeout log p) (later : Nat) :
    ∃ evicted, (p.fireDue later).closed = p.closed ++ evicted ∧
      ∀ connection, connection ∈ evicted ↔
        ∃ handle time, Rests idleTimeout handle time log ∧ handle.connection = connection ∧
          time + idleTimeout ≤ later := by
  obtain ⟨_, _, evicted, closed, evicted_iff⟩ := clocked.armed.fireDue later
  refine ⟨evicted, closed, fun connection => ?_⟩
  rw [evicted_iff]
  constructor
  · rintro ⟨timer, pending, due, same⟩
    obtain ⟨time, rests, ends⟩ := clocked.rests_of_pending pending
    exact ⟨timer.handle, time, rests, same, ends ▸ due⟩
  · rintro ⟨handle, time, rests, same, due⟩
    obtain ⟨timer, pending, rfl, ends⟩ := (clocked.ticking handle time).1 rests
    exact ⟨timer, pending, ends ▸ due, same⟩

/-- What is idle are the connections that rest. A connection that came back and was kept is idle until time
has reached the end of its timeout, and closed from then on, if it has not been taken or cleared since. What
is in somebody's hands is not closed, and each pending timer is that of the last return of a connection
that rests since. A take closes nothing. What comes back is closed exactly if another connection is idle for
its target. A clearing closes what is idle. And when time goes on, what is closed are the connections
whose timeout ends by then. -/
theorem Timed.closings (timed : Timed idleTimeout metered now log p) :
    (∀ connection, connection ∈ p.held .idle ↔
      ∃ handle time, Rests idleTimeout handle time log ∧ handle.connection = connection) ∧
    (∀ handle time since, KeptSince handle time since log →
      (handle.connection ∈ p.held .idle ↔ ¬ Reaches (time + idleTimeout) since) ∧
      (handle.connection ∈ p.held .closed ↔ Reaches (time + idleTimeout) since)) ∧
    (∀ handle ∈ hands log, handle.connection ∈ p.held .out ∧ handle.connection ∉ p.held .closed) ∧
    (∀ timer ∈ p.timers, ∃ time, Rests idleTimeout timer.handle time log ∧ timer.due = time + idleTimeout) ∧
    (∀ target connecting, (p.take target connecting).2.closed = p.closed) ∧
    (∀ handle ∈ hands log,
      (∃ found, p.idle.get? handle.target = some found ∧ found.connection ≠ handle.connection ∧
        (p.giveBack now handle).closed = p.closed ++ [handle.connection]) ∨
      (p.idle.get? handle.target = none ∧ (p.giveBack now handle).closed = p.closed)) ∧
    p.clear.closed = p.closed ++ p.held .idle ∧
    ∀ later, ∃ evicted, (p.fireDue later).closed = p.closed ++ evicted ∧
      ∀ connection, connection ∈ evicted ↔
        ∃ handle time, Rests idleTimeout handle time log ∧ handle.connection = connection ∧
          time + idleTimeout ≤ later := by
  refine ⟨fun connection => timed.clocked.mem_idle_iff, fun handle time since kept => timed.kept_iff kept,
    fun handle held => ?_, fun timer pending => timed.clocked.rests_of_pending pending,
    fun target connecting => (p.take_frame target connecting).1,
    fun handle held => timed.closed_giveBack held, closed_clear p, timed.clocked.closed_pass⟩
  have out := timed.clocked.trusting.out held
  exact ⟨out, (timed.run.guards out).2.1⟩

def takingUp (target : AddressSet) (m : List Move × Pool) : List Move × Pool :=
  (takeUp (m.2.take target (.ok ())).1 m.1, (m.2.take target (.ok ())).2)

def handingIn (handle : Handle) (now : Nat) (m : List Move × Pool) : List Move × Pool :=
  (.giveBack handle now ((m.2.giveBack now handle).caches handle) :: m.1, m.2.giveBack now handle)

def passing (later : Nat) (m : List Move × Pool) : List Move × Pool :=
  (.pass later :: m.1, m.2.fireDue later)

/-- Two connections to one target come back at 5, the second one as a surplus, and the first one is taken
once more and comes back at 20. -/
def retaken : List Move × Pool :=
  handingIn ⟨1, north⟩ 20 <| takingUp north <| passing 20 <| handingIn ⟨2, north⟩ 5 <|
    handingIn ⟨1, north⟩ 5 <| passing 5 <| takingUp north <| takingUp north ([], fresh 30 true)

theorem timed_retaken : Timed 30 true 20 retaken.1 retaken.2 := by
  have lent : Timed 30 true 5 _ _ :=
    (((Timed.start 0).take north (.ok ())).take north (.ok ())).pass (by decide : 0 ≤ 5)
  have back : Timed 30 true 5 _ _ :=
    (lent.giveBack (show ⟨1, north⟩ ∈ hands _ by decide +kernel)).giveBack
      (show ⟨2, north⟩ ∈ hands _ by decide +kernel)
  exact ((back.pass (by decide : 5 ≤ 20)).take north (.ok ())).giveBack (by decide +kernel)

/-- The timer of the first return would be due at 35, that of the second one is at 50. -/
theorem retaken_closings :
    Timed 30 true 20 retaken.1 retaken.2 ∧ retaken.2.held .closed = [2] ∧ 1 ∈ retaken.2.held .idle ∧
      1 ∉ (passing 35 retaken).2.held .closed ∧ 1 ∉ (passing 49 (passing 35 retaken)).2.held .closed ∧
      1 ∈ (passing 50 (passing 49 (passing 35 retaken))).2.held .closed := by
  have timed := timed_retaken
  have kept : KeptSince ⟨1, north⟩ 20 [] retaken.1 := ⟨retaken.1.tail, by decide +kernel, by simp⟩
  have early : Timed 30 true 35 _ _ := timed.pass (by decide : 20 ≤ 35)
  have late : Timed 30 true 49 _ _ := early.pass (by decide : 35 ≤ 49)
  have kept_early : KeptSince ⟨1, north⟩ 20 [.pass 35] (passing 35 retaken).1 := kept.cons rfl
  have kept_late : KeptSince ⟨1, north⟩ 20 [.pass 49, .pass 35] (passing 49 (passing 35 retaken)).1 :=
    kept_early.cons rfl
  have kept_out : KeptSince ⟨1, north⟩ 20 [.pass 50, .pass 49, .pass 35]
      (passing 50 (passing 49 (passing 35 retaken))).1 := kept_late.cons rfl
  refine ⟨timed, by decide +kernel, ?_, ?_, ?_, ?_⟩
  · refine (timed.closings.2.1 _ _ _ kept).1.2 ?_
    simp [Reaches]
  · refine (not_congr (early.closings.2.1 _ _ _ kept_early).2).2 ?_
    simp [Reaches]
  · refine (not_congr (late.closings.2.1 _ _ _ kept_late).2).2 ?_
    simp [Reaches]
  · refine ((late.pass (by decide : 49 ≤ 50)).closings.2.1 _ _ _ kept_out).2.2 ?_
    exact ⟨50, List.mem_cons_self, by decide⟩

end Closings

end ServiceGovernance.Pool
