import ServiceGovernance.Agent
import ServiceGovernance.Proofs.Admission.Slots
import ServiceGovernance.Proofs.Config.Applying
import ServiceGovernance.Proofs.Dispatch.Selection
import ServiceGovernance.Proofs.Pool.Evictions

/-!
What a call of the agent leaves behind. It takes a request's place in a window, a connection and a slot, one
after the other, and may stop after each of them. The slot is given back before the connection is, and
taking a connection has emptied the idle place of its target, so the connection comes back to that place and
nothing is closed: what others have is as it was.
-/

namespace ServiceGovernance

namespace Admission.ConcurrencyLimiter

variable {l next : ConcurrencyLimiter} {name permit : String} {fault : CallFault}

/-- A permit that is dropped at once leaves every counter as it was. -/
theorem counter_decrease_of_acquire (countable : (l.active name).toNat + 1 < UInt32.size)
    (granted : l.acquire name = (.ok permit, next)) (other : String) :
    (next.decrease permit).counter other = l.counter other := by
  rw [acquire_eq] at granted
  rcases l.increase_cases name with ⟨_, refused⟩ | ⟨_, admitted⟩
  · rw [refused] at granted
    cases granted
  · rw [admitted] at granted
    cases granted
    have added : ((l.counter name).current + 1).toNat = (l.active name).toNat + 1 := by
      rw [UInt32.toNat_add]
      exact Nat.mod_eq_of_lt countable
    have more : (l.counter name).current + 1 ≠ 0 := by
      intro wrapped
      rw [wrapped] at added
      exact Nat.succ_ne_zero _ added.symm
    rw [decrease, counter_put, counter_put, counter_put, if_pos rfl]
    split
    · next same =>
        subst same
        simp [ActiveCounter.decrease, more]
    · rfl

theorem eq_of_acquire_error (refused : l.acquire name = (.error fault, next)) : next = l := by
  rw [acquire_eq] at refused
  rcases l.increase_cases name with ⟨_, full⟩ | ⟨_, admitted⟩
  · rw [full] at refused
    cases refused
    rfl
  · rw [admitted] at refused
    cases refused

end Admission.ConcurrencyLimiter

namespace Pool

variable {idleTimeout : Nat} {metered : Bool} {history : List Taken} {p q : Pool} {target : AddressSet}
  {taken : Taken} {connecting : Except CallFault Unit} {handle : Handle}

/-- A take that succeeds leaves nothing idle for its target. -/
theorem get?_idle_take (done : p.take target connecting = (.ok taken, q)) (other : AddressSet) :
    q.idle.get? other = if other = target then none else p.idle.get? other := by
  unfold Pool.take at done
  cases there : p.idle.get? target with
  | some found =>
      rw [there] at done
      cases done
      exact SortedMap.get?_erase ..
  | none =>
      rw [there] at done
      cases connecting with
      | error fault => cases done
      | ok =>
          cases done
          split
          · next same => rw [same, there]
          · rfl

/-- What comes back to an empty place is idle there and not closed. -/
theorem giveBack_vacant (out : p.out.get? handle.connection = some target)
    (vacant : p.idle.get? handle.target = none) (now : Nat) :
    (p.giveBack now handle).idle = p.idle.insert handle.target ⟨handle.connection, p.nextTimer⟩ ∧
      (p.giveBack now handle).closed = p.closed := by
  unfold Pool.giveBack
  rw [if_pos (SortedMap.contains_iff.2 ⟨_, out⟩), if_neg (by simp [SortedMap.contains, vacant])]
  exact ⟨rfl, rfl⟩

/-- A connection that is given back right after it was taken is idle for its target. Nobody else's
connection has come or gone, and none is closed. -/
theorem Run.giveBack_of_take (run : Run idleTimeout metered history p)
    (done : p.take target connecting = (.ok taken, q)) (now : Nat) :
    (q.giveBack now taken.handle).out = p.out ∧ (q.giveBack now taken.handle).closed = p.closed ∧
      ∃ timer, ∀ other, (q.giveBack now taken.handle).idle.get? other =
        if other = target then some ⟨taken.handle.connection, timer⟩ else p.idle.get? other := by
  have aimed : taken.handle.target = target := take_target (by rw [done])
  have new : p.out.get? taken.handle.connection = none :=
    out_eq_none fun there => (run.guards there).2.2 target connecting taken (by rw [done]) rfl
  have out : q.out = p.out.insert taken.handle.connection target := by
    rcases p.out_take_cases target connecting with ⟨fault, failed⟩ | ⟨other, next, again, out⟩
    · cases failed.symm.trans done
    · cases again.symm.trans done
      exact out
  have closed : q.closed = p.closed := by
    rw [← (p.take_frame target connecting).1, done]
  have held : q.out.get? taken.handle.connection = some target := by
    rw [out, SortedMap.get?_insert, if_pos rfl]
  -- The connection finds its place empty: either it was idle there and has been taken, or nothing was.
  have vacant : q.idle.get? taken.handle.target = none := by
    rw [get?_idle_take done, if_pos aimed]
  obtain ⟨idle, kept⟩ := giveBack_vacant held vacant now
  refine ⟨?_, kept.trans closed, q.nextTimer, fun other => ?_⟩
  · apply SortedMap.ext
    intro connection
    rw [get?_out_giveBack, out, SortedMap.get?_insert]
    split
    · next same => rw [same, new]
    · rfl
  · rw [idle, aimed, SortedMap.get?_insert, get?_idle_take done]
    split <;> rfl

theorem exists_take (p : Pool) (target : AddressSet) :
    ∃ taken q, p.take target (.ok ()) = (.ok taken, q) := by
  unfold Pool.take
  cases p.idle.get? target with
  | some found => exact ⟨_, _, rfl⟩
  | none => exact ⟨_, _, rfl⟩

end Pool

namespace Agent

open Admission.ConcurrencyLimiter

variable {idleTimeout : Nat} {metered : Bool} {history : List Taken} {t u : Traffic} {d : Dispatcher}
  {name : String}

section Call

theorem frame_select (d : Dispatcher) (method : String) (t : Traffic) :
    (d.select method t).2.pool = t.pool ∧ (d.select method t).2.actives = t.actives := by
  unfold Dispatcher.select Traffic.addRequest Traffic.countRejection
  grind

/-- A slot is had and counted, or it is refused; the pool hears nothing of it. -/
theorem acquire_cases (t : Traffic) (name : String) :
    (∃ permit u, t.acquire name = (.ok permit, u) ∧ u.pool = t.pool ∧
      t.actives.acquire name = (.ok permit, u.actives)) ∨
    ∃ fault u, t.acquire name = (.error fault, u) ∧ u.pool = t.pool ∧ u.actives = t.actives := by
  unfold Traffic.acquire
  cases wanted : t.actives.acquire name with
  | mk answer next =>
      cases answer with
      | ok permit => exact .inl ⟨permit, _, rfl, rfl, rfl⟩
      | error fault =>
          refine .inr ⟨fault, _, rfl, ?_, ?_⟩
          · unfold Traffic.countRejection
            split <;> rfl
          · rw [← eq_of_acquire_error wanted]
            unfold Traffic.countRejection
            split <;> rfl

/-- A call ends with its selection, or a connection is taken and given back. -/
theorem dispatchOnce_cases (time : Nat) (t : Traffic) (d : Dispatcher) :
    (∃ fault, (d.select "ping" t).1 = .error fault ∧ dispatchOnce time t d = (d.select "ping" t).2) ∨
    ∃ e taken q, (d.select "ping" t).1 = .ok e ∧ (d.connect "ping" (fun _ => .ok ()) t).1 = .ok (e, taken) ∧
      t.pool.take (.single e.address) (.ok ()) = (.ok taken, q) ∧
      (dispatchOnce time t d).pool = q.giveBack time taken.handle ∧
      ((t.actives.active d.consumer.interface).toNat + 1 < UInt32.size →
        ∀ name, (dispatchOnce time t d).actives.counter name = t.actives.counter name) := by
  obtain ⟨same_pool, same_actives⟩ := frame_select d "ping" t
  unfold dispatchOnce Dispatcher.connect
  cases selected : d.select "ping" t with
  | mk answer u =>
      rw [selected] at same_pool same_actives
      simp only at same_pool same_actives
      cases answer with
      | error fault => exact .inl ⟨fault, rfl, rfl⟩
      | ok e =>
          obtain ⟨taken, q, took⟩ := t.pool.exists_take (.single e.address)
          simp only [same_pool, took]
          refine .inr ⟨e, taken, q, rfl, rfl, took, ?_⟩
          rcases acquire_cases { u with pool := q } d.consumer.interface with
            ⟨permit, v, granted, pool, counted⟩ | ⟨fault, v, busy, pool, actives⟩
          · simp only [granted]
            simp only [same_actives] at counted
            exact ⟨congrArg (Pool.giveBack · time taken.handle) pool,
              fun countable => counter_decrease_of_acquire countable counted⟩
          · simp only [busy]
            exact ⟨congrArg (Pool.giveBack · time taken.handle) pool,
              fun _ name => congrArg (·.counter name) (actives.trans same_actives)⟩

/-- Whatever comes of a call, nobody else's connection comes or goes, and none is closed. -/
theorem frame_dispatchOnce (run : Pool.Run idleTimeout metered history t.pool) (d : Dispatcher) (time : Nat) :
    (dispatchOnce time t d).pool.out = t.pool.out ∧ (dispatchOnce time t d).pool.closed = t.pool.closed := by
  rcases dispatchOnce_cases time t d with ⟨fault, _, ended⟩ | ⟨e, taken, q, _, _, took, pool, _⟩
  · rw [ended, (frame_select d "ping" t).1]
    exact ⟨rfl, rfl⟩
  · rw [pool]
    obtain ⟨out, closed, _⟩ := run.giveBack_of_take took time
    exact ⟨out, closed⟩

theorem counter_dispatchOnce (countable : (t.actives.active d.consumer.interface).toNat + 1 < UInt32.size)
    (time : Nat) (name : String) :
    (dispatchOnce time t d).actives.counter name = t.actives.counter name := by
  rcases dispatchOnce_cases time t d with ⟨fault, _, ended⟩ | ⟨_, _, _, _, _, _, _, same⟩
  · rw [ended, (frame_select d "ping" t).2]
  · exact same countable name

/-- A call takes its pool on. -/
theorem run_dispatchOnce (run : Pool.Run idleTimeout metered history t.pool) (d : Dispatcher) (time : Nat) :
    ∃ later, Pool.Run idleTimeout metered later (dispatchOnce time t d).pool := by
  rcases dispatchOnce_cases time t d with ⟨fault, _, ended⟩ | ⟨e, taken, q, _, _, took, pool, _⟩
  · rw [ended, (frame_select d "ping" t).1]
    exact ⟨history, run⟩
  · have taking := run.take (.single e.address) (.ok ())
    rw [took] at taking
    rw [pool]
    exact ⟨_, taking.giveBack List.mem_cons_self time⟩

end Call

section Reached

variable {c : Config} {a : Agent} {obstacle : Obstacle}

/-- An agent that has started from the configuration and gone on: its registry changes, rounds are called,
its clock advances, calls from outside are counted, it attends to what is due, or it stops. -/
inductive Reached (c : Config) : Agent → Prop where
  | start {a : Agent} (started : start c = .ok a) : Reached c a
  | change {a : Agent} (before : Reached c a) (s : Synced) : Reached c (a.afterwards s)
  | round {a : Agent} (before : Reached c a) (time : Nat) : Reached c (a.dispatchAll time)
  | advance {a : Agent} (before : Reached c a) (milliseconds : UInt64) :
      Reached c (a.advanceClock milliseconds)
  | hold {a : Agent} (before : Reached c a) (name : String) : Reached c (a.hold name)
  | attend {a : Agent} (before : Reached c a) (time : Nat) : Reached c (a.attend time)
  | stop {a : Agent} (before : Reached c a) : Reached c a.stop

/-- The pool has come from a run and nothing is checked out. -/
def AtRest (idleTimeout : Nat) (p : Pool) : Prop :=
  p.out = .empty ∧ ∃ history, Pool.Run idleTimeout true history p

theorem pool_hear (a : Agent) (told : Delivery) : (a.hear told).traffic.pool = a.traffic.pool := by
  unfold hear Traffic.countNotification
  grind

theorem pool_foldl {α : Type} {step : Agent → α → Agent}
    (keeps : ∀ a x, (step a x).traffic.pool = a.traffic.pool) (xs : List α) (a : Agent) :
    (xs.foldl step a).traffic.pool = a.traffic.pool := by
  induction xs generalizing a with
  | nil => rfl
  | cons x rest ih => exact (ih (step a x)).trans (keeps a x)

/-- What the registry delivers is nothing to the pool. -/
theorem pool_afterwards (a : Agent) (s : Synced) : (a.afterwards s).traffic.pool = a.traffic.pool :=
  pool_foldl pool_hear s.deliveries _

theorem pool_ofConfig (made : ofConfig c = .ok a) :
    a.traffic.pool = Pool.fresh c.pool.idleTimeout.toNat true := by
  unfold ofConfig at made
  dsimp only at made
  cases checked : c.check with
  | error defect =>
      unfold Config.apply at made
      rw [checked] at made
      cases made
  | ok =>
      rw [Config.apply_of_check checked] at made
      cases made
      rfl

theorem pool_publishProvider {b : Agent} {text : String} (published : publishProvider c a text = .ok b) :
    b.traffic.pool = a.traffic.pool := by
  unfold publishProvider at published
  cases read : Endpoint.parse text with
  | error fault =>
      rw [read] at published
      cases published
  | ok e =>
      rw [read] at published
      cases published
      exact pool_afterwards a _

theorem pool_publishRules (a : Agent) (service : ServiceSettings) :
    (a.publishRules service).traffic.pool = a.traffic.pool :=
  pool_foldl (fun b _ => pool_afterwards b _) service.rules a

theorem pool_follow {b : Agent} {service : ServiceSettings} (followed : follow a service = .ok b) :
    b.traffic.pool = a.traffic.pool := by
  unfold follow at followed
  dsimp only at followed
  split at followed
  · cases followed
    exact pool_afterwards _ _
  · cases followed

/-- What every step keeps that succeeds is kept by a chain of them that succeeds. -/
theorem foldlM_keeps {α : Type} {step : Agent → α → Except Obstacle Agent}
    (keeps : ∀ {a b : Agent} {x : α}, step a x = .ok b → b.traffic.pool = a.traffic.pool) (xs : List α)
    {a b : Agent} (done : xs.foldlM step a = .ok b) : b.traffic.pool = a.traffic.pool := by
  induction xs generalizing a with
  | nil =>
      cases done
      rfl
  | cons x rest ih =>
      rw [List.foldlM_cons] at done
      cases first : step a x with
      | error obstacle =>
          rw [first] at done
          cases done
      | ok next =>
          rw [first] at done
          exact (ih done).trans (keeps first)

/-- An agent starts with a pool that nobody has used. -/
theorem pool_start (started : start c = .ok a) : a.traffic.pool = Pool.fresh c.pool.idleTimeout.toNat true := by
  unfold start at started
  cases made : ofConfig c with
  | error obstacle =>
      rw [made] at started
      cases started
  | ok first =>
      rw [made] at started
      cases published : c.providers.foldlM (publishProvider c) first with
      | error obstacle =>
          simp only [bind, Except.bind, published] at started
          cases started
      | ok second =>
          simp only [bind, Except.bind, published] at started
          calc a.traffic.pool
              _ = (c.services.foldl publishRules second).traffic.pool := foldlM_keeps pool_follow _ started
              _ = second.traffic.pool := pool_foldl pool_publishRules _ second
              _ = first.traffic.pool := foldlM_keeps pool_publishProvider _ published
              _ = Pool.fresh c.pool.idleTimeout.toNat true := pool_ofConfig made

theorem AtRest.once (rest : AtRest idleTimeout t.pool) (d : Dispatcher) (time : Nat) :
    AtRest idleTimeout (dispatchOnce time t d).pool := by
  obtain ⟨empty, history, run⟩ := rest
  exact ⟨(frame_dispatchOnce run d time).1.trans empty, run_dispatchOnce run d time⟩

theorem AtRest.round (rest : AtRest idleTimeout t.pool) (dispatchers : List Dispatcher) (time : Nat) :
    AtRest idleTimeout (dispatchers.foldl (dispatchOnce time) t).pool := by
  induction dispatchers generalizing t with
  | nil => exact rest
  | cons d others ih => exact ih (rest.once d time)

/-- After a round every call is counted out again. -/
theorem counter_round (dispatchers : List Dispatcher)
    (countable : ∀ d ∈ dispatchers, (t.actives.active d.consumer.interface).toNat + 1 < UInt32.size)
    (time : Nat) (name : String) :
    (dispatchers.foldl (dispatchOnce time) t).actives.counter name = t.actives.counter name := by
  induction dispatchers generalizing t with
  | nil => rfl
  | cons d others ih =>
      obtain ⟨here, there⟩ := List.forall_mem_cons.1 countable
      have same := counter_dispatchOnce here time
      refine (ih fun other member => ?_).trans (same name)
      rw [Admission.ConcurrencyLimiter.active, same]
      exact there other member

theorem pool_takeNotices (fuel : Nat) (a : Agent) : (takeNotices fuel a).traffic.pool = a.traffic.pool := by
  induction fuel generalizing a with
  | zero => rfl
  | succ fuel ih =>
      unfold takeNotices
      split
      · rfl
      · exact (ih _).trans (pool_afterwards a _)

/-- Between its rounds an agent has no connection out, whatever came of the calls. -/
theorem Reached.atRest (reached : Reached c a) : AtRest c.pool.idleTimeout.toNat a.traffic.pool := by
  induction reached with
  | start started =>
      rw [pool_start started]
      exact ⟨rfl, [], .fresh⟩
  | change before s ih =>
      rw [pool_afterwards]
      exact ih
  | round before time ih =>
      exact ih.round _ time
  | advance before milliseconds ih => exact ih
  | hold before name ih => exact ih
  | @attend a before time ih =>
      have same : (a.attend time).traffic.pool = a.traffic.pool.fireDue time := by
        unfold Agent.attend
        exact congrArg (Pool.fireDue · time) ((pool_afterwards _ _).trans (pool_takeNotices _ a))
      obtain ⟨empty, history, run⟩ := ih
      rw [same]
      exact ⟨(a.traffic.pool.fireDue_frame time).1.trans empty, history, run.fireDue time⟩
  | @stop a before ih =>
      have alone : a.stop.traffic.pool = a.traffic.pool.clear :=
        congrArg Pool.clear (pool_foldl (fun b _ => pool_afterwards b _) _ a)
      obtain ⟨empty, history, run⟩ := ih
      rw [alone]
      exact ⟨empty, history, run.clear⟩

end Reached

section Leaving

/-- What one call leaves as it was, and what it leaves behind. -/
structure CallLeaves (time : Nat) (t : Traffic) (d : Dispatcher) : Prop where
  out : (dispatchOnce time t d).pool.out = t.pool.out
  closed : (dispatchOnce time t d).pool.closed = t.pool.closed
  active : ∀ name, (dispatchOnce time t d).actives.active name = t.actives.active name
  unserved : ∀ fault, (d.select "ping" t).1 = .error fault → (dispatchOnce time t d).pool = t.pool
  served : ∀ e, (d.select "ping" t).1 = .ok e → ∃ taken timer,
    (d.connect "ping" (fun _ => .ok ()) t).1 = .ok (e, taken) ∧
    ∀ target, (dispatchOnce time t d).pool.idle.get? target =
      if target = .single e.address then some ⟨taken.handle.connection, timer⟩
      else t.pool.idle.get? target

theorem callLeaves_of_run (run : Pool.Run idleTimeout metered history t.pool) (d : Dispatcher) (time : Nat)
    (countable : (t.actives.active d.consumer.interface).toNat + 1 < UInt32.size) : CallLeaves time t d where
  out := (frame_dispatchOnce run d time).1
  closed := (frame_dispatchOnce run d time).2
  active name := congrArg (·.current) (counter_dispatchOnce countable time name)
  unserved fault failed := by
    rcases dispatchOnce_cases time t d with ⟨_, _, ended⟩ | ⟨e, _, _, selected, _⟩
    · rw [ended, (frame_select d "ping" t).1]
    · cases failed.symm.trans selected
  served e selected := by
    rcases dispatchOnce_cases time t d with ⟨_, failed, _⟩ | ⟨other, taken, q, again, connected, took, pool, _⟩
    · cases failed.symm.trans selected
    · cases again.symm.trans selected
      obtain ⟨_, _, timer, idle⟩ := run.giveBack_of_take took time
      exact ⟨taken, timer, connected, fun target => pool ▸ idle target⟩

/-- One call, whether it finds no provider, is throttled, is admitted or finds the provider busy, leaves what
is checked out and every count of active calls as they were and closes no connection. A call that gets no
provider leaves the pool alone. A call that gets one obtains a connection, which is idle afterwards for the
provider's address, and what is idle for other targets is the same. Of the pool it is only asked that it
has come from a run, and of the slots that one more can be counted. So it is for every agent that has been
reached, at each call of a round, and then nothing is checked out. -/
theorem dispatchOnce_leaves (d : Dispatcher) (time : Nat) :
    (∀ {idleTimeout : Nat} {metered : Bool} {history : List Taken} {t : Traffic},
      Pool.Run idleTimeout metered history t.pool →
      (t.actives.active d.consumer.interface).toNat + 1 < UInt32.size → CallLeaves time t d) ∧
    ∀ {c : Config} {a : Agent}, Reached c a →
      (∀ name, (a.traffic.actives.active name).toNat + 1 < UInt32.size) → ∀ earlier : List Dispatcher,
        (earlier.foldl (dispatchOnce time) a.traffic).pool.out = .empty ∧
          CallLeaves time (earlier.foldl (dispatchOnce time) a.traffic) d := by
  refine ⟨fun run countable => callLeaves_of_run run d time countable, fun reached countable earlier => ?_⟩
  obtain ⟨empty, history, run⟩ := reached.atRest.round earlier time
  refine ⟨empty, callLeaves_of_run run d time ?_⟩
  rw [Admission.ConcurrencyLimiter.active, counter_round earlier (fun other _ => countable _) time]
  exact countable _

/-- Two connections to `a` are taken, and one of them is back. -/
def shared : List Taken × Pool :=
  Pool.giving ⟨2, .single "a:50051"⟩ <| Pool.taking (.single "a:50051") (.ok ()) <|
    Pool.taking (.single "a:50051") (.ok ()) ([], Pool.fresh 30 true)

/-- The only slot of `greeter` is taken, and one request a second is let through. -/
def errand : Traffic where
  balancer := { settings := { global := .pickFirst } }
  rates := Admission.RateLimiter.configure {} 0 "greeter" 1
  actives := ⟨.ofList [("greeter", { max := 1, current := 1 })]⟩
  pool := shared.2
  now := 7

/-- What the first call leaves. -/
def settled : Traffic := dispatchOnce 9 errand Dispatcher.greeter

/-- An agent that has just started. -/
def started : Agent := (start {}).toOption.getD default

/-- The first call finds the provider busy, the second one is throttled. The connection that somebody has
stays out, and the other one is idle again. The agent that has just started finds at its second call the
connection of its first. -/
theorem errand_leaves :
    Reached {} started ∧
    (dispatchOnce 9 (dispatchOnce 9 started.traffic Dispatcher.greeter) Dispatcher.greeter).pool.out = .empty ∧
    (∃ timer, (dispatchOnce 9 (dispatchOnce 9 started.traffic Dispatcher.greeter)
      Dispatcher.greeter).pool.idle.get? (.single "a:50051") = some ⟨1, timer⟩) ∧
    (∃ fault, (errand.acquire "greeter").1 = .error fault) ∧
    (∃ max, (Dispatcher.greeter.select "ping" settled).1 = .error (.rejected .rate "greeter" max)) ∧
    settled.pool.out = errand.pool.out ∧ settled.actives.active "greeter" = 1 ∧
    (∃ timer, settled.pool.idle.get? (.single "a:50051") = some ⟨2, timer⟩) ∧
    (dispatchOnce 10 settled Dispatcher.greeter).pool = settled.pool ∧
    (dispatchOnce 10 settled Dispatcher.greeter).actives.active "greeter" = 1 := by
  have run : Pool.Run 30 true shared.1 shared.2 :=
    Pool.run_giving ((Pool.Run.fresh.take _ (.ok ())).take _ (.ok ())) (by decide +kernel)
  have countable : (errand.actives.active Dispatcher.greeter.consumer.interface).toNat + 1 < UInt32.size := by
    decide +kernel
  have picked : (Dispatcher.greeter.select "ping" errand).1 =
      .ok (Dispatcher.crowd.head (by decide)) := by
    decide +kernel
  have throttled : (Dispatcher.greeter.select "ping" settled).1 = .error (.rejected .rate "greeter" 1) := by
    decide +kernel
  have first : CallLeaves 9 errand Dispatcher.greeter := (dispatchOnce_leaves Dispatcher.greeter 9).1 run countable
  obtain ⟨taken, timer, connected, idle⟩ := first.served _ picked
  have reused : (Dispatcher.greeter.connect "ping" (fun _ => .ok ()) errand).1.toOption.map
      (·.2.handle.connection) = some 2 := by
    decide +kernel
  rw [connected] at reused
  obtain ⟨later, ran⟩ := run_dispatchOnce (t := errand) run Dispatcher.greeter 9
  have same : settled.actives.active "greeter" = 1 := (first.active "greeter").trans (by decide +kernel)
  have second : CallLeaves 10 settled Dispatcher.greeter :=
    (dispatchOnce_leaves Dispatcher.greeter 10).1 ran (by decide +kernel)
  have reached : Reached {} started := .start rfl
  have free : (0 : UInt32).toNat + 1 < UInt32.size := by decide
  have uncounted : started.traffic.actives = {} := by decide +kernel
  obtain ⟨empty, again⟩ := (dispatchOnce_leaves Dispatcher.greeter 9).2 reached
    (fun name => by rw [uncounted]; exact free) [Dispatcher.greeter]
  rw [List.foldl_cons, List.foldl_nil] at empty again
  obtain ⟨retaken, later_timer, reconnected, idle_again⟩ :=
    again.served (Dispatcher.crowd.head (by decide)) (by decide +kernel)
  have kept : (Dispatcher.greeter.connect "ping" (fun _ => .ok ())
      (dispatchOnce 9 started.traffic Dispatcher.greeter)).1.toOption.map (·.2.handle.connection) = some 1 := by
    decide +kernel
  rw [reconnected] at kept
  refine ⟨reached, again.out.trans empty, ?_, ?_, ⟨1, throttled⟩, first.out, same, ?_,
    second.unserved _ throttled, (second.active "greeter").trans same⟩
  · rw [← show retaken.handle.connection = 1 from Option.some.inj kept]
    exact ⟨later_timer, idle_again _⟩
  · exact ⟨.rejected .concurrency "greeter" 1, by decide +kernel⟩
  · rw [← show taken.handle.connection = 2 from Option.some.inj reused]
    exact ⟨timer, idle _⟩

end Leaving

end Agent

end ServiceGovernance
