import ServiceGovernance.Proofs.Balance.Idling
import ServiceGovernance.Proofs.Dispatch.Selection

/-!
A call that the limiter turns down has had its turn at the balancer by then. The providers that the other
calls get are therefore what the balancer picks over the whole run, with the picks of the rejected calls
left out; leaving the rejected calls out of the run gives the same providers if none of them has changed
the balancer.
-/

namespace ServiceGovernance.Dispatcher

open Admission Balance

/-- What happens between one call and the next, the calls included. -/
inductive Event where
  | call (d : Dispatcher) (method : String)
  | clock (now : UInt64)
  | limit (name : String) (max : Int)
  | configure (settings : Settings)

def isRejection : Except CallFault Endpoint → Bool
  | .error (.rejected ..) => true
  | _ => false

namespace Event

def after (t : Traffic) : Event → Traffic
  | .call d method => (d.select method t).2
  | .clock now => { t with now }
  | .limit name max => t.configureRate name max
  | .configure settings => { t with balancer := { t.balancer with settings } }

/-- The provider that a call is given. -/
def given? (t : Traffic) : Event → Option Endpoint
  | .call d method => (d.select method t).1.toOption
  | _ => none

/-- A call that the limiter turns down. -/
def rejected (t : Traffic) : Event → Bool
  | .call d method => isRejection (d.select method t).1
  | _ => false

/-- What the balancer makes of the event if it alone is asked. -/
def pick (b : Balancer) : Event → Option Endpoint × Balancer
  | .call d method => b.select d.consumer method (d.candidates method) d.scope
  | .configure settings => (none, { b with settings })
  | _ => (none, b)

end Event

/-- The providers that the calls of a run are given, one after the other. -/
def handed (t : Traffic) : List Event → List Endpoint
  | [] => []
  | event :: rest => (event.given? t).toList ++ handed (event.after t) rest

/-- Of each event of a run whether it is a rejected call. -/
def rejections (t : Traffic) : List Event → List Bool
  | [] => []
  | event :: rest => event.rejected t :: rejections (event.after t) rest

/-- The run with its rejected calls left out. -/
def withoutRejected (t : Traffic) : List Event → List Event
  | [] => []
  | event :: rest =>
      if event.rejected t then withoutRejected (event.after t) rest
      else event :: withoutRejected (event.after t) rest

/-- No rejected call of the run has changed the balancer. -/
def Untraced (t : Traffic) : List Event → Prop
  | [] => True
  | event :: rest =>
      (event.rejected t = true → (event.after t).balancer = t.balancer) ∧ Untraced (event.after t) rest

/-- What the balancer picks for the events if it alone is asked, none for an event that is no call. -/
def picks (b : Balancer) : List Event → List (Option Endpoint)
  | [] => []
  | event :: rest => (event.pick b).1 :: picks (event.pick b).2 rest

/-- The picks that are not marked to be left out. -/
def kept (picks : List (Option Endpoint)) (outs : List Bool) : List Endpoint :=
  (picks.zip outs).filterMap fun (pick, out) => if out then none else pick

variable {d : Dispatcher} {method : String} {t u : Traffic} {event : Event} {events : List Event}

section Call

theorem rejected_call (d : Dispatcher) (method : String) (t : Traffic) :
    (Event.call d method).rejected t = isRejection (d.select method t).1 := rfl

/-- A call is rejected exactly if it has a provider to go to and the limiter's window is full. -/
theorem rejected_call_iff (reached : t.balancer.Reached) :
    (Event.call d method).rejected t = true ↔
      d.candidates method ≠ [] ∧ t.rates.Refuses t.now.toNat d.consumer.interface := by
  rw [rejected_call]
  by_cases unrouted : d.candidates method = []
  · simp [isRejection, (select_unrouted unrouted t).1, unrouted]
  · obtain ⟨e, _, _, free, full⟩ := select_routed unrouted reached
    by_cases refuses : t.rates.Refuses t.now.toNat d.consumer.interface
    · obtain ⟨⟨max, answer⟩, _⟩ := full refuses
      simp [isRejection, answer, unrouted, refuses]
    · simp [isRejection, (free refuses).1, refuses]

/-- The balancer is asked before the limiter, and hears nothing of its answer. -/
theorem balancer_select (d : Dispatcher) (method : String) (t : Traffic) :
    (d.select method t).2.balancer =
      (t.balancer.select d.consumer method (d.candidates method) d.scope).2 := by
  cases picked : t.balancer.select d.consumer method (d.candidates method) d.scope with
  | mk answer b =>
      cases answer with
      | none => exact (select_of_none picked).2.1
      | some e => exact (select_of_some picked).2.1

/-- The limiter hears of each call that has a provider to go to. -/
theorem rates_select (reached : t.balancer.Reached) :
    (d.select method t).2.rates =
      if d.candidates method = [] then t.rates else (t.rates.add t.now.toNat d.consumer.interface).2 := by
  split
  · next unrouted => exact (select_unrouted unrouted t).2.2
  · next filled =>
      obtain ⟨e, _, chosen⟩ := reached.answers d.consumer method filled d.scope
      exact (select_of_some (Prod.ext (y := (some e, _)) chosen rfl)).2.2

theorem rates_of_rejected (reached : t.balancer.Reached)
    (rejected : (Event.call d method).rejected t = true) : (d.select method t).2.rates = t.rates := by
  obtain ⟨filled, refuses⟩ := (rejected_call_iff reached).1 rejected
  obtain ⟨_, _, _, _, full⟩ := select_routed filled reached
  exact (full refuses).2

theorem now_select (d : Dispatcher) (method : String) (t : Traffic) : (d.select method t).2.now = t.now := by
  unfold select Traffic.addRequest Traffic.countRejection
  grind

/-- What a call that is not rejected gets is what the balancer has picked. -/
theorem given?_call (d : Dispatcher) (method : String) (t : Traffic) :
    (Event.call d method).given? t =
      if (Event.call d method).rejected t then none
      else (t.balancer.select d.consumer method (d.candidates method) d.scope).1 := by
  rw [rejected_call, Event.given?]
  cases picked : t.balancer.select d.consumer method (d.candidates method) d.scope with
  | mk answer b =>
      cases answer with
      | none =>
          rw [(select_of_none picked).1]
          rfl
      | some e =>
          rw [(select_of_some picked).1]
          rcases t.rates.add_outcome t.now.toNat d.consumer.interface with
            ⟨_, granted, _⟩ | ⟨_, _, refused⟩
          · rw [granted]
            rfl
          · rw [refused]
            rfl

/-- Routing has left a candidate for a rejected call, so what its turn does is that of a full list. -/
theorem balancer_of_rejected (reached : t.balancer.Reached)
    (rejected : (Event.call d method).rejected t = true) :
    (d.select method t).2.balancer = t.balancer ↔
      t.balancer.Idle d.consumer method (d.candidates method) d.scope := by
  rw [balancer_select]
  exact reached.select_eq_self_iff d.consumer method ((rejected_call_iff reached).1 rejected).1 d.scope

end Call

section Event

theorem balancer_after (t : Traffic) (event : Event) :
    (event.after t).balancer = (event.pick t.balancer).2 := by
  cases event with
  | call d method => exact balancer_select d method t
  | clock now => rfl
  | limit name max => rfl
  | configure settings => rfl

theorem reached_after (reached : t.balancer.Reached) (event : Event) :
    (event.after t).balancer.Reached := by
  rw [balancer_after]
  cases event with
  | call d method => exact reached.select d.consumer method (d.candidates method) d.scope
  | clock now => exact reached
  | limit name max => exact reached
  | configure settings => exact reached.configure settings

theorem given?_eq (t : Traffic) (event : Event) :
    event.given? t = if event.rejected t then none else (event.pick t.balancer).1 := by
  cases event with
  | call d method => exact given?_call d method t
  | clock now => rfl
  | limit name max => rfl
  | configure settings => rfl

end Event

section Pace

/-- Two states whose limiters answer alike. Their balancers may be apart, but both can answer. -/
structure Paced (t u : Traffic) : Prop where
  left : t.balancer.Reached
  right : u.balancer.Reached
  rates : t.rates = u.rates
  now : t.now = u.now

theorem Paced.rejected (paced : Paced t u) (event : Event) : event.rejected t = event.rejected u := by
  cases event with
  | call d method =>
      rw [Bool.eq_iff_iff, rejected_call_iff paced.left, rejected_call_iff paced.right, paced.rates,
        paced.now]
  | clock now => rfl
  | limit name max => rfl
  | configure settings => rfl

theorem Paced.after (paced : Paced t u) (event : Event) : Paced (event.after t) (event.after u) where
  left := reached_after paced.left event
  right := reached_after paced.right event
  rates := by
    cases event with
    | call d method =>
        rw [Event.after, Event.after, rates_select paced.left, rates_select paced.right, paced.rates, paced.now]
    | clock now => exact paced.rates
    | limit name max =>
        rw [Event.after, Event.after, Traffic.configureRate, Traffic.configureRate, paced.rates, paced.now]
    | configure settings => exact paced.rates
  now := by
    cases event with
    | call d method => rw [Event.after, Event.after, now_select, now_select, paced.now]
    | clock now => rfl
    | limit name max => exact paced.now
    | configure settings => exact paced.now

/-- A rejected call leaves the limiter as it was. -/
theorem Paced.after_rejected (paced : Paced t u) (rejected : event.rejected t = true) :
    Paced (event.after t) u := by
  cases event with
  | call d method =>
      exact ⟨reached_after paced.left _, paced.right,
        (rates_of_rejected paced.left rejected).trans paced.rates, (now_select d method t).trans paced.now⟩
  | clock now => cases rejected
  | limit name max => cases rejected
  | configure settings => cases rejected

/-- Without its rejected calls, nobody in a run is rejected. -/
theorem Paced.rejections_withoutRejected (paced : Paced t u) (events : List Event) :
    ∀ out ∈ rejections u (withoutRejected t events), out = false := by
  induction events generalizing t u with
  | nil => simp [withoutRejected, rejections]
  | cons event rest ih =>
      rw [withoutRejected]
      split
      · next rejected => exact ih (paced.after_rejected rejected)
      · next admitted =>
          rw [rejections, List.forall_mem_cons, ← paced.rejected event]
          exact ⟨eq_false_of_ne_true admitted, ih (paced.after event)⟩

end Pace

section Run

@[simp]
theorem kept_cons (pick : Option Endpoint) (out : Bool) (more : List (Option Endpoint)) (outs : List Bool) :
    kept (pick :: more) (out :: outs) = (if out then none else pick).toList ++ kept more outs := by
  simp only [kept, List.zip_cons_cons, List.filterMap_cons]
  cases out <;> cases pick <;> rfl

theorem handed_eq_kept (t : Traffic) (events : List Event) :
    handed t events = kept (picks t.balancer events) (rejections t events) := by
  induction events generalizing t with
  | nil => rfl
  | cons event rest ih =>
      rw [handed, picks, rejections, kept_cons, ih, given?_eq, balancer_after]

theorem kept_of_none_out {more : List (Option Endpoint)} {outs : List Bool} (same : more.length = outs.length)
    (none_out : ∀ out ∈ outs, out = false) : kept more outs = more.reduceOption := by
  induction more generalizing outs with
  | nil => rfl
  | cons pick more ih =>
      cases outs with
      | nil => cases same
      | cons out outs =>
          rw [List.forall_mem_cons] at none_out
          rw [kept_cons, none_out.1, ih (Nat.succ.inj same) none_out.2]
          cases pick <;> rfl

theorem length_picks (u : Traffic) (b : Balancer) (events : List Event) :
    (picks b events).length = (rejections u events).length := by
  induction events generalizing b u with
  | nil => rfl
  | cons event rest ih => exact congrArg (· + 1) (ih _ _)

/-- Nothing else is picked without calls that leave the balancer as it is. -/
theorem Untraced.picks_withoutRejected (untraced : Untraced t events) :
    (picks t.balancer (withoutRejected t events)).reduceOption =
      kept (picks t.balancer events) (rejections t events) := by
  induction events generalizing t with
  | nil => rfl
  | cons event rest ih =>
      obtain ⟨still, later⟩ := untraced
      have rest_same := ih later
      rw [withoutRejected, picks, rejections, kept_cons, ← balancer_after, ← rest_same]
      split
      · next rejected =>
          rw [still rejected]
          rfl
      · rw [picks, ← balancer_after]
        cases (event.pick t.balancer).1 <;> rfl

end Run

/-- A rejected call has done to the balancer what its selection does, and nothing to the limiter. The balancer
is the one from before exactly if the selection is one that changes nothing. Over a run the calls that are
not rejected get the balancer's picks without those of the rejected calls. In the run without its rejected
calls nobody is rejected and each call gets the pick of the balancer in that run; these are the same
providers if no rejected call has changed the balancer. -/
theorem throttled_turns (t : Traffic) (reached : t.balancer.Reached) :
    (∀ d method, (Event.call d method).rejected t = true →
      (d.select method t).2.balancer =
        (t.balancer.select d.consumer method (d.candidates method) d.scope).2 ∧
      (d.select method t).2.rates = t.rates ∧
      ((d.select method t).2.balancer = t.balancer ↔
        t.balancer.Idle d.consumer method (d.candidates method) d.scope)) ∧
    ∀ events,
      handed t events = kept (picks t.balancer events) (rejections t events) ∧
      (∀ out ∈ rejections t (withoutRejected t events), out = false) ∧
      handed t (withoutRejected t events) = (picks t.balancer (withoutRejected t events)).reduceOption ∧
      (Untraced t events → handed t (withoutRejected t events) = handed t events) := by
  refine ⟨fun d method rejected => ⟨balancer_select d method t, rates_of_rejected reached rejected,
    balancer_of_rejected reached rejected⟩, fun events => ?_⟩
  have paced : Paced t t := ⟨reached, reached, rfl, rfl⟩
  have none_out := paced.rejections_withoutRejected events
  have shorter : handed t (withoutRejected t events) =
      (picks t.balancer (withoutRejected t events)).reduceOption := by
    rw [handed_eq_kept]
    exact kept_of_none_out (length_picks t _ _) none_out
  refine ⟨handed_eq_kept t events, none_out, shorter, fun untraced => ?_⟩
  rw [shorter, untraced.picks_withoutRejected, handed_eq_kept]

/-- Two providers of one weight. -/
def pair (scope : Scope) : Dispatcher where
  directory := {
    consumer := { protocol := "consumer", host := "c", port := 0, path := "greeter" }
    providers := ["a", "b"].map fun host => { protocol := "tri", host, port := 50051, path := "greeter" } }
  scope

/-- The balancer takes turns, and one request a second is let through. -/
def strict : Traffic where
  balancer := { settings := { global := .roundRobin } }
  rates := RateLimiter.configure {} 0 "greeter" 1
  pool := { idleTimeout := 30 }

/-- Two calls at once and one after the window has passed. -/
def burst (d : Dispatcher) : List Event :=
  [.call d "hello", .call d "hello", .clock 1001, .call d "hello"]

/-- In connection scope the rejected call finds the provider of the first one and leaves no trace. -/
theorem strict_turns :
    strict.balancer.Reached ∧ rejections strict (burst (pair .connection)) = [false, true, false, false] ∧
      Untraced strict (burst (pair .connection)) ∧
      handed strict (withoutRejected strict (burst (pair .connection))) =
        handed strict (burst (pair .connection)) := by
  have reached : strict.balancer.Reached := .start _
  have untraced : Untraced strict (burst (pair .connection)) := by
    refine ⟨?_, ?_, ?_, ?_, trivial⟩ <;> decide +kernel
  exact ⟨reached, by decide +kernel, untraced,
    ((throttled_turns strict reached).2 (burst (pair .connection))).2.2.2 untraced⟩

/-- In request scope the rejected call has taken the turn of the second provider: with it the first one is
handed out twice, without it both are. -/
theorem strict_skips_turn :
    strict.balancer.Reached ∧ rejections strict (burst (pair .request)) = [false, true, false, false] ∧
      ((pair .request).select "hello" ((pair .request).select "hello" strict).2).2.balancer ≠
        ((pair .request).select "hello" strict).2.balancer ∧
      (handed strict (burst (pair .request))).map Endpoint.host = ["a", "a"] ∧
      (handed strict (withoutRejected strict (burst (pair .request)))).map Endpoint.host = ["a", "b"] := by
  refine ⟨.start _, ?_, ?_, ?_, ?_⟩ <;> decide +kernel

end ServiceGovernance.Dispatcher
