import ServiceGovernance.Proofs.Admission.Windows
import ServiceGovernance.Proofs.Balance.Answering
import ServiceGovernance.Traffic

/-!
What a call is answered before a connection is looked for. It misses a provider only where routing has
left none; else the balancer has picked one, and whether it is handed out is the limiter's word.
-/

namespace ServiceGovernance

namespace Admission.RateLimiter

variable {l next : RateLimiter} {now : Nat} {name : String}

/-- The window that stands at this time for the name is full. -/
def Refuses (l : RateLimiter) (now : Nat) (name : String) : Prop :=
  ∃ w, l.windows.get? name = some w ∧ 0 < w.max ∧ w.max ≤ (w.refresh now).count

/-- One request of the name is counted in the window that stands at this time, if the name has a limit;
the windows of all other names are left alone. -/
def Counted (now : Nat) (name : String) (l next : RateLimiter) : Prop :=
  ∀ other, next.windows.get? other =
    if other = name then
      (l.windows.get? name).map fun w =>
        if w.max ≤ 0 then w else { w.refresh now with count := (w.refresh now).count + 1 }
    else l.windows.get? other

/-- A request is counted unless it is refused, and then nothing changes. -/
theorem add_outcome (l : RateLimiter) (now : Nat) (name : String) :
    (¬ l.Refuses now name ∧ (l.add now name).1 = .ok () ∧ Counted now name l (l.add now name).2) ∨
    (l.Refuses now name ∧ ∃ max, l.add now name = (.error (.rejected .rate name max), l)) := by
  rcases l.add_cases now name with
    ⟨off, answered⟩ | ⟨w, found, on, room, answered⟩ | ⟨w, found, on, full, within, answered⟩
  · left
    have idle : ∀ w, l.windows.get? name = some w → w.max ≤ 0 := by
      intro w found
      apply off
      rw [limit?, found, Option.map_some]
    rw [answered]
    refine ⟨?_, rfl, fun other => ?_⟩
    · rintro ⟨w, found, on, _⟩
      have := idle w found
      omega
    · split
      · next here =>
          subst here
          cases found : l.windows.get? other with
          | none => rfl
          | some w => simp [idle w found]
      · rfl
  · left
    rw [answered]
    refine ⟨?_, rfl, fun other => ?_⟩
    · rintro ⟨other, again, _, full⟩
      cases found.symm.trans again
      omega
    · rw [SortedMap.get?_insert, found]
      simp [Int.not_le.2 on]
  · right
    have same : w.refresh now = w := by
      rcases refresh_cases w now with ⟨_, same⟩ | ⟨passed, _⟩
      · exact same
      · omega
    rw [answered, SortedMap.insert_eq_self found]
    exact ⟨⟨w, found, on, by rwa [same]⟩, w.max, rfl⟩

end Admission.RateLimiter

namespace Dispatcher

open Admission Balance

variable {d : Dispatcher} {method : String} {t : Traffic} {b : Balancer} {e : Endpoint}

theorem select_of_none
    (missed : t.balancer.select d.consumer method (d.candidates method) d.scope = (none, b)) :
    (d.select method t).1 = .error (.noProvider d.consumer.serviceKey) ∧
      (d.select method t).2.balancer = b ∧ (d.select method t).2.rates = t.rates := by
  unfold select
  rw [missed]
  exact ⟨rfl, rfl, rfl⟩

/-- What was picked is handed out or held back by the limiter, which hears of one request. -/
theorem select_of_some
    (picked : t.balancer.select d.consumer method (d.candidates method) d.scope = (some e, b)) :
    (d.select method t).1 = (t.rates.add t.now.toNat d.consumer.interface).1.map (fun _ => e) ∧
      (d.select method t).2.balancer = b ∧
      (d.select method t).2.rates = (t.rates.add t.now.toNat d.consumer.interface).2 := by
  unfold select
  rw [picked]
  simp only [Traffic.addRequest]
  cases t.rates.add t.now.toNat d.consumer.interface with
  | mk answer rates =>
      cases answer with
      | ok => exact ⟨rfl, rfl, rfl⟩
      | error fault =>
          simp only [Traffic.countRejection]
          split <;> exact ⟨rfl, rfl, rfl⟩

theorem select_unrouted (empty : d.candidates method = []) (t : Traffic) :
    (d.select method t).1 = .error (.noProvider d.consumer.serviceKey) ∧
      (d.select method t).2.balancer = t.balancer ∧ (d.select method t).2.rates = t.rates := by
  apply select_of_none
  rw [empty, Balancer.select_nil]

theorem select_routed (filled : d.candidates method ≠ []) (reached : t.balancer.Reached) :
    ∃ e ∈ d.candidates method,
      t.balancer.select d.consumer method (d.candidates method) d.scope =
        (some e, (d.select method t).2.balancer) ∧
      (¬ t.rates.Refuses t.now.toNat d.consumer.interface →
        (d.select method t).1 = .ok e ∧
        RateLimiter.Counted t.now.toNat d.consumer.interface t.rates (d.select method t).2.rates) ∧
      (t.rates.Refuses t.now.toNat d.consumer.interface →
        (∃ max, (d.select method t).1 = .error (.rejected .rate d.consumer.interface max)) ∧
        (d.select method t).2.rates = t.rates) := by
  obtain ⟨e, member, chosen⟩ := reached.answers d.consumer method filled d.scope
  have picked := Prod.ext (y := (some e, _)) chosen rfl
  obtain ⟨answer, balancer, rates⟩ := select_of_some picked
  refine ⟨e, member, balancer ▸ picked, ?_⟩
  rw [answer, rates]
  rcases t.rates.add_outcome t.now.toNat d.consumer.interface with
    ⟨free, granted, counted⟩ | ⟨full, max, refused⟩
  · rw [granted]
    exact ⟨fun _ => ⟨rfl, counted⟩, fun full => absurd full free⟩
  · rw [refused]
    exact ⟨fun free => absurd full free, fun _ => ⟨⟨max, rfl⟩, rfl⟩⟩

/-- A call is told that there is no provider exactly if routing leaves none, and then nothing has been
picked or counted. Else the balancer picks one of the routed providers, and the call gets it with one
request counted for its interface, unless the limiter refuses. -/
theorem select_outcome (d : Dispatcher) (method : String) (t : Traffic) (reached : t.balancer.Reached) :
    ((∃ service, (d.select method t).1 = .error (.noProvider service)) ↔ d.candidates method = []) ∧
    (d.candidates method = [] →
      (d.select method t).1 = .error (.noProvider d.consumer.serviceKey) ∧
      (d.select method t).2.balancer = t.balancer ∧ (d.select method t).2.rates = t.rates) ∧
    (d.candidates method ≠ [] → ∃ e ∈ d.candidates method,
      t.balancer.select d.consumer method (d.candidates method) d.scope =
        (some e, (d.select method t).2.balancer) ∧
      (¬ t.rates.Refuses t.now.toNat d.consumer.interface →
        (d.select method t).1 = .ok e ∧
        RateLimiter.Counted t.now.toNat d.consumer.interface t.rates (d.select method t).2.rates) ∧
      (t.rates.Refuses t.now.toNat d.consumer.interface →
        (∃ max, (d.select method t).1 = .error (.rejected .rate d.consumer.interface max)) ∧
        (d.select method t).2.rates = t.rates)) := by
  refine ⟨⟨fun ⟨service, told⟩ => ?_, fun empty => ⟨_, (select_unrouted empty t).1⟩⟩,
    fun empty => select_unrouted empty t, fun filled => select_routed filled reached⟩
  by_contra filled
  obtain ⟨e, _, _, free, full⟩ := select_routed filled reached
  by_cases refuses : t.rates.Refuses t.now.toNat d.consumer.interface
  · obtain ⟨⟨max, refused⟩, _⟩ := full refuses
    cases told.symm.trans refused
  · cases told.symm.trans (free refuses).1

/-- Two providers behind one address, and a third one. -/
def crowd : List Endpoint :=
  [("a", "east"), ("a", "west"), ("b", "east")].map fun (host, zone) =>
    { protocol := "tri", host, port := 50051, path := "greeter" : Endpoint }.withParam "zone" zone

/-- Calls of `bye` are routed to nobody, those of `hello` to the west. -/
def greeter : Dispatcher where
  directory := {
    consumer := { protocol := "consumer", host := "c", port := 0, path := "greeter" }
    providers := crowd
    rules := [
      { text := "method = bye =>", condition := [⟨"method", false, [.exact "bye".toList]⟩],
        consequence := [] },
      { text := "method = hello => zone = west", condition := [⟨"method", false, [.exact "hello".toList]⟩],
        consequence := [⟨"zone", false, [.exact "west".toList]⟩] }] }
  scope := .connection

/-- The balancer has turned on the whole crowd and stays with the last of it; one request a second is
let through. -/
def rush : Traffic where
  balancer :=
    (Balancer.select
      (Balancer.select { settings := { global := .roundRobin } } greeter.consumer "meet" crowd .request).2
      greeter.consumer "meet" crowd .connection).2
  rates := RateLimiter.configure {} 0 "greeter" 1
  pool := { idleTimeout := 30 }
  now := 7

theorem rush_outcome :
    rush.balancer.Reached ∧ greeter.candidates "bye" = [] ∧ greeter.candidates "hello" ≠ [] ∧
      rush.balancer.remembered? "greeter" crowd = crowd[2]? ∧
      (greeter.select "bye" rush).1 = .error (.noProvider "greeter") ∧
      (∃ e ∈ greeter.candidates "hello", (greeter.select "hello" rush).1 = .ok e) ∧
      ∃ max, (greeter.select "hello" (greeter.select "hello" rush).2).1 =
        .error (.rejected .rate "greeter" max) := by
  have reached : rush.balancer.Reached := ((Balancer.Reached.start _).select _ _ _ _).select _ _ _ _
  have nobody : greeter.candidates "bye" = [] := by decide +kernel
  have somebody : greeter.candidates "hello" ≠ [] := by decide +kernel
  have free : ¬ rush.rates.Refuses rush.now.toNat greeter.consumer.interface := by
    rintro ⟨w, found, _, full⟩
    have window : rush.rates.windows.get? greeter.consumer.interface = some ⟨1, 0, 0⟩ := by decide +kernel
    cases found.symm.trans window
    exact absurd full (by decide)
  obtain ⟨e, member, picked, handed, _⟩ := (select_outcome greeter "hello" rush reached).2.2 somebody
  have next : (greeter.select "hello" rush).2.balancer.Reached := by
    have after := reached.select greeter.consumer "hello" (greeter.candidates "hello") greeter.scope
    rwa [picked] at after
  have full : (greeter.select "hello" rush).2.rates.Refuses (greeter.select "hello" rush).2.now.toNat
      greeter.consumer.interface := by
    refine ⟨⟨1, 0, 1⟩, ?_, ?_, ?_⟩ <;> decide +kernel
  obtain ⟨_, _, _, _, refused⟩ :=
    (select_outcome greeter "hello" (greeter.select "hello" rush).2 next).2.2 somebody
  refine ⟨reached, nobody, somebody, by decide +kernel, ?_, ⟨e, member, (handed free).1⟩, (refused full).1⟩
  exact ((select_outcome greeter "bye" rush reached).2.1 nobody).1

end Dispatcher

end ServiceGovernance
