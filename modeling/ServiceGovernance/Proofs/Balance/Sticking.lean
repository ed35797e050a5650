import ServiceGovernance.Proofs.Balance.Answering

/-!
What a balancer remembers between calls. Over any calls of any services the remembered address of a service
is the one that its latest connection-scope call with an answer has got. The next such call gets a candidate
with this address if there is one, and takes no turn; else it takes what the mode picks, which is what is
remembered from then on.
-/

namespace ServiceGovernance.Balance.Balancer

/-- A call together with the endpoint that it got. -/
structure Call where
  consumer : Endpoint
  method : String
  candidates : List Endpoint
  scope : Scope
  answer : Option Endpoint

/-- The balancer that a history has come to, with the calls on the way, the latest first. Between the calls
settings change and turns are taken without a call. -/
inductive History : List Call → Balancer → Prop where
  | start (settings : Settings) : History [] { settings }
  | configure {log : List Call} {b : Balancer} (before : History log b) (settings : Settings) :
      History log { b with settings }
  | rotate {log : List Call} {b : Balancer} (before : History log b) (service : String)
      (candidates : List Endpoint) :
      History log { b with roundRobin := (b.roundRobin.select service candidates).2 }
  | select {log : List Call} {b : Balancer} (before : History log b) (consumer : Endpoint) (method : String)
      (candidates : List Endpoint) (scope : Scope) :
      History (⟨consumer, method, candidates, scope, (b.select consumer method candidates scope).1⟩ :: log)
        (b.select consumer method candidates scope).2

/-- The address that the latest connection-scope call of the service has got, calls without an answer apart. -/
def lastAddress? (service : String) : List Call → Option String
  | [] => none
  | call :: earlier =>
      if call.scope = .connection ∧ call.consumer.serviceKey = service then
        (call.answer.map Endpoint.address).or (lastAddress? service earlier)
      else lastAddress? service earlier

/-- The mode picks the endpoint, and these are the turns after that. -/
def Picks (b : Balancer) (service : String) (candidates : List Endpoint) (e : Endpoint) (turns : RoundRobin) :
    Mode → Prop
  | .pickFirst => pickFirst? candidates = some e ∧ turns = b.roundRobin
  | .roundRobin => b.roundRobin.select service candidates = (some e, turns)

variable {log : List Call} {b next : Balancer} {consumer e : Endpoint} {method service : String}
  {candidates : List Endpoint}

section Select

theorem remembered?_eq_none_iff : b.remembered? service candidates = none ↔
    ∀ e ∈ candidates, b.sticky.get? service ≠ some e.address := by
  rw [remembered?]
  cases b.sticky.get? service with
  | none => simp
  | some address =>
      rw [Option.bind_some, List.find?_eq_none]
      simp [eq_comm]

theorem remembered?_spec (kept : b.remembered? service candidates = some e) :
    e ∈ candidates ∧ b.sticky.get? service = some e.address := by
  obtain ⟨address, known, found⟩ := Option.bind_eq_some_iff.1 kept
  have same : e.address = address := by simpa using List.find?_some found
  exact ⟨List.mem_of_find?_eq_some found, same ▸ known⟩

/-- A choice takes a turn at most. -/
theorem choose_snd (b : Balancer) (consumer : Endpoint) (method : String) (candidates : List Endpoint) :
    (b.choose consumer method candidates).2 =
      { b with roundRobin := (b.choose consumer method candidates).2.roundRobin } := by
  unfold choose pick
  split <;> rfl

theorem choose_picks (chosen : (b.choose consumer method candidates).1 = some e) :
    b.Picks consumer.serviceKey candidates e (b.choose consumer method candidates).2.roundRobin
      (b.settings.resolve consumer.interface method candidates) := by
  unfold choose pick at *
  generalize b.settings.resolve consumer.interface method candidates = mode at *
  cases mode with
  | pickFirst => exact ⟨chosen, rfl⟩
  | roundRobin => exact Prod.ext chosen rfl

/-- What is asked for in connection scope is kept where its address was, and else chosen and remembered. -/
theorem select_connection (consumer : Endpoint) (method : String) (keyed : b.roundRobin.Keyed)
    (filled : candidates ≠ []) :
    (∃ e ∈ candidates, b.sticky.get? consumer.serviceKey = some e.address ∧
      b.select consumer method candidates .connection = (some e, b)) ∨
    (∀ e ∈ candidates, b.sticky.get? consumer.serviceKey ≠ some e.address) ∧
      ∃ e ∈ candidates, (b.choose consumer method candidates).1 = some e ∧
        b.select consumer method candidates .connection =
          (some e, (b.choose consumer method candidates).2.remember consumer.serviceKey e) := by
  unfold select
  rw [if_neg (by simpa using filled)]
  cases kept : b.remembered? consumer.serviceKey candidates with
  | some e =>
      obtain ⟨listed, known⟩ := remembered?_spec kept
      exact .inl ⟨e, listed, known, rfl⟩
  | none =>
      obtain ⟨e, listed, chosen⟩ := choose_answers keyed consumer method filled
      refine .inr ⟨remembered?_eq_none_iff.1 kept, e, listed, chosen, ?_⟩
      have answer : b.choose consumer method candidates =
        (some e, (b.choose consumer method candidates).2) := Prod.ext chosen rfl
      rw [answer]

theorem select_request (b : Balancer) (consumer : Endpoint) (method : String) (filled : candidates ≠ []) :
    b.select consumer method candidates .request = b.choose consumer method candidates := by
  unfold select
  rw [if_neg (by simpa using filled)]

theorem sticky_choose (b : Balancer) (consumer : Endpoint) (method : String) (candidates : List Endpoint) :
    (b.choose consumer method candidates).2.sticky = b.sticky := by
  rw [choose_snd]

/-- Only a connection-scope call of the service changes what is remembered for it, to the address that the
call gets. -/
theorem get?_sticky_select (keyed : b.roundRobin.Keyed) (consumer : Endpoint) (method : String)
    (candidates : List Endpoint) (scope : Scope) (service : String) :
    (b.select consumer method candidates scope).2.sticky.get? service =
      if scope = .connection ∧ consumer.serviceKey = service then
        ((b.select consumer method candidates scope).1.map Endpoint.address).or (b.sticky.get? service)
      else b.sticky.get? service := by
  by_cases filled : candidates = []
  · subst filled
    rw [select_nil]
    split <;> rfl
  cases scope with
  | request =>
      rw [select_request b consumer method filled, sticky_choose, if_neg (by simp)]
  | connection =>
      rcases select_connection consumer method keyed filled with
        ⟨e, _, known, answer⟩ | ⟨_, e, _, _, answer⟩
      · rw [answer]
        split
        · next same =>
            rw [← same.2, known]
            rfl
        · rfl
      · rw [answer, remember, SortedMap.get?_insert, sticky_choose]
        by_cases same : consumer.serviceKey = service
        · rw [if_pos same.symm, if_pos ⟨rfl, same⟩]
          rfl
        · rw [if_neg (Ne.symm same), if_neg fun both => same both.2]

end Select

section History

theorem History.reached (history : History log b) : b.Reached := by
  induction history with
  | start settings => exact .start settings
  | configure before settings ih => exact ih.configure settings
  | rotate before service candidates ih => exact ih.rotate service candidates
  | select before consumer method candidates scope ih => exact ih.select consumer method candidates scope

/-- What is remembered is what the latest connection-scope call has got. -/
theorem History.get?_sticky (history : History log b) (service : String) :
    b.sticky.get? service = lastAddress? service log := by
  induction history with
  | start settings => rfl
  | configure before settings ih => exact ih
  | rotate before service candidates ih => exact ih
  | select before consumer method candidates scope ih =>
      rw [get?_sticky_select before.reached.keyed, lastAddress?, ih]

/-- After any history a connection-scope call gets a candidate with the address that the latest such call of
its service has got, if there is one, and changes nothing. Else it gets what the resolved mode picks, and
the address of that pick is remembered. A call in request scope gets what the mode picks and leaves alone
what is remembered. Without candidates a call gets nothing and changes nothing. -/
theorem History.sticks (history : History log b) (consumer : Endpoint) (method : String)
    (candidates : List Endpoint) :
    (∀ service, b.sticky.get? service = lastAddress? service log) ∧
    (∀ kept ∈ candidates, lastAddress? consumer.serviceKey log = some kept.address →
      ∃ e ∈ candidates, e.address = kept.address ∧
        b.select consumer method candidates .connection = (some e, b)) ∧
    (candidates ≠ [] → (∀ e ∈ candidates, lastAddress? consumer.serviceKey log ≠ some e.address) →
      ∃ e ∈ candidates, ∃ turns,
        b.Picks consumer.serviceKey candidates e turns
          (b.settings.resolve consumer.interface method candidates) ∧
        b.select consumer method candidates .connection =
          (some e, ⟨b.settings, turns, b.sticky.insert consumer.serviceKey e.address⟩)) ∧
    (candidates ≠ [] → ∃ e ∈ candidates, ∃ turns,
      b.Picks consumer.serviceKey candidates e turns
        (b.settings.resolve consumer.interface method candidates) ∧
      b.select consumer method candidates .request = (some e, ⟨b.settings, turns, b.sticky⟩)) ∧
    (candidates = [] → ∀ scope, b.select consumer method candidates scope = (none, b)) := by
  have keyed := history.reached.keyed
  have known := history.get?_sticky consumer.serviceKey
  refine ⟨history.get?_sticky, fun kept listed latest => ?_, fun filled forgotten => ?_, fun filled => ?_,
    fun empty scope => ?_⟩
  · rcases select_connection consumer method keyed (List.ne_nil_of_mem listed) with
      ⟨e, member, address, answer⟩ | ⟨absent, _⟩
    · rw [known, latest] at address
      exact ⟨e, member, (Option.some.inj address).symm, answer⟩
    · exact absurd (known.trans latest) (absent kept listed)
  · rcases select_connection consumer method keyed filled with
      ⟨e, member, address, _⟩ | ⟨_, e, member, chosen, answer⟩
    · exact absurd (known.symm.trans address) (forgotten e member)
    · refine ⟨e, member, _, choose_picks chosen, ?_⟩
      rw [answer, choose_snd]
      rfl
  · obtain ⟨e, member, chosen⟩ := choose_answers keyed consumer method filled
    refine ⟨e, member, _, choose_picks chosen, ?_⟩
    rw [select_request b consumer method filled]
    exact Prod.ext chosen (choose_snd b consumer method candidates)
  · rw [empty, select_nil]

def caller (interface : String) : Endpoint :=
  { protocol := "consumer", host := "c", port := 0, path := interface }

def server (host : String) : Endpoint := { protocol := "tri", host, port := 50051 }

/-- A history that goes on with one more call. -/
def calling (interface method : String) (hosts : List String) (scope : Scope) (m : List Call × Balancer) :
    List Call × Balancer :=
  (⟨caller interface, method, hosts.map server, scope,
    (m.2.select (caller interface) method (hosts.map server) scope).1⟩ :: m.1,
   (m.2.select (caller interface) method (hosts.map server) scope).2)

/-- The greeter stays with `a`, another service and a call in request scope get `b`, and then `a` is not
among the greeter's candidates for a while. -/
def moved : List Call × Balancer :=
  calling "greeter" "bye" ["b", "c"] .connection <| calling "greeter" "hello" [] .connection <|
    calling "greeter" "hello" ["a", "b"] .request <| calling "sorter" "sort" ["b"] .connection <|
      calling "greeter" "hello" ["a", "b"] .connection ([], { settings := { global := .roundRobin } })

theorem history_calling {m : List Call × Balancer} (history : History m.1 m.2) (interface method : String)
    (hosts : List String) (scope : Scope) :
    History (calling interface method hosts scope m).1 (calling interface method hosts scope m).2 :=
  history.select (caller interface) method (hosts.map server) scope

theorem history_moved : History moved.1 moved.2 := by
  unfold moved
  iterate 5 apply history_calling
  exact .start { global := .roundRobin }

/-- The greeter stays with `b` from then on, also where `a` is back. -/
theorem moved_sticks :
    History moved.1 moved.2 ∧ moved.1.map (·.answer.map Endpoint.host) =
        [some "b", none, some "b", some "b", some "a"] ∧
      lastAddress? "greeter" moved.1 = some "b:50051" ∧
      moved.2.sticky.get? "greeter" = some "b:50051" ∧
      ∃ e, e.address = "b:50051" ∧
        moved.2.select (caller "greeter") "hello" [server "a", server "b"] .connection = (some e, moved.2) := by
  have latest : lastAddress? "greeter" moved.1 = some "b:50051" := by decide +kernel
  have named : (server "b").address = "b:50051" := by decide +kernel
  obtain ⟨known, stays, _⟩ :=
    history_moved.sticks (caller "greeter") "hello" [server "a", server "b"]
  obtain ⟨e, _, address, answer⟩ := stays (server "b") (by simp) (named ▸ latest)
  exact ⟨history_moved, by decide +kernel, latest, (known "greeter").trans latest, e, address.trans named,
    answer⟩

end History

end ServiceGovernance.Balance.Balancer
