import Mathlib.Data.List.Dedup
import Mathlib.Data.List.Pairwise
import ServiceGovernance.Pool
import ServiceGovernance.Proofs.SortedSets

/-!
Where the connections of a pool are. A run takes connections, gives handles back, clears the pool and
lets eviction timers fire, in any order. The ledger lists what is idle, what is checked out and what is
closed. An operation moves numbers within the ledger, and only the opening of a connection adds one, so
the ledger is at all times a rearrangement of what the run has opened.
-/

namespace ServiceGovernance.Pool

inductive Place where
  | idle
  | out
  | closed
deriving DecidableEq

def places : List Place := [.idle, .out, .closed]

/-- The connections at a place. -/
def held (p : Pool) : Place → List Nat
  | .idle => p.idle.entries.map (·.2.connection)
  | .out => p.out.keys
  | .closed => p.closed

def ledger (p : Pool) : List Nat := places.flatMap p.held

def fresh (idleTimeout : Nat) (metered : Bool) : Pool :=
  { idleTimeout, meter := if metered then some {} else none }

/-- A failed take hands out nothing. -/
def record (result : Except CallFault Taken) (history : List Taken) : List Taken :=
  match result with
  | .ok taken => taken :: history
  | .error _ => history

/-- The pool that a run has come to, with what has been handed out on the way, the latest first. A
handle is given back at any time and any number of times. A timer that has been cancelled may be under
way already, so any timer fires. -/
inductive Run (idleTimeout : Nat) (metered : Bool) : List Taken → Pool → Prop where
  | fresh : Run idleTimeout metered [] (fresh idleTimeout metered)
  | take {history : List Taken} {p : Pool} (before : Run idleTimeout metered history p)
      (target : AddressSet) (connecting : Except CallFault Unit) :
      Run idleTimeout metered (record (p.take target connecting).1 history) (p.take target connecting).2
  | giveBack {history : List Taken} {p : Pool} (before : Run idleTimeout metered history p) {handle : Handle}
      (handed : handle ∈ history.map (·.handle)) (now : Nat) :
      Run idleTimeout metered history (p.giveBack now handle)
  | clear {history : List Taken} {p : Pool} (before : Run idleTimeout metered history p) :
      Run idleTimeout metered history p.clear
  | fire {history : List Taken} {p : Pool} (before : Run idleTimeout metered history p)
      (timer : EvictionTimer) : Run idleTimeout metered history (p.fire timer)

/-- The numbers of all connections that have been handed out. -/
def issued (history : List Taken) : List Nat := (history.map (·.handle.connection)).dedup

/-- The numbers of the connections that have been opened, the latest first. -/
def openings (history : List Taken) : List Nat :=
  (history.filter (·.opened)).map (·.handle.connection)

def OpenedFor (history : List Taken) (connection : Nat) (target : AddressSet) : Prop :=
  ⟨⟨connection, target⟩, true⟩ ∈ history

/-- The meter shows the number of openings and of idle connections. -/
def Metered (metered : Bool) (created : Nat) (p : Pool) : Prop :=
  p.meter.isSome = metered ∧ ∀ meter ∈ p.meter, meter.created = created ∧ meter.idle = p.idleCount

structure Accounted (metered : Bool) (history : List Taken) (p : Pool) : Prop where
  ledger : p.ledger.Perm (openings history)
  next : p.nextConnection = (openings history).length + 1
  numbers : (openings history).Nodup ∧ ∀ id ∈ openings history, id < p.nextConnection
  handed : ∀ taken ∈ history, OpenedFor history taken.handle.connection taken.handle.target
  targets : ∀ target found, p.idle.get? target = some found → OpenedFor history found.connection target
  meter : Metered metered (openings history).length p

variable {idleTimeout : Nat} {metered : Bool} {history : List Taken} {p q : Pool} {target : AddressSet}
  {id : Nat}

section Ledger

theorem mem_held_idle_iff :
    id ∈ p.held .idle ↔ ∃ target found, p.idle.get? target = some found ∧ found.connection = id := by
  simp only [held, List.mem_map, Prod.exists, SortedMap.mem_entries_iff]

theorem out_eq_none (absent : id ∉ p.held .out) : p.out.get? id = none := by
  cases lookup : p.out.get? id with
  | none => rfl
  | some target => exact absurd (SortedMap.mem_keys_iff.2 ⟨target, lookup⟩) absent

theorem mem_places (place : Place) : place ∈ places := by
  cases place <;> decide

theorem mem_ledger_iff : id ∈ p.ledger ↔ ∃ place, id ∈ p.held place := by
  simp [ledger, mem_places]

theorem count_ledger (p : Pool) (id : Nat) :
    p.ledger.count id =
      (p.idle.entries.map (·.2.connection)).count id + p.out.keys.count id + p.closed.count id := by
  simp only [ledger, places, List.flatMap_cons, List.flatMap_nil, List.append_nil, List.count_append, held]
  omega

theorem count_idle_erase {found : IdleConnection} (there : p.idle.get? target = some found) (id : Nat) :
    (p.idle.entries.map (·.2.connection)).count id =
      (found.connection :: (p.idle.erase target).entries.map (·.2.connection)).count id :=
  ((SortedMap.entries_erase_perm there).map _).count_eq id

theorem count_idle_insert (absent : p.idle.get? target = none) (added : IdleConnection) (id : Nat) :
    ((p.idle.insert target added).entries.map (·.2.connection)).count id =
      (added.connection :: p.idle.entries.map (·.2.connection)).count id :=
  ((SortedMap.entries_insert_perm added absent).map _).count_eq id

theorem count_out_erase {connection : Nat} (there : p.out.get? connection = some target) (id : Nat) :
    p.out.keys.count id = (connection :: (p.out.erase connection).keys).count id :=
  ((SortedMap.entries_erase_perm there).map Prod.fst).count_eq id

theorem count_out_insert {connection : Nat} (absent : p.out.get? connection = none) (target : AddressSet)
    (id : Nat) : (p.out.insert connection target).keys.count id = (connection :: p.out.keys).count id :=
  ((SortedMap.entries_insert_perm target absent).map Prod.fst).count_eq id

theorem nodup_held (distinct : p.ledger.Nodup) (place : Place) : (p.held place).Nodup :=
  (List.nodup_flatMap.1 distinct).1 place (mem_places place)

/-- In a ledger without repetitions a connection stands at one place only. -/
theorem place_unique (distinct : p.ledger.Nodup) {place other : Place} (here : id ∈ p.held place)
    (there : id ∈ p.held other) : place = other := by
  have : Std.Symm (Function.onFun List.Disjoint p.held) := ⟨fun _ _ disjoint => disjoint.symm⟩
  have apart := (List.nodup_flatMap.1 distinct).2.forall (mem_places place) (mem_places other)
  by_contra different
  exact apart different here there

end Ledger

section Steps

theorem Metered.gauge {created : Nat} (before : Metered metered created p)
    (same : q.meter.map (·.created) = p.meter.map (·.created)) : Metered metered created q.gauge := by
  cases earlier : p.meter with
  | none =>
      cases later : q.meter with
      | none => simpa [Metered, Pool.gauge, earlier, later] using before
      | some meter => simp [earlier, later] at same
  | some meter =>
      cases later : q.meter with
      | none => simp [earlier, later] at same
      | some next =>
          have counted : meter.created = created := (before.2 meter earlier).1
          have equal : next.created = meter.created := by simpa [earlier, later] using same
          have on : metered = true := by simpa [earlier] using before.1.symm
          simp [Metered, Pool.gauge, idleCount, later, equal, counted, on]

theorem Accounted.distinct (kept : Accounted metered history p) : p.ledger.Nodup :=
  kept.ledger.nodup_iff.2 kept.numbers.1

/-- What only moves connections about keeps the accounts. -/
theorem Accounted.moved (kept : Accounted metered history p)
    (counts : ∀ id, q.ledger.count id = p.ledger.count id) (next : q.nextConnection = p.nextConnection)
    (targets : ∀ target found, q.idle.get? target = some found → OpenedFor history found.connection target)
    (meter : Metered metered (openings history).length q) : Accounted metered history q where
  ledger := (List.perm_iff_count.2 counts).trans kept.ledger
  next := next.trans kept.next
  numbers := next ▸ kept.numbers
  handed := kept.handed
  targets := targets
  meter := meter

theorem Accounted.targets_erase (kept : Accounted metered history p) (gone : AddressSet) :
    ∀ target found, (p.idle.erase gone).get? target = some found →
      OpenedFor history found.connection target := by
  intro target found lookup
  rw [SortedMap.get?_erase] at lookup
  split at lookup
  · cases lookup
  · exact kept.targets target found lookup

/-- Handing out a connection that has been opened before changes nothing in the accounts. -/
theorem Accounted.again (kept : Accounted metered history p) (opened : OpenedFor history id target) :
    Accounted metered (⟨⟨id, target⟩, false⟩ :: history) p := by
  refine { kept with handed := fun taken member => ?_, targets := fun other found lookup => ?_ }
  · rcases List.mem_cons.1 member with rfl | member
    · exact List.mem_cons_of_mem _ opened
    · exact List.mem_cons_of_mem _ (kept.handed taken member)
  · exact List.mem_cons_of_mem _ (kept.targets other found lookup)

theorem Accounted.reused (kept : Accounted metered history p) {found : IdleConnection}
    (there : p.idle.get? target = some found) :
    Accounted metered (⟨⟨found.connection, target⟩, false⟩ :: history)
      (gauge { p.cancel found.timer with
        idle := p.idle.erase target
        out := p.out.insert found.connection target }) := by
  have idle : found.connection ∈ p.held .idle := mem_held_idle_iff.2 ⟨target, found, there, rfl⟩
  have absent := out_eq_none fun out => nomatch place_unique kept.distinct idle out
  refine Accounted.again (kept.moved (fun id => ?_) rfl (kept.targets_erase target) (kept.meter.gauge rfl))
    (kept.targets target found there)
  have gone := count_idle_erase there id
  have added := count_out_insert absent target id
  simp only [count_ledger, Pool.gauge, Pool.cancel, gone, added, List.count_cons]
  omega

theorem Accounted.opened (kept : Accounted metered history p) (target : AddressSet) :
    Accounted metered (⟨⟨p.nextConnection, target⟩, true⟩ :: history)
      { p with
        out := p.out.insert p.nextConnection target
        nextConnection := p.nextConnection + 1
        meter := p.meter.map fun m => { m with created := m.created + 1 } } := by
  have new : p.nextConnection ∉ openings history := fun old => Nat.lt_irrefl _ (kept.numbers.2 _ old)
  have absent := out_eq_none fun out => new (kept.ledger.mem_iff.1 (mem_ledger_iff.2 ⟨.out, out⟩))
  have added : openings (⟨⟨p.nextConnection, target⟩, true⟩ :: history) =
      p.nextConnection :: openings history := rfl
  refine ⟨List.perm_iff_count.2 fun id => ?_, ?_, ⟨?_, ?_⟩, ?_, ?_, ?_⟩
  · have before := kept.ledger.count_eq id
    rw [count_ledger] at before
    simp only [count_ledger, count_out_insert absent target id, added, List.count_cons, ← before]
    omega
  · rw [added, List.length_cons, ← kept.next]
  · exact added ▸ List.nodup_cons.2 ⟨new, kept.numbers.1⟩
  · intro id member
    rcases List.mem_cons.1 (added ▸ member) with rfl | member
    · exact Nat.lt_succ_self _
    · exact Nat.lt_succ_of_lt (kept.numbers.2 id member)
  · intro taken member
    rcases List.mem_cons.1 member with rfl | member
    · exact List.mem_cons_self
    · exact List.mem_cons_of_mem _ (kept.handed taken member)
  · exact fun other found lookup => List.mem_cons_of_mem _ (kept.targets other found lookup)
  · rw [added, List.length_cons]
    refine ⟨by simpa using kept.meter.1, fun meter there => ?_⟩
    obtain ⟨earlier, found, rfl⟩ := Option.map_eq_some_iff.1 there
    obtain ⟨counted, idle⟩ := kept.meter.2 earlier found
    exact ⟨congrArg (· + 1) counted, idle⟩

theorem Accounted.take (kept : Accounted metered history p) (target : AddressSet)
    (connecting : Except CallFault Unit) :
    Accounted metered (record (p.take target connecting).1 history) (p.take target connecting).2 := by
  unfold Pool.take
  cases there : p.idle.get? target with
  | some found => exact kept.reused there
  | none =>
      cases connecting with
      | error fault => exact kept
      | ok => exact kept.opened target

theorem Accounted.giveBack (kept : Accounted metered history p) {handle : Handle}
    (handed : handle ∈ history.map (·.handle)) (now : Nat) :
    Accounted metered history (p.giveBack now handle) := by
  obtain ⟨taken, member, rfl⟩ := List.mem_map.1 handed
  unfold Pool.giveBack
  split
  · next out =>
      obtain ⟨target, there⟩ := SortedMap.contains_iff.1 out
      split
      · refine kept.moved (fun id => ?_) rfl kept.targets (kept.meter.gauge rfl)
        simp only [count_ledger, Pool.gauge, count_out_erase there id, List.count_append, List.count_cons,
          List.count_nil]
        omega
      · next vacant =>
          have absent : p.idle.get? taken.handle.target = none := by
            simpa [SortedMap.contains] using vacant
          refine kept.moved (fun id => ?_) rfl (fun other found lookup => ?_) (kept.meter.gauge rfl)
          · simp only [count_ledger, Pool.gauge, count_out_erase there id, count_idle_insert absent _ id,
              List.count_cons]
            omega
          · change (p.idle.insert _ _).get? other = some found at lookup
            rw [SortedMap.get?_insert] at lookup
            split at lookup
            · next same =>
                cases lookup
                exact same ▸ kept.handed taken member
            · exact kept.targets other found lookup
  · exact kept

theorem Accounted.fire (kept : Accounted metered history p) (timer : EvictionTimer) :
    Accounted metered history (p.fire timer) := by
  have spent : Accounted metered history (p.cancel timer.serial) :=
    kept.moved (fun _ => rfl) rfl kept.targets kept.meter
  unfold Pool.fire
  simp only
  split
  · next found there =>
      split
      · refine kept.moved (fun id => ?_) rfl (kept.targets_erase _) (kept.meter.gauge ?_)
        · simp only [count_ledger, Pool.gauge, Pool.cancel, count_idle_erase there id, List.count_append,
            List.count_cons, List.count_nil]
          omega
        · cases p.meter <;> rfl
      · exact spent
  · exact spent

theorem Accounted.clear (kept : Accounted metered history p) : Accounted metered history p.clear := by
  refine kept.moved (fun id => ?_) rfl (fun other found lookup => ?_) (kept.meter.gauge rfl)
  · simp only [count_ledger, Pool.clear, Pool.gauge, SortedMap.empty, SortedMap.values, List.map_map,
      List.map_nil, List.count_nil, List.count_append, Function.comp_def]
    omega
  · cases lookup

theorem Run.accounted (run : Run idleTimeout metered history p) : Accounted metered history p := by
  induction run with
  | fresh =>
      refine ⟨.nil, rfl, ⟨.nil, by simp [openings]⟩, by simp, fun target found lookup => ?_, ?_⟩
      · cases lookup
      · cases metered <;> simp [Metered, Pool.fresh, openings, idleCount, SortedMap.size, SortedMap.empty]
  | take before target connecting ih => exact ih.take target connecting
  | giveBack before handed now ih => exact ih.giveBack handed now
  | clear before ih => exact ih.clear
  | fire before timer ih => exact ih.fire timer

/-- What time lets fire is part of a run. -/
theorem Run.fireDue (run : Run idleTimeout metered history p) (now : Nat) :
    Run idleTimeout metered history (p.fireDue now) := by
  unfold Pool.fireDue
  generalize (p.timers.filter _).mergeSort _ = due
  induction due generalizing p with
  | nil => exact run
  | cons timer due ih => exact ih (run.fire timer)

end Steps

section Accounts

theorem mem_issued_iff : id ∈ issued history ↔ ∃ taken ∈ history, taken.handle.connection = id := by
  simp [issued]

/-- Every number that has been handed out belongs to an opening. -/
theorem Accounted.issued_perm (kept : Accounted metered history p) :
    (issued history).Perm (openings history) := by
  have distinct : (issued history).Nodup := List.nodup_dedup _
  refine (List.perm_ext_iff_of_nodup distinct kept.numbers.1).2 fun id => ?_
  rw [mem_issued_iff]
  constructor
  · rintro ⟨taken, member, rfl⟩
    exact List.mem_map.2 ⟨_, List.mem_filter.2 ⟨kept.handed taken member, rfl⟩, rfl⟩
  · intro member
    obtain ⟨taken, opened, same⟩ := List.mem_map.1 member
    exact ⟨taken, List.mem_of_mem_filter opened, same⟩

theorem Accounted.target_unique (kept : Accounted metered history p) {other : AddressSet}
    (opened : OpenedFor history id target) (again : OpenedFor history id other) : target = other := by
  have distinct : ((history.filter (·.opened)).map (·.handle.connection)).Nodup := kept.numbers.1
  have same := List.inj_on_of_nodup_map distinct (List.mem_filter.2 ⟨opened, rfl⟩)
    (List.mem_filter.2 ⟨again, rfl⟩) rfl
  simpa using same

theorem take_eq_error_iff {connecting : Except CallFault Unit} {fault : CallFault} :
    p.take target connecting = (.error fault, q) ↔
      p.idle.get? target = none ∧ connecting = .error fault ∧ q = p := by
  unfold Pool.take
  cases p.idle.get? target <;> cases connecting <;> simp [eq_comm]

/-- Along every run a connection that has been handed out is idle, checked out or closed and no two of
these, none is closed twice, a target has at most one idle connection, which was opened for it, and the
meter shows what there is. -/
theorem Run.accounts (run : Run idleTimeout metered history p) :
    (∀ id, id ∈ issued history ↔ ∃! place, id ∈ p.held place) ∧
    p.closed.Nodup ∧
    (∀ target found, p.idle.get? target = some found → OpenedFor history found.connection target) ∧
    (∀ target a b, OpenedFor history a target → OpenedFor history b target →
      a ∈ p.held .idle → b ∈ p.held .idle → a = b) ∧
    (∀ target connecting fault q, p.take target connecting = (.error fault, q) ↔
      p.idle.get? target = none ∧ connecting = .error fault ∧ q = p) ∧
    p.meter.isSome = metered ∧
      ∀ meter, p.meter = some meter → meter.idle = p.idleCount ∧ meter.created = (issued history).length := by
  have kept := run.accounted
  refine ⟨fun id => ?_, nodup_held kept.distinct .closed, kept.targets, ?_, fun _ _ _ _ => take_eq_error_iff,
    kept.meter.1, fun meter there => ?_⟩
  · rw [kept.issued_perm.mem_iff, ← kept.ledger.mem_iff, mem_ledger_iff]
    constructor
    · rintro ⟨place, here⟩
      exact ⟨place, here, fun other there => place_unique kept.distinct there here⟩
    · exact fun ⟨place, here, _⟩ => ⟨place, here⟩
  · intro target a b first second idle_first idle_second
    have found_at : ∀ {id}, OpenedFor history id target → id ∈ p.held .idle →
        ∃ found, p.idle.get? target = some found ∧ found.connection = id := by
      intro id opened idle
      obtain ⟨other, found, there, rfl⟩ := mem_held_idle_iff.1 idle
      have same := kept.target_unique opened (kept.targets other found there)
      exact ⟨found, same ▸ there, rfl⟩
    obtain ⟨found, there, rfl⟩ := found_at first idle_first
    obtain ⟨other, here, rfl⟩ := found_at second idle_second
    rw [there] at here
    cases here
    rfl
  · obtain ⟨counted, idle⟩ := kept.meter.2 meter there
    exact ⟨idle, counted.trans kept.issued_perm.length_eq.symm⟩

def north : AddressSet := .ofList ["10.0.0.2:80", "10.0.0.1:80"]

def south : AddressSet := .single "10.0.0.3:80"

/-- What has been handed out and the pool, after one more take. -/
def taking (target : AddressSet) (connecting : Except CallFault Unit) (m : List Taken × Pool) :
    List Taken × Pool :=
  (record (m.2.take target connecting).1 m.1, (m.2.take target connecting).2)

def giving (handle : Handle) (m : List Taken × Pool) : List Taken × Pool := (m.1, m.2.giveBack 5 handle)

/-- Two connections to one target, of which the second one comes back as a surplus and the first one
twice. -/
def returned : List Taken × Pool :=
  giving ⟨1, north⟩ <| giving ⟨2, north⟩ <| giving ⟨1, north⟩ <|
    taking north (.ok ()) <| taking north (.ok ()) ([], fresh 30 true)

/-- Then a take that fails, one that opens and one that reuses, and the opened one comes back. -/
def rested : List Taken × Pool :=
  giving ⟨3, south⟩ <| taking north (.ok ()) <| taking south (.ok ()) <|
    taking south (.error (.noProvider "s")) returned

theorem run_giving {m : List Taken × Pool} {handle : Handle} (run : Run 30 true m.1 m.2)
    (handed : handle ∈ m.1.map (·.handle)) : Run 30 true (giving handle m).1 (giving handle m).2 :=
  run.giveBack handed 5

theorem run_returned : Run 30 true returned.1 returned.2 := by
  have two : Run 30 true _ _ := (Run.fresh.take north (.ok ())).take north (.ok ())
  exact run_giving (run_giving (run_giving two (by decide +kernel)) (by decide +kernel)) (by decide +kernel)

theorem run_rested : Run 30 true rested.1 rested.2 :=
  run_giving (((run_returned.take south (.error (.noProvider "s"))).take south (.ok ())).take north (.ok ()))
    (by decide +kernel)

/-- The pool after that, with the third connection evicted. -/
def evicted : Pool := rested.2.fire ⟨1, ⟨3, south⟩, 35⟩

theorem evicted_accounts :
    Run 30 true rested.1 evicted ∧ issued rested.1 = [3, 2, 1] ∧
      evicted.held .out = [1] ∧ evicted.closed = [2, 3] ∧ evicted.meter = some ⟨3, 1, 0⟩ ∧
      (∃! place, 1 ∈ evicted.held place) ∧ (∃! place, 3 ∈ evicted.held place) ∧ evicted.closed.Nodup := by
  have run : Run 30 true rested.1 evicted := run_rested.fire _
  have facts : issued rested.1 = [3, 2, 1] ∧ evicted.held .out = [1] ∧ evicted.closed = [2, 3] ∧
      evicted.meter = some ⟨3, 1, 0⟩ := by
    decide +kernel
  obtain ⟨numbers, out, closed, meter⟩ := facts
  obtain ⟨placed, once, _⟩ := run.accounts
  exact ⟨run, numbers, out, closed, meter, (placed 1).1 (by simp [numbers]), (placed 3).1 (by simp [numbers]),
    once⟩

end Accounts

end ServiceGovernance.Pool
