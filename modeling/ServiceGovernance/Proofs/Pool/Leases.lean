import ServiceGovernance.Proofs.Pool.Places

/-!
Who has a connection. Every take is a lease of its own, and a lease may be given back more than once. The
pool knows connections and no leases: a connection is checked out as long as it has not been given back
since it was last taken, through whatever lease. So what a lease gives back again is ignored exactly if
the connection has come back since its last take.
-/

namespace ServiceGovernance.Pool

/-- One thing that the parties have done. Leases are numbered in the order of the takes, and the copies of
a handle belong to its lease. -/
inductive Deed where
  | take (lease : Nat) (taken : Taken)
  | giveBack (lease : Nat)
deriving DecidableEq

def takes : List Deed → List Taken
  | [] => []
  | .take _ taken :: earlier => taken :: takes earlier
  | .giveBack _ :: earlier => takes earlier

/-- A take that succeeds begins the next lease. -/
def lend (result : Except CallFault Taken) (log : List Deed) : List Deed :=
  match result with
  | .ok taken => .take (takes log).length taken :: log
  | .error _ => log

/-- The pool that a run has come to, with what the parties have done on the way, the latest first. -/
inductive Usage (idleTimeout : Nat) (metered : Bool) : List Deed → Pool → Prop where
  | fresh : Usage idleTimeout metered [] (fresh idleTimeout metered)
  | take {log : List Deed} {p : Pool} (before : Usage idleTimeout metered log p) (target : AddressSet)
      (connecting : Except CallFault Unit) :
      Usage idleTimeout metered (lend (p.take target connecting).1 log) (p.take target connecting).2
  | giveBack {log : List Deed} {p : Pool} (before : Usage idleTimeout metered log p) {lease : Nat}
      {taken : Taken} (begun : .take lease taken ∈ log) (now : Nat) :
      Usage idleTimeout metered (.giveBack lease :: log) (p.giveBack now taken.handle)
  | clear {log : List Deed} {p : Pool} (before : Usage idleTimeout metered log p) :
      Usage idleTimeout metered log p.clear
  | fire {log : List Deed} {p : Pool} (before : Usage idleTimeout metered log p) (timer : EvictionTimer) :
      Usage idleTimeout metered log (p.fire timer)

def Deed.takes (connection : Nat) : Deed → Bool
  | .take _ taken => taken.handle.connection == connection
  | .giveBack _ => false

/-- The lease is one of the connection. -/
def IsLease (lease connection : Nat) (log : List Deed) : Prop :=
  ∃ taken, .take lease taken ∈ log ∧ taken.handle.connection = connection

/-- Since it was last taken the connection has been given back, through whatever lease; or it has never
been taken. -/
def Returned (connection : Nat) : List Deed → Prop
  | [] => True
  | .take _ taken :: earlier => taken.handle.connection ≠ connection ∧ Returned connection earlier
  | .giveBack lease :: earlier => IsLease lease connection earlier ∨ Returned connection earlier

variable {idleTimeout : Nat} {metered : Bool} {log : List Deed} {p : Pool} {lease connection : Nat}
  {taken : Taken}

section Leases

theorem mem_takes_iff : taken ∈ takes log ↔ ∃ lease, .take lease taken ∈ log := by
  induction log with
  | nil => simp [takes]
  | cons deed log ih => cases deed <;> simp [takes, ih, exists_or]

theorem takes_lend (result : Except CallFault Taken) (log : List Deed) :
    takes (lend result log) = record result (takes log) := by
  cases result <;> rfl

/-- What the parties do is a run of the pool. -/
theorem Usage.run (usage : Usage idleTimeout metered log p) : Run idleTimeout metered (takes log) p := by
  induction usage with
  | fresh => exact .fresh
  | take before target connecting ih =>
      rw [takes_lend]
      exact ih.take target connecting
  | giveBack before begun now ih =>
      exact ih.giveBack (List.mem_map_of_mem (mem_takes_iff.2 ⟨_, begun⟩)) now
  | clear before ih => exact ih.clear
  | fire before timer ih => exact ih.fire timer

/-- Two leases have two numbers. -/
def Numbered (log : List Deed) : Prop :=
  (∀ lease taken, .take lease taken ∈ log → lease < (takes log).length) ∧
  ∀ lease taken other, .take lease taken ∈ log → .take lease other ∈ log → taken = other

theorem Numbered.lend (numbered : Numbered log) (result : Except CallFault Taken) :
    Numbered (lend result log) := by
  cases result with
  | error fault => exact numbered
  | ok new =>
      obtain ⟨below, unique⟩ := numbered
      constructor
      · intro lease taken member
        show lease < (takes log).length + 1
        rcases List.mem_cons.1 member with same | member
        · cases same
          omega
        · have := below lease taken member
          omega
      · intro lease taken other first second
        rcases List.mem_cons.1 first with same | first <;>
          rcases List.mem_cons.1 second with other_same | second
        · cases same
          cases other_same
          rfl
        · cases same
          exact absurd (below _ _ second) (Nat.lt_irrefl _)
        · cases other_same
          exact absurd (below _ _ first) (Nat.lt_irrefl _)
        · exact unique lease taken other first second

theorem Usage.numbered (usage : Usage idleTimeout metered log p) : Numbered log := by
  induction usage with
  | fresh => exact ⟨fun _ _ member => absurd member List.not_mem_nil, fun _ _ _ member =>
      absurd member List.not_mem_nil⟩
  | take before target connecting ih => exact ih.lend _
  | giveBack before begun now ih =>
      constructor
      · intro other taken member
        cases member with
        | tail _ member => exact ih.1 other taken member
      · intro other taken again first second
        cases first with
        | tail _ first =>
            cases second with
            | tail _ second => exact ih.2 other taken again first second
  | clear before ih => exact ih
  | fire before timer ih => exact ih

end Leases

section Out

theorem mem_out_iff : connection ∈ p.held .out ↔ ∃ target, p.out.get? connection = some target :=
  SortedMap.mem_keys_iff

theorem out_take_cases (p : Pool) (target : AddressSet) (connecting : Except CallFault Unit) :
    (∃ fault, p.take target connecting = (.error fault, p)) ∨
    ∃ taken q, p.take target connecting = (.ok taken, q) ∧
      q.out = p.out.insert taken.handle.connection target := by
  unfold Pool.take
  cases p.idle.get? target with
  | some found => exact .inr ⟨_, _, rfl, rfl⟩
  | none =>
      cases connecting with
      | error fault => exact .inl ⟨fault, rfl⟩
      | ok => exact .inr ⟨_, _, rfl, rfl⟩

theorem get?_out_giveBack (p : Pool) (now : Nat) (handle : Handle) (connection : Nat) :
    (p.giveBack now handle).out.get? connection =
      if connection = handle.connection then none else p.out.get? connection := by
  unfold Pool.giveBack
  split
  · split <;> exact SortedMap.get?_erase ..
  · next absent =>
      split
      · next same =>
          subst same
          simpa [SortedMap.contains] using absent
      · rfl

theorem out_fire (p : Pool) (timer : EvictionTimer) : (p.fire timer).out = p.out := by
  unfold Pool.fire
  simp only
  split
  · split <;> rfl
  · rfl

/-- A connection is checked out as long as it has not come back. -/
theorem Usage.mem_out_iff (usage : Usage idleTimeout metered log p) (connection : Nat) :
    connection ∈ p.held .out ↔ ¬ Returned connection log := by
  induction usage with
  | fresh => exact iff_of_false List.not_mem_nil fun out => out trivial
  | @take log p before target connecting ih =>
      rcases p.out_take_cases target connecting with ⟨fault, failed⟩ | ⟨taken, q, done, out⟩
      · rw [failed]
        exact ih
      · rw [done, Pool.mem_out_iff, out, SortedMap.get?_insert, lend, Returned, not_and_or, not_not, ← ih,
          Pool.mem_out_iff]
        by_cases same : connection = taken.handle.connection
        · simp [same]
        · have apart : ¬ taken.handle.connection = connection := fun h => same h.symm
          simp [same, apart]
  | @giveBack log p before lease taken begun now ih =>
      have lease_iff : IsLease lease connection log ↔ connection = taken.handle.connection := by
        constructor
        · rintro ⟨other, member, rfl⟩
          rw [before.numbered.2 lease other taken member begun]
        · rintro rfl
          exact ⟨taken, begun, rfl⟩
      rw [Pool.mem_out_iff, get?_out_giveBack, Returned, lease_iff, not_or, ← ih, Pool.mem_out_iff]
      by_cases same : connection = taken.handle.connection
      · simp [same]
      · simp [same]
  | clear before ih => exact ih
  | fire before timer ih =>
      rw [Pool.mem_out_iff, out_fire, ← Pool.mem_out_iff]
      exact ih

theorem isLease_append_iff {other : Nat} {later earlier : List Deed}
    (untaken : ∀ deed ∈ later, deed.takes connection = false) (apart : other ≠ lease) :
    IsLease other connection (later ++ .take lease taken :: earlier) ↔ IsLease other connection earlier := by
  constructor
  · intro ⟨held, member, same⟩
    rcases List.mem_append.1 member with member | member
    · have free := untaken _ member
      simp [Deed.takes, same] at free
    · cases member with
      | head => exact absurd rfl apart
      | tail _ member => exact ⟨held, member, same⟩
  · intro ⟨held, member, same⟩
    exact ⟨held, List.mem_append_right _ (.tail _ member), same⟩

/-- From a take on it is the leases of earlier takes through which the connection can come back, as long as
the taker keeps it. -/
theorem returned_append_iff {later earlier : List Deed}
    (untaken : ∀ deed ∈ later, deed.takes connection = false) (same : taken.handle.connection = connection)
    (kept : .giveBack lease ∉ later) :
    Returned connection (later ++ .take lease taken :: earlier) ↔
      ∃ other, .giveBack other ∈ later ∧ IsLease other connection earlier := by
  induction later with
  | nil => simp [Returned, same]
  | cons deed later ih =>
      have rest := ih (fun deed member => untaken deed (.tail _ member)) fun member => kept (.tail _ member)
      cases deed with
      | take between new =>
          have apart : new.handle.connection ≠ connection := by
            simpa [Deed.takes] using untaken (.take between new) (.head _)
          simp [Returned, apart, rest]
      | giveBack between =>
          have apart : between ≠ lease := fun h => kept (h ▸ .head _)
          rw [List.cons_append, Returned, rest,
            isLease_append_iff (fun deed member => untaken deed (.tail _ member)) apart]
          simp [or_and_right, exists_or]

end Out

section Returns

theorem giveBack_eq_self_iff {now : Nat} {handle : Handle} :
    p.giveBack now handle = p ↔ handle.connection ∉ p.held .out := by
  rw [mem_out_iff]
  constructor
  · intro same ⟨target, out⟩
    have gone := p.get?_out_giveBack now handle handle.connection
    rw [same, out, if_pos rfl] at gone
    cases gone
  · intro absent
    unfold Pool.giveBack
    rw [if_neg fun out => absent (SortedMap.contains_iff.1 out)]

theorem take_handle_cases {target : AddressSet} {connecting : Except CallFault Unit}
    (done : (p.take target connecting).1 = .ok taken) :
    taken.handle.connection ∈ p.held .idle ∨ taken.handle.connection = p.nextConnection := by
  unfold Pool.take at done
  cases there : p.idle.get? target with
  | some found =>
      rw [there] at done
      cases done
      exact .inl (mem_held_idle_iff.2 ⟨target, found, there, rfl⟩)
  | none =>
      rw [there] at done
      cases connecting with
      | error fault => cases done
      | ok =>
          cases done
          exact .inr rfl

/-- A connection that is checked out is not idle, not closed, and nobody else gets it. -/
theorem Run.guards {history : List Taken} (run : Run idleTimeout metered history p)
    (out : connection ∈ p.held .out) :
    connection ∉ p.held .idle ∧ connection ∉ p.held .closed ∧
      ∀ target connecting taken, (p.take target connecting).1 = .ok taken →
        taken.handle.connection ≠ connection := by
  have kept := run.accounted
  have apart : ∀ place, place ≠ .out → connection ∉ p.held place :=
    fun place other here => other (place_unique kept.distinct here out)
  refine ⟨apart .idle nofun, apart .closed nofun, fun target connecting taken done same => ?_⟩
  rcases take_handle_cases done with idle | new
  · exact apart .idle nofun (same ▸ idle)
  · have old := kept.numbers.2 _ (kept.ledger.mem_iff.1 (mem_ledger_iff.2 ⟨.out, out⟩))
    omega

/-- What is given back through a lease, for the first time or again, changes nothing exactly if the
connection has come back since it was last taken. While the last taker keeps a connection, it is checked
out exactly as long as it has not been given back through an earlier lease; and what is checked out is not
idle, not closed and handed to nobody. -/
theorem Usage.returns (usage : Usage idleTimeout metered log p) :
    (∀ lease taken now, .take lease taken ∈ log →
      (p.giveBack now taken.handle = p ↔ Returned taken.handle.connection log)) ∧
    (∀ lease taken later earlier, log = later ++ .take lease taken :: earlier →
      (∀ deed ∈ later, deed.takes taken.handle.connection = false) → .giveBack lease ∉ later →
      (taken.handle.connection ∈ p.held .out ↔
        ∀ other, .giveBack other ∈ later → ¬ IsLease other taken.handle.connection earlier)) ∧
    ∀ connection, connection ∈ p.held .out →
      connection ∉ p.held .idle ∧ connection ∉ p.held .closed ∧
        ∀ target connecting taken, (p.take target connecting).1 = .ok taken →
          taken.handle.connection ≠ connection := by
  refine ⟨fun lease taken now begun => ?_, fun lease taken later earlier split untaken kept => ?_,
    fun connection => usage.run.guards⟩
  · rw [giveBack_eq_self_iff, usage.mem_out_iff, not_not]
  · rw [usage.mem_out_iff, split, returned_append_iff untaken rfl kept]
    simp only [not_exists, not_and]

def borrowing (target : AddressSet) (m : List Deed × Pool) : List Deed × Pool :=
  (lend (m.2.take target (.ok ())).1 m.1, (m.2.take target (.ok ())).2)

def bringing (lease : Nat) (handle : Handle) (m : List Deed × Pool) : List Deed × Pool :=
  (.giveBack lease :: m.1, m.2.giveBack 5 handle)

/-- One lease that has ended. -/
def ended : List Deed × Pool := bringing 0 ⟨1, north⟩ (borrowing north ([], fresh 30 true))

/-- Then its connection is taken again. -/
def relent : List Deed × Pool := borrowing north ended

/-- And given back through the lease that has ended. -/
def snatched : List Deed × Pool := bringing 0 ⟨1, north⟩ relent

theorem usage_ended : Usage 30 true ended.1 ended.2 :=
  (Usage.fresh.take north (.ok ())).giveBack
    (show .take 0 ⟨⟨1, north⟩, true⟩ ∈ (borrowing north ([], fresh 30 true)).1 by decide +kernel) 5

theorem usage_relent : Usage 30 true relent.1 relent.2 := usage_ended.take north (.ok ())

theorem usage_snatched : Usage 30 true snatched.1 snatched.2 :=
  usage_relent.giveBack (show .take 0 ⟨⟨1, north⟩, true⟩ ∈ relent.1 by decide +kernel) 5

theorem snatched_from_taker :
    Usage 30 true relent.1 relent.2 ∧ .take 0 ⟨⟨1, north⟩, true⟩ ∈ relent.1 ∧ .giveBack 0 ∈ relent.1 ∧
      relent.2.giveBack 5 ⟨1, north⟩ ≠ relent.2 ∧
      Usage 30 true snatched.1 snatched.2 ∧ .take 1 ⟨⟨1, north⟩, false⟩ ∈ snatched.1 ∧
      .giveBack 1 ∉ snatched.1 ∧ snatched.2.held .idle = [1] ∧ snatched.2.clear.held .closed = [1] := by
  refine ⟨usage_relent, ?_, ?_, ?_, usage_snatched, ?_, ?_, ?_, ?_⟩ <;> decide +kernel

theorem leases_return :
    Usage 30 true ended.1 ended.2 ∧ Usage 30 true relent.1 relent.2 ∧ Usage 30 true snatched.1 snatched.2 ∧
      ended.2.giveBack 5 ⟨1, north⟩ = ended.2 ∧ relent.2.giveBack 5 ⟨1, north⟩ ≠ relent.2 ∧
      1 ∈ relent.2.held .out ∧ 1 ∉ relent.2.held .idle ∧ 1 ∉ snatched.2.held .out := by
  have first : ended.1 = [.giveBack 0, .take 0 ⟨⟨1, north⟩, true⟩] := by decide +kernel
  have second : relent.1 = .take 1 ⟨⟨1, north⟩, false⟩ :: ended.1 := by decide +kernel
  have third : snatched.1 = [.giveBack 0] ++ .take 1 ⟨⟨1, north⟩, false⟩ :: ended.1 := by decide +kernel
  have lease : IsLease 0 1 ended.1 := ⟨⟨⟨1, north⟩, true⟩, by simp [first], rfl⟩
  have idle : ended.2.giveBack 5 ⟨1, north⟩ = ended.2 := by
    apply (usage_ended.returns.1 0 ⟨⟨1, north⟩, true⟩ 5 (by simp [first])).2
    rw [first]
    exact .inl ⟨⟨⟨1, north⟩, true⟩, .head _, rfl⟩
  have out : 1 ∈ relent.2.held .out :=
    (usage_relent.returns.2.1 1 ⟨⟨1, north⟩, false⟩ [] ended.1 second (by simp) (by simp)).2 (by simp)
  refine ⟨usage_ended, usage_relent, usage_snatched, idle, fun same => ?_, out,
    (usage_relent.returns.2.2 1 out).1, fun out => ?_⟩
  · have back := (usage_relent.returns.1 0 ⟨⟨1, north⟩, true⟩ 5 (by simp [second, first])).1 same
    rw [second] at back
    exact back.1 rfl
  · have kept := (usage_snatched.returns.2.1 1 ⟨⟨1, north⟩, false⟩ [.giveBack 0] ended.1 third (by decide)
      (by decide)).1 out
    exact kept 0 (.head _) lease

end Returns

end ServiceGovernance.Pool
