import ServiceGovernance.Admission.Concurrency
import ServiceGovernance.Proofs.SortedSets

/-!
Who is admitted by a limiter of requests in flight. Slots are taken by a count or by a permit and given
back the way they were taken, while limits change. The limiter counts what is outstanding, admits exactly
while the limit is above that, and with one limit in force never comes above it.
-/

namespace ServiceGovernance.Admission

namespace ActiveCounter

variable {c : ActiveCounter}

theorem isFull_eq_false_iff : c.isFull = false ↔ c.max = 0 ∨ c.current.toNat < c.max.toNat := by
  simp [isFull, Decidable.or_iff_not_imp_left, UInt32.lt_iff_toNat_lt]

theorem current_decrease (taken : 0 < c.current.toNat) :
    c.decrease.max = c.max ∧ c.decrease.current.toNat = c.current.toNat - 1 := by
  have some_out : c.current ≠ 0 := by
    intro none_out
    simp [none_out] at taken
  rw [decrease, if_neg some_out]
  have one : (1 : UInt32) ≤ c.current := UInt32.le_iff_toNat_le.2 taken
  exact ⟨rfl, UInt32.toNat_sub_of_le _ _ one⟩

end ActiveCounter

namespace ConcurrencyLimiter

inductive Hold where
  | count
  | permit
deriving DecidableEq

/-- What has happened to a limiter: a limit was set, somebody asked, a slot was wanted or given back. -/
inductive Event where
  | limited (name : String) (max : UInt32)
  | asked (name : String)
  | wanted (hold : Hold) (name : String) (admitted : Bool)
  | returned (hold : Hold) (name : String)

/-- The slots of a name that are out this way. -/
def held (hold : Hold) (name : String) : List Event → Nat
  | [] => 0
  | .wanted way other admitted :: earlier =>
      held hold name earlier + if way = hold ∧ other = name ∧ admitted = true then 1 else 0
  | .returned way other :: earlier => held hold name earlier - if way = hold ∧ other = name then 1 else 0
  | .limited _ _ :: earlier | .asked _ :: earlier => held hold name earlier

def outstanding (name : String) (log : List Event) : Nat := held .count name log + held .permit name log

/-- The limit that was set last; there is none before. -/
def limitOf (name : String) : List Event → UInt32
  | [] => 0
  | .limited other max :: earlier => if other = name then max else limitOf name earlier
  | .asked _ :: earlier | .wanted _ _ _ :: earlier | .returned _ _ :: earlier => limitOf name earlier

/-- A slot is free. -/
def Free (name : String) (log : List Event) : Prop :=
  limitOf name log = 0 ∨ outstanding name log < (limitOf name log).toNat

instance (name : String) (log : List Event) : Decidable (Free name log) :=
  inferInstanceAs (Decidable (_ ∨ _))

/-- The limiter that a run has come to, with what has happened on the way, the latest first. Only what has
been taken comes back, the way it was taken, and what is out of a name can be counted. -/
inductive Run : List Event → ConcurrencyLimiter → Prop where
  | fresh : Run [] {}
  | configure {log : List Event} {l : ConcurrencyLimiter} (before : Run log l) (name : String) (max : UInt32) :
      Run (.limited name max :: log) (l.configure name max)
  | check {log : List Event} {l : ConcurrencyLimiter} (before : Run log l) (name : String) :
      Run (.asked name :: log) l
  | increase {log : List Event} {l : ConcurrencyLimiter} (before : Run log l) (name : String)
      (countable : outstanding name log + 1 < UInt32.size) :
      Run (.wanted .count name (l.increase name).1 :: log) (l.increase name).2
  | acquire {log : List Event} {l : ConcurrencyLimiter} (before : Run log l) (name : String)
      (countable : outstanding name log + 1 < UInt32.size) :
      Run (.wanted .permit name (l.acquire name).1.isOk :: log) (l.acquire name).2
  | decrease {log : List Event} {l : ConcurrencyLimiter} (before : Run log l) (name : String)
      (out : 0 < held .count name log) : Run (.returned .count name :: log) (l.decrease name)
  | drop {log : List Event} {l : ConcurrencyLimiter} (before : Run log l) (name : String)
      (out : 0 < held .permit name log) : Run (.returned .permit name :: log) (l.decrease name)

variable {log : List Event} {l : ConcurrencyLimiter} {name other : String} {hold : Hold}

section Outstanding

theorem outstanding_wanted (hold : Hold) (name other : String) (admitted : Bool) (log : List Event) :
    outstanding name (.wanted hold other admitted :: log) =
      outstanding name log + if other = name ∧ admitted = true then 1 else 0 := by
  cases hold <;> simp [outstanding, held] <;> omega

theorem outstanding_returned (out : 0 < held hold other log) :
    outstanding name log = outstanding name (.returned hold other :: log) + if other = name then 1 else 0 := by
  by_cases same : other = name
  · subst same
    cases hold <;> simp [outstanding, held] <;> omega
  · simp [outstanding, held, same]

theorem outstanding_returned_le (out : 0 < held hold other log) :
    outstanding name (.returned hold other :: log) ≤ outstanding name log :=
  Nat.le.intro (outstanding_returned out).symm

end Outstanding

section Counting

theorem counter_put (l : ConcurrencyLimiter) (name other : String) (c : ActiveCounter) :
    (l.put name c).counter other = if other = name then c else l.counter other := by
  simp only [counter, put, SortedMap.get?_insert]
  split <;> rfl

theorem increase_cases (l : ConcurrencyLimiter) (name : String) :
    ((l.counter name).isFull = true ∧ l.increase name = (false, l)) ∨
    ((l.counter name).isFull = false ∧ l.increase name =
      (true, l.put name { l.counter name with current := (l.counter name).current + 1 })) := by
  unfold increase ActiveCounter.increase?
  cases full : (l.counter name).isFull
  · exact .inr ⟨rfl, rfl⟩
  · exact .inl ⟨rfl, rfl⟩

/-- A permit is had exactly if the count can be increased, and is counted like it. -/
theorem acquire_eq (l : ConcurrencyLimiter) (name : String) :
    l.acquire name =
      (if (l.increase name).1 then .ok name else .error (l.rejection name), (l.increase name).2) := by
  unfold acquire
  split <;> next wanted => rw [wanted]; rfl

theorem isOk_acquire (l : ConcurrencyLimiter) (name : String) :
    (l.acquire name).1.isOk = (l.increase name).1 := by
  rw [acquire_eq]
  cases (l.increase name).1 <;> rfl

/-- The counter of every name has the limit that was set last and the slots that are out. -/
def Counts (log : List Event) (l : ConcurrencyLimiter) : Prop :=
  ∀ name, (l.counter name).max = limitOf name log ∧ (l.counter name).current.toNat = outstanding name log

theorem Counts.isFull_eq_false_iff (counts : Counts log l) (name : String) :
    (l.counter name).isFull = false ↔ Free name log := by
  obtain ⟨limit, current⟩ := counts name
  rw [ActiveCounter.isFull_eq_false_iff, limit, current]
  rfl

theorem Counts.increase_iff (counts : Counts log l) (name : String) :
    (l.increase name).1 = true ↔ Free name log := by
  rw [← counts.isFull_eq_false_iff]
  rcases l.increase_cases name with ⟨full, refused⟩ | ⟨free, admitted⟩
  · simp [full, refused]
  · simp [free, admitted]

theorem Counts.configure (counts : Counts log l) (name : String) (max : UInt32) :
    Counts (.limited name max :: log) (l.configure name max) := by
  intro other
  obtain ⟨limit, current⟩ := counts other
  rw [ConcurrencyLimiter.configure, counter_put, limitOf]
  by_cases same : other = name
  · subst same
    rw [if_pos rfl, if_pos rfl]
    exact ⟨rfl, current⟩
  · rw [if_neg same, if_neg (Ne.symm same)]
    exact ⟨limit, current⟩

theorem Counts.want (counts : Counts log l) (countable : outstanding name log + 1 < UInt32.size) (hold : Hold) :
    Counts (.wanted hold name (l.increase name).1 :: log) (l.increase name).2 := by
  intro other
  obtain ⟨limit, current⟩ := counts other
  rw [outstanding_wanted]
  rcases l.increase_cases name with ⟨_, refused⟩ | ⟨_, admitted⟩
  · rw [refused]
    exact ⟨limit, by simpa using current⟩
  · rw [admitted, counter_put]
    by_cases same : other = name
    · subst same
      have added : ((l.counter other).current + 1).toNat = (l.counter other).current.toNat + 1 := by
        rw [UInt32.toNat_add, current]
        exact Nat.mod_eq_of_lt countable
      rw [if_pos rfl]
      exact ⟨limit, by simp [added, current]⟩
    · rw [if_neg same]
      exact ⟨limit, by simpa [Ne.symm same] using current⟩

theorem Counts.giveBack (counts : Counts log l) (out : 0 < held hold name log) :
    Counts (.returned hold name :: log) (l.decrease name) := by
  intro other
  obtain ⟨limit, current⟩ := counts other
  have before : outstanding other log = _ := outstanding_returned out
  rw [decrease, counter_put]
  by_cases same : other = name
  · subst same
    rw [if_pos rfl] at before ⊢
    obtain ⟨same_limit, one_less⟩ := (l.counter other).current_decrease (by omega)
    exact ⟨same_limit.trans limit, by omega⟩
  · rw [if_neg (Ne.symm same)] at before
    rw [if_neg same]
    exact ⟨limit, by omega⟩

theorem Run.counts (run : Run log l) : Counts log l := by
  induction run with
  | fresh => exact fun _ => ⟨rfl, rfl⟩
  | configure _ name max ih => exact ih.configure name max
  | check _ _ ih => exact ih
  | increase _ _ countable ih => exact ih.want countable .count
  | acquire _ _ countable ih =>
      rw [isOk_acquire, acquire_eq]
      exact ih.want countable .permit
  | decrease _ _ out ih => exact ih.giveBack out
  | drop _ _ out ih => exact ih.giveBack out

end Counting

section Bound

/-- A phase in which the limit of a name is the same throughout. -/
def Steady (name : String) (max : UInt32) (phase : List Event) : Prop :=
  ∀ other, .limited name other ∈ phase → other = max

theorem Counts.outstanding_le (counts : Counts log l) {max : UInt32} (positive : max ≠ 0)
    (standing : limitOf name log = max) (within : outstanding name log ≤ max.toNat) (hold : Hold)
    (other : String) : outstanding name (.wanted hold other (l.increase other).1 :: log) ≤ max.toNat := by
  rw [outstanding_wanted]
  split
  · next admitted =>
      obtain ⟨rfl, admitted⟩ := admitted
      have free := (counts.increase_iff other).1 admitted
      rw [Free, standing] at free
      exact free.resolve_left positive
  · exact within

/-- While a limit stands, what is outstanding does not come above it. -/
theorem Run.bounded {later : List Event} {max : UInt32} (run : Run (later ++ log) l) (positive : max ≠ 0)
    (standing : limitOf name log = max) (steady : Steady name max later)
    (within : outstanding name log ≤ max.toNat) :
    limitOf name (later ++ log) = max ∧ outstanding name (later ++ log) ≤ max.toNat := by
  induction later generalizing l with
  | nil => exact ⟨standing, within⟩
  | cons event later ih =>
      have steady_before : Steady name max later := fun other member =>
        steady other (List.mem_cons_of_mem _ member)
      cases run with
      | configure before other limit =>
          obtain ⟨limit_before, bounded⟩ := ih before steady_before
          refine ⟨?_, bounded⟩
          rw [List.cons_append, limitOf]
          split
          · next same => exact steady limit (same ▸ List.mem_cons_self)
          · exact limit_before
      | check before other => exact ih before steady_before
      | increase before other countable =>
          obtain ⟨limit_before, bounded⟩ := ih before steady_before
          exact ⟨limit_before, before.counts.outstanding_le positive limit_before bounded ..⟩
      | acquire before other countable =>
          obtain ⟨limit_before, bounded⟩ := ih before steady_before
          rw [isOk_acquire]
          exact ⟨limit_before, before.counts.outstanding_le positive limit_before bounded ..⟩
      | decrease before other out =>
          obtain ⟨limit_before, bounded⟩ := ih before steady_before
          exact ⟨limit_before, Nat.le_trans (outstanding_returned_le out) bounded⟩
      | drop before other out =>
          obtain ⟨limit_before, bounded⟩ := ih before steady_before
          exact ⟨limit_before, Nat.le_trans (outstanding_returned_le out) bounded⟩

/-- The limiter counts what is outstanding. Whichever way a slot is wanted, it is had exactly if the limit
is zero or above that, which is when asking says so. While a positive limit stands from a moment at which
no more is outstanding, no more is. -/
theorem Run.slots (run : Run log l) (name : String) :
    (l.active name).toNat = outstanding name log ∧
    ((l.increase name).1 = true ↔ Free name log) ∧
    (l.acquire name).1 = (if Free name log then .ok name
      else .error (.rejected .concurrency name (limitOf name log).toNat)) ∧
    l.check name = (if Free name log then .ok ()
      else .error (.rejected .concurrency name (limitOf name log).toNat)) ∧
    ∀ later earlier max, log = later ++ earlier → limitOf name earlier = max → max ≠ 0 →
      Steady name max later → outstanding name earlier ≤ max.toNat → outstanding name log ≤ max.toNat := by
  have counts := run.counts
  obtain ⟨limit, current⟩ := counts name
  have rejection : l.rejection name = .rejected .concurrency name (limitOf name log).toNat := by
    rw [ConcurrencyLimiter.rejection, limit]
  refine ⟨current, counts.increase_iff name, ?_, ?_, ?_⟩
  · simp only [acquire_eq, rejection, counts.increase_iff name]
  · have full : (l.counter name).isFull = true ↔ ¬ Free name log := by
      rw [← counts.isFull_eq_false_iff, Bool.not_eq_false]
    rw [ConcurrencyLimiter.check, rejection]
    split
    · next refused => rw [if_neg (full.1 refused)]
    · next admitted => rw [if_pos (Decidable.not_not.1 (mt full.2 admitted))]
  · rintro later earlier max rfl standing positive steady within
    exact (run.bounded positive standing steady within).2

/-- The log and the limiter after one more slot was wanted. -/
def wanting (hold : Hold) (name : String) (m : List Event × ConcurrencyLimiter) :
    List Event × ConcurrencyLimiter :=
  (.wanted hold name (m.2.increase name).1 :: m.1, (m.2.increase name).2)

theorem run_wanting {m : List Event × ConcurrencyLimiter} (run : Run m.1 m.2) (name : String)
    (countable : outstanding name m.1 + 1 < UInt32.size) (hold : Hold) :
    Run (wanting hold name m).1 (wanting hold name m).2 := by
  cases hold with
  | count => exact run.increase name countable
  | permit =>
      have permitted := run.acquire name countable
      rwa [isOk_acquire, acquire_eq] at permitted

def limited : List Event × ConcurrencyLimiter := ([.limited "s" 2], configure {} "s" 2)

/-- A count, a permit and one too many. -/
def contended : List Event × ConcurrencyLimiter :=
  wanting .count "s" <| wanting .permit "s" <| wanting .count "s" limited

/-- The count comes back, and there is room for another permit. -/
def relieved : List Event × ConcurrencyLimiter :=
  wanting .permit "s" (.returned .count "s" :: contended.1, contended.2.decrease "s")

theorem run_relieved : Run relieved.1 relieved.2 := by
  have first : Run limited.1 limited.2 := .configure .fresh "s" 2
  have both := run_wanting (run_wanting first "s" (by decide +kernel) .count) "s" (by decide +kernel) .permit
  have refused : Run contended.1 contended.2 := run_wanting both "s" (by decide +kernel) .count
  exact run_wanting (refused.decrease "s" (by decide +kernel)) "s" (by decide +kernel) .permit

theorem relieved_slots :
    Run relieved.1 relieved.2 ∧ held .count "s" relieved.1 = 0 ∧ held .permit "s" relieved.1 = 2 ∧
      (relieved.2.active "s").toNat = 2 ∧ (relieved.2.increase "s").1 = false ∧
        outstanding "s" relieved.1 ≤ 2 := by
  obtain ⟨active, increase, _, _, bounded⟩ := run_relieved.slots "s"
  have out : outstanding "s" relieved.1 = 2 := by decide +kernel
  have full : ¬ Free "s" relieved.1 := by decide +kernel
  have steady : Steady "s" 2 (relieved.1.take 5) := by
    intro other member
    simp [relieved, contended, wanting, limited] at member
  refine ⟨run_relieved, by decide +kernel, by decide +kernel, active.trans out, ?_, ?_⟩
  · exact Bool.eq_false_iff.2 (mt increase.1 full)
  · exact bounded (relieved.1.take 5) limited.1 2 (by rfl) (by decide) (by decide) steady (by decide)

end Bound

end ConcurrencyLimiter

end ServiceGovernance.Admission
