import ServiceGovernance.Admission.Rate
import ServiceGovernance.Proofs.SortedSets

/-!
How many requests of a name a limiter lets through while the clock does not go back. A window holds no
more requests than the limit that stands, and no second of time meets more than two windows. A request
is refused only if as many requests as the limit says have been let through within the last second.
-/

namespace ServiceGovernance.Admission

namespace RateLimiter

/-- What has happened to a limiter at a moment: a limit was set, or a request was answered. -/
inductive Event where
  | limited (time : Nat) (name : String) (max : Int)
  | answered (time : Nat) (name : String) (answer : Except CallFault Unit)

def Event.time : Event → Nat
  | .limited time _ _ => time
  | .answered time _ _ => time

/-- A request of the name that was let through. -/
def Event.admits (name : String) : Event → Bool
  | .limited _ _ _ => false
  | .answered _ other answer => other == name && answer.isOk

/-- The limiter that a run has come to, with what has happened on the way, the latest first. -/
inductive Run : List Event → RateLimiter → Prop where
  | fresh : Run [] {}
  | configure {log : List Event} {l : RateLimiter} (before : Run log l) {now : Nat}
      (later : ∀ event ∈ log, event.time ≤ now) (name : String) (max : Int) :
      Run (.limited now name max :: log) (l.configure now name max)
  | add {log : List Event} {l : RateLimiter} (before : Run log l) {now : Nat}
      (later : ∀ event ∈ log, event.time ≤ now) (name : String) :
      Run (.answered now name (l.add now name).1 :: log) (l.add now name).2

/-- The limit that was set last. -/
def limitOf? (name : String) : List Event → Option Int
  | [] => none
  | .limited _ other max :: earlier => if other = name then some max else limitOf? name earlier
  | .answered _ _ _ :: earlier => limitOf? name earlier

/-- The requests of a name that were let through at times that count. -/
def tally (name : String) (counts : Nat → Bool) (log : List Event) : Nat :=
  log.countP fun event => event.admits name && counts event.time

/-- The requests of a name that were let through from one moment to another, both included. -/
def admitted (name : String) (first last : Nat) (log : List Event) : Nat :=
  tally name (fun time => first ≤ time && time ≤ last) log

variable {log phase : List Event} {l : RateLimiter} {name other : String} {now : Nat} {max : Int}
  {w : RateWindow} {event : Event}

section Tally

variable {p q r : Nat → Bool}

theorem tally_mono
    (imp : ∀ event ∈ log, event.admits name = true → p event.time = true → q event.time = true) :
    tally name p log ≤ tally name q log := by
  apply List.countP_mono_left
  intro event member both
  obtain ⟨admits, counts⟩ := Bool.and_eq_true_iff.1 both
  exact Bool.and_eq_true_iff.2 ⟨admits, imp event member admits counts⟩

theorem tally_eq_zero (none_counts : ∀ event ∈ log, event.admits name = true → p event.time = false) :
    tally name p log = 0 := by
  apply List.countP_eq_zero.2
  intro event member both
  obtain ⟨admits, counts⟩ := Bool.and_eq_true_iff.1 both
  rw [none_counts event member admits] at counts
  cases counts

theorem tally_le_add (either : ∀ time, p time = true → q time = true ∨ r time = true) (log : List Event) :
    tally name p log ≤ tally name q log + tally name r log := by
  induction log with
  | nil => simp [tally]
  | cons event log ih =>
      have cases_here := either event.time
      unfold tally at ih ⊢
      simp only [List.countP_cons, Bool.and_eq_true]
      grind

theorem not_admits_error (now : Nat) (name other : String) (fault : CallFault) :
    Event.admits name (.answered now other (.error fault)) = false := by
  simp [Event.admits, Except.isOk, Except.toBool]

theorem tally_cons_of_not (idle : event.admits name = false) (p : Nat → Bool) (log : List Event) :
    tally name p (event :: log) = tally name p log := by
  simp [tally, idle]

theorem tally_cons (now : Nat) (p : Nat → Bool) (log : List Event) :
    tally name p (.answered now name (.ok ()) :: log) = tally name p log + if p now = true then 1 else 0 := by
  have admits : Event.admits name (.answered now name (.ok ())) = true := by
    simp [Event.admits, Except.isOk, Except.toBool]
  rw [tally, List.countP_cons, admits, Bool.true_and]
  rfl

end Tally

section Operations

theorem refresh_cases (w : RateWindow) (now : Nat) :
    (now ≤ w.start + windowMilliseconds ∧ w.refresh now = w) ∨
    (w.start + windowMilliseconds < now ∧ w.refresh now = { w with start := now, count := 0 }) := by
  unfold RateWindow.refresh
  split
  · next passed => exact .inr ⟨by omega, rfl⟩
  · next within => exact .inl ⟨by omega, rfl⟩

theorem max_refresh (w : RateWindow) (now : Nat) : (w.refresh now).max = w.max := by
  unfold RateWindow.refresh
  split <;> rfl

/-- A window that has just begun refuses nothing, so what refuses is a window that goes on. -/
theorem add_cases (l : RateLimiter) (now : Nat) (name : String) :
    ((∀ max, l.limit? name = some max → max ≤ 0) ∧ l.add now name = (.ok (), l)) ∨
    (∃ w, l.windows.get? name = some w ∧ 0 < w.max ∧ (w.refresh now).count < w.max ∧
      l.add now name = (.ok (), ⟨l.windows.insert name
        { w.refresh now with count := (w.refresh now).count + 1 }⟩)) ∨
    (∃ w, l.windows.get? name = some w ∧ 0 < w.max ∧ w.max ≤ w.count ∧
      now ≤ w.start + windowMilliseconds ∧
      l.add now name = (.error (.rejected .rate name w.max), ⟨l.windows.insert name w⟩)) := by
  unfold add limit?
  cases found : l.windows.get? name with
  | none => exact .inl ⟨by simp, rfl⟩
  | some w =>
      by_cases off : w.max ≤ 0
      · exact .inl ⟨by simpa using off, if_pos off⟩
      · have on : 0 < w.max := by omega
        simp only [if_neg off]
        by_cases full : w.max ≤ (w.refresh now).count
        · have refused : (w.refresh now).admit? = none := by
            rw [RateWindow.admit?, max_refresh, if_pos full]
          rcases refresh_cases w now with ⟨within, same⟩ | ⟨_, begun⟩
          · rw [refused, same]
            rw [same] at full
            exact .inr (.inr ⟨w, rfl, on, full, within, rfl⟩)
          · rw [begun] at full
            exact absurd full (Int.not_le.2 on)
        · have counted : (w.refresh now).admit? = some
              { w.refresh now with count := (w.refresh now).count + 1 } := by
            simp [RateWindow.admit?, max_refresh, full]
          rw [counted]
          exact .inr (.inl ⟨w, rfl, on, by omega, rfl⟩)

end Operations

section Counting

/-- What the log tells of the window of a name: since it began it has counted no more than came through. -/
structure Counts (name : String) (log : List Event) (w : RateWindow) : Prop where
  begun : ∃ event ∈ log, event.time = w.start
  counted : w.count ≤ tally name (fun time => w.start ≤ time) log

theorem Counts.idle (counts : Counts name log w) (idle : event.admits name = false) (max : Int) :
    Counts name (event :: log) { w with max } := by
  obtain ⟨first, member, same⟩ := counts.begun
  refine ⟨⟨first, List.mem_cons_of_mem _ member, same⟩, ?_⟩
  rw [tally_cons_of_not idle]
  exact counts.counted

theorem Counts.start_le (counts : Counts name log w) (later : ∀ event ∈ log, event.time ≤ now) :
    w.start ≤ now := by
  obtain ⟨first, member, same⟩ := counts.begun
  exact same ▸ later first member

theorem Counts.grant (counts : Counts name log w) (later : ∀ event ∈ log, event.time ≤ now) :
    Counts name (.answered now name (.ok ()) :: log)
      { w.refresh now with count := (w.refresh now).count + 1 } := by
  rcases refresh_cases w now with ⟨_, same⟩ | ⟨_, begun⟩
  · rw [same]
    obtain ⟨first, member, start⟩ := counts.begun
    refine ⟨⟨first, List.mem_cons_of_mem _ member, start⟩, ?_⟩
    have inside : decide (w.start ≤ now) = true := decide_eq_true (counts.start_le later)
    rw [tally_cons, if_pos inside]
    exact Nat.succ_le_succ counts.counted
  · rw [begun]
    refine ⟨⟨_, List.mem_cons_self, rfl⟩, ?_⟩
    have inside : decide (now ≤ now) = true := decide_eq_true (Nat.le_refl now)
    rw [tally_cons, if_pos inside]
    simp only
    omega

theorem admits_of_ne (apart : other ≠ name) (now : Nat) (answer : Except CallFault Unit) :
    Event.admits other (.answered now name answer) = false := by
  have apart : (name == other) = false := beq_false_of_ne apart.symm
  rw [Event.admits, apart, Bool.false_and]

theorem get?_add_of_ne (apart : other ≠ name) (l : RateLimiter) (now : Nat) :
    (l.add now name).2.windows.get? other = l.windows.get? other := by
  rcases l.add_cases now name with ⟨_, same⟩ | ⟨w, _, _, _, same⟩ | ⟨w, _, _, _, _, same⟩
  · rw [same]
  · rw [same, SortedMap.get?_insert, if_neg apart]
  · rw [same, SortedMap.get?_insert, if_neg apart]

theorem get?_configure (l : RateLimiter) (now : Nat) (name other : String) (max : Int) :
    (l.configure now name max).windows.get? other =
      if other = name then some { ((l.windows.get? name).getD { max, start := now }) with max }
      else l.windows.get? other := by
  rw [configure, SortedMap.update, SortedMap.get?_insert]

/-- A limiter knows the limit that was set last, and its windows count what the log tells. -/
theorem Run.counts (run : Run log l) (name : String) :
    l.limit? name = limitOf? name log ∧ ∀ w, l.windows.get? name = some w → Counts name log w := by
  induction run with
  | fresh => exact ⟨rfl, fun w found => by cases found⟩
  | @configure log l before now later other max ih =>
      have idle : Event.admits name (.limited now other max) = false := rfl
      rw [limit?, get?_configure, limitOf?]
      by_cases same : name = other
      · subst same
        simp only [if_true, Option.map_some, Option.some.injEq, true_and]
        rintro w rfl
        cases found : l.windows.get? name with
        | none => exact ⟨⟨_, List.mem_cons_self, rfl⟩, Nat.zero_le _⟩
        | some w => exact (ih.2 w found).idle idle max
      · rw [if_neg same, if_neg fun h => same h.symm]
        exact ⟨ih.1, fun w found => (ih.2 w found).idle idle w.max⟩
  | @add log l before now later other ih =>
      rw [limit?, limitOf?]
      by_cases same : name = other
      · subst same
        rcases l.add_cases now name with
          ⟨off, answered⟩ | ⟨w, found, on, room, answered⟩ | ⟨w, found, on, full, within, answered⟩
        · rw [answered]
          refine ⟨ih.1, fun w found => ?_⟩
          obtain ⟨begun, counted⟩ := ih.2 w found
          obtain ⟨first, member, start⟩ := begun
          refine ⟨⟨first, List.mem_cons_of_mem _ member, start⟩, ?_⟩
          rw [tally_cons]
          omega
        · rw [answered, SortedMap.get?_insert, if_pos rfl, ← ih.1, limit?, found]
          refine ⟨congrArg some (max_refresh w now), ?_⟩
          rintro _ ⟨⟩
          exact (ih.2 w found).grant later
        · rw [answered, SortedMap.get?_insert, if_pos rfl, ← ih.1, limit?, found]
          refine ⟨rfl, ?_⟩
          rintro _ ⟨⟩
          exact (ih.2 w found).idle (not_admits_error now name name _) w.max
      · rw [get?_add_of_ne same]
        exact ⟨ih.1, fun w found => (ih.2 w found).idle (admits_of_ne same now _) w.max⟩

/-- The run up to an earlier moment. -/
theorem Run.earlier {later : List Event} (run : Run (later ++ log) l) : ∃ earlier, Run log earlier := by
  induction later generalizing l with
  | nil => exact ⟨l, run⟩
  | cons event later ih =>
      cases run with
      | configure before _ _ _ => exact ih before
      | add before _ _ => exact ih before

end Counting

section Phase

/-- A phase in which the limit of a name is the same throughout. -/
def Steady (name : String) (max : Int) (phase : List Event) : Prop :=
  ∀ time other, .limited time name other ∈ phase → other = max

/-- What came through in a phase with one limit, by the window that is open now: in this window, within
the second before it, and in any second at all. -/
structure Bounded (name : String) (max : Int) (phase : List Event) (w : RateWindow) : Prop where
  within : ∀ event ∈ phase, event.admits name = true → event.time ≤ w.start + windowMilliseconds
  counted : tally name (fun time => w.start ≤ time) phase ≤ w.count
  here : (tally name (fun time => w.start ≤ time) phase : Int) ≤ max
  before : (tally name (fun time => time < w.start && w.start ≤ time + windowMilliseconds) phase : Int) ≤ max
  second : ∀ first, (admitted name first (first + windowMilliseconds) phase : Int) ≤ 2 * max

theorem bounded_nil (positive : 0 < max) (w : RateWindow) : Bounded name max [] w := by
  refine ⟨fun _ member => absurd member List.not_mem_nil, Nat.zero_le _, ?_, ?_, fun first => ?_⟩ <;>
    simp [tally, admitted] <;> omega

theorem Bounded.idle (bounded : Bounded name max phase w) (idle : event.admits name = false) (limit : Int) :
    Bounded name max (event :: phase) { w with max := limit } := by
  refine ⟨fun other member admits => ?_, ?_, ?_, ?_, fun first => ?_⟩
  · rcases List.mem_cons.1 member with rfl | member
    · rw [idle] at admits
      cases admits
    · exact bounded.within other member admits
  · rw [tally_cons_of_not idle]
    exact bounded.counted
  · rw [tally_cons_of_not idle]
    exact bounded.here
  · rw [tally_cons_of_not idle]
    exact bounded.before
  · rw [admitted, tally_cons_of_not idle]
    exact bounded.second first

/-- A new window begins more than a second after the last one, so the second before it lies in that one. -/
theorem Bounded.refresh (bounded : Bounded name max phase w) (positive : 0 < max)
    (later : ∀ event ∈ phase, event.time ≤ now) : Bounded name max phase (w.refresh now) := by
  rcases refresh_cases w now with ⟨_, same⟩ | ⟨passed, begun⟩
  · rw [same]
    exact bounded
  · have none_yet : tally name (fun time => now ≤ time) phase = 0 := by
      apply tally_eq_zero
      intro event member admits
      have := bounded.within event member admits
      simp only [decide_eq_false_iff_not]
      omega
    have last_window : tally name (fun time => time < now && now ≤ time + windowMilliseconds) phase ≤
        tally name (fun time => w.start ≤ time) phase := by
      apply tally_mono
      intro event _ _ counts
      simp only [Bool.and_eq_true, decide_eq_true_eq] at counts ⊢
      omega
    rw [begun]
    refine ⟨fun event member _ => Nat.le_add_right_of_le (later event member), ?_, ?_, ?_, bounded.second⟩
    · exact Nat.le_of_eq none_yet
    · rw [none_yet]
      omega
    · have := bounded.here
      exact Int.le_trans (Int.ofNat_le.2 last_window) this

theorem Bounded.grant (bounded : Bounded name max phase w) (started : w.start ≤ now)
    (open_still : now ≤ w.start + windowMilliseconds) (room : (w.count : Int) < max) :
    Bounded name max (.answered now name (.ok ()) :: phase) { w with count := w.count + 1 } := by
  have inside : decide (w.start ≤ now) = true := decide_eq_true started
  have not_before : (decide (now < w.start) && decide (w.start ≤ now + windowMilliseconds)) = false := by
    simp only [Bool.and_eq_false_imp, decide_eq_true_eq]
    omega
  have counted : tally name (fun time => w.start ≤ time) (.answered now name (.ok ()) :: phase) =
      tally name (fun time => w.start ≤ time) phase + 1 := by
    rw [tally_cons, if_pos inside]
  have counted_before := bounded.counted
  have before : (tally name (fun time => time < w.start && w.start ≤ time + windowMilliseconds)
      (.answered now name (.ok ()) :: phase) : Int) ≤ max := by
    rw [tally_cons, not_before]
    exact bounded.before
  have here : (tally name (fun time => w.start ≤ time) (.answered now name (.ok ()) :: phase) : Int) ≤
      max := by
    rw [counted]
    omega
  refine ⟨fun event member admits => ?_, ?_, here, before, fun first => ?_⟩
  · rcases List.mem_cons.1 member with rfl | member
    · exact open_still
    · exact bounded.within event member admits
  · rw [counted]
    exact Nat.succ_le_succ counted_before
  · by_cases meets : first ≤ now ∧ now ≤ first + windowMilliseconds
    · -- A second that ends after the window has begun meets this window and the second before it.
      have split_here :
          admitted name first (first + windowMilliseconds) (.answered now name (.ok ()) :: phase) ≤
          tally name (fun time => time < w.start && w.start ≤ time + windowMilliseconds)
            (.answered now name (.ok ()) :: phase) +
          tally name (fun time => w.start ≤ time) (.answered now name (.ok ()) :: phase) := by
        apply tally_le_add
        intro time counts
        simp only [Bool.and_eq_true, decide_eq_true_eq] at counts ⊢
        omega
      omega
    · have outside : (decide (first ≤ now) && decide (now ≤ first + windowMilliseconds)) = false := by
        simpa using meets
      rw [admitted, tally_cons, outside]
      exact bounded.second first

/-- Along a phase with one positive limit the bounds hold at every moment. -/
theorem Run.bounded {earlier : List Event} (run : Run (phase ++ earlier) l) (positive : 0 < max)
    (standing : limitOf? name earlier = some max) (steady : Steady name max phase) :
    limitOf? name (phase ++ earlier) = some max ∧
      ∀ w, l.windows.get? name = some w → Bounded name max phase w := by
  induction phase generalizing l with
  | nil => exact ⟨standing, fun w _ => bounded_nil positive w⟩
  | cons event phase ih =>
      have steady_before : Steady name max phase := fun time other member =>
        steady time other (List.mem_cons_of_mem _ member)
      cases run with
      | @configure _ l before now later other limit =>
          obtain ⟨limit_before, bounded⟩ := ih before steady_before
          have idle : Event.admits name (.limited now other limit) = false := rfl
          rw [List.cons_append, limitOf?, get?_configure]
          by_cases same : name = other
          · subst same
            have same_limit := steady now limit List.mem_cons_self
            obtain ⟨w, found, _⟩ : ∃ w, l.windows.get? name = some w ∧ w.max = max := by
              have known := (before.counts name).1.trans limit_before
              simpa [limit?] using known
            simp only [if_true, same_limit, found, Option.getD_some, Option.some.injEq, true_and]
            rintro _ rfl
            exact (bounded w found).idle rfl max
          · rw [if_neg same, if_neg fun h => same h.symm]
            exact ⟨limit_before, fun w found => (bounded w found).idle idle w.max⟩
      | @add _ l before now later other =>
          obtain ⟨limit_before, bounded⟩ := ih before steady_before
          refine ⟨limit_before, fun w found => ?_⟩
          have later_phase : ∀ event ∈ phase, event.time ≤ now := fun event member =>
            later event (List.mem_append_left _ member)
          by_cases same : name = other
          · subst same
            have known := (before.counts name).1.trans limit_before
            rcases l.add_cases now name with
              ⟨off, _⟩ | ⟨old, there, on, room, answered⟩ | ⟨old, there, on, full, within, answered⟩
            · exact absurd (off max known) (Int.not_le.2 positive)
            · have limit_old : old.max = max := by simpa [limit?, there] using known
              have started := ((before.counts name).2 old there).start_le later
              rw [answered, SortedMap.get?_insert, if_pos rfl] at found
              cases found
              rw [answered]
              have open_still : (old.refresh now).start ≤ now ∧
                  now ≤ (old.refresh now).start + windowMilliseconds := by
                rcases refresh_cases old now with ⟨within, same⟩ | ⟨_, begun⟩
                · rw [same]
                  exact ⟨started, within⟩
                · rw [begun]
                  exact ⟨Nat.le_refl _, Nat.le_add_right _ _⟩
              exact ((bounded old there).refresh positive later_phase).grant open_still.1 open_still.2
                (limit_old ▸ room)
            · rw [answered, SortedMap.get?_insert, if_pos rfl] at found
              cases found
              rw [answered]
              exact (bounded w there).idle (not_admits_error now name name _) w.max
          · rw [get?_add_of_ne same] at found
            exact (bounded w found).idle (admits_of_ne same now _) w.max

end Phase

section Rates

theorem Run.answer {answer : Except CallFault Unit} (run : Run (.answered now name answer :: log) l) :
    ∃ earlier, Run log earlier ∧ (∀ event ∈ log, event.time ≤ now) ∧ (earlier.add now name).1 = answer := by
  cases run with
  | add before later _ => exact ⟨_, before, later, rfl⟩

/-- The window that refuses a request has begun within the last second, and has counted up to the limit. -/
theorem Run.refused {fault : CallFault} (run : Run (.answered now name (.error fault) :: log) l) :
    ∃ max, limitOf? name log = some max ∧ 0 < max ∧ fault = .rejected .rate name max ∧
      max ≤ admitted name (now - windowMilliseconds) now log := by
  obtain ⟨earlier, before, later, refused⟩ := run.answer
  rcases earlier.add_cases now name with
    ⟨_, answered⟩ | ⟨w, _, _, _, answered⟩ | ⟨w, found, on, full, within, answered⟩
  · rw [answered] at refused
    cases refused
  · rw [answered] at refused
    cases refused
  · rw [answered] at refused
    cases refused
    obtain ⟨known, counts⟩ := before.counts name
    have counted := (counts w found).counted
    have recent : tally name (fun time => w.start ≤ time) log ≤
        admitted name (now - windowMilliseconds) now log := by
      apply tally_mono
      intro event member _ inside
      have := later event member
      simp only [Bool.and_eq_true, decide_eq_true_eq] at inside ⊢
      omega
    refine ⟨w.max, ?_, on, rfl, ?_⟩
    · rw [← known, limit?, found]
      rfl
    · calc w.max ≤ (w.count : Int) := full
        _ ≤ (tally name (fun time => w.start ≤ time) log : Int) := Int.ofNat_le.2 counted
        _ ≤ _ := Int.ofNat_le.2 recent

/-- While the limit of a name stands at a positive number, any closed second lets through at most twice as
many requests of the name; and a request that is refused tells that the second before it has let through
at least as many as the limit says, whatever limits have been set before. -/
theorem Run.rates (run : Run log l) (name : String) :
    l.limit? name = limitOf? name log ∧
    (∀ later phase earlier max, log = later ++ (phase ++ earlier) → limitOf? name earlier = some max →
      0 < max → Steady name max phase → ∀ first, (admitted name first (first + 1000) phase : Int) ≤ 2 * max) ∧
    ∀ later earlier now fault, log = later ++ .answered now name (.error fault) :: earlier →
      ∃ max, limitOf? name earlier = some max ∧ 0 < max ∧ fault = .rejected .rate name max ∧
        max ≤ admitted name (now - 1000) now earlier := by
  refine ⟨(run.counts name).1, ?_, ?_⟩
  · intro later phase earlier max whole standing positive steady first
    rw [whole] at run
    obtain ⟨there, run⟩ := run.earlier
    obtain ⟨limit, bounded⟩ := run.bounded positive standing steady
    have known := (run.counts name).1.trans limit
    obtain ⟨w, found, _⟩ := Option.map_eq_some_iff.1 known
    exact (bounded w found).second first
  · intro later earlier now fault whole
    rw [whole] at run
    obtain ⟨there, run⟩ := run.earlier
    exact run.refused

/-- The log and the limiter after one more request. -/
def requested (now : Nat) (name : String) (m : List Event × RateLimiter) : List Event × RateLimiter :=
  (.answered now name (m.2.add now name).1 :: m.1, (m.2.add now name).2)

theorem run_requested {m : List Event × RateLimiter} (run : Run m.1 m.2) (now : Nat) (name : String)
    (later : ∀ event ∈ m.1, event.time ≤ now) : Run (requested now name m).1 (requested now name m).2 :=
  run.add later name

def limited : List Event × RateLimiter := ([.limited 0 "s" 2], configure {} 0 "s" 2)

/-- Two requests at the end of one window, and two at the beginning of the next one. -/
def crowded : List Event × RateLimiter :=
  requested 1001 "s" <| requested 1001 "s" <| requested 1000 "s" <| requested 1000 "s" limited

theorem run_crowded : Run crowded.1 crowded.2 := by
  have first : Run limited.1 limited.2 :=
    .configure .fresh (fun _ member => absurd member List.not_mem_nil) "s" 2
  have early := run_requested (run_requested first 1000 "s" (by decide)) 1000 "s" (by decide +kernel)
  exact run_requested (run_requested early 1001 "s" (by decide +kernel)) 1001 "s" (by decide +kernel)

/-- Twice the limit within a second, and then a request that is refused. -/
theorem crowded_rates :
    Run (requested 1001 "s" crowded).1 (requested 1001 "s" crowded).2 ∧
      admitted "s" 1000 (1000 + 1000) (crowded.1.take 4) = 4 ∧
      (admitted "s" 1000 (1000 + 1000) (crowded.1.take 4) : Int) ≤ 2 * 2 ∧
      ∃ max, limitOf? "s" crowded.1 = some max ∧ max ≤ admitted "s" (1001 - 1000) 1001 crowded.1 := by
  have run := run_requested run_crowded 1001 "s" (by decide +kernel)
  have refused : (crowded.2.add 1001 "s").1 = .error (.rejected .rate "s" 2) := by rfl
  obtain ⟨_, bounded, filled⟩ := run.rates "s"
  have steady : Steady "s" 2 (crowded.1.take 4) := by
    intro time other member
    have none_set : Event.limited time "s" other ∉ crowded.1.take 4 := by
      simp [crowded, limited, requested]
    exact absurd member none_set
  obtain ⟨max, limit, _, _, enough⟩ := filled [] crowded.1 1001 _ (by rw [requested, refused]; rfl)
  refine ⟨run, by decide +kernel, ?_, max, limit, enough⟩
  exact bounded [.answered 1001 "s" (.error (.rejected .rate "s" 2))] (crowded.1.take 4) limited.1 2
    (by rw [requested, refused]; rfl) (by decide +kernel) (by decide) steady 1000

end Rates

end RateLimiter

end ServiceGovernance.Admission
