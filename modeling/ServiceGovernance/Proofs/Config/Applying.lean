import ServiceGovernance.Proofs.Admission.Slots
import ServiceGovernance.Proofs.Admission.Windows
import ServiceGovernance.Session.Limits
import Mathlib.Data.List.Nodup

/-!
What is in force after a configuration has been applied. Modes and rates are kept under what they are
about, so each that is given is in force. The limits of services and of methods share one map of names,
where a service's own name can be what another one's method is counted under; there the later one wins.
-/

namespace ServiceGovernance

open Admission Balance

section Writes

variable {σ κ ν ω : Type} [DecidableEq κ] {write : σ → κ × ν → σ} {writes : List (κ × ν)} {key : κ} {value : ν}

/-- The value that is written last under a key. -/
def lastWritten? (key : κ) : List (κ × ν) → Option ν
  | [] => none
  | (other, value) :: rest => (lastWritten? key rest).or (if key = other then some value else none)

theorem mem_of_lastWritten (last : lastWritten? key writes = some value) : (key, value) ∈ writes := by
  induction writes with
  | nil => cases last
  | cons first rest ih =>
      rw [lastWritten?, Option.or_eq_some_iff] at last
      rcases last with later | ⟨_, here⟩
      · exact List.mem_cons_of_mem _ (ih later)
      · split at here
        · next same =>
            cases here
            exact same ▸ List.mem_cons_self
        · cases here

theorem lastWritten_eq_none_iff : lastWritten? key writes = none ↔ ∀ value, (key, value) ∉ writes := by
  induction writes with
  | nil => simp [lastWritten?]
  | cons first rest ih =>
      rw [lastWritten?, Option.or_eq_none_iff, ih]
      by_cases same : key = first.1
      · rw [if_pos same]
        exact iff_of_false (fun both => nomatch both.2) fun absent =>
          absent first.2 (same ▸ List.mem_cons_self)
      · rw [if_neg same]
        simp [Prod.ext_iff, same]

/-- What is found under a key after one write, if the value replaces the one that was put there before. -/
structure Replaces (write : σ → κ × ν → σ) (look : σ → κ → ω) (put : ω → ν → ω) : Prop where
  write : ∀ s w key, look (write s w) key = if key = w.1 then put (look s key) w.2 else look s key
  again : ∀ found value other, put (put found value) other = put found other

variable {look : σ → κ → ω} {put : ω → ν → ω}

theorem Replaces.foldl (replaces : Replaces write look put) (s : σ) (key : κ) (writes : List (κ × ν)) :
    look (writes.foldl write s) key = (lastWritten? key writes).elim (look s key) (put (look s key)) := by
  induction writes generalizing s with
  | nil => rfl
  | cons first rest ih =>
      rw [List.foldl_cons, ih, replaces.write, lastWritten?]
      cases lastWritten? key rest with
      | none =>
          rw [Option.none_or]
          split <;> rfl
      | some value =>
          rw [Option.some_or, Option.elim_some, Option.elim_some]
          split
          · exact replaces.again ..
          · rfl

/-- To write all of it a second time changes nothing. -/
theorem Replaces.foldl_again (replaces : Replaces write look put)
    (ext : ∀ s t, (∀ key, look s key = look t key) → s = t) (s : σ) (writes : List (κ × ν)) :
    writes.foldl write (writes.foldl write s) = writes.foldl write s := by
  refine ext _ _ fun key => ?_
  rw [replaces.foldl, replaces.foldl]
  cases lastWritten? key writes with
  | none => rfl
  | some value => exact replaces.again ..

end Writes

theorem find?_eq_some_iff_of_distinct {α : Type} {key : α → String} {items : List α} {name : String} {item : α}
    (distinct : (items.map key).Nodup) :
    items.find? (key · = name) = some item ↔ item ∈ items ∧ key item = name := by
  have sound : ∀ other, items.find? (key · = name) = some other → other ∈ items ∧ key other = name := by
    intro other found
    have named := List.find?_some found
    exact ⟨List.mem_of_find?_eq_some found, of_decide_eq_true named⟩
  refine ⟨sound item, fun ⟨member, same⟩ => ?_⟩
  cases found : items.find? (key · = name) with
  | none => exact absurd (decide_eq_true same) (List.find?_eq_none.1 found item member)
  | some other =>
      obtain ⟨listed, same_other⟩ := sound other found
      rw [List.inj_on_of_nodup_map distinct listed member (same_other.trans same.symm)]

namespace Config

/-- What a setting is about. -/
inductive Target where
  | service (interface : String)
  | method (interface name : String)
deriving DecidableEq

/-- The name under which requests are counted. -/
def Target.scope : Target → String
  | .service interface => interface
  | .method interface name => ConcurrencyLimiter.methodScope interface name

variable {α : Type} {c : Config} {t : Traffic} {target : Target} {value : α}
  {ofService : ServiceSettings → Option α} {ofMethod : MethodSettings → Option α}

section Given

def givenByMethods (ofMethod : MethodSettings → Option α) (interface : String)
    (methods : List MethodSettings) : List (Target × α) :=
  methods.flatMap fun m => ((ofMethod m).map (Target.method interface m.name, ·)).toList

/-- The settings of one kind that services give, in the order in which they are applied. -/
def given (ofService : ServiceSettings → Option α) (ofMethod : MethodSettings → Option α)
    (services : List ServiceSettings) : List (Target × α) :=
  services.flatMap fun s => ((ofService s).map (Target.service s.interface, ·)).toList ++
    givenByMethods ofMethod s.interface s.methods

/-- The setting of one kind that a configuration gives for a target. -/
def setting? (ofService : ServiceSettings → Option α) (ofMethod : MethodSettings → Option α) (c : Config) :
    Target → Option α
  | .service interface => (c.service? interface).bind ofService
  | .method interface name =>
      (c.service? interface).bind fun s => (s.methods.find? (·.name = name)).bind ofMethod

def mode? (c : Config) : Target → Option Mode := c.setting? (·.mode) (·.mode)

def actives? (c : Config) : Target → Option UInt32 := c.setting? (·.actives) (·.actives)

def tps? (c : Config) (interface : String) : Option Int64 := (c.service? interface).bind (·.tps)

/-- Each service stands once, and each method once in its service. -/
structure Distinct (c : Config) : Prop where
  services : (c.services.map (·.interface)).Nodup
  methods : ∀ s ∈ c.services, (s.methods.map (·.name)).Nodup

theorem distinct_of_checkMethods {interface : String} {seen : List String} {methods : List MethodSettings}
    (accepted : checkMethods interface seen methods = .ok ()) :
    (methods.map (·.name)).Nodup ∧ ∀ m ∈ methods, m.name ∉ seen := by
  induction methods generalizing seen with
  | nil => simp
  | cons method rest ih =>
      rw [checkMethods] at accepted
      split at accepted
      · cases accepted
      · split at accepted
        · cases accepted
        · next fresh =>
            obtain ⟨distinct, unseen⟩ := ih accepted
            refine ⟨List.nodup_cons.2 ⟨fun repeated => ?_, distinct⟩, fun m member => ?_⟩
            · obtain ⟨m, member, same⟩ := List.mem_map.1 repeated
              exact unseen m member (List.mem_cons.2 (.inl same))
            · rcases List.mem_cons.1 member with rfl | member
              · exact fresh
              · exact mt (List.mem_cons_of_mem _) (unseen m member)

theorem distinct_of_checkServices {seen : List String} {services : List ServiceSettings}
    (accepted : checkServices seen services = .ok ()) :
    (services.map (·.interface)).Nodup ∧ (∀ s ∈ services, s.interface ∉ seen) ∧
      ∀ s ∈ services, (s.methods.map (·.name)).Nodup := by
  induction services generalizing seen with
  | nil => simp
  | cons service rest ih =>
      rw [checkServices] at accepted
      split at accepted
      · cases accepted
      · split at accepted
        · cases accepted
        · next fresh =>
            cases methods : checkMethods service.interface [] service.methods with
            | error defect =>
                rw [methods] at accepted
                cases accepted
            | ok =>
                rw [methods] at accepted
                obtain ⟨distinct, unseen, rest_methods⟩ := ih accepted
                refine ⟨List.nodup_cons.2 ⟨fun repeated => ?_, distinct⟩, fun s member => ?_,
                  fun s member => ?_⟩
                · obtain ⟨s, member, same⟩ := List.mem_map.1 repeated
                  exact unseen s member (List.mem_cons.2 (.inl same))
                · rcases List.mem_cons.1 member with rfl | member
                  · exact fresh
                  · exact mt (List.mem_cons_of_mem _) (unseen s member)
                · rcases List.mem_cons.1 member with rfl | member
                  · exact (distinct_of_checkMethods methods).1
                  · exact rest_methods s member

theorem distinct_of_check (accepted : c.check = .ok ()) : c.Distinct := by
  rw [check] at accepted
  split at accepted
  · obtain ⟨services, _, methods⟩ := distinct_of_checkServices accepted
    exact ⟨services, methods⟩
  · cases accepted

theorem Distinct.service?_eq_some_iff (distinct : c.Distinct) {interface : String} {s : ServiceSettings} :
    c.service? interface = some s ↔ s ∈ c.services ∧ s.interface = interface :=
  find?_eq_some_iff_of_distinct distinct.services

/-- What a configuration gives it gives once. -/
theorem Distinct.mem_given_iff (distinct : c.Distinct) :
    (target, value) ∈ given ofService ofMethod c.services ↔
      c.setting? ofService ofMethod target = some value := by
  cases target with
  | service interface =>
      simp only [given, givenByMethods, setting?, List.mem_flatMap, List.mem_append, Option.mem_toList,
        Option.map_eq_some_iff, Prod.mk.injEq, Target.service.injEq, Option.bind_eq_some_iff,
        distinct.service?_eq_some_iff]
      constructor
      · rintro ⟨s, member, ⟨_, gives, same, rfl⟩ | ⟨_, _, _, _, other, _⟩⟩
        · exact ⟨s, ⟨member, same⟩, gives⟩
        · cases other
      · rintro ⟨s, ⟨member, same⟩, gives⟩
        exact ⟨s, member, .inl ⟨value, gives, same, rfl⟩⟩
  | method interface name =>
      simp only [given, givenByMethods, setting?, List.mem_flatMap, List.mem_append, Option.mem_toList,
        Option.map_eq_some_iff, Prod.mk.injEq, Target.method.injEq, Option.bind_eq_some_iff,
        distinct.service?_eq_some_iff]
      constructor
      · rintro ⟨s, member, ⟨_, _, other, _⟩ | ⟨m, listed, _, gives, ⟨same, rfl⟩, rfl⟩⟩
        · cases other
        · exact ⟨s, ⟨member, same⟩, m,
            (find?_eq_some_iff_of_distinct (distinct.methods s member)).2 ⟨listed, rfl⟩, gives⟩
      · rintro ⟨s, ⟨member, rfl⟩, m, found, gives⟩
        obtain ⟨listed, rfl⟩ := (find?_eq_some_iff_of_distinct (distinct.methods s member)).1 found
        exact ⟨s, member, .inr ⟨m, listed, value, gives, ⟨rfl, rfl⟩, rfl⟩⟩

theorem Distinct.lastWritten_given (distinct : c.Distinct) :
    lastWritten? target (given ofService ofMethod c.services) = c.setting? ofService ofMethod target := by
  cases last : lastWritten? target (given ofService ofMethod c.services) with
  | some value => exact (distinct.mem_given_iff.1 (mem_of_lastWritten last)).symm
  | none =>
      refine (Option.eq_none_iff_forall_ne_some.2 fun value gives => ?_).symm
      exact lastWritten_eq_none_iff.1 last value (distinct.mem_given_iff.2 gives)

end Given

section Components

def setMode (s : Settings) : Target × Mode → Settings
  | (.service interface, mode) => s.setInterface interface mode
  | (.method interface name, mode) => s.setMethod interface name mode

def setRate (now : Nat) (l : RateLimiter) (w : String × Int64) : RateLimiter :=
  l.configure now w.1 w.2.toInt

def setLimit (l : ConcurrencyLimiter) (w : String × UInt32) : ConcurrencyLimiter := l.configure w.1 w.2

def ratesGiven (services : List ServiceSettings) : List (String × Int64) :=
  services.flatMap fun s => (s.tps.map (s.interface, ·)).toList

def limitsGiven (services : List ServiceSettings) : List (String × UInt32) :=
  (given (·.actives) (·.actives) services).map fun w => (w.1.scope, w.2)

/-- The live components with new settings. -/
def configured (t : Traffic) (settings : Settings) (rates : RateLimiter) (actives : ConcurrencyLimiter) :
    Traffic :=
  { t with balancer := { t.balancer with settings }, rates, actives }

theorem foldl_applyMethod (interface : String) (methods : List MethodSettings) (t : Traffic)
    (settings : Settings) (rates : RateLimiter) (actives : ConcurrencyLimiter) :
    methods.foldl (applyMethod interface) (configured t settings rates actives) =
      configured t ((givenByMethods (·.mode) interface methods).foldl setMode settings) rates
        (((givenByMethods (·.actives) interface methods).map fun w => (w.1.scope, w.2)).foldl setLimit
          actives) := by
  induction methods generalizing settings actives with
  | nil => rfl
  | cons method rest ih =>
      obtain ⟨name, mode, limit⟩ := method
      rw [List.foldl_cons]
      cases mode <;> cases limit <;> exact ih _ _

/-- Each component is brought to its settings by itself. -/
theorem foldl_applyService (services : List ServiceSettings) (t : Traffic) (settings : Settings)
    (rates : RateLimiter) (actives : ConcurrencyLimiter) :
    services.foldl applyService (configured t settings rates actives) =
      configured t ((given (·.mode) (·.mode) services).foldl setMode settings)
        ((ratesGiven services).foldl (setRate t.now.toNat) rates)
        ((limitsGiven services).foldl setLimit actives) := by
  induction services generalizing settings rates actives with
  | nil => rfl
  | cons service rest ih =>
      obtain ⟨interface, mode, tps, limit, weight, methods, rules⟩ := service
      have one : applyService (configured t settings rates actives)
            ⟨interface, mode, tps, limit, weight, methods, rules⟩ =
          methods.foldl (applyMethod interface) (configured t
            ((mode.map (Target.service interface, ·)).toList.foldl setMode settings)
            ((tps.map (interface, ·)).toList.foldl (setRate t.now.toNat) rates)
            ((limit.map (interface, ·)).toList.foldl setLimit actives)) := by
        cases mode <;> cases tps <;> cases limit <;> rfl
      have scopes : (limit.map (Target.service interface, ·)).toList.map (fun w => (w.1.scope, w.2)) =
          (limit.map (interface, ·)).toList := by
        cases limit <;> rfl
      rw [List.foldl_cons, one, foldl_applyMethod, ih]
      simp only [given, ratesGiven, limitsGiven, List.flatMap_cons, List.map_append, List.foldl_append, scopes]

theorem apply_of_check (accepted : c.check = .ok ()) (t : Traffic) :
    c.apply t = .ok (configured t
      ((given (·.mode) (·.mode) c.services).foldl setMode (t.balancer.settings.setGlobal c.mode))
      ((ratesGiven c.services).foldl (setRate t.now.toNat) t.rates)
      ((limitsGiven c.services).foldl setLimit t.actives)) := by
  rw [apply, accepted]
  exact congrArg Except.ok (foldl_applyService c.services t _ t.rates t.actives)

end Components

section Lookups

/-- The mode that is set for a service or a method. -/
def modeSet? (s : Settings) : Target → Option Mode
  | .service interface => s.interface? interface
  | .method interface name => s.method? interface name

theorem replaces_setMode : Replaces setMode modeSet? fun _ mode => some mode where
  write s w target := by
    obtain ⟨written, mode⟩ := w
    cases written with
    | service interface =>
        cases target with
        | service other =>
            simp only [setMode, modeSet?, Settings.setInterface, Settings.interface?, SortedMap.get?_insert,
              Target.service.injEq]
        | method other name =>
            rw [if_neg (by simp)]
            rfl
    | method interface name =>
        cases target with
        | service other =>
            rw [if_neg (by simp)]
            rfl
        | method other called =>
            simp only [setMode, modeSet?, Settings.setMethod, Settings.method?, SortedMap.update,
              SortedMap.get?_insert, Target.method.injEq]
            by_cases same : other = interface
            · subst same
              rw [if_pos rfl, Option.bind_some, SortedMap.get?_insert]
              by_cases called_same : called = name
              · simp [called_same]
              · rw [if_neg called_same, if_neg (by simp [called_same])]
                cases s.methods.get? other <;> rfl
            · rw [if_neg same, if_neg (by simp [same])]
  again _ _ _ := rfl

/-- A window keeps its start and its count when it gets another limit. -/
def withRate (now : Nat) (w : Option RateWindow) (tps : Int64) : Option RateWindow :=
  some { w.getD { max := tps.toInt, start := now } with max := tps.toInt }

theorem replaces_setRate (now : Nat) :
    Replaces (setRate now) (fun l name => l.windows.get? name) (withRate now) where
  write l w name := by
    simp only [setRate, withRate, RateLimiter.get?_configure]
    split
    · next same => simp only [same]
    · simp only
  again w _ _ := by cases w <;> simp only [withRate, Option.getD_some, Option.getD_none]

def withLimit (c : Option ActiveCounter) (max : UInt32) : Option ActiveCounter :=
  some { c.getD {} with max }

theorem replaces_setLimit : Replaces setLimit (fun l name => l.counters.get? name) withLimit where
  write l w name := by
    rw [setLimit, ConcurrencyLimiter.configure, ConcurrencyLimiter.put, SortedMap.get?_insert]
    split
    · next same => rw [same]; rfl
    · rfl
  again _ _ _ := rfl

theorem Distinct.lastWritten_ratesGiven (distinct : c.Distinct) (interface : String) :
    lastWritten? interface (ratesGiven c.services) = c.tps? interface := by
  have given_iff : ∀ tps, (interface, tps) ∈ ratesGiven c.services ↔ c.tps? interface = some tps := by
    intro tps
    simp only [ratesGiven, tps?, List.mem_flatMap, Option.mem_toList, Option.map_eq_some_iff, Prod.mk.injEq,
      Option.bind_eq_some_iff, distinct.service?_eq_some_iff]
    constructor
    · rintro ⟨s, member, _, gives, same, rfl⟩
      exact ⟨s, ⟨member, same⟩, gives⟩
    · rintro ⟨s, ⟨member, same⟩, gives⟩
      exact ⟨s, member, tps, gives, same, rfl⟩
  cases last : lastWritten? interface (ratesGiven c.services) with
  | some tps => exact ((given_iff tps).1 (mem_of_lastWritten last)).symm
  | none =>
      refine (Option.eq_none_iff_forall_ne_some.2 fun tps gives => ?_).symm
      exact lastWritten_eq_none_iff.1 last tps ((given_iff tps).2 gives)

theorem Distinct.modeSet?_foldl (distinct : c.Distinct) (s : Settings) (target : Target) :
    modeSet? ((given (·.mode) (·.mode) c.services).foldl setMode s) target =
      (c.mode? target).or (modeSet? s target) := by
  rw [replaces_setMode.foldl, distinct.lastWritten_given, ← mode?]
  cases c.mode? target <;> rfl

theorem Distinct.limit?_foldl (distinct : c.Distinct) (now : Nat) (l : RateLimiter) (interface : String) :
    ((ratesGiven c.services).foldl (setRate now) l).limit? interface =
      ((c.tps? interface).map Int64.toInt).or (l.limit? interface) := by
  rw [RateLimiter.limit?, (replaces_setRate now).foldl, distinct.lastWritten_ratesGiven]
  cases c.tps? interface <;> rfl

/-- Windows that are there go on as they are. -/
theorem window_foldl (now : Nat) {l : RateLimiter} (writes : List (String × Int64)) {name : String}
    {w : RateWindow} (found : l.windows.get? name = some w) :
    ∃ v, (writes.foldl (setRate now) l).windows.get? name = some v ∧ v.start = w.start ∧
      v.count = w.count := by
  rw [(replaces_setRate now).foldl, found]
  cases lastWritten? name writes with
  | none => exact ⟨w, rfl, rfl, rfl⟩
  | some tps => exact ⟨_, rfl, rfl, rfl⟩

theorem counter_foldl (l : ConcurrencyLimiter) (writes : List (String × UInt32)) (name : String) :
    (writes.foldl setLimit l).counter name =
      { l.counter name with max := (lastWritten? name writes).getD (l.counter name).max } := by
  rw [ConcurrencyLimiter.counter, replaces_setLimit.foldl, ConcurrencyLimiter.counter]
  cases lastWritten? name writes <;> rfl

theorem mem_limitsGiven_iff (distinct : c.Distinct) {name : String} {max : UInt32} :
    (name, max) ∈ limitsGiven c.services ↔ ∃ target, target.scope = name ∧ c.actives? target = some max := by
  simp only [limitsGiven, List.mem_map, Prod.exists, Prod.mk.injEq, distinct.mem_given_iff, actives?]
  constructor
  · rintro ⟨target, _, gives, same, rfl⟩
    exact ⟨target, same, gives⟩
  · rintro ⟨target, same, gives⟩
    exact ⟨target, max, gives, same, rfl⟩

end Lookups

section Again

/-- A mode that is set already changes nothing. -/
theorem setMode_eq_self {s : Settings} {mode : Mode} (set : modeSet? s target = some mode) :
    setMode s (target, mode) = s := by
  cases target with
  | service interface =>
      rw [setMode, Settings.setInterface, SortedMap.insert_eq_self set]
  | method interface name =>
      obtain ⟨modes, found, here⟩ := Option.bind_eq_some_iff.1 set
      rw [setMode, Settings.setMethod, SortedMap.update, found, Option.getD_some, SortedMap.insert_eq_self here,
        SortedMap.insert_eq_self found]

theorem global_setMode (s : Settings) (w : Target × Mode) : (setMode s w).global = s.global := by
  obtain ⟨_ | _, _⟩ := w <;> rfl

theorem global_foldl (writes : List (Target × Mode)) (s : Settings) :
    (writes.foldl setMode s).global = s.global := by
  induction writes generalizing s with
  | nil => rfl
  | cons first rest ih => rw [List.foldl_cons, ih, global_setMode]

theorem Distinct.settings_again (distinct : c.Distinct) {s : Settings} (same : s.global = c.mode)
    (set : ∀ target mode, c.mode? target = some mode → modeSet? s target = some mode) :
    (given (·.mode) (·.mode) c.services).foldl setMode (s.setGlobal c.mode) = s := by
  have still : s.setGlobal c.mode = s := by rw [Settings.setGlobal, ← same]
  rw [still]
  exact foldl_eq_self fun (target, mode) member =>
    setMode_eq_self (set target mode (distinct.mem_given_iff.1 member))

theorem rates_ext (l m : RateLimiter) (same : ∀ name, l.windows.get? name = m.windows.get? name) : l = m := by
  cases l; cases m
  exact congrArg RateLimiter.mk (SortedMap.ext same)

theorem actives_ext (l m : ConcurrencyLimiter) (same : ∀ name, l.counters.get? name = m.counters.get? name) :
    l = m := by
  cases l; cases m
  exact congrArg ConcurrencyLimiter.mk (SortedMap.ext same)

end Again

section Outcome

/-- The limit that a target should have afterwards: the given one, else the one that is there. -/
def activesAfter (c : Config) (l : ConcurrencyLimiter) (target : Target) : UInt32 :=
  (c.actives? target).getD (l.counter target.scope).max

/-- No other target is given another limit under the name that this one is counted under. -/
def Undisputed (c : Config) (l : ConcurrencyLimiter) (target : Target) : Prop :=
  ∀ other max, other.scope = target.scope → c.actives? other = some max → c.activesAfter l target = max

/-- What is in force after a configuration, limits on requests in flight apart. -/
structure Applied (c : Config) (t u : Traffic) : Prop where
  rest : u = configured t u.balancer.settings u.rates u.actives
  global : u.balancer.settings.global = c.mode
  modes : ∀ target, modeSet? u.balancer.settings target =
    (c.mode? target).or (modeSet? t.balancer.settings target)
  rates : ∀ name, u.rates.limit? name = ((c.tps? name).map Int64.toInt).or (t.rates.limit? name)
  windows : ∀ name w, t.rates.windows.get? name = some w →
    ∃ v, u.rates.windows.get? name = some v ∧ v.start = w.start ∧ v.count = w.count
  active : ∀ name, u.actives.active name = t.actives.active name

theorem Distinct.max_foldl_of_undisputed (distinct : c.Distinct) {l : ConcurrencyLimiter}
    (undisputed : c.Undisputed l target) :
    (((limitsGiven c.services).foldl setLimit l).counter target.scope).max = c.activesAfter l target := by
  rw [counter_foldl]
  cases last : lastWritten? target.scope (limitsGiven c.services) with
  | some max =>
      obtain ⟨other, same, gives⟩ := (mem_limitsGiven_iff distinct).1 (mem_of_lastWritten last)
      exact (undisputed other max same gives).symm
  | none =>
      have silent : c.actives? target = none := Option.eq_none_iff_forall_ne_some.2 fun max gives =>
        lastWritten_eq_none_iff.1 last max ((mem_limitsGiven_iff distinct).2 ⟨target, rfl, gives⟩)
      rw [activesAfter, silent]

/-- Two targets that are counted under one name cannot both have what they are given. -/
theorem undisputed_of_max {l m : ConcurrencyLimiter}
    (all : ∀ target : Target, (m.counter target.scope).max = c.activesAfter l target) (target : Target) :
    c.Undisputed l target := by
  intro other max same gives
  have others : c.activesAfter l other = max := by rw [activesAfter, gives, Option.getD_some]
  rw [← all target, ← same, all other, others]

theorem apply_again (accepted : c.check = .ok ()) {u : Traffic} (applied : c.apply t = .ok u) :
    c.apply u = .ok u := by
  have distinct := distinct_of_check accepted
  rw [apply_of_check accepted] at applied
  cases applied
  rw [apply_of_check accepted]
  refine congrArg Except.ok ?_
  have settings := distinct.settings_again
    (s := (given (·.mode) (·.mode) c.services).foldl setMode (t.balancer.settings.setGlobal c.mode))
    (by rw [global_foldl]; rfl) fun target mode gives => by
      rw [distinct.modeSet?_foldl, gives, Option.some_or]
  have rates := (replaces_setRate t.now.toNat).foldl_again rates_ext t.rates (ratesGiven c.services)
  have actives := replaces_setLimit.foldl_again actives_ext t.actives (limitsGiven c.services)
  simp only [configured, settings, rates, actives]

/-- A configuration that fails its check changes nothing. Any other one brings what it gives into force and
leaves the rest; of the limits on requests in flight that are counted under one name the last one holds. To
apply it again changes nothing. -/
theorem apply_outcome (c : Config) (t : Traffic) :
    (∀ defect, c.check = .error defect → c.apply t = .error (.configuration defect.message) ∧
      ∀ w : Session.World, w.traffic = t → (w.applyConfig c).2 = w) ∧
    (c.check = .ok () → c.Distinct ∧ ∃ u, c.apply t = .ok u ∧ Applied c t u ∧
      (∀ target : Target, c.Undisputed t.actives target →
        (u.actives.counter target.scope).max = c.activesAfter t.actives target) ∧
      ((∀ target : Target, (u.actives.counter target.scope).max = c.activesAfter t.actives target) →
        ∀ target, c.Undisputed t.actives target) ∧
      c.apply u = .ok u) := by
  constructor
  · intro defect refused
    have failed : c.apply t = .error (.configuration defect.message) := by rw [apply, refused]
    refine ⟨failed, fun w same => ?_⟩
    rw [Session.World.applyConfig, same, failed]
    rfl
  · intro accepted
    have distinct := distinct_of_check accepted
    refine ⟨distinct, _, apply_of_check accepted t, ?applied, fun target undisputed => ?limit,
      undisputed_of_max, apply_again accepted (apply_of_check accepted t)⟩
    case applied =>
      exact {
        rest := rfl
        global := global_foldl _ _
        modes := fun target => distinct.modeSet?_foldl _ target
        rates := distinct.limit?_foldl _ t.rates
        windows := fun _ _ found => window_foldl _ _ found
        active := fun name => congrArg (·.current) (counter_foldl t.actives _ name) }
    case limit => exact distinct.max_foldl_of_undisputed undisputed

/-- A service and one of its methods are limited. -/
def limited : Config :=
  { mode := .roundRobin
    services := [
      { interface := "greeter"
        mode := some .pickFirst
        tps := some 1
        actives := some 2
        methods := [{ name := "hello", mode := some .roundRobin, actives := some 1 }] }] }

/-- One request is in flight, and one has been counted at the time 40. -/
def busy : Traffic :=
  { rates := ⟨.ofList [("greeter", { max := 5, start := 40, count := 1 })]⟩
    actives := ⟨.ofList [("greeter", { max := 9, current := 1 })]⟩
    pool := { idleTimeout := 60000 }
    now := 100 }

theorem limited_applied :
    limited.check = .ok () ∧ ∃ u, limited.apply busy = .ok u ∧ Applied limited busy u ∧
      (u.actives.counter "greeter#hello").max = 1 ∧ limited.apply u = .ok u := by
  have accepted : limited.check = .ok () := by decide +kernel
  obtain ⟨distinct, u, applied, inForce, limits, _, again⟩ := (apply_outcome limited busy).2 accepted
  have undisputed : limited.Undisputed busy.actives (.method "greeter" "hello") := by
    intro other max same gives
    have listed : (other, max) ∈ given (·.actives) (·.actives) limited.services :=
      distinct.mem_given_iff.2 gives
    have whole : given (·.actives) (·.actives) limited.services =
        [(.service "greeter", 2), (.method "greeter" "hello", 1)] := rfl
    rw [whole] at listed
    rcases List.mem_pair.1 listed with here | here <;> cases here
    · exact absurd same (by decide)
    · decide +kernel
  have limit : limited.activesAfter busy.actives (.method "greeter" "hello") = 1 := by decide +kernel
  exact ⟨accepted, u, applied, inForce, (limits _ undisputed).trans limit, again⟩

/-- The second service has the name that the method of the first one is counted under. -/
def disputed : Config :=
  { services := [
      { interface := "a", methods := [{ name := "b", actives := some 1 }] },
      { interface := "a#b", actives := some 2 }] }

theorem disputed_limit_lost :
    disputed.check = .ok () ∧ disputed.actives? (.method "a" "b") = some 1 ∧
      (disputed.apply { pool := { idleTimeout := 60000 } }).toOption.map
        (fun u => (u.actives.counter (ConcurrencyLimiter.methodScope "a" "b")).max) = some 2 := by
  decide +kernel

end Outcome

end Config

end ServiceGovernance
