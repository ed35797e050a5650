import ServiceGovernance.Config.OfDocument
import Mathlib.Data.List.Forall2
import Mathlib.Data.List.Nodup
import Mathlib.Data.Option.Basic

/-!
A configuration comes back from its document. Each field is written under the name under which it is
read, an absent one is not written and read as absent, and in which order a record holds its fields does
not matter.
-/

namespace ServiceGovernance.Document

open Balance

/-- The same document up to the order of the fields in its records. -/
inductive Rearranged : Document → Document → Prop where
  | refl (d : Document) : Rearranged d d
  | list {items others : List Document} (each : List.Forall₂ Rearranged items others) :
      Rearranged (.list items) (.list others)
  | record {fields others : List (Document × Document)}
      (names : (fields.map (·.1)).Perm (others.map (·.1)))
      (each : ∀ f ∈ fields, ∀ g ∈ others, f.1 = g.1 → Rearranged f.2 g.2) :
      Rearranged (.record fields) (.record others)

/-- What has been written for a value is read as that value, in whatever order its fields come. -/
def Recovers {α : Type} (read : Document → Option α) (written : Document) (value : α) : Prop :=
  ∀ d, Rearranged written d → read d = some value

/-- A record whose fields have texts for names. -/
def ofFields (fields : Fields) : Document := .record (fields.map fun f => field f.1 f.2)

/-- Fields of which those without a value are left out. -/
def present (fields : List (String × Option Document)) : Fields :=
  fields.filterMap fun f => f.2.map (f.1, ·)

/-- Under each name is read what has been written, or nothing where nothing has been. -/
def Reordered (fields : List (String × Option Document)) (read : Fields) : Prop :=
  ∀ name, Option.Rel Rearranged (fields.lookup name).join (read.lookup name)

variable {α : Type} {d written : Document} {value : α} {known : List String} {name : String}
  {of : Document → Option α}

section Names

variable {fields : Fields} {β : Type} {pairs : List (String × β)}

theorem lookup_eq_some_iff (distinct : (pairs.map (·.1)).Nodup) {value : β} :
    pairs.lookup name = some value ↔ (name, value) ∈ pairs := by
  induction pairs with
  | nil => simp
  | cons first rest ih =>
      obtain ⟨other, here⟩ := first
      obtain ⟨absent, tail⟩ := List.nodup_cons.1 distinct
      rw [List.lookup_cons, List.mem_cons]
      by_cases same : name = other
      · subst same
        have not_later : (name, value) ∉ rest := fun member => absent (List.mem_map.2 ⟨_, member, rfl⟩)
        simp [not_later, eq_comm]
      · have apart : (name == other) = false := by simpa using same
        simp [apart, same, ih tail]

theorem lookup_eq_none_iff : pairs.lookup name = none ↔ name ∉ pairs.map (·.1) := by
  simp only [List.lookup_eq_none_iff, List.mem_map, not_exists, not_and, bne_iff_ne, ne_eq]
  exact forall₂_congr fun f _ => not_congr eq_comm

theorem names_present (fields : List (String × Option Document)) :
    ((present fields).map (·.1)).Sublist (fields.map (·.1)) := by
  induction fields with
  | nil => exact .refl _
  | cons first rest ih =>
      obtain ⟨name, value⟩ := first
      cases value with
      | none => exact ih.cons _
      | some value => exact ih.cons_cons _

theorem lookup_present {fields : List (String × Option Document)} (distinct : (fields.map (·.1)).Nodup)
    (name : String) : (present fields).lookup name = (fields.lookup name).join := by
  induction fields with
  | nil => rfl
  | cons first rest ih =>
      obtain ⟨other, value⟩ := first
      obtain ⟨absent, tail⟩ := List.nodup_cons.1 distinct
      have later := ih tail
      by_cases same : name = other
      · subst same
        cases value with
        | none =>
            have none_later : (present rest).lookup name = none :=
              lookup_eq_none_iff.2 (mt (names_present rest).mem absent)
            simpa [present] using none_later
        | some value => simp [present]
      · have apart : (name == other) = false := by simpa using same
        cases value with
        | none => simpa [present, List.lookup_cons, apart] using later
        | some value => simpa [present, List.lookup_cons, apart] using later

end Names

section Fields

variable {fields : Fields} {settings : List (String × Option Document)} {read : Fields}

theorem knownFields?_of_distinct (distinct : (fields.map (·.1)).Nodup)
    (listed : ∀ name ∈ fields.map (·.1), name ∈ known) :
    knownFields? known (fields.map fun f => field f.1 f.2) = some fields := by
  induction fields with
  | nil => rfl
  | cons first rest ih =>
      obtain ⟨absent, tail⟩ := List.nodup_cons.1 distinct
      have later := ih tail fun name member => listed name (List.mem_cons_of_mem _ member)
      have here : first.1 ∈ known := listed first.1 List.mem_cons_self
      have alone : (rest.map (·.1)).contains first.1 = false := by simpa using absent
      simp only [List.map_cons, field, knownFields?, readText?, bind, Option.bind_some] at later ⊢
      rw [later, Option.bind_some, if_pos here, alone]
      rfl

/-- A record with the same names in another order has texts for names again. -/
theorem exists_fields_of_perm {others : List (Document × Document)}
    (names : ((fields.map fun f => field f.1 f.2).map (·.1)).Perm (others.map (·.1))) :
    ∃ read : Fields, others = read.map (fun f => field f.1 f.2) ∧
      (fields.map (·.1)).Perm (read.map (·.1)) := by
  have word : ∀ g ∈ others, Document.text (g.1.readText?.getD "") = g.1 := by
    intro g member
    have listed := names.mem_iff.2 (List.mem_map.2 ⟨g, member, rfl⟩)
    simp only [List.map_map, List.mem_map, Function.comp, field] at listed
    obtain ⟨f, _, same⟩ := listed
    rw [← same]
    rfl
  refine ⟨others.map fun g => (g.1.readText?.getD "", g.2), ?_, ?_⟩
  · rw [List.map_map]
    refine (List.map_id others).symm.trans (List.map_congr_left fun g member => ?_)
    exact Prod.ext (word g member).symm rfl
  · have words := names.map fun d => d.readText?.getD ""
    simpa only [List.map_map, Function.comp_def, field, readText?, Option.getD_some] using words

theorem Rearranged.exists_fields (rearranged : Rearranged (ofFields fields) d)
    (distinct : (fields.map (·.1)).Nodup) :
    ∃ read : Fields, d = ofFields read ∧ (fields.map (·.1)).Perm (read.map (·.1)) ∧
      ∀ f ∈ fields, ∀ g ∈ read, f.1 = g.1 → Rearranged f.2 g.2 := by
  cases rearranged with
  | refl =>
      refine ⟨fields, rfl, .refl _, fun f member g other same => ?_⟩
      rw [List.inj_on_of_nodup_map distinct member other same]
      exact .refl _
  | record names each =>
      obtain ⟨read, rfl, order⟩ := exists_fields_of_perm names
      refine ⟨read, rfl, order, fun f member g other same => ?_⟩
      exact each _ (List.mem_map_of_mem member) _ (List.mem_map_of_mem other) (congrArg Document.text same)

/-- The fields of one record may come in any order. -/
theorem Rearranged.of_perm (distinct : (fields.map (·.1)).Nodup) (order : fields.Perm read) :
    Rearranged (ofFields fields) (ofFields read) := by
  refine .record ((order.map _).map _) fun f member g other same => ?_
  obtain ⟨f, listed, rfl⟩ := List.mem_map.1 member
  obtain ⟨g, listed_read, rfl⟩ := List.mem_map.1 other
  have name : f.1 = g.1 := Document.text.inj same
  rw [List.inj_on_of_nodup_map distinct listed (order.mem_iff.2 listed_read) name]
  exact .refl _

/-- Reading finds the fields that have been written, and no others. -/
theorem exists_reordered (positions : Bool) (names : settings.map (·.1) = known) (distinct : known.Nodup)
    (rearranged : Rearranged (ofFields (present settings)) d) :
    ∃ read, d.readFields? positions known = some read ∧ Reordered settings read := by
  subst names
  have distinct_present := distinct.sublist (names_present settings)
  obtain ⟨read, rfl, order, each⟩ := rearranged.exists_fields distinct_present
  have distinct_read : (read.map (·.1)).Nodup := order.nodup_iff.1 distinct_present
  refine ⟨read, knownFields?_of_distinct distinct_read fun name member =>
    (names_present settings).mem (order.mem_iff.2 member), fun name => ?_⟩
  rw [← lookup_present distinct name]
  cases found : (present settings).lookup name with
  | none =>
      have absent : read.lookup name = none :=
        lookup_eq_none_iff.2 fun member => lookup_eq_none_iff.1 found (order.mem_iff.2 member)
      rw [absent]
      exact .none
  | some value =>
      have member := (lookup_eq_some_iff distinct_present).1 found
      have there := order.mem_iff.1 (List.mem_map.2 ⟨_, member, rfl⟩)
      obtain ⟨⟨_, other⟩, listed_there, rfl⟩ := List.mem_map.1 there
      rw [(lookup_eq_some_iff distinct_read).2 listed_there]
      exact .some (each _ member _ listed_there rfl)

theorem Reordered.lookup_of_some (reordered : Reordered settings read)
    (found : (settings.lookup name).join = some written) :
    ∃ d, read.lookup name = some d ∧ Rearranged written d := by
  have related := reordered name
  rw [found] at related
  generalize read.lookup name = there at related
  cases related with
  | some rearranged => exact ⟨_, rfl, rearranged⟩

theorem Reordered.required (reordered : Reordered settings read) (name : String)
    (found : (settings.lookup name).join = some written) (recovers : Recovers of written value) :
    required? read name of = some value := by
  obtain ⟨d, there, rearranged⟩ := reordered.lookup_of_some found
  rw [required?, there, Option.bind_some, recovers d rearranged]

theorem Reordered.defaulted (reordered : Reordered settings read) (name : String)
    (found : (settings.lookup name).join = some written) (recovers : Recovers of written value)
    (default : α) : defaulted? read name of default = some value := by
  obtain ⟨d, there, rearranged⟩ := reordered.lookup_of_some found
  rw [defaulted?, there]
  exact recovers d rearranged

/-- What is absent is not written, and what is written is not taken for absent. -/
theorem Reordered.optional (reordered : Reordered settings read) (name : String) {setting : Option α}
    {write : α → Document} (found : (settings.lookup name).join = setting.map write)
    (recovers : ∀ value, Recovers of (write value) value)
    (present : ∀ value, Recovers (fun d => some d.isAbsent) (write value) false) :
    optional? read name of = some setting := by
  cases setting with
  | none =>
      have related := reordered name
      rw [found] at related
      cases absent : read.lookup name with
      | none => rw [optional?, defaulted?, absent]
      | some d =>
          rw [absent] at related
          cases related
  | some value =>
      refine reordered.defaulted name found (fun d rearranged => ?_) none
      have there : d.isAbsent = false := Option.some.inj (present value d rearranged)
      rw [readOptional?, there, recovers value d rearranged]
      rfl

end Fields

section Values

theorem Rearranged.text {word : String} (rearranged : Rearranged (.text word) d) : d = .text word := by
  cases rearranged
  rfl

theorem Rearranged.integer {n : Int} (rearranged : Rearranged (.integer n) d) : d = .integer n := by
  cases rearranged
  rfl

theorem recovers_of_text {word : String} (reads : of (.text word) = some value) :
    Recovers of (.text word) value := by
  intro d rearranged
  rw [rearranged.text, reads]

theorem recovers_of_integer {n : Int} (reads : of (.integer n) = some value) :
    Recovers of (.integer n) value := by
  intro d rearranged
  rw [rearranged.integer, reads]

theorem readNatural?_integer {n bound : Nat} (small : n < bound) :
    readNatural? bound (.integer n) = some n := by
  have inside : (0 : Int) ≤ n ∧ (n : Int) < bound := by omega
  simp [readNatural?, isNegated, readBetween?, readInteger?, inside]

theorem recovers_word32 (n : UInt32) : Recovers readWord32? (.integer n.toNat) n := by
  refine recovers_of_integer ?_
  rw [readWord32?, readNatural?_integer n.toNat_lt, Option.map_some, UInt32.ofNat_toNat]

theorem recovers_word64 (n : UInt64) : Recovers readWord64? (.integer n.toNat) n := by
  refine recovers_of_integer ?_
  rw [readWord64?, readNatural?_integer n.toNat_lt, Option.map_some, UInt64.ofNat_toNat]

theorem recovers_int64 (n : Int64) : Recovers readInt64? (.integer n.toInt) n := by
  refine recovers_of_integer ?_
  have least : (-0x8000000000000000 : Int) ≤ n.toInt := n.le_toInt
  have bound : n.toInt < 0x8000000000000000 := n.toInt_lt
  simp [readInt64?, readBetween?, readInteger?, least, bound]

theorem recovers_text (word : String) : Recovers readText? (.text word) word := recovers_of_text rfl

theorem recovers_mode (mode : Mode) : Recovers readMode? (ofMode mode) mode :=
  recovers_of_text (Mode.ofSetting?_name mode)

theorem recovers_readEach {write : α → Document} {values : List α} {items : List Document}
    (recovers : ∀ value ∈ values, Recovers of (write value) value)
    (each : List.Forall₂ Rearranged (values.map write) items) : readEach? of items = some values := by
  induction values generalizing items with
  | nil =>
      cases each
      rfl
  | cons value values ih =>
      cases each with
      | cons first rest =>
          have here := recovers value List.mem_cons_self _ first
          have later := ih (fun other member => recovers other (List.mem_cons_of_mem _ member)) rest
          simp only [readEach?, here, later, bind, Option.bind_some]

theorem recovers_list {write : α → Document} {values : List α}
    (recovers : ∀ value ∈ values, Recovers of (write value) value) :
    Recovers (readList? of) (.list (values.map write)) values := by
  intro d rearranged
  cases rearranged with
  | refl => exact recovers_readEach recovers (List.forall₂_same.2 fun _ _ => .refl _)
  | list each => exact recovers_readEach recovers each

theorem recovers_texts (words : List String) : Recovers (readList? readText?) (ofTexts words) words :=
  recovers_list fun word _ => recovers_text word

theorem present_text (word : String) : Recovers (fun d => some d.isAbsent) (.text word) false :=
  recovers_of_text rfl

theorem present_integer (n : Int) : Recovers (fun d => some d.isAbsent) (.integer n) false :=
  recovers_of_integer rfl

end Values

end ServiceGovernance.Document

namespace ServiceGovernance

open Document

variable (positions : Bool)

namespace RegistrySettings

def fields (s : RegistrySettings) : List (String × Option Document) :=
  [("root", some (.text s.root)), ("lookupTimeoutMs", some (.integer s.lookupTimeout.toNat)),
    ("retryPeriodMs", some (.integer s.retryPeriod.toNat))]

theorem recovers (s : RegistrySettings) : Recovers (ofDocument? positions) s.toDocument s := by
  intro d rearranged
  have names : s.fields.map (·.1) = fieldNames := rfl
  obtain ⟨read, found, reordered⟩ := exists_reordered positions names (by decide) rearranged
  have root := reordered.defaulted "root" rfl (recovers_text s.root) "/rpc"
  have lookupTimeout :=
    reordered.defaulted "lookupTimeoutMs" rfl (recovers_word64 s.lookupTimeout) 5000
  have retryPeriod := reordered.defaulted "retryPeriodMs" rfl (recovers_word64 s.retryPeriod) 5000
  simp only [ofDocument?, found, root, lookupTimeout, retryPeriod, bind, Option.bind_some]

end RegistrySettings

namespace PoolSettings

def fields (s : PoolSettings) : List (String × Option Document) :=
  [("idleTimeoutMs", some (.integer s.idleTimeout.toNat))]

theorem recovers (s : PoolSettings) : Recovers (ofDocument? positions) s.toDocument s := by
  intro d rearranged
  have names : s.fields.map (·.1) = fieldNames := rfl
  obtain ⟨read, found, reordered⟩ := exists_reordered positions names (by decide) rearranged
  have idleTimeout := reordered.defaulted "idleTimeoutMs" rfl (recovers_word64 s.idleTimeout) 60000
  simp only [ofDocument?, found, idleTimeout, bind, Option.bind_some]

end PoolSettings

namespace MethodSettings

def fields (s : MethodSettings) : List (String × Option Document) :=
  [("name", some (.text s.name)), ("loadbalance", s.mode.map ofMode),
    ("actives", s.actives.map fun n => .integer n.toNat)]

theorem toDocument_eq (s : MethodSettings) : s.toDocument = ofFields (present s.fields) := by
  obtain ⟨name, mode, actives⟩ := s
  cases mode <;> cases actives <;> rfl

theorem recovers (s : MethodSettings) : Recovers (ofDocument? positions) s.toDocument s := by
  intro d rearranged
  rw [toDocument_eq] at rearranged
  have names : s.fields.map (·.1) = fieldNames := rfl
  obtain ⟨read, found, reordered⟩ := exists_reordered positions names (by decide) rearranged
  have name := reordered.required "name" rfl (recovers_text s.name)
  have mode := reordered.optional "loadbalance" rfl recovers_mode fun _ => present_text _
  have actives := reordered.optional "actives" rfl recovers_word32 fun _ => present_integer _
  simp only [ofDocument?, found, name, mode, actives, bind, Option.bind_some]

end MethodSettings

namespace ServiceSettings

def fields (s : ServiceSettings) : List (String × Option Document) :=
  [("interface", some (.text s.interface)), ("loadbalance", s.mode.map ofMode),
    ("tps", s.tps.map fun n => .integer n.toInt), ("actives", s.actives.map fun n => .integer n.toNat),
    ("weight", s.weight.map fun n => .integer n.toNat),
    ("methods", some (.list (s.methods.map MethodSettings.toDocument))), ("rules", some (ofTexts s.rules))]

theorem toDocument_eq (s : ServiceSettings) : s.toDocument = ofFields (present s.fields) := by
  obtain ⟨interface, mode, tps, actives, weight, methods, rules⟩ := s
  cases mode <;> cases tps <;> cases actives <;> cases weight <;> rfl

theorem recovers (s : ServiceSettings) : Recovers (ofDocument? positions) s.toDocument s := by
  intro d rearranged
  rw [toDocument_eq] at rearranged
  have names : s.fields.map (·.1) = fieldNames := rfl
  obtain ⟨read, found, reordered⟩ := exists_reordered positions names (by decide) rearranged
  have interface := reordered.required "interface" rfl (recovers_text s.interface)
  have mode := reordered.optional "loadbalance" rfl recovers_mode fun _ => present_text _
  have tps := reordered.optional "tps" rfl recovers_int64 fun _ => present_integer _
  have actives := reordered.optional "actives" rfl recovers_word32 fun _ => present_integer _
  have weight := reordered.optional "weight" rfl recovers_word32 fun _ => present_integer _
  have methods := reordered.defaulted "methods" rfl
    (recovers_list fun method _ => method.recovers positions) []
  have rules := reordered.defaulted "rules" rfl (recovers_texts s.rules) []
  simp only [ofDocument?, found, interface, mode, tps, actives, weight, methods, rules, bind,
    Option.bind_some]

end ServiceSettings

namespace Config

def fields (c : Config) : List (String × Option Document) :=
  [("registry", some c.registry.toDocument), ("pool", some c.pool.toDocument),
    ("load_balance", some (ofMode c.mode)),
    ("services", some (.list (c.services.map ServiceSettings.toDocument))),
    ("providers", some (ofTexts c.providers))]

theorem recovers (c : Config) : Recovers (ofDocument? positions) c.toDocument c := by
  intro d rearranged
  have names : c.fields.map (·.1) = fieldNames := rfl
  obtain ⟨read, found, reordered⟩ := exists_reordered positions names (by decide) rearranged
  have registry := reordered.defaulted "registry" rfl (c.registry.recovers positions) {}
  have pool := reordered.defaulted "pool" rfl (c.pool.recovers positions) {}
  have mode := reordered.defaulted "load_balance" rfl (recovers_mode c.mode) .pickFirst
  have services := reordered.defaulted "services" rfl
    (recovers_list fun service _ => service.recovers positions) []
  have providers := reordered.defaulted "providers" rfl (recovers_texts c.providers) []
  simp only [ofDocument?, found, registry, pool, mode, services, providers, bind, Option.bind_some]

/-- Written as a document and read again, a configuration is the same in every field, whether or not
positions are allowed and however the fields of the document have been put in order. -/
theorem read_back (c : Config) :
    ofDocument? positions c.toDocument = some c ∧
      ∀ d, Rearranged c.toDocument d → ofDocument? positions d = some c :=
  ⟨c.recovers positions _ (.refl _), c.recovers positions⟩

/-- One service of which little is set, and that at the edges of the ranges. -/
def greeter : Config :=
  { mode := .roundRobin
    services := [
      { interface := "greeter"
        tps := some Int64.minValue
        methods := [{ name := "hello", actives := some 0xffffffff }] }] }

theorem greeter_read_back :
    ofDocument? true greeter.toDocument = some greeter ∧
      ofDocument? true (ofFields (present greeter.fields.reverse)) = some greeter := by
  have distinct : ((present greeter.fields).map (·.1)).Nodup := (by decide : fieldNames.Nodup)
  have order : (present greeter.fields).Perm (present greeter.fields.reverse) :=
    (List.reverse_perm greeter.fields).symm.filterMap _
  obtain ⟨straight, rearranged⟩ := read_back true greeter
  exact ⟨straight, rearranged _ (.of_perm distinct order)⟩

end Config

end ServiceGovernance
