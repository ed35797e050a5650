import ServiceGovernance.Proofs.Store.Changes
import ServiceGovernance.Proofs.Synced.Layout

/-!
The store of registries that share a root. Its nodes are directories, which stay and have their
ancestors, endpoints, which come and go, and what others keep elsewhere; the last notice queued for a
watch has the children of this moment. What others do moves the store on, as one mailbox sees it,
without anything being missed.
-/

namespace ServiceGovernance

open Store.Path

/-- An endpoint that a registry can publish so that every reader finds the same one. -/
structure Endpoint.Publishable (e : Endpoint) : Prop where
  named : e.interface ≠ ""
  single : e.interface ≠ Endpoint.anyValue
  category : Segment e.category
  real : e.isSentinel = false
  reparses : Endpoint.parse e.canonical = .ok e

namespace SyncedRegistry

variable {root path above interface category name : String} {e : Endpoint} {s t u : Store}
  {mailbox : Store.Mailbox}

inductive DirectoryPath (root : String) : String → Prop where
  | above {path : String} (member : path ∈ ancestors root) : DirectoryPath root path
  | root : DirectoryPath root root
  | interface {interface : String} (named : interface ≠ "") (single : interface ≠ Endpoint.anyValue) :
      DirectoryPath root (interfacePath root interface)
  | category {interface category : String} (named : interface ≠ "") (single : interface ≠ Endpoint.anyValue)
      (segment : Segment category) : DirectoryPath root (categoryPath root interface category)

/-- A path that is neither the root nor above or below it. -/
structure Foreign (root path : String) : Prop where
  absolute : Absolute path
  not_above : path ∉ ancestors root
  apart : path ≠ root
  not_below : root ∉ ancestors path

/-- The places of the registries with this root. -/
def Ours (root path : String) : Prop :=
  DirectoryPath root path ∨ ∃ e : Endpoint, e.Publishable ∧ path = nodePath root e

def Placed (root path : String) : Prop := Ours root path ∨ Foreign root path

section Places

theorem DirectoryPath.slashes_le (directory : DirectoryPath root path) : slashes path ≤ slashes root + 2 := by
  cases directory with
  | above member =>
      have := slashes_lt_of_mem_ancestors member
      omega
  | root => omega
  | interface named single =>
      rw [slashes_interfacePath]
      omega
  | category named single segment => exact Nat.le_of_eq (slashes_categoryPath segment.2 ..)

theorem DirectoryPath.ne_empty (filled : root ≠ "") (directory : DirectoryPath root path) : path ≠ "" := by
  cases directory with
  | above member => exact (mem_ancestors_iff.1 member).1
  | root => exact filled
  | interface named single => exact join_ne_empty _ _
  | category named single segment => exact join_ne_empty _ _

theorem ancestors_interfacePath (filled : root ≠ "") (interface : String) :
    ancestors (interfacePath root interface) = ancestors root ++ [root] :=
  ancestors_join filled (not_mem_encode interface)

theorem ancestors_categoryPath (filled : root ≠ "") (interface : String) (plain : '/' ∉ category.toList) :
    ancestors (categoryPath root interface category) =
      ancestors root ++ [root] ++ [interfacePath root interface] := by
  have parent : interfacePath root interface ≠ "" := join_ne_empty _ _
  rw [categoryPath_eq, ancestors_join parent plain, ancestors_interfacePath filled]

theorem ancestors_nodePath (filled : root ≠ "") (plain : '/' ∉ e.category.toList) :
    ancestors (nodePath root e) = ancestors root ++ [root] ++ [interfacePath root e.interface] ++
      [categoryPath root e.interface e.category] := by
  have parent : categoryPath root e.interface e.category ≠ "" := join_ne_empty _ _
  rw [nodePath, ancestors_join parent (not_mem_encode _), ancestors_categoryPath filled _ plain]

/-- Above the places of registries are directories. -/
theorem Ours.directory_of_ancestor (filled : root ≠ "") (ours : Ours root path)
    (member : above ∈ ancestors path) :
    DirectoryPath root above := by
  rcases ours with directory | ⟨e, publishable, rfl⟩
  · cases directory with
    | above higher => exact .above (ancestors_trans member higher)
    | root => exact .above member
    | interface named single =>
        rw [ancestors_interfacePath filled] at member
        rcases List.mem_append.1 member with member | member
        · exact .above member
        · cases List.mem_singleton.1 member
          exact .root
    | category named single segment =>
        rw [ancestors_categoryPath filled _ segment.2] at member
        simp only [List.mem_append, List.mem_singleton] at member
        rcases member with (member | rfl) | rfl
        · exact .above member
        · exact .root
        · exact .interface named single
  · rw [ancestors_nodePath filled publishable.category.2] at member
    simp only [List.mem_append, List.mem_singleton] at member
    rcases member with ((member | rfl) | rfl) | rfl
    · exact .above member
    · exact .root
    · exact .interface publishable.named publishable.single
    · exact .category publishable.named publishable.single publishable.category

theorem Ours.slashes_le (ours : Ours root path) : slashes path ≤ slashes root + 3 := by
  rcases ours with directory | ⟨e, publishable, rfl⟩
  · have := directory.slashes_le
    omega
  · exact Nat.le_of_eq (slashes_nodePath publishable.category.2 root)

theorem Ours.endpoint (ours : Ours root path) (deep : slashes root + 3 ≤ slashes path) :
    ∃ e : Endpoint, e.Publishable ∧ path = nodePath root e := by
  refine ours.resolve_left fun directory => ?_
  have := directory.slashes_le
  omega

theorem DirectoryPath.not_deep (directory : DirectoryPath root path) : ¬ slashes root + 3 ≤ slashes path := by
  have := directory.slashes_le
  omega

theorem mem_ancestors_join (filled : path ≠ "") (name : String) : path ∈ ancestors (path ++ "/" ++ name) :=
  mem_ancestors_iff.2 ⟨filled, name.toList, toList_join path name⟩

theorem root_mem_ancestors_categoryPath (filled : root ≠ "") (interface category : String) :
    root ∈ ancestors (categoryPath root interface category) := by
  refine mem_ancestors_iff.2 ⟨filled, (Text.Percent.encode interface ++ "/" ++ category).toList, ?_⟩
  simp [categoryPath]

theorem Ours.in_line (filled : root ≠ "") (ours : Ours root path) :
    path ∈ ancestors root ∨ path = root ∨ root ∈ ancestors path := by
  rcases ours with directory | ⟨e, publishable, rfl⟩
  · cases directory with
    | above member => exact .inl member
    | root => exact .inr (.inl rfl)
    | interface named single => exact .inr (.inr (mem_ancestors_join filled _))
    | category named single segment => exact .inr (.inr (root_mem_ancestors_categoryPath filled _ _))
  · refine .inr (.inr (ancestors_trans (root_mem_ancestors_categoryPath filled e.interface e.category) ?_))
    exact mem_ancestors_join (join_ne_empty _ _) _

/-- What is elsewhere is not in the way of registries. -/
theorem Foreign.spares (filled : root ≠ "") (foreign : Foreign root path) (ours : Ours root above) :
    above ≠ path ∧ path ∉ ancestors above := by
  rcases ours.in_line filled with member | rfl | member
  · exact ⟨fun same => foreign.not_above (same ▸ member), fun below =>
      foreign.not_above (ancestors_trans below member)⟩
  · exact ⟨foreign.apart.symm, foreign.not_above⟩
  · refine ⟨fun same => foreign.not_below (same ▸ member), fun below => ?_⟩
    rcases ancestors_comparable member below with higher | same | lower
    · exact foreign.not_below higher
    · exact foreign.apart same.symm
    · exact foreign.not_above lower

theorem Placed.ours (placed : Placed root path) (below : root ∈ ancestors path) : Ours root path :=
  placed.resolve_right fun foreign => foreign.not_below below

theorem Placed.of_ancestor (filled : root ≠ "") (placed : Placed root path)
    (member : above ∈ ancestors path) :
    Placed root above := by
  rcases placed with ours | foreign
  · exact .inl (.inl (ours.directory_of_ancestor filled member))
  · by_cases higher : above ∈ ancestors root
    · exact .inl (.inl (.above higher))
    · exact .inr ⟨foreign.absolute.of_ancestor member, higher, fun same =>
        foreign.not_below (same ▸ member),
        fun below => foreign.not_below (ancestors_trans below member)⟩

end Places

/-- Every node has a place, and those of registries have their ancestors. -/
structure Grown (root : String) (s : Store) : Prop where
  placed : ∀ path, s.isNode path = true → Placed root path
  lasting : ∀ path node, s.nodes.get? path = some node → DirectoryPath root path → node.ephemeral = false
  rooted : ∀ path, s.isNode path = true → Ours root path → ∀ above ∈ ancestors path, s.isNode above = true

section Grown

/-- Ancestors that are missing come with a new node, and the others are there. -/
theorem mem_missing_or_isNode {other : String} (filled : root ≠ "") (grown : Grown root s)
    (new : other = path ∨ other ∈ s.missingAncestors path) (ours : Ours root other)
    (member : above ∈ ancestors other) :
    above ∈ s.missingAncestors path ∨ s.isNode above = true := by
  rcases Store.missing_or_above new member with lacks | there | ⟨nearest, higher, there, lies⟩
  · exact .inl lacks
  · exact .inr there
  · exact .inr (grown.rooted nearest there (.inl (ours.directory_of_ancestor filled higher)) above lies)

theorem grown_planted (filled : root ≠ "") (grown : Grown root s) (placed : Placed root path)
    {ephemeral : Bool}
    (lasting : DirectoryPath root path → ephemeral = false) : Grown root (s.planted path ephemeral) := by
  refine ⟨fun other there => ?_, fun other node found directory => ?_,
    fun other there ours above member => ?_⟩
  · rcases (s.isNode_planted ..).1 there with rfl | lacks | there
    · exact placed
    · exact placed.of_ancestor filled (Store.mem_ancestors_of_missing lacks)
    · exact grown.placed other there
  · rw [Store.get?_planted] at found
    split at found
    · next same =>
        cases found
        exact lasting (same ▸ directory)
    · split at found
      · cases found
        rfl
      · exact grown.lasting other node found directory
  · rcases (s.isNode_planted ..).1 there with same | lacks | there
    · exact (s.isNode_planted ..).2 (.inr (mem_missing_or_isNode filled grown (.inl same) ours member))
    · exact (s.isNode_planted ..).2 (.inr (mem_missing_or_isNode filled grown (.inr lacks) ours member))
    · exact (s.isNode_planted ..).2 (.inr (.inr (grown.rooted other there ours above member)))

/-- A path that can go with all that is below it: it takes no directory away, and from a directory no
more than a child that it is itself. -/
structure Spared (root path : String) : Prop where
  directories : ∀ other, DirectoryPath root other → other ≠ path ∧ isBelow path other = false
  children : ∀ other key name, DirectoryPath root other → childName? other key = some name → Placed root key →
    isBelow path key = false

theorem Leaf.not_below (filled : root ≠ "") (leaf : Leaf root path) (placed : Placed root above) :
    isBelow path above = false := by
  rw [Bool.eq_false_iff]
  intro below
  obtain ⟨rest, rfl⟩ := (isBelow_iff leaf.ne_rootPath).1 below
  obtain ⟨⟨tail, rfl⟩, deep⟩ := leaf
  rcases placed with ours | foreign
  · have bound := ours.slashes_le
    rw [slashes_join] at bound
    omega
  · exact foreign.not_below
      (ancestors_trans (mem_ancestors_join filled tail)
      (mem_ancestors_join (join_ne_empty _ _) rest))

theorem spared_of_leaf (filled : root ≠ "") (leaf : Leaf root path) : Spared root path where
  directories _ directory :=
    ⟨fun same => directory.not_deep (same ▸ leaf.2), leaf.not_below filled (.inl (.inl directory))⟩
  children _ _ _ _ _ placed := leaf.not_below filled placed

theorem DirectoryPath.absolute (absolute : Absolute root) (directory : DirectoryPath root path) :
    Absolute path := by
  cases directory with
  | above member => exact absolute.of_ancestor member
  | root => exact absolute
  | interface named single => exact absolute_interfacePath absolute named
  | category named single segment => exact absolute_categoryPath absolute named segment

theorem spared_of_foreign (absolute : Absolute root) (foreign : Foreign root path) : Spared root path := by
  have spares : ∀ other, DirectoryPath root other → other ≠ path ∧ path ∉ ancestors other :=
    fun other directory =>
    foreign.spares absolute.ne_empty (.inl directory)
  have below_iff : ∀ key, isBelow path key = true ↔ path ∈ ancestors key := fun key =>
    isBelow_iff_mem_ancestors foreign.absolute.ne_empty foreign.absolute.ne_root
  refine ⟨fun other directory => ⟨(spares other directory).1, ?_⟩,
    fun other key name directory child _ => ?_⟩
  · rw [Bool.eq_false_iff, ne_eq, below_iff]
    exact (spares other directory).2
  · have above := directory.absolute absolute
    obtain ⟨rfl, segment⟩ := (childName?_eq_some_iff above.ne_root).1 child
    rw [Bool.eq_false_iff, ne_eq, below_iff, ancestors_join above.ne_empty segment.2,
      List.mem_append, List.mem_singleton]
    exact not_or.2 ⟨(spares other directory).2, fun same => (spares other directory).1 same.symm⟩

theorem isNode_pruned_of_directory (spared : Spared root path) (directory : DirectoryPath root above) :
    (s.pruned path).isNode above = s.isNode above := by
  obtain ⟨apart, beside⟩ := spared.directories above directory
  simp only [Store.isNode, SortedMap.contains, Store.get?_pruned,
    if_neg (not_or.2 ⟨apart, Bool.eq_false_iff.1 beside⟩)]

theorem grown_pruned (filled : root ≠ "") (grown : Grown root s) (spared : Spared root path) :
    Grown root (s.pruned path) := by
  refine ⟨fun other there => grown.placed other (Store.isNode_pruned.1 there).2,
    fun other node found directory => ?_,
    fun other there ours above member => ?_⟩
  · rw [Store.get?_pruned] at found
    split at found
    · cases found
    · exact grown.lasting other node found directory
  · rw [isNode_pruned_of_directory spared (ours.directory_of_ancestor filled member)]
    exact grown.rooted other (Store.isNode_pruned.1 there).2 ours above member

theorem isNode_expire_of_directory (grown : Grown root s) (directory : DirectoryPath root path)
    (there : s.isNode path = true) : s.expire.isNode path = true := by
  obtain ⟨node, found⟩ := Store.isNode_iff.1 there
  exact Store.isNode_expire.2 ⟨node, found, grown.lasting path node found directory⟩

theorem grown_expire (filled : root ≠ "") (grown : Grown root s) : Grown root s.expire := by
  refine ⟨fun other there => grown.placed other (Store.isNode_of_expire there),
    fun other node found directory => ?_,
    fun other there ours above member => ?_⟩
  · rw [Store.get?_expire, Option.filter_eq_some_iff] at found
    exact grown.lasting other node found.1 directory
  · exact isNode_expire_of_directory grown (ours.directory_of_ancestor filled member)
      (grown.rooted other (Store.isNode_of_expire there) ours above member)

end Grown

section Children

theorem decodeChild?_encode (reparses : Endpoint.parse e.canonical = .ok e) :
    decodeChild? (Text.Percent.encode e.canonical) = some e := by
  rw [decodeChild?, Text.Percent.decode_encode]
  simp only [Except.toOption, Option.bind_some, reparses]

theorem categoryPath_ne_rootPath (plain : '/' ∉ category.toList) :
    categoryPath root interface category ≠ rootPath := by
  intro same
  have counts := congrArg slashes same
  rw [slashes_categoryPath plain, show slashes rootPath = 1 from by decide] at counts
  omega

theorem endpoint_of_child {key : String} (filled : root ≠ "") (plain : '/' ∉ category.toList)
    (placed : Placed root key)
    (child : childName? (categoryPath root interface category) key = some name) :
    ∃ e : Endpoint, e.Publishable ∧ e.interface = interface ∧ e.category = category ∧
      name = Text.Percent.encode e.canonical ∧ key = nodePath root e := by
  obtain ⟨whole, segment⟩ := (childName?_eq_some_iff (categoryPath_ne_rootPath plain)).1 child
  have deep : slashes root + 3 ≤ slashes key := by
    rw [whole, slashes_join, slashes_categoryPath plain]
    omega
  have below : root ∈ ancestors key := by
    rw [whole]
    exact ancestors_trans (root_mem_ancestors_categoryPath filled interface category)
      (mem_ancestors_join (join_ne_empty _ _) _)
  obtain ⟨e, publishable, rfl⟩ := (placed.ours below).endpoint deep
  obtain ⟨paths, names⟩ := (join_inj (not_mem_encode _) segment.2).1 whole
  obtain ⟨interfaces, categories⟩ := categoryPath_inj paths
  exact ⟨e, publishable, interfaces, categories, names.symm, rfl⟩

/-- Names of known children of a category stand for endpoints of it. -/
theorem publishable_of_decoded {names : List String} (filled : root ≠ "") (plain : '/' ∉ category.toList)
    (genuine : ∀ name ∈ names, ∃ key, childName? (categoryPath root interface category) key =
      some name ∧ Placed root key)
    (decoded : e ∈ names.filterMap decodeChild?) :
    e.Publishable ∧ e.interface = interface ∧ e.category = category := by
  obtain ⟨name, listed, stands⟩ := List.mem_filterMap.1 decoded
  obtain ⟨key, child, placed⟩ := genuine name listed
  obtain ⟨f, publishable, interfaces, categories, rfl, _⟩ := endpoint_of_child filled plain placed child
  rw [decodeChild?_encode publishable.reparses] at stands
  cases stands
  exact ⟨publishable, interfaces, categories⟩

theorem genuine_children (grown : Grown root s) (path : String) :
    ∀ name ∈ s.children path, ∃ key, childName? path key = some name ∧ Placed root key := by
  intro name listed
  obtain ⟨key, there, child⟩ := Store.mem_children_iff.1 listed
  exact ⟨key, child, grown.placed key there⟩

/-- What has been put under a category is found there again. -/
theorem mem_decoded_children_iff (filled : root ≠ "") (grown : Grown root s)
    (plain : '/' ∉ category.toList) :
    e ∈ (s.children (categoryPath root interface category)).filterMap decodeChild? ↔
      e.Publishable ∧ e.interface = interface ∧ e.category = category ∧
        s.isNode (nodePath root e) = true := by
  constructor
  · intro decoded
    obtain ⟨name, listed, stands⟩ := List.mem_filterMap.1 decoded
    obtain ⟨key, there, child⟩ := Store.mem_children_iff.1 listed
    obtain ⟨f, publishable, interfaces, categories, rfl, rfl⟩ :=
      endpoint_of_child filled plain (grown.placed key there) child
    rw [decodeChild?_encode publishable.reparses] at stands
    cases stands
    exact ⟨publishable, interfaces, categories, there⟩
  · rintro ⟨publishable, rfl, rfl, there⟩
    refine List.mem_filterMap.2 ⟨_, Store.mem_children_iff.2 ⟨_, there, ?_⟩,
      decodeChild?_encode publishable.reparses⟩
    exact (childName?_eq_some_iff (categoryPath_ne_rootPath plain)).2
      ⟨rfl, segment_encode (Endpoint.canonical_ne_empty e)⟩

theorem interface_of_child {key : String} (filled : root ≠ "") (below_top : root ≠ rootPath)
    (placed : Placed root key)
    (child : childName? root key = some name) :
    ∃ interface, interface ≠ "" ∧ interface ≠ Endpoint.anyValue ∧ name = Text.Percent.encode interface := by
  obtain ⟨whole, segment⟩ := (childName?_eq_some_iff below_top).1 child
  have count : slashes key = slashes root + 1 := by
    rw [whole, slashes_join, slashes_segment segment.2]
  rcases placed.ours (whole ▸ mem_ancestors_join filled name) with directory | ⟨e, publishable, rfl⟩
  · cases directory with
    | above member =>
        have := slashes_lt_of_mem_ancestors member
        omega
    | root => omega
    | @interface interface named single =>
        exact ⟨interface, named, single, ((join_inj (not_mem_encode interface) segment.2).1 whole).2.symm⟩
    | category named single inner =>
        rw [slashes_categoryPath inner.2] at count
        omega
  · rw [slashes_nodePath publishable.category.2] at count
    omega

theorem mem_children_root_iff (below_top : root ≠ rootPath) (named : interface ≠ "") :
    Text.Percent.encode interface ∈ s.children root ↔ s.isNode (interfacePath root interface) = true := by
  rw [Store.mem_children_iff]
  constructor
  · rintro ⟨key, there, child⟩
    obtain ⟨rfl, _⟩ := (childName?_eq_some_iff below_top).1 child
    exact there
  · intro there
    exact ⟨_, there, (childName?_eq_some_iff below_top).2 ⟨rfl, segment_encode named⟩⟩

end Children

/-- Watches are numbered and addressed in turn, and what is queued for them is true or made up for. -/
structure Sound (root : String) (s : Store) : Prop extends Grown root s where
  numbered : ∀ watch w, s.watches.get? watch = some w → watch < s.nextWatch
  addressed : ∀ watch w, s.watches.get? watch = some w → w.mailbox < s.nextMailbox
  watched : ∀ watch w, s.watches.get? watch = some w → DirectoryPath root w.path ∧ s.isNode w.path = true
  live : ∀ notice ∈ s.outbox, Store.Live (Placed root) s notice
  told : ∀ watch w, s.watches.get? watch = some w → Store.lastNames watch s.outbox = none ∨
    Store.lastNames watch s.outbox = some (s.children w.path)

/-- What a mailbox can rely on while the store moves on: what comes is told to it. -/
structure Onward (root : String) (mailbox : Store.Mailbox) (s t : Store) : Prop where
  mailboxes : s.nextMailbox ≤ t.nextMailbox
  listens : mailbox ∈ s.listeners → mailbox ∈ t.listeners
  watches : ∀ watch path, s.watches.get? watch = some ⟨path, mailbox⟩ →
    t.watches.get? watch = some ⟨path, mailbox⟩
  directories : ∀ path, DirectoryPath root path → s.isNode path = true → t.isNode path = true
  quiet : ∀ watch path, s.watches.get? watch = some ⟨path, mailbox⟩ →
    Store.lastNames watch t.outbox = none →
    Store.lastNames watch s.outbox = none ∧ t.children path = s.children path
  awake : mailbox ∈ s.listeners → t.online = true → .session mailbox .reconnected ∉ t.outbox →
    s.online = true ∧ .session mailbox .reconnected ∉ s.outbox

/-- While others act, the mailbox gets no watches either. -/
structure Later (root : String) (mailbox : Store.Mailbox) (s t : Store) : Prop
    extends Onward root mailbox s t where
  only : ∀ watch path, t.watches.get? watch = some ⟨path, mailbox⟩ →
    s.watches.get? watch = some ⟨path, mailbox⟩

section Onward

theorem Onward.refl : Onward root mailbox s s :=
  ⟨Nat.le_refl _, id, fun _ _ => id, fun _ _ => id, fun _ _ _ quiet => ⟨quiet, rfl⟩,
    fun _ online quiet => ⟨online, quiet⟩⟩

theorem Onward.trans (first : Onward root mailbox s t) (second : Onward root mailbox t u) :
    Onward root mailbox s u where
  mailboxes := Nat.le_trans first.mailboxes second.mailboxes
  listens := second.listens ∘ first.listens
  watches watch path found := second.watches watch path (first.watches watch path found)
  directories path directory there :=
    second.directories path directory (first.directories path directory there)
  quiet watch path found silent := by
    obtain ⟨before, same⟩ := second.quiet watch path (first.watches watch path found) silent
    obtain ⟨earlier, still⟩ := first.quiet watch path found before
    exact ⟨earlier, same.trans still⟩
  awake hears online quiet := by
    obtain ⟨before, silent⟩ := second.awake (first.listens hears) online quiet
    exact first.awake hears before silent

theorem Later.refl : Later root mailbox s s := { Onward.refl with only := fun _ _ => id }

theorem Later.trans (first : Later root mailbox s t) (second : Later root mailbox t u) :
    Later root mailbox s u where
  toOnward := first.toOnward.trans second.toOnward
  only watch path found := first.only watch path (second.only watch path found)

theorem later_of_told (filled : root ≠ "") (sound : Sound root s) (told : Store.Told (Placed root) s t)
    (directories : ∀ path, DirectoryPath root path → s.isNode path = true → t.isNode path = true)
    (awake : mailbox ∈ s.listeners → t.online = true → .session mailbox .reconnected ∉ t.outbox →
      s.online = true ∧ .session mailbox .reconnected ∉ s.outbox) : Later root mailbox s t where
  mailboxes := Nat.le_of_eq told.nextMailbox.symm
  listens hears := told.listeners ▸ hears
  watches watch path found := told.watches ▸ found
  directories := directories
  quiet watch path found silent := by
    obtain ⟨news, outbox, _, last⟩ := told.outbox
    rw [outbox, Store.lastNames_append, Option.or_eq_none_iff] at silent
    refine ⟨silent.2, ?_⟩
    rcases last watch _ found ((sound.watched watch _ found).1.ne_empty filled) with now | ⟨_, same⟩
    · rw [silent.1] at now
      cases now
    · exact same
  awake := awake
  only watch path found := told.watches ▸ found

theorem sound_of_told (filled : root ≠ "") (sound : Sound root s) (told : Store.Told (Placed root) s t)
    (grown : Grown root t)
    (directories : ∀ path, DirectoryPath root path → s.isNode path = true → t.isNode path = true) :
    Sound root t where
  toGrown := grown
  numbered watch w found := by
    rw [told.nextWatch]
    exact sound.numbered watch w (told.watches ▸ found)
  addressed watch w found := by
    rw [told.nextMailbox]
    exact sound.addressed watch w (told.watches ▸ found)
  watched watch w found := by
    obtain ⟨directory, there⟩ := sound.watched watch w (told.watches ▸ found)
    exact ⟨directory, directories _ directory there⟩
  live notice member := by
    obtain ⟨news, outbox, live, _⟩ := told.outbox
    rw [Store.Live.congr told.watches]
    rw [outbox] at member
    exact (List.mem_append.1 member).elim (sound.live notice) (live notice)
  told watch w found := by
    obtain ⟨news, outbox, _, last⟩ := told.outbox
    have found := told.watches ▸ found
    rw [outbox, Store.lastNames_append]
    rcases last watch w found ((sound.watched watch w found).1.ne_empty filled) with now | ⟨silent, same⟩
    · exact .inr (by rw [now]; rfl)
    · rw [silent, same, Option.none_or]
      exact sound.told watch w found

theorem awake_of_undisturbed (session : Store.Undisturbed s t) (_ : mailbox ∈ s.listeners)
    (online : t.online = true)
    (quiet : .session mailbox .reconnected ∉ t.outbox) :
    s.online = true ∧ .session mailbox .reconnected ∉ s.outbox :=
  ⟨session.online ▸ online, fun queued => quiet ((session.sessions ..).2 queued)⟩

end Onward

/-- A change of a sound store that every mailbox hears of as far as it has to. -/
def Heard (root : String) (s t : Store) : Prop :=
  Sound root s → Sound root t ∧ ∀ mailbox, Later root mailbox s t

section Heard

theorem Heard.refl : Heard root s s := fun sound => ⟨sound, fun _ => .refl⟩

theorem heard_planted (filled : root ≠ "") (placed : Placed root path) {ephemeral : Bool}
    (lasting : DirectoryPath root path → ephemeral = false) : Heard root s (s.planted path ephemeral) := by
  intro sound
  have told : Store.Told (Placed root) s (s.planted path ephemeral) :=
    Store.told_planted sound.placed placed
      (fun above lacks => placed.of_ancestor filled (Store.mem_ancestors_of_missing lacks)) ephemeral
  have grows : ∀ other, DirectoryPath root other → s.isNode other = true →
    (s.planted path ephemeral).isNode other = true :=
    fun other _ there => (s.isNode_planted ..).2 (.inr (.inr there))
  exact ⟨sound_of_told filled sound told (grown_planted filled sound.toGrown placed lasting) grows, fun _ =>
    later_of_told filled sound told grows (awake_of_undisturbed (s.undisturbed_planted ..))⟩

theorem heard_pruned (filled : root ≠ "") (spared : Spared root path) : Heard root s (s.pruned path) := by
  intro sound
  have told : Store.Told (Placed root) s (s.pruned path) :=
    Store.told_pruned sound.placed fun watch w found key name child there =>
      spared.children w.path key name (sound.watched watch w found).1 child (sound.placed key there)
  have stays : ∀ other, DirectoryPath root other → s.isNode other = true →
    (s.pruned path).isNode other = true :=
    fun other directory there => (isNode_pruned_of_directory spared directory).trans there
  exact ⟨sound_of_told filled sound told (grown_pruned filled sound.toGrown spared) stays, fun _ =>
    later_of_told filled sound told stays (awake_of_undisturbed (s.undisturbed_pruned ..))⟩

theorem heard_expire (filled : root ≠ "") : Heard root s s.expire := by
  intro sound
  have told : Store.Told (Placed root) s s.expire := Store.told_expire sound.placed
  have stays : ∀ other, DirectoryPath root other → s.isNode other = true → s.expire.isNode other = true :=
    fun _ directory there => isNode_expire_of_directory sound.toGrown directory there
  exact ⟨sound_of_told filled sound told (grown_expire filled sound.toGrown) stays, fun _ =>
    later_of_told filled sound told stays fun hears _ quiet =>
      absurd (Store.reconnected_expire hears) quiet⟩

theorem heard_setOnline (filled : root ≠ "") (online : Bool) : Heard root s (s.setOnline online) := by
  intro sound
  have told : Store.Told (Placed root) s (s.setOnline online) := Store.told_setOnline online
  have nodes : (s.setOnline online).nodes = s.nodes := by
    rcases s.setOnline_cases online with ⟨_, same⟩ | ⟨_, changed⟩
    · rw [same]
    · rw [changed]
      rfl
  have is_node : ∀ other, (s.setOnline online).isNode other = s.isNode other := fun other => by
    rw [Store.isNode, nodes, Store.isNode]
  have grown : Grown root (s.setOnline online) :=
    ⟨fun other there => sound.placed other (is_node other ▸ there),
      fun other node found => sound.lasting other node (nodes ▸ found),
      fun other there ours above member =>
        (is_node above).trans (sound.rooted other (is_node other ▸ there) ours above member)⟩
  have stays : ∀ other, DirectoryPath root other → s.isNode other = true →
    (s.setOnline online).isNode other = true :=
    fun other _ there => (is_node other).trans there
  refine ⟨sound_of_told filled sound told grown stays,
    fun mailbox => later_of_told filled sound told stays ?_⟩
  intro hears back quiet
  rcases s.setOnline_cases online with ⟨_, same⟩ | ⟨_, changed⟩
  · rw [same] at back quiet
    exact ⟨back, quiet⟩
  · rw [changed] at back quiet
    -- Who goes online says so to every listener.
    have online_now : online = true := back
    subst online_now
    exact absurd (List.mem_append_right _ (List.mem_map_of_mem hears)) quiet

end Heard

end SyncedRegistry

end ServiceGovernance
