import ServiceGovernance.Proofs.Store.Scanning

/-!
What the operations of the store do to its nodes, and what the watches hear of it. A change is told
if every watch whose children it changes gets a notice, the last one with the children of the end.
Creating a node, deleting a leaf and losing the session are told.
-/

namespace ServiceGovernance.Store

variable {Known : String → Prop} {s t u : Store} {path : String}

section Notices

/-- The names that a notice brings to a watch. -/
def Notice.namesFor? (watch : Nat) : Notice → Option (List String)
  | .children number _ _ names => if number = watch then some names else none
  | .session _ _ => none

/-- The names in the last notice of a watch. -/
def lastNames (watch : Nat) : List Notice → Option (List String)
  | [] => none
  | notice :: rest => (lastNames watch rest).or (notice.namesFor? watch)

theorem lastNames_append (watch : Nat) (notices more : List Notice) :
    lastNames watch (notices ++ more) = (lastNames watch more).or (lastNames watch notices) := by
  induction notices with
  | nil => simp [lastNames]
  | cons notice notices ih => simp [lastNames, ih, Option.or_assoc]

theorem lastNames_eq_none_iff {watch : Nat} {notices : List Notice} :
    lastNames watch notices = none ↔ ∀ notice ∈ notices, notice.namesFor? watch = none := by
  induction notices with
  | nil => simp [lastNames]
  | cons notice notices ih => simp [lastNames, ih, and_comm]

theorem mem_of_lastNames {watch : Nat} {notices : List Notice} {names : List String}
    (last : lastNames watch notices = some names) :
    ∃ notice ∈ notices, notice.namesFor? watch = some names := by
  induction notices with
  | nil => cases last
  | cons notice notices ih =>
      rw [lastNames, Option.or_eq_some_iff] at last
      rcases last with last | ⟨_, first⟩
      · obtain ⟨other, member, tells⟩ := ih last
        exact ⟨other, List.mem_cons_of_mem _ member, tells⟩
      · exact ⟨notice, List.mem_cons_self, first⟩

/-- Where all notices of a watch say the same, so does the last one. -/
theorem lastNames_eq_some {watch : Nat} {notices : List Notice} {names : List String}
    (same : ∀ notice ∈ notices, ∀ others, notice.namesFor? watch = some others → others = names)
    (some_there : ∃ notice ∈ notices, notice.namesFor? watch = some names) :
    lastNames watch notices = some names := by
  cases last : lastNames watch notices with
  | none =>
      obtain ⟨notice, member, tells⟩ := some_there
      rw [lastNames_eq_none_iff.1 last notice member] at tells
      cases tells
  | some others =>
      obtain ⟨notice, member, tells⟩ := mem_of_lastNames last
      rw [same notice member others tells]

/-- A notice about the children of a watched path, all of them known. -/
def Live (Known : String → Prop) (s : Store) : Notice → Prop
  | .children watch mailbox path names =>
      s.watches.get? watch = some ⟨path, mailbox⟩ ∧
        ∀ name ∈ names, ∃ key, Path.childName? path key = some name ∧ Known key
  | .session _ _ => True

theorem mem_childNotices_iff {notice : Notice} :
    notice ∈ s.childNotices path ↔ ∃ watch mailbox, s.watches.get? watch = some ⟨path, mailbox⟩ ∧
      notice = .children watch mailbox path (s.children path) := by
  simp only [childNotices, List.mem_map, List.mem_filter, decide_eq_true_eq, Prod.exists,
    SortedMap.mem_entries_iff]
  constructor
  · rintro ⟨watch, ⟨there, mailbox⟩, ⟨found, rfl⟩, rfl⟩
    exact ⟨watch, mailbox, found, rfl⟩
  · rintro ⟨watch, mailbox, found, rfl⟩
    exact ⟨watch, ⟨path, mailbox⟩, ⟨found, rfl⟩, rfl⟩

def parentNotices (s : Store) (path : String) : List Notice :=
  match Path.parent? path with
  | some parent => s.childNotices parent
  | none => []

theorem sendParent_eq (s : Store) (path : String) :
    s.sendParent path = { s with outbox := s.outbox ++ s.parentNotices path } := by
  unfold sendParent parentNotices
  cases Path.parent? path with
  | none => simp only [List.append_nil]
  | some parent => rfl

theorem mem_parentNotices_iff {notice : Notice} :
    notice ∈ s.parentNotices path ↔ ∃ watch mailbox above, Path.parent? path = some above ∧
      s.watches.get? watch = some ⟨above, mailbox⟩ ∧
        notice = .children watch mailbox above (s.children above) := by
  unfold parentNotices
  cases Path.parent? path with
  | none => simp
  | some parent => simp [mem_childNotices_iff]

theorem foldl_sendParent_eq (paths : List String) (s : Store) :
    paths.foldl sendParent s = { s with outbox := s.outbox ++ paths.flatMap s.parentNotices } := by
  induction paths generalizing s with
  | nil => simp
  | cons path paths ih =>
      rw [List.foldl_cons, ih, sendParent_eq]
      simp only [List.flatMap_cons, List.append_assoc]
      rfl

theorem lastNames_parentNotices_of_parent {paths : List String} {watch : Nat} {w : Watch}
    (found : s.watches.get? watch = some w) (heard : ∃ path ∈ paths, Path.parent? path = some w.path) :
    lastNames watch (paths.flatMap s.parentNotices) = some (s.children w.path) := by
  obtain ⟨path, member, parent⟩ := heard
  have there := mem_parentNotices_iff.2 ⟨watch, w.mailbox, w.path, parent, found, rfl⟩
  refine lastNames_eq_some ?_ ⟨_, List.mem_flatMap.2 ⟨path, member, there⟩, if_pos rfl⟩
  intro notice member names tells
  obtain ⟨path, _, member⟩ := List.mem_flatMap.1 member
  obtain ⟨number, mailbox, above, _, owns, rfl⟩ := mem_parentNotices_iff.1 member
  simp only [Notice.namesFor?] at tells
  split at tells
  · next same =>
      subst same
      rw [owns] at found
      cases found
      exact (Option.some.inj tells).symm
  · cases tells

theorem lastNames_parentNotices_eq_none {paths : List String} {watch : Nat} {w : Watch}
    (found : s.watches.get? watch = some w) (unheard : ∀ path ∈ paths, Path.parent? path ≠ some w.path) :
    lastNames watch (paths.flatMap s.parentNotices) = none := by
  refine lastNames_eq_none_iff.2 fun notice member => ?_
  obtain ⟨path, there, member⟩ := List.mem_flatMap.1 member
  obtain ⟨number, mailbox, above, parent, owns, rfl⟩ := mem_parentNotices_iff.1 member
  refine if_neg fun same => ?_
  subst same
  rw [owns] at found
  cases found
  exact unheard path there parent

end Notices

section Nodes

theorem isNode_iff : s.isNode path = true ↔ ∃ node, s.nodes.get? path = some node := SortedMap.contains_iff

theorem mem_children_iff {name : String} :
    name ∈ s.children path ↔ ∃ key, s.isNode key = true ∧ Path.childName? path key = some name := by
  simp only [children_eq_filterMap, List.mem_filterMap, SortedMap.mem_keys_iff, isNode_iff]

/-- The nodes that are children of a path, without what is in them. -/
def family (s : Store) (path : String) : SortedSet String :=
  (s.nodes.filter fun key _ => (Path.childName? path key).isSome).mapValues fun _ _ => ()

theorem children_eq_family (s : Store) (path : String) :
    s.children path = (s.family path).toList.filterMap (Path.childName? path) := by
  simp only [children_eq_filterMap, family, SortedSet.toList, SortedMap.keys, SortedMap.mapValues, SortedMap.filter,
    List.map_map, List.filterMap_map, List.filterMap_filter]
  congr 1
  funext entry
  cases child : Path.childName? path entry.1 <;> simp [child]

/-- What is no child of the path does not count. -/
theorem children_congr
    (same : ∀ key name, Path.childName? path key = some name → s.isNode key = t.isNode key) :
    s.children path = t.children path := by
  have families : s.family path = t.family path := by
    apply SortedMap.ext
    intro key
    simp only [family, SortedMap.get?_mapValues, SortedMap.get?_filter]
    cases child : Path.childName? path key with
    | none => cases s.nodes.get? key <;> cases t.nodes.get? key <;> rfl
    | some name =>
        have here := same key name child
        simp only [isNode, SortedMap.contains] at here
        cases left : s.nodes.get? key <;> cases right : t.nodes.get? key <;> simp_all [Option.filter]
  rw [children_eq_family, children_eq_family, families]

theorem live_of_mem_parentNotices {notice : Notice} (known : ∀ key, s.isNode key = true → Known key)
    (member : notice ∈ s.parentNotices path) : Live Known s notice := by
  obtain ⟨watch, mailbox, above, _, found, rfl⟩ := mem_parentNotices_iff.1 member
  refine ⟨found, fun name listed => ?_⟩
  obtain ⟨key, there, child⟩ := mem_children_iff.1 listed
  exact ⟨key, child, known key there⟩

end Nodes

/-- Every watch whose children are others now has had a notice since, the last one with these. -/
structure Told (Known : String → Prop) (s t : Store) : Prop where
  watches : t.watches = s.watches
  nextWatch : t.nextWatch = s.nextWatch
  listeners : t.listeners = s.listeners
  nextMailbox : t.nextMailbox = s.nextMailbox
  outbox : ∃ news, t.outbox = s.outbox ++ news ∧ (∀ notice ∈ news, Live Known s notice) ∧
    ∀ watch w, s.watches.get? watch = some w → w.path ≠ "" →
      lastNames watch news = some (t.children w.path) ∨
        lastNames watch news = none ∧ t.children w.path = s.children w.path

/-- Neither the session nor what has been said about it is another. -/
structure Undisturbed (s t : Store) : Prop where
  online : t.online = s.online
  sessions : ∀ mailbox state, .session mailbox state ∈ t.outbox ↔ .session mailbox state ∈ s.outbox

section Told

theorem Told.refl : Told Known s s :=
  ⟨rfl, rfl, rfl, rfl, [], by simp, by simp, fun _ _ _ _ => .inr ⟨rfl, rfl⟩⟩

theorem Live.congr (same : t.watches = s.watches) {notice : Notice} :
    Live Known t notice ↔ Live Known s notice := by
  cases notice <;> simp [Live, same]

theorem Told.trans (first : Told Known s t) (second : Told Known t u) : Told Known s u := by
  obtain ⟨watches, nextWatch, listeners, nextMailbox, news, outbox, live, last⟩ := first
  obtain ⟨watches', nextWatch', listeners', nextMailbox', more, outbox', live', last'⟩ := second
  refine ⟨watches'.trans watches, nextWatch'.trans nextWatch, listeners'.trans listeners,
    nextMailbox'.trans nextMailbox, news ++ more, by rw [outbox', outbox, List.append_assoc], ?_, ?_⟩
  · intro notice member
    rcases List.mem_append.1 member with member | member
    · exact live notice member
    · exact (Live.congr watches).1 (live' notice member)
  · intro watch w found filled
    rw [lastNames_append]
    rcases last' watch w (watches ▸ found) filled with now | ⟨silent, same⟩
    · exact .inl (by rw [now]; rfl)
    · rw [silent, same, Option.none_or]
      exact last watch w found filled

theorem Undisturbed.refl : Undisturbed s s := ⟨rfl, fun _ _ => .rfl⟩

theorem Undisturbed.trans (first : Undisturbed s t) (second : Undisturbed t u) : Undisturbed s u :=
  ⟨second.online.trans first.online, fun mailbox state =>
    (second.sessions mailbox state).trans (first.sessions mailbox state)⟩

/-- If all the children that come or go are told to their parents at the end, all is told. -/
theorem told_foldl_sendParent {nodes : SortedMap String Node} (paths : List String)
    (known : ∀ key, isNode { s with nodes } key = true → Known key)
    (others : ∀ watch w, s.watches.get? watch = some w →
      ∀ key name, Path.childName? w.path key = some name →
      key ∉ paths → isNode { s with nodes } key = s.isNode key) :
    Told Known s (paths.foldl sendParent { s with nodes }) := by
  rw [foldl_sendParent_eq]
  refine ⟨rfl, rfl, rfl, rfl, _, rfl, ?_, ?_⟩
  · intro notice member
    obtain ⟨path, _, member⟩ := List.mem_flatMap.1 member
    exact (Live.congr rfl).1 (live_of_mem_parentNotices (s := { s with nodes }) known member)
  · intro watch w found filled
    by_cases heard : ∃ path ∈ paths, Path.parent? path = some w.path
    · exact .inl (lastNames_parentNotices_of_parent (s := { s with nodes }) found heard)
    · refine .inr ⟨lastNames_parentNotices_eq_none (s := { s with nodes }) found fun path member parent =>
        heard ⟨path, member, parent⟩, children_congr fun key name child =>
        others watch w found key name child fun member =>
        heard ⟨key, member, Path.parent?_of_childName? filled child⟩⟩

end Told

section Create

variable {node : Node} {paths : List String}

theorem addNode_eq (s : Store) (path : String) (node : Node) :
    s.addNode path node = { s with
      nodes := s.nodes.insert path node
      outbox := s.outbox ++ parentNotices { s with nodes := s.nodes.insert path node } path } := by
  rw [addNode, sendParent_eq]

theorem get?_addNode (s : Store) (path other : String) (node : Node) :
    (s.addNode path node).nodes.get? other = if other = path then some node else s.nodes.get? other := by
  rw [addNode_eq, SortedMap.get?_insert]

theorem isNode_addNode (s : Store) (path other : String) (node : Node) :
    (s.addNode path node).isNode other = (other == path || s.isNode other) := by
  simp only [isNode, SortedMap.contains, get?_addNode]
  split <;> simp_all

theorem undisturbed_addNode (s : Store) (path : String) (node : Node) :
    Undisturbed s (s.addNode path node) := by
  refine ⟨by rw [addNode_eq], fun mailbox state => ?_⟩
  rw [addNode_eq, List.mem_append]
  refine or_iff_left fun member => ?_
  obtain ⟨_, _, _, _, _, same⟩ := mem_parentNotices_iff.1 member
  cases same

/-- Only the parent of a new node has other children. -/
theorem told_addNode (known : ∀ key, s.isNode key = true → Known key) (new : Known path) :
    Told Known s (s.addNode path node) := by
  have nodes : ∀ key, isNode { s with nodes := s.nodes.insert path node } key =
    (key == path || s.isNode key) := by
    intro key
    rw [← isNode_addNode s path key node, addNode_eq]
    rfl
  refine told_foldl_sendParent [path] (fun key there => ?_) fun _ _ _ key _ _ absent => ?_
  · rw [nodes, Bool.or_eq_true, beq_iff_eq] at there
    exact there.elim (· ▸ new) (known key)
  · rw [nodes, beq_false_of_ne fun same => absent (List.mem_singleton.2 same), Bool.false_or]

theorem get?_foldl_addNode (paths : List String) (s : Store) (other : String) :
    (paths.foldl (fun s parent => s.addNode parent {}) s).nodes.get? other =
      if other ∈ paths then some {} else s.nodes.get? other := by
  induction paths generalizing s with
  | nil => simp
  | cons path paths ih =>
      rw [List.foldl_cons, ih, get?_addNode]
      by_cases first : other = path <;> by_cases later : other ∈ paths <;> simp [first, later]

theorem undisturbed_foldl_addNode (paths : List String) (s : Store) :
    Undisturbed s (paths.foldl (fun s parent => s.addNode parent {}) s) := by
  induction paths generalizing s with
  | nil => exact .refl
  | cons path paths ih => exact (undisturbed_addNode s path {}).trans (ih _)

theorem told_foldl_addNode (known : ∀ key, s.isNode key = true → Known key)
    (new : ∀ path ∈ paths, Known path) :
    Told Known s (paths.foldl (fun s parent => s.addNode parent {}) s) := by
  induction paths generalizing s with
  | nil => exact .refl
  | cons path paths ih =>
      have here := new path List.mem_cons_self
      refine (told_addNode known here).trans (ih (fun key there => ?_) fun path member =>
        new path (List.mem_cons_of_mem _ member))
      rw [isNode_addNode, Bool.or_eq_true, beq_iff_eq] at there
      exact there.elim (· ▸ here) (known key)

/-- The store with a new node and the ancestors that it lacks. -/
def planted (s : Store) (path : String) (ephemeral : Bool) : Store :=
  ((s.missingAncestors path).foldl (fun s parent => s.addNode parent {}) s).addNode path { ephemeral }

/-- The error says which condition has failed first. -/
theorem create_cases (s : Store) (path : String) (ephemeral : Bool) :
    (Path.isValid path = false ∧ s.create path ephemeral = (.error (.invalidPath path), s)) ∨
    (s.online = false ∧ s.create path ephemeral = (.error (.unavailable path), s)) ∨
    (s.online = true ∧ s.isNode path = true ∧ s.create path ephemeral = (.error (.nodeExists path), s)) ∨
    (s.online = true ∧ s.isNode path = false ∧
      s.create path ephemeral = (.ok (), s.planted path ephemeral)) := by
  unfold create planted
  cases valid : Path.isValid path
  · exact .inl ⟨rfl, by simp⟩
  cases online : s.online
  · exact .inr (.inl ⟨rfl, by simp⟩)
  cases there : s.isNode path
  · exact .inr (.inr (.inr ⟨rfl, rfl, by simp⟩))
  · exact .inr (.inr (.inl ⟨rfl, rfl, by simp⟩))

theorem isValid_of_create {ephemeral : Bool} (made : (s.create path ephemeral).1 = .ok ()) :
    Path.isValid path = true := by
  cases valid : Path.isValid path with
  | true => rfl
  | false => simp [create, valid] at made

/-- Whatever the reason of a refusal, it changes nothing. -/
theorem store_create (s : Store) (path : String) (ephemeral : Bool) :
    (s.create path ephemeral).2 = s ∨
    Path.isValid path = true ∧ (s.create path ephemeral).2 = s.planted path ephemeral := by
  rcases s.create_cases path ephemeral with ⟨_, made⟩ | ⟨_, made⟩ | ⟨_, _, made⟩ | ⟨_, _, made⟩
  · exact .inl (by rw [made])
  · exact .inl (by rw [made])
  · exact .inl (by rw [made])
  · exact .inr ⟨isValid_of_create (by rw [made]), by rw [made]⟩

theorem get?_planted (s : Store) (path other : String) (ephemeral : Bool) :
    (s.planted path ephemeral).nodes.get? other =
      if other = path then some { ephemeral }
      else if other ∈ s.missingAncestors path then some {} else s.nodes.get? other := by
  rw [planted, get?_addNode, get?_foldl_addNode]

theorem isNode_planted (s : Store) (path other : String) (ephemeral : Bool) :
    (s.planted path ephemeral).isNode other = true ↔
      other = path ∨ other ∈ s.missingAncestors path ∨ s.isNode other = true := by
  rw [isNode_iff, isNode_iff, get?_planted]
  split
  · simp [*]
  · split <;> simp [*]

theorem mem_ancestors_of_missing {above : String} (missing : above ∈ s.missingAncestors path) :
    above ∈ Path.ancestors path :=
  List.mem_reverse.1 ((List.takeWhile_sublist _).mem (List.mem_reverse.1 missing))

/-- Above what is new stand ancestors that come with it, the nearest one that is there, and those of that one. -/
theorem missing_or_above {other above : String} (new : other = path ∨ other ∈ s.missingAncestors path)
    (member : above ∈ Path.ancestors other) :
    above ∈ s.missingAncestors path ∨ s.isNode above = true ∨
      ∃ nearest ∈ Path.ancestors other, s.isNode nearest = true ∧ above ∈ Path.ancestors nearest := by
  have split : Path.ancestors path = ((Path.ancestors path).reverse.dropWhile (!s.isNode ·)).reverse ++
    s.missingAncestors path := by
    rw [missingAncestors, ← List.reverse_append, List.takeWhile_append_dropWhile, List.reverse_reverse]
  have passed : above ∈ Path.ancestors path :=
    new.elim (· ▸ member) fun lacks => Path.ancestors_trans member (mem_ancestors_of_missing lacks)
  rw [split, List.mem_append, List.mem_reverse] at passed
  refine passed.symm.imp_right fun passed => ?_
  cases rest : (Path.ancestors path).reverse.dropWhile (!s.isNode ·) with
  | nil =>
      rw [rest] at passed
      cases passed
  | cons nearest others =>
      have there : s.isNode nearest = true := by
        have := List.head_dropWhile_not (!s.isNode ·) (l := (Path.ancestors path).reverse) (by simp [rest])
        simpa [rest] using this
      have ordered := Path.pairwise_ancestors path
      rw [split, rest, List.reverse_cons, List.append_assoc, List.pairwise_append] at ordered
      have higher : nearest ∈ Path.ancestors other := by
        rcases new with rfl | lacks
        · rw [split, rest]
          simp
        · exact (List.pairwise_append.1 ordered.2.1).2.2 nearest (List.mem_singleton_self _) other lacks
      rw [rest] at passed
      rcases List.mem_cons.1 passed with rfl | passed
      · exact .inl there
      · exact .inr ⟨nearest, higher, there, ordered.2.2 above (List.mem_reverse.2 passed) nearest (by simp)⟩

/-- A new node is a child of the path that it was made under, and that path has no other new child. -/
theorem mem_children_create {parent leaf name : String} (below_top : parent ≠ Path.rootPath)
    (segment : Path.Segment leaf) {ephemeral : Bool} :
    name ∈ (s.create (parent ++ "/" ++ leaf) ephemeral).2.children parent ↔
      name ∈ s.children parent ∨
        name = leaf ∧ Path.isValid (parent ++ "/" ++ leaf) = true ∧ s.online = true := by
  have child : Path.childName? parent (parent ++ "/" ++ leaf) = some leaf :=
    (Path.childName?_eq_some_iff below_top).2 ⟨rfl, segment⟩
  rcases s.create_cases (parent ++ "/" ++ leaf) ephemeral with
    ⟨invalid, made⟩ | ⟨offline, made⟩ | ⟨online, there, made⟩ | ⟨online, absent, made⟩
  · simp [made, invalid]
  · simp [made, offline]
  · rw [made]
    have listed : leaf ∈ s.children parent := mem_children_iff.2 ⟨_, there, child⟩
    exact ⟨.inl, fun either => either.elim id fun new => new.1 ▸ listed⟩
  · have valid : Path.isValid (parent ++ "/" ++ leaf) = true := isValid_of_create (by rw [made])
    simp only [made, mem_children_iff, isNode_planted, valid, online, and_true]
    constructor
    · rintro ⟨key, rfl | missing | there, named⟩
      · rw [child] at named
        exact .inr (Option.some.inj named).symm
      · -- What is made above the node does not lie beside it.
        obtain ⟨rfl, other⟩ := (Path.childName?_eq_some_iff below_top).1 named
        have fewer := Path.slashes_lt_of_mem_ancestors (mem_ancestors_of_missing missing)
        rw [Path.slashes_join, Path.slashes_join, Path.slashes_segment other.2,
          Path.slashes_segment segment.2] at fewer
        omega
      · exact .inl ⟨key, there, named⟩
    · rintro (⟨key, there, named⟩ | rfl)
      · exact ⟨key, .inr (.inr there), named⟩
      · exact ⟨_, .inl rfl, child⟩

theorem undisturbed_planted (s : Store) (path : String) (ephemeral : Bool) :
    Undisturbed s (s.planted path ephemeral) :=
  (undisturbed_foldl_addNode _ s).trans (undisturbed_addNode _ path _)

theorem told_planted (known : ∀ key, s.isNode key = true → Known key) (new : Known path)
    (above : ∀ key ∈ s.missingAncestors path, Known key) (ephemeral : Bool) :
    Told Known s (s.planted path ephemeral) := by
  refine (told_foldl_addNode known above).trans (told_addNode (fun key there => ?_) new)
  rw [isNode_iff, get?_foldl_addNode] at there
  split at there
  · next missing => exact above key missing
  · exact known key (isNode_iff.2 there)

theorem told_of_planted (s : Store) (path : String) (ephemeral : Bool) :
    Told (fun _ => True) s (s.planted path ephemeral) :=
  told_planted (fun _ _ => trivial) trivial (fun _ _ => trivial) ephemeral

end Create

section Delete

/-- The store without a node and what is below it. -/
def pruned (s : Store) (path : String) : Store := (s.removeSubtree path).sendParent path

theorem pruned_eq (s : Store) (path : String) : s.pruned path = { s.removeSubtree path with
    outbox := s.outbox ++ (s.removeSubtree path).parentNotices path } :=
  sendParent_eq (s.removeSubtree path) path

theorem delete_cases (s : Store) (path : String) :
    (Path.isValid path = false ∧ s.delete path = (.error (.invalidPath path), s)) ∨
    (s.online = false ∧ s.delete path = (.error (.unavailable path), s)) ∨
    (s.online = true ∧ s.isNode path = false ∧ s.delete path = (.error (.noNode path), s)) ∨
    (s.online = true ∧ s.isNode path = true ∧ s.delete path = (.ok (), s.pruned path)) := by
  unfold delete pruned
  cases valid : Path.isValid path
  · exact .inl ⟨rfl, by simp⟩
  cases online : s.online
  · exact .inr (.inl ⟨rfl, by simp⟩)
  cases there : s.isNode path
  · exact .inr (.inr (.inl ⟨rfl, rfl, by simp⟩))
  · exact .inr (.inr (.inr ⟨rfl, rfl, by simp⟩))

theorem store_delete (s : Store) (path : String) :
    (s.delete path).2 = s ∨ s.isNode path = true ∧ (s.delete path).2 = s.pruned path := by
  rcases s.delete_cases path with ⟨_, gone⟩ | ⟨_, gone⟩ | ⟨_, _, gone⟩ | ⟨_, there, gone⟩
  · exact .inl (by rw [gone])
  · exact .inl (by rw [gone])
  · exact .inl (by rw [gone])
  · exact .inr ⟨there, by rw [gone]⟩

theorem isNode_removeSubtree {key : String} : (s.removeSubtree path).isNode key = true ↔
    (key ≠ path ∧ Path.isBelow path key = false) ∧ s.isNode key = true := by
  simp only [isNode_iff, removeSubtree, SortedMap.get?_filter, Option.filter_eq_some_iff]
  constructor
  · rintro ⟨node, found, stays⟩
    exact ⟨by simpa using stays, node, found⟩
  · rintro ⟨stays, node, found⟩
    exact ⟨node, found, by simpa using stays⟩

theorem isNode_pruned {key : String} : (s.pruned path).isNode key = true ↔
    (key ≠ path ∧ Path.isBelow path key = false) ∧ s.isNode key = true := by
  rw [← isNode_removeSubtree, pruned_eq]
  rfl

theorem get?_pruned (s : Store) (path other : String) :
    (s.pruned path).nodes.get? other =
      if other = path ∨ Path.isBelow path other = true then none else s.nodes.get? other := by
  simp only [pruned_eq, removeSubtree, SortedMap.get?_filter]
  by_cases same : other = path <;> by_cases below : Path.isBelow path other = true <;>
    cases s.nodes.get? other <;> simp [same, below, Option.filter]

theorem undisturbed_pruned (s : Store) (path : String) : Undisturbed s (s.pruned path) := by
  refine ⟨by rw [pruned_eq]; rfl, fun mailbox state => ?_⟩
  rw [pruned_eq, List.mem_append]
  refine or_iff_left fun member => ?_
  obtain ⟨_, _, _, _, _, same⟩ := mem_parentNotices_iff.1 member
  cases same

/-- A watch on a path that goes hears nothing, so none may be there. -/
theorem told_pruned (known : ∀ key, s.isNode key = true → Known key)
    (spared : ∀ watch w, s.watches.get? watch = some w →
      ∀ key name, Path.childName? w.path key = some name →
      s.isNode key = true → Path.isBelow path key = false) : Told Known s (s.pruned path) := by
  refine told_foldl_sendParent [path] (fun key there => known key (isNode_removeSubtree.1 there).2)
    fun watch w found key name child absent =>
      Bool.eq_iff_iff.2 (isNode_removeSubtree.trans (and_iff_right_of_imp fun there => ?_))
  exact ⟨fun same => absent (List.mem_singleton.2 same), spared watch w found key name child there⟩

end Delete

section Session

theorem get?_expire (s : Store) (path : String) :
    s.expire.nodes.get? path = (s.nodes.get? path).filter fun node => !node.ephemeral := by
  simp only [expire, foldl_sendParent_eq, sendState, SortedMap.get?_filter]

theorem isNode_expire : s.expire.isNode path = true ↔
    ∃ node, s.nodes.get? path = some node ∧ node.ephemeral = false := by
  simp only [isNode_iff, get?_expire, Option.filter_eq_some_iff, Bool.not_eq_true']

theorem isNode_of_expire (there : s.expire.isNode path = true) : s.isNode path = true := by
  obtain ⟨node, found, _⟩ := isNode_expire.1 there
  exact isNode_iff.2 ⟨node, found⟩

/-- Whoever listens will hear that the session is back. -/
theorem reconnected_expire {mailbox : Mailbox} (listens : mailbox ∈ s.listeners) :
    .session mailbox .reconnected ∈ s.expire.outbox := by
  simp only [expire, foldl_sendParent_eq, sendState, List.mem_append, List.mem_map]
  exact .inr ⟨mailbox, listens, rfl⟩

theorem told_sendState (state : SessionState) : Told Known s (s.sendState state) := by
  refine ⟨rfl, rfl, rfl, rfl, _, rfl, ?_, fun watch w found filled =>
    .inr ⟨lastNames_eq_none_iff.2 ?_, rfl⟩⟩
  all_goals
    intro notice member
    obtain ⟨mailbox, _, rfl⟩ := List.mem_map.1 member
  · trivial
  · rfl

theorem told_expire (known : ∀ key, s.isNode key = true → Known key) : Told Known s s.expire := by
  have kept : ∀ key, isNode { s.sendState .disconnected with
      nodes := s.nodes.filter fun _ node => !node.ephemeral } key = true → s.isNode key = true := by
    intro key there
    obtain ⟨node, found⟩ := isNode_iff.1 there
    rw [SortedMap.get?_filter, Option.filter_eq_some_iff] at found
    exact isNode_iff.2 ⟨node, found.1⟩
  refine (told_sendState .disconnected).trans
    ((told_foldl_sendParent _ (fun key there => known key (kept key there))
    fun _ _ _ key _ _ absent => Bool.eq_iff_iff.2 ⟨kept key, fun there => ?_⟩).trans
      (told_sendState .reconnected))
  obtain ⟨node, found⟩ := isNode_iff.1 there
  refine isNode_iff.2 ⟨node, ?_⟩
  rw [SortedMap.get?_filter, Option.filter_eq_some_iff]
  refine ⟨found, ?_⟩
  cases brief : node.ephemeral with
  | false => rfl
  | true =>
      refine absurd (List.mem_map.2 ⟨(key, node), List.mem_filter.2 ⟨?_, by simpa using brief⟩, rfl⟩) absent
      exact (SortedMap.mem_entries_iff ..).2 found

theorem setOnline_cases (s : Store) (online : Bool) :
    (s.online = online ∧ s.setOnline online = s) ∨
    (s.online = !online ∧ s.setOnline online =
      sendState { s with online } (if online then .reconnected else .disconnected)) := by
  unfold setOnline
  by_cases same : s.online = online
  · exact .inl ⟨same, if_pos same⟩
  · exact .inr ⟨by cases online <;> simpa using same, if_neg same⟩

theorem told_setOnline (online : Bool) : Told Known s (s.setOnline online) := by
  rcases setOnline_cases s online with ⟨_, same⟩ | ⟨_, changed⟩
  · rw [same]
    exact .refl
  · rw [changed]
    have switched : Told Known s { s with online } :=
      ⟨rfl, rfl, rfl, rfl, [], by simp, by simp, fun _ _ _ _ => .inr ⟨rfl, rfl⟩⟩
    exact switched.trans (told_sendState _)

end Session

end ServiceGovernance.Store
