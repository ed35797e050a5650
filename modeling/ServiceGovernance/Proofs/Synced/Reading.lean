import ServiceGovernance.Proofs.Registry.Notification
import ServiceGovernance.Proofs.Synced.Watching

/-!
Reading the categories of an interface, one path after the other. The children that have been read are
still those of the end, because reading makes directories only. What each path was read as, the
listing, is what the local registry is notified of.
-/

namespace ServiceGovernance.Synced

open SyncedRegistry Store.Path

variable {s t u : Synced} {owner narrowed : Endpoint} {categories : List String}
  {listing : List (String × List String)}

/-- Some categories have been read, with the children that were found. -/
inductive Reads (owner narrowed : Endpoint) : List String → Synced → List (String × List String) →
    Synced → Prop where
  | done {s : Synced} : Reads owner narrowed [] s [] s
  | next {s t u : Synced} {category : String} {rest : List String} {names : List String}
      {listing : List (String × List String)}
      (first : s.watchPath (categoryPath s.sync.root narrowed.interface category) owner narrowed =
        (.ok names, t))
      (more : Reads owner narrowed rest t listing u) :
      Reads owner narrowed (category :: rest) s ((category, names) :: listing) u

/-- The endpoints that stand for a listing, with a sentinel for each empty category. -/
def decodeListing (narrowed : Endpoint) (listing : List (String × List String)) : List Endpoint :=
  listing.flatMap fun entry => decodeChildren narrowed entry.1 entry.2

theorem readCategories_eq_ok {updates new : List Endpoint}
    (done : readCategories owner narrowed categories updates s = (.ok new, t)) :
    ∃ listing, Reads owner narrowed categories s listing t ∧
    new = updates ++ decodeListing narrowed listing := by
  induction categories generalizing updates s with
  | nil =>
      cases done
      exact ⟨[], .done, by simp [decodeListing]⟩
  | cons category categories ih =>
      unfold readCategories at done
      split at done
      · cases done
      · next names u first =>
          obtain ⟨listing, more, rfl⟩ := ih done
          exact ⟨(category, names) :: listing, .next first more, by simp [decodeListing]⟩

theorem watchCategories_eq_ok (done : s.watchCategories owner narrowed = (.ok (), t)) :
    ∃ listing u, Reads owner narrowed narrowed.expandedCategories s listing u ∧
      t = u.notify (decodeListing narrowed listing) := by
  unfold watchCategories at done
  split at done
  · cases done
  · next updates u read =>
      obtain ⟨listing, reads, rfl⟩ := readCategories_eq_ok read
      cases done
      exact ⟨listing, u, reads, by rw [List.nil_append]⟩

theorem Reads.categories_eq (reads : Reads owner narrowed categories s listing t) :
    listing.map (·.1) = categories := by
  induction reads with
  | done => rfl
  | next first more ih => rw [List.map_cons, ih]

theorem watchPath_eq_ok {path : String} {names : List String}
    (done : s.watchPath path owner narrowed = (.ok names, t)) :
    names = (withDirectory s.store path).children path ∧
    t.store.nodes = (withDirectory s.store path).nodes ∧
      t.sync.root = s.sync.root ∧ t.sync.mailbox = s.sync.mailbox ∧ t.sync.registry = s.sync.registry ∧
      t.sync.backlog = s.sync.backlog := by
  rcases s.watchPath_cases path owner narrowed with ⟨_, error, failed⟩ | ⟨_, watch, _, same⟩ | ⟨_, _, same⟩
  · rw [failed] at done
    cases done
  · rw [same] at done
    cases done
    exact ⟨rfl, rfl, rfl, rfl, rfl, rfl⟩
  · rw [same] at done
    cases done
    exact ⟨rfl, rfl, rfl, rfl, rfl, rfl⟩

theorem Reads.sync_eq (reads : Reads owner narrowed categories s listing t) :
    t.sync.root = s.sync.root ∧ t.sync.mailbox = s.sync.mailbox ∧ t.sync.registry = s.sync.registry ∧
      t.sync.backlog = s.sync.backlog := by
  induction reads with
  | done => exact ⟨rfl, rfl, rfl, rfl⟩
  | next first more ih =>
      obtain ⟨_, _, root, mailbox, registry, backlog⟩ := watchPath_eq_ok first
      exact ⟨ih.1.trans root, ih.2.1.trans mailbox, ih.2.2.1.trans registry, ih.2.2.2.trans backlog⟩

theorem below_root (root interface category name : String) :
    categoryPath root interface category ++ "/" ++ name =
      root ++ "/" ++ (Text.Percent.encode interface ++ "/" ++ category ++ "/" ++ name) := by
  simp only [categoryPath, String.append_assoc]

theorem absolute_ne_of_slashes {path : String} (two : 2 ≤ slashes path) : path ≠ rootPath := by
  rintro rfl
  exact absurd two (by decide)

/-- A new directory does not change what is in a category. -/
theorem children_withDirectory {root path interface category : String}
    (short : slashes path < slashes root + 3)
    (plain : '/' ∉ category.toList) (store : Store) :
    (withDirectory store path).children (categoryPath root interface category) =
      store.children (categoryPath root interface category) := by
  refine Store.children_congr fun key name child => ?_
  have not_top : categoryPath root interface category ≠ rootPath :=
    absolute_ne_of_slashes (by rw [slashes_categoryPath plain]; omega)
  obtain ⟨rfl, segment⟩ := (childName?_eq_some_iff not_top).1 child
  have leaf : Leaf root (categoryPath root interface category ++ "/" ++ name) := by
    refine ⟨⟨_, below_root root interface category name⟩, ?_⟩
    rw [slashes_join, slashes_categoryPath plain]
    omega
  have same := get?_withDirectory short store leaf
  simp only [Store.isNode, SortedMap.contains, same]

theorem children_congr_nodes {store other : Store} (same : store.nodes = other.nodes) (path : String) :
    store.children path = other.children path := by
  rw [Store.children, Store.children, same]

/-- Each path has at the end the children that it was read with. -/
theorem Reads.children_eq (reads : Reads owner narrowed categories s listing t)
    (plain : ∀ category ∈ categories, '/' ∉ category.toList) :
    (∀ interface category, '/' ∉ category.toList →
      t.store.children (categoryPath s.sync.root interface category) =
        s.store.children (categoryPath s.sync.root interface category)) ∧
    ∀ entry ∈ listing,
      entry.2 = t.store.children (categoryPath s.sync.root narrowed.interface entry.1) := by
  induction reads with
  | done => exact ⟨fun _ _ _ => rfl, fun _ member => absurd member List.not_mem_nil⟩
  | @next s t u category rest names listing first more ih =>
      obtain ⟨names_eq, nodes, root, _⟩ := watchPath_eq_ok first
      obtain ⟨stable, rest_eq⟩ := ih fun other member => plain other (List.mem_cons_of_mem _ member)
      rw [root] at stable rest_eq
      have flat := plain category List.mem_cons_self
      have short : slashes (categoryPath s.sync.root narrowed.interface category) <
          slashes s.sync.root + 3 := by
        rw [slashes_categoryPath flat]
        omega
      have here : ∀ interface category, '/' ∉ category.toList →
          t.store.children (categoryPath s.sync.root interface category) =
            s.store.children (categoryPath s.sync.root interface category) :=
              fun interface other plain_other =>
        (children_congr_nodes nodes _).trans (children_withDirectory short plain_other s.store)
      refine ⟨fun interface other plain_other => (stable interface other plain_other).trans
        (here interface other plain_other), fun entry member => ?_⟩
      rcases List.mem_cons.1 member with rfl | member
      · rw [stable _ _ flat, here _ _ flat, names_eq]
        exact children_withDirectory short flat s.store
      · exact rest_eq entry member

end ServiceGovernance.Synced
