import ServiceGovernance.Proofs.Registry.Requests

/-!
What a query of several interfaces has cached of each of them. An update decides on the interfaces that it
speaks of, and `*` speaks of all; what it does not decide on stays. So after any history the members of an
interface are those of the latest share that has decided on it, and a second notification of the same updates
changes nothing.
-/

namespace ServiceGovernance.Registry

open Endpoint

variable {r : Registry} {query : Endpoint} {category interface : String}
  {cached update updates endpoints : List Endpoint} {log : List (List Endpoint)}

/-- The members of an interface. -/
def ofInterface (interface : String) (endpoints : List Endpoint) : List Endpoint :=
  (members endpoints).filter (·.interface = interface)

/-- Sentinels decide too. -/
def decides (interface : String) (endpoints : List Endpoint) : Bool :=
  endpoints.any fun e => e.interface = interface ∨ e.interface = anyValue

/-- The share of the latest updates that decide on an interface. -/
def latest (query : Endpoint) (category interface : String) (log : List (List Endpoint)) : List Endpoint :=
  ((log.map fun updates => share query updates category).find? (decides interface)).getD []

section Merge

theorem decides_of_mem {e : Endpoint} (member : e ∈ endpoints) : decides e.interface endpoints = true :=
  List.any_eq_true.2 ⟨e, member, by simp⟩

theorem filter_members (wanted : Endpoint → Bool) (endpoints : List Endpoint) :
    (members endpoints).filter wanted = members (endpoints.filter wanted) := by
  simp only [members, List.filter_filter, Bool.and_comm]

theorem kept_eq_filter (cached update : List Endpoint) :
    kept cached update = cached.filter fun e => !decides e.interface update := by
  unfold kept
  dsimp only
  split
  · next every =>
      obtain ⟨u, member, any⟩ := List.mem_map.1 every
      refine (List.filter_eq_nil_iff.2 fun e _ => ?_).symm
      have decided : decides e.interface update = true := List.any_eq_true.2 ⟨u, member, by simp [any]⟩
      simp [decided]
  · next some_only =>
      refine List.filter_congr fun e _ => congrArg (!·) ?_
      simp only [List.mem_map, not_exists, not_and] at some_only
      rw [Bool.eq_iff_iff]
      simp only [List.contains_eq_mem, List.mem_map, decide_eq_true_eq, decides, List.any_eq_true]
      exact exists_congr fun u => and_congr_right fun member => (or_iff_left (some_only u member)).symm

theorem ofInterface_append (interface : String) (endpoints more : List Endpoint) :
    ofInterface interface (endpoints ++ more) = ofInterface interface endpoints ++ ofInterface interface more := by
  simp [ofInterface, members]

theorem ofInterface_eq_nil (undecided : decides interface endpoints = false) :
    ofInterface interface endpoints = [] := by
  refine List.filter_eq_nil_iff.2 fun e member same => ?_
  have decided := decides_of_mem (mem_members_iff.1 member).1
  rw [of_decide_eq_true same, undecided] at decided
  cases decided

theorem ofInterface_kept (cached update : List Endpoint) (interface : String) :
    ofInterface interface (kept cached update) =
      if decides interface update = true then [] else ofInterface interface cached := by
  rw [kept_eq_filter, ofInterface, ofInterface, ← filter_members, List.filter_filter]
  split
  · next decided =>
      refine List.filter_eq_nil_iff.2 fun e _ wanted => ?_
      simp only [Bool.and_eq_true, decide_eq_true_eq, Bool.not_eq_true'] at wanted
      obtain ⟨same, undecided⟩ := wanted
      rw [same, decided] at undecided
      cases undecided
  · next undecided =>
      refine List.filter_congr fun e _ => ?_
      by_cases same : e.interface = interface
      · simp [same, undecided]
      · simp [same]

/-- An update replaces the members of the interfaces that it decides on. -/
theorem ofInterface_merge (cached update : List Endpoint) (interface : String) :
    ofInterface interface (merge cached update) =
      if decides interface update = true then ofInterface interface update
      else ofInterface interface cached := by
  have same : ofInterface interface (merge cached update) =
      ofInterface interface (kept cached update) ++ ofInterface interface update := by
    rw [← ofInterface_append, ofInterface, merge, members_withoutIdleSentinels]
    rfl
  rw [same, ofInterface_kept]
  split
  · rfl
  · next undecided => rw [ofInterface_eq_nil (Bool.eq_false_iff.2 undecided), List.append_nil]

theorem merge_merge (cached update : List Endpoint) :
    merge (merge cached update) update = merge cached update := by
  have own : update.filter (fun e => !decides e.interface update) = [] :=
    List.filter_eq_nil_iff.2 fun e member => by simp [decides_of_mem member]
  have again : (kept cached update).filter (fun e => !decides e.interface update) = kept cached update := by
    rw [kept_eq_filter, List.filter_filter]
    simp
  -- Both merges come to the same members, so sentinels stay in both or in neither.
  by_cases idle : (members (kept cached update ++ update)).isEmpty = true
  · have whole : merge cached update = kept cached update ++ update := if_pos idle
    have left : kept (kept cached update ++ update) update = kept cached update := by
      rw [kept_eq_filter, List.filter_append, own, again, List.append_nil]
    rw [whole, merge, left]
    exact whole
  · have whole : merge cached update = members (kept cached update ++ update) := if_neg idle
    have left : kept (members (kept cached update ++ update)) update = members (kept cached update) := by
      rw [kept_eq_filter, filter_members, List.filter_append, own, again, List.append_nil]
    have same : members (members (kept cached update) ++ update) = members (kept cached update ++ update) := by
      simp [members]
    rw [whole, merge, left, withoutIdleSentinels, same, if_neg idle]

/-- A second notification of the same updates changes nothing. -/
theorem notify_notify (r : Registry) (updates : List Endpoint) :
    ((r.notify updates).1.notify updates).1 = (r.notify updates).1 := by
  have lists : ∀ query, ((r.notify updates).1.notify updates).1.notified.get? query =
      (r.notify updates).1.notified.get? query := by
    intro query
    rw [get?_notified_notify (r.notify updates).1]
    split
    · next both =>
        obtain ⟨subscribed, asked⟩ := both
        have cached : (r.notify updates).1.notified.get? query =
            some (overlay (r.cacheOf query) (r.freshLists query updates)) := by
          rw [get?_notified_notify, if_pos ⟨subscribed, asked⟩]
        have known : query ∈ r.queries := subscribed
        rw [cached, ← cacheOf_notify subscribed, ← cacheOf_notify known]
        refine congrArg some (SortedMap.ext fun category => ?_)
        rw [get?_cacheOf_notify subscribed]
        split
        · rfl
        · next filled =>
            have before := get?_cacheOf_notify known updates category
            rw [if_neg filled] at before
            rw [listOf, before, Option.getD_some, merge_merge]
    · rfl
  show { r with notified := ((r.notify updates).1.notify updates).1.notified } =
    { r with notified := (r.notify updates).1.notified }
  rw [SortedMap.ext lists]

end Merge

section Histories

/-- The updates that have been notified, the latest first. -/
def Request.note (log : List (List Endpoint)) : Request → List (List Endpoint)
  | .notify updates => updates :: log
  | _ => log

/-- A query has been subscribed without a break, through whatever requests, and these updates have been
notified meanwhile. -/
inductive Attending (query : Endpoint) : List (List Endpoint) → Registry → Prop where
  | begun {r : Registry} (reached : Reached r) (new : query ∉ r.queries) (request : Request)
      (now : query ∈ (r.perform request).1.queries) : Attending query [] (r.perform request).1
  | step {log : List (List Endpoint)} {r : Registry} (before : Attending query log r) (request : Request)
      (still : query ∈ (r.perform request).1.queries) :
      Attending query (request.note log) (r.perform request).1

theorem Attending.subscribed (attending : Attending query log r) : query ∈ r.queries := by
  cases attending with
  | begun _ _ _ now => exact now
  | step _ _ still => exact still

theorem latest_cons (query : Endpoint) (category interface : String) (updates : List Endpoint)
    (log : List (List Endpoint)) :
    latest query category interface (updates :: log) =
      if decides interface (share query updates category) = true then share query updates category
      else latest query category interface log := by
  unfold latest
  rw [List.map_cons, List.find?_cons]
  cases decides interface (share query updates category) <;> rfl

theorem ofInterface_notify (subscribed : query ∈ r.queries) (updates : List Endpoint)
    (category interface : String) :
    ofInterface interface ((r.notify updates).1.listOf query category) =
      if decides interface (share query updates category) = true then
        ofInterface interface (share query updates category)
      else ofInterface interface (r.listOf query category) := by
  rw [listOf, get?_cacheOf_notify subscribed]
  split
  · next none_mine => rw [none_mine]; rfl
  · exact ofInterface_merge _ _ interface

/-- With its first listener nothing is cached for a query. -/
theorem cacheOf_begun (orderly : Orderly r) (new : query ∉ r.queries) {request : Request}
    (now : query ∈ (r.perform request).1.queries) : (r.perform request).1.cacheOf query = .empty := by
  have before : r.cacheOf query = .empty := by
    rw [cacheOf]
    cases found : r.notified.get? query with
    | none => rfl
    | some lists => exact absurd (orderly.cached query lists found) new
  rcases r.perform_cases now with ⟨updates, rfl⟩ | ⟨_, same⟩
  · exact (cacheOf_notify_of_not_mem new updates).trans before
  · exact same.trans before

theorem Request.note_of_silent {request : Request} (silent : ∀ updates, request ≠ .notify updates) :
    request.note log = log := by
  cases request with
  | notify updates => exact absurd rfl (silent updates)
  | _ => rfl

theorem Attending.ofInterface_eq (attending : Attending query log r) (category interface : String) :
    ofInterface interface (r.listOf query category) =
      ofInterface interface (latest query category interface log) := by
  induction attending with
  | begun reached new request now =>
      rw [listOf, cacheOf_begun reached.orderly new now]
      rfl
  | @step log r before request still ih =>
      rcases r.perform_cases still with ⟨updates, rfl⟩ | ⟨silent, same⟩
      · show ofInterface interface ((r.notify updates).1.listOf query category) = _
        rw [Request.note, latest_cons, ofInterface_notify before.subscribed, ih]
        split <;> rfl
      · rw [Request.note_of_silent silent, ← ih, listOf, same]
        rfl

/-- What a query, of all interfaces or of one, has cached of a category and an interface are the members of
the interface in the latest share of the category that speaks of this interface or of all, in the same order.
To notify again changes nothing for any query. -/
theorem Attending.follows_latest (attending : Attending query log r) (category interface : String) :
    ofInterface interface (r.listOf query category) =
      ofInterface interface (((log.map fun updates => share query updates category).find? fun share =>
        share.any fun e => e.interface = interface ∨ e.interface = anyValue).getD []) ∧
    ∀ updates, ((r.notify updates).1.notify updates).1 = (r.notify updates).1 :=
  ⟨attending.ofInterface_eq category interface, r.notify_notify⟩

/-- An endpoint of another interface. -/
def otherOffer : Endpoint := { offer with path := "j" }

/-- The first interface is emptied after the other has come. -/
def turns : List (List Endpoint) := [[sentinel offer "providers"], [otherOffer], [offer]]

def turned : Registry :=
  after {} [.subscribe everywhere 0, .notify [offer], .notify [otherOffer], .notify [sentinel offer "providers"]]

theorem turned_follows : Attending everywhere turns turned ∧
    ofInterface "i" (turned.listOf everywhere "providers") = [] ∧
    ofInterface "j" (turned.listOf everywhere "providers") = [otherOffer] ∧
    (turned.notify [sentinel offer "providers"]).1 = turned := by
  have begun : Attending everywhere [] (after {} [.subscribe everywhere 0]) :=
    .begun (.fresh 5000) (by decide +kernel) (.subscribe everywhere 0) (by decide +kernel)
  have filled := (begun.step (.notify [offer]) (by decide +kernel)).step (.notify [otherOffer])
    (by decide +kernel)
  have emptied : Attending everywhere turns turned :=
    filled.step (.notify [sentinel offer "providers"]) (by decide +kernel)
  refine ⟨emptied, ?_, ?_, (filled.follows_latest "providers" "i").2 [sentinel offer "providers"]⟩
  · rw [(emptied.follows_latest "providers" "i").1]
    decide +kernel
  · rw [(emptied.follows_latest "providers" "j").1]
    decide +kernel

end Histories

end ServiceGovernance.Registry
