import Mathlib.Data.List.Chain
import Mathlib.Data.List.Dedup
import Mathlib.Data.List.Perm.Subperm
import InfoFlow.Proofs.Reachability

/-!
# Searching in any order

A search has seen some addresses, and some of these are still waiting for a visit.  A visit takes any address that
is waiting, and all that it points to and that is new is seen and waits from then on.

* `Search.Step`, `Search.Run`: one visit, and a number of visits from the roots on;
* `Search.Sound`: what every visit keeps (`Search.Sound.step`, `Search.Run.sound`), and what it comes to when nothing
  is waiting any more (`Search.Sound.seen_eq`);
* `reachable_is_exact_closure`: chains of pointers, the least closed set and a search in any order all give the
  reachable addresses, and a search ends after one visit to each of them.
-/

namespace InfoFlow

open Std

/-! ## sizes of sets of addresses -/

theorem AddressSet.nodup_toList (s : AddressSet) : s.toList.Nodup := by
  refine ExtTreeSet.distinct_toList.imp fun {a b} hne e => hne ?_
  rw [e, compare_self]

theorem AddressSet.size_le {s t : AddressSet} (h : ∀ a ∈ s, a ∈ t) : s.size ≤ t.size := by
  have hsub : s.toList ⊆ t.toList := fun a ha => ExtTreeSet.mem_toList.2 (h a (ExtTreeSet.mem_toList.1 ha))
  have hlen : s.toList.length ≤ t.toList.length := ((AddressSet.nodup_toList s).subperm hsub).length_le
  rwa [ExtTreeSet.length_toList, ExtTreeSet.length_toList] at hlen

theorem AddressSet.size_insertMany {s : AddressSet} {new : List Address} (hn : new.Nodup)
    (hnew : ∀ b ∈ new, b ∉ s) : (s.insertMany new).size = s.size + new.length := by
  apply ExtTreeSet.size_insertMany_list
  · exact hn.imp fun hne he => hne (Std.compare_eq_iff_eq.1 he)
  · intro a ha
    rw [List.contains_eq_mem, decide_eq_false_iff_not]
    exact fun hb => hnew a hb ha

/-! ## visits -/

theorem Heap.mem_successors {h : Heap} {a b : Address} : b ∈ (h.successors[a]?).getD [] ↔ h.Points a b := by
  rw [← leads_successors, Leads]
  cases h.successors[a]? with
  | none => simp
  | some next => simp

structure Search where
  waiting : List Address
  seen : AddressSet

namespace Search

/-- a visit to any address that is waiting -/
inductive Step (h : Heap) : Search → Search → Prop
  | visit {s : Search} {a : Address} {rest new : List Address} (ha : s.waiting.Perm (a :: rest)) (hn : new.Nodup)
      (hnew : ∀ b, b ∈ new ↔ h.Points a b ∧ b ∉ s.seen) : Step h s ⟨new ++ rest, s.seen.insertMany new⟩

/-- `n` visits, from the roots on -/
inductive Run (h : Heap) (roots : AddressSet) : Nat → Search → Prop
  | start : Run h roots 0 ⟨roots.toList, roots⟩
  | visit {n : Nat} {s t : Search} (hr : Run h roots n s) (hs : Step h s t) : Run h roots (n + 1) t

/-- a search can go on for as long as an address is waiting -/
theorem exists_step (h : Heap) {s : Search} (hs : s.waiting ≠ []) : ∃ t, Step h s t := by
  obtain ⟨a, rest, ha⟩ := List.exists_cons_of_ne_nil hs
  have hnew : ∀ b, b ∈ (((h.successors[a]?).getD []).filter (· ∉ s.seen)).dedup ↔ h.Points a b ∧ b ∉ s.seen := by
    intro b
    rw [List.mem_dedup, List.mem_filter, Heap.mem_successors, decide_eq_true_eq]
  exact ⟨_, .visit (.of_eq ha) (List.nodup_dedup _) hnew⟩

/-! ## what a visit keeps -/

/-- after `n` visits: only reachable addresses are seen, the pointers of a seen address lead to seen addresses unless
    it is waiting, and each visit took one address from those that wait -/
structure Sound (h : Heap) (roots : AddressSet) (n : Nat) (s : Search) : Prop where
  root_seen : ∀ a ∈ roots, a ∈ s.seen
  seen_reachable : ∀ a ∈ s.seen, a ∈ h.reachable roots
  waiting_seen : ∀ a ∈ s.waiting, a ∈ s.seen
  visited : ∀ a ∈ s.seen, a ∉ s.waiting → ∀ b, h.Points a b → b ∈ s.seen
  count : n + s.waiting.length = s.seen.size

variable {h : Heap} {roots : AddressSet} {n : Nat} {s t : Search}

theorem sound_start (h : Heap) (roots : AddressSet) : Sound h roots 0 ⟨roots.toList, roots⟩ where
  root_seen _ := id
  seen_reachable _ := Heap.mem_reachable_of_root
  waiting_seen _ := ExtTreeSet.mem_toList.1
  visited _ ha hw := absurd (ExtTreeSet.mem_toList.2 ha) hw
  count := by
    show 0 + roots.toList.length = roots.size
    rw [ExtTreeSet.length_toList, Nat.zero_add]

theorem Sound.step (hs : Sound h roots n s) (ht : Step h s t) : Sound h roots (n + 1) t := by
  obtain @⟨a, rest, new, ha, hn, hnew⟩ := ht
  have hwait : ∀ b, b ∈ s.waiting ↔ b = a ∨ b ∈ rest := fun b => ha.mem_iff.trans List.mem_cons
  have haseen : a ∈ s.seen := hs.waiting_seen a ((hwait a).2 (.inl rfl))
  constructor
  case root_seen =>
    intro b hb
    exact AddressSet.mem_insertMany.2 (.inl (hs.root_seen b hb))
  case seen_reachable =>
    intro b hb
    rcases AddressSet.mem_insertMany.1 hb with hb | hb
    · exact hs.seen_reachable b hb
    · exact Heap.mem_reachable_of_points (hs.seen_reachable a haseen) ((hnew b).1 hb).1
  case waiting_seen =>
    intro b hb
    rcases List.mem_append.1 hb with hb | hb
    · exact AddressSet.mem_insertMany.2 (.inr hb)
    · exact AddressSet.mem_insertMany.2 (.inl (hs.waiting_seen b ((hwait b).2 (.inr hb))))
  case visited =>
    intro b hb hw c hbc
    have hbnew : b ∉ new := fun hb => hw (List.mem_append_left _ hb)
    have hbseen : b ∈ s.seen := (AddressSet.mem_insertMany.1 hb).resolve_right hbnew
    by_cases hcseen : c ∈ s.seen
    · exact AddressSet.mem_insertMany.2 (.inl hcseen)
    · -- only the address that was visited can lead to anything new
      have hba : b = a := by
        by_contra hba
        have hbwait : b ∉ s.waiting := fun hb =>
          hw (List.mem_append_right _ (((hwait b).1 hb).resolve_left hba))
        exact hcseen (hs.visited b hbseen hbwait c hbc)
      subst hba
      exact AddressSet.mem_insertMany.2 (.inr ((hnew c).2 ⟨hbc, hcseen⟩))
  case count =>
    have hcount := hs.count
    have hlen : s.waiting.length = rest.length + 1 := ha.length_eq
    have hsize : (s.seen.insertMany new).size = s.seen.size + new.length :=
      AddressSet.size_insertMany hn fun b hb => ((hnew b).1 hb).2
    show n + 1 + (new ++ rest).length = (s.seen.insertMany new).size
    rw [hsize, List.length_append]
    omega

theorem Run.sound (hr : Run h roots n s) : Sound h roots n s := by
  induction hr with
  | start => exact sound_start h roots
  | visit _ hs ih => exact ih.step hs

theorem Sound.visits_le (hs : Sound h roots n s) : n ≤ (h.reachable roots).size := by
  have hsize : s.seen.size ≤ (h.reachable roots).size := AddressSet.size_le hs.seen_reachable
  have hcount := hs.count
  omega

/-- when nothing is waiting, the seen addresses are closed under pointers -/
theorem Sound.seen_eq (hs : Sound h roots n s) (hw : s.waiting = []) : s.seen = h.reachable roots := by
  have hclosed : ∀ a b, a ∈ s.seen → h.Points a b → b ∈ s.seen := by
    intro a b ha hab
    exact hs.visited a ha (by rw [hw]; exact List.not_mem_nil) b hab
  apply ExtTreeSet.ext_mem
  intro a
  exact ⟨hs.seen_reachable a, Heap.reachable_induction hs.root_seen hclosed a⟩

theorem Sound.visits_eq (hs : Sound h roots n s) (hw : s.waiting = []) : n = (h.reachable roots).size := by
  have hcount := hs.count
  rw [hw, hs.seen_eq hw, List.length_nil] at hcount
  omega

end Search

/-! ## chains -/

theorem Heap.mem_reachable_iff_chain {h : Heap} {roots : AddressSet} {x : Address} :
    x ∈ h.reachable roots ↔
      ∃ chain : List Address, (∃ a ∈ roots, chain.head? = some a) ∧ chain.IsChain h.Points ∧
        chain.getLast? = some x := by
  rw [Heap.mem_reachable]
  constructor
  · rintro ⟨a, ha, hax⟩
    obtain ⟨rest, hchain, hlast⟩ := List.exists_isChain_cons_of_relationReflTransGen hax
    refine ⟨a :: rest, ⟨a, ha, rfl⟩, hchain, ?_⟩
    rw [List.getLast?_eq_some_getLast (List.cons_ne_nil a rest), hlast]
  · rintro ⟨chain, ⟨a, ha, hhead⟩, hchain, hlast⟩
    obtain ⟨rest, rfl⟩ := List.head?_eq_some_iff.1 hhead
    refine ⟨a, ha, List.relationReflTransGen_of_exists_isChain_cons rest hchain ?_⟩
    rw [List.getLast?_eq_some_getLast (List.cons_ne_nil a rest)] at hlast
    exact Option.some.inj hlast

/-- the members of `closed` are the ends of the chains of `points` from `roots`, and `closed` is the least set that has
    the roots and all that its members point to -/
structure IsClosure (points : Address → Address → Prop) (roots closed : AddressSet) : Prop where
  mem_iff : ∀ x, x ∈ closed ↔
    ∃ chain : List Address, (∃ a ∈ roots, chain.head? = some a) ∧ chain.IsChain points ∧ chain.getLast? = some x
  root_mem : ∀ a ∈ roots, a ∈ closed
  points_mem : ∀ a b, a ∈ closed → points a b → b ∈ closed
  least : ∀ p : Address → Prop, (∀ a ∈ roots, p a) → (∀ a b, p a → points a b → p b) → ∀ a ∈ closed, p a

theorem Heap.isClosure_reachable (h : Heap) (roots : AddressSet) :
    IsClosure h.Points roots (h.reachable roots) where
  mem_iff _ := mem_reachable_iff_chain
  root_mem _ := mem_reachable_of_root
  points_mem _ _ := mem_reachable_of_points
  least _ := reachable_induction

/-- **The reachable addresses are the closure of the roots under pointers.**  A search in whatever order can go on
until it has seen them all, and by then it has visited each of them once. -/
theorem reachable_is_exact_closure (h : Heap) (roots : AddressSet) :
    IsClosure h.Points roots (h.reachable roots) ∧
      h.reachable (h.reachable roots) = h.reachable roots ∧
      ∀ n s, Search.Run h roots n s →
        n ≤ (h.reachable roots).size ∧ (s.waiting ≠ [] → ∃ t, Search.Step h s t) ∧
          (s.waiting = [] → s.seen = h.reachable roots ∧ n = (h.reachable roots).size) :=
  ⟨h.isClosure_reachable roots, h.reachable_reachable roots, fun _ _ hr =>
    ⟨hr.sound.visits_le, Search.exists_step h, fun hw => ⟨hr.sound.seen_eq hw, hr.sound.visits_eq hw⟩⟩⟩

/-! ## two boxes that hold each other -/

namespace Sample

/-- the first box holds the second in a field, the second holds the first and the third in its array, and the third
    has a taint; the fourth holds the first, but nothing holds the fourth -/
def ring : Heap where
  fields := (((∅ : Store ObjectField).set ⟨box 1, shared⟩ (.singleton (.address (box 2)))).set ⟨box 3, hidden⟩
    (.singleton (.atom (.taint "t")))).set ⟨box 4, shared⟩ (.singleton (.address (box 1)))
  arrays := (∅ : Store Address).set (box 2) (.ofList [.address (box 1), .address (box 3)])

theorem box_inj {i j : Nat} : box i = box j ↔ i = j := by
  constructor
  · intro h
    exact congrArg (fun a => a.site.id) h
  · exact fun h => h ▸ rfl

theorem mem_ring {c : Cell} {v : Value} : v ∈ ring.get c ↔
    (c, v) ∈ [(Cell.field ⟨box 1, shared⟩, Value.address (box 2)), (.field ⟨box 3, hidden⟩, .atom (.taint "t")),
      (.field ⟨box 4, shared⟩, .address (box 1)), (.array (box 2), .address (box 1)),
      (.array (box 2), .address (box 3))] := by
  cases c with
  | field k =>
    have hget : ring.get (.field k) = if ⟨box 4, shared⟩ = k then .singleton (.address (box 1))
        else if ⟨box 3, hidden⟩ = k then .singleton (.atom (.taint "t"))
        else if ⟨box 1, shared⟩ = k then .singleton (.address (box 2)) else ∅ := by
      show SparseMap.get (SparseMap.set _ _ _) k = _
      rw [SparseMap.get_set, SparseMap.get_set, SparseMap.get_set, SparseMap.get_empty]
    rw [hget]
    split
    · next h => subst h; simp [box_inj]
    · split
      · next h => subst h; simp [box_inj]
      · split
        · next h => subst h; simp [box_inj]
        · next h₄ h₃ h₁ => simp [Ne.symm h₄, Ne.symm h₃, Ne.symm h₁]
  | array a =>
    have hget : ring.get (.array a) = if box 2 = a then .ofList [.address (box 1), .address (box 3)] else ∅ := by
      show SparseMap.get (SparseMap.set _ _ _) a = _
      rw [SparseMap.get_set, SparseMap.get_empty]
    rw [hget]
    split
    · next h => subst h; simp
    · next h => simp [Ne.symm h]

theorem points_ring {a b : Address} : ring.Points a b ↔
    (a, b) ∈ [(box 1, box 2), (box 4, box 1), (box 2, box 1), (box 2, box 3)] := by
  constructor
  · rintro ⟨c, rfl, hb⟩
    have hc := mem_ring.1 hb
    simp only [List.mem_cons, Prod.mk.injEq, List.not_mem_nil, or_false] at hc
    rcases hc with ⟨rfl, hv⟩ | ⟨rfl, hv⟩ | ⟨rfl, hv⟩ | ⟨rfl, hv⟩ | ⟨rfl, hv⟩ <;> cases hv <;>
      simp [Cell.holder]
  · intro hab
    simp only [List.mem_cons, Prod.mk.injEq, List.not_mem_nil, or_false] at hab
    rcases hab with ⟨rfl, rfl⟩ | ⟨rfl, rfl⟩ | ⟨rfl, rfl⟩ | ⟨rfl, rfl⟩
    · exact ⟨.field ⟨box 1, shared⟩, rfl, mem_ring.2 (by simp)⟩
    · exact ⟨.field ⟨box 4, shared⟩, rfl, mem_ring.2 (by simp)⟩
    · exact ⟨.array (box 2), rfl, mem_ring.2 (by simp)⟩
    · exact ⟨.array (box 2), rfl, mem_ring.2 (by simp)⟩

/-- nothing holds the fourth box -/
theorem ne_of_points_ring {a b : Address} (hab : ring.Points a b) : b ≠ box 4 := by
  rw [points_ring] at hab
  grind [box_inj]

def boxes (is : List Nat) : AddressSet := ExtTreeSet.ofList (is.map box) compare

theorem mem_boxes {is : List Nat} {a : Address} : a ∈ boxes is ↔ ∃ i ∈ is, box i = a := by
  rw [boxes, ExtTreeSet.mem_ofList, List.contains_iff_mem, List.mem_map]

theorem ne_of_mem_boxes {a : Address} (ha : a ∈ boxes [1]) : a ≠ box 4 := by
  rw [mem_boxes] at ha
  grind [box_inj]

/-- the first, the second and the third box are visited, in this order -/
theorem run_ring : Search.Run ring (boxes [1]) 3
    ⟨[], (((boxes [1]).insertMany [box 2]).insertMany [box 3]).insertMany ([] : List Address)⟩ := by
  have h₁ : Search.Run ring (boxes [1]) 1 ⟨[box 2], (boxes [1]).insertMany [box 2]⟩ := by
    refine .visit .start (.visit (a := box 1) (List.Perm.refl _) (List.nodup_singleton _) fun b => ?_)
    rw [points_ring, mem_boxes]
    grind [box_inj]
  have h₂ : Search.Run ring (boxes [1]) 2 ⟨[box 3], ((boxes [1]).insertMany [box 2]).insertMany [box 3]⟩ := by
    refine .visit h₁ (.visit (a := box 2) (List.Perm.refl _) (List.nodup_singleton _) fun b => ?_)
    rw [points_ring, AddressSet.mem_insertMany, mem_boxes]
    grind [box_inj]
  refine .visit h₂ (.visit (a := box 3) (List.Perm.refl _) List.nodup_nil fun b => ?_)
  rw [points_ring]
  grind [box_inj]

end Sample

open Sample in
theorem reachable_is_exact_closure_ring :
    (∃ a ∈ boxes [1], [box 1, box 2, box 3].head? = some a) ∧ [box 1, box 2, box 3].IsChain ring.Points ∧
      box 3 ∈ ring.reachable (boxes [1]) ∧ box 4 ∉ ring.reachable (boxes [1]) ∧
      (ring.reachable (boxes [1])).size = 3 := by
  obtain ⟨hclosure, _, hsearch⟩ := reachable_is_exact_closure ring (boxes [1])
  have hhead : ∃ a ∈ boxes [1], [box 1, box 2, box 3].head? = some a :=
    ⟨box 1, mem_boxes.2 ⟨1, List.mem_singleton.2 rfl, rfl⟩, rfl⟩
  have hchain : [box 1, box 2, box 3].IsChain ring.Points := by
    simp [points_ring]
  have hfourth : ∀ a ∈ ring.reachable (boxes [1]), a ≠ box 4 :=
    hclosure.least (· ≠ box 4) (fun _ => ne_of_mem_boxes) fun _ _ _ => ne_of_points_ring
  exact ⟨hhead, hchain, (hclosure.mem_iff _).2 ⟨_, hhead, hchain, rfl⟩, fun h => hfourth _ h rfl,
    ((hsearch _ _ run_ring).2.2 rfl).2.symm⟩

end InfoFlow
