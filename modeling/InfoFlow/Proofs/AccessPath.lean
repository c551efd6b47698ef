import InfoFlow.Proofs.Collection
import InfoFlow.Proofs.Garbage

/-!
# Access paths

A program reads a slot or a static field, then a field or the elements of what it finds there, and so on.

* `Heap.select`: the values read by one selector from all addresses among some values;
* `Heap.follow`, `Snapshot.readings`: the values read at each step of a path;
* `Snapshot.mem_live_iff`: the live addresses are those that some path reads;
* `SameLive.select_eq`, `SameLive.readings_eq`: one step and a whole path read the same in snapshots with the same live
  part;
* `collection_preserves_access_paths`: no path can tell whether garbage was collected, and every cell that still
  has values is one that a path can come to.
-/

namespace InfoFlow

open Std Relation

/-! ## reading -/

inductive Selector
  | field (f : Field)
  | array

/-- the cell that is read at an address -/
def Selector.cell (a : Address) : Selector → Cell
  | field f => .field ⟨a, f⟩
  | array => .array a

theorem Selector.holder_cell (a : Address) (x : Selector) : (x.cell a).holder = a := by
  cases x with
  | field f => rfl
  | array => rfl

theorem Cell.exists_selector (c : Cell) : ∃ x : Selector, x.cell c.holder = c := by
  cases c with
  | field k => exact ⟨.field k.field, rfl⟩
  | array a => exact ⟨.array, rfl⟩

namespace Heap

def select (h : Heap) (vs : ValueSet) (x : Selector) : ValueSet :=
  vs.addresses.foldr (fun a ws => h.get (x.cell a) ∪ ws) ∅

theorem mem_select {h : Heap} {vs : ValueSet} {x : Selector} {v : Value} :
    v ∈ h.select vs x ↔ ∃ a, Value.address a ∈ vs ∧ v ∈ h.get (x.cell a) := by
  have key : ∀ as : List Address, v ∈ as.foldr (fun a ws => h.get (x.cell a) ∪ ws) ∅ ↔
      ∃ a ∈ as, v ∈ h.get (x.cell a) := by
    intro as
    induction as with
    | nil => simp
    | cons a as ih => rw [List.foldr_cons, ValueSet.mem_union, ih, List.exists_mem_cons_iff]
  rw [select, key]
  simp only [ValueSet.mem_addresses]

theorem select_congr {h k : Heap} {vs : ValueSet} {x : Selector}
    (hcells : ∀ a, Value.address a ∈ vs → h.get (x.cell a) = k.get (x.cell a)) : h.select vs x = k.select vs x := by
  ext v
  rw [mem_select, mem_select]
  refine exists_congr fun a => and_congr_right fun ha => ?_
  rw [hcells a ha]

/-- the values read along a path, those at its start first -/
def follow (h : Heap) (vs : ValueSet) : List Selector → List ValueSet
  | [] => [vs]
  | x :: xs => vs :: h.follow (h.select vs x) xs

/-- wherever pointers lead, a path leads -/
theorem exists_follow {h : Heap} {a b : Address} (hab : ReflTransGen h.Points a b) :
    ∀ vs : ValueSet, Value.address a ∈ vs → ∃ path, ∃ ws ∈ h.follow vs path, Value.address b ∈ ws := by
  induction hab using ReflTransGen.head_induction_on with
  | refl =>
    intro vs hb
    exact ⟨[], vs, List.mem_singleton.2 rfl, hb⟩
  | @head a c hac _ ih =>
    intro vs ha
    obtain ⟨cell, rfl, hc⟩ := hac
    obtain ⟨x, hx⟩ := cell.exists_selector
    have hsel : Value.address c ∈ h.select vs x := mem_select.2 ⟨_, ha, by rw [hx]; exact hc⟩
    obtain ⟨path, ws, hws, hb⟩ := ih _ hsel
    exact ⟨x :: path, ws, List.mem_cons_of_mem _ hws, hb⟩

end Heap

/-! ## paths and live addresses -/

namespace Snapshot

variable {s : Snapshot}

/-- the values read along a path from a location -/
def readings (s : Snapshot) (start : Location) (path : List Selector) : List ValueSet :=
  s.heap.follow (s.get start) path

/-- some path from a slot or a static field reads the address -/
def Finds (s : Snapshot) (a : Address) : Prop :=
  ∃ start : Location, start.holder? = none ∧ ∃ path, ∃ vs ∈ s.readings start path, Value.address a ∈ vs

theorem mem_live_of_start {start : Location} (hstart : start.holder? = none) :
    ∀ a, Value.address a ∈ s.get start → a ∈ s.live :=
  fun _ => mem_live_of_get (Location.within_of_outside hstart)

theorem mem_live_of_select {vs : ValueSet} (hvs : ∀ a, Value.address a ∈ vs → a ∈ s.live) (x : Selector) :
    ∀ b, Value.address b ∈ s.heap.select vs x → b ∈ s.live := by
  intro b hb
  obtain ⟨a, ha, hb⟩ := Heap.mem_select.1 hb
  exact Heap.mem_reachable_of_points (hvs a ha) ⟨x.cell a, x.holder_cell a, hb⟩

theorem mem_live_of_follow {vs : ValueSet} (hvs : ∀ a, Value.address a ∈ vs → a ∈ s.live) {path : List Selector} :
    ∀ ws ∈ s.heap.follow vs path, ∀ a, Value.address a ∈ ws → a ∈ s.live := by
  induction path generalizing vs with
  | nil =>
    intro ws hws
    rwa [List.mem_singleton.1 hws]
  | cons x xs ih =>
    intro ws hws
    rcases List.mem_cons.1 hws with rfl | hws
    · exact hvs
    · exact ih (mem_live_of_select hvs x) ws hws

theorem mem_live_iff {a : Address} : a ∈ s.live ↔ s.Finds a := by
  constructor
  · intro ha
    obtain ⟨r, hr, hra⟩ := Heap.mem_reachable.1 ha
    obtain ⟨start, hstart, hr⟩ := mem_roots_iff.1 hr
    exact ⟨start, hstart, Heap.exists_follow hra _ hr⟩
  · rintro ⟨start, hstart, path, vs, hvs, ha⟩
    exact mem_live_of_follow (mem_live_of_start hstart) vs hvs a ha

theorem gc_gc (s : Snapshot) : s.gc.gc = s.gc :=
  Snapshot.ext rfl (Heap.gc_gc fun _ => Heap.mem_reachable_of_root) rfl

end Snapshot

/-! ## snapshots with the same live part -/

namespace SameLive

variable {s t : Snapshot}

theorem select_eq (h : SameLive s t) {vs : ValueSet} (hvs : ∀ a, Value.address a ∈ vs → a ∈ s.live)
    (x : Selector) : s.heap.select vs x = t.heap.select vs x := by
  apply Heap.select_congr
  intro a ha
  have hlive : (x.cell a).holder ∈ s.live := by
    rw [x.holder_cell]
    exact hvs a ha
  rw [← Snapshot.get_location, ← Snapshot.get_location]
  exact h (x.cell a).location (Location.within_of_mem (x.cell a).holder?_location hlive)

theorem follow_eq (h : SameLive s t) {vs : ValueSet} (hvs : ∀ a, Value.address a ∈ vs → a ∈ s.live)
    (path : List Selector) : s.heap.follow vs path = t.heap.follow vs path := by
  induction path generalizing vs with
  | nil => rfl
  | cons x xs ih =>
    show vs :: s.heap.follow (s.heap.select vs x) xs = vs :: t.heap.follow (t.heap.select vs x) xs
    rw [← h.select_eq hvs, ih (Snapshot.mem_live_of_select hvs x)]

theorem readings_eq (h : SameLive s t) {start : Location} (hstart : start.holder? = none) (path : List Selector) :
    s.readings start path = t.readings start path := by
  show s.heap.follow (s.get start) path = t.heap.follow (t.get start) path
  rw [← h start (Location.within_of_outside hstart)]
  exact h.follow_eq (Snapshot.mem_live_of_start hstart) path

end SameLive

/-- **No access path sees a collection.**  Every path of whatever length that starts in a slot or in a static field
reads the same values at each of its steps.  All that a collection keeps is at addresses that some path finds. -/
theorem collection_preserves_access_paths (s : Snapshot) :
    (∀ start : Location, start.holder? = none → ∀ path, s.gc.readings start path = s.readings start path) ∧
      s.gc.frame = s.frame ∧ s.gc.statics = s.statics ∧ s.gc.roots = s.roots ∧ s.gc.gc = s.gc ∧
      ∀ c : Cell, s.gc.heap.get c ≠ ∅ → s.Finds c.holder := by
  have hsame : SameLive s s.gc := (SameLive.refl s).collect
  refine ⟨fun start hstart path => (hsame.readings_eq hstart path).symm, rfl, rfl, rfl, s.gc_gc, fun c hc => ?_⟩
  have hget : s.gc.heap.get c = if c.holder ∈ s.live then s.heap.get c else ∅ := s.heap.get_gc s.roots c
  rw [hget] at hc
  exact Snapshot.mem_live_iff.1 (ite_ne_right_iff.1 hc).1

/-! ## a path through a ring -/

namespace Sample

/-- a static field holds the first box of the ring -/
def held : Snapshot := ⟨∅, ring, holding [1]⟩

/-- from the first box to the second, to an element of its array, and to what is hidden there -/
def hiddenPath : List Selector := [.field shared, .array, .field hidden]

theorem readings_held : held.readings (.static shared) hiddenPath =
    [.singleton (.address (box 1)), .singleton (.address (box 2)), .ofList [.address (box 1), .address (box 3)],
      .singleton (.atom (.taint "t"))] := by
  have hstart : held.get (.static shared) = .singleton (.address (box 1)) := get_holding [1] shared
  have hfirst : ring.select (.singleton (.address (box 1))) (.field shared) = .singleton (.address (box 2)) := by
    ext v
    simp [Heap.mem_select, mem_ring, Selector.cell, box_inj]
  have hsecond : ring.select (.singleton (.address (box 2))) .array =
      .ofList [.address (box 1), .address (box 3)] := by
    ext v
    simp [Heap.mem_select, mem_ring, Selector.cell]
  have hthird : ring.select (.ofList [.address (box 1), .address (box 3)]) (.field hidden) =
      .singleton (.atom (.taint "t")) := by
    have hne : hidden ≠ shared := by decide
    ext v
    simp [Heap.mem_select, mem_ring, Selector.cell, box_inj, hne]
  show ring.follow (held.get (.static shared)) [.field shared, .array, .field hidden] = _
  rw [hstart, Heap.follow, hfirst, Heap.follow, hsecond, Heap.follow, hthird, Heap.follow]

theorem mem_roots_holding {is : List Nat} {a : Address} : a ∈ (holding is).roots ↔ a ∈ boxes is := by
  rw [Statics.roots, Store.mem_addresses, mem_boxes]
  constructor
  · rintro ⟨f, ha⟩
    rw [get_holding] at ha
    split at ha
    · obtain ⟨i, hi, he⟩ := List.mem_map.1 (ValueSet.mem_ofList.1 ha)
      exact ⟨i, hi, Value.address.inj he⟩
    · exact absurd ha (ValueSet.not_mem_empty _)
  · rintro ⟨i, hi, rfl⟩
    refine ⟨shared, ?_⟩
    rw [get_holding, if_pos rfl, ValueSet.mem_ofList]
    exact List.mem_map_of_mem hi

theorem roots_held : held.roots = boxes [1] := by
  apply ExtTreeSet.ext_mem
  intro a
  have hframe : ¬ ∃ p, Value.address a ∈ (∅ : Frame).get p := by
    rintro ⟨p, hp⟩
    rw [Frame.readBy_get.empty] at hp
    exact ValueSet.not_mem_empty _ hp
  show a ∈ (∅ : Frame).roots ∪ (holding [1]).roots ↔ _
  rw [ExtTreeSet.mem_union_iff, Frame.mem_roots, or_iff_right hframe, mem_roots_holding]

/-- the fourth box holds the first one only until garbage is collected -/
theorem gc_held_ne : held.gc ≠ held := by
  intro h
  have hgc : held.gc.heap.get (.field ⟨box 4, shared⟩) = ∅ := by
    refine (ring.get_gc held.roots _).trans (if_neg ?_)
    rw [roots_held]
    exact fourth_not_mem_reachable
  have hmem : Value.address (box 1) ∈ held.heap.get (.field ⟨box 4, shared⟩) := mem_ring.2 (by simp)
  rw [← h, hgc] at hmem
  exact ValueSet.not_mem_empty _ hmem

theorem taint_mem_ring : Value.atom (.taint "t") ∈ ring.get (.field ⟨box 3, hidden⟩) := mem_ring.2 (by simp)

theorem third_kept : held.gc.heap.get (.field ⟨box 3, hidden⟩) ≠ ∅ := by
  have hgc : held.gc.heap.get (.field ⟨box 3, hidden⟩) = ring.get (.field ⟨box 3, hidden⟩) := by
    refine (ring.get_gc held.roots _).trans (if_pos ?_)
    rw [roots_held]
    exact box_mem_reachable 3 (by simp)
  intro h
  have hmem := taint_mem_ring
  rw [← hgc, h] at hmem
  exact ValueSet.not_mem_empty _ hmem

end Sample

open Sample in
theorem collection_preserves_access_paths_ring :
    held.gc ≠ held ∧ (Location.static shared).holder? = none ∧
      held.gc.readings (.static shared) hiddenPath =
        [.singleton (.address (box 1)), .singleton (.address (box 2)), .ofList [.address (box 1), .address (box 3)],
          .singleton (.atom (.taint "t"))] ∧
      held.gc.heap.get (.field ⟨box 3, Sample.hidden⟩) ≠ ∅ ∧ held.Finds (box 3) := by
  obtain ⟨hpaths, _, _, _, _, hfinds⟩ := collection_preserves_access_paths held
  exact ⟨gc_held_ne, rfl, (hpaths _ rfl _).trans readings_held, third_kept, hfinds _ third_kept⟩

end InfoFlow
