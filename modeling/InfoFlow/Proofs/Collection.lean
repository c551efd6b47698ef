import InfoFlow.Proofs.Reachability

/-!
# Collecting garbage during a run

A run writes locations of a snapshot and collects garbage now and then.  When every write brings in live
addresses only, it does not matter when garbage is collected.

* `Snapshot.live_induction`: the live addresses are the least set that has every address held outside the
  heap or in a cell of its own members;
* `SameLive s t`: the snapshots agree wherever frame and statics of `s` can look, so that collecting makes
  them equal (`SameLive.gc_eq`);
* `SameLive.write`, `SameLive.collect`, `SameLive.run`: one write, one collection and a whole run keep it.
-/

namespace InfoFlow

open Std

/-! ## live locations -/

/-- the address whose object or array has the location; slots and static fields have none -/
def Location.holder? : Location → Option Address
  | .slot _ => none
  | .field k => some k.address
  | .array a => some a
  | .static _ => none

theorem Cell.holder?_location (c : Cell) : c.location.holder? = some c.holder := by
  cases c with
  | field k => rfl
  | array a => rfl

/-- the location is outside the heap, or at an address of the set -/
def Location.Within (l : Location) (live : AddressSet) : Prop := ∀ a, l.holder? = some a → a ∈ live

theorem Location.within_of_outside {l : Location} {live : AddressSet} (h : l.holder? = none) : l.Within live := by
  intro a ha
  rw [h] at ha
  cases ha

theorem Location.within_of_mem {l : Location} {live : AddressSet} {a : Address} (h : l.holder? = some a)
    (ha : a ∈ live) : l.Within live := by
  intro b hb
  rw [h] at hb
  cases hb
  exact ha

namespace Snapshot

/-- the addresses that frame and statics reach -/
def live (s : Snapshot) : AddressSet := s.heap.reachable s.roots

theorem mem_roots_iff {s : Snapshot} {b : Address} :
    b ∈ s.roots ↔ ∃ l : Location, l.holder? = none ∧ Value.address b ∈ s.get l := by
  rw [roots, ExtTreeSet.mem_union_iff, Frame.mem_roots, Statics.roots, Store.mem_addresses]
  constructor
  · rintro (⟨p, hb⟩ | ⟨f, hb⟩)
    · exact ⟨.slot p, rfl, hb⟩
    · exact ⟨.static f, rfl, hb⟩
  · rintro ⟨l, hl, hb⟩
    cases l with
    | slot p => exact .inl ⟨p, hb⟩
    | field k => cases hl
    | array a => cases hl
    | static f => exact .inr ⟨f, hb⟩

theorem points_iff {s : Snapshot} {a b : Address} :
    s.heap.Points a b ↔ ∃ l : Location, l.holder? = some a ∧ Value.address b ∈ s.get l := by
  constructor
  · rintro ⟨c, rfl, hb⟩
    cases c with
    | field k => exact ⟨.field k, rfl, hb⟩
    | array a => exact ⟨.array a, rfl, hb⟩
  · rintro ⟨l, hl, hb⟩
    cases l with
    | slot p => cases hl
    | field k => exact ⟨.field k, Option.some.inj hl, hb⟩
    | array a => exact ⟨.array a, Option.some.inj hl, hb⟩
    | static f => cases hl

theorem mem_live_of_get {s : Snapshot} {l : Location} {b : Address} (hl : l.Within s.live)
    (hb : Value.address b ∈ s.get l) : b ∈ s.live := by
  cases h : l.holder? with
  | none => exact Heap.mem_reachable_of_root (mem_roots_iff.2 ⟨l, h, hb⟩)
  | some a => exact Heap.mem_reachable_of_points (hl a h) (points_iff.2 ⟨l, h, hb⟩)

theorem live_induction {s : Snapshot} {p : Address → Prop}
    (h : ∀ (l : Location) b, (∀ a, l.holder? = some a → p a) → Value.address b ∈ s.get l → p b) :
    ∀ b ∈ s.live, p b := by
  apply Heap.reachable_induction
  · intro b hb
    obtain ⟨l, hl, hb⟩ := mem_roots_iff.1 hb
    exact h l b (fun a ha => by rw [hl] at ha; cases ha) hb
  · intro a b ha hab
    obtain ⟨l, hl, hb⟩ := points_iff.1 hab
    exact h l b (fun a' ha' => by rw [hl] at ha'; cases ha'; exact ha) hb

theorem get_gc_of_within {s : Snapshot} {l : Location} (hl : l.Within s.live) : s.gc.get l = s.get l := by
  cases l with
  | slot p => rfl
  | field k => exact (Heap.get_gc s.heap s.roots (.field k)).trans (if_pos (hl _ rfl))
  | array a => exact (Heap.get_gc s.heap s.roots (.array a)).trans (if_pos (hl _ rfl))
  | static f => rfl

theorem get_gc_of_not_within {s : Snapshot} {l : Location} (hl : ¬ l.Within s.live) : s.gc.get l = ∅ := by
  cases l with
  | slot p => exact absurd (Location.within_of_outside rfl) hl
  | field k =>
    exact (Heap.get_gc s.heap s.roots (.field k)).trans (if_neg fun hk => hl (Location.within_of_mem rfl hk))
  | array a =>
    exact (Heap.get_gc s.heap s.roots (.array a)).trans (if_neg fun ha => hl (Location.within_of_mem rfl ha))
  | static f => exact absurd (Location.within_of_outside rfl) hl

end Snapshot

/-! ## snapshots with the same live part -/

/-- the snapshots have the same values wherever frame and statics of `s` can look -/
def SameLive (s t : Snapshot) : Prop := ∀ l : Location, l.Within s.live → s.get l = t.get l

namespace SameLive

variable {s t : Snapshot}

theorem refl (s : Snapshot) : SameLive s s := fun _ _ => rfl

theorem frame_eq (h : SameLive s t) : s.frame = t.frame :=
  Frame.readBy_get.ext fun p => h (.slot p) (Location.within_of_outside rfl)

theorem statics_eq (h : SameLive s t) : s.statics = t.statics :=
  SparseMap.ext fun f => h (.static f) (Location.within_of_outside rfl)

theorem live_eq (h : SameLive s t) : s.live = t.live := by
  have hroots : s.roots = t.roots := by
    rw [Snapshot.roots, Snapshot.roots, h.frame_eq, h.statics_eq]
  rw [Snapshot.live, Snapshot.live, ← hroots]
  apply Heap.reachable_congr
  intro c hc
  rw [← Snapshot.get_location, ← Snapshot.get_location]
  exact h c.location (Location.within_of_mem c.holder?_location hc)

theorem gc_eq (h : SameLive s t) : s.gc = t.gc := by
  apply Snapshot.readBy_get.ext
  intro l
  by_cases hl : l.Within s.live
  · rw [Snapshot.get_gc_of_within hl, Snapshot.get_gc_of_within (h.live_eq ▸ hl), h l hl]
  · rw [Snapshot.get_gc_of_not_within hl, Snapshot.get_gc_of_not_within (h.live_eq ▸ hl)]

theorem collect (h : SameLive s t) : SameLive s t.gc := by
  intro l hl
  rw [Snapshot.get_gc_of_within (h.live_eq ▸ hl), h l hl]

end SameLive

/-! ## writes -/

/-- the values that a write brings in -/
def Write.values : Write ValueSet → ValueSet
  | strong v => v
  | weak v => v
  | clear => ∅

theorem Write.mem_of_mem_apply {w : Write ValueSet} {old : ValueSet} {v : Value} (h : v ∈ w.apply old) :
    v ∈ w.values ∨ v ∈ old := by
  cases w with
  | strong vs => exact .inl h
  | weak vs => exact (ValueSet.mem_union.1 h).symm
  | clear => exact absurd h (ValueSet.not_mem_empty v)

/-- a write that brings in live addresses only makes no address live -/
theorem Snapshot.live_write_subset {s : Snapshot} {l : Location} {w : Write ValueSet}
    (hw : ∀ a, Value.address a ∈ w.values → a ∈ s.live) : ∀ a ∈ (s.write l w).2.live, a ∈ s.live := by
  apply Snapshot.live_induction
  intro m b hm hb
  rw [Snapshot.get_write] at hb
  split at hb
  · rcases Write.mem_of_mem_apply hb with hb | hb
    · exact hw b hb
    · exact Snapshot.mem_live_of_get hm hb
  · exact Snapshot.mem_live_of_get hm hb

theorem SameLive.write {s t : Snapshot} (h : SameLive s t) {l : Location} {w : Write ValueSet}
    (hw : ∀ a, Value.address a ∈ w.values → a ∈ s.live) : SameLive (s.write l w).2 (t.write l w).2 := by
  intro m hm
  have hs : m.Within s.live := fun a ha => Snapshot.live_write_subset hw a (hm a ha)
  rw [Snapshot.get_write, Snapshot.get_write, h m hs]

/-! ## runs -/

/-- a write at a location -/
structure Update where
  location : Location
  write : Write ValueSet

/-- one step of a run: an update, or a collection of garbage -/
inductive Step
  | update (u : Update)
  | collect

def Step.update? : Step → Option Update
  | update u => some u
  | collect => none

/-- the updates of a run, without the collections -/
def updates (steps : List Step) : List Update := steps.filterMap Step.update?

theorem updates_append (xs ys : List Step) : updates (xs ++ ys) = updates xs ++ updates ys :=
  List.filterMap_append

namespace Snapshot

def update (s : Snapshot) (u : Update) : Snapshot := (s.write u.location u.write).2

def step (s : Snapshot) : Step → Snapshot
  | .update u => s.update u
  | .collect => s.gc

def updateAll (s : Snapshot) (us : List Update) : Snapshot := us.foldl update s

def run (s : Snapshot) (steps : List Step) : Snapshot := steps.foldl step s

/-- every update brings in only addresses that are live when it is made -/
def Grounded : Snapshot → List Update → Prop
  | _, [] => True
  | s, u :: us => (∀ a, Value.address a ∈ u.write.values → a ∈ s.live) ∧ Grounded (s.update u) us

theorem Grounded.of_append {s : Snapshot} {us vs : List Update} (h : s.Grounded (us ++ vs)) : s.Grounded us := by
  induction us generalizing s with
  | nil => trivial
  | cons u us ih => exact ⟨h.1, ih h.2⟩

end Snapshot

/-- a run with collections keeps up with the run of its updates alone -/
theorem SameLive.run {s t : Snapshot} (h : SameLive s t) {steps : List Step} (hg : s.Grounded (updates steps)) :
    SameLive (s.updateAll (updates steps)) (t.run steps) := by
  induction steps generalizing s t with
  | nil => exact h
  | cons x steps ih =>
    cases x with
    | update u => exact ih (h.write hg.1) hg.2
    | collect => exact ih h.collect hg

/-- **Collecting early is invisible.**  At every point of a grounded run with collections, frame and statics
are those of the run without collections, and so is the rest once garbage is collected. -/
theorem run_collecting_anywhere (s : Snapshot) (steps : List Step) (hg : s.Grounded (updates steps)) (n : Nat) :
    (s.run (steps.take n)).frame = (s.updateAll (updates (steps.take n))).frame ∧
      (s.run (steps.take n)).statics = (s.updateAll (updates (steps.take n))).statics ∧
      (s.run (steps.take n)).gc = (s.updateAll (updates (steps.take n))).gc := by
  have hn : s.Grounded (updates (steps.take n) ++ updates (steps.drop n)) := by
    rwa [← updates_append, List.take_append_drop]
  have h : SameLive (s.updateAll (updates (steps.take n))) (s.run (steps.take n)) :=
    (SameLive.refl s).run hn.of_append
  exact ⟨h.frame_eq.symm, h.statics_eq.symm, h.gc_eq.symm⟩

/-! ## a run whose heaps differ -/

namespace Sample

/-- the static field holds the first box, and the array of the second, which nothing holds, a taint -/
def start : Snapshot :=
  ((∅ : Snapshot).update ⟨.static shared, .strong (.singleton (.address (box 1)))⟩).update
    ⟨.array (box 2), .strong (.singleton (.atom (.taint "t")))⟩

/-- the array of the second box is collected, and then added to -/
def steps : List Step :=
  [.collect, .update ⟨.array (box 2), .weak (.singleton (.address (box 1)))⟩, .update ⟨.static shared, .clear⟩]

theorem get_start (l : Location) : start.get l =
    if .array (box 2) = l then .singleton (.atom (.taint "t"))
    else if .static shared = l then .singleton (.address (box 1)) else ∅ := by
  unfold start Snapshot.update
  rw [Snapshot.get_write, Snapshot.get_write, Snapshot.readBy_get.empty]
  rfl

theorem mem_live_start {a : Address} : a ∈ start.live ↔ a = box 1 := by
  constructor
  · revert a
    apply Snapshot.live_induction
    intro l b _ hb
    rw [get_start] at hb
    split at hb
    · exact nomatch ValueSet.mem_singleton.1 hb
    · split at hb
      · exact Value.address.inj (ValueSet.mem_singleton.1 hb)
      · exact absurd hb (ValueSet.not_mem_empty _)
  · rintro rfl
    apply Snapshot.mem_live_of_get (l := .static shared) (Location.within_of_outside rfl)
    rw [get_start, if_neg (by decide), if_pos rfl]
    exact ValueSet.mem_singleton.2 rfl

theorem grounded_steps : start.Grounded (updates steps) := by
  refine ⟨fun a ha => ?_, fun a ha => ?_, trivial⟩
  · exact mem_live_start.2 (Value.address.inj (ValueSet.mem_singleton.1 ha))
  · exact absurd ha (ValueSet.not_mem_empty _)

/-- only the run that does not collect still has the taint in the array -/
theorem run_steps_ne : start.run steps ≠ start.updateAll (updates steps) := by
  intro h
  have hdead : ¬ (Location.array (box 2)).Within start.live :=
    fun hl => absurd (mem_live_start.1 (hl _ rfl)) (by decide)
  have hrun : (start.run steps).get (.array (box 2)) = ∅ ∪ .singleton (.address (box 1)) := by
    show ((start.gc.write _ _).2.write _ _).2.get _ = _
    rw [Snapshot.get_write, Snapshot.get_write, if_neg (by decide), if_pos rfl,
      Snapshot.get_gc_of_not_within hdead]
    rfl
  have hplain : (start.updateAll (updates steps)).get (.array (box 2))
      = .singleton (.atom (.taint "t")) ∪ .singleton (.address (box 1)) := by
    show ((start.write _ _).2.write _ _).2.get _ = _
    rw [Snapshot.get_write, Snapshot.get_write, if_neg (by decide), if_pos rfl, get_start, if_pos rfl]
    rfl
  have ht : Value.atom (.taint "t") ∈ (start.run steps).get (.array (box 2)) := by
    rw [h, hplain]
    exact ValueSet.mem_union.2 (.inl (ValueSet.mem_singleton.2 rfl))
  rw [hrun, Facts.empty_union, ValueSet.mem_singleton] at ht
  cases ht

end Sample

theorem run_collecting_first :
    Sample.start.Grounded (updates Sample.steps) ∧
      Sample.start.run Sample.steps ≠ Sample.start.updateAll (updates Sample.steps) ∧
      (Sample.start.run Sample.steps).gc = (Sample.start.updateAll (updates Sample.steps)).gc :=
  ⟨Sample.grounded_steps, Sample.run_steps_ne,
    (run_collecting_anywhere Sample.start Sample.steps Sample.grounded_steps 3).2.2⟩

end InfoFlow
