import InfoFlow.Intern.Access
import InfoFlow.Proofs.Interning
import InfoFlow.Proofs.Progress

/-!
# States as total functions

A state stands for a total function from its places to plain sets.  Writing replaces, extends or empties the set
at one place; merging and subtracting are union and difference at every place; a map can also be filtered, or
collected from a list; a field of objects can also be named by address and field, which are interned first.

* `follows_of_step`: where each step goes along with the function, so does every run;
* `Writes get write`: what one write does and returns;
* `Writes.perform_ideal`, `MapOperation.perform_ideal`, `FieldOperation.perform_ideal`: single operations;
* `states_refine_functions`: every run, on every kind of state, goes along with the function.
-/

namespace InfoFlow

open Std

/-! ## values as plain sets -/

section
variable {ν φ : Type} [EmptyCollection ν] [Union ν] [SDiff ν]

/-- `facts` tells what a value holds, as a plain set -/
structure Denotes (facts : ν → Set φ) : Prop where
  inj : ∀ {a b}, facts a = facts b → a = b
  empty : facts ∅ = ∅
  union : ∀ a b, facts (a ∪ b) = facts a ∪ facts b
  diff : ∀ a b, facts (a \ b) = facts a \ facts b

theorem Denotes.eq_empty_iff {facts : ν → Set φ} (hd : Denotes facts) {v : ν} : facts v = ∅ ↔ v = ∅ := by
  constructor
  · intro h
    exact hd.inj (h.trans hd.empty.symm)
  · intro h
    rw [h, hd.empty]

end

/-- the members of a set of values -/
def ValueSet.facts (s : ValueSet) : Set Value := {v | v ∈ s}

theorem ValueSet.denotes_facts : Denotes ValueSet.facts where
  inj h := ValueSet.ext fun v => Set.ext_iff.1 h v
  empty := Set.eq_empty_iff_forall_notMem.2 ValueSet.not_mem_empty
  union _ _ := Set.ext fun _ => ValueSet.mem_union
  diff _ _ := Set.ext fun _ => ValueSet.mem_diff

/-- the values of a snapshot, each with its location -/
def Snapshot.facts (s : Snapshot) : Set (Location × Value) := factsOf s.get

theorem Snapshot.denotes_facts : Denotes Snapshot.facts where
  inj h := readBy_get.ext fun l => ValueSet.ext fun v => Set.ext_iff.1 h (l, v)
  empty := factsOf_empty readBy_get.empty
  union := readBy_get.factsOf_union
  diff := readBy_get.factsOf_diff

/-! ## runs -/

/-- the state after a list of operations, and what each of them returned -/
def runAll {σ ω β : Type} (step : σ → ω → Option β × σ) (s : σ) : List ω → List (Option β) × σ
  | [] => ([], s)
  | o :: os =>
    let r := step s o
    let rest := runAll step r.2 os
    (r.1 :: rest.1, rest.2)

section
variable {σ ω ν π φ : Type} {facts : ν → Set φ} {function : σ → π → Set φ} {step : σ → ω → Option ν × σ}
  {ideal : (π → Set φ) → ω → Option (Set φ) × (π → Set φ)}

/-- one operation on a state does what it does to the function that the state stands for, and returns the same -/
def StepFollows (facts : ν → Set φ) (function : σ → π → Set φ) (step : σ → ω → Option ν × σ)
    (ideal : (π → Set φ) → ω → Option (Set φ) × (π → Set φ)) (s : σ) (o : ω) : Prop :=
  (step s o).1.map facts = (ideal (function s) o).1 ∧ function (step s o).2 = (ideal (function s) o).2

/-- the same for every run -/
def Follows (facts : ν → Set φ) (function : σ → π → Set φ) (step : σ → ω → Option ν × σ)
    (ideal : (π → Set φ) → ω → Option (Set φ) × (π → Set φ)) (s : σ) : Prop :=
  ∀ os : List ω,
    (runAll step s os).1.map (Option.map facts) = (runAll ideal (function s) os).1 ∧
      function (runAll step s os).2 = (runAll ideal (function s) os).2

theorem runAll_keeps {I : σ → Prop} (hI : ∀ s o, I s → I (step s o).2) {s : σ} (hs : I s) (os : List ω) :
    I (runAll step s os).2 := by
  induction os generalizing s with
  | nil => exact hs
  | cons o os ih => exact ih (hI s o hs)

theorem follows_of_step {I : σ → Prop} (hI : ∀ s o, I s → I (step s o).2)
    (hstep : ∀ s o, I s → StepFollows facts function step ideal s o) {s : σ} (hs : I s) :
    Follows facts function step ideal s := by
  intro os
  induction os generalizing s with
  | nil => exact ⟨rfl, rfl⟩
  | cons o os ih =>
    obtain ⟨hreturn, hfun⟩ := hstep s o hs
    obtain ⟨hreturns, hend⟩ := ih (hI s o hs)
    rw [hfun] at hreturns hend
    refine ⟨?_, hend⟩
    show (step s o).1.map facts :: List.map (Option.map facts) (runAll step (step s o).2 os).1 = _
    rw [hreturn, hreturns]
    rfl

end

/-! ## operations -/

/-- what is told of the set that was there before a write -/
noncomputable def previous {φ : Type} (s : Set φ) : Option (Set φ) := by
  classical exact if s = ∅ then none else some s

/-- the set after a write -/
def Write.onSets {ν φ : Type} (facts : ν → Set φ) : Write ν → Set φ → Set φ
  | strong v, _ => facts v
  | weak v, old => old ∪ facts v
  | clear, _ => ∅

/-- an operation on states of kind `α`, whose places are `π` -/
inductive Operation (α π ν : Type)
  | write (p : π) (w : Write ν)
  | merge (other : α)
  | minus (other : α)

section
variable {α π ν φ : Type} [EmptyCollection α] [Union α] [SDiff α] [DecidableEq π] [EmptyCollection ν] [Union ν]
  [SDiff ν]

/-- the total function that a state stands for -/
def functionOf (facts : ν → Set φ) (get : α → π → ν) (a : α) : π → Set φ := fun p => facts (get a p)

/-- the operation on a state; only a write returns something -/
def Operation.perform (write : α → π → Write ν → Option ν × α) (a : α) : Operation α π ν → Option ν × α
  | .write p w => write a p w
  | .merge b => (none, a ∪ b)
  | .minus b => (none, a \ b)

/-- the operation on a total function -/
noncomputable def Operation.ideal (facts : ν → Set φ) (get : α → π → ν) (g : π → Set φ) :
    Operation α π ν → Option (Set φ) × (π → Set φ)
  | .write p w => (previous (g p), Function.update g p (w.onSets facts (g p)))
  | .merge b => (none, fun p => g p ∪ functionOf facts get b p)
  | .minus b => (none, fun p => g p \ functionOf facts get b p)

/-- a write changes one place, and returns what was there if anything was, also where it writes `∅` -/
structure Writes (get : α → π → ν) (write : α → π → Write ν → Option ν × α) : Prop extends ReadBy get where
  get_write : ∀ a p w q, get (write a p w).2 q = if p = q then w.apply (get a q) else get a q
  returned_eq_none_iff : ∀ a p w, (write a p w).1 = none ↔ get a p = ∅
  returned_eq_some_iff : ∀ a p w v, (write a p w).1 = some v ↔ get a p = v ∧ v ≠ ∅

variable {facts : ν → Set φ} {get : α → π → ν} {write : α → π → Write ν → Option ν × α}

theorem Denotes.facts_apply (hd : Denotes facts) (w : Write ν) (old : ν) :
    facts (w.apply old) = w.onSets facts (facts old) := by
  cases w with
  | strong v => rfl
  | weak v => exact hd.union old v
  | clear => exact hd.empty

namespace Writes

theorem functionOf_write (hw : Writes get write) (hd : Denotes facts) (a : α) (p : π) (w : Write ν) :
    functionOf facts get (write a p w).2 =
      Function.update (functionOf facts get a) p (w.onSets facts (functionOf facts get a p)) := by
  funext q
  show facts (get (write a p w).2 q) = _
  rw [hw.get_write]
  by_cases hq : p = q
  · subst hq
    rw [if_pos rfl, Function.update_self, hd.facts_apply]
    rfl
  · rw [if_neg hq, Function.update_of_ne (Ne.symm hq)]
    rfl

theorem map_returned (hw : Writes get write) (hd : Denotes facts) (a : α) (p : π) (w : Write ν) :
    (write a p w).1.map facts = previous (functionOf facts get a p) := by
  have hempty : functionOf facts get a p = ∅ ↔ get a p = ∅ := hd.eq_empty_iff
  unfold previous
  by_cases he : get a p = ∅
  · rw [(hw.returned_eq_none_iff a p w).2 he, if_pos (hempty.2 he)]
    rfl
  · rw [(hw.returned_eq_some_iff a p w _).2 ⟨rfl, he⟩, if_neg (mt hempty.1 he)]
    rfl

theorem perform_ideal (hw : Writes get write) (hd : Denotes facts) (a : α) (o : Operation α π ν) :
    StepFollows facts (functionOf facts get) (Operation.perform write) (Operation.ideal facts get) a o := by
  cases o with
  | write p w => exact ⟨hw.map_returned hd a p w, hw.functionOf_write hd a p w⟩
  | merge b =>
    refine ⟨rfl, funext fun p => ?_⟩
    show facts (get (a ∪ b) p) = _
    rw [hw.union, hd.union]
    rfl
  | minus b =>
    refine ⟨rfl, funext fun p => ?_⟩
    show facts (get (a \ b) p) = _
    rw [hw.diff, hd.diff]
    rfl

end Writes

end

/-! ## maps -/

section
variable {κ ν φ : Type} [Ord κ] [TransOrd κ] [LawfulEqOrd κ] [DecidableEq κ] [DecidableEq ν] [EmptyCollection ν]
  [Union ν] [SDiff ν] [Facts ν]

/-- an operation on maps -/
inductive MapOperation (κ ν : Type) [Ord κ] [TransOrd κ] [EmptyCollection ν]
  | basic (o : Operation (SparseMap κ ν) κ ν)
  | filter (keep : κ → Bool)
  /-- starts anew from a list of entries -/
  | collect (es : List (κ × ν))

def MapOperation.perform (s : SparseMap κ ν) : MapOperation κ ν → Option ν × SparseMap κ ν
  | basic o => o.perform SparseMap.write s
  | filter keep => (none, s.filter keep)
  | collect es => (none, SparseMap.ofList es)

noncomputable def MapOperation.ideal (facts : ν → Set φ) (g : κ → Set φ) :
    MapOperation κ ν → Option (Set φ) × (κ → Set φ)
  | basic o => o.ideal facts SparseMap.get g
  | filter keep => (none, fun k => if keep k then g k else ∅)
  | collect es => (none, fun k => {x | ∃ e ∈ es, e.1 = k ∧ x ∈ facts e.2})

theorem SparseMap.writes : Writes (SparseMap.get : SparseMap κ ν → κ → ν) SparseMap.write where
  toReadBy := readBy_get
  get_write := get_write
  returned_eq_none_iff s k w := by rw [fst_write, get?_eq_none_iff]
  returned_eq_some_iff s k w v := by rw [fst_write, get?_eq_some_iff]

theorem SparseMap.mem_facts_get_addAll {facts : ν → Set φ} (hd : Denotes facts) (s : SparseMap κ ν)
    (es : List (κ × ν)) (k : κ) (x : φ) :
    x ∈ facts ((s.addAll es).get k) ↔ x ∈ facts (s.get k) ∨ ∃ e ∈ es, e.1 = k ∧ x ∈ facts e.2 := by
  induction es generalizing s with
  | nil =>
    show x ∈ facts (s.get k) ↔ _
    simp
  | cons e es ih =>
    show x ∈ facts (((s.add e.1 e.2).addAll es).get k) ↔ _
    rw [ih, get_add]
    by_cases hk : e.1 = k
    · rw [if_pos hk, hd.union, Set.mem_union, or_assoc]
      simp [hk]
    · rw [if_neg hk]
      simp [hk]

theorem MapOperation.perform_ideal {facts : ν → Set φ} (hd : Denotes facts) (s : SparseMap κ ν)
    (o : MapOperation κ ν) :
    StepFollows facts (functionOf facts SparseMap.get) MapOperation.perform (MapOperation.ideal facts) s o := by
  cases o with
  | basic o => exact SparseMap.writes.perform_ideal hd s o
  | filter keep =>
    refine ⟨rfl, funext fun k => ?_⟩
    show facts ((s.filter keep).get k) = if keep k then facts (s.get k) else ∅
    rw [SparseMap.get_filter]
    split
    · rfl
    · exact hd.empty
  | collect es =>
    refine ⟨rfl, funext fun k => Set.ext fun x => ?_⟩
    show x ∈ facts ((SparseMap.addAll ∅ es).get k) ↔ _
    rw [SparseMap.mem_facts_get_addAll hd, SparseMap.get_empty, hd.empty]
    exact or_iff_right (Set.notMem_empty x)

end

/-! ## frames, heaps and snapshots -/

theorem Frame.writes : Writes Frame.get Frame.write where
  toReadBy := readBy_get
  get_write := get_write
  returned_eq_none_iff f s w := by
    cases s <;> exact SparseMap.writes.returned_eq_none_iff _ _ _
  returned_eq_some_iff f s w v := by
    cases s <;> exact SparseMap.writes.returned_eq_some_iff _ _ _ _

deriving instance DecidableEq for Cell

/-- writes one cell; also tells what was stored there before -/
def Heap.write (h : Heap) (c : Cell) (w : Write ValueSet) : Option ValueSet × Heap :=
  match c with
  | .field k => let r := h.fields.write k w; (r.1, { h with fields := r.2 })
  | .array a => let r := h.arrays.write a w; (r.1, { h with arrays := r.2 })

theorem Heap.writes : Writes Heap.get Heap.write where
  toReadBy := readBy_get
  get_write h c w d := by
    cases c <;> cases d <;> simp [Heap.write, Heap.get]
  returned_eq_none_iff h c w := by
    cases c <;> exact SparseMap.writes.returned_eq_none_iff _ _ _
  returned_eq_some_iff h c w v := by
    cases c <;> exact SparseMap.writes.returned_eq_some_iff _ _ _ _

theorem Snapshot.writes : Writes Snapshot.get Snapshot.write where
  toReadBy := readBy_get
  get_write := get_write
  returned_eq_none_iff s l w := by
    cases l with
    | slot p => exact Frame.writes.returned_eq_none_iff s.frame p w
    | field k => exact SparseMap.writes.returned_eq_none_iff s.heap.fields k w
    | array a => exact SparseMap.writes.returned_eq_none_iff s.heap.arrays a w
    | static f => exact SparseMap.writes.returned_eq_none_iff s.statics f w
  returned_eq_some_iff s l w v := by
    cases l with
    | slot p => exact Frame.writes.returned_eq_some_iff s.frame p w v
    | field k => exact SparseMap.writes.returned_eq_some_iff s.heap.fields k w v
    | array a => exact SparseMap.writes.returned_eq_some_iff s.heap.arrays a w v
    | static f => exact SparseMap.writes.returned_eq_some_iff s.statics f w v

/-! ## fields named by address and field -/

theorem Tables.Sound.objectField {t : Tables} (ht : t.Sound) (a : Address) (f : Field) :
    (t.objectField a f).handle.key = ⟨a, f⟩ ∧ (t.objectField a f).tables.Sound :=
  ⟨(ht .objectField).key_intern _, ht.run (.objectField ⟨a, 0, 0⟩ f)⟩

/-- writes field `f` of the objects at `a`; also tells what was stored there before -/
def Heap.writeField (t : Tables) (h : Heap) (a : Address) (f : Field) (w : Write ValueSet) :
    Accessed (Option ValueSet × Heap) :=
  let r := t.writeField h.fields a f w
  ⟨(r.value.1, { h with fields := r.value.2 }), r.tables, r.log⟩

/-- writes field `f` of the objects at `a`; also tells what was stored there before -/
def Snapshot.writeField (t : Tables) (s : Snapshot) (a : Address) (f : Field) (w : Write ValueSet) :
    Accessed (Option ValueSet × Snapshot) :=
  let r := s.heap.writeField t a f w
  ⟨(r.value.1, { s with heap := r.value.2 }), r.tables, r.log⟩

/-- an operation on states with fields of objects, next to tables of interned keys -/
inductive FieldOperation (α π : Type)
  | basic (o : Operation α π ValueSet)
  /-- writes field `f` of the objects at `a` -/
  | writeField (a : Address) (f : Field) (w : Write ValueSet)
  /-- any other call on the tables -/
  | call (c : Call)

namespace FieldOperation

section
variable {α π : Type} [Union α] [SDiff α]

def perform (write : α → π → Write ValueSet → Option ValueSet × α)
    (writeField : Tables → α → Address → Field → Write ValueSet → Accessed (Option ValueSet × α))
    (x : Tables × α) : FieldOperation α π → Option ValueSet × (Tables × α)
  | .basic o => let r := o.perform write x.2; (r.1, (x.1, r.2))
  | .writeField a f w => let r := writeField x.1 x.2 a f w; (r.value.1, (r.tables, r.value.2))
  | .call c => (none, ((c.run x.1).tables, x.2))

/-- tables play no part for the function -/
noncomputable def ideal [DecidableEq π] (get : α → π → ValueSet) (place : ObjectField → π) (g : π → Set Value) :
    FieldOperation α π → Option (Set Value) × (π → Set Value)
  | basic o => o.ideal ValueSet.facts get g
  | writeField a f w => (Operation.write (place ⟨a, f⟩) w).ideal ValueSet.facts get g
  | call _ => (none, g)

/-- a field is written at the place of its interned key -/
def AtInterned (write : α → π → Write ValueSet → Option ValueSet × α) (place : ObjectField → π)
    (writeField : Tables → α → Address → Field → Write ValueSet → Accessed (Option ValueSet × α)) : Prop :=
  ∀ t x a f w, let i := t.objectField a f
    writeField t x a f w = ⟨write x (place i.handle.key) w, i.tables, i.log⟩

variable {get : α → π → ValueSet} {write : α → π → Write ValueSet → Option ValueSet × α} {place : ObjectField → π}
  {writeField : Tables → α → Address → Field → Write ValueSet → Accessed (Option ValueSet × α)}

theorem sound_perform (hf : AtInterned write place writeField) (x : Tables × α) (o : FieldOperation α π)
    (hx : x.1.Sound) : (perform write writeField x o).2.1.Sound := by
  cases o with
  | basic o => exact hx
  | writeField a f w =>
    show (writeField x.1 x.2 a f w).tables.Sound
    rw [hf]
    exact (hx.objectField a f).2
  | call c => exact hx.run c

/-- sound tables give back the key that was asked for, so the write is at the place that the function has it -/
theorem perform_ideal [EmptyCollection α] [DecidableEq π] (hw : Writes get write)
    (hf : AtInterned write place writeField) (x : Tables × α) (o : FieldOperation α π) (hx : x.1.Sound) :
    StepFollows ValueSet.facts (fun x => functionOf ValueSet.facts get x.2) (perform write writeField)
      (ideal get place) x o := by
  cases o with
  | basic o => exact hw.perform_ideal ValueSet.denotes_facts x.2 o
  | writeField a f w =>
    have hvalue : (writeField x.1 x.2 a f w).value = write x.2 (place ⟨a, f⟩) w := by
      rw [hf]
      show write x.2 (place (x.1.objectField a f).handle.key) w = _
      rw [(hx.objectField a f).1]
    show (writeField x.1 x.2 a f w).value.1.map _ = _ ∧ functionOf _ _ (writeField x.1 x.2 a f w).value.2 = _
    rw [hvalue]
    exact hw.perform_ideal ValueSet.denotes_facts x.2 (.write (place ⟨a, f⟩) w)
  | call c => exact ⟨rfl, rfl⟩

end

/-- reading by address and field reads the field's own entry -/
theorem value_getField (owner : Nat) (s : Store ObjectField)
    (os : List (FieldOperation (Store ObjectField) ObjectField)) (a : Address) (f : Field) :
    let x := (runAll (perform SparseMap.write Tables.writeField) (.empty owner, s) os).2
    (x.1.getField x.2 a f).value = x.2.get ⟨a, f⟩ := by
  intro x
  have hf : AtInterned SparseMap.write id Tables.writeField := fun _ _ _ _ _ => rfl
  have hx : x.1.Sound :=
    runAll_keeps (I := fun x : Tables × Store ObjectField => x.1.Sound) (sound_perform hf) (Tables.Sound.empty owner) os
  show x.2.get (x.1.objectField a f).handle.key = _
  rw [(hx.objectField a f).1]

end FieldOperation

/-! ## every kind of state -/

section
variable {α π ν φ : Type} [EmptyCollection α] [Union α] [SDiff α] [DecidableEq π] [EmptyCollection ν] [Union ν]
  [SDiff ν]

/-- writes are local, and runs go along with those of total functions -/
structure Refines (facts : ν → Set φ) (get : α → π → ν) (write : α → π → Write ν → Option ν × α) : Prop
    extends Writes get write where
  follows : ∀ a, Follows facts (functionOf facts get) (Operation.perform write) (Operation.ideal facts get) a

theorem Writes.refines {facts : ν → Set φ} {get : α → π → ν} {write : α → π → Write ν → Option ν × α}
    (hw : Writes get write) (hd : Denotes facts) : Refines facts get write where
  toWrites := hw
  follows _ := follows_of_step (I := fun _ => True) (fun _ _ _ => trivial) (fun a o _ => hw.perform_ideal hd a o)
    trivial

/-- the same for maps, which are also filtered and collected -/
structure MapRefines (κ : Type) [Ord κ] [TransOrd κ] [LawfulEqOrd κ] [DecidableEq κ] [DecidableEq ν] [Facts ν]
    (facts : ν → Set φ) : Prop extends Writes (SparseMap.get : SparseMap κ ν → κ → ν) SparseMap.write where
  follows : ∀ s : SparseMap κ ν,
    Follows facts (functionOf facts SparseMap.get) MapOperation.perform (MapOperation.ideal facts) s

theorem SparseMap.mapRefines {κ : Type} [Ord κ] [TransOrd κ] [LawfulEqOrd κ] [DecidableEq κ] [DecidableEq ν]
    [Facts ν] {facts : ν → Set φ} (hd : Denotes facts) : MapRefines κ facts where
  toWrites := SparseMap.writes
  follows _ := follows_of_step (I := fun _ => True) (fun _ _ _ => trivial)
    (fun s o _ => MapOperation.perform_ideal hd s o) trivial

/-- the same for states with fields of objects, next to tables that are empty at first -/
structure FieldRefines (get : α → π → ValueSet) (write : α → π → Write ValueSet → Option ValueSet × α)
    (place : ObjectField → π)
    (writeField : Tables → α → Address → Field → Write ValueSet → Accessed (Option ValueSet × α)) : Prop
    extends Writes get write where
  follows : ∀ owner a,
    Follows ValueSet.facts (fun x : Tables × α => functionOf ValueSet.facts get x.2)
      (FieldOperation.perform write writeField) (FieldOperation.ideal get place) (.empty owner, a)

theorem Writes.fieldRefines {get : α → π → ValueSet} {write : α → π → Write ValueSet → Option ValueSet × α}
    {place : ObjectField → π}
    {writeField : Tables → α → Address → Field → Write ValueSet → Accessed (Option ValueSet × α)}
    (hw : Writes get write) (hf : FieldOperation.AtInterned write place writeField) :
    FieldRefines get write place writeField where
  toWrites := hw
  follows owner _ := follows_of_step (I := fun x => x.1.Sound) (FieldOperation.sound_perform hf)
    (FieldOperation.perform_ideal hw hf) (Tables.Sound.empty owner)

end

/-- **States refine total functions.** Take a map, a frame, a heap, a snapshot or an analysis as the function that
gives the set at each of its places.  Every run of writes, unions, differences, filters and collections is then the
run of replacement, union, clearing, restriction, union of the entries of a key, union and difference on functions,
at each step with the same answer: the set that was there, or nothing where it was empty.  A write changes one place
only.  Naming a field by address and field reads and writes the place of that pair, whatever was interned before. -/
theorem states_refine_functions :
    (∀ (κ : Type) [Ord κ] [TransOrd κ] [LawfulEqOrd κ] [DecidableEq κ], MapRefines κ ValueSet.facts) ∧
      Refines ValueSet.facts Frame.get Frame.write ∧
      FieldRefines SparseMap.get SparseMap.write id Tables.writeField ∧
      FieldRefines Heap.get Heap.write .field Heap.writeField ∧
      FieldRefines Snapshot.get Snapshot.write .field Snapshot.writeField ∧
      (∀ owner s os a f,
        let x := (runAll (FieldOperation.perform SparseMap.write Tables.writeField) (.empty owner, s) os).2
        (x.1.getField x.2 a f).value = x.2.get ⟨a, f⟩) ∧
      MapRefines Context Snapshot.facts ∧
      ∀ (s : Analysis) (c : Context) (x : Snapshot),
        s.put c x = s.write c (.strong x) ∧ s.remove c = s.write c .clear :=
  ⟨fun _ _ _ _ _ => SparseMap.mapRefines ValueSet.denotes_facts, Frame.writes.refines ValueSet.denotes_facts,
    SparseMap.writes.fieldRefines fun _ _ _ _ _ => rfl, Heap.writes.fieldRefines fun _ _ _ _ _ => rfl,
    Snapshot.writes.fieldRefines fun _ _ _ _ _ => rfl, FieldOperation.value_getField,
    SparseMap.mapRefines Snapshot.denotes_facts, fun _ _ _ => ⟨rfl, rfl⟩⟩

open Sample in
/-- a box, then the empty set in its place, then another box: the static field holds the second box only -/
theorem states_refine_functions_boxes :
    let os : List (MapOperation Field ValueSet) :=
      [.basic (.write shared (.weak (.ofList [.address (box 1)]))), .basic (.write shared (.strong ∅)),
        .basic (.write shared (.weak (.ofList [.address (box 2)])))]
    ((runAll MapOperation.perform ∅ os).2.get shared).facts = {.address (box 2)} := by
  intro os
  have hrun := ((states_refine_functions.1 Field).follows ∅ os).2
  have hbox : (ValueSet.ofList [.address (box 2)]).facts = {.address (box 2)} :=
    Set.ext fun v => ValueSet.mem_ofList.trans List.mem_singleton
  calc functionOf ValueSet.facts SparseMap.get (runAll MapOperation.perform ∅ os).2 shared
      = ValueSet.facts ∅ ∪ (ValueSet.ofList [.address (box 2)]).facts := by
        rw [hrun]
        simp [os, runAll, MapOperation.ideal, Operation.ideal, Write.onSets]
    _ = {.address (box 2)} := by
        rw [ValueSet.denotes_facts.empty, hbox, Set.empty_union]

end InfoFlow
