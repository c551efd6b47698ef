import InfoFlow.Proofs.Labels
import InfoFlow.Proofs.History

/-!
# Reports of states

A report is a JSON object with a member for each entry of a map, named by the label of the key.  Members of one name
would replace each other when the object is put together.  Where no name has a separator the labels are different, and
nothing is lost:

* `Keeps P label write s j`: the object `j` tells the values of `s`, in whatever order its members are put into it;
* `keeps_report`: this is so where labels of keys with `P` are different and all stored keys are such;
* `reports_lose_no_entry`: every kind of label, and the report of every kind of state.
-/

namespace InfoFlow

open Std

/-! ## objects -/

/-- the members by name, where of two members with one name the later one counts -/
def Json.collect (ms : List (String × Json)) : ExtTreeMap String Json compare := ExtTreeMap.ofList ms compare

section
variable {κ ν : Type} [Ord κ] [TransOrd κ] [EmptyCollection ν]

/-- `j` is an object with as many members as `s` has entries, and the member named by the label of a key tells the
    value of that key, whatever the order in which the members are collected -/
def Keeps (P : κ → Prop) (label : κ → String) (write : ν → Json) (s : SparseMap κ ν) (j : Json) : Prop :=
  ∃ members, j = .obj members ∧ ∀ ms, ms.Perm members →
    (Json.collect ms).size = s.size ∧ ∀ k, P k → (Json.collect ms)[label k]? = (s.get? k).map write

variable [LawfulEqOrd κ] {P : κ → Prop} {label : κ → String} {write : ν → Json} {s : SparseMap κ ν}

theorem SparseMap.get_ne_empty_of_mem {e : κ × ν} (he : e ∈ s.toList) : s.get e.1 ≠ ∅ := by
  obtain ⟨hget, hne⟩ := SparseMap.get?_eq_some_iff.1 (SparseMap.mem_toList.1 he)
  rwa [hget]

/-- the members of a report have different names -/
theorem distinct_labels (hinj : Set.InjOn label {k | P k}) (hs : ∀ k, s.get k ≠ ∅ → P k) :
    (s.toList.map fun e => (label e.1, write e.2)).Pairwise fun a b => ¬compare a.1 b.1 = .eq := by
  rw [List.pairwise_map]
  refine ExtTreeMap.distinct_keys_toList.imp_of_mem fun {a b} ha hb hab heq => hab ?_
  have hlabel : label a.1 = label b.1 := Std.compare_eq_iff_eq.1 heq
  have hkey : a.1 = b.1 :=
    hinj (hs _ (SparseMap.get_ne_empty_of_mem ha)) (hs _ (SparseMap.get_ne_empty_of_mem hb)) hlabel
  rw [hkey]
  exact compare_self

theorem keeps_report (hinj : Set.InjOn label {k | P k}) (hs : ∀ k, s.get k ≠ ∅ → P k) :
    Keeps P label write s (.obj (s.toList.map fun e => (label e.1, write e.2))) := by
  refine ⟨_, rfl, fun ms hms => ?_⟩
  have hdistinct : ms.Pairwise fun a b => ¬compare a.1 b.1 = .eq := by
    refine (hms.pairwise_iff fun h heq => h ?_).2 (distinct_labels hinj hs)
    exact OrientedCmp.eq_symm heq
  constructor
  · rw [Json.collect, ExtTreeMap.size_ofList hdistinct, hms.length_eq, List.length_map]
    exact ExtTreeMap.length_toList
  · intro k hk
    cases hget : s.get? k with
    | some v =>
      have hmem : (label k, write v) ∈ ms :=
        hms.mem_iff.2 (List.mem_map.2 ⟨(k, v), SparseMap.mem_toList.2 hget, rfl⟩)
      exact ExtTreeMap.getElem?_ofList_of_mem compare_self hdistinct hmem
    | none =>
      apply ExtTreeMap.getElem?_ofList_of_contains_eq_false
      rw [List.contains_eq_mem, decide_eq_false_iff_not]
      intro hmem
      obtain ⟨_, hm, hlabel⟩ := List.mem_map.1 hmem
      obtain ⟨e, he, rfl⟩ := List.mem_map.1 (hms.mem_iff.1 hm)
      -- a stored key of the same label would be `k` itself
      have hkey : e.1 = k := hinj (hs _ (SparseMap.get_ne_empty_of_mem he)) hk hlabel
      have hsome : s.get? e.1 = some e.2 := SparseMap.mem_toList.1 he
      rw [hkey, hget] at hsome
      cases hsome

end

/-! ## places without separators -/

/-- no name in the slot has a separator -/
def Slot.IsPlain : Slot → Prop
  | var s => s.IsPlain
  | receiver m => m.IsPlain
  | param s => s.IsPlain

/-- no name in the cell has a separator -/
def Cell.IsPlain : Cell → Prop
  | field k => k.IsPlain
  | array a => a.IsPlain

/-- no name in the location has a separator -/
def Location.IsPlain : Location → Prop
  | slot s => s.IsPlain
  | field k => k.IsPlain
  | array a => a.IsPlain
  | static f => f.IsPlain

/-- values are found at places with `P` only -/
def HeldAt {α π ν : Type} [EmptyCollection ν] (get : α → π → ν) (P : π → Prop) (a : α) : Prop :=
  ∀ p, get a p ≠ ∅ → P p

/-! ## every kind of state -/

/-- the texts of the values, in order -/
def valueTexts (vs : ValueSet) : Json := .arr (vs.toList.map fun v => .str (toString v))

theorem report_eq_valueTexts : ValueSet.report = valueTexts := by
  funext vs
  show Json.arr ((vs.toList.map toString).map .str) = _
  rw [List.map_map]
  rfl

theorem Store.keeps_report {κ : Type} [Ord κ] [TransOrd κ] [LawfulEqOrd κ] {P : κ → Prop} {label : κ → String}
    {s : Store κ} (hinj : Set.InjOn label {k | P k}) (hs : HeldAt SparseMap.get P s) :
    Keeps P label valueTexts s (s.report label) := by
  rw [← report_eq_valueTexts]
  exact InfoFlow.keeps_report hinj hs

/-- each of the three maps is kept -/
def Frame.Keeps (f : Frame) (j : Json) : Prop :=
  ∃ locals receivers params,
    j = .obj [("locals", locals), ("receivers", receivers), ("parameters", params)] ∧
      InfoFlow.Keeps LocalSlot.IsPlain LocalSlot.label valueTexts f.locals locals ∧
      InfoFlow.Keeps Method.IsPlain Method.receiverLabel valueTexts f.receivers receivers ∧
      InfoFlow.Keeps ParamSlot.IsPlain ParamSlot.label valueTexts f.params params

/-- each of the two maps is kept -/
def Heap.Keeps (h : Heap) (j : Json) : Prop :=
  ∃ fields arrays, j = .obj [("instances", fields), ("arrays", arrays)] ∧
    InfoFlow.Keeps ObjectField.IsPlain toString valueTexts h.fields fields ∧
    InfoFlow.Keeps Address.IsPlain toString valueTexts h.arrays arrays

/-- each of the three parts is kept -/
def Snapshot.Keeps (s : Snapshot) (j : Json) : Prop :=
  ∃ frame heap statics, j = .obj [("frame", frame), ("heap", heap), ("statics", statics)] ∧
    s.frame.Keeps frame ∧ s.heap.Keeps heap ∧
    InfoFlow.Keeps Field.IsPlain Field.signature valueTexts s.statics statics

theorem Field.signature_injOn : Set.InjOn Field.signature {f | f.IsPlain} := Field.delimited_signature.injOn ends_nil

theorem Frame.keeps_report {f : Frame} (hf : HeldAt Frame.get Slot.IsPlain f) : f.Keeps f.report :=
  ⟨_, _, _, rfl, Store.keeps_report LocalSlot.label_injOn fun k => hf (.var k),
    Store.keeps_report Method.receiverLabel_injOn fun k => hf (.receiver k),
    Store.keeps_report ParamSlot.label_injOn fun k => hf (.param k)⟩

theorem Heap.keeps_report {h : Heap} (hh : HeldAt Heap.get Cell.IsPlain h) : h.Keeps h.report :=
  ⟨_, _, rfl, Store.keeps_report ObjectField.text_injOn fun k => hh (.field k),
    Store.keeps_report Address.text_injOn fun k => hh (.array k)⟩

theorem Snapshot.keeps_report {s : Snapshot} (hs : HeldAt Snapshot.get Location.IsPlain s) : s.Keeps s.report := by
  have hframe : HeldAt Frame.get Slot.IsPlain s.frame := fun k => hs (.slot k)
  have hheap : HeldAt Heap.get Cell.IsPlain s.heap := by
    intro c
    cases c with
    | field k => exact hs (.field k)
    | array a => exact hs (.array a)
  exact ⟨_, _, _, rfl, Frame.keeps_report hframe, Heap.keeps_report hheap,
    Store.keeps_report Field.signature_injOn fun k => hs (.static k)⟩

namespace Analysis

/-- context and location have no separators in their names -/
def IsPlainAt (p : Context × Location) : Prop := p.1.IsPlain ∧ p.2.IsPlain

theorem keeps_report {s : Analysis} (hs : HeldAt getAt IsPlainAt s) :
    Keeps Context.IsPlain toString Snapshot.report s s.report ∧ ∀ c, (s.get c).Keeps (s.get c).report := by
  constructor
  · apply InfoFlow.keeps_report Context.text_injOn
    intro c hc
    -- a snapshot other than `∅` holds something at some location
    by_contra hplain
    apply hc
    apply Snapshot.readBy_get.ext
    intro l
    rw [Snapshot.readBy_get.empty]
    by_contra hl
    exact hplain (hs (c, l) hl).1
  · intro c
    exact Snapshot.keeps_report fun l hl => (hs (c, l) hl).2

end Analysis

open Analysis in
/-- **Reports lose no entry.**  Where names have no separators, labels of different keys are different, for each kind
of key.  So in the report of a state whose keys are such, each object has as many members as its map has entries, and
the member named by the label of a key has the texts of exactly the values of that key, or the report of the snapshot
of that context. -/
theorem reports_lose_no_entry :
    (Set.InjOn LocalSlot.label {s | s.IsPlain} ∧ Set.InjOn Method.receiverLabel {m | m.IsPlain} ∧
        Set.InjOn ParamSlot.label {s | s.IsPlain} ∧ Set.InjOn (toString : ObjectField → String) {k | k.IsPlain} ∧
        Set.InjOn (toString : Address → String) {a | a.IsPlain} ∧ Set.InjOn Field.signature {f | f.IsPlain} ∧
        Set.InjOn (toString : Context → String) {c | c.IsPlain}) ∧
      (∀ f : Frame, HeldAt Frame.get Slot.IsPlain f → f.Keeps f.report) ∧
      (∀ h : Heap, HeldAt Heap.get Cell.IsPlain h → h.Keeps h.report) ∧
      (∀ s : Statics, HeldAt SparseMap.get Field.IsPlain s →
        Keeps Field.IsPlain Field.signature valueTexts s s.report) ∧
      (∀ s : Snapshot, HeldAt Snapshot.get Location.IsPlain s → s.Keeps s.report) ∧
      ∀ s : Analysis, HeldAt getAt IsPlainAt s →
        Keeps Context.IsPlain toString Snapshot.report s s.report ∧ ∀ c, (s.get c).Keeps (s.get c).report :=
  ⟨⟨LocalSlot.label_injOn, Method.receiverLabel_injOn, ParamSlot.label_injOn, ObjectField.text_injOn,
      Address.text_injOn, Field.signature_injOn, Context.text_injOn⟩,
    fun _ => Frame.keeps_report, fun _ => Heap.keeps_report, fun _ => Store.keeps_report Field.signature_injOn,
    fun _ => Snapshot.keeps_report, fun _ => Analysis.keeps_report⟩

/-! ## two keys in every map -/

namespace Analysis

/-- states that are noted at plain places hold values at plain places only -/
theorem heldAt_noted {xs : List Addition} (h : ∀ x ∈ xs, IsPlainAt (x.context, x.location)) :
    HeldAt getAt IsPlainAt (noted xs) := by
  intro p hp
  by_contra hplain
  apply hp
  apply ValueSet.ext
  intro v
  rw [mem_getAt_noted]
  refine iff_of_false ?_ (ValueSet.not_mem_empty v)
  intro ⟨x, hx, hxp, _⟩
  exact hplain (hxp ▸ h x hx)

end Analysis

namespace Sample

/-- a method that takes two boxes -/
def moving : Method where
  className := "Van"
  name := "move"
  params := ["Box", "Box"]
  returnType := "void"
  signature := _
  signature_eq := rfl
  className_ne := by decide
  name_ne := by decide
  params_ne := by decide

/-- `main` has called the other method -/
def nested : Context := ⟨.entry main, .call main 1 moving⟩

/-- two places of each kind -/
def places : List Location :=
  [.slot (.var ⟨moving, ⟨"front", "Box", by decide⟩⟩), .slot (.var ⟨moving, ⟨"back", "Box", by decide⟩⟩),
    .slot (.receiver main), .slot (.receiver moving), .slot (.param ⟨moving, ⟨0, "Box"⟩⟩),
    .slot (.param ⟨moving, ⟨1, "Box"⟩⟩), .field ⟨box 1, shared⟩, .field ⟨box 1, hidden⟩, .array (box 1), .array (box 2),
    .static shared, .static hidden]

/-- in either context, each place holds the first box -/
def crowd : List Addition :=
  [startup, nested].flatMap fun c => places.map fun l => ⟨c, l, [.address (box 1)]⟩

theorem mem_crowd {x : Addition} :
    x ∈ crowd ↔ x.context ∈ [startup, nested] ∧ x.location ∈ places ∧ x.values = [.address (box 1)] := by
  rw [crowd, List.mem_flatMap]
  constructor
  · intro ⟨c, hc, hx⟩
    obtain ⟨l, hl, rfl⟩ := List.mem_map.1 hx
    exact ⟨hc, hl, rfl⟩
  · intro ⟨hc, hl, hv⟩
    refine ⟨_, hc, List.mem_map.2 ⟨_, hl, ?_⟩⟩
    rw [← hv]

theorem isPlain_main : main.IsPlain := ⟨by decide, by decide, by decide, by decide⟩

theorem isPlain_moving : moving.IsPlain := ⟨by decide, by decide, by decide, by decide⟩

theorem isPlain_contexts : ∀ c ∈ [startup, nested], c.IsPlain := by
  simp only [List.forall_mem_cons, List.not_mem_nil, false_implies, implies_true, and_true]
  exact ⟨⟨isPlain_main, isPlain_main⟩, isPlain_main, isPlain_main, isPlain_moving⟩

theorem isPlain_places : ∀ l ∈ places, l.IsPlain := by
  have htype : Plain "Box" := by decide
  have hbox : ∀ i, (box i).IsPlain := fun i => ⟨htype, nofun⟩
  have hshared : shared.IsPlain := ⟨by decide, by decide, by decide⟩
  have hhidden : hidden.IsPlain := ⟨by decide, by decide, by decide⟩
  simp only [places, List.forall_mem_cons, List.not_mem_nil, false_implies, implies_true, and_true]
  exact ⟨⟨isPlain_moving, by decide, by decide⟩, ⟨isPlain_moving, by decide, by decide⟩, isPlain_main, isPlain_moving,
    isPlain_moving, isPlain_moving, ⟨hbox 1, hshared⟩, ⟨hbox 1, hhidden⟩, hbox 1, hbox 2, hshared, hhidden⟩

theorem isPlainAt_crowd : ∀ x ∈ crowd, Analysis.IsPlainAt (x.context, x.location) := by
  intro x hx
  obtain ⟨hc, hl, _⟩ := mem_crowd.1 hx
  exact ⟨isPlain_contexts _ hc, isPlain_places _ hl⟩

end Sample

open Analysis Sample in
theorem reports_lose_no_entry_boxes :
    startup ≠ nested ∧ places.Nodup ∧
      (∀ c ∈ [startup, nested], ∀ l ∈ places, Value.address (box 1) ∈ ((noted crowd).get c).get l) ∧
      HeldAt getAt IsPlainAt (noted crowd) ∧
      Keeps Context.IsPlain toString Snapshot.report (noted crowd) (noted crowd).report ∧
      ((noted crowd).get startup).Keeps ((noted crowd).get startup).report ∧
      ((noted crowd).get nested).Keeps ((noted crowd).get nested).report := by
  have hplain := heldAt_noted isPlainAt_crowd
  obtain ⟨hkeeps, hinner⟩ := reports_lose_no_entry.2.2.2.2.2 (noted crowd) hplain
  refine ⟨by decide, by decide, fun c hc l hl => ?_, hplain, hkeeps, hinner startup, hinner nested⟩
  exact (mem_getAt_noted crowd (c, l) _).2 ⟨⟨c, l, _⟩, mem_crowd.2 ⟨hc, hl, rfl⟩, rfl, List.mem_cons_self⟩

end InfoFlow
