import Mathlib.Data.List.Sort
import InfoFlow.Proofs.Sparsity
import InfoFlow.Proofs.Iteration

/-!
# Histories of weak writes

A weak write leaves what was there and adds its own values.  After a list of them a location holds the values of
the writes that named it, so that neither their order nor their grouping can be told from the states.  Nor can it
be told from the text of the states, which is made from the values at each place alone:

* `Analysis.mem_getAt_noteAll`: what a location holds after a list of weak writes;
* `SparseMap.Shows`, `Snapshot.Shows`, ...: what a text of a state has to be, said by its values;
* `SparseMap.shows_iff`, `Snapshot.shows_iff`, ...: there is one such text, and it is the one printed;
* `history_does_not_show`: both, for every list of weak writes and every kind of state.
-/

namespace InfoFlow

open Std

/-! ## weak writes -/

/-- values to add at one location in one context -/
structure Addition where
  context : Context
  location : Location
  values : List Value

namespace Analysis

/-- takes the snapshot of the context, adds the values to it, and puts it back -/
def note (s : Analysis) (x : Addition) : Analysis :=
  (s.put x.context ((s.get x.context).write x.location (.weak (.ofList x.values))).2).2

/-- the states after a list of additions -/
def noteAll (s : Analysis) (xs : List Addition) : Analysis := xs.foldl note s

/-- the states of a list of additions alone -/
def noted (xs : List Addition) : Analysis := noteAll ∅ xs

theorem getAt_note (s : Analysis) (x : Addition) (c : Context) (l : Location) :
    (s.note x).getAt (c, l) =
      if x.context = c ∧ x.location = l then s.getAt (c, l) ∪ .ofList x.values else s.getAt (c, l) := by
  show ((s.write x.context (.strong _)).2.get c).get l = _
  rw [SparseMap.get_write]
  by_cases hc : x.context = c
  · subst hc
    rw [if_pos rfl]
    show (((s.get x.context).write x.location (.weak (.ofList x.values))).2).get l = _
    rw [Snapshot.get_write]
    simp only [true_and]
    rfl
  · rw [if_neg hc, if_neg fun h => hc h.1]
    rfl

theorem mem_getAt_note (s : Analysis) (x : Addition) (p : Context × Location) (v : Value) :
    v ∈ (s.note x).getAt p ↔ v ∈ s.getAt p ∨ (x.context, x.location) = p ∧ v ∈ x.values := by
  obtain ⟨c, l⟩ := p
  rw [getAt_note, Prod.mk.injEq]
  by_cases h : x.context = c ∧ x.location = l
  · rw [if_pos h, ValueSet.mem_union, ValueSet.mem_ofList]
    exact or_congr_right (and_iff_right h).symm
  · rw [if_neg h]
    exact (or_iff_left fun hv => h hv.1).symm

theorem mem_getAt_noteAll (s : Analysis) (xs : List Addition) (p : Context × Location) (v : Value) :
    v ∈ (s.noteAll xs).getAt p ↔ v ∈ s.getAt p ∨ ∃ x ∈ xs, (x.context, x.location) = p ∧ v ∈ x.values := by
  induction xs generalizing s with
  | nil =>
    show v ∈ s.getAt p ↔ _
    simp
  | cons x xs ih =>
    show v ∈ ((s.note x).noteAll xs).getAt p ↔ _
    rw [ih, mem_getAt_note, List.exists_mem_cons_iff, or_assoc]

theorem mem_getAt_noted (xs : List Addition) (p : Context × Location) (v : Value) :
    v ∈ (noted xs).getAt p ↔ ∃ x ∈ xs, (x.context, x.location) = p ∧ v ∈ x.values := by
  rw [noted, mem_getAt_noteAll, readBy_getAt.empty]
  exact or_iff_right (ValueSet.not_mem_empty v)

/-- only which additions there are matters -/
theorem noted_congr {xs ys : List Addition} (h : ∀ x, x ∈ xs ↔ x ∈ ys) : noted xs = noted ys := by
  apply readBy_getAt.ext
  intro p
  apply ValueSet.ext
  intro v
  rw [mem_getAt_noted, mem_getAt_noted]
  exact exists_congr fun x => and_congr_left fun _ => h x

theorem noteAll_noted (xs ys : List Addition) : (noted xs).noteAll ys = noted xs ∪ noted ys := by
  apply readBy_getAt.ext
  intro p
  apply ValueSet.ext
  intro v
  rw [mem_getAt_noteAll, readBy_getAt.union, ValueSet.mem_union, mem_getAt_noted ys]

end Analysis

/-! ## texts -/

section
variable {κ : Type} [Ord κ] [TransOrd κ] [LawfulEqOrd κ]

/-- a list in strictly increasing order is determined by its members -/
theorem eq_of_increasing {xs ys : List κ} (hx : xs.Pairwise (compare · · = .lt)) (hy : ys.Pairwise (compare · · = .lt))
    (h : ∀ k, k ∈ xs ↔ k ∈ ys) : xs = ys := by
  have irrefl : ∀ a : κ, compare a a ≠ .lt := fun a => by simp
  have antisymm : ∀ a b : κ, compare a b = .lt → compare b a = .lt → a = b :=
    fun a _ hab hba => absurd (TransCmp.lt_trans hab hba) (irrefl a)
  have : Std.Irrefl fun a b : κ => compare a b = .lt := ⟨irrefl⟩
  have : Std.Antisymm fun a b : κ => compare a b = .lt := ⟨antisymm⟩
  exact hx.eq_of_mem_iff hy h

end

/-- entries whose values depend on their keys are determined by their keys -/
theorem map_key_value {κ ν : Type} {f : κ → ν} {es : List (κ × ν)} (h : ∀ e ∈ es, f e.1 = e.2) :
    (es.map Prod.fst).map (fun k => (k, f k)) = es := by
  rw [List.map_map]
  refine (List.map_congr_left fun e he => ?_).trans (List.map_id es)
  show (e.1, f e.1) = e
  rw [h e he]

/-- the members in strictly increasing order, in brackets -/
def ValueSet.Shows (s : ValueSet) (text : String) : Prop :=
  ∃ vs : List Value, vs.Pairwise (compare · · = .lt) ∧ (∀ v, v ∈ vs ↔ v ∈ s) ∧
    text = "[" ++ ", ".intercalate (vs.map toString) ++ "]"

theorem ValueSet.shows_iff (s : ValueSet) (text : String) : s.Shows text ↔ text = toString s := by
  constructor
  · intro ⟨vs, hs, hm, ht⟩
    have hvs : vs = s.toList := eq_of_increasing hs s.toList_sorted fun v => (hm v).trans mem_toList.symm
    rw [ht, hvs]
    rfl
  · intro ht
    exact ⟨s.toList, s.toList_sorted, fun _ => mem_toList, ht⟩

namespace SparseMap

variable {κ ν : Type} [Ord κ] [TransOrd κ] [EmptyCollection ν]

/-- the keys in strictly increasing order, each with a text of its value, in braces; only the values other than `∅`
    are shown -/
def Shows [ToString κ] (shows : ν → String → Prop) (s : SparseMap κ ν) (text : String) : Prop :=
  ∃ es : List (κ × String), es.Pairwise (compare ·.1 ·.1 = .lt) ∧ (∀ k, k ∈ es.map Prod.fst ↔ s.get k ≠ ∅) ∧
    (∀ e ∈ es, shows (s.get e.1) e.2) ∧
    text = "\x7b" ++ ", ".intercalate (es.map fun e => toString e.1 ++ "=" ++ e.2) ++ "\x7d"

variable [LawfulEqOrd κ]

theorem mem_keys {s : SparseMap κ ν} {k : κ} : k ∈ s.keys ↔ s.get k ≠ ∅ := by
  rw [keys, ExtTreeMap.mem_keys, ExtTreeMap.mem_iff_isSome_getElem?, Option.isSome_iff_ne_none, ne_eq,
    s.sparse.getElem?_eq_none_iff]
  rfl

theorem toList_eq_map_keys (s : SparseMap κ ν) : s.toList = s.keys.map fun k => (k, s.get k) := by
  rw [keys, ← ExtTreeMap.map_fst_toList_eq_keys]
  exact (map_key_value fun e he => (get?_eq_some_iff.1 (mem_toList.1 he)).1).symm

theorem shows_iff [ToString κ] [ToString ν] {shows : ν → String → Prop}
    (hshows : ∀ v text, shows v text ↔ text = toString v) (s : SparseMap κ ν) (text : String) :
    s.Shows shows text ↔ text = toString s := by
  have hs : toString s = "\x7b" ++ ", ".intercalate
      ((s.keys.map fun k => (k, toString (s.get k))).map fun e => toString e.1 ++ "=" ++ e.2) ++ "\x7d" := by
    show "\x7b" ++ ", ".intercalate (s.toList.map _) ++ "\x7d" = _
    rw [toList_eq_map_keys, List.map_map, List.map_map]
    rfl
  have hfst : ∀ ks : List κ, (ks.map fun k => (k, toString (s.get k))).map Prod.fst = ks := by
    intro ks
    rw [List.map_map]
    exact List.map_id ks
  constructor
  · intro ⟨es, hsorted, hm, hv, ht⟩
    -- the keys and then the texts of the values leave no choice for the entries
    have hkeys : es.map Prod.fst = s.keys :=
      eq_of_increasing (List.pairwise_map.2 hsorted) ExtTreeMap.ordered_keys fun k => (hm k).trans mem_keys.symm
    have hes : (es.map Prod.fst).map (fun k => (k, toString (s.get k))) = es :=
      map_key_value fun e he => ((hshows _ _).1 (hv e he)).symm
    rw [ht, hs, ← hes, hkeys]
  · intro ht
    refine ⟨s.keys.map fun k => (k, toString (s.get k)), ?_, fun k => ?_, fun e he => ?_, ht.trans hs⟩
    · exact List.pairwise_map.2 ExtTreeMap.ordered_keys
    · rw [hfst]
      exact mem_keys
    · obtain ⟨k, _, rfl⟩ := List.mem_map.1 he
      exact (hshows _ _).2 rfl

/-- the entries can be stored in any order, and are then sorted by key -/
theorem mergeSort_eq_toList (s : SparseMap κ ν) {es : List (κ × ν)} (h : es.Perm s.toList) :
    es.mergeSort (fun a b => (compare a.1 b.1).isLE) = s.toList := by
  have htrans : ∀ a b c : κ × ν, (compare a.1 b.1).isLE → (compare b.1 c.1).isLE → (compare a.1 c.1).isLE :=
    fun _ _ _ => TransCmp.isLE_trans
  have htotal : ∀ a b : κ × ν, ((compare a.1 b.1).isLE || (compare b.1 a.1).isLE) = true := by
    intro a b
    have hswap : compare b.1 a.1 = (compare a.1 b.1).swap := OrientedCmp.eq_swap
    rw [hswap]
    cases compare a.1 b.1 <;> rfl
  have hsort := List.pairwise_mergeSort htrans htotal es
  have hperm : (es.mergeSort fun a b => (compare a.1 b.1).isLE).Perm s.toList := (List.mergeSort_perm _ _).trans h
  refine hperm.eq_of_pairwise (fun a b ha hb hab hba => ?_) hsort
    (ExtTreeMap.ordered_keys_toList.imp fun h => by rw [h]; rfl)
  -- two entries of one key have the value of that key
  have hk : a.1 = b.1 := Std.compare_eq_iff_eq.1 (OrientedCmp.isLE_antisymm hab hba)
  have hva := (get?_eq_some_iff.1 (mem_toList.1 (hperm.mem_iff.1 ha))).1
  have hvb := (get?_eq_some_iff.1 (mem_toList.1 hb)).1
  exact Prod.ext hk (by rw [← hva, ← hvb, hk])

end SparseMap

/-- a text of each of the three maps -/
def Frame.Shows (f : Frame) (text : String) : Prop :=
  ∃ locals receivers params, f.locals.Shows ValueSet.Shows locals ∧ f.receivers.Shows ValueSet.Shows receivers ∧
    f.params.Shows ValueSet.Shows params ∧ text = "(" ++ locals ++ ", " ++ receivers ++ ", " ++ params ++ ")"

/-- a text of each of the two maps -/
def Heap.Shows (h : Heap) (text : String) : Prop :=
  ∃ fields arrays, h.fields.Shows ValueSet.Shows fields ∧ h.arrays.Shows ValueSet.Shows arrays ∧
    text = "(" ++ fields ++ ", " ++ arrays ++ ")"

/-- a text of each of the three parts -/
def Snapshot.Shows (s : Snapshot) (text : String) : Prop :=
  ∃ frame heap statics, s.frame.Shows frame ∧ s.heap.Shows heap ∧ s.statics.Shows ValueSet.Shows statics ∧
    text = "(" ++ frame ++ ", " ++ heap ++ ", " ++ statics ++ ")"

theorem Frame.shows_iff (f : Frame) (text : String) : f.Shows text ↔ text = toString f := by
  simp only [Frame.Shows, SparseMap.shows_iff ValueSet.shows_iff]
  simp only [exists_and_left, exists_eq_left]
  rfl

theorem Heap.shows_iff (h : Heap) (text : String) : h.Shows text ↔ text = toString h := by
  simp only [Heap.Shows, SparseMap.shows_iff ValueSet.shows_iff]
  simp only [exists_and_left, exists_eq_left]
  rfl

theorem Snapshot.shows_iff (s : Snapshot) (text : String) : s.Shows text ↔ text = toString s := by
  simp only [Snapshot.Shows, Frame.shows_iff, Heap.shows_iff, SparseMap.shows_iff ValueSet.shows_iff]
  simp only [exists_and_left, exists_eq_left]
  rfl

/-- the text is made from the values alone: it is the only text of the state, and equal states have equal texts -/
structure TextOfValues {α : Type} [DecidableEq α] [ToString α] (Shows : α → String → Prop) : Prop where
  shows_iff : ∀ a text, Shows a text ↔ text = toString a
  text_eq : ∀ a b : α, (a == b) = true → toString a = toString b

theorem textOfValues {α : Type} [DecidableEq α] [ToString α] {Shows : α → String → Prop}
    (h : ∀ a text, Shows a text ↔ text = toString a) : TextOfValues Shows where
  shows_iff := h
  text_eq a b hab := by rw [eq_of_beq hab]

theorem Entries.Built.text_eq {κ ν : Type} [Ord κ] [TransOrd κ] [LawfulEqOrd κ] [DecidableEq ν] [EmptyCollection ν]
    [Union ν] [SDiff ν] [Facts ν] [ToString κ] [ToString ν] {t u : Entries κ ν} (ht : t.Built) (hu : u.Built)
    (h : t.agrees u = true) :
    toString (⟨t, ht.sparse⟩ : SparseMap κ ν) = toString (⟨u, hu.sparse⟩ : SparseMap κ ν) := by
  obtain rfl : t = u := (ht.sparse.agrees_iff hu.sparse).1 h
  rfl

open Analysis in
/-- **History does not show.**  After a list of weak writes each location holds the values that were written to it.
So every order of the writes gives the same states and the same text, and two lists one after the other give the
union of what each gives alone.  Tables that agree have one text, whatever operations they come from and in whatever
order their entries are stored, and the text of a state shows each key that has a value once, in strictly
increasing order. -/
theorem history_does_not_show :
    (∀ xs p v, v ∈ (noted xs).getAt p ↔ ∃ x ∈ xs, (x.context, x.location) = p ∧ v ∈ x.values) ∧
      (∀ xs ys, xs.Perm ys → noted xs = noted ys ∧ toString (noted xs) = toString (noted ys)) ∧
      (∀ xs ys, (noted xs).noteAll ys = noted xs ∪ noted ys) ∧
      (∀ (κ ν : Type) [Ord κ] [TransOrd κ] [LawfulEqOrd κ] [DecidableEq ν] [EmptyCollection ν] [Union ν] [SDiff ν]
          [Facts ν] [ToString κ] [ToString ν],
        (∀ (t u : Entries κ ν) (ht : t.Built) (hu : u.Built), t.agrees u = true →
            toString (⟨t, ht.sparse⟩ : SparseMap κ ν) = toString (⟨u, hu.sparse⟩ : SparseMap κ ν)) ∧
          ∀ (s : SparseMap κ ν) (es : List (κ × ν)), es.Perm s.toList →
            es.mergeSort (fun a b => (compare a.1 b.1).isLE) = s.toList) ∧
      (∀ (κ : Type) [Ord κ] [TransOrd κ] [LawfulEqOrd κ] [ToString κ],
        TextOfValues (SparseMap.Shows ValueSet.Shows : Store κ → String → Prop)) ∧
      TextOfValues Frame.Shows ∧ TextOfValues Heap.Shows ∧ TextOfValues Snapshot.Shows ∧
      TextOfValues (SparseMap.Shows Snapshot.Shows : Analysis → String → Prop) := by
  refine ⟨mem_getAt_noted, fun xs ys h => ?_, noteAll_noted, fun κ ν _ _ _ _ _ _ _ _ _ _ => ?_,
    fun κ _ _ _ _ => textOfValues (SparseMap.shows_iff ValueSet.shows_iff), textOfValues Frame.shows_iff,
    textOfValues Heap.shows_iff, textOfValues Snapshot.shows_iff,
    textOfValues (SparseMap.shows_iff Snapshot.shows_iff)⟩
  · have hxy : noted xs = noted ys := noted_congr fun x => h.mem_iff
    exact ⟨hxy, by rw [hxy]⟩
  · exact ⟨fun t u ht hu h => ht.text_eq hu h, fun s es h => s.mergeSort_eq_toList h⟩

open Analysis Sample in
theorem history_does_not_show_boxes :
    let x : Addition := ⟨startup, .static shared, [.address (box 2), .address (box 1), .address (box 2)]⟩
    let y : Addition := ⟨startup, .array (box 1), []⟩
    let z : Addition := ⟨startup, .static shared, [.address (box 1)]⟩
    [x, y, z].Perm [z, x, y] ∧ noted [x, y, z] = noted [z, x, y] ∧
      toString (noted [x, y, z]) = toString (noted [z, x, y]) := by
  intro x y z
  have h : ([x, y] ++ [z]).Perm ([z] ++ [x, y]) := List.perm_append_comm
  exact ⟨h, history_does_not_show.2.1 _ _ h⟩

end InfoFlow
