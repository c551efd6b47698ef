import Mathlib.Data.Set.Card
import InfoFlow.Proofs.Iteration

/-!
# Counting facts

A fact is a place with a value that is held there.  The size of a state is the number of its facts, summed up
from the sizes of the stored sets.

* `encard_factsOf_get`, one for each kind of state: the sum of sizes is the number of facts;
* `Measure`: merging adds exactly what is new, and taking away never adds;
* `Analysis.fruitful_add_factCount_le`: every round of an iteration that finds something new uses up a fact;
* `fact_count_measures_progress`: all of it, for every kind of state.

The fields and the arrays of a heap and the statics of a snapshot are stores.
-/

namespace InfoFlow

open Std

/-! ## sums of sizes -/

/-- the sum of the sizes of the stored values -/
def SparseMap.total {κ ν : Type} [Ord κ] [TransOrd κ] [EmptyCollection ν] (size : ν → Nat) (s : SparseMap κ ν) :
    Nat := (s.toList.map fun e => size e.2).sum

def Store.factCount {κ : Type} [Ord κ] [TransOrd κ] (s : Store κ) : Nat := s.total ValueSet.size

def Frame.factCount (f : Frame) : Nat := f.locals.factCount + f.receivers.factCount + f.params.factCount

def Heap.factCount (h : Heap) : Nat := h.fields.factCount + h.arrays.factCount

def Snapshot.factCount (s : Snapshot) : Nat := s.frame.factCount + s.heap.factCount + Store.factCount s.statics

def Analysis.factCount (s : Analysis) : Nat := s.total Snapshot.factCount

/-! ## facts -/

/-- the facts that are read by `g`: a place with a value there -/
def factsOf {π : Type} (g : π → ValueSet) : Set (π × Value) := {x | x.2 ∈ g x.1}

theorem mem_factsOf {π : Type} {g : π → ValueSet} {x : π × Value} : x ∈ factsOf g ↔ x.2 ∈ g x.1 := Iff.rfl

theorem factsOf_empty {π : Type} {g : π → ValueSet} (h : ∀ p, g p = ∅) : factsOf g = ∅ := by
  rw [Set.eq_empty_iff_forall_notMem]
  intro x hx
  rw [mem_factsOf, h] at hx
  exact ValueSet.not_mem_empty _ hx

namespace ReadBy

variable {α π : Type} [EmptyCollection α] [Union α] [SDiff α] {get : α → π → ValueSet}

theorem factsOf_union (hg : ReadBy get) (a b : α) :
    factsOf (get (a ∪ b)) = factsOf (get a) ∪ factsOf (get b) := by
  ext x
  rw [Set.mem_union, mem_factsOf, mem_factsOf, mem_factsOf, hg.union, ValueSet.mem_union]

theorem factsOf_diff (hg : ReadBy get) (a b : α) : factsOf (get (a \ b)) = factsOf (get a) \ factsOf (get b) := by
  ext x
  rw [Set.mem_sdiff, mem_factsOf, mem_factsOf, mem_factsOf, hg.diff, ValueSet.mem_diff]

theorem factsOf_eq_empty_iff (hg : ReadBy get) {a : α} : factsOf (get a) = ∅ ↔ a = ∅ := by
  constructor
  · intro h
    apply hg.ext
    intro p
    rw [hg.empty]
    apply ValueSet.subset_antisymm _ (ValueSet.empty_subset _)
    intro v hv
    have hx : (p, v) ∈ factsOf (get a) := hv
    rw [h] at hx
    exact absurd hx (Set.notMem_empty _)
  · rintro rfl
    exact factsOf_empty hg.empty

end ReadBy

/-- `count` grows by exactly what a union brings in, never by a difference, and only nothing counts zero -/
structure Measure {α : Type} [Union α] [SDiff α] (count : α → Nat) (isEmpty : α → Bool) : Prop where
  count_union : ∀ a b : α, count (a ∪ b) = count a + count (b \ a)
  count_diff_le : ∀ a b : α, count (a \ b) ≤ count a
  count_eq_zero_iff : ∀ a : α, count a = 0 ↔ isEmpty a = true

theorem ReadBy.measure {α π : Type} [EmptyCollection α] [Union α] [SDiff α] {get : α → π → ValueSet}
    (hg : ReadBy get) {count : α → Nat} (hc : ∀ a, (factsOf (get a)).encard = count a) {isEmpty : α → Bool}
    (he : ∀ {a}, isEmpty a = true ↔ a = ∅) : Measure count isEmpty where
  count_union a b := by
    have h := Set.encard_sdiff_add_encard (factsOf (get b)) (factsOf (get a))
    rw [Set.union_comm, ← hg.factsOf_diff, ← hg.factsOf_union, hc, hc, hc] at h
    have hn : count (b \ a) + count a = count (a ∪ b) := by exact_mod_cast h
    omega
  count_diff_le a b := by
    have h : (factsOf (get a) \ factsOf (get b)).encard ≤ (factsOf (get a)).encard :=
      Set.encard_le_encard Set.sdiff_subset
    rw [← hg.factsOf_diff, hc, hc] at h
    exact_mod_cast h
  count_eq_zero_iff a := by
    rw [he, ← hg.factsOf_eq_empty_iff, ← Set.encard_eq_zero, hc]
    exact Nat.cast_eq_zero.symm

/-! ## stored entries -/

theorem ValueSet.encard_mem (s : ValueSet) : {v | v ∈ s}.encard = s.size := by
  classical
  have hd : s.toList.Nodup := s.toList_sorted.imp fun {a b} h e => by
    rw [e, compare_self] at h
    cases h
  have hs : {v | v ∈ s} = (s.toList.toFinset : Set Value) := by
    simp only [List.coe_toFinset, mem_toList]
  rw [hs, Set.encard_coe_eq_coe_finsetCard, List.toFinset_card_of_nodup hd, length_toList]

/-- facts of entries with distinct keys are as many as those of each entry together -/
theorem encard_entries {κ ν φ : Type} {F : ν → Set φ} {size : ν → Nat} (hF : ∀ v, (F v).encard = size v)
    {es : List (κ × ν)} (hd : es.Pairwise fun a b => a.1 ≠ b.1) :
    {x : κ × φ | ∃ e ∈ es, e.1 = x.1 ∧ x.2 ∈ F e.2}.encard = ((es.map fun e => size e.2).sum : Nat) := by
  induction es with
  | nil => simp
  | cons e es ih =>
    obtain ⟨he, hes⟩ := List.pairwise_cons.1 hd
    -- the facts of `e` are apart from the others, because no other entry has its key
    have hsplit : {x : κ × φ | ∃ d ∈ e :: es, d.1 = x.1 ∧ x.2 ∈ F d.2} =
        Prod.mk e.1 '' F e.2 ∪ {x | ∃ d ∈ es, d.1 = x.1 ∧ x.2 ∈ F d.2} := by
      ext x
      constructor
      · rintro ⟨d, hd, hk, hy⟩
        rcases List.mem_cons.1 hd with rfl | hd
        · exact .inl ⟨x.2, hy, Prod.ext hk rfl⟩
        · exact .inr ⟨d, hd, hk, hy⟩
      · rintro (⟨y, hy, rfl⟩ | ⟨d, hd, hk, hy⟩)
        · exact ⟨e, List.mem_cons_self, rfl, hy⟩
        · exact ⟨d, List.mem_cons_of_mem _ hd, hk, hy⟩
    have hdisj : Disjoint (Prod.mk e.1 '' F e.2) {x | ∃ d ∈ es, d.1 = x.1 ∧ x.2 ∈ F d.2} := by
      rw [Set.disjoint_left]
      rintro _ ⟨y, _, rfl⟩ ⟨d, hd, hk, _⟩
      exact he d hd hk.symm
    rw [hsplit, Set.encard_union_eq hdisj, Function.Injective.encard_image (Prod.mk_right_injective e.1), hF,
      ih hes, List.map_cons, List.sum_cons, Nat.cast_add]

theorem SparseMap.encard_total {κ ν φ : Type} [Ord κ] [TransOrd κ] [LawfulEqOrd κ] [EmptyCollection ν]
    {F : ν → Set φ} {size : ν → Nat} (hF : ∀ v, (F v).encard = size v) (hempty : F ∅ = ∅) (s : SparseMap κ ν) :
    {x : κ × φ | x.2 ∈ F (s.get x.1)}.encard = s.total size := by
  have hs : {x : κ × φ | x.2 ∈ F (s.get x.1)} = {x | ∃ e ∈ s.toList, e.1 = x.1 ∧ x.2 ∈ F e.2} := by
    ext ⟨k, y⟩
    constructor
    · intro hy
      refine ⟨(k, s.get k), mem_toList.2 (get?_eq_some_iff.2 ⟨rfl, ?_⟩), rfl, hy⟩
      intro h
      have hy : y ∈ F (s.get k) := hy
      rw [h, hempty] at hy
      exact hy
    · rintro ⟨⟨_, v⟩, he, rfl, hy⟩
      show y ∈ F (s.get _)
      rw [(get?_eq_some_iff.1 (mem_toList.1 he)).1]
      exact hy
  have hd : s.toList.Pairwise fun a b => a.1 ≠ b.1 :=
    ExtTreeMap.distinct_keys_toList.imp fun {a b} h e => h (by rw [e]; exact compare_self)
  rw [hs, encard_entries hF hd, total]

theorem Store.encard_factsOf_get {κ : Type} [Ord κ] [TransOrd κ] [LawfulEqOrd κ] (s : Store κ) :
    (factsOf s.get).encard = s.factCount := by
  have hempty : {v | v ∈ (∅ : ValueSet)} = ∅ := Set.eq_empty_iff_forall_notMem.2 ValueSet.not_mem_empty
  exact SparseMap.encard_total ValueSet.encard_mem hempty s

/-! ## places of several kinds -/

/-- facts at places of two kinds are those at the one and those at the other -/
theorem encard_factsOf_kinds {π π₁ π₂ : Type} (e : π₁ ⊕ π₂ ≃ π) (g : π → ValueSet) :
    (factsOf g).encard = (factsOf fun p => g (e (.inl p))).encard + (factsOf fun q => g (e (.inr q))).encard := by
  have hi : Function.Injective (Prod.map (fun p => e (.inl p)) id : π₁ × Value → π × Value) :=
    (e.injective.comp Sum.inl_injective).prodMap Function.injective_id
  have hj : Function.Injective (Prod.map (fun q => e (.inr q)) id : π₂ × Value → π × Value) :=
    (e.injective.comp Sum.inr_injective).prodMap Function.injective_id
  have hsplit : factsOf g = (Prod.map (fun p => e (.inl p)) id '' factsOf fun p => g (e (.inl p))) ∪
      Prod.map (fun q => e (.inr q)) id '' factsOf fun q => g (e (.inr q)) := by
    ext ⟨r, v⟩
    constructor
    · intro hv
      obtain ⟨p | q, rfl⟩ := e.surjective r
      · exact .inl ⟨(p, v), hv, rfl⟩
      · exact .inr ⟨(q, v), hv, rfl⟩
    · rintro (⟨⟨p, w⟩, hw, h⟩ | ⟨⟨q, w⟩, hw, h⟩)
      · cases h
        exact hw
      · cases h
        exact hw
  have hdisj : Disjoint (Prod.map (fun p => e (.inl p)) id '' factsOf fun p => g (e (.inl p)))
      (Prod.map (fun q => e (.inr q)) id '' factsOf fun q => g (e (.inr q))) := by
    rw [Set.disjoint_left]
    rintro _ ⟨p, _, rfl⟩ ⟨q, _, h⟩
    exact nomatch e.injective (congrArg Prod.fst h)
  rw [hsplit, Set.encard_union_eq hdisj, hi.encard_image, hj.encard_image]

/-- the three kinds of slots -/
def Slot.kinds : LocalSlot ⊕ Method ⊕ ParamSlot ≃ Slot where
  toFun
    | .inl s => .var s
    | .inr (.inl m) => .receiver m
    | .inr (.inr s) => .param s
  invFun
    | .var s => .inl s
    | .receiver m => .inr (.inl m)
    | .param s => .inr (.inr s)
  left_inv := by rintro (_ | _ | _) <;> rfl
  right_inv := by rintro (_ | _ | _) <;> rfl

/-- the two kinds of cells -/
def Cell.kinds : ObjectField ⊕ Address ≃ Cell where
  toFun
    | .inl k => .field k
    | .inr a => .array a
  invFun
    | .field k => .inl k
    | .array a => .inr a
  left_inv := by rintro (_ | _) <;> rfl
  right_inv := by rintro (_ | _) <;> rfl

/-- locations are slots, cells or static fields -/
def Location.kinds : Slot ⊕ Cell ⊕ Field ≃ Location where
  toFun
    | .inl p => .slot p
    | .inr (.inl c) => c.location
    | .inr (.inr f) => .static f
  invFun
    | .slot p => .inl p
    | .field k => .inr (.inl (.field k))
    | .array a => .inr (.inl (.array a))
    | .static f => .inr (.inr f)
  left_inv := by rintro (_ | (_ | _) | _) <;> rfl
  right_inv := by rintro (_ | _ | _ | _) <;> rfl

theorem Frame.encard_factsOf_get (f : Frame) : (factsOf f.get).encard = f.factCount := by
  rw [encard_factsOf_kinds Slot.kinds, encard_factsOf_kinds (.refl _) fun q => f.get (Slot.kinds (.inr q))]
  show (factsOf f.locals.get).encard + ((factsOf f.receivers.get).encard + (factsOf f.params.get).encard) = _
  rw [Store.encard_factsOf_get, Store.encard_factsOf_get, Store.encard_factsOf_get, factCount, Nat.cast_add,
    Nat.cast_add, add_assoc]

theorem Heap.encard_factsOf_get (h : Heap) : (factsOf h.get).encard = h.factCount := by
  rw [encard_factsOf_kinds Cell.kinds]
  show (factsOf h.fields.get).encard + (factsOf h.arrays.get).encard = _
  rw [Store.encard_factsOf_get, Store.encard_factsOf_get, factCount, Nat.cast_add]

theorem Snapshot.encard_factsOf_get (s : Snapshot) : (factsOf s.get).encard = s.factCount := by
  rw [encard_factsOf_kinds Location.kinds, encard_factsOf_kinds (.refl _) fun q => s.get (Location.kinds (.inr q))]
  have hc : (fun c => s.get (Location.kinds (.inr (.inl c)))) = s.heap.get := funext s.get_location
  show (factsOf s.frame.get).encard +
    ((factsOf fun c => s.get (Location.kinds (.inr (.inl c)))).encard + (factsOf s.statics.get).encard) = _
  rw [hc, Frame.encard_factsOf_get, Heap.encard_factsOf_get, Store.encard_factsOf_get, factCount, Nat.cast_add,
    Nat.cast_add, add_assoc]

/-! ## contexts -/

namespace Analysis

theorem encard_factsOf_getAt (s : Analysis) : (factsOf s.getAt).encard = s.factCount := by
  have hs : Equiv.prodAssoc Context Location Value '' factsOf s.getAt =
      {x : Context × Location × Value | x.2 ∈ factsOf (s.get x.1).get} := by
    ext ⟨c, l, v⟩
    constructor
    · rintro ⟨x, hx, h⟩
      cases h
      exact hx
    · intro hx
      exact ⟨((c, l), v), hx, rfl⟩
  rw [← (Equiv.prodAssoc Context Location Value).injective.encard_image, hs]
  exact SparseMap.encard_total Snapshot.encard_factsOf_get (factsOf_empty Snapshot.readBy_get.empty) s

theorem measure_factCount : Measure factCount SparseMap.isEmpty :=
  readBy_getAt.measure encard_factsOf_getAt SparseMap.isEmpty_iff

/-! ## iterations -/

/-- how many of the states find something new when they are taken in -/
def fruitful (s : Analysis) (nexts : List Analysis) : Nat := (deltas full s nexts).countP fun d => !d.isEmpty

theorem factsOf_iterate_subset {U : Set ((Context × Location) × Value)} {s : Analysis} {nexts : List Analysis}
    (hs : factsOf s.getAt ⊆ U) (hn : ∀ next ∈ nexts, factsOf next.getAt ⊆ U) :
    factsOf (iterate full s nexts).getAt ⊆ U := by
  induction nexts generalizing s with
  | nil => exact hs
  | cons next rest ih =>
    have hfull : factsOf (full s next).getAt ⊆ U := by
      rw [full, readBy_getAt.factsOf_union]
      exact Set.union_subset hs (hn next List.mem_cons_self)
    exact ih hfull fun x hx => hn x (List.mem_cons_of_mem _ hx)

/-- every round that finds something new uses up a fact -/
theorem fruitful_add_factCount_le (s : Analysis) (nexts : List Analysis) :
    s.fruitful nexts + s.factCount ≤ (iterate full s nexts).factCount := by
  induction nexts generalizing s with
  | nil => exact (Nat.zero_add _).le
  | cons next rest ih =>
    have hrest : (full s next).fruitful rest + (full s next).factCount ≤ _ := ih (full s next)
    have hu : (full s next).factCount = s.factCount + (next \ s).factCount := measure_factCount.count_union s next
    have hd := measure_factCount.count_eq_zero_iff (next \ s)
    show s.fruitful (next :: rest) + _ ≤ (iterate full (full s next) rest).factCount
    rw [fruitful, deltas, List.countP_cons, ← fruitful]
    cases he : SparseMap.isEmpty (next \ s) with
    | true =>
      simp only [Bool.not_true, Bool.false_eq_true, if_false]
      omega
    | false =>
      have hpos : (next \ s).factCount ≠ 0 := fun h => by
        rw [hd.1 h] at he
        cases he
      simp only [Bool.not_false, if_true]
      omega

theorem fruitful_le_card {U : Finset ((Context × Location) × Value)} {s : Analysis} {nexts : List Analysis}
    (hs : factsOf s.getAt ⊆ U) (hn : ∀ next ∈ nexts, factsOf next.getAt ⊆ U) :
    s.fruitful nexts ≤ U.card := by
  have hcard := Set.encard_le_encard (factsOf_iterate_subset hs hn)
  rw [encard_factsOf_getAt, Set.encard_coe_eq_coe_finsetCard, Nat.cast_le] at hcard
  have hsum := fruitful_add_factCount_le s nexts
  omega

end Analysis

open Analysis in
/-- **The number of facts measures progress.**  For stores with any keys, frames, heaps, snapshots and analyses, a
union has the facts of one side and what is new in the other.  So when all facts of an iteration are among `N`,
at most `N` rounds find something new. -/
theorem fact_count_measures_progress :
    (∀ (κ : Type) [Ord κ] [TransOrd κ] [LawfulEqOrd κ],
        Measure (Store.factCount : Store κ → Nat) SparseMap.isEmpty) ∧
      Measure Frame.factCount Frame.isEmpty ∧ Measure Heap.factCount Heap.isEmpty ∧
      Measure Snapshot.factCount Snapshot.isEmpty ∧ Measure Analysis.factCount SparseMap.isEmpty ∧
      ∀ (s : Analysis) (nexts : List Analysis) (U : Finset ((Context × Location) × Value)),
        factsOf s.getAt ⊆ U → (∀ next ∈ nexts, factsOf next.getAt ⊆ U) →
        s.fruitful nexts ≤ U.card :=
  ⟨fun _ _ _ _ => SparseMap.readBy_get.measure Store.encard_factsOf_get SparseMap.isEmpty_iff,
    Frame.readBy_get.measure Frame.encard_factsOf_get Frame.isEmpty_iff,
    Heap.readBy_get.measure Heap.encard_factsOf_get Heap.isEmpty_iff,
    Snapshot.readBy_get.measure Snapshot.encard_factsOf_get Snapshot.isEmpty_iff, Analysis.measure_factCount,
    fun _ _ _ hs hn => fruitful_le_card hs hn⟩

namespace Sample

theorem getAt_seen (is : List Nat) (c : Context) (l : Location) : (seen is).getAt (c, l) =
    if startup = c then if .static shared = l then .ofList (is.map fun i => .address (box i)) else ∅ else ∅ := by
  rw [Analysis.getAt, seen, SparseMap.get_set, SparseMap.get_empty]
  split
  · rw [Snapshot.get_write, Snapshot.readBy_get.empty]
    rfl
  · exact Snapshot.readBy_get.empty l

/-- either of two boxes in the static field -/
def boxFacts : Finset ((Context × Location) × Value) :=
  {((startup, .static shared), .address (box 1)), ((startup, .static shared), .address (box 2))}

theorem factsOf_seen_subset {is : List Nat} (h : ∀ i ∈ is, i = 1 ∨ i = 2) : factsOf (seen is).getAt ⊆ boxFacts := by
  rintro ⟨⟨c, l⟩, v⟩ hx
  have hv : v ∈ (seen is).getAt (c, l) := hx
  rw [getAt_seen] at hv
  split at hv
  · next hc =>
    split at hv
    · next hl =>
      subst hc hl
      obtain ⟨i, hi, rfl⟩ := List.mem_map.1 (ValueSet.mem_ofList.1 hv)
      rcases h i hi with rfl | rfl <;> simp [boxFacts]
    · exact absurd hv (ValueSet.not_mem_empty v)
  · exact absurd hv (ValueSet.not_mem_empty v)

end Sample

open Analysis Sample in
theorem fact_count_measures_progress_boxes :
    factsOf (seen [1]).getAt ⊆ boxFacts ∧
      (∀ next ∈ [seen [2], seen [1, 2]], factsOf next.getAt ⊆ boxFacts) ∧
      (seen [1]).fruitful [seen [2], seen [1, 2]] ≤ boxFacts.card := by
  have hs : factsOf (seen [1]).getAt ⊆ boxFacts := factsOf_seen_subset (by decide)
  have hn : ∀ next ∈ [seen [2], seen [1, 2]], factsOf next.getAt ⊆ boxFacts := by
    intro next h
    rcases List.mem_pair.1 h with rfl | rfl
    · exact factsOf_seen_subset (by decide)
    · exact factsOf_seen_subset (by decide)
  exact ⟨hs, hn, fact_count_measures_progress.2.2.2.2.2 _ _ _ hs hn⟩

end InfoFlow
