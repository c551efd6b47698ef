import Mathlib.Data.Set.Card
import InfoFlow.Proofs.Lattice

/-!
# Histories of tables

A table can be put to, added to, erased from, merged, subtracted and filtered any number of times.  The tables
that come out of such a history are the sparse ones (`Entries.Built.sparse`, `Entries.Sparse.built`), so that
their entries tell what their values are:

* `Entries.Canonical`: no `∅` is stored, the one-sided test for equal contents compares all values, and the
  entries are as many as the values other than `∅`;
* `Extensional`: states of one kind are equal when they have the same values at each place;
* `equality_is_extensional`: both, for the tables of any history and for every kind of state.
-/

namespace InfoFlow

open Std

namespace Entries

variable {κ ν : Type} [Ord κ] [TransOrd κ] [DecidableEq ν] [EmptyCollection ν] [Union ν] {t u : Entries κ ν}

/-! ## joining without a look at the values -/

/-- the table with every entry of the list joined to it, also an entry of `∅` -/
def joinAll (t : Entries κ ν) (es : List (κ × ν)) : Entries κ ν := es.foldl (fun t e => t.join e.1 e.2) t

theorem joinAll_eq_addAll (t : Entries κ ν) {es : List (κ × ν)} (h : ∀ e ∈ es, e.2 ≠ ∅) :
    t.joinAll es = t.addAll es := by
  induction es generalizing t with
  | nil => rfl
  | cons e es ih =>
    have he : t.add e.1 e.2 = t.join e.1 e.2 := if_neg (h e List.mem_cons_self)
    show (t.join e.1 e.2).joinAll es = (t.add e.1 e.2).addAll es
    rw [he]
    exact ih _ fun e' he' => h e' (List.mem_cons_of_mem _ he')

variable [LawfulEqOrd κ]

omit [DecidableEq ν] [Union ν] in
theorem Sparse.ne_empty_of_mem (h : t.Sparse) {e : κ × ν} (he : e ∈ t.toList) : e.2 ≠ ∅ :=
  (h.getElem?_eq_some_iff.1 (ExtTreeMap.mem_toList_iff_getElem?_eq_some.1 he)).2

/-- a sparse table can be merged without a look at its values -/
theorem Sparse.joinAll_perm (hu : u.Sparse) (t : Entries κ ν) {es : List (κ × ν)} (hes : es.Perm u.toList) :
    t.joinAll es = t.addAll es :=
  joinAll_eq_addAll t fun _ he => hu.ne_empty_of_mem (hes.mem_iff.1 he)

variable [SDiff ν] [Facts ν]

/-! ## histories -/

/-- the table comes out of a history of operations -/
inductive Built : Entries κ ν → Prop
  | empty : Built ∅
  | put {t : Entries κ ν} (ht : Built t) (k : κ) (v : ν) : Built (t.put k v)
  | add {t : Entries κ ν} (ht : Built t) (k : κ) (v : ν) : Built (t.add k v)
  | erase {t : Entries κ ν} (ht : Built t) (k : κ) : Built (t.erase k)
  /-- any list can be collected, with keys that occur twice and entries of `∅` -/
  | collect {t : Entries κ ν} (ht : Built t) (es : List (κ × ν)) : Built (t.addAll es)
  /-- the entries of a table are gone through in any order, here and in a difference -/
  | merge {t u : Entries κ ν} (ht : Built t) (hu : Built u) {es : List (κ × ν)} (hes : es.Perm u.toList) :
      Built (t.joinAll es)
  | minus {t u : Entries κ ν} (ht : Built t) (hu : Built u) {es : List (κ × ν)} (hes : es.Perm t.toList) :
      Built (diffAll es u)
  | filter {t : Entries κ ν} (ht : Built t) (p : κ → Bool) : Built (t.filter fun k _ => p k)

theorem Built.sparse (h : Built t) : t.Sparse := by
  induction h with
  | empty => exact .empty
  | put _ k v ih => exact ih.put k v
  | add _ k v ih => exact ih.add k v
  | erase _ k ih => exact ih.erase k
  | collect _ es ih => exact ih.addAll es
  | merge _ _ hes iht ihu =>
    -- nothing but the history of the second table keeps `∅` out here
    rw [ihu.joinAll_perm _ hes]
    exact iht.addAll _
  | minus _ _ _ _ _ => exact .diffAll _ _
  | filter _ p ih => exact ih.filter p

/-- a sparse table is collected from its own entries -/
theorem Sparse.built (h : t.Sparse) : Built t := by
  have ht : Entries.addAll ∅ t.toList = t := by
    apply Sparse.ext (Sparse.empty.addAll _) h
    intro k
    rw [lookup_addAll_toList, lookup_empty, Facts.empty_union]
  rw [← ht]
  exact Built.empty.collect _

/-! ## entries and values -/

omit [DecidableEq ν] [Union ν] [SDiff ν] [Facts ν] in
theorem Sparse.encard_support (h : t.Sparse) : {k | t.lookup k ≠ ∅}.encard = t.size := by
  classical
  have hk : {k | t.lookup k ≠ ∅} = (t.keys.toFinset : Set κ) := by
    ext k
    rw [Set.mem_ofPred_eq, ne_eq, ← h.getElem?_eq_none_iff, Finset.mem_coe, List.mem_toFinset,
      ExtTreeMap.mem_keys, ExtTreeMap.mem_iff_isSome_getElem?, Option.isSome_iff_ne_none]
  rw [hk, Set.encard_coe_eq_coe_finsetCard, List.toFinset_card_of_nodup ExtTreeMap.nodup_keys,
    ExtTreeMap.length_keys]

omit [Union ν] [SDiff ν] [Facts ν] in
theorem Sparse.agrees_iff_lookup (ht : t.Sparse) (hu : u.Sparse) :
    t.agrees u = true ↔ ∀ k, t.lookup k = u.lookup k := by
  rw [ht.agrees_iff hu]
  exact ⟨fun h _ => h ▸ rfl, ht.ext hu⟩

/-- the entries of the tables in `P` tell what their values are -/
structure Canonical (P : Entries κ ν → Prop) : Prop where
  ne_empty : ∀ t, P t → ∀ e ∈ t.toList, e.2 ≠ ∅
  /-- tables are merged without a look at the values, and in any order of the entries -/
  merge_eq : ∀ t u, P t → P u → ∀ es : List (κ × ν), es.Perm u.toList → t.joinAll es = t.addAll u.toList
  minus_eq : ∀ t u, P t → P u → ∀ es : List (κ × ν), es.Perm t.toList → diffAll es u = t.minus u
  agrees_iff : ∀ t u, P t → P u → (t.agrees u = true ↔ ∀ k, t.lookup k = u.lookup k)
  symm : ∀ t u, P t → P u → t.agrees u = u.agrees t
  trans : ∀ t u w, P t → P u → P w → t.agrees u = true → u.agrees w = true → t.agrees w = true
  isEmpty_iff : ∀ t, P t → (t.isEmpty = true ↔ t.agrees ∅ = true)
  encard_support : ∀ t, P t → {k | t.lookup k ≠ ∅}.encard = t.size

theorem canonical_built : Canonical (Built : Entries κ ν → Prop) where
  ne_empty _ ht _ he := ht.sparse.ne_empty_of_mem he
  merge_eq t u ht hu es hes := by rw [hu.sparse.joinAll_perm t hes, ht.sparse.addAll_perm hes]
  minus_eq t u _ _ es hes := diffAll_perm t u hes
  agrees_iff _ _ ht hu := ht.sparse.agrees_iff_lookup hu.sparse
  symm t u ht hu := by
    rw [Bool.eq_iff_iff, ht.sparse.agrees_iff hu.sparse, hu.sparse.agrees_iff ht.sparse]
    exact eq_comm
  trans t u w ht hu hw h k := by
    rw [ht.sparse.agrees_iff hu.sparse] at h
    rwa [h]
  isEmpty_iff t ht := by rw [ExtTreeMap.isEmpty_iff, ht.sparse.agrees_iff .empty]
  encard_support _ ht := ht.sparse.encard_support

end Entries

/-! ## equality of states -/

/-- `==` compares the values at each place -/
structure Extensional {α π ν : Type} [DecidableEq α] [EmptyCollection α] (get : α → π → ν) (isEmpty : α → Bool) :
    Prop where
  beq_iff : ∀ a b : α, (a == b) = true ↔ ∀ p, get a p = get b p
  symm : ∀ a b : α, (a == b) = (b == a)
  trans : ∀ a b c : α, (a == b) = true → (b == c) = true → (a == c) = true
  isEmpty_iff : ∀ a : α, isEmpty a = true ↔ (a == ∅) = true

theorem ReadBy.extensional {α π ν : Type} [DecidableEq α] [EmptyCollection α] [Union α] [SDiff α]
    [EmptyCollection ν] [Union ν] [SDiff ν] {get : α → π → ν} (hg : ReadBy get) {isEmpty : α → Bool}
    (he : ∀ {a}, isEmpty a = true ↔ a = ∅) : Extensional get isEmpty where
  beq_iff a b := by rw [beq_iff_eq, hg.eq_iff]
  symm a b := by rw [Bool.eq_iff_iff, beq_iff_eq, beq_iff_eq, eq_comm]
  trans a b c h k := by rwa [eq_of_beq h]
  isEmpty_iff a := by rw [beq_iff_eq, he]

theorem SparseMap.beq_eq_agrees {κ ν : Type} [Ord κ] [TransOrd κ] [LawfulEqOrd κ] [DecidableEq ν]
    [EmptyCollection ν] (s t : SparseMap κ ν) : (s == t) = s.entries.agrees t.entries := by
  rw [Bool.eq_iff_iff, beq_iff_eq, s.sparse.agrees_iff t.sparse, SparseMap.entries_inj]

theorem Heap.encard_support (h : Heap) : {c | h.get c ≠ ∅}.encard = h.size := by
  have hc : {c | h.get c ≠ ∅} = Cell.field '' {k | h.fields.get k ≠ ∅} ∪ Cell.array '' {a | h.arrays.get a ≠ ∅} := by
    ext c
    cases c <;> simp [Heap.get]
  have hd : Disjoint (Cell.field '' {k | h.fields.get k ≠ ∅}) (Cell.array '' {a | h.arrays.get a ≠ ∅}) := by
    rw [Set.disjoint_left]
    rintro _ ⟨k, _, rfl⟩ ⟨a, _, e⟩
    cases e
  rw [hc, Set.encard_union_eq hd, Function.Injective.encard_image fun _ _ e => Cell.field.inj e,
    Function.Injective.encard_image fun _ _ e => Cell.array.inj e]
  show _ = ((h.fields.size + h.arrays.size : Nat) : ℕ∞)
  rw [Nat.cast_add]
  exact congrArg₂ _ h.fields.sparse.encard_support h.arrays.sparse.encard_support

/-- **Equal values, equal states.**  Whatever its history, a table stores no `∅`, and equality, emptiness and
    size of states speak of their values. -/
theorem equality_is_extensional :
    (∀ (κ ν : Type) [Ord κ] [TransOrd κ] [LawfulEqOrd κ] [DecidableEq ν] [EmptyCollection ν] [Union ν] [SDiff ν]
        [Facts ν],
      Entries.Canonical (Entries.Built : Entries κ ν → Prop) ∧
        (∀ s : SparseMap κ ν, s.entries.Built) ∧
        (∀ s t : SparseMap κ ν, (s == t) = s.entries.agrees t.entries) ∧
        Extensional (SparseMap.get : SparseMap κ ν → κ → ν) SparseMap.isEmpty ∧
        ∀ s : SparseMap κ ν, {k | s.get k ≠ ∅}.encard = s.size) ∧
      (∀ (κ : Type) [Ord κ] [TransOrd κ] [LawfulEqOrd κ] (s : Store κ), ∀ e ∈ s.toList, e.2.isEmpty = false) ∧
      (∀ s : Analysis, ∀ e ∈ s.toList, e.2.isEmpty = false) ∧
      Extensional Frame.get Frame.isEmpty ∧
      Extensional Heap.get Heap.isEmpty ∧ (∀ h : Heap, {c | h.get c ≠ ∅}.encard = h.size) ∧
      Extensional Snapshot.get Snapshot.isEmpty ∧
      Extensional Analysis.getAt SparseMap.isEmpty := by
  refine ⟨fun κ ν _ _ _ _ _ _ _ _ => ⟨Entries.canonical_built, fun s => s.sparse.built, SparseMap.beq_eq_agrees,
    SparseMap.readBy_get.extensional SparseMap.isEmpty_iff, fun s => s.sparse.encard_support⟩,
    fun κ _ _ _ s e he => ?_, fun s e he => ?_, Frame.readBy_get.extensional Frame.isEmpty_iff,
    Heap.readBy_get.extensional Heap.isEmpty_iff, Heap.encard_support,
    Snapshot.readBy_get.extensional Snapshot.isEmpty_iff, Analysis.readBy_getAt.extensional SparseMap.isEmpty_iff⟩
  · rw [Bool.eq_false_iff, ne_eq, ValueSet.isEmpty_iff]
    exact s.sparse.ne_empty_of_mem he
  · rw [Bool.eq_false_iff, ne_eq, Snapshot.isEmpty_iff]
    exact s.sparse.ne_empty_of_mem he

namespace Sample

/-- a field that was set, grew and was then set to `∅` -/
def cleared (v w : ValueSet) : Entries Field ValueSet := ((Entries.put ∅ shared v).add shared w).put shared ∅

/-- a table without what it has -/
def cancelled (v : ValueSet) : Entries Field ValueSet := (Entries.put ∅ shared v).minus (Entries.put ∅ shared v)

theorem built_cleared (v w : ValueSet) : (cleared v w).Built := ((Entries.Built.empty.put _ _).add _ _).put _ _

theorem built_cancelled (v : ValueSet) : (cancelled v).Built :=
  (Entries.Built.empty.put _ _).minus (Entries.Built.empty.put _ _) (.refl _)

theorem lookup_cleared (v w : ValueSet) (f : Field) : (cleared v w).lookup f = (cancelled v).lookup f := by
  have hc : (cancelled v).lookup f = ∅ := by
    rw [cancelled, Entries.lookup_minus]
    exact Facts.diff_eq_empty_iff.2 (Facts.union_self _)
  rw [hc, cleared, Entries.lookup_put, Entries.lookup_add, Entries.lookup_put, Entries.lookup_empty]
  split <;> rfl

end Sample

open Sample in
theorem equality_is_extensional_shared :
    (cleared (.singleton (.address (box 1))) (.singleton (.address (box 2)))).Built ∧
      (cancelled (.singleton (.address (box 1)))).Built ∧
      (cleared (.singleton (.address (box 1))) (.singleton (.address (box 2)))).agrees
        (cancelled (.singleton (.address (box 1)))) = true :=
  ⟨built_cleared _ _, built_cancelled _, ((equality_is_extensional.1 Field ValueSet).1.agrees_iff _ _
    (built_cleared _ _) (built_cancelled _)).2 (lookup_cleared _ _)⟩

end InfoFlow
