import Std.Data.ExtTreeMap
import InfoFlow.Facts

/-!
# Tables of entries

A table stores values at some of the keys; at every other key the value is `∅`.  Nothing in the type keeps
`∅` itself from being stored, which `Sparse` says is not the case:

* `put`, `add`, `addAll`, `minus`: the ways to change a table, each with the value it leaves at each key
  (`lookup_put`, `lookup_add`, ...) and the reason why it keeps a table sparse (`Sparse.put`, ...);
* `Sparse.addAll_perm`, `diffAll_perm`: it does not matter in which order the entries of a table are gone through;
* `agrees`: the test for equal contents, which looks at the entries of one side only.  Between sparse tables
  it is equality (`Sparse.agrees_iff`).
-/

set_option linter.unusedSectionVars false

namespace InfoFlow

open Std

/-- the stored entries of a map -/
abbrev Entries (κ ν : Type) [Ord κ] := ExtTreeMap κ ν compare

namespace Entries

variable {κ ν : Type} [Ord κ] [TransOrd κ] [EmptyCollection ν]

/-- the value of `k`, which is `∅` where none is stored -/
def lookup (t : Entries κ ν) (k : κ) : ν := t[k]?.getD ∅

/-- no key is stored with the value `∅` -/
def Sparse (t : Entries κ ν) : Prop := ∀ k : κ, t[k]? ≠ some ∅

@[simp] theorem lookup_empty (k : κ) : lookup (∅ : Entries κ ν) k = ∅ := by
  show ((∅ : ExtTreeMap κ ν compare)[k]?).getD ∅ = ∅
  simp

theorem Sparse.empty : Sparse (∅ : Entries κ ν) := fun k => by simp

/-! ## stored values of a sparse table -/

theorem Sparse.getElem?_eq_some_iff {t : Entries κ ν} (h : t.Sparse) {k : κ} {v : ν} :
    t[k]? = some v ↔ t.lookup k = v ∧ v ≠ ∅ := by
  have hs := h k
  unfold lookup
  cases hk : t[k]? with
  | none =>
    constructor
    · intro e; cases e
    · rintro ⟨rfl, hv⟩; exact absurd rfl hv
  | some w =>
    rw [hk] at hs
    constructor
    · intro e; cases e; exact ⟨rfl, fun e => hs (e ▸ rfl)⟩
    · rintro ⟨rfl, _⟩; rfl

theorem Sparse.getElem?_eq_none_iff {t : Entries κ ν} (h : t.Sparse) {k : κ} :
    t[k]? = none ↔ t.lookup k = ∅ := by
  unfold lookup
  cases hk : t[k]? with
  | none => simp
  | some w =>
    have hw : w ≠ ∅ := (h.getElem?_eq_some_iff.1 hk).2
    simpa using hw

/-- sparse tables with the same values are one table -/
theorem Sparse.ext [LawfulEqOrd κ] {t u : Entries κ ν} (ht : t.Sparse) (hu : u.Sparse)
    (h : ∀ k, t.lookup k = u.lookup k) : t = u := by
  apply ExtTreeMap.ext_getElem?
  intro k
  cases hk : u[k]? with
  | none => exact ht.getElem?_eq_none_iff.2 ((h k).trans (hu.getElem?_eq_none_iff.1 hk))
  | some v =>
    have hv := hu.getElem?_eq_some_iff.1 hk
    exact ht.getElem?_eq_some_iff.2 ⟨(h k).trans hv.1, hv.2⟩

/-! ## changing one key -/

section
variable [LawfulEqOrd κ]

theorem lookup_erase [DecidableEq κ] (t : Entries κ ν) (k j : κ) :
    lookup (t.erase k) j = if k = j then ∅ else t.lookup j := by
  unfold lookup
  simp only [ExtTreeMap.getElem?_erase, Std.compare_eq_iff_eq]
  split <;> rfl

theorem Sparse.erase {t : Entries κ ν} (h : t.Sparse) (k : κ) : Sparse (t.erase k) := by
  intro j
  rw [ExtTreeMap.getElem?_erase]
  split
  · simp
  · exact h j

/-- the table with `v` in place of the value of `k`; `∅` takes the key out -/
def put [DecidableEq ν] (t : Entries κ ν) (k : κ) (v : ν) : Entries κ ν :=
  if v = ∅ then t.erase k else t.insert k v

theorem lookup_put [DecidableEq κ] [DecidableEq ν] (t : Entries κ ν) (k : κ) (v : ν) (j : κ) :
    (t.put k v).lookup j = if k = j then v else t.lookup j := by
  unfold put
  split
  · next h => rw [lookup_erase, h]
  · unfold lookup
    simp only [ExtTreeMap.getElem?_insert, Std.compare_eq_iff_eq]
    split <;> rfl

theorem Sparse.put [DecidableEq ν] {t : Entries κ ν} (h : t.Sparse) (k : κ) (v : ν) :
    (t.put k v).Sparse := by
  unfold Entries.put
  split
  · exact h.erase k
  · next hv =>
    intro j
    rw [ExtTreeMap.getElem?_insert]
    split
    · simpa using hv
    · exact h j

/-- the table where what is stored at `k` has grown by `v`, or `v` is stored -/
def join [Union ν] (t : Entries κ ν) (k : κ) (v : ν) : Entries κ ν :=
  t.alter k fun
    | some old => some (old ∪ v)
    | none => some v

/-- the table with `v` added to the value of `k`; adding `∅` leaves it as it is -/
def add [DecidableEq ν] [Union ν] (t : Entries κ ν) (k : κ) (v : ν) : Entries κ ν :=
  if v = ∅ then t else t.join k v

section
variable [DecidableEq ν] [Union ν] [SDiff ν] [Facts ν]

theorem lookup_add [DecidableEq κ] (t : Entries κ ν) (k : κ) (v : ν) (j : κ) :
    (t.add k v).lookup j = if k = j then t.lookup j ∪ v else t.lookup j := by
  unfold add
  by_cases hv : v = ∅
  · rw [if_pos hv, hv, Facts.union_empty, ite_self]
  · rw [if_neg hv]
    unfold lookup join
    simp only [ExtTreeMap.getElem?_alter, Std.compare_eq_iff_eq]
    by_cases hk : k = j
    · rw [if_pos hk, if_pos hk, hk]
      cases t[j]? with
      | none => exact (Facts.empty_union v).symm
      | some old => rfl
    · rw [if_neg hk, if_neg hk]

theorem lookup_add_of_ne (t : Entries κ ν) {k j : κ} (v : ν) (h : k ≠ j) : (t.add k v).lookup j = t.lookup j := by
  classical
  rw [lookup_add, if_neg h]

theorem Sparse.add {t : Entries κ ν} (h : t.Sparse) (k : κ) (v : ν) : (t.add k v).Sparse := by
  unfold Entries.add
  split
  · exact h
  · next hv =>
    intro j
    rw [join, ExtTreeMap.getElem?_alter]
    split
    · cases t[k]? with
      | none => simpa using hv
      | some old =>
        intro e
        exact hv (Facts.eq_empty_of_union_eq_empty (Option.some.inj e)).2
    · exact h j

end

/-! ## changing many keys -/

/-- folding a change of one key at a time over a list leaves a key that no entry names alone -/
theorem lookup_foldl_of_notMem {f : Entries κ ν → κ × ν → Entries κ ν}
    (hf : ∀ t e j, e.1 ≠ j → (f t e).lookup j = t.lookup j) (t : Entries κ ν) (es : List (κ × ν)) (k : κ)
    (h : ∀ e ∈ es, e.1 ≠ k) : (es.foldl f t).lookup k = t.lookup k := by
  induction es generalizing t with
  | nil => rfl
  | cons e es ih =>
    rw [List.foldl_cons, ih _ fun e' he' => h e' (List.mem_cons_of_mem _ he'), hf _ _ _ (h e List.mem_cons_self)]

/-- a key that one entry names ends up as if that were the only entry -/
theorem lookup_foldl_of_mem {f : Entries κ ν → κ × ν → Entries κ ν}
    (hf : ∀ t e j, e.1 ≠ j → (f t e).lookup j = t.lookup j)
    (hc : ∀ t u e, t.lookup e.1 = u.lookup e.1 → (f t e).lookup e.1 = (f u e).lookup e.1)
    (t : Entries κ ν) (es : List (κ × ν)) (k : κ) (v : ν)
    (hd : es.Pairwise fun a b => compare a.1 b.1 ≠ .eq) (h : (k, v) ∈ es) :
    (es.foldl f t).lookup k = (f t (k, v)).lookup k := by
  induction es generalizing t with
  | nil => cases h
  | cons e es ih =>
    rw [List.foldl_cons]
    obtain ⟨he, hes⟩ := List.pairwise_cons.1 hd
    rcases List.mem_cons.1 h with rfl | h
    · exact lookup_foldl_of_notMem hf _ _ _ fun e' he' hk => he e' he' (by rw [hk]; exact compare_self)
    · have hne : e.1 ≠ k := fun hk => he _ h (by rw [hk]; exact compare_self)
      rw [ih _ hes h]
      exact hc _ _ (k, v) (hf t e k hne)

/-- folding over the entries of a table, in any order, changes each key by its own entry, if it has one -/
theorem lookup_foldl_perm {f : Entries κ ν → κ × ν → Entries κ ν}
    (hf : ∀ t e j, e.1 ≠ j → (f t e).lookup j = t.lookup j)
    (hc : ∀ t u e, t.lookup e.1 = u.lookup e.1 → (f t e).lookup e.1 = (f u e).lookup e.1)
    (t u : Entries κ ν) {es : List (κ × ν)} (hes : es.Perm u.toList) (k : κ) :
    (es.foldl f t).lookup k =
      match u[k]? with
      | none => t.lookup k
      | some v => (f t (k, v)).lookup k := by
  cases hk : u[k]? with
  | none =>
    apply lookup_foldl_of_notMem hf
    rintro ⟨j, v⟩ he rfl
    have hv := ExtTreeMap.mem_toList_iff_getElem?_eq_some.1 (hes.mem_iff.1 he)
    rw [hk] at hv
    cases hv
  | some v =>
    have hd : es.Pairwise fun a b => compare a.1 b.1 ≠ .eq :=
      (hes.pairwise_iff fun h e => h (OrientedCmp.eq_symm e)).2 ExtTreeMap.distinct_keys_toList
    exact lookup_foldl_of_mem hf hc t es k v hd
      (hes.mem_iff.2 (ExtTreeMap.mem_toList_iff_getElem?_eq_some.2 hk))

/-- the table with every entry of the list added -/
def addAll [DecidableEq ν] [Union ν] (t : Entries κ ν) (es : List (κ × ν)) : Entries κ ν :=
  es.foldl (fun t e => t.add e.1 e.2) t

/-- the entries of the list, each without what `u` has at its key -/
def diffAll [DecidableEq ν] [SDiff ν] (es : List (κ × ν)) (u : Entries κ ν) : Entries κ ν :=
  es.foldl (fun r e => r.put e.1 (e.2 \ u.lookup e.1)) ∅

/-- the entries of `t`, each without what `u` has at its key -/
def minus [DecidableEq ν] [SDiff ν] (t u : Entries κ ν) : Entries κ ν := diffAll t.toList u

section
variable [DecidableEq ν] [Union ν] [SDiff ν] [Facts ν]

theorem Sparse.addAll {t : Entries κ ν} (h : t.Sparse) (es : List (κ × ν)) : (t.addAll es).Sparse := by
  induction es generalizing t with
  | nil => exact h
  | cons e es ih => exact ih (h.add e.1 e.2)

theorem Sparse.diffAll (es : List (κ × ν)) (u : Entries κ ν) : (diffAll es u).Sparse := by
  have key : ∀ (es : List (κ × ν)) (r : Entries κ ν), r.Sparse →
      (es.foldl (fun r e => r.put e.1 (e.2 \ u.lookup e.1)) r).Sparse := by
    intro es
    induction es with
    | nil => exact fun _ hr => hr
    | cons e es ih => exact fun _ hr => ih _ (hr.put _ _)
  exact key _ _ Sparse.empty

theorem Sparse.minus (t u : Entries κ ν) : (t.minus u).Sparse := .diffAll _ _

/-- adding all entries of a table, in any order, is union, key by key -/
theorem lookup_addAll_perm (t u : Entries κ ν) {es : List (κ × ν)} (hes : es.Perm u.toList) (k : κ) :
    (t.addAll es).lookup k = t.lookup k ∪ u.lookup k := by
  classical
  have hf : ∀ (t : Entries κ ν) (e : κ × ν) j, e.1 ≠ j → (t.add e.1 e.2).lookup j = t.lookup j :=
    fun t e _ h => t.lookup_add_of_ne e.2 h
  have hc : ∀ (t u : Entries κ ν) (e : κ × ν), t.lookup e.1 = u.lookup e.1 →
      (t.add e.1 e.2).lookup e.1 = (u.add e.1 e.2).lookup e.1 :=
    fun t u e h => by rw [lookup_add, lookup_add, h]
  rw [addAll, lookup_foldl_perm hf hc t u hes, lookup.eq_def u]
  cases u[k]? with
  | none => exact (Facts.union_empty _).symm
  | some v => exact (lookup_add t k v k).trans (if_pos rfl)

theorem lookup_addAll_toList (t u : Entries κ ν) (k : κ) :
    (t.addAll u.toList).lookup k = t.lookup k ∪ u.lookup k := lookup_addAll_perm t u (.refl _) k

/-- the order in which the entries of a table are added does not matter -/
theorem Sparse.addAll_perm {t u : Entries κ ν} (ht : t.Sparse) {es : List (κ × ν)} (hes : es.Perm u.toList) :
    t.addAll es = t.addAll u.toList := by
  apply (ht.addAll es).ext (ht.addAll _)
  intro k
  rw [lookup_addAll_perm t u hes, lookup_addAll_toList]

/-- difference, key by key, for the entries of a table in any order -/
theorem lookup_diffAll_perm (t u : Entries κ ν) {es : List (κ × ν)} (hes : es.Perm t.toList) (k : κ) :
    (diffAll es u).lookup k = t.lookup k \ u.lookup k := by
  classical
  have hf : ∀ (r : Entries κ ν) (e : κ × ν) j, e.1 ≠ j →
      (r.put e.1 (e.2 \ u.lookup e.1)).lookup j = r.lookup j :=
    fun r e j h => by rw [lookup_put, if_neg h]
  have hc : ∀ (r s : Entries κ ν) (e : κ × ν), r.lookup e.1 = s.lookup e.1 →
      (r.put e.1 (e.2 \ u.lookup e.1)).lookup e.1 = (s.put e.1 (e.2 \ u.lookup e.1)).lookup e.1 :=
    fun r s e _ => by rw [lookup_put, lookup_put, if_pos rfl, if_pos rfl]
  rw [diffAll, lookup_foldl_perm hf hc ∅ t hes, lookup.eq_def t]
  cases t[k]? with
  | none => exact (lookup_empty k).trans (Facts.empty_diff _).symm
  | some v => exact (lookup_put ∅ k _ k).trans (if_pos rfl)

theorem lookup_minus (t u : Entries κ ν) (k : κ) : (t.minus u).lookup k = t.lookup k \ u.lookup k :=
  lookup_diffAll_perm t u (.refl _) k

/-- the order in which the entries of a table are cut down does not matter -/
theorem diffAll_perm (t u : Entries κ ν) {es : List (κ × ν)} (hes : es.Perm t.toList) :
    diffAll es u = t.minus u := by
  apply (Sparse.diffAll es u).ext (.minus t u)
  intro k
  rw [lookup_diffAll_perm t u hes, lookup_minus]

end

/-! ## restriction to some keys -/

theorem lookup_filter (t : Entries κ ν) (p : κ → Bool) (k : κ) :
    lookup (t.filter fun k _ => p k) k = if p k then t.lookup k else ∅ := by
  unfold lookup
  rw [ExtTreeMap.getElem?_filter']
  cases t[k]? <;> cases p k <;> simp [Option.filter]

theorem Sparse.filter {t : Entries κ ν} (h : t.Sparse) (p : κ → Bool) :
    Sparse (t.filter fun k _ => p k) := by
  intro k
  rw [ExtTreeMap.getElem?_filter', ne_eq, Option.filter_eq_some_iff]
  exact fun e => h k e.1

/-! ## equal contents -/

/-- whether both tables have the same number of entries, and the second has the value of every entry of the
    first -/
def agrees [DecidableEq ν] (t u : Entries κ ν) : Bool :=
  t.size == u.size && t.toList.all fun e => u.lookup e.1 == e.2

theorem agrees_iff_mem [DecidableEq ν] {t u : Entries κ ν} :
    t.agrees u = true ↔ t.size = u.size ∧ ∀ k v, t[k]? = some v → u.lookup k = v := by
  unfold agrees
  rw [Bool.and_eq_true, beq_iff_eq, List.all_eq_true]
  constructor
  · rintro ⟨hs, h⟩
    refine ⟨hs, fun k v hk => ?_⟩
    exact eq_of_beq (h (k, v) (ExtTreeMap.mem_toList_iff_getElem?_eq_some.2 hk))
  · rintro ⟨hs, h⟩
    refine ⟨hs, fun e he => ?_⟩
    exact beq_iff_eq.2 (h e.1 e.2 (ExtTreeMap.mem_toList_iff_getElem?_eq_some.1 he))

/-- the one-sided test is enough: the second table has no room for a key that the first lacks -/
theorem Sparse.agrees_iff [DecidableEq ν] {t u : Entries κ ν} (ht : t.Sparse) (hu : u.Sparse) :
    t.agrees u = true ↔ t = u := by
  rw [agrees_iff_mem]
  constructor
  · rintro ⟨hs, h⟩
    have hsub : ∀ k ∈ t.keys, k ∈ u.keys := by
      intro k hk
      rw [ExtTreeMap.mem_keys, ExtTreeMap.mem_iff_isSome_getElem?] at hk ⊢
      obtain ⟨v, hv⟩ := Option.isSome_iff_exists.1 hk
      have hne := (ht.getElem?_eq_some_iff.1 hv).2
      rw [hu.getElem?_eq_some_iff.2 ⟨h k v hv, hne⟩]
      rfl
    apply Sparse.ext ht hu
    intro k
    cases hk : t[k]? with
    | some v => rw [h k v hk, lookup, hk]; rfl
    | none =>
      rw [ht.getElem?_eq_none_iff.1 hk]
      apply Classical.byContradiction
      intro hne
      have hku : k ∈ u.keys := by
        rw [ExtTreeMap.mem_keys, ExtTreeMap.mem_iff_isSome_getElem?, hu.getElem?_eq_some_iff.2 ⟨rfl, Ne.symm hne⟩]
        rfl
      have hkt : k ∉ t.keys := by
        rw [ExtTreeMap.mem_keys, ExtTreeMap.mem_iff_isSome_getElem?, hk]
        simp
      have hlen : (k :: t.keys).length ≤ u.keys.length := by
        apply List.Nodup.length_le_of_subset (List.nodup_cons.2 ⟨hkt, ExtTreeMap.nodup_keys⟩)
        intro j hj
        rcases List.mem_cons.1 hj with rfl | hj
        · exact hku
        · exact hsub j hj
      rw [List.length_cons, ExtTreeMap.length_keys, ExtTreeMap.length_keys] at hlen
      omega
  · rintro rfl
    exact ⟨rfl, fun k v hk => by rw [lookup, hk]; rfl⟩

end

end Entries

end InfoFlow
