import Mathlib.Logic.Relation
import InfoFlow.Proofs.Reading

/-!
# Reachable addresses

An address points to the addresses in its cells (`Heap.Points`).

* `mem_spread`: the search adds what a chain of at least one edge leads to from its list;
* `Heap.mem_reachable`: an address is reachable exactly when a chain of pointers leads to it from a root;
* `Heap.reachable_induction`: the reachable addresses are the least set that has the roots and is closed
  under pointers;
* `Heap.reachable_reachable`: nothing more is reachable from what is reachable;
* `Heap.reachable_subset`, `Heap.reachable_congr`: reachable addresses of two heaps, compared by their cells;
* `Heap.get_gc`, `Heap.get_localize`: collecting keeps the cells of reachable addresses, and localizing those
  of them that are in scope.
-/

namespace InfoFlow

open Std Relation

/-! ## the search -/

theorem AddressSet.mem_insertMany {s : AddressSet} {new : List Address} {b : Address} :
    b ∈ s.insertMany new ↔ b ∈ s ∨ b ∈ new := by
  rw [ExtTreeSet.mem_insertMany_list, List.contains_iff_mem]

/-- the edges of `a` in the table lead to `b` -/
def Leads (edges : ExtTreeMap Address (List Address) compare) (a b : Address) : Prop :=
  ∃ next, edges[a]? = some next ∧ b ∈ next

theorem leads_erase {edges : ExtTreeMap Address (List Address) compare} {a x y : Address} :
    Leads (edges.erase a) x y ↔ x ≠ a ∧ Leads edges x y := by
  unfold Leads
  rw [ExtTreeMap.getElem?_erase]
  by_cases h : a = x
  · simp [h]
  · simp [h, Ne.symm h]

theorem leads_of_leads_erase {edges : ExtTreeMap Address (List Address) compare} {a x y : Address}
    (h : Leads (edges.erase a) x y) : Leads edges x y := (leads_erase.1 h).2

/-- a chain either avoids the edges of `a`, or does so from its last use of them on -/
theorem leads_chain_split {edges : ExtTreeMap Address (List Address) compare} {a : Address} {next : List Address}
    (ha : edges[a]? = some next) {x b : Address} (h : TransGen (Leads edges) x b) :
    (x ≠ a ∧ TransGen (Leads (edges.erase a)) x b) ∨
      ∃ n ∈ next, n = b ∨ TransGen (Leads (edges.erase a)) n b := by
  have hnext : ∀ {y}, Leads edges a y → y ∈ next := by
    rintro y ⟨next', ha', hy⟩
    rw [ha] at ha'
    cases ha'
    exact hy
  induction h using TransGen.head_induction_on with
  | @single x hx =>
    by_cases hxa : x = a
    · subst hxa
      exact .inr ⟨b, hnext hx, .inl rfl⟩
    · exact .inl ⟨hxa, .single (leads_erase.2 ⟨hxa, hx⟩)⟩
  | @head x y hx _ ih =>
    rcases ih with ⟨_, hy⟩ | hy
    · by_cases hxa : x = a
      · subst hxa
        exact .inr ⟨y, hnext hx, .inr hy⟩
      · exact .inl ⟨hxa, .head (leads_erase.2 ⟨hxa, hx⟩) hy⟩
    · exact .inr hy

theorem mem_spread (edges : ExtTreeMap Address (List Address) compare) (todo : List Address) (seen : AddressSet)
    (b : Address) :
    b ∈ Heap.spread edges todo seen ↔ b ∈ seen ∨ ∃ a ∈ todo, TransGen (Leads edges) a b := by
  fun_induction Heap.spread edges todo seen with
  | case1 edges seen => simp
  | case2 edges seen a rest h ih =>
    rw [ih]
    have ha : ¬ TransGen (Leads edges) a b := by
      intro hab
      obtain ⟨c, ⟨next, hc, _⟩, _⟩ := TransGen.head'_iff.1 hab
      rw [h] at hc
      cases hc
    simp [ha]
  | case3 edges seen a rest next h hlt ih =>
    have hstep : ∀ n ∈ next, Leads edges a n := fun n hn => ⟨next, h, hn⟩
    have hmono : ∀ {x}, TransGen (Leads (edges.erase a)) x b → TransGen (Leads edges) x b :=
      fun hx => hx.lift id fun _ _ => leads_of_leads_erase
    rw [ih, AddressSet.mem_insertMany]
    constructor
    · rintro ((hb | hb) | ⟨x, hx, hxb⟩)
      · exact .inl hb
      · exact .inr ⟨a, List.mem_cons_self, .single (hstep b hb)⟩
      · rcases List.mem_append.1 hx with hx | hx
        · exact .inr ⟨a, List.mem_cons_self, .head (hstep x hx) (hmono hxb)⟩
        · exact .inr ⟨x, List.mem_cons_of_mem _ hx, hmono hxb⟩
    · rintro (hb | ⟨x, hx, hxb⟩)
      · exact .inl (.inl hb)
      · rcases leads_chain_split h hxb with ⟨hxa, hxb⟩ | ⟨n, hn, rfl | hnb⟩
        · have hx : x ∈ rest := (List.mem_cons.1 hx).resolve_left hxa
          exact .inr ⟨x, List.mem_append_right _ hx, hxb⟩
        · exact .inl (.inr hn)
        · exact .inr ⟨n, List.mem_append_left _ hn, hnb⟩

/-! ## pointers -/

/-- the address whose object or array has the cell -/
def Cell.holder : Cell → Address
  | .field k => k.address
  | .array a => a

namespace Heap

/-- some cell of `a` holds `b` -/
def Points (h : Heap) (a b : Address) : Prop := ∃ c : Cell, c.holder = a ∧ Value.address b ∈ h.get c

theorem exists_mem_edges {h : Heap} {a b : Address} : (∃ e ∈ h.edges, e.1 = a ∧ b ∈ e.2) ↔ h.Points a b := by
  have hf : (∃ e ∈ h.fields.toList, e.1.address = a ∧ b ∈ e.2.addresses) ↔
      ∃ k : ObjectField, k.address = a ∧ Value.address b ∈ h.fields.get k := by
    simp only [ValueSet.mem_addresses]
    exact Store.exists_mem_toList (p := fun k : ObjectField => k.address = a)
  have ha : (∃ e ∈ h.arrays.toList, e.1 = a ∧ b ∈ e.2.addresses) ↔
      ∃ k : Address, k = a ∧ Value.address b ∈ h.arrays.get k := by
    simp only [ValueSet.mem_addresses]
    exact Store.exists_mem_toList (p := fun k : Address => k = a)
  have he : (∃ e ∈ h.edges, e.1 = a ∧ b ∈ e.2) ↔
      (∃ e ∈ h.fields.toList, e.1.address = a ∧ b ∈ e.2.addresses) ∨
        ∃ e ∈ h.arrays.toList, e.1 = a ∧ b ∈ e.2.addresses := by
    simp only [edges, List.mem_append, List.mem_map]
    constructor
    · rintro ⟨_, ⟨e, he, rfl⟩ | ⟨e, he, rfl⟩, hb⟩
      · exact .inl ⟨e, he, hb⟩
      · exact .inr ⟨e, he, hb⟩
    · rintro (⟨e, he, hb⟩ | ⟨e, he, hb⟩)
      · exact ⟨_, .inl ⟨e, he, rfl⟩, hb⟩
      · exact ⟨_, .inr ⟨e, he, rfl⟩, hb⟩
  rw [he, hf, ha]
  constructor
  · rintro (⟨k, hk, hb⟩ | ⟨k, hk, hb⟩)
    · exact ⟨.field k, hk, hb⟩
    · exact ⟨.array k, hk, hb⟩
  · rintro ⟨c, hc, hb⟩
    cases c with
    | field k => exact .inl ⟨k, hc, hb⟩
    | array k => exact .inr ⟨k, hc, hb⟩

theorem leads_alter {m : ExtTreeMap Address (List Address) compare} {e : Address × List Address} {a b : Address} :
    Leads (m.alter e.1 fun old => some (e.2 ++ old.getD [])) a b ↔ Leads m a b ∨ (e.1 = a ∧ b ∈ e.2) := by
  unfold Leads
  simp only [ExtTreeMap.getElem?_alter, Std.compare_eq_iff_eq]
  by_cases h : e.1 = a
  · subst h
    cases hm : m[e.1]? with
    | none => simp
    | some old => simp [or_comm]
  · simp [h]

theorem leads_successors {h : Heap} {a b : Address} : Leads h.successors a b ↔ h.Points a b := by
  have key : ∀ (es : List (Address × List Address)) (m : ExtTreeMap Address (List Address) compare),
      Leads (es.foldl (fun m e => m.alter e.1 fun old => some (e.2 ++ old.getD [])) m) a b ↔
        Leads m a b ∨ ∃ e ∈ es, e.1 = a ∧ b ∈ e.2 := by
    intro es
    induction es with
    | nil => intro m; simp
    | cons e es ih =>
      intro m
      rw [List.foldl_cons, ih, leads_alter, or_assoc]
      simp
  have hempty : ¬ Leads ∅ a b := by
    rintro ⟨next, h, _⟩
    simp at h
  rw [successors, key, exists_mem_edges]
  exact or_iff_right hempty

/-! ## reachability -/

/-- **An address is reachable exactly when a chain of pointers leads to it from a root.** -/
theorem mem_reachable {h : Heap} {roots : AddressSet} {b : Address} :
    b ∈ h.reachable roots ↔ ∃ a ∈ roots, ReflTransGen h.Points a b := by
  have hl : Leads h.successors = h.Points := by
    funext a b
    exact propext leads_successors
  rw [reachable, mem_spread, hl]
  constructor
  · rintro (hb | ⟨a, ha, hab⟩)
    · exact ⟨b, hb, .refl⟩
    · exact ⟨a, ExtTreeSet.mem_toList.1 ha, hab.to_reflTransGen⟩
  · rintro ⟨a, ha, hab⟩
    rcases reflTransGen_iff_eq_or_transGen.1 hab with rfl | hab
    · exact .inl ha
    · exact .inr ⟨a, ExtTreeSet.mem_toList.2 ha, hab⟩

theorem mem_reachable_of_root {h : Heap} {roots : AddressSet} {a : Address} (ha : a ∈ roots) :
    a ∈ h.reachable roots := mem_reachable.2 ⟨a, ha, .refl⟩

theorem mem_reachable_of_points {h : Heap} {roots : AddressSet} {a b : Address} (ha : a ∈ h.reachable roots)
    (hab : h.Points a b) : b ∈ h.reachable roots := by
  obtain ⟨r, hr, hra⟩ := mem_reachable.1 ha
  exact mem_reachable.2 ⟨r, hr, hra.tail hab⟩

/-- what holds of the roots and passes along pointers holds of every reachable address -/
theorem reachable_induction {h : Heap} {roots : AddressSet} {p : Address → Prop} (hroots : ∀ a ∈ roots, p a)
    (hpoints : ∀ a b, p a → h.Points a b → p b) : ∀ b ∈ h.reachable roots, p b := by
  intro b hb
  obtain ⟨a, ha, hab⟩ := mem_reachable.1 hb
  clear hb
  induction hab with
  | refl => exact hroots a ha
  | tail _ hxy ih => exact hpoints _ _ ih hxy

theorem reachable_induction_of_mem {h : Heap} {roots : AddressSet} {p : Address → Prop} (hroots : ∀ a ∈ roots, p a)
    (hpoints : ∀ a b, a ∈ h.reachable roots → p a → h.Points a b → p b) : ∀ b ∈ h.reachable roots, p b := by
  have key : ∀ b ∈ h.reachable roots, b ∈ h.reachable roots ∧ p b := by
    apply reachable_induction
    · intro a ha
      exact ⟨mem_reachable_of_root ha, hroots a ha⟩
    · rintro a b ⟨ha, hp⟩ hab
      exact ⟨mem_reachable_of_points ha hab, hpoints a b ha hp hab⟩
  exact fun b hb => (key b hb).2

/-- what is reachable from reachable addresses is reachable -/
theorem mem_reachable_of_subset {h : Heap} {roots roots' : AddressSet} (hr : ∀ a ∈ roots', a ∈ h.reachable roots) :
    ∀ a ∈ h.reachable roots', a ∈ h.reachable roots :=
  reachable_induction hr fun _ _ => mem_reachable_of_points

theorem reachable_reachable (h : Heap) (roots : AddressSet) :
    h.reachable (h.reachable roots) = h.reachable roots := by
  apply ExtTreeSet.ext_mem
  intro a
  exact ⟨mem_reachable_of_subset (fun _ => id) a, mem_reachable_of_root⟩

/-- a heap reaches whatever one with fewer roots and fewer values reaches; only cells at addresses that both
    reach need to be compared -/
theorem reachable_subset {h k : Heap} {roots roots' : AddressSet} (hroots : ∀ a ∈ roots, a ∈ roots')
    (hcells : ∀ c : Cell, c.holder ∈ h.reachable roots → c.holder ∈ k.reachable roots' → h.get c ⊆ k.get c) :
    ∀ a ∈ h.reachable roots, a ∈ k.reachable roots' := by
  apply reachable_induction_of_mem
  · intro a ha
    exact mem_reachable_of_root (hroots a ha)
  · rintro _ b hh hk ⟨c, rfl, hb⟩
    exact mem_reachable_of_points hk ⟨c, rfl, hcells c hh hk _ hb⟩

/-- heaps that agree on all that one of them reaches reach the same -/
theorem reachable_congr {h k : Heap} {roots : AddressSet}
    (hcells : ∀ c : Cell, c.holder ∈ h.reachable roots → h.get c = k.get c) :
    h.reachable roots = k.reachable roots := by
  apply ExtTreeSet.ext_mem
  intro a
  constructor
  · exact reachable_subset (fun _ => id) (fun c hc _ => hcells c hc ▸ ValueSet.subset_refl _) a
  · exact reachable_subset (fun _ => id) (fun c _ hc => hcells c hc ▸ ValueSet.subset_refl _) a

/-! ## collecting -/

theorem get_gc (h : Heap) (roots : AddressSet) (c : Cell) :
    (h.gc roots).get c = if c.holder ∈ h.reachable roots then h.get c else ∅ := by
  cases c with
  | field k =>
    show (h.fields.filter fun k => k.address ∈ h.reachable roots).get k = _
    rw [SparseMap.get_filter]
    by_cases hk : k.address ∈ h.reachable roots <;> simp [hk, Cell.holder, get]
  | array a =>
    show (h.arrays.filter fun a => a ∈ h.reachable roots).get a = _
    rw [SparseMap.get_filter]
    by_cases ha : a ∈ h.reachable roots <;> simp [ha, Cell.holder, get]

end Heap

/-! ## localizing -/

/-- the cell is named by a scope of these fields and arrays, or it is the field `taint` of an object -/
def Cell.InScope (fields : List ObjectField) (arrays : List Address) (taint : Field) : Cell → Prop
  | .field k => k ∈ fields ∨ k.field = taint
  | .array a => a ∈ arrays

instance (fields : List ObjectField) (arrays : List Address) (taint : Field) (c : Cell) :
    Decidable (c.InScope fields arrays taint) :=
  match c with
  | .field k => inferInstanceAs (Decidable (k ∈ fields ∨ k.field = taint))
  | .array a => inferInstanceAs (Decidable (a ∈ arrays))

theorem Heap.get_localize (h : Heap) (roots : AddressSet) (fields : List ObjectField) (arrays : List Address)
    (taint : Field) (c : Cell) :
    (h.localize roots fields arrays taint).get c =
      if c.holder ∈ h.reachable roots ∧ c.InScope fields arrays taint then h.get c else ∅ := by
  cases c with
  | field k =>
    show (h.fields.filter fun k => k.address ∈ h.reachable roots && (k ∈ fields || k.field == taint)).get k = _
    rw [SparseMap.get_filter]
    simp only [Bool.and_eq_true, Bool.or_eq_true, decide_eq_true_eq, beq_iff_eq]
    rfl
  | array a =>
    show (h.arrays.filter fun a => a ∈ h.reachable roots && a ∈ arrays).get a = _
    rw [SparseMap.get_filter]
    simp only [Bool.and_eq_true, decide_eq_true_eq]
    rfl

end InfoFlow
