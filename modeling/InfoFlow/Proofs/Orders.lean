import InfoFlow.Proofs.History
import InfoFlow.Proofs.Serialized

/-!
# Orders

* `LawfulOn`: a total order, in which only equal values compare equal;
* `LawfulOn.of_keys`: what compares as its keys do is ordered as lawfully as they are;
* `World.order_eq`: handles of a run compare as their keys, so that the shortcut for one handle changes no answer;
* `Held.order_eq`, `HeldField.order_eq`: the same for values and object fields that have their address by a handle;
* `ValueSet.compare_eq`: sets compare as their increasing member lists;
* `orders_are_lawful`: every kind of key, value and set is ordered lawfully, whichever tables its handles are from.
-/

namespace InfoFlow

open Std

/-! ## lawful orders -/

/-- on the values in `P`, `cmp` is a total order, in which those compare equal that `eq` finds equal -/
structure LawfulOn {α : Type} (P : α → Prop) (cmp : α → α → Ordering) (eq : α → α → Bool) : Prop where
  refl : ∀ {a}, P a → cmp a a = .eq
  swap : ∀ {a b}, P a → P b → cmp b a = (cmp a b).swap
  trans : ∀ {a b c}, P a → P b → P c → (cmp a b).isLE = true → (cmp b c).isLE = true → (cmp a c).isLE = true
  eq_iff : ∀ {a b}, P a → P b → (cmp a b = .eq ↔ eq a b = true)

theorem LawfulOn.of_keys {α κ : Type} [Ord κ] [TransOrd κ] [LawfulEqOrd κ] {P : α → Prop} {cmp : α → α → Ordering}
    {eq : α → α → Bool} (key : α → κ) (hcmp : ∀ {a b}, P a → P b → cmp a b = compare (key a) (key b))
    (heq : ∀ {a b}, P a → P b → (eq a b = true ↔ key a = key b)) : LawfulOn P cmp eq where
  refl ha := by rw [hcmp ha ha, compare_self]
  swap ha hb := by
    rw [hcmp hb ha, hcmp ha hb]
    exact OrientedCmp.eq_swap
  trans ha hb hc hab hbc := by
    rw [hcmp ha hb] at hab
    rw [hcmp hb hc] at hbc
    rw [hcmp ha hc]
    exact TransCmp.isLE_trans hab hbc
  eq_iff ha hb := by rw [hcmp ha hb, heq ha hb, Std.compare_eq_iff_eq]

/-- a type whose own order and equality are lawful -/
def Lawful (α : Type) [Ord α] [BEq α] : Prop := LawfulOn (fun _ : α => True) compare (· == ·)

theorem lawful (α : Type) [Ord α] [DecidableEq α] [TransOrd α] [LawfulEqOrd α] : Lawful α :=
  .of_keys id (fun _ _ => rfl) fun _ _ => beq_iff_eq

theorem compareLex_of_ne {α β : Type} [Ord β] [LawfulEqOrd β] (f : α → β) (cmp : α → α → Ordering) {a b : α}
    (h : f a ≠ f b) : compareLex (compareOn f) cmp a b = compare (f a) (f b) := by
  have hne : compare (f a) (f b) ≠ .eq := mt Std.compare_eq_iff_eq.1 h
  show (compare (f a) (f b)).then _ = _
  cases hc : compare (f a) (f b) with
  | lt => rfl
  | eq => exact absurd hc hne
  | gt => rfl

/-! ## handles -/

namespace Handle

variable {κ : Type} {a b : Handle κ}

theorem order_of_same [Ord κ] (h : a.same b = true → compare a.key b.key = .eq) :
    a.order b = compare a.key b.key := by
  unfold order
  split
  · next hs => exact (h hs).symm
  · rfl

/-- hashes only say sooner that keys differ -/
theorem equalBy_eq [DecidableEq κ] (hash : κ → UInt64) (a b : Handle κ) : a.equalBy hash b = a.equal b := by
  unfold equalBy equal
  by_cases h : a.key = b.key
  · simp [h]
  · simp [h]

end Handle

namespace World

variable {rs : List Request} {k : Kind} {h h' : Handle k.Key}

theorem order_eq (hg : Gave rs k h) (hg' : Gave rs k h') : h.order h' = compare h.key h'.key := by
  apply Handle.order_of_same
  intro hs
  rw [key_eq_of_same hg hg' hs, compare_self]

end World

/-! ## object fields with their address by a handle -/

namespace HeldField

/-- the order: address, field -/
def order (x y : HeldField) : Ordering := (x.address.order y.address).then (compare x.field y.field)

instance : Ord HeldField := ⟨order⟩

variable {rs : List Request} {x y : Handle HeldField}

theorem compare_eq (hx : Gave rs x) (hy : Gave rs y) : compare x.key y.key = compare x.key.key y.key.key := by
  have haddress : x.key.address.order y.key.address = compare x.key.address.key y.key.address.key :=
    World.order_eq hx.1 hy.1
  show (x.key.address.order y.key.address).then _ = _
  rw [haddress]
  rfl

theorem order_eq (hx : Gave rs x) (hy : Gave rs y) : x.order y = compare x.key.key y.key.key := by
  rw [← compare_eq hx hy]
  apply Handle.order_of_same
  -- one handle may come with two handles of its address, but these are equal
  intro hs
  rw [compare_eq hx hy, key_eq_of_same hx hy hs, compare_self]

end HeldField

/-! ## values with their address by a handle -/

namespace Held

/-- the order: addresses before atoms -/
def order : Held → Held → Ordering
  | address h, address h' => h.order h'
  | address _, atom _ => .lt
  | atom _, address _ => .gt
  | atom a, atom b => compare a b

variable {rs : List Request}

theorem order_eq {u v : Held} (hu : u.From rs) (hv : v.From rs) : u.order v = compare u.value v.value := by
  cases u with
  | address h =>
    cases v with
    | address h' =>
      have haddress : h.order h' = compare h.key h'.key := World.order_eq hu hv
      rw [order, haddress]
      rfl
    | atom b => rfl
  | atom a =>
    cases v with
    | address h' => rfl
    | atom b =>
      show compare a b = (compare a b).then .eq
      cases compare a b <;> rfl

theorem compareLex_eq {us vs : List Held} (hus : ∀ u ∈ us, u.From rs) (hvs : ∀ v ∈ vs, v.From rs) :
    List.compareLex order us vs = compare (us.map value) (vs.map value) := by
  rw [List.compare_eq_compareLex]
  induction us generalizing vs with
  | nil => cases vs <;> rfl
  | cons u us ih =>
    cases vs with
    | nil => rfl
    | cons v vs =>
      rw [List.forall_mem_cons] at hus hvs
      rw [List.map_cons, List.map_cons, List.compareLex_cons_cons, List.compareLex_cons_cons, order_eq hus.1 hvs.1,
        ih hus.2 hvs.2]

theorem isEqv_iff {us vs : List Held} (hus : ∀ u ∈ us, u.From rs) (hvs : ∀ v ∈ vs, v.From rs) :
    us.isEqv vs equal = true ↔ us.map value = vs.map value := by
  induction us generalizing vs with
  | nil => cases vs <;> simp [List.isEqv]
  | cons u us ih =>
    cases vs with
    | nil => simp [List.isEqv]
    | cons v vs =>
      rw [List.forall_mem_cons] at hus hvs
      rw [List.isEqv_cons_cons, Bool.and_eq_true, equal_iff hus.1 hvs.1, ih hus.2 hvs.2, List.map_cons, List.map_cons,
        List.cons.injEq]

end Held

/-! ## sets -/

namespace ValueSet

theorem toList_eq_nil_iff {s : ValueSet} : s.toList = [] ↔ s = ∅ := by
  simp only [List.eq_nil_iff_forall_not_mem, mem_toList, ValueSet.ext_iff, not_mem_empty, iff_false]

/-- a list is stored exactly if there is a member -/
theorem map_toList_members (s : ValueSet) :
    s.members.map (·.toList) = if s.toList = [] then none else some s.toList := by
  cases hs : s.members with
  | none =>
    have hempty : s = ∅ := members_inj.1 hs
    rw [if_pos (toList_eq_nil_iff.2 hempty)]
    rfl
  | some r =>
    have hne : s ≠ ∅ := by
      intro e
      rw [e] at hs
      cases hs
    have hr : s.toList = r.toList := by
      show s.members.tree.toList = _
      rw [hs]
      rfl
    rw [if_neg (mt toList_eq_nil_iff.1 hne), hr]
    rfl

/-- sets compare as their increasing member lists -/
theorem compare_eq (s t : ValueSet) : compare s t = List.compareLex compare s.toList t.toList := by
  show compare (s.members.map (·.toList)) (t.members.map (·.toList)) = _
  rw [map_toList_members, map_toList_members]
  cases s.toList with
  | nil => cases t.toList <;> rfl
  | cons v vs => cases t.toList <;> rfl

theorem toList_ofList {vs : List Value} (h : vs.Pairwise (compare · · = .lt)) : (ofList vs).toList = vs := by
  apply eq_of_increasing (toList_sorted _) h
  intro v
  rw [mem_toList, mem_ofList]

theorem compare_empty {s : ValueSet} (h : s ≠ ∅) : compare ∅ s = .lt := by
  have hnil : (∅ : ValueSet).toList = [] := toList_eq_nil_iff.2 rfl
  rw [compare_eq, hnil]
  cases hs : s.toList with
  | nil => exact absurd (toList_eq_nil_iff.1 hs) h
  | cons v vs => rfl

end ValueSet

namespace Held

variable {rs : List Request} {us vs : List Held}

theorem increasing_map_value (hus : ∀ u ∈ us, u.From rs) (h : us.Pairwise (order · · = .lt)) :
    (us.map value).Pairwise (compare · · = .lt) := by
  rw [List.pairwise_map]
  refine h.imp_of_mem fun hu hv hlt => ?_
  rwa [← order_eq (hus _ hu) (hus _ hv)]

/-- sets compare as the increasing lists that they are collected from -/
theorem compare_ofList (hus : ∀ u ∈ us, u.From rs) (hvs : ∀ v ∈ vs, v.From rs) (hu : us.Pairwise (order · · = .lt))
    (hv : vs.Pairwise (order · · = .lt)) :
    compare (ValueSet.ofList (us.map value)) (ValueSet.ofList (vs.map value)) = List.compareLex order us vs := by
  rw [ValueSet.compare_eq, ValueSet.toList_ofList (increasing_map_value hus hu),
    ValueSet.toList_ofList (increasing_map_value hvs hv), compareLex_eq hus hvs, List.compare_eq_compareLex]

end Held

/-! ## all orders -/

open World in
/-- the orders of keys, values and sets are lawful, where handles are those of a run -/
structure LawfulOrders (rs : List Request) : Prop where
  method : Lawful Method
  field : Lawful Field
  var : Lawful Local
  parameter : Lawful Parameter
  site : Lawful Site
  callEdge : Lawful CallEdge
  key : ∀ k : Kind, Lawful k.Key
  value : Lawful Value
  valueSet : Lawful ValueSet
  /-- handles of one kind, from whichever tables -/
  handle : ∀ k : Kind, LawfulOn (Gave rs k) Handle.order Handle.equal
  heldField : ∀ hash : ObjectField → UInt64, LawfulOn (HeldField.Gave rs) Handle.order (HeldField.handleEqual hash)
  held : LawfulOn (Held.From rs) Held.order Held.equal
  heldList : LawfulOn (fun us : List Held => ∀ u ∈ us, u.From rs) (List.compareLex Held.order)
    fun us vs => us.isEqv vs Held.equal
  /-- neither the shortcut for one handle nor the hashes change an answer -/
  handle_order : ∀ {k : Kind} {h h' : Handle k.Key}, Gave rs k h → Gave rs k h' →
    h.order h' = compare h.key h'.key ∧ ∀ hash : k.Key → UInt64, h.equalBy hash h' = h.equal h'
  method_order : ∀ {a b : Method}, a.signature ≠ b.signature → compare a b = compare a.signature b.signature
  field_order : ∀ {a b : Field}, a.signature ≠ b.signature → compare a b = compare a.signature b.signature
  address_order : ∀ {a b : Handle Address}, Gave rs .address a → Gave rs .address b →
    a.key.site.text ≠ b.key.site.text → a.order b = compare a.key.site.text b.key.site.text
  heldField_order : ∀ {x y : Handle HeldField}, HeldField.Gave rs x → HeldField.Gave rs y →
    x.order y = (x.key.address.order y.key.address).then (compare x.key.field y.key.field)
  valueSet_order : ∀ s t : ValueSet, compare s t = List.compareLex compare s.toList t.toList
  /-- the list of a set has its members, in increasing order -/
  toList : ∀ s : ValueSet, s.toList.Pairwise (compare · · = .lt) ∧ ∀ v, v ∈ s.toList ↔ v ∈ s
  empty_first : ∀ s : ValueSet, s ≠ ∅ → compare ∅ s = .lt
  heldSet_order : ∀ {us vs : List Held}, (∀ u ∈ us, u.From rs) → (∀ v ∈ vs, v.From rs) →
    us.Pairwise (Held.order · · = .lt) → vs.Pairwise (Held.order · · = .lt) →
    compare (ValueSet.ofList (us.map Held.value)) (ValueSet.ofList (vs.map Held.value)) =
      List.compareLex Held.order us vs

/-- **Orders are lawful.**  Elements, keys, values and sets are totally ordered, and compare equal exactly if they are
equal, whichever tables their handles are from.  Signatures and texts decide wherever they differ, object fields are
ordered by address and then by field, and sets by their increasing member lists. -/
theorem orders_are_lawful (rs : List Request) : LawfulOrders rs where
  method := lawful Method
  field := lawful Field
  var := lawful Local
  parameter := lawful Parameter
  site := lawful Site
  callEdge := lawful CallEdge
  key k := lawful k.Key
  value := lawful Value
  valueSet := lawful ValueSet
  handle _ := .of_keys Handle.key World.order_eq World.equal_iff
  heldField hash := .of_keys (fun x => x.key.key) HeldField.order_eq (HeldField.handleEqual_iff hash)
  held := .of_keys Held.value Held.order_eq Held.equal_iff
  heldList := .of_keys (List.map Held.value) Held.compareLex_eq Held.isEqv_iff
  handle_order hg hg' := ⟨World.order_eq hg hg', fun hash => Handle.equalBy_eq hash _ _⟩
  method_order h := compareLex_of_ne Method.signature _ h
  field_order h := compareLex_of_ne Field.signature _ h
  address_order hg hg' h := (World.order_eq hg hg').trans (compareLex_of_ne Site.text _ h)
  heldField_order hx hy := (HeldField.order_eq hx hy).trans (HeldField.compare_eq hx hy).symm
  valueSet_order := ValueSet.compare_eq
  toList s := ⟨s.toList_sorted, fun _ => ValueSet.mem_toList⟩
  empty_first _ := ValueSet.compare_empty
  heldSet_order := Held.compare_ofList

namespace Sample

/-- the first box, by a handle of one table -/
def clean : List Held := [.address (boxHandle 0)]

/-- the first box, by a handle of another table, and a taint -/
def tainted : List Held := [.address (boxHandle 1), .atom (.taint "x")]

end Sample

open Sample in
theorem orders_are_lawful_boxes :
    blankType.signature = blankName.signature ∧ compare blankType blankName ≠ .eq ∧
      compare shared Sample.hidden = compare shared.signature Sample.hidden.signature ∧
      (boxHandle 0).same (boxHandle 1) = false ∧ (boxHandle 0).order (boxHandle 1) = .eq ∧
      (sharedBy 0).order (sharedBy 1) = .eq ∧
      compare (ValueSet.ofList (clean.map Held.value)) (ValueSet.ofList (tainted.map Held.value)) = .lt := by
  have h := orders_are_lawful twoTables
  have h₀ := mem_given_boxHandle (.inl rfl)
  have h₁ := mem_given_boxHandle (.inr rfl)
  have hclean : ∀ u ∈ clean, u.From twoTables := by
    simp only [clean, List.forall_mem_cons, List.not_mem_nil, false_implies, implies_true, and_true]
    exact ⟨_, _, h₀⟩
  have htainted : ∀ u ∈ tainted, u.From twoTables := by
    simp only [tainted, List.forall_mem_cons, List.not_mem_nil, false_implies, implies_true, and_true]
    exact ⟨⟨_, _, h₁⟩, trivial⟩
  refine ⟨by decide, ?_, h.field_order (by decide), by decide, ?_, ?_, ?_⟩
  · rw [ne_eq, h.field.eq_iff trivial trivial]
    decide
  · exact ((h.handle .address).eq_iff ⟨_, _, h₀⟩ ⟨_, _, h₁⟩).2 (by decide)
  · rw [h.heldField_order (gave_sharedBy (.inl rfl)) (gave_sharedBy (.inr rfl))]
    decide
  · rw [h.heldSet_order hclean htainted (by decide) (by decide)]
    decide

end InfoFlow
