import Mathlib.Data.Finset.Card
import Mathlib.Logic.Function.Basic
import InfoFlow.Proofs.Reading
import InfoFlow.Intern.Tables

/-!
# Interning over whole runs

A run is a list of calls on any number of tables, mixed in any order.

* `KeyTable.Sound`: each key has the handle that was made for it, and no two keys share one;
* `Call.run_of_key`, `Call.run_of_refused`: all that one call can do to its tables;
* `World.get?_after`, `World.isSome_get?_after`: a table keeps every handle, and has the keys it was asked for;
* `World.get?_of_mem_given`: what was handed out is what the tables have at the end;
* `interned_handles_identify_keys`: within the tables that made them, handles stand for their keys.
-/

namespace InfoFlow

open Std

/-! ## one table -/

namespace KeyTable

variable {κ : Type} [Ord κ] [TransOrd κ] {t : KeyTable κ} {owner : Nat}

theorem intern_of_some {k : κ} {h : Handle κ} (hk : t.get? k = some h) : t.intern owner k = ⟨h, t, false⟩ := by
  show Id.run (Table.internWith t k _) = _
  rw [Table.internWith_of_some hk]
  rfl

theorem intern_of_none {k : κ} (hk : t.get? k = none) :
    t.intern owner k = ⟨⟨k, owner, t.size⟩, ⟨t.handles.insert k ⟨k, owner, t.size⟩⟩, true⟩ := by
  show Id.run (Table.internWith t k _) = _
  rw [Table.internWith_of_none hk]
  rfl

theorem log_intern (t : KeyTable κ) (owner : Nat) (k : κ) :
    (t.intern owner k).log = if (t.get? k).isSome then [] else [.interned] := by
  cases hk : t.get? k with
  | some h => rw [intern_of_some hk]; rfl
  | none => rw [intern_of_none hk]; rfl

theorem size_intern_of_none (owner : Nat) {k : κ} (hk : t.get? k = none) :
    (t.intern owner k).table.size = t.size + 1 := by
  have hc : t.handles.contains k = false := by
    rw [ExtTreeMap.contains_eq_isSome_getElem?]
    show (t.get? k).isSome = false
    rw [hk]
    rfl
  rw [intern_of_none hk]
  show (t.handles.insert k _).size = t.handles.size + 1
  rw [ExtTreeMap.size_insert, if_neg (by rw [hc]; exact Bool.false_ne_true)]

/-- the handle of each key is the one that the tables of `owner` made for it, and serves no other key -/
structure Sound (t : KeyTable κ) (owner : Nat) : Prop where
  key_eq : ∀ {k h}, t.get? k = some h → h.key = k
  owner_eq : ∀ {k h}, t.get? k = some h → h.owner = owner
  serial_lt : ∀ {k h}, t.get? k = some h → h.serial < t.size
  serial_inj : ∀ {j k g h}, t.get? j = some g → t.get? k = some h → g.serial = h.serial → j = k

theorem get?_empty (k : κ) : (Table.empty : KeyTable κ).get? k = none := ExtTreeMap.getElem?_empty

theorem Sound.empty (owner : Nat) : Sound (Table.empty : KeyTable κ) owner := by
  have hn : ∀ {k : κ} {h : Handle κ}, (Table.empty : KeyTable κ).get? k ≠ some h := by
    intro k h hk
    rw [get?_empty] at hk
    cases hk
  exact ⟨fun h => absurd h hn, fun h => absurd h hn, fun h => absurd h hn, fun h => absurd h hn⟩

theorem Sound.key_intern (ht : t.Sound owner) (k : κ) : (t.intern owner k).handle.key = k := by
  cases hk : t.get? k with
  | some h =>
    rw [intern_of_some hk]
    exact ht.key_eq hk
  | none => rw [intern_of_none hk]

variable [LawfulEqOrd κ] [DecidableEq κ]

theorem get?_intern (t : KeyTable κ) (owner : Nat) (k j : κ) :
    (t.intern owner k).table.get? j = if k = j then some (t.intern owner k).handle else t.get? j := by
  cases hk : t.get? k with
  | some h =>
    rw [intern_of_some hk]
    by_cases hj : k = j
    · rw [if_pos hj, ← hj]
      exact hk
    · rw [if_neg hj]
  | none =>
    rw [intern_of_none hk]
    show (t.handles.insert k _)[j]? = _
    rw [ExtTreeMap.getElem?_insert]
    simp only [Std.compare_eq_iff_eq]
    rfl

/-- a handle that a key has is never replaced -/
theorem get?_intern_of_some {j : κ} {h : Handle κ} (hj : t.get? j = some h) (owner : Nat) (k : κ) :
    (t.intern owner k).table.get? j = some h := by
  rw [get?_intern]
  by_cases e : k = j
  · rw [if_pos e, intern_of_some (e ▸ hj)]
  · rw [if_neg e, hj]

theorem Sound.intern (ht : t.Sound owner) (k : κ) : Sound (t.intern owner k).table owner := by
  cases hk : t.get? k with
  | some h =>
    rw [intern_of_some hk]
    exact ht
  | none =>
    have hget : ∀ {j h}, (t.intern owner k).table.get? j = some h →
        j = k ∧ h = ⟨k, owner, t.size⟩ ∨ t.get? j = some h := by
      intro j h hj
      rw [get?_intern, intern_of_none hk] at hj
      by_cases e : k = j
      · rw [if_pos e] at hj
        exact .inl ⟨e.symm, (Option.some.inj hj).symm⟩
      · rw [if_neg e] at hj
        exact .inr hj
    have hsize := size_intern_of_none owner hk
    refine ⟨fun hj => ?_, fun hj => ?_, fun hj => ?_, fun hi hj he => ?_⟩
    · obtain ⟨rfl, rfl⟩ | hj := hget hj
      · rfl
      · exact ht.key_eq hj
    · obtain ⟨rfl, rfl⟩ | hj := hget hj
      · rfl
      · exact ht.owner_eq hj
    · rw [hsize]
      obtain ⟨rfl, rfl⟩ | hj := hget hj
      · exact Nat.lt_succ_self _
      · exact Nat.lt_succ_of_lt (ht.serial_lt hj)
    · -- the new serial is above all others
      obtain ⟨rfl, rfl⟩ | hi' := hget hi
      · obtain ⟨rfl, _⟩ | hj := hget hj
        · rfl
        · exact absurd he (Nat.ne_of_gt (ht.serial_lt hj))
      · obtain ⟨rfl, rfl⟩ | hj := hget hj
        · exact absurd he (Nat.ne_of_lt (ht.serial_lt hi'))
        · exact ht.serial_inj hi' hj he

/-- a table has as many handles as it has keys -/
theorem size_eq_card {ks : List κ} (h : ∀ k, (t.get? k).isSome ↔ k ∈ ks) :
    t.size = ks.toFinset.card := by
  have hk : t.handles.keys.toFinset = ks.toFinset := by
    apply Finset.ext
    intro k
    rw [List.mem_toFinset, List.mem_toFinset, ← h k, ExtTreeMap.mem_keys, ExtTreeMap.mem_iff_isSome_getElem?]
    rfl
  rw [← hk, List.toFinset_card_of_nodup ExtTreeMap.nodup_keys, ExtTreeMap.length_keys]
  rfl

end KeyTable

/-! ## the five kinds -/

inductive Kind
  | context
  | address
  | objectField
  | localSlot
  | paramSlot
deriving DecidableEq

namespace Kind

/-- the keys of a kind -/
def Key : Kind → Type
  | context => Context
  | address => Address
  | objectField => ObjectField
  | localSlot => LocalSlot
  | paramSlot => ParamSlot

instance : (k : Kind) → DecidableEq k.Key
  | context => inferInstanceAs (DecidableEq Context)
  | address => inferInstanceAs (DecidableEq Address)
  | objectField => inferInstanceAs (DecidableEq ObjectField)
  | localSlot => inferInstanceAs (DecidableEq LocalSlot)
  | paramSlot => inferInstanceAs (DecidableEq ParamSlot)

instance : (k : Kind) → Ord k.Key
  | context => inferInstanceAs (Ord Context)
  | address => inferInstanceAs (Ord Address)
  | objectField => inferInstanceAs (Ord ObjectField)
  | localSlot => inferInstanceAs (Ord LocalSlot)
  | paramSlot => inferInstanceAs (Ord ParamSlot)

instance : (k : Kind) → TransOrd k.Key
  | context => inferInstanceAs (TransOrd Context)
  | address => inferInstanceAs (TransOrd Address)
  | objectField => inferInstanceAs (TransOrd ObjectField)
  | localSlot => inferInstanceAs (TransOrd LocalSlot)
  | paramSlot => inferInstanceAs (TransOrd ParamSlot)

instance : (k : Kind) → LawfulEqOrd k.Key
  | context => inferInstanceAs (LawfulEqOrd Context)
  | address => inferInstanceAs (LawfulEqOrd Address)
  | objectField => inferInstanceAs (LawfulEqOrd ObjectField)
  | localSlot => inferInstanceAs (LawfulEqOrd LocalSlot)
  | paramSlot => inferInstanceAs (LawfulEqOrd ParamSlot)

end Kind

namespace Tables

/-- the table of one kind -/
def table (t : Tables) : (k : Kind) → KeyTable k.Key
  | .context => t.contexts
  | .address => t.addresses
  | .objectField => t.objectFields
  | .localSlot => t.localSlots
  | .paramSlot => t.paramSlots

/-- the tables with another table of one kind -/
def setTable (t : Tables) : (k : Kind) → KeyTable k.Key → Tables
  | .context, u => { t with contexts := u }
  | .address, u => { t with addresses := u }
  | .objectField, u => { t with objectFields := u }
  | .localSlot, u => { t with localSlots := u }
  | .paramSlot, u => { t with paramSlots := u }

theorem owner_setTable (t : Tables) (k : Kind) (u : KeyTable k.Key) : (t.setTable k u).owner = t.owner := by
  cases k <;> rfl

theorem table_setTable (t : Tables) (k : Kind) (u : KeyTable k.Key) :
    (t.setTable k u).table = Function.update t.table k u := by
  funext j
  cases k <;> cases j <;> rfl

end Tables

/-! ## parameters -/

namespace Tables

variable (t : Tables) {m : Method} {p : Parameter}

theorem paramSlot_of_declared (h : m.params[p.index]? = some p.type) :
    t.paramSlot m p = ⟨.ok (t.paramSlots.intern t.owner ⟨m, p⟩).handle,
      { t with paramSlots := (t.paramSlots.intern t.owner ⟨m, p⟩).table },
      (t.paramSlots.intern t.owner ⟨m, p⟩).log⟩ := by
  rw [paramSlot, h]
  exact if_pos rfl

theorem paramSlot_of_none (h : m.params[p.index]? = none) :
    t.paramSlot m p = ⟨.error (.parameterOutOfRange m p.index), t, []⟩ := by
  rw [paramSlot, h]

theorem paramSlot_of_ne {d : String} (h : m.params[p.index]? = some d) (hne : d ≠ p.type) :
    t.paramSlot m p = ⟨.error (.parameterType m p.index d p.type), t, []⟩ := by
  rw [paramSlot, h]
  exact if_neg hne

end Tables

/-! ## calls -/

/-- a request for the handle of a key; the address of an object field is given by a handle, from whichever
    tables -/
inductive Call
  | context (entry call : CallEdge)
  | address (site : Site)
  | objectField (address : Handle Address) (field : Field)
  | localSlot (method : Method) (var : Local)
  | paramSlot (method : Method) (param : Parameter)

/-- what comes of a call -/
structure Outcome where
  answer : Except Error ((k : Kind) × Handle k.Key)
  tables : Tables
  log : List Event

namespace Call

def run (t : Tables) : Call → Outcome
  | context e c => let i := t.context e c; ⟨.ok ⟨.context, i.handle⟩, i.tables, i.log⟩
  | address s => let i := t.address s; ⟨.ok ⟨.address, i.handle⟩, i.tables, i.log⟩
  | objectField a f => let i := t.objectField a.key f; ⟨.ok ⟨.objectField, i.handle⟩, i.tables, i.log⟩
  | localSlot m v => let i := t.localSlot m v; ⟨.ok ⟨.localSlot, i.handle⟩, i.tables, i.log⟩
  | paramSlot m p => let a := t.paramSlot m p; ⟨a.answer.map (⟨.paramSlot, ·⟩), a.tables, a.log⟩

/-- the key that a call asks for; a parameter that its method does not declare is none -/
def key? : Call → Option ((k : Kind) × k.Key)
  | context e c => some ⟨.context, (⟨e, c⟩ : Context)⟩
  | address s => some ⟨.address, (⟨s⟩ : Address)⟩
  | objectField a f => some ⟨.objectField, (⟨a.key, f⟩ : ObjectField)⟩
  | localSlot m v => some ⟨.localSlot, (⟨m, v⟩ : LocalSlot)⟩
  | paramSlot m p =>
    if m.params[p.index]? = some p.type then some ⟨.paramSlot, (⟨m, p⟩ : ParamSlot)⟩ else none

/-- a call for a key interns it in the table of its kind -/
theorem run_of_key (t : Tables) {c : Call} {k : Kind} {key : k.Key} (hc : c.key? = some ⟨k, key⟩) :
    c.run t = ⟨.ok ⟨k, ((t.table k).intern t.owner key).handle⟩,
      t.setTable k ((t.table k).intern t.owner key).table, ((t.table k).intern t.owner key).log⟩ := by
  cases c with
  | context e call => cases hc; rfl
  | address s => cases hc; rfl
  | objectField a f => cases hc; rfl
  | localSlot m v => cases hc; rfl
  | paramSlot m p =>
    rw [key?] at hc
    by_cases h : m.params[p.index]? = some p.type
    · rw [if_pos h] at hc
      cases hc
      rw [run, t.paramSlot_of_declared h]
      rfl
    · rw [if_neg h] at hc
      cases hc

/-- a refused call leaves no trace -/
theorem run_of_refused (t : Tables) {c : Call} (hc : c.key? = none) : ∃ e, c.run t = ⟨.error e, t, []⟩ := by
  cases c with
  | context e call => cases hc
  | address s => cases hc
  | objectField a f => cases hc
  | localSlot m v => cases hc
  | paramSlot m p =>
    rw [key?] at hc
    cases hd : m.params[p.index]? with
    | none =>
      rw [run, t.paramSlot_of_none hd]
      exact ⟨_, rfl⟩
    | some d =>
      have hne : d ≠ p.type := by
        intro e
        rw [if_pos (e ▸ hd)] at hc
        cases hc
      rw [run, t.paramSlot_of_ne hd hne]
      exact ⟨_, rfl⟩

/-- the key of one kind that a call asks for -/
def keyOf? (c : Call) (k : Kind) : Option k.Key :=
  match c.key? with
  | some ⟨j, key⟩ => if h : j = k then some (h ▸ key) else none
  | none => none

theorem keyOf?_eq_some_iff {c : Call} {k : Kind} {key : k.Key} :
    c.keyOf? k = some key ↔ c.key? = some ⟨k, key⟩ := by
  unfold keyOf?
  cases hc : c.key? with
  | none => simp
  | some x =>
    obtain ⟨j, key'⟩ := x
    by_cases hj : j = k
    · subst hj
      simp
    · simp [hj]

/-- all that a call can do to a table -/
theorem table_run (t : Tables) (c : Call) (k : Kind) :
    (c.run t).tables.table k =
      match c.keyOf? k with
      | some key => ((t.table k).intern t.owner key).table
      | none => t.table k := by
  cases hk : c.keyOf? k with
  | some key => rw [run_of_key t (keyOf?_eq_some_iff.1 hk), Tables.table_setTable, Function.update_self]
  | none =>
    cases hc : c.key? with
    | none =>
      obtain ⟨e, he⟩ := run_of_refused t hc
      rw [he]
    | some x =>
      obtain ⟨j, key⟩ := x
      have hj : k ≠ j := by
        rintro rfl
        rw [keyOf?_eq_some_iff.2 hc] at hk
        cases hk
      rw [run_of_key t hc, Tables.table_setTable, Function.update_of_ne hj]

theorem owner_run (t : Tables) (c : Call) : (c.run t).tables.owner = t.owner := by
  cases hc : c.key? with
  | none =>
    obtain ⟨e, he⟩ := run_of_refused t hc
    rw [he]
  | some x => rw [run_of_key t hc, Tables.owner_setTable]

end Call

namespace Tables

/-- all five tables are sound -/
def Sound (t : Tables) : Prop := ∀ k, (t.table k).Sound t.owner

theorem Sound.empty (owner : Nat) : Sound (Tables.empty owner) := by
  intro k
  cases k <;> exact .empty owner

theorem Sound.run {t : Tables} (ht : t.Sound) (c : Call) : Sound (c.run t).tables := by
  intro k
  rw [Call.table_run, Call.owner_run]
  cases c.keyOf? k with
  | some key => exact (ht k).intern key
  | none => exact ht k

end Tables

/-! ## runs -/

/-- a call on the tables of some owner -/
structure Request where
  owner : Nat
  call : Call

/-- the key that is asked for in the table of kind `k` of owner `o` -/
def Request.key? (r : Request) (o : Nat) (k : Kind) : Option k.Key :=
  if r.owner = o then r.call.keyOf? k else none

theorem Request.key?_eq_some_iff {r : Request} {o : Nat} {k : Kind} {key : k.Key} :
    r.key? o k = some key ↔ r.owner = o ∧ r.call.key? = some ⟨k, key⟩ := by
  unfold key?
  by_cases ho : r.owner = o
  · rw [if_pos ho, Call.keyOf?_eq_some_iff]
    exact (and_iff_right ho).symm
  · rw [if_neg ho]
    simp [ho]

theorem Request.key?_eq_none_iff {r : Request} {o : Nat} {k : Kind} :
    r.key? o k = none ↔ r.owner ≠ o ∨ ∀ key, r.call.key? ≠ some ⟨k, key⟩ := by
  rw [Option.eq_none_iff_forall_ne_some]
  simp only [ne_eq, key?_eq_some_iff, not_and]
  by_cases ho : r.owner = o
  · simp [ho]
  · simp [ho]

/-- the tables of each owner -/
abbrev World := Nat → Tables

/-- a handle that was handed out: by whose tables, and for which call -/
structure Given where
  owner : Nat
  call : Call
  kind : Kind
  handle : Handle kind.Key

namespace World

def start : World := Tables.empty

def step (w : World) (r : Request) : World := Function.update w r.owner (r.call.run (w r.owner)).tables

def after (w : World) (rs : List Request) : World := rs.foldl step w

/-- the handles that are handed out in the course of a run -/
def given (w : World) : List Request → List Given
  | [] => []
  | r :: rs =>
    match (r.call.run (w r.owner)).answer with
    | .ok ⟨k, h⟩ => ⟨r.owner, r.call, k, h⟩ :: given (w.step r) rs
    | .error _ => given (w.step r) rs

/-- the keys that the table of kind `k` of owner `o` is asked for in the course of a run -/
def asked (o : Nat) (k : Kind) (rs : List Request) : List k.Key := rs.filterMap fun r => r.key? o k

theorem after_append (w : World) (rs more : List Request) : w.after (rs ++ more) = (w.after rs).after more :=
  List.foldl_append

/-- all that a request can do to a table -/
theorem table_step (w : World) (r : Request) (o : Nat) (k : Kind) :
    (w.step r o).table k =
      match r.key? o k with
      | some key => (((w o).table k).intern (w o).owner key).table
      | none => (w o).table k := by
  unfold step Request.key?
  by_cases ho : r.owner = o
  · subst ho
    rw [Function.update_self, if_pos rfl]
    exact Call.table_run _ _ _
  · rw [Function.update_of_ne (Ne.symm ho), if_neg ho]

/-! ## what a run preserves -/

/-- every table of the world is sound, and known by its owner -/
structure Sound (w : World) : Prop where
  owner_eq : ∀ o, (w o).owner = o
  tables : ∀ o, (w o).Sound

theorem Sound.table {w : World} (hw : w.Sound) (o : Nat) (k : Kind) : ((w o).table k).Sound o := by
  have h := hw.tables o k
  rwa [hw.owner_eq] at h

theorem Sound.start : Sound start where
  owner_eq _ := rfl
  tables := Tables.Sound.empty

theorem Sound.step {w : World} (hw : w.Sound) (r : Request) : Sound (w.step r) where
  owner_eq o := by
    unfold World.step
    by_cases ho : o = r.owner
    · subst ho
      rw [Function.update_self, Call.owner_run, hw.owner_eq]
    · rw [Function.update_of_ne ho, hw.owner_eq]
  tables o := by
    unfold World.step
    by_cases ho : o = r.owner
    · subst ho
      rw [Function.update_self]
      exact (hw.tables _).run _
    · rw [Function.update_of_ne ho]
      exact hw.tables o

theorem Sound.after {w : World} (hw : w.Sound) (rs : List Request) : Sound (w.after rs) := by
  induction rs generalizing w with
  | nil => exact hw
  | cons r rs ih => exact ih (hw.step r)

theorem get?_step {w : World} {o : Nat} {k : Kind} {key : k.Key} {h : Handle k.Key}
    (hk : ((w o).table k).get? key = some h) (r : Request) : ((w.step r o).table k).get? key = some h := by
  rw [table_step]
  cases r.key? o k with
  | some key' => exact KeyTable.get?_intern_of_some hk _ _
  | none => exact hk

/-- no table loses a key or changes its handle -/
theorem get?_after {w : World} {o : Nat} {k : Kind} {key : k.Key} {h : Handle k.Key}
    (hk : ((w o).table k).get? key = some h) (rs : List Request) : ((w.after rs o).table k).get? key = some h := by
  induction rs generalizing w with
  | nil => exact hk
  | cons r rs ih => exact ih (get?_step hk r)

theorem isSome_get?_step (w : World) (r : Request) (o : Nat) (k : Kind) (key : k.Key) :
    (((w.step r o).table k).get? key).isSome ↔ (((w o).table k).get? key).isSome ∨ r.key? o k = some key := by
  rw [table_step]
  cases r.key? o k with
  | some key' =>
    show (Table.get? (((w o).table k).intern (w o).owner key').table key).isSome ↔ _
    rw [KeyTable.get?_intern, Option.some.injEq]
    by_cases e : key' = key
    · simp [e]
    · simp [e]
  | none => simp

/-- a table has the keys that it had and those it was asked for -/
theorem isSome_get?_after (w : World) (rs : List Request) (o : Nat) (k : Kind) (key : k.Key) :
    (((w.after rs o).table k).get? key).isSome ↔ (((w o).table k).get? key).isSome ∨ key ∈ asked o k rs := by
  induction rs generalizing w with
  | nil => simp [after, asked]
  | cons r rs ih =>
    show (((after (w.step r) rs o).table k).get? key).isSome ↔ _
    rw [ih, isSome_get?_step, or_assoc]
    apply or_congr_right
    rw [asked, asked, List.mem_filterMap, List.mem_filterMap]
    simp

theorem isSome_get?_after_start (rs : List Request) (o : Nat) (k : Kind) (key : k.Key) :
    (((start.after rs o).table k).get? key).isSome ↔ key ∈ asked o k rs := by
  have hn : ((start o).table k).get? key = none := by
    cases k <;> exact KeyTable.get?_empty _
  rw [isSome_get?_after, hn]
  simp

/-! ## what is handed out -/

/-- a call is answered by a handle of the key it asks for, which its table has from then on -/
theorem get?_of_answer {w : World} (hw : w.Sound) {r : Request} {k : Kind} {h : Handle k.Key}
    (ha : (r.call.run (w r.owner)).answer = .ok ⟨k, h⟩) :
    r.call.key? = some ⟨k, h.key⟩ ∧ ((w.step r r.owner).table k).get? h.key = some h := by
  cases hc : r.call.key? with
  | none =>
    obtain ⟨e, he⟩ := Call.run_of_refused (w r.owner) hc
    rw [he] at ha
    cases ha
  | some x =>
    obtain ⟨j, key⟩ := x
    rw [Call.run_of_key _ hc, hw.owner_eq] at ha
    cases ha
    have hkey := (hw.table r.owner k).key_intern key
    rw [hkey]
    refine ⟨rfl, ?_⟩
    rw [table_step, Request.key?_eq_some_iff.2 ⟨rfl, hc⟩, hw.owner_eq]
    show Table.get? (((w r.owner).table k).intern r.owner key).table key = _
    rw [KeyTable.get?_intern, if_pos rfl]

theorem get?_of_mem_given {w : World} (hw : w.Sound) {rs : List Request} {g : Given} (hg : g ∈ w.given rs) :
    g.call.key? = some ⟨g.kind, g.handle.key⟩ ∧
      ((w.after rs g.owner).table g.kind).get? g.handle.key = some g.handle := by
  induction rs generalizing w with
  | nil => cases hg
  | cons r rs ih =>
    show _ ∧ ((after (w.step r) rs g.owner).table g.kind).get? g.handle.key = some g.handle
    rw [given] at hg
    split at hg
    · next k h ha =>
      rcases List.mem_cons.1 hg with rfl | hg
      · obtain ⟨hc, hs⟩ := get?_of_answer hw ha
        exact ⟨hc, get?_after hs rs⟩
      · exact ih (hw.step r) hg
    · exact ih (hw.step r) hg

theorem exists_mem_given {w : World} (hw : w.Sound) {rs : List Request} {r : Request} (hr : r ∈ rs) {k : Kind}
    {key : k.Key} (hc : r.call.key? = some ⟨k, key⟩) : ∃ h, ⟨r.owner, r.call, k, h⟩ ∈ w.given rs := by
  induction rs generalizing w with
  | nil => cases hr
  | cons x rs ih =>
    rw [given]
    rcases List.mem_cons.1 hr with rfl | hr
    · rw [Call.run_of_key _ hc]
      exact ⟨_, List.mem_cons_self⟩
    · obtain ⟨h, hh⟩ := ih (hw.step x) hr
      split
      · exact ⟨h, List.mem_cons_of_mem _ hh⟩
      · exact ⟨h, hh⟩

/-- handed-out handles of one kind are one exactly if the same tables made them for the same key -/
theorem same_iff {w : World} (hw : w.Sound) {rs : List Request} {k : Kind} {o o' : Nat} {c c' : Call}
    {h h' : Handle k.Key} (hg : ⟨o, c, k, h⟩ ∈ w.given rs) (hg' : ⟨o', c', k, h'⟩ ∈ w.given rs) :
    h.same h' = true ↔ o = o' ∧ h.key = h'.key := by
  obtain ⟨-, hk⟩ := get?_of_mem_given hw hg
  obtain ⟨-, hk'⟩ := get?_of_mem_given hw hg'
  have hend := hw.after rs
  have ho : h.owner = o := (hend.table o k).owner_eq hk
  have ho' : h'.owner = o' := (hend.table o' k).owner_eq hk'
  rw [Handle.same, Bool.and_eq_true, beq_iff_eq, beq_iff_eq, ho, ho']
  refine and_congr_right fun e => ?_
  subst e
  constructor
  · exact (hend.table o k).serial_inj hk hk'
  · intro e
    have e' : some h = some h' := by
      rw [← hk, ← hk']
      exact congrArg _ e
    rw [Option.some.inj e']

end World

/-! ## comparing handles -/

namespace Handle

variable {κ : Type} [DecidableEq κ] {a b : Handle κ}

/-- equality where stored hashes are compared before keys -/
def equalBy (hash : κ → UInt64) (a b : Handle κ) : Bool :=
  a.same b || (hash a.key == hash b.key && decide (a.key = b.key))

/-- handles of tables `o` and `o'` stand for their keys -/
structure Identifies [Ord κ] (o o' : Nat) (a b : Handle κ) : Prop where
  same_iff : a.same b = true ↔ o = o' ∧ a.key = b.key
  equal_iff : a.equal b = true ↔ a.key = b.key
  equalBy_iff : ∀ hash : κ → UInt64, a.equalBy hash b = true ↔ a.key = b.key
  order_eq_iff : a.order b = .eq ↔ a.key = b.key

/-- the shortcut for one handle never changes the answer -/
theorem identifies_of_same_iff [Ord κ] [LawfulEqOrd κ] {o o' : Nat}
    (h : a.same b = true ↔ o = o' ∧ a.key = b.key) : a.Identifies o o' b where
  same_iff := h
  equal_iff := by
    rw [equal, Bool.or_eq_true, decide_eq_true_eq, h]
    exact or_iff_right_of_imp And.right
  equalBy_iff hash := by
    rw [equalBy, Bool.or_eq_true, Bool.and_eq_true, beq_iff_eq, decide_eq_true_eq, h]
    constructor
    · rintro (e | e)
      · exact e.2
      · exact e.2
    · intro e
      exact .inr ⟨congrArg hash e, e⟩
  order_eq_iff := by
    unfold order
    split
    · next e => simp [(h.1 e).2]
    · exact Std.compare_eq_iff_eq

end Handle

namespace World

variable {w : World} {rs : List Request}

theorem identifies_of_mem_given (hw : w.Sound) {k : Kind} {o o' : Nat} {c c' : Call} {h h' : Handle k.Key}
    (hg : ⟨o, c, k, h⟩ ∈ w.given rs) (hg' : ⟨o', c', k, h'⟩ ∈ w.given rs) : h.Identifies o o' h' :=
  Handle.identifies_of_same_iff (same_iff hw hg hg')

theorem key_of_mem_given (hw : w.Sound) {o : Nat} {a : Handle Address} {f : Field} {x : Handle ObjectField}
    (hx : ⟨o, .objectField a f, .objectField, x⟩ ∈ w.given rs) : x.key = ⟨a.key, f⟩ := by
  have hk : some (⟨.objectField, (⟨a.key, f⟩ : ObjectField)⟩ : (k : Kind) × k.Key) = some ⟨.objectField, x.key⟩ :=
    (get?_of_mem_given hw hx).1
  exact (eq_of_heq (Sigma.mk.inj (Option.some.inj hk)).2).symm

theorem objectField_same_iff (hw : w.Sound) {o o₁ o₂ : Nat} {c₁ c₂ : Call} {a b : Handle Address} {f g : Field}
    {x y : Handle ObjectField}
    (ha : ⟨o₁, c₁, .address, a⟩ ∈ w.given rs) (hb : ⟨o₂, c₂, .address, b⟩ ∈ w.given rs)
    (hx : ⟨o, .objectField a f, .objectField, x⟩ ∈ w.given rs)
    (hy : ⟨o, .objectField b g, .objectField, y⟩ ∈ w.given rs) :
    x.same y = true ↔ a.equal b = true ∧ f = g := by
  have hab : a.equal b = true ↔ a.key = b.key := (identifies_of_mem_given hw ha hb).equal_iff
  have hxy : x.same y = true ↔ o = o ∧ x.key = y.key := same_iff hw hx hy
  rw [hxy, hab, key_of_mem_given hw hx, key_of_mem_given hw hy, ObjectField.mk.injEq]
  exact and_iff_right rfl

end World

/-! ## whole runs -/

namespace World

/-- what handles, tables and logs are like after a run that starts with empty tables -/
structure Identity (rs : List Request) : Prop where
  key_given : ∀ {o : Nat} {c : Call} {k : Kind} {h : Handle k.Key}, ⟨o, c, k, h⟩ ∈ start.given rs →
    c.key? = some ⟨k, h.key⟩
  identifies : ∀ {k : Kind} {o o' : Nat} {c c' : Call} {h h' : Handle k.Key},
    ⟨o, c, k, h⟩ ∈ start.given rs → ⟨o', c', k, h'⟩ ∈ start.given rs → h.Identifies o o' h'
  /-- equal addresses make one object field, whichever tables their handles are from -/
  objectField_same_iff : ∀ {o o₁ o₂ : Nat} {c₁ c₂ : Call} {a b : Handle Address} {f g : Field}
    {x y : Handle ObjectField},
    ⟨o₁, c₁, .address, a⟩ ∈ start.given rs → ⟨o₂, c₂, .address, b⟩ ∈ start.given rs →
    ⟨o, .objectField a f, .objectField, x⟩ ∈ start.given rs →
    ⟨o, .objectField b g, .objectField, y⟩ ∈ start.given rs →
    (x.same y = true ↔ a.equal b = true ∧ f = g)
  answered : ∀ r ∈ rs, ∀ (k : Kind) (key : k.Key), r.call.key? = some ⟨k, key⟩ →
    ∃ h, ⟨r.owner, r.call, k, h⟩ ∈ start.given rs
  size_eq : ∀ o k, ((start.after rs o).table k).size = (asked o k rs).toFinset.card
  kept : ∀ (more : List Request) {o : Nat} {k : Kind} {key : k.Key} {h : Handle k.Key},
    ((start.after rs o).table k).get? key = some h → ((start.after (rs ++ more) o).table k).get? key = some h
  /-- the next call leaves a line in the log exactly if its key is new to its table -/
  log_eq : ∀ r : Request, (r.call.run (start.after rs r.owner)).log =
    match r.call.key? with
    | some ⟨k, key⟩ => if key ∈ asked r.owner k rs then [] else [.interned]
    | none => []
  untouched : ∀ (r : Request) (o : Nat) (k : Kind), (r.owner ≠ o ∨ ∀ key, r.call.key? ≠ some ⟨k, key⟩) →
    (start.after (rs ++ [r]) o).table k = (start.after rs o).table k

theorem log_run (rs : List Request) (r : Request) : (r.call.run (start.after rs r.owner)).log =
    match r.call.key? with
    | some ⟨k, key⟩ => if key ∈ asked r.owner k rs then [] else [.interned]
    | none => [] := by
  cases hc : r.call.key? with
  | none =>
    obtain ⟨e, he⟩ := Call.run_of_refused (start.after rs r.owner) hc
    rw [he]
  | some x =>
    obtain ⟨k, key⟩ := x
    rw [Call.run_of_key _ hc]
    show Table.Answer.log _ = if key ∈ asked r.owner k rs then [] else [.interned]
    rw [KeyTable.log_intern]
    simp only [isSome_get?_after_start]

theorem table_after_concat (rs : List Request) {r : Request} {o : Nat} {k : Kind}
    (h : r.owner ≠ o ∨ ∀ key, r.call.key? ≠ some ⟨k, key⟩) :
    (start.after (rs ++ [r]) o).table k = (start.after rs o).table k := by
  rw [after_append]
  show (step (start.after rs) r o).table k = _
  rw [table_step, Request.key?_eq_none_iff.2 h]

end World

open World in
/-- **Handles stand for keys.**  In a run of calls on any number of tables, two handles of one kind are one exactly
if the same tables made them for the same key, and they compare as their keys do, whichever tables made them.
Each table has one handle for each key it was asked for, which it keeps, and is left alone by all other calls. -/
theorem interned_handles_identify_keys (rs : List Request) : Identity rs where
  key_given hg := (get?_of_mem_given .start hg).1
  identifies hg hg' := identifies_of_mem_given .start hg hg'
  objectField_same_iff ha hb hx hy := objectField_same_iff .start ha hb hx hy
  answered r hr k key hc := exists_mem_given .start hr hc
  size_eq o k := KeyTable.size_eq_card (isSome_get?_after_start rs o k)
  kept more := by
    intro o k key h hk
    rw [after_append]
    exact get?_after hk more
  log_eq := log_run rs
  untouched r o k h := table_after_concat rs h

namespace Sample

/-- the handle of the first box in the tables of an owner -/
def boxHandle (o : Nat) : Handle Address := ⟨box 1, o, 0⟩

/-- the handle of its shared field in the first tables -/
def fieldHandle : Handle ObjectField := ⟨⟨box 1, shared⟩, 0, 0⟩

/-- two tables are asked for one box, and then one of them for a field of it, once by each handle -/
def twoTables : List Request :=
  [⟨0, .address (box 1).site⟩, ⟨1, .address (box 1).site⟩, ⟨0, .objectField (boxHandle 0) shared⟩,
    ⟨0, .objectField (boxHandle 1) shared⟩]

theorem given_twoTables : World.start.given twoTables =
    [⟨0, .address (box 1).site, .address, boxHandle 0⟩, ⟨1, .address (box 1).site, .address, boxHandle 1⟩,
      ⟨0, .objectField (boxHandle 0) shared, .objectField, fieldHandle⟩,
      ⟨0, .objectField (boxHandle 1) shared, .objectField, fieldHandle⟩] := rfl

end Sample

open World Sample in
theorem interned_handles_identify_keys_boxes :
    (boxHandle 0).same (boxHandle 1) = false ∧ (boxHandle 0).equal (boxHandle 1) = true ∧
      ⟨0, .objectField (boxHandle 0) shared, .objectField, fieldHandle⟩ ∈ start.given twoTables ∧
      ⟨0, .objectField (boxHandle 1) shared, .objectField, fieldHandle⟩ ∈ start.given twoTables ∧
      ((start.after twoTables 0).table .objectField).size = 1 := by
  have h := interned_handles_identify_keys twoTables
  have h₀ : ⟨0, .address (box 1).site, .address, boxHandle 0⟩ ∈ start.given twoTables := by
    rw [given_twoTables]
    exact List.mem_cons_self
  have h₁ : ⟨1, .address (box 1).site, .address, boxHandle 1⟩ ∈ start.given twoTables := by
    rw [given_twoTables]
    exact List.mem_cons_of_mem _ List.mem_cons_self
  have hkey := h.identifies h₀ h₁
  refine ⟨?_, hkey.equal_iff.2 rfl, ?_, ?_, ?_⟩
  · rw [Bool.eq_false_iff]
    intro e
    exact absurd (hkey.same_iff.1 e).1 Nat.zero_ne_one
  · rw [given_twoTables]
    simp
  · rw [given_twoTables]
    simp
  · rw [h.size_eq]
    rfl

end InfoFlow
