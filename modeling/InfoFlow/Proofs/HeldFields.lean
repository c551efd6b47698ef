import InfoFlow.Proofs.Interning

/-!
# Object fields by handles of their addresses

An object field is asked for by a handle of its address, from whichever tables.  The tables look it up by the address
itself.  A table that keeps the handles, and compares these, would answer in the same way:

* `World.Gave`: the handles that are handed out in the course of a run, which are equal exactly if their keys are
  (`World.equal_iff`);
* `HeldField`: an address by a handle, and a field;
* `HeldTable.Agrees.intern`, `HeldTable.agrees_after`: a table of such keys agrees with the table of plain keys after
  one request, and after a whole run;
* `heldTable_answers`: so it answers the next request in the same way.
-/

namespace InfoFlow

open Std

/-! ## handles of a run -/

namespace World

variable {rs : List Request} {k : Kind} {h h' : Handle k.Key}

/-- the handle was handed out in the course of a run, by whichever tables -/
def Gave (rs : List Request) (k : Kind) (h : Handle k.Key) : Prop := ∃ o c, ⟨o, c, k, h⟩ ∈ start.given rs

theorem key_eq_of_same (hg : Gave rs k h) (hg' : Gave rs k h') (hs : h.same h' = true) : h.key = h'.key := by
  obtain ⟨o, c, hg⟩ := hg
  obtain ⟨o', c', hg'⟩ := hg'
  exact ((same_iff .start hg hg').1 hs).2

theorem equal_iff (hg : Gave rs k h) (hg' : Gave rs k h') : h.equal h' = true ↔ h.key = h'.key := by
  obtain ⟨o, c, hg⟩ := hg
  obtain ⟨o', c', hg'⟩ := hg'
  exact (identifies_of_mem_given .start hg hg').equal_iff

end World

/-! ## object fields with their address by a handle -/

/-- an object field that has its address by a handle -/
structure HeldField where
  address : Handle Address
  field : Field

/-- the handle with another form of its key -/
def Handle.map {α β : Type} (f : α → β) (h : Handle α) : Handle β := ⟨f h.key, h.owner, h.serial⟩

namespace HeldField

def key (x : HeldField) : ObjectField := ⟨x.address.key, x.field⟩

def equal (x y : HeldField) : Bool := x.address.equal y.address && x.field == y.field

/-- handles are equal if they are one, or if their hashes and what they hold are equal -/
def handleEqual (hash : ObjectField → UInt64) (x y : Handle HeldField) : Bool :=
  x.same y || (hash x.key.key == hash y.key.key && x.key.equal y.key)

/-- the handle was handed out for an object field, whose address was given by a handle of the run -/
def Gave (rs : List Request) (x : Handle HeldField) : Prop :=
  World.Gave rs .address x.key.address ∧
    ∃ o, ⟨o, .objectField x.key.address x.key.field, .objectField, ⟨x.key.key, x.owner, x.serial⟩⟩ ∈ World.start.given rs

/-- the address was given by a handle of the run -/
def From (rs : List Request) (x : HeldField) : Prop := World.Gave rs .address x.address

variable {rs : List Request}

theorem equal_iff {x y : HeldField} (hx : x.From rs) (hy : y.From rs) : x.equal y = true ↔ x.key = y.key := by
  have haddress : x.address.equal y.address = true ↔ x.address.key = y.address.key := World.equal_iff hx hy
  rw [equal, Bool.and_eq_true, haddress, beq_iff_eq, key, key, ObjectField.mk.injEq]

/-- hashes only say sooner that keys differ -/
theorem hash_equal_iff (hash : ObjectField → UInt64) {x y : HeldField} (hx : x.From rs) (hy : y.From rs) :
    (hash x.key == hash y.key && x.equal y) = true ↔ x.key = y.key := by
  rw [Bool.and_eq_true, beq_iff_eq, equal_iff hx hy]
  exact and_iff_right_of_imp (congrArg hash)

variable {x y : Handle HeldField}

theorem key_eq_of_same (hx : Gave rs x) (hy : Gave rs y) (hs : x.same y = true) : x.key.key = y.key.key := by
  obtain ⟨-, o, hx⟩ := hx
  obtain ⟨-, o', hy⟩ := hy
  exact World.key_eq_of_same ⟨o, _, hx⟩ ⟨o', _, hy⟩ hs

theorem handleEqual_iff (hash : ObjectField → UInt64) (hx : Gave rs x) (hy : Gave rs y) :
    handleEqual hash x y = true ↔ x.key.key = y.key.key := by
  rw [handleEqual, Bool.or_eq_true, hash_equal_iff hash hx.1 hy.1]
  exact or_iff_right_of_imp (key_eq_of_same hx hy)

end HeldField

/-! ## tables that keep handles of addresses -/

/-- the handles of a table of object fields, in the order of their making -/
structure HeldTable where
  handles : List (Handle HeldField)

namespace HeldTable

/-- the answer to one request: the handle, the table after it, and the log -/
structure Answer where
  handle : Handle HeldField
  table : HeldTable
  log : List Event

/-- the handle of a key: of equal hash, and equal as a handle of an address and a field -/
def get? (hash : ObjectField → UInt64) (t : HeldTable) (x : HeldField) : Option (Handle HeldField) :=
  t.handles.find? fun h => hash h.key.key == hash x.key && h.key.equal x

/-- the handle of a key; a key without one gets a new handle -/
def intern (hash : ObjectField → UInt64) (owner : Nat) (t : HeldTable) (x : HeldField) : Answer :=
  match t.get? hash x with
  | some h => ⟨h, t, []⟩
  | none =>
    let h : Handle HeldField := ⟨x, owner, t.handles.length⟩
    ⟨h, ⟨t.handles ++ [h]⟩, [.interned]⟩

variable {hash : ObjectField → UInt64} {rs : List Request} {t : HeldTable} {u : KeyTable ObjectField}

theorem intern_of_some {x : HeldField} {h : Handle HeldField} (hk : t.get? hash x = some h) (owner : Nat) :
    t.intern hash owner x = ⟨h, t, []⟩ := by
  rw [intern, hk]

theorem intern_of_none {x : HeldField} (hk : t.get? hash x = none) (owner : Nat) :
    t.intern hash owner x =
      ⟨⟨x, owner, t.handles.length⟩, ⟨t.handles ++ [⟨x, owner, t.handles.length⟩]⟩, [.interned]⟩ := by
  rw [intern, hk]

/-- for keys whose addresses are handles of the run, the two tables have the same handles -/
structure Agrees (hash : ObjectField → UInt64) (rs : List Request) (t : HeldTable) (u : KeyTable ObjectField) :
    Prop where
  get?_eq : ∀ x : HeldField, x.From rs → (t.get? hash x).map (Handle.map HeldField.key) = u.get? x.key
  size_eq : t.handles.length = u.size

theorem agrees_empty : Agrees hash rs ⟨[]⟩ .empty where
  get?_eq x _ := (KeyTable.get?_empty x.key).symm
  size_eq := rfl

/-- a new handle is found by the key it was made for, and by no other -/
theorem get?_concat {x y : HeldField} (hx : x.From rs) (hy : y.From rs) (owner serial : Nat) :
    get? hash ⟨t.handles ++ [⟨x, owner, serial⟩]⟩ y =
      (t.get? hash y).or (if x.key = y.key then some ⟨x, owner, serial⟩ else none) := by
  rw [get?, List.find?_append, List.find?_singleton]
  refine congrArg _ (if_congr ?_ rfl rfl)
  exact HeldField.hash_equal_iff hash hx hy

/-- one request -/
theorem Agrees.intern (h : Agrees hash rs t u) (owner : Nat) {x : HeldField} (hx : x.From rs) :
    (t.intern hash owner x).handle.map HeldField.key = (u.intern owner x.key).handle ∧
      (t.intern hash owner x).log = (u.intern owner x.key).log ∧
      Agrees hash rs (t.intern hash owner x).table (u.intern owner x.key).table := by
  have hget := h.get?_eq x hx
  cases hk : t.get? hash x with
  | some g =>
    rw [hk] at hget
    rw [intern_of_some hk, KeyTable.intern_of_some hget.symm]
    exact ⟨rfl, rfl, h⟩
  | none =>
    rw [hk] at hget
    have hu : u.get? x.key = none := hget.symm
    have hsize := KeyTable.size_intern_of_none owner hu
    have hgets := u.get?_intern owner x.key
    rw [KeyTable.intern_of_none hu] at hsize hgets ⊢
    rw [intern_of_none hk, h.size_eq]
    refine ⟨rfl, rfl, fun y hy => ?_, ?_⟩
    · rw [get?_concat hx hy, hgets, ← h.get?_eq y hy]
      by_cases e : x.key = y.key
      · -- neither table had the key before
        have hn : t.get? hash y = none := by
          rw [← Option.map_eq_none_iff, h.get?_eq y hy, ← e, hu]
        rw [if_pos e, if_pos e, hn]
        rfl
      · rw [if_neg e, if_neg e, Option.or_none]
    · rw [hsize, List.length_append, h.size_eq]
      rfl

/-- the table after a list of requests -/
def internAll (hash : ObjectField → UInt64) (owner : Nat) (t : HeldTable) (xs : List HeldField) : HeldTable :=
  xs.foldl (fun t x => (t.intern hash owner x).table) t

end HeldTable

/-! ## runs -/

/-- the object field that a call asks for -/
def Call.held? : Call → Option HeldField
  | objectField a f => some ⟨a, f⟩
  | _ => none

/-- the object field that is asked for in the tables of owner `o` -/
def Request.held? (r : Request) (o : Nat) : Option HeldField := if r.owner = o then r.call.held? else none

theorem Call.keyOf?_objectField (c : Call) : c.keyOf? .objectField = c.held?.map HeldField.key := by
  cases c with
  | paramSlot m p =>
    apply Option.eq_none_iff_forall_ne_some.2
    intro key hk
    have hkey := keyOf?_eq_some_iff.1 hk
    rw [key?] at hkey
    split at hkey <;> cases hkey
  | _ => rfl

theorem Request.key?_objectField (r : Request) (o : Nat) : r.key? o .objectField = (r.held? o).map HeldField.key := by
  rw [key?, held?]
  by_cases ho : r.owner = o
  · rw [if_pos ho, if_pos ho, Call.keyOf?_objectField]
  · rw [if_neg ho, if_neg ho]
    rfl

namespace HeldTable

open World

variable {hash : ObjectField → UInt64} {rs : List Request} {o : Nat} {t : HeldTable}

/-- the object fields that the tables of owner `o` are asked for in the course of a run -/
def asked (o : Nat) (rs : List Request) : List HeldField := rs.filterMap (·.held? o)

/-- the table that owner `o` would have after a run -/
def after (hash : ObjectField → UInt64) (o : Nat) (rs : List Request) : HeldTable := internAll hash o ⟨[]⟩ (asked o rs)

theorem asked_cons_of_none {q : Request} (hq : q.held? o = none) (qs : List Request) :
    asked o (q :: qs) = asked o qs := List.filterMap_cons_none hq

theorem asked_cons_of_some {q : Request} {x : HeldField} (hq : q.held? o = some x) (qs : List Request) :
    asked o (q :: qs) = x :: asked o qs := List.filterMap_cons_some hq

theorem Agrees.after {w : World} (hw : w.Sound) (h : Agrees hash rs t ((w o).table .objectField)) {qs : List Request}
    (hqs : ∀ x ∈ asked o qs, x.From rs) :
    Agrees hash rs (internAll hash o t (asked o qs)) ((w.after qs o).table .objectField) := by
  induction qs generalizing w t with
  | nil => exact h
  | cons q qs ih =>
    show Agrees hash rs _ ((World.after (w.step q) qs o).table .objectField)
    have hstep := w.table_step q o .objectField
    rw [Request.key?_objectField] at hstep
    cases hq : q.held? o with
    | none =>
      rw [hq] at hstep
      rw [asked_cons_of_none hq] at hqs ⊢
      refine ih (hw.step q) ?_ hqs
      rw [hstep]
      exact h
    | some x =>
      rw [hq, hw.owner_eq] at hstep
      rw [asked_cons_of_some hq] at hqs ⊢
      rw [List.forall_mem_cons] at hqs
      refine ih (hw.step q) ?_ hqs.2
      rw [hstep]
      exact (h.intern o hqs.1).2.2

theorem agrees_after (hrs : ∀ x ∈ asked o rs, x.From rs) :
    Agrees hash rs (after hash o rs) ((start.after rs o).table .objectField) :=
  agrees_empty.after .start hrs

/-- the answer is that of a call: the same handle but for the form of its key, the same log, and as many keys -/
structure Answer.Matches (a : Answer) (b : Outcome) : Prop where
  answer_eq : b.answer = .ok ⟨.objectField, a.handle.map HeldField.key⟩
  log_eq : b.log = a.log
  size_eq : (b.tables.table .objectField).size = a.table.handles.length

end HeldTable

open World in
/-- A table that keeps handles of addresses, and compares these and their hashes, gives the same answers.  After any
run in which addresses are given by handles of the run, the next request for an object field is answered by the same
handle, made and logged in the same cases. -/
theorem heldTable_answers (hash : ObjectField → UInt64) {rs : List Request} {o : Nat}
    (hrs : ∀ x ∈ HeldTable.asked o rs, x.From rs) {x : HeldField} (hx : x.From rs) :
    ((HeldTable.after hash o rs).intern hash o x).Matches (Call.run (start.after rs o) (.objectField x.address x.field)) := by
  have hkey : Call.key? (.objectField x.address x.field) = some ⟨.objectField, x.key⟩ := rfl
  have howner : (start.after rs o).owner = o := (Sound.start.after rs).owner_eq o
  obtain ⟨hhandle, hlog, htable⟩ := (HeldTable.agrees_after hrs).intern o hx
  rw [Call.run_of_key _ hkey, howner]
  refine ⟨?_, hlog.symm, ?_⟩
  · exact congrArg (fun h => (.ok ⟨.objectField, h⟩ : Except Error ((k : Kind) × Handle k.Key))) hhandle.symm
  · rw [Tables.table_setTable, Function.update_self]
    exact htable.size_eq.symm

example : (HeldTable.after (fun _ => 0) 0 Sample.twoTables).handles.length = 1 := rfl

namespace Sample

theorem mem_given_boxHandle {o : Nat} (ho : o = 0 ∨ o = 1) :
    ⟨o, .address (box 1).site, .address, boxHandle o⟩ ∈ World.start.given twoTables := by
  rw [given_twoTables]
  obtain rfl | rfl := ho
  · exact List.mem_cons_self
  · exact List.mem_cons_of_mem _ List.mem_cons_self

/-- the one handle of a field of the first box, with the box by the handle of an owner -/
def sharedBy (o : Nat) : Handle HeldField := ⟨⟨boxHandle o, shared⟩, 0, 0⟩

theorem gave_sharedBy {o : Nat} (ho : o = 0 ∨ o = 1) : HeldField.Gave twoTables (sharedBy o) := by
  refine ⟨⟨_, _, mem_given_boxHandle ho⟩, 0, ?_⟩
  rw [given_twoTables]
  obtain rfl | rfl := ho
  · exact List.mem_cons_of_mem _ (List.mem_cons_of_mem _ List.mem_cons_self)
  · exact List.mem_cons_of_mem _ (List.mem_cons_of_mem _ (List.mem_cons_of_mem _ List.mem_cons_self))

end Sample

end InfoFlow
