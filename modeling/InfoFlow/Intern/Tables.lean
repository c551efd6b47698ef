import InfoFlow.Error
import InfoFlow.Intern.Table
import InfoFlow.Location.Address
import InfoFlow.Location.Context
import InfoFlow.Location.Slot

/-!
# Interned keys

The five kinds of keys of an analysis are interned, each in a table of its own.  A `Handle` is a key
together with its identity: the tables that made it, and its number there.

* `Handle.same`: whether two handles are one;
* `Tables.context`, `address`, `objectField`, `localSlot`, `paramSlot`: the handle of a key;
* `Tables.paramSlot` refuses a parameter that the method does not declare.
-/

namespace InfoFlow

open Std

/-! ## handles -/

structure Handle (κ : Type) where
  key : κ
  /-- which tables made the handle -/
  owner : Nat
  /-- how many handles of its kind these tables had made before -/
  serial : Nat

namespace Handle

variable {κ : Type}

/-- whether two handles are one -/
def same (a b : Handle κ) : Bool := a.owner == b.owner && a.serial == b.serial

/-- handles are compared by their keys; one handle needs no look at the key -/
def order [Ord κ] (a b : Handle κ) : Ordering := if a.same b then .eq else compare a.key b.key

/-- handles are equal when their keys are; one handle needs no look at the key -/
def equal [DecidableEq κ] (a b : Handle κ) : Bool := a.same b || decide (a.key = b.key)

end Handle

/-! ## tables -/

/-- the table of one kind of keys -/
abbrev KeyTable (κ : Type) [Ord κ] := Table κ (Handle κ)

/-- the handle of `k` in a table of `owner`, where handles are numbered in the order of their making -/
def KeyTable.intern {κ : Type} [Ord κ] [TransOrd κ] (t : KeyTable κ) (owner : Nat) (k : κ) :
    Table.Answer κ (Handle κ) :=
  Id.run (Table.internWith t k (pure ⟨k, owner, Table.size t⟩))

structure Tables where
  /-- tells these tables from others -/
  owner : Nat
  contexts : KeyTable Context
  addresses : KeyTable Address
  objectFields : KeyTable ObjectField
  localSlots : KeyTable LocalSlot
  paramSlots : KeyTable ParamSlot

/-- the answer to one request: the handle, the tables after it, and the log -/
structure Interned (κ : Type) where
  handle : Handle κ
  tables : Tables
  log : List Event

/-- the answer to a request that can be refused, with the tables and the log in either case -/
structure Attempt (κ : Type) where
  answer : Except Error (Handle κ)
  tables : Tables
  log : List Event

namespace Tables

def empty (owner : Nat) : Tables := ⟨owner, .empty, .empty, .empty, .empty, .empty⟩

def context (t : Tables) (entry call : CallEdge) : Interned Context :=
  let a := t.contexts.intern t.owner ⟨entry, call⟩
  ⟨a.handle, { t with contexts := a.table }, a.log⟩

def address (t : Tables) (site : Site) : Interned Address :=
  let a := t.addresses.intern t.owner ⟨site⟩
  ⟨a.handle, { t with addresses := a.table }, a.log⟩

/-- a field of the objects at an address; by which handle the address was given does not matter -/
def objectField (t : Tables) (address : Address) (field : Field) : Interned ObjectField :=
  let a := t.objectFields.intern t.owner ⟨address, field⟩
  ⟨a.handle, { t with objectFields := a.table }, a.log⟩

def localSlot (t : Tables) (method : Method) (var : Local) : Interned LocalSlot :=
  let a := t.localSlots.intern t.owner ⟨method, var⟩
  ⟨a.handle, { t with localSlots := a.table }, a.log⟩

/-- the slot of a parameter, which `method` has to declare at that index with that type -/
def paramSlot (t : Tables) (method : Method) (param : Parameter) : Attempt ParamSlot :=
  match method.params[param.index]? with
  | none => ⟨.error (.parameterOutOfRange method param.index), t, []⟩
  | some type =>
    if type = param.type then
      let a := t.paramSlots.intern t.owner ⟨method, param⟩
      ⟨.ok a.handle, { t with paramSlots := a.table }, a.log⟩
    else ⟨.error (.parameterType method param.index type param.type), t, []⟩

instance : ToString Tables where
  toString t :=
    "Interners \x7b contexts: " ++ toString t.contexts ++ ", addresses: " ++ toString t.addresses ++
      ", address_fields: " ++ toString t.objectFields ++ ", locals: " ++ toString t.localSlots ++
      ", parameters: " ++ toString t.paramSlots ++ " \x7d"

end Tables

end InfoFlow
