import Std.Data.ExtTreeMap
import InfoFlow.Trace

/-!
# Tables of interned keys

A `Table κ ν` gives each key that was asked for one handle, made when the key is first seen and handed out
again ever after.

* `Table.internWith`: the handle of a key, made by an action that runs only for a new key;
* `Table.enter`: the same without the first look, which changes no answer (`internWith_eq_enter`);
* `Table.get?`: the handle of a key that was interned before.
-/

namespace InfoFlow

open Std

structure Table (κ ν : Type) [Ord κ] where
  handles : ExtTreeMap κ ν compare

/-- the answer to one request: the handle, the table after it, and whether the key was new -/
structure Table.Answer (κ ν : Type) [Ord κ] where
  handle : ν
  table : Table κ ν
  isNew : Bool

namespace Table

variable {κ ν : Type} [Ord κ] [TransOrd κ]

def empty : Table κ ν := ⟨∅⟩

def get? (t : Table κ ν) (k : κ) : Option ν := t.handles[k]?

def size (t : Table κ ν) : Nat := t.handles.size

/-- the handle at the place of `k`; a vacant place gets the handle that `make` returns -/
def enter {m : Type → Type} [Monad m] (t : Table κ ν) (k : κ) (make : m ν) : m (Answer κ ν) :=
  match t.get? k with
  | some h => pure ⟨h, t, false⟩
  | none => do
    let h ← make
    pure ⟨h, ⟨t.handles.insert k h⟩, true⟩

/-- the handle of `k`, for which its place is entered only if a first look does not find it -/
def internWith {m : Type → Type} [Monad m] (t : Table κ ν) (k : κ) (make : m ν) : m (Answer κ ν) :=
  match t.get? k with
  | some h => pure ⟨h, t, false⟩
  | none => t.enter k make

theorem internWith_eq_enter {m : Type → Type} [Monad m] (t : Table κ ν) (k : κ) (make : m ν) :
    t.internWith k make = t.enter k make := by
  rw [internWith]
  cases hk : t.get? k with
  | some h => rw [enter, hk]
  | none => rfl

theorem internWith_of_some {m : Type → Type} [Monad m] {t : Table κ ν} {k : κ} {h : ν} (hk : t.get? k = some h)
    (make : m ν) : t.internWith k make = pure ⟨h, t, false⟩ := by
  rw [internWith, hk]

/-- after a look that found nothing, the place is vacant -/
theorem internWith_of_none {m : Type → Type} [Monad m] {t : Table κ ν} {k : κ} (hk : t.get? k = none)
    (make : m ν) : t.internWith k make = (do let h ← make; pure ⟨h, ⟨t.handles.insert k h⟩, true⟩) := by
  rw [internWith_eq_enter, enter, hk]

def Answer.log (a : Answer κ ν) : List Event := if a.isNew then [.interned] else []

instance : ToString (Table κ ν) := ⟨fun t => "Interner \x7b len: " ++ toString t.size ++ " \x7d"⟩

end Table

end InfoFlow
