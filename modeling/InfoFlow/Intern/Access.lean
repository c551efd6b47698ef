import InfoFlow.Intern.Tables
import InfoFlow.State.Store

/-!
# Fields of objects by address and field

Reading and writing a field of an object, where the key is first interned.
-/

namespace InfoFlow

/-- a result, the tables after it, and the log -/
structure Accessed (α : Type) where
  value : α
  tables : Tables
  log : List Event

namespace Tables

/-- the values in field `f` of the objects at `a` -/
def getField (t : Tables) (s : Store ObjectField) (a : Address) (f : Field) : Accessed ValueSet :=
  let i := t.objectField a f
  ⟨s.get i.handle.key, i.tables, i.log⟩

/-- writes field `f` of the objects at `a`; also tells what was stored there before -/
def writeField (t : Tables) (s : Store ObjectField) (a : Address) (f : Field) (w : Write ValueSet) :
    Accessed (Option ValueSet × Store ObjectField) :=
  let i := t.objectField a f
  ⟨s.write i.handle.key w, i.tables, i.log⟩

end Tables

end InfoFlow
