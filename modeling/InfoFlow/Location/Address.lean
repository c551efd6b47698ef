import InfoFlow.Program.Field
import InfoFlow.Program.Site

/-!
# Addresses

* `Address`: all objects allocated at one site;
* `ObjectField`: one field of all objects at one address.

Both are ordered lawfully: addresses as their sites, object fields by address and then by field.
-/

namespace InfoFlow

open Std

structure Address where
  site : Site
deriving DecidableEq

namespace Address

instance : ToString Address := ⟨fun a => a.site.text⟩

def order : Address → Address → Ordering := compareOn site

instance : Ord Address := ⟨order⟩

instance : TransOrd Address := inferInstanceAs (TransCmp (compareOn site))

instance : LawfulEqOrd Address where
  eq_of_compare {a b} h := by
    change order a b = .eq at h
    simp only [order, compareOn, Std.compare_eq_iff_eq] at h
    cases a; cases b
    simp_all

end Address

structure ObjectField where
  address : Address
  field : Field
deriving DecidableEq

namespace ObjectField

instance : ToString ObjectField :=
  ⟨fun k => "(" ++ toString k.address ++ ", " ++ toString k.field ++ ")"⟩

/-- the order: address, field -/
def order : ObjectField → ObjectField → Ordering := compareLex (compareOn address) (compareOn field)

instance : Ord ObjectField := ⟨order⟩

instance : TransOrd ObjectField :=
  inferInstanceAs (TransCmp (compareLex (compareOn address) (compareOn field)))

instance : LawfulEqOrd ObjectField where
  eq_of_compare {a b} h := by
    change order a b = .eq at h
    simp only [order, compareLex_eq_eq, compareOn, Std.compare_eq_iff_eq] at h
    cases a; cases b
    simp_all

end ObjectField

end InfoFlow
