import InfoFlow.Location.Address
import InfoFlow.Location.Context
import InfoFlow.Location.Slot
import InfoFlow.Program.Json

/-!
# Keys as JSON
-/

namespace InfoFlow

def Address.toJson (a : Address) : Json := .obj [("site", a.site.toJson)]

def ObjectField.toJson (k : ObjectField) : Json :=
  .obj [("address", k.address.toJson), ("field", k.field.toJson)]

def LocalSlot.toJson (s : LocalSlot) : Json :=
  .obj [("method", s.method.toJson), ("local", s.var.toJson)]

def ParamSlot.toJson (s : ParamSlot) : Json :=
  .obj [("method", s.method.toJson), ("parameter", s.param.toJson)]

def Context.toJson (c : Context) : Json := .obj [("entry", c.entry.toJson), ("call", c.call.toJson)]

end InfoFlow
