import InfoFlow.Decimal.Shortest
import InfoFlow.Text.Quoted

/-!
# Faults of JSON text

What keeps a text from being read: it is no JSON at all, or what it says has the wrong shape.  The wording of
the second kind is `Fault.message`.
-/

namespace InfoFlow

namespace Json

/-- what was found where something else was expected -/
inductive Found
  | null
  | bool (b : Bool)
  | int (n : Int)
  | float (x : Float)
  | str (s : String)
  | sequence
  | map
  /-- the name of an alternative, without what belongs to it -/
  | bareName

def Found.text : Found → String
  | null => "null"
  | bool b => "boolean `" ++ toString b ++ "`"
  | int n => "integer `" ++ toString n ++ "`"
  | float x => "floating point `" ++ Decimal.render x ++ "`"
  | str s => "string " ++ Text.quoted s
  | sequence => "sequence"
  | map => "map"
  | bareName => "unit variant"

inductive Fault
  /-- the text is not well-formed, or it ends early -/
  | notJson
  | wrongType (found : Found) (expected : String)
  /-- an array with fewer items than `expected` has fields -/
  | wrongLength (length : Nat) (expected : String)
  | missingField (name : String)
  | duplicateField (name : String)
  | unknownVariant (name : String) (known : List String)
  /-- the shape is right, but there is no such value -/
  | refused (reason : String)

namespace Fault

/-- whether the text was JSON as far as it was read -/
def isData : Fault → Bool
  | notJson => false
  | _ => true

def message : Fault → String
  | notJson => "not well-formed"
  | wrongType f e => "invalid type: " ++ f.text ++ ", expected " ++ e
  | wrongLength n e => "invalid length " ++ toString n ++ ", expected " ++ e
  | missingField n => "missing field `" ++ n ++ "`"
  | duplicateField n => "duplicate field `" ++ n ++ "`"
  | unknownVariant n ks =>
    "unknown variant `" ++ n ++ "`, expected one of " ++
      ", ".intercalate (ks.map fun k => "`" ++ k ++ "`")
  | refused r => r

end Fault

end Json

end InfoFlow
