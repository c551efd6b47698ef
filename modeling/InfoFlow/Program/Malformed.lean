/-!
# Refused descriptors

Why a program element cannot be named: each constructor is one missing piece, in the order in which
the pieces are looked at.  `Malformed.message` is the text shown to the user.
-/

namespace InfoFlow

inductive Malformed
  /-- a method without its declaring class -/
  | methodClass
  /-- a method of `className` without a name -/
  | methodName (className : String)
  /-- a method whose parameter `index` has no type -/
  | methodParam (index : Nat) (className name : String)
  /-- a field without its declaring class -/
  | fieldClass
  /-- a field of `className` without a name -/
  | fieldName (className : String)
  /-- a local variable without a name -/
  | localName
  /-- an allocation site without the type it allocates -/
  | siteType (id : Nat)
deriving DecidableEq, Repr

namespace Malformed

/-- what kind of element was being named -/
def kind : Malformed → String
  | methodClass | methodName _ | methodParam .. => "method"
  | fieldClass | fieldName _ => "field"
  | localName => "local"
  | siteType _ => "allocation site"

def reason : Malformed → String
  | methodClass => "declaring class is empty"
  | methodName c => "method name in " ++ c ++ " is empty"
  | methodParam i c n => "type of parameter " ++ toString i ++ " of " ++ c ++ "." ++ n ++ " is empty"
  | fieldClass => "declaring class is empty"
  | fieldName c => "field name in " ++ c ++ " is empty"
  | localName => "name is empty"
  | siteType id => "type of site " ++ toString id ++ " is empty"

def message (m : Malformed) : String :=
  "Malformed " ++ m.kind ++ " descriptor: " ++ m.reason

end Malformed

end InfoFlow
