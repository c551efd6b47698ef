import InfoFlow.Json.Fault
import InfoFlow.Program.Method

/-!
# Errors

What can go wrong, and how it is told to the user.
-/

namespace InfoFlow

inductive Error
  | malformed (m : Malformed)
  /-- the method declares no parameter of that index -/
  | parameterOutOfRange (method : Method) (index : Nat)
  /-- the method declares the parameter with the type `expected` -/
  | parameterType (method : Method) (index : Nat) (expected found : String)
  | json (fault : Json.Fault)
  /-- any other failure, in the caller's words -/
  | custom (text : String)

def Error.message : Error → String
  | malformed m => m.message
  | parameterOutOfRange m i =>
    "Parameter " ++ toString i ++ " is out of range for " ++ m.signature ++ ", which takes " ++
      toString m.arity ++ " parameters"
  | parameterType m i e f =>
    "Parameter " ++ toString i ++ " of " ++ m.signature ++ " has type " ++ e ++
      ", but the descriptor says " ++ f
  | json f => "Json error: " ++ f.message
  | custom t => t

end InfoFlow
