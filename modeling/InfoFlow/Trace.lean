/-!
# Traces

Some operations leave a line in the log.  `Event` says what happened, `Event.message` how it reads, and
`Traced α` is a result together with its log.
-/

namespace InfoFlow

inductive Event
  /-- a key new to its table was interned -/
  | interned
  /-- garbage was dropped from a heap: numbers of roots, of reachable addresses, of entries kept and before -/
  | collected (roots reachable kept total : Nat)
  /-- a heap was cut down to a scope: numbers of reachable addresses, of entries kept and before -/
  | localized (reachable kept total : Nat)
  /-- two analyses were compared: numbers of contexts with new facts, and of all contexts -/
  | compared (fresh total : Nat)
deriving DecidableEq, Repr

def Event.message : Event → String
  | interned => "interning"
  | collected r n k t =>
    "gc: " ++ toString r ++ " roots, " ++ toString n ++ " reachable, kept " ++ toString k ++ " of " ++
      toString t ++ " entries"
  | localized n k t =>
    "localize: " ++ toString n ++ " reachable, kept " ++ toString k ++ " of " ++ toString t ++ " entries"
  | compared f t => "minus: " ++ toString f ++ " of " ++ toString t ++ " contexts hold new facts"

structure Traced (α : Type) where
  value : α
  log : List Event

end InfoFlow
