import InfoFlow.Location.Context
import InfoFlow.State.Snapshot

/-!
# Analyses

The state of an analysis is a snapshot for each calling context; a context without facts is not stored.
A fixed point is reached when `next \ reached` is `∅`.
-/

namespace InfoFlow

open Std

/-- a snapshot for each calling context -/
abbrev Analysis := SparseMap Context Snapshot

namespace Analysis

/-- the facts of `s` that `t` lacks -/
def diffTraced (s t : Analysis) : Traced Analysis where
  value := s \ t
  log := [.compared (s \ t).size s.size]

/-- puts a snapshot in place of the one of context `c`; also tells what was stored there before -/
def put (s : Analysis) (c : Context) (snapshot : Snapshot) : Option Snapshot × Analysis :=
  s.write c (.strong snapshot)

/-- forgets the context `c`; also tells what was stored there before -/
def remove (s : Analysis) (c : Context) : Option Snapshot × Analysis := s.write c .clear

def report (s : Analysis) : Json := .obj (s.toList.map fun e => (toString e.1, e.2.report))

end Analysis

end InfoFlow
