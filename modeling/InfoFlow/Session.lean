import InfoFlow.Intern.Tables
import InfoFlow.Program.Json
import InfoFlow.State.Snapshot

/-!
# Sessions

A session is one run of an analysis: its options, and the tables of its interned keys.

* `Options.ofJson`: options from JSON text; the text is read to its end before the field is looked at;
* `Session.localize`: what a callee can see, where the taint field is the one of the options.
-/

namespace InfoFlow

structure Options where
  /-- the field that holds the taints of an object -/
  taintField : Field
deriving DecidableEq

namespace Options

def withTaintField (o : Options) (f : Field) : Options := { o with taintField := f }

open Json in
/-- the parts of the taint field -/
def reader : Reader Field.Parts := fun ts => do
  match ← Reader.record "struct OptionsDescriptor" ["taint_field"] Field.partsReader ts with
  | ⟨[parts], rest, h⟩ => .ok ⟨parts, rest, h⟩
  | _ => .error .notJson

/-- the options that a text describes -/
def ofJson (text : String) : Except Error Options :=
  match reader.run text with
  | .error fault => .error (.json fault)
  | .ok parts =>
    match parts.declare with
    | .ok f => .ok ⟨f⟩
    | .error m => .error (.malformed m)

end Options

structure Session where
  options : Options
  tables : Tables

namespace Session

/-- a session with empty tables -/
def start (options : Options) (owner : Nat) : Session := ⟨options, .empty owner⟩

def localize (s : Session) (snapshot : Snapshot) (frame : Frame) (scope : Scope) : Traced Snapshot :=
  snapshot.localizeTraced frame scope s.options.taintField

end Session

end InfoFlow
