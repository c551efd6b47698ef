import InfoFlow.Proofs.History
import InfoFlow.Proofs.Interning

/-!
# Declared parameters

* `Call.run_paramSlot`: all that a call for a parameter can come to;
* `World.after_admitted`, `World.given_admitted`, `World.log_admitted`: a run is the same without its refused calls;
* `World.paramSlot_of_mem_given`: the handle of a parameter was asked for by the method and the parameter it has;
* `SparseMap.BuiltFrom.keys`, `Frame.BuiltFrom.params`: what is built from some keys has no others;
* `only_declared_parameters`: no run and no frame has a parameter that its method does not declare.
-/

namespace InfoFlow

open Std

/-! ## one call -/

/-- the method has a parameter of this index, and its type is this one -/
def Method.Declares (m : Method) (p : Parameter) : Prop :=
  ∃ h : p.index < m.arity, m.params.get ⟨p.index, h⟩ = p.type

theorem Method.declares_iff {m : Method} {p : Parameter} : m.Declares p ↔ m.params[p.index]? = some p.type :=
  List.getElem?_eq_some_iff.symm

instance (m : Method) (p : Parameter) : Decidable (m.Declares p) := decidable_of_iff _ Method.declares_iff.symm

namespace Call

/-- all that a call for a parameter can come to -/
theorem run_paramSlot (t : Tables) (m : Method) (p : Parameter) :
    (m.Declares p ∧ ∃ h, (run t (.paramSlot m p)).answer = .ok ⟨.paramSlot, h⟩) ∨
      (m.arity ≤ p.index ∧ run t (.paramSlot m p) = ⟨.error (.parameterOutOfRange m p.index), t, []⟩) ∨
      ∃ d, m.params[p.index]? = some d ∧ d ≠ p.type ∧
        run t (.paramSlot m p) = ⟨.error (.parameterType m p.index d p.type), t, []⟩ := by
  cases hd : m.params[p.index]? with
  | none =>
    refine .inr (.inl ⟨List.getElem?_eq_none_iff.1 hd, ?_⟩)
    rw [run, t.paramSlot_of_none hd]
    rfl
  | some d =>
    by_cases hne : d = p.type
    · subst hne
      have hkey : key? (.paramSlot m p) = some ⟨.paramSlot, (⟨m, p⟩ : ParamSlot)⟩ := if_pos hd
      rw [run_of_key t hkey]
      exact .inl ⟨Method.declares_iff.2 hd, _, rfl⟩
    · refine .inr (.inr ⟨d, rfl, hne, ?_⟩)
      rw [run, t.paramSlot_of_ne hd hne]
      rfl

/-- how a call for a parameter is answered, and that a refused one changes nothing and is not logged -/
structure Verdict (t : Tables) (m : Method) (p : Parameter) : Prop where
  accepted_iff : (∃ h, (run t (.paramSlot m p)).answer = .ok ⟨.paramSlot, h⟩) ↔ m.Declares p
  outOfRange_iff :
    (run t (.paramSlot m p)).answer = .error (.parameterOutOfRange m p.index) ↔ m.arity ≤ p.index
  wrongType_iff : ∀ d, (run t (.paramSlot m p)).answer = .error (.parameterType m p.index d p.type) ↔
    m.params[p.index]? = some d ∧ d ≠ p.type
  refused : ¬m.Declares p → ∃ e, run t (.paramSlot m p) = ⟨.error e, t, []⟩ ∧
    (e = .parameterOutOfRange m p.index ∨ ∃ d, e = .parameterType m p.index d p.type)

theorem verdict (t : Tables) (m : Method) (p : Parameter) : Verdict t m p := by
  obtain ⟨hd, h, ha⟩ | ⟨hle, hrun⟩ | ⟨d, hget, hne, hrun⟩ := run_paramSlot t m p
  · have hget := Method.declares_iff.1 hd
    have hlt : ¬m.arity ≤ p.index := Nat.not_le.2 hd.1
    exact ⟨iff_of_true ⟨h, ha⟩ hd, by simp [ha, hlt], by simp [ha, hget], fun hn => absurd hd hn⟩
  · have hget : m.params[p.index]? = none := List.getElem?_eq_none_iff.2 hle
    have hd : ¬m.Declares p := fun hd => Nat.not_lt.2 hle hd.1
    exact ⟨by simp [hrun, hd], by simp [hrun, hle], by simp [hrun, hget], fun _ => ⟨_, hrun, .inl rfl⟩⟩
  · have hd : ¬m.Declares p := by
      rw [Method.declares_iff, hget]
      exact fun e => hne (Option.some.inj e)
    have hlt : ¬m.arity ≤ p.index := Nat.not_le.2 (List.getElem?_eq_some_iff.1 hget).1
    refine ⟨by simp [hrun, hd], by simp [hrun, hlt], fun d' => ?_, fun _ => ⟨_, hrun, .inr ⟨d, rfl⟩⟩⟩
    rw [hrun, hget, Option.some.injEq]
    constructor
    · intro h
      cases h
      exact ⟨rfl, hne⟩
    · rintro ⟨rfl, -⟩
      rfl

/-- every call but one for a parameter that its method does not declare -/
def admitted : Call → Bool
  | paramSlot m p => decide (m.Declares p)
  | _ => true

theorem isSome_key? (c : Call) : c.key?.isSome = c.admitted := by
  cases c with
  | paramSlot m p =>
    rw [key?, admitted]
    by_cases h : m.params[p.index]? = some p.type
    · simp [h, Method.declares_iff]
    · simp [h, Method.declares_iff]
  | _ => rfl

end Call

/-! ## runs without refused calls -/

namespace World

variable {w : World} {rs : List Request}

/-- the lines that the calls of a run leave in the log -/
def log (w : World) : List Request → List Event
  | [] => []
  | r :: rs => (r.call.run (w r.owner)).log ++ log (w.step r) rs

theorem run_of_not_admitted (w : World) {r : Request} (hr : r.call.admitted = false) :
    ∃ e, r.call.run (w r.owner) = ⟨.error e, w r.owner, []⟩ := by
  have hkey : r.call.key? = none := by
    rw [← Option.not_isSome_iff_eq_none, Call.isSome_key?, hr]
    exact Bool.false_ne_true
  exact Call.run_of_refused _ hkey

theorem step_of_not_admitted (w : World) {r : Request} (hr : r.call.admitted = false) : w.step r = w := by
  obtain ⟨e, he⟩ := run_of_not_admitted w hr
  rw [step, he]
  exact Function.update_eq_self _ _

theorem after_admitted (w : World) (rs : List Request) : w.after (rs.filter (·.call.admitted)) = w.after rs := by
  induction rs generalizing w with
  | nil => rfl
  | cons r rs ih =>
    show _ = after (w.step r) rs
    rw [List.filter_cons]
    cases hr : r.call.admitted with
    | true => exact ih (w.step r)
    | false =>
      rw [step_of_not_admitted w hr]
      exact ih w

theorem given_admitted (w : World) (rs : List Request) : w.given (rs.filter (·.call.admitted)) = w.given rs := by
  induction rs generalizing w with
  | nil => rfl
  | cons r rs ih =>
    rw [List.filter_cons, given]
    cases hr : r.call.admitted with
    | true => rw [if_pos rfl, given, ih (w.step r)]
    | false =>
      -- no answer is given, and the world stays as it is
      obtain ⟨e, he⟩ := run_of_not_admitted w hr
      rw [he, step_of_not_admitted w hr]
      exact ih w

theorem log_admitted (w : World) (rs : List Request) : w.log (rs.filter (·.call.admitted)) = w.log rs := by
  induction rs generalizing w with
  | nil => rfl
  | cons r rs ih =>
    rw [List.filter_cons, log]
    cases hr : r.call.admitted with
    | true => rw [if_pos rfl, log, ih (w.step r)]
    | false =>
      obtain ⟨e, he⟩ := run_of_not_admitted w hr
      rw [he, step_of_not_admitted w hr]
      exact ih w

/-! ## handles of parameters -/

theorem mem_of_mem_given {g : Given} (hg : g ∈ w.given rs) : ⟨g.owner, g.call⟩ ∈ rs := by
  induction rs generalizing w with
  | nil => cases hg
  | cons r rs ih =>
    rw [given] at hg
    split at hg
    · rcases List.mem_cons.1 hg with rfl | hg
      · exact List.mem_cons_self
      · exact List.mem_cons_of_mem _ (ih hg)
    · exact List.mem_cons_of_mem _ (ih hg)

theorem paramSlot_of_mem_given (hw : w.Sound) {o : Nat} {c : Call} {h : Handle ParamSlot}
    (hg : ⟨o, c, .paramSlot, h⟩ ∈ w.given rs) :
    c = .paramSlot h.key.method h.key.param ∧ h.key.method.Declares h.key.param := by
  have hkey : c.key? = some ⟨.paramSlot, h.key⟩ := (get?_of_mem_given hw hg).1
  cases c with
  | paramSlot m p =>
    rw [Call.key?] at hkey
    split at hkey
    · next hd =>
      have hs : (⟨m, p⟩ : ParamSlot) = h.key := eq_of_heq (Sigma.mk.inj (Option.some.inj hkey)).2
      rw [← hs]
      exact ⟨rfl, Method.declares_iff.2 hd⟩
    · cases hkey
  | _ => cases hkey

end World

/-! ## keys of maps and frames -/

namespace SparseMap

variable {κ ν : Type} [Ord κ] [TransOrd κ] [LawfulEqOrd κ] [DecidableEq ν] [EmptyCollection ν] [Union ν] [SDiff ν]
  [Facts ν]

/-- maps that come out of any operations in which all keys are among `K` -/
inductive BuiltFrom (K : κ → Prop) : SparseMap κ ν → Prop
  | empty : BuiltFrom K ∅
  | collect {es : List (κ × ν)} (hes : ∀ e ∈ es, K e.1) : BuiltFrom K (ofList es)
  | write {s : SparseMap κ ν} (hs : BuiltFrom K s) {k : κ} (hk : K k) (w : Write ν) : BuiltFrom K (s.write k w).2
  | union {s t : SparseMap κ ν} (hs : BuiltFrom K s) (ht : BuiltFrom K t) : BuiltFrom K (s ∪ t)
  | diff {s t : SparseMap κ ν} (hs : BuiltFrom K s) (ht : BuiltFrom K t) : BuiltFrom K (s \ t)
  | filter {s : SparseMap κ ν} (hs : BuiltFrom K s) (p : κ → Bool) : BuiltFrom K (s.filter p)

theorem get_ofList_of_notMem {es : List (κ × ν)} {k : κ} (h : ∀ e ∈ es, e.1 ≠ k) : (ofList es).get k = ∅ := by
  have hf : ∀ (t : Entries κ ν) (e : κ × ν) j, e.1 ≠ j → (t.add e.1 e.2).lookup j = t.lookup j :=
    fun t e _ hj => t.lookup_add_of_ne e.2 hj
  exact (Entries.lookup_foldl_of_notMem hf ∅ es k h).trans (Entries.lookup_empty k)

theorem BuiltFrom.keys {K : κ → Prop} {s : SparseMap κ ν} (h : BuiltFrom K s) : ∀ k ∈ s.keys, K k := by
  classical
  simp only [mem_keys]
  -- collecting and writing bring keys in, and both only from `K`
  induction h with
  | empty => exact fun k hk => absurd (get_empty k) hk
  | @collect es hes =>
    intro k hk
    by_contra hK
    exact hk (get_ofList_of_notMem fun e he hek => hK (hek ▸ hes e he))
  | @write s _ j hj w ih =>
    intro k hk
    rw [get_write] at hk
    by_cases e : j = k
    · exact e ▸ hj
    · rw [if_neg e] at hk
      exact ih k hk
  | @union s t _ _ ihs iht =>
    intro k hk
    rw [get_union] at hk
    by_cases hs : s.get k = ∅
    · rw [hs, Facts.empty_union] at hk
      exact iht k hk
    · exact ihs k hs
  | @diff s t _ _ ihs _ =>
    intro k hk
    rw [get_diff] at hk
    refine ihs k fun hs => hk ?_
    rw [hs, Facts.empty_diff]
  | @filter s _ p ih =>
    intro k hk
    rw [get_filter] at hk
    refine ih k fun hs => hk ?_
    rw [hs, ite_self]

end SparseMap

namespace Frame

/-- frames that come out of any operations in which all parameters are among `K` -/
inductive BuiltFrom (K : ParamSlot → Prop) : Frame → Prop
  | empty : BuiltFrom K ∅
  | parts (locals : Store LocalSlot) (receivers : Store Method) {params : Store ParamSlot}
      (hp : params.BuiltFrom K) : BuiltFrom K ⟨locals, receivers, params⟩
  | write {f : Frame} (hf : BuiltFrom K f) {s : Slot} (hs : ∀ p, s = .param p → K p) (w : Write ValueSet) :
      BuiltFrom K (f.write s w).2
  | union {f g : Frame} (hf : BuiltFrom K f) (hg : BuiltFrom K g) : BuiltFrom K (f ∪ g)
  | diff {f g : Frame} (hf : BuiltFrom K f) (hg : BuiltFrom K g) : BuiltFrom K (f \ g)
  /-- the frame of a callee -/
  | withArguments {f : Frame} (hf : BuiltFrom K f) (receivers : Store Method) {params : Store ParamSlot}
      (hp : params.BuiltFrom K) : BuiltFrom K (f.withArguments receivers params)

/-- every operation on a frame is one on its parameters, or leaves them alone -/
theorem BuiltFrom.params {K : ParamSlot → Prop} {f : Frame} (h : BuiltFrom K f) : f.params.BuiltFrom K := by
  induction h with
  | empty => exact .empty
  | parts _ _ hp => exact hp
  | @write f _ s hs w ih =>
    cases s with
    | var s => exact ih
    | receiver m => exact ih
    | param p => exact ih.write (hs p rfl) w
  | union _ _ ihf ihg => exact ihf.union ihg
  | diff _ _ ihf ihg => exact ihf.diff ihg
  | withArguments _ _ hp _ => exact hp

end Frame

/-! ## whole runs -/

namespace World

/-- the parameter was handed out in the course of a run -/
def HandsOut (rs : List Request) (s : ParamSlot) : Prop :=
  ∃ o c, ∃ h : Handle ParamSlot, ⟨o, c, .paramSlot, h⟩ ∈ start.given rs ∧ h.key = s

theorem HandsOut.declares {rs : List Request} {s : ParamSlot} (h : HandsOut rs s) : s.method.Declares s.param := by
  obtain ⟨o, c, h, hg, rfl⟩ := h
  exact (paramSlot_of_mem_given .start hg).2

/-- what calls, tables, handles and frames are like after a run that starts with empty tables -/
structure OnlyDeclared (rs : List Request) : Prop where
  verdict : ∀ (o : Nat) (m : Method) (p : Parameter), Call.Verdict (start.after rs o) m p
  /-- without the refused calls, the run has the same tables, handles and log -/
  no_trace : start.after (rs.filter (·.call.admitted)) = start.after rs ∧
    start.given (rs.filter (·.call.admitted)) = start.given rs ∧
    start.log (rs.filter (·.call.admitted)) = start.log rs
  given : ∀ {o : Nat} {c : Call} {h : Handle ParamSlot}, ⟨o, c, .paramSlot, h⟩ ∈ start.given rs →
    ⟨o, .paramSlot h.key.method h.key.param⟩ ∈ rs ∧ h.key.method.Declares h.key.param
  /-- a frame that is built from parameters of the run has no others -/
  frame : ∀ {f : Frame}, f.BuiltFrom (HandsOut rs) → ∀ s ∈ f.params.keys, HandsOut rs s ∧ s.method.Declares s.param

end World

open World in
/-- **Only declared parameters are handed out.**  A call for a parameter is accepted exactly if the method declares it,
and a refused call leaves no trace in any run.  So the handles of parameters, and the parameters of every frame that is
built from them, are declared by their methods. -/
theorem only_declared_parameters (rs : List Request) : OnlyDeclared rs where
  verdict o m p := Call.verdict (start.after rs o) m p
  no_trace := ⟨after_admitted start rs, given_admitted start rs, log_admitted start rs⟩
  given hg := by
    obtain ⟨hc, hd⟩ := paramSlot_of_mem_given .start hg
    have hr := mem_of_mem_given hg
    rw [hc] at hr
    exact ⟨hr, hd⟩
  frame hf s hs := by
    have h := hf.params.keys s hs
    exact ⟨h, h.declares⟩

namespace Sample

/-- a method that takes one box -/
def taking : Method where
  className := "Shop"
  name := "take"
  params := ["Box"]
  returnType := "void"
  signature := _
  signature_eq := rfl
  className_ne := by decide
  name_ne := by decide
  params_ne := by decide

def taken : ParamSlot := ⟨taking, ⟨0, "Box"⟩⟩

def takenHandle : Handle ParamSlot := ⟨taken, 0, 0⟩

/-- a parameter is asked for between one that is out of range and one of another type -/
def threeParams : List Request :=
  [⟨0, .paramSlot taking ⟨1, "Box"⟩⟩, ⟨0, .paramSlot taking ⟨0, "Box"⟩⟩, ⟨0, .paramSlot taking ⟨0, "Bag"⟩⟩]

theorem given_threeParams :
    World.start.given threeParams = [⟨0, .paramSlot taking ⟨0, "Box"⟩, .paramSlot, takenHandle⟩] := rfl

/-- a callee frame in which the parameter holds the first box -/
def argument : Frame :=
  Frame.withArguments ∅ ∅ (SparseMap.write ∅ taken (.strong (.singleton (.address (box 1))))).2

theorem handsOut_taken : World.HandsOut threeParams taken :=
  ⟨0, .paramSlot taking ⟨0, "Box"⟩, takenHandle, by rw [given_threeParams]; exact List.mem_cons_self, rfl⟩

theorem builtFrom_argument : argument.BuiltFrom (World.HandsOut threeParams) :=
  .withArguments .empty ∅ (.write .empty handsOut_taken _)

end Sample

open World Sample in
theorem only_declared_parameters_taking :
    (Call.run (start.after threeParams 0) (.paramSlot taking ⟨1, "Box"⟩)).answer =
        .error (.parameterOutOfRange taking 1) ∧
      (Call.run (start.after threeParams 0) (.paramSlot taking ⟨0, "Bag"⟩)).answer =
        .error (.parameterType taking 0 "Box" "Bag") ∧
      start.after [⟨0, .paramSlot taking ⟨0, "Box"⟩⟩] = start.after threeParams ∧
      argument.params.keys = [taken] ∧ argument.BuiltFrom (HandsOut threeParams) ∧
      taken.method.Declares taken.param := by
  have h := only_declared_parameters threeParams
  have hkeys : argument.params.keys = [taken] := rfl
  refine ⟨?_, ?_, h.no_trace.1, hkeys, builtFrom_argument, ?_⟩
  · exact (h.verdict 0 taking ⟨1, "Box"⟩).outOfRange_iff.2 (by decide)
  · exact ((h.verdict 0 taking ⟨0, "Bag"⟩).wrongType_iff "Box").2 (by decide)
  · refine (h.frame builtFrom_argument taken ?_).2
    rw [hkeys]
    exact List.mem_cons_self

end InfoFlow
