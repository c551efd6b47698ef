import InfoFlow.Proofs.Lattice

/-!
# Iterations

An iteration takes in one state after another.  It can merge each of them as a whole (`Analysis.full`), or look
for what is new in it first and merge only that (`Analysis.incremental`).

* `Analysis.incremental_eq_full`: both ways reach the same states;
* `Analysis.deltas_pairwise`: no fact is ever new twice;
* `Analysis.iterate_perm`: the order of the states does not matter for what is reached;
* `delta_iteration_agrees`: all of it, for every iteration.
-/

namespace InfoFlow

open Std

namespace Analysis

/-! ## two ways to take in a state -/

/-- merges `next` as a whole -/
def full (t next : Analysis) : Analysis := t ∪ next

/-- merges what `next` has and `t` lacks -/
def incremental (t next : Analysis) : Analysis := t ∪ next \ t

/-- the state reached from `s` after taking in the list -/
def iterate (step : Analysis → Analysis → Analysis) (s : Analysis) (nexts : List Analysis) : Analysis :=
  nexts.foldl step s

/-- for each state of the list, what it has and the state reached just before lacks -/
def deltas (step : Analysis → Analysis → Analysis) (t : Analysis) : List Analysis → List Analysis
  | [] => []
  | next :: rest => (next \ t) :: deltas step (step t next) rest

theorem incremental_eq_full : incremental = full := by
  funext t next
  exact Facts.union_diff next t

theorem iterate_perm {s : Analysis} {xs ys : List Analysis} (h : xs.Perm ys) :
    iterate full s xs = iterate full s ys := by
  apply h.foldl_eq'
  intro x _ y _ t
  show t ∪ x ∪ y = t ∪ y ∪ x
  rw [Facts.union_assoc, Facts.union_comm x y, ← Facts.union_assoc]

/-! ## what is new -/

/-- no fact is in both states -/
def Apart (x y : Analysis) : Prop := ∀ p v, v ∈ x.getAt p → v ∉ y.getAt p

theorem apart_diff {s t : Analysis} (h : Facts.Below s t) (next : Analysis) : Apart s (next \ t) := by
  intro p v hs hv
  rw [readBy_getAt.diff, ValueSet.mem_diff] at hv
  exact hv.2 (readBy_getAt.below_iff.1 h p v hs)

/-- what is new from `t` on is apart from all that is below `t` -/
theorem apart_of_mem_deltas {s t : Analysis} (h : Facts.Below s t) {nexts : List Analysis} :
    ∀ d ∈ deltas full t nexts, Apart s d := by
  induction nexts generalizing t with
  | nil => exact fun d hd => absurd hd List.not_mem_nil
  | cons next rest ih =>
    intro d hd
    rcases List.mem_cons.1 hd with rfl | hd
    · exact apart_diff h next
    · exact ih (Facts.below_trans h (Facts.below_union_left t next)) d hd

theorem diff_below_full (t next : Analysis) : Facts.Below (next \ t) (full t next) :=
  Facts.diff_below_iff.2 (Facts.below_trans (Facts.below_union_right t next) (Facts.below_union_right t _))

theorem deltas_pairwise (t : Analysis) (nexts : List Analysis) : (deltas full t nexts).Pairwise Apart := by
  induction nexts generalizing t with
  | nil => exact .nil
  | cons next rest ih =>
    -- a delta is merged before the next round looks for what is new
    exact .cons (apart_of_mem_deltas (diff_below_full t next)) (ih _)

end Analysis

open Analysis in
/-- **Delta iteration.**  Merging only what is new reaches the same state in every round as merging everything;
the start and the deltas have no fact in common, any two of them; and the order of the rounds does not matter. -/
theorem delta_iteration_agrees (s : Analysis) (nexts : List Analysis) :
    (∀ i, iterate incremental s (nexts.take i) = iterate full s (nexts.take i)) ∧
      (s :: deltas incremental s nexts).Pairwise Apart ∧
      ∀ others : List Analysis, nexts.Perm others → iterate full s nexts = iterate full s others := by
  rw [incremental_eq_full]
  have hs : Facts.Below s s := Facts.below_iff.2 (Facts.union_self s)
  exact ⟨fun _ => rfl, .cons (apart_of_mem_deltas hs) (deltas_pairwise s nexts), fun _ h => iterate_perm h⟩

namespace Sample

/-- the start of the program -/
def startup : Context := ⟨.entry main, .entry main⟩

/-- in one context, the static field holds some boxes -/
def seen (is : List Nat) : Analysis :=
  (∅ : Analysis).set startup
    ((∅ : Snapshot).write (.static shared) (.strong (.ofList (is.map fun i => .address (box i))))).2

end Sample

open Analysis Sample in
theorem delta_iteration_agrees_swapped :
    [seen [1], seen [1, 2], seen [3]].Perm [seen [1, 2], seen [1], seen [3]] ∧
      iterate full ∅ [seen [1], seen [1, 2], seen [3]] = iterate full ∅ [seen [1, 2], seen [1], seen [3]] := by
  have h : [seen [1], seen [1, 2], seen [3]].Perm [seen [1, 2], seen [1], seen [3]] := .swap _ _ _
  exact ⟨h, (delta_iteration_agrees ∅ _).2.2 _ h⟩

end InfoFlow
