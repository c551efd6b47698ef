import Mathlib.Data.List.Induction
import InfoFlow.Intern.Table

/-!
# Handles are made once

A run is a list of calls on one table, each of which interns a key or only looks for it.

* `Table.table_runAll`: whatever making a handle does, a run does it once for each new key, in the order in which the
  keys come first;
* `Table.tally`: a run from the empty table, in which handles are numbered as they are made;
* `Table.get?_tally`: then the handle of a key is the place of its first occurrence;
* `Table.answer_tally`: a call is answered from the table that the calls before it left;
* `handles_are_made_once`: the answers, the table and the counter of every such run.
-/

namespace InfoFlow

open Std

/-! ## first occurrences -/

theorem take_append_cons_drop {α : Type} {xs : List α} {i : Nat} {x : α} (h : xs[i]? = some x) :
    xs.take i ++ x :: xs.drop (i + 1) = xs := by
  obtain ⟨hi, rfl⟩ := List.getElem?_eq_some_iff.1 h
  rw [List.getElem_cons_drop hi, List.take_append_drop]

section
variable {κ : Type} [DecidableEq κ]

theorem eraseDups_concat (ks : List κ) (k : κ) :
    (ks ++ [k]).eraseDups = if k ∈ ks then ks.eraseDups else ks.eraseDups ++ [k] := by
  rw [List.eraseDups_append, List.removeAll]
  by_cases hk : k ∈ ks
  · simp [hk]
  · simp [hk, List.eraseDups_cons]

theorem nodup_eraseDups (ks : List κ) : ks.eraseDups.Nodup := by
  induction ks using List.reverseRecOn with
  | nil => exact List.nodup_nil
  | append_singleton ks k ih =>
    rw [eraseDups_concat]
    by_cases hk : k ∈ ks
    · rw [if_pos hk]
      exact ih
    · have hk' : k ∉ ks.eraseDups := mt List.mem_eraseDups.1 hk
      rw [if_neg hk, List.nodup_append]
      refine ⟨ih, by simp, fun a ha b hb e => ?_⟩
      rw [e, List.mem_singleton.1 hb] at ha
      exact hk' ha

/-- where a key comes first is not changed by what comes later -/
theorem idxOf_eraseDups (ks : List κ) (k : κ) (more : List κ) :
    (ks ++ k :: more).eraseDups.idxOf k = ks.eraseDups.idxOf k := by
  rw [List.eraseDups_append, List.idxOf_append]
  by_cases hk : k ∈ ks
  · rw [if_pos (List.mem_eraseDups.2 hk)]
  · have hk' : k ∉ ks.eraseDups := mt List.mem_eraseDups.1 hk
    have hhead : (k :: more).removeAll ks = k :: more.removeAll ks := by simp [List.removeAll, hk]
    rw [if_neg hk', hhead, List.eraseDups_cons, List.idxOf_cons_self, Nat.zero_add, List.idxOf_eq_length hk']

end

namespace Table

/-! ## runs -/

/-- a call on a table -/
inductive Op (κ : Type)
  /-- asks for the handle of the key, which is made if there is none -/
  | intern (k : κ)
  /-- asks for the handle of the key if there is one -/
  | get (k : κ)
deriving DecidableEq

def Op.interned? {κ : Type} : Op κ → Option κ
  | intern k => some k
  | get _ => none

/-- the keys that some calls intern, as often as they do -/
def interned {κ : Type} (ops : List (Op κ)) : List κ := ops.filterMap Op.interned?

/-- the keys that some calls intern, each where it comes first -/
def firsts {κ : Type} [DecidableEq κ] (ops : List (Op κ)) : List κ := (interned ops).eraseDups

section
variable {κ : Type}

theorem interned_append (ops more : List (Op κ)) : interned (ops ++ more) = interned ops ++ interned more :=
  List.filterMap_append

theorem mem_interned {ops : List (Op κ)} {k : κ} : k ∈ interned ops ↔ .intern k ∈ ops := by
  rw [interned, List.mem_filterMap]
  constructor
  · intro ⟨op, hop, hk⟩
    cases op with
    | intern j => cases hk; exact hop
    | get j => cases hk
  · intro hop
    exact ⟨_, hop, rfl⟩

theorem mem_interned_take {ops : List (Op κ)} {i : Nat} {k : κ} :
    k ∈ interned (ops.take i) ↔ ∃ j < i, ops[j]? = some (.intern k) := by
  rw [mem_interned, List.mem_iff_getElem?]
  refine exists_congr fun j => ?_
  rw [List.getElem?_take]
  by_cases hj : j < i
  · simp [hj]
  · simp [hj]

/-- the first call for a key that is interned -/
theorem exists_first {ops : List (Op κ)} {i : Nat} {k : κ} (hi : ops[i]? = some (.intern k)) :
    ∃ j ≤ i, ops[j]? = some (.intern k) ∧ k ∉ interned (ops.take j) := by
  induction i using Nat.strongRecOn with
  | ind i ih =>
    by_cases hk : k ∈ interned (ops.take i)
    · obtain ⟨l, hl, hat⟩ := mem_interned_take.1 hk
      obtain ⟨j, hj, h⟩ := ih l hl hat
      exact ⟨j, Nat.le_trans hj (Nat.le_of_lt hl), h⟩
    · exact ⟨i, Nat.le_refl i, hi, hk⟩

variable [DecidableEq κ]

theorem mem_firsts {ops : List (Op κ)} {k : κ} : k ∈ firsts ops ↔ k ∈ interned ops := List.mem_eraseDups

theorem nodup_firsts (ops : List (Op κ)) : (firsts ops).Nodup := nodup_eraseDups _

theorem firsts_get (ops : List (Op κ)) (k : κ) : firsts (ops ++ [.get k]) = firsts ops := by
  rw [firsts, interned_append]
  exact congrArg List.eraseDups (List.append_nil _)

theorem firsts_intern (ops : List (Op κ)) (k : κ) :
    firsts (ops ++ [.intern k]) = if k ∈ interned ops then firsts ops else firsts ops ++ [k] := by
  rw [firsts, interned_append]
  exact eraseDups_concat (interned ops) k

theorem idxOf_firsts {ops : List (Op κ)} {i j : Nat} {k : κ} (hj : ops[j]? = some (.intern k)) (hji : j ≤ i) :
    (firsts (ops.take i)).idxOf k = (firsts (ops.take j)).idxOf k := by
  rcases Nat.eq_or_lt_of_le hji with rfl | hlt
  · rfl
  · have hj' : (ops.take i)[j]? = some (.intern k) := by rw [List.getElem?_take_of_lt hlt, hj]
    rw [← take_append_cons_drop hj', List.take_take, Nat.min_eq_left hji, firsts, interned_append]
    exact idxOf_eraseDups _ k _

end

variable {κ ν : Type} [Ord κ] [TransOrd κ]

section
variable {m : Type → Type} [Monad m]

/-- what a call answers, and the table after it -/
def Op.run (make : κ → m ν) (t : Table κ ν) : Op κ → m (Option ν × Table κ ν)
  | intern k => do
    let a ← t.internWith k (make k)
    pure (some a.handle, a.table)
  | get k => pure (t.get? k, t)

/-- what the calls answer, and the table after them -/
def runAll (make : κ → m ν) (t : Table κ ν) : List (Op κ) → m (List (Option ν) × Table κ ν)
  | [] => pure ([], t)
  | op :: ops => do
    let x ← op.run make t
    let y ← runAll make x.2 ops
    pure (x.1 :: y.1, y.2)

variable [LawfulMonad m]

theorem run_intern_of_some (make : κ → m ν) {t : Table κ ν} {k : κ} {h : ν} (hk : t.get? k = some h) :
    Op.run make t (.intern k) = pure (some h, t) := by
  rw [Op.run, internWith_of_some hk]
  exact pure_bind _ _

theorem run_intern_of_none (make : κ → m ν) {t : Table κ ν} {k : κ} (hk : t.get? k = none) :
    Op.run make t (.intern k) = (fun h => (some h, ⟨t.handles.insert k h⟩)) <$> make k := by
  rw [Op.run, internWith_of_none hk]
  simp only [← bind_pure_comp, bind_assoc, pure_bind]

theorem runAll_append (make : κ → m ν) (t : Table κ ν) (ops more : List (Op κ)) :
    runAll make t (ops ++ more) =
      runAll make t ops >>= fun x => (fun y => (x.1 ++ y.1, y.2)) <$> runAll make x.2 more := by
  induction ops generalizing t with
  | nil =>
    show runAll make t more = pure ([], t) >>= fun x => (fun y => (x.1 ++ y.1, y.2)) <$> runAll make x.2 more
    simp
  | cons op ops ih => simp only [List.cons_append, runAll, ih, ← bind_pure_comp, bind_assoc, pure_bind]

/-! ## effects -/

variable [DecidableEq κ]

/-- the keys that some calls intern and the table does not have, each where it comes first -/
def fresh (t : Table κ ν) (ops : List (Op κ)) : List κ :=
  ((interned ops).filter fun k => (t.get? k).isNone).eraseDups

/-- the table with these handles added -/
def extend (t : Table κ ν) (es : List (κ × ν)) : Table κ ν := ⟨t.handles.insertMany es⟩

theorem fresh_empty (ops : List (Op κ)) : fresh (empty : Table κ ν) ops = firsts ops := by
  unfold fresh firsts
  rw [List.filter_eq_self.2]
  intro k _
  show (∅ : ExtTreeMap κ ν compare)[k]?.isNone = true
  rw [ExtTreeMap.getElem?_empty]
  rfl

theorem fresh_get (t : Table κ ν) (k : κ) (ops : List (Op κ)) : t.fresh (.get k :: ops) = t.fresh ops := rfl

theorem fresh_intern_of_some {t : Table κ ν} {k : κ} {h : ν} (hk : t.get? k = some h) (ops : List (Op κ)) :
    t.fresh (.intern k :: ops) = t.fresh ops := by
  show ((k :: interned ops).filter _).eraseDups = _
  rw [List.filter_cons_of_neg (by rw [hk]; exact Bool.false_ne_true)]
  rfl

variable [LawfulEqOrd κ]

theorem fresh_intern_of_none {t : Table κ ν} {k : κ} (hk : t.get? k = none) (ops : List (Op κ)) :
    ∃ ks, t.fresh (.intern k :: ops) = k :: ks ∧ ∀ h, fresh ⟨t.handles.insert k h⟩ ops = ks := by
  refine ⟨((interned ops).filter fun j => !(j == k) && (t.get? j).isNone).eraseDups, ?_, fun h => ?_⟩
  · show ((k :: interned ops).filter _).eraseDups = _
    rw [List.filter_cons_of_pos (by rw [hk]; rfl), List.eraseDups_cons, List.filter_filter]
  · -- of the new table only the keys matter, not the handle
    unfold fresh
    congr 1
    apply List.filter_congr
    intro j _
    show (t.handles.insert k h)[j]?.isNone = _
    rw [ExtTreeMap.getElem?_insert]
    simp only [Std.compare_eq_iff_eq]
    by_cases e : k = j
    · simp [e]
    · simp [e, Ne.symm e, get?]

/-- whatever making a handle does, a run does it once for each new key, in the order in which the keys come first -/
theorem table_runAll (make : κ → m ν) (t : Table κ ν) (ops : List (Op κ)) :
    Prod.snd <$> runAll make t ops = (fun hs => t.extend ((t.fresh ops).zip hs)) <$> (t.fresh ops).mapM make := by
  induction ops generalizing t with
  | nil =>
    show Prod.snd <$> pure ([], t) = (fun hs => t.extend (List.zip [] hs)) <$> List.mapM make []
    simp [extend]
  | cons op ops ih =>
    have hcons : Prod.snd <$> runAll make t (op :: ops) =
        op.run make t >>= fun x => Prod.snd <$> runAll make x.2 ops := by
      simp only [runAll, ← bind_pure_comp, bind_assoc, pure_bind]
    rw [hcons]
    cases op with
    | get k =>
      rw [fresh_get, ← ih]
      exact pure_bind _ _
    | intern k =>
      cases hk : t.get? k with
      | some h =>
        rw [run_intern_of_some make hk, fresh_intern_of_some hk, ← ih]
        exact pure_bind _ _
      | none =>
        obtain ⟨ks, hks, hrest⟩ := fresh_intern_of_none hk ops
        -- the handle is made first, and the rest of the run finds it in the table
        calc Op.run make t (.intern k) >>= (fun x => Prod.snd <$> runAll make x.2 ops)
          _ = make k >>= fun h => Prod.snd <$> runAll make ⟨t.handles.insert k h⟩ ops := by
            rw [run_intern_of_none make hk, bind_map_left]
          _ = make k >>= fun h => (fun hs => t.extend ((k :: ks).zip (h :: hs))) <$> ks.mapM make := by
            simp only [ih, hrest, extend, List.zip_cons_cons, ExtTreeMap.insertMany_cons]
          _ = (fun hs => t.extend ((k :: ks).zip hs)) <$> (k :: ks).mapM make := by
            simp only [List.mapM_cons, ← bind_pure_comp, bind_assoc, pure_bind]
          _ = _ := by rw [hks]

end

/-! ## handles by position -/

section
variable [LawfulEqOrd κ] {ks : List κ} {hs : List ν}

omit [TransOrd κ] in
theorem pairwise_zip (hks : ks.Nodup) (hlen : ks.length = hs.length) :
    (ks.zip hs).Pairwise fun a b => ¬compare a.1 b.1 = .eq := by
  have h : ((ks.zip hs).map Prod.fst).Nodup := by rwa [List.map_fst_zip (Nat.le_of_eq hlen)]
  simp only [Std.compare_eq_iff_eq]
  exact List.pairwise_map.1 h

variable [DecidableEq κ]

theorem get?_extend_empty (hks : ks.Nodup) (hlen : ks.length = hs.length) (k : κ) :
    (extend empty (ks.zip hs)).get? k = hs[ks.idxOf k]? := by
  show ((∅ : ExtTreeMap κ ν compare).insertMany (ks.zip hs))[k]? = _
  by_cases hk : k ∈ ks
  · have hi : ks.idxOf k < ks.length := List.idxOf_lt_length_of_mem hk
    have hi' : ks.idxOf k < hs.length := hlen ▸ hi
    have hmem : (k, hs[ks.idxOf k]) ∈ ks.zip hs := by
      apply List.mem_of_getElem?
      rw [List.getElem?_zip_eq_some]
      exact ⟨List.getElem?_eq_some_iff.2 ⟨hi, List.getElem_idxOf hi⟩, List.getElem?_eq_getElem hi'⟩
    rw [ExtTreeMap.getElem?_insertMany_list_of_mem compare_self (pairwise_zip hks hlen) hmem,
      List.getElem?_eq_getElem hi']
  · have hc : ((ks.zip hs).map Prod.fst).contains k = false := by
      rw [List.map_fst_zip (Nat.le_of_eq hlen)]
      simpa using hk
    rw [ExtTreeMap.getElem?_insertMany_list_of_contains_eq_false hc, ExtTreeMap.getElem?_empty,
      List.idxOf_eq_length hk, hlen, List.getElem?_eq_none (Nat.le_refl _)]

theorem size_extend_empty (hks : ks.Nodup) (hlen : ks.length = hs.length) :
    (extend empty (ks.zip hs)).size = ks.length := by
  show ((∅ : ExtTreeMap κ ν compare).insertMany (ks.zip hs)).size = _
  rw [ExtTreeMap.size_insertMany_list (pairwise_zip hks hlen) (fun a ha => absurd ha ExtTreeMap.not_mem_empty),
    ExtTreeMap.size_empty, Nat.zero_add, List.length_zip, ← hlen, Nat.min_self]

end

/-! ## numbered handles -/

/-- makes a handle that is the number of handles made so far -/
def count : StateM Nat Nat := do
  modify (· + 1)
  get

/-- what comes of a run: the answers, the table, and how many handles were made -/
structure Tally (κ : Type) [Ord κ] where
  answers : List (Option Nat)
  table : Table κ Nat
  made : Nat

/-- a run from the empty table, in which handles are numbered as they are made -/
def tally (ops : List (Op κ)) : Tally κ :=
  let r := (runAll (fun _ => count) empty ops).run 0
  ⟨r.1.1, r.1.2, r.2⟩

theorem mapM_count {κ : Type} (ks : List κ) (n : Nat) :
    (ks.mapM fun _ => count).run n = (List.range' (n + 1) ks.length, n + ks.length) := by
  induction ks generalizing n with
  | nil => rfl
  | cons k ks ih =>
    rw [List.mapM_cons]
    show ((n + 1) :: ((ks.mapM fun _ => count).run (n + 1)).1, ((ks.mapM fun _ => count).run (n + 1)).2) = _
    rw [ih, List.length_cons, List.range'_succ]
    simp only [Prod.mk.injEq, true_and]
    omega

theorem length_answers (t : Table κ Nat) (n : Nat) (ops : List (Op κ)) :
    ((runAll (fun _ => count) t ops).run n).1.1.length = ops.length := by
  induction ops generalizing t n with
  | nil => rfl
  | cons op ops ih => exact congrArg (· + 1) (ih _ _)

theorem answer_append (pre : List (Op κ)) (op : Op κ) (post : List (Op κ)) :
    (tally (pre ++ op :: post)).answers[pre.length]? =
      some ((op.run (fun _ => count) (tally pre).table).run (tally pre).made).1.1 := by
  show ((runAll (fun _ => count) empty (pre ++ op :: post)).run 0).1.1[pre.length]? = _
  rw [runAll_append]
  show (((runAll (fun _ => count) empty pre).run 0).1.1 ++ _)[pre.length]? = _
  rw [← length_answers empty 0 pre, List.getElem?_append_right (Nat.le_refl _), Nat.sub_self]
  rfl

/-- a call is answered from the table that the calls before it left -/
theorem answer_tally {ops : List (Op κ)} {i : Nat} {op : Op κ} (hi : ops[i]? = some op) :
    (tally ops).answers[i]? =
      some ((op.run (fun _ => count) (tally (ops.take i)).table).run (tally (ops.take i)).made).1.1 := by
  have hlen : (ops.take i).length = i := List.length_take_of_le (Nat.le_of_lt (List.getElem?_eq_some_iff.1 hi).1)
  have h := answer_append (ops.take i) op (ops.drop (i + 1))
  rwa [take_append_cons_drop hi, hlen] at h

variable [LawfulEqOrd κ] [DecidableEq κ]

theorem table_made_tally (ops : List (Op κ)) :
    (tally ops).table = extend empty ((firsts ops).zip (List.range' 1 (firsts ops).length)) ∧
      (tally ops).made = (firsts ops).length := by
  have h := congrArg (fun x : StateM Nat (Table κ Nat) => x.run 0) (table_runAll (fun _ : κ => count) empty ops)
  rw [fresh_empty] at h
  have hmap : ((tally ops).table, (tally ops).made) =
      Prod.map (fun hs => extend empty ((firsts ops).zip hs)) id (((firsts ops).mapM fun _ => count).run 0) := h
  rw [mapM_count, Nat.zero_add, Nat.zero_add] at hmap
  exact Prod.mk.inj hmap

/-- the handle of a key is the place of its first occurrence -/
theorem get?_tally (ops : List (Op κ)) (k : κ) :
    (tally ops).table.get? k = if k ∈ interned ops then some ((firsts ops).idxOf k + 1) else none := by
  rw [(table_made_tally ops).1, get?_extend_empty (nodup_firsts ops) List.length_range'.symm]
  by_cases hk : k ∈ interned ops
  · have hi : (firsts ops).idxOf k < (firsts ops).length := List.idxOf_lt_length_of_mem (mem_firsts.2 hk)
    rw [if_pos hk, List.getElem?_range' hi, Nat.one_mul, Nat.add_comm]
  · rw [if_neg hk, List.idxOf_eq_length (mt mem_firsts.1 hk)]
    simp

theorem size_tally (ops : List (Op κ)) : (tally ops).table.size = (firsts ops).length := by
  rw [(table_made_tally ops).1, size_extend_empty (nodup_firsts ops) List.length_range'.symm]

theorem answer_intern {ops : List (Op κ)} {i : Nat} {k : κ} (hi : ops[i]? = some (.intern k)) :
    (tally ops).answers[i]? = some (some ((firsts (ops.take i)).idxOf k + 1)) := by
  have hget := get?_tally (ops.take i) k
  rw [answer_tally hi]
  by_cases hk : k ∈ interned (ops.take i)
  · rw [if_pos hk] at hget
    rw [run_intern_of_some _ hget]
    rfl
  · -- a new key comes after all that were made, and this is where `idxOf` puts it
    rw [if_neg hk] at hget
    rw [run_intern_of_none _ hget, List.idxOf_eq_length (mt mem_firsts.1 hk), ← (table_made_tally _).2]
    rfl

theorem answer_get {ops : List (Op κ)} {i : Nat} {k : κ} (hi : ops[i]? = some (.get k)) :
    (tally ops).answers[i]? =
      some (if k ∈ interned (ops.take i) then some ((firsts (ops.take i)).idxOf k + 1) else none) := by
  rw [answer_tally hi, ← get?_tally]
  rfl

/-- calls that intern the same new keys make the same handles -/
theorem tally_congr {ops more : List (Op κ)} (h : firsts ops = firsts more) :
    (tally ops).table = (tally more).table ∧ (tally ops).made = (tally more).made := by
  obtain ⟨ht, hm⟩ := table_made_tally ops
  obtain ⟨ht', hm'⟩ := table_made_tally more
  rw [ht, hm, ht', hm', h]
  exact ⟨rfl, rfl⟩

/-- how a run makes its handles, and what its calls answer -/
structure MakesOnce (ops : List (Op κ)) : Prop where
  /-- whatever making a handle does, it is done once for each key, in the order in which the keys come first -/
  effects : ∀ {m : Type → Type} [Monad m] [LawfulMonad m] {ν : Type} (make : κ → m ν),
    Prod.snd <$> runAll make empty ops =
      (fun hs => extend empty ((firsts ops).zip hs)) <$> (firsts ops).mapM make
  new_key : ∀ k, k ∉ interned ops → (tally (ops ++ [.intern k])).made = (tally ops).made + 1
  known_key : ∀ k, k ∈ interned ops → (tally (ops ++ [.intern k])).table = (tally ops).table ∧
    (tally (ops ++ [.intern k])).made = (tally ops).made
  get_keeps : ∀ k, (tally (ops ++ [.get k])).table = (tally ops).table ∧
    (tally (ops ++ [.get k])).made = (tally ops).made
  answered : (tally ops).answers.length = ops.length
  /-- the handle of a key tells how many keys were interned before the first call for it, the one at `j` -/
  intern_eq : ∀ {i : Nat} {k : κ}, ops[i]? = some (.intern k) →
    ∃ j ≤ i, ops[j]? = some (.intern k) ∧ k ∉ interned (ops.take j) ∧
      (tally ops).answers[i]? = some (some (1 + (firsts (ops.take j)).length))
  get_eq : ∀ {i j : Nat} {k : κ}, ops[i]? = some (.get k) → ops[j]? = some (.intern k) → j < i →
    (tally ops).answers[i]? = (tally ops).answers[j]?
  get_none : ∀ {i : Nat} {k : κ}, ops[i]? = some (.get k) → k ∉ interned (ops.take i) →
    (tally ops).answers[i]? = some none
  size_eq : (tally ops).table.size = (firsts ops).length
  made_eq : (tally ops).made = (firsts ops).length

end Table

open Table in
/-- **Handles are made once.**  A run of calls makes one handle for each key it interns, in the order in which the keys
come first, so that a handle that counts what was made tells how many keys came before.  Looking for a key finds the
handle that it was given, and changes nothing. -/
theorem handles_are_made_once {κ : Type} [Ord κ] [TransOrd κ] [LawfulEqOrd κ] [DecidableEq κ] (ops : List (Op κ)) :
    MakesOnce ops where
  effects make := by
    rw [table_runAll, fresh_empty]
  new_key k hk := by
    rw [(table_made_tally _).2, (table_made_tally ops).2, firsts_intern, if_neg hk]
    exact List.length_append
  known_key k hk := tally_congr (by rw [firsts_intern, if_pos hk])
  get_keeps k := tally_congr (firsts_get ops k)
  answered := length_answers empty 0 ops
  intern_eq := by
    intro i k hi
    obtain ⟨j, hji, hj, hfirst⟩ := exists_first hi
    refine ⟨j, hji, hj, hfirst, ?_⟩
    rw [answer_intern hi, idxOf_firsts hj hji, List.idxOf_eq_length (mt mem_firsts.1 hfirst), Nat.add_comm]
  get_eq := by
    intro i j k hi hj hji
    rw [answer_get hi, if_pos (mem_interned_take.2 ⟨j, hji, hj⟩), answer_intern hj, idxOf_firsts hj (Nat.le_of_lt hji)]
  get_none hi hk := by rw [answer_get hi, if_neg hk]
  size_eq := size_tally ops
  made_eq := (table_made_tally ops).2

namespace Sample

/-- a key is looked for, interned after another one, and found -/
def calls : List (Table.Op String) := [.get "b", .intern "a", .intern "b", .intern "a", .get "b"]

/-- notes the key that a handle is made for -/
def note (k : String) : StateM (List String) Unit := modify (· ++ [k])

end Sample

open Table Sample in
theorem handles_are_made_once_found :
    ((runAll note empty calls).run []).2 = ["a", "b"] ∧ (tally calls).answers[0]? = some none ∧
      (tally calls).answers[3]? = some (some 1) ∧ (tally calls).answers[4]? = (tally calls).answers[2]? ∧
      (tally calls).table.size = 2 ∧ (tally calls).made = 2 ∧
      (tally (calls ++ [.intern "a"])).made = (tally calls).made ∧
      (tally (calls ++ [.intern "c"])).made = (tally calls).made + 1 := by
  have h := handles_are_made_once calls
  have hnotes : ((runAll note empty calls).run []).2 = (((firsts calls).mapM note).run []).2 :=
    congrArg (fun x : StateM (List String) (Table String Unit) => (x.run []).2) (h.effects note)
  refine ⟨hnotes, h.get_none rfl (by decide), ?_, h.get_eq rfl rfl (by decide), h.size_eq, h.made_eq,
    (h.known_key "a" (by decide)).2, h.new_key "c" (by decide)⟩
  obtain ⟨j, hj, hat, hfirst, ha⟩ := h.intern_eq (i := 3) rfl
  have hone : j = 1 := by
    have hcases : ∀ j ≤ 3, calls[j]? = some (.intern "a") → "a" ∉ interned (calls.take j) → j = 1 := by decide
    exact hcases j hj hat hfirst
  rw [ha, hone]
  rfl

end InfoFlow
