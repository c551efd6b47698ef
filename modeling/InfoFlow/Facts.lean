/-!
# Facts

Every part of an abstract state is a finite collection of facts: it can be empty (`∅`), two of them can be
put together (`∪`), and what one has and the other lacks can be taken (`\`).  `Facts α` says that these
behave as for sets, where `a ∪ b = b` plays the part of inclusion:

* `union_comm`, `union_assoc`, `union_self`, `union_empty`: union is a join with least element `∅`;
* `diff_below`: `a \ b` is the least `c` such that `b ∪ c` has everything in `a`.
-/

namespace InfoFlow

class Facts (α : Type) [EmptyCollection α] [Union α] [SDiff α] : Prop where
  union_comm : ∀ a b : α, a ∪ b = b ∪ a
  union_assoc : ∀ a b c : α, a ∪ b ∪ c = a ∪ (b ∪ c)
  union_self : ∀ a : α, a ∪ a = a
  union_empty : ∀ a : α, a ∪ ∅ = a
  diff_below : ∀ a b c : α, a \ b ∪ c = c ↔ a ∪ (b ∪ c) = b ∪ c

namespace Facts

variable {α : Type} [EmptyCollection α] [Union α] [SDiff α] [Facts α]

theorem empty_union (a : α) : ∅ ∪ a = a := (union_comm ∅ a).trans (union_empty a)

theorem empty_diff (a : α) : ∅ \ a = (∅ : α) := by
  have h := (diff_below ∅ a (∅ : α)).2 (empty_union _)
  rwa [union_empty] at h

/-- only nothing and nothing together are nothing -/
theorem eq_empty_of_union_eq_empty {a b : α} (h : a ∪ b = ∅) : a = ∅ ∧ b = ∅ := by
  constructor
  · rw [← union_empty a, ← h, ← union_assoc, union_self]
  · rw [← union_empty b, ← h, union_comm a b, ← union_assoc, union_self]

end Facts

end InfoFlow
