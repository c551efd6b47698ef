import Std.Data.String.ToNat
import Mathlib.Data.Set.Function
import InfoFlow.Location.Context
import InfoFlow.Location.Slot
import InfoFlow.Location.Address

/-!
# Labels of keys

A label is put together from names, numbers and punctuation.  A name without a separator ends where the label goes on
with one, so that the label can be taken apart again from the left.

* `Delimited P follow text`: texts of what satisfies `P` end at one place, whatever comes after them with `follow`;
* `delimited_name`, `delimited_nat`: names without separators and numbers end before a separator;
* `Method.delimited_signature`, `CallEdge.delimited_text`: signatures and call edges end by themselves;
* `Field.delimited_signature`, `Site.delimited_text`: fields and sites end before some separators;
* `LocalSlot.label_injOn`, `Context.text_injOn`, ...: labels of different keys are different.
-/

namespace InfoFlow

/-! ## texts that end at one place -/

/-- space, comma, colon and parentheses -/
def isSeparator (c : Char) : Bool := c = ' ' || c = ',' || c = ':' || c = '(' || c = ')'

/-- no separator is in the name -/
def Plain (name : String) : Prop := ∀ c ∈ name.toList, isSeparator c = false

instance (name : String) : Decidable (Plain name) :=
  decidable_of_iff (name.toList.all (isSeparator · = false) = true) (by simp [Plain])

/-- nothing follows, or a separator -/
def Ends (r : List Char) : Prop := ∀ c ∈ r.head?, isSeparator c = true

/-- the text of an `a` with `P a` ends at one place, if it is followed by something with `follow` -/
def Delimited {α : Type} (P : α → Prop) (follow : List Char → Prop) (text : α → String) : Prop :=
  ∀ {a b r s}, P a → P b → follow r → follow s → (text a).toList ++ r = (text b).toList ++ s → a = b ∧ r = s

theorem Delimited.injOn {α : Type} {P : α → Prop} {follow : List Char → Prop} {text : α → String}
    (h : Delimited P follow text) (hnil : follow []) : Set.InjOn text {a | P a} := by
  intro a ha b hb hab
  exact (h ha hb hnil hnil (by rw [hab])).1

theorem ends_nil : Ends [] := fun _ h => by cases h

theorem ends_cons {c : Char} (hc : isSeparator c = true) (r : List Char) : Ends (c :: r) := fun d hd => by
  cases hd
  exact hc

theorem ends_space (r : List Char) : Ends (' ' :: r) := ends_cons rfl r

theorem ends_colon (r : List Char) : Ends (':' :: r) := ends_cons rfl r

/-- the part before the first separator -/
theorem takeWhile_plain {xs r : List Char} (hx : ∀ c ∈ xs, isSeparator c = false) (hr : Ends r) :
    (xs ++ r).takeWhile (!isSeparator ·) = xs := by
  have hrest : r.takeWhile (!isSeparator ·) = [] := by
    cases r with
    | nil => rfl
    | cons c r =>
      have hc : isSeparator c = true := hr c rfl
      rw [List.takeWhile_cons, hc]
      rfl
  have hxs : ∀ c ∈ xs, (!isSeparator c) = true := fun c hc => by rw [hx c hc]; rfl
  rw [List.takeWhile_append_of_pos hxs, hrest, List.append_nil]

theorem append_inj_of_plain {xs ys r s : List Char} (hx : ∀ c ∈ xs, isSeparator c = false)
    (hy : ∀ c ∈ ys, isSeparator c = false) (hr : Ends r) (hs : Ends s) (h : xs ++ r = ys ++ s) : xs = ys ∧ r = s := by
  have hxy : xs = ys := by rw [← takeWhile_plain hx hr, h, takeWhile_plain hy hs]
  subst hxy
  exact ⟨rfl, List.append_cancel_left h⟩

theorem delimited_name : Delimited Plain Ends id := fun ha hb hr hs h => by
  obtain ⟨hab, hrs⟩ := append_inj_of_plain ha hb hr hs h
  exact ⟨String.toList_inj.1 hab, hrs⟩

theorem isSeparator_of_isDigit {c : Char} (hc : c.isDigit = true) : isSeparator c = false := by
  unfold isSeparator
  by_contra h
  simp only [Bool.not_eq_false, Bool.or_eq_true, decide_eq_true_eq] at h
  obtain (((rfl | rfl) | rfl) | rfl) | rfl := h <;> exact absurd hc (by decide)

theorem delimited_nat : Delimited (fun _ : Nat => True) Ends toString := fun {m n r s} _ _ hr hs h => by
  have hdigits : ∀ i : Nat, ∀ c ∈ (toString i).toList, isSeparator c = false := by
    intro i c hc
    rw [Nat.toString_eq_repr, Nat.toList_repr] at hc
    exact isSeparator_of_isDigit (Nat.isDigit_of_mem_toDigits (by decide) (by decide) hc)
  obtain ⟨hmn, hrs⟩ := append_inj_of_plain (hdigits m) (hdigits n) hr hs h
  have hrepr : m.repr = n.repr := String.toList_inj.1 hmn
  exact ⟨Nat.repr_inj.1 hrepr, hrs⟩

/-! ## methods -/

/-- no name in the method has a separator -/
structure Method.IsPlain (m : Method) : Prop where
  className : Plain m.className
  name : Plain m.name
  params : ∀ p ∈ m.params, Plain p
  returnType : Plain m.returnType

/-- the types after the first one -/
def moreTypes (ps : List String) : List Char := ps.flatMap fun p => ',' :: p.toList

theorem toList_intercalate_cons (p : String) (ps : List String) :
    (",".intercalate (p :: ps)).toList = p.toList ++ moreTypes ps := by
  simp only [String.toList_intercalate, List.map_cons]
  induction ps generalizing p with
  | nil => simp [moreTypes]
  | cons q qs ih =>
    rw [List.map_cons, List.intercalate_cons_cons, ih]
    simp [moreTypes]

theorem ends_moreTypes (ps : List String) (r : List Char) : Ends (moreTypes ps ++ ')' :: r) := by
  cases ps with
  | nil => exact ends_cons rfl r
  | cons p ps => exact ends_cons rfl _

theorem moreTypes_inj {ps qs : List String} {r s : List Char} (hp : ∀ p ∈ ps, Plain p) (hq : ∀ q ∈ qs, Plain q)
    (h : moreTypes ps ++ ')' :: r = moreTypes qs ++ ')' :: s) : ps = qs ∧ r = s := by
  induction ps generalizing qs with
  | nil =>
    cases qs with
    | nil => exact ⟨rfl, (List.cons.inj h).2⟩
    | cons q qs => exact absurd (List.cons.inj h).1 (by decide)
  | cons p ps ih =>
    cases qs with
    | nil => exact absurd (List.cons.inj h).1 (by decide)
    | cons q qs =>
      have htail : p.toList ++ (moreTypes ps ++ ')' :: r) = q.toList ++ (moreTypes qs ++ ')' :: s) := by
        simpa [moreTypes] using h
      obtain ⟨rfl, hmore⟩ := delimited_name (hp p List.mem_cons_self) (hq q List.mem_cons_self) (ends_moreTypes ps r)
        (ends_moreTypes qs s) htail
      obtain ⟨rfl, hrs⟩ := ih (fun p' h' => hp p' (List.mem_cons_of_mem _ h'))
        (fun q' h' => hq q' (List.mem_cons_of_mem _ h')) hmore
      exact ⟨rfl, hrs⟩

/-- a first type makes the list differ from the empty one, as it starts with no separator -/
theorem types_ne_nil {p : String} (hp : Plain p) (hne : p ≠ "") (ps : List String) (r s : List Char) :
    ')' :: r ≠ p.toList ++ moreTypes ps ++ ')' :: s := by
  intro h
  cases hc : p.toList with
  | nil => exact hne (String.toList_inj.1 hc)
  | cons c cs =>
    rw [hc] at h
    have hsep : isSeparator c = false := hp c (by rw [hc]; exact List.mem_cons_self)
    rw [← (List.cons.inj h).1] at hsep
    exact absurd hsep (by decide)

theorem intercalate_inj {ps qs : List String} {r s : List Char} (hp : ∀ p ∈ ps, Plain p ∧ p ≠ "")
    (hq : ∀ q ∈ qs, Plain q ∧ q ≠ "")
    (h : (",".intercalate ps).toList ++ ')' :: r = (",".intercalate qs).toList ++ ')' :: s) : ps = qs ∧ r = s := by
  cases ps with
  | nil =>
    cases qs with
    | nil => exact ⟨rfl, (List.cons.inj h).2⟩
    | cons q qs =>
      rw [toList_intercalate_cons] at h
      have hq0 := hq q List.mem_cons_self
      exact absurd h (types_ne_nil hq0.1 hq0.2 qs r s)
  | cons p ps =>
    cases qs with
    | nil =>
      rw [toList_intercalate_cons] at h
      have hp0 := hp p List.mem_cons_self
      exact absurd h.symm (types_ne_nil hp0.1 hp0.2 ps s r)
    | cons q qs =>
      rw [toList_intercalate_cons, toList_intercalate_cons] at h
      -- a comma in front makes the first type one of those after the first
      apply moreTypes_inj (fun p' h' => (hp p' h').1) (fun q' h' => (hq q' h').1)
      show ',' :: p.toList ++ moreTypes ps ++ _ = ',' :: q.toList ++ moreTypes qs ++ _
      exact congrArg (',' :: ·) h

namespace Method

theorem toList_signature (m : Method) (r : List Char) :
    m.signature.toList ++ r =
      '<' :: (m.className.toList ++ ':' :: ' ' :: (m.returnType.toList ++ ' ' :: (m.name.toList ++
        '(' :: ((",".intercalate m.params).toList ++ ')' :: '>' :: r)))) := by
  simp [m.signature_eq, Method.spell, String.toList_append]

theorem delimited_signature : Delimited IsPlain (fun _ => True) signature := fun {m n r s} hm hn _ _ h => by
  rw [toList_signature, toList_signature] at h
  obtain ⟨hclass, h⟩ := delimited_name hm.className hn.className (ends_colon _) (ends_colon _)
    (List.cons.inj h).2
  obtain ⟨hreturn, h⟩ := delimited_name hm.returnType hn.returnType (ends_space _) (ends_space _)
    (List.cons.inj (List.cons.inj h).2).2
  obtain ⟨hname, h⟩ := delimited_name hm.name hn.name (ends_cons rfl _) (ends_cons rfl _) (List.cons.inj h).2
  obtain ⟨hparams, h⟩ := intercalate_inj (fun p hp => ⟨hm.params p hp, m.params_ne p hp⟩)
    (fun p hp => ⟨hn.params p hp, n.params_ne p hp⟩) (List.cons.inj h).2
  exact ⟨eq_of_parts hclass hname hparams hreturn, (List.cons.inj h).2⟩

end Method

/-! ## fields -/

/-- no name in the field has a separator -/
structure Field.IsPlain (f : Field) : Prop where
  className : Plain f.className
  name : Plain f.name
  type : Plain f.type

namespace Field

theorem toList_signature (f : Field) (r : List Char) :
    f.signature.toList ++ r =
      '<' :: (f.className.toList ++ ':' :: ' ' :: (f.type.toList ++ ' ' :: ((f.name.toList ++ ['>']) ++ r))) := by
  simp [f.signature_eq, Field.spell, String.toList_append]

/-- the closing bracket is no separator, and is taken as the last letter of the name -/
theorem delimited_signature : Delimited IsPlain Ends signature := fun {f g r s} hf hg hr hs h => by
  have hlast : ∀ {k : Field}, k.IsPlain → ∀ c ∈ k.name.toList ++ ['>'], isSeparator c = false := by
    intro k hk c hc
    rcases List.mem_append.1 hc with hc | hc
    · exact hk.name c hc
    · rw [List.mem_singleton.1 hc]
      rfl
  rw [toList_signature, toList_signature] at h
  obtain ⟨hclass, h⟩ := delimited_name hf.className hg.className (ends_colon _) (ends_colon _)
    (List.cons.inj h).2
  obtain ⟨htype, h⟩ := delimited_name hf.type hg.type (ends_space _) (ends_space _)
    (List.cons.inj (List.cons.inj h).2).2
  obtain ⟨hname, h⟩ := append_inj_of_plain (hlast hf) (hlast hg) hr hs (List.cons.inj h).2
  exact ⟨eq_of_parts hclass htype (String.toList_inj.1 (List.append_cancel_right hname)), h⟩

end Field

/-! ## sites and addresses -/

/-- no name has a separator, also in the method around the site -/
structure Site.IsPlain (a : Site) : Prop where
  type : Plain a.type
  method : ∀ text ∈ a.method, ∃ m : Method, m.IsPlain ∧ m.signature = text

namespace Site

/-- what follows the type -/
def inMethod : Option String → List Char
  | none => []
  | some m => ' ' :: ("in method ".toList ++ m.toList)

theorem toList_text (a : Site) (r : List Char) :
    a.text.toList ++ r = "AllocNode ".toList ++ ((toString a.id).toList ++ ' ' :: ("new ".toList ++ (a.type.toList ++
      (inMethod a.method ++ r)))) := by
  rw [a.text_eq]
  cases a.method <;> simp [Site.spell, inMethod, String.toList_append]

/-- nothing follows, or a comma -/
def Follow (r : List Char) : Prop := ∀ c ∈ r.head?, c = ','

theorem Follow.ends {r : List Char} (hr : Follow r) : Ends r := fun c hc => by
  rw [hr c hc]
  rfl

theorem ends_inMethod (m : Option String) {r : List Char} (hr : Follow r) : Ends (inMethod m ++ r) := by
  cases m with
  | none => exact hr.ends
  | some m => exact ends_cons rfl _

/-- the method starts with a space, which no follower does -/
theorem inMethod_inj {a b : Site} {r s : List Char} (ha : a.IsPlain) (hb : b.IsPlain) (hr : Follow r) (hs : Follow s)
    (h : inMethod a.method ++ r = inMethod b.method ++ s) : a.method = b.method ∧ r = s := by
  have hspace : ∀ {r : List Char}, Follow r → ∀ m s, r ≠ inMethod (some m) ++ s := by
    intro r hr m s hrs
    have hc := hr ' ' (by rw [hrs]; rfl)
    exact absurd hc (by decide)
  cases hma : a.method with
  | none =>
    cases hmb : b.method with
    | none =>
      rw [hma, hmb] at h
      exact ⟨rfl, h⟩
    | some n =>
      rw [hma, hmb] at h
      exact absurd h (hspace hr n s)
  | some m =>
    cases hmb : b.method with
    | none =>
      rw [hma, hmb] at h
      exact absurd h.symm (hspace hs m r)
    | some n =>
      rw [hma, hmb] at h
      obtain ⟨p, hp, rfl⟩ := ha.method m hma
      obtain ⟨q, hq, rfl⟩ := hb.method n hmb
      have htexts : p.signature.toList ++ r = q.signature.toList ++ s := by
        simpa [inMethod] using h
      obtain ⟨rfl, hrs⟩ := Method.delimited_signature hp hq trivial trivial htexts
      exact ⟨rfl, hrs⟩

theorem delimited_text : Delimited IsPlain Follow text := fun {a b r s} ha hb hr hs h => by
  rw [toList_text, toList_text] at h
  obtain ⟨hid, h⟩ := delimited_nat trivial trivial (ends_space _) (ends_space _) (List.append_cancel_left h)
  obtain ⟨htype, h⟩ := delimited_name ha.type hb.type (ends_inMethod _ hr) (ends_inMethod _ hs)
    (List.append_cancel_left (List.cons.inj h).2)
  obtain ⟨hmethod, h⟩ := inMethod_inj ha hb hr hs h
  exact ⟨eq_of_parts hid htype hmethod, h⟩

end Site

def Address.IsPlain (a : Address) : Prop := a.site.IsPlain

structure ObjectField.IsPlain (k : ObjectField) : Prop where
  address : k.address.IsPlain
  field : k.field.IsPlain

theorem Address.text_injOn : Set.InjOn (toString : Address → String) {a | a.IsPlain} := by
  intro a ha b hb hab
  have hsite : a.site = b.site := Site.delimited_text.injOn (fun _ h => by cases h) ha hb hab
  cases a
  cases b
  cases hsite
  rfl

theorem ObjectField.text_injOn : Set.InjOn (toString : ObjectField → String) {k | k.IsPlain} := by
  intro k hk l hl hkl
  have hchars : ∀ k : ObjectField, (toString k).toList =
      '(' :: (k.address.site.text.toList ++ ',' :: ' ' :: (k.field.signature.toList ++ [')'])) := by
    intro k
    show ("(" ++ k.address.site.text ++ ", " ++ k.field.signature ++ ")").toList = _
    simp [String.toList_append]
  have h := congrArg String.toList hkl
  rw [hchars, hchars] at h
  obtain ⟨hsite, h⟩ := Site.delimited_text hk.address hl.address (fun _ hc => by cases hc; rfl)
    (fun _ hc => by cases hc; rfl) (List.cons.inj h).2
  obtain ⟨hfield, _⟩ := Field.delimited_signature hk.field hl.field (ends_cons rfl _) (ends_cons rfl _)
    (List.cons.inj (List.cons.inj h).2).2
  obtain ⟨⟨a⟩, f⟩ := k
  obtain ⟨⟨b⟩, g⟩ := l
  cases hsite
  cases hfield
  rfl

/-! ## slots -/

structure LocalSlot.IsPlain (s : LocalSlot) : Prop where
  method : s.method.IsPlain
  name : Plain s.var.name
  type : Plain s.var.type

/-- no name in the method has a separator; the type of the parameter comes last in the label, and may have any -/
def ParamSlot.IsPlain (s : ParamSlot) : Prop := s.method.IsPlain

theorem LocalSlot.label_injOn : Set.InjOn LocalSlot.label {s | s.IsPlain} := by
  intro s hs t ht hst
  have hchars : ∀ s : LocalSlot, s.label.toList =
      s.method.signature.toList ++ ' ' :: (s.var.name.toList ++ ':' :: ' ' :: s.var.type.toList) := by
    intro s
    simp [LocalSlot.label, String.toList_append]
  have h := congrArg String.toList hst
  rw [hchars, hchars] at h
  obtain ⟨hmethod, h⟩ := Method.delimited_signature hs.method ht.method trivial trivial h
  obtain ⟨hname, h⟩ := delimited_name hs.name ht.name (ends_colon _) (ends_colon _) (List.cons.inj h).2
  have htype : s.var.type = t.var.type := String.toList_inj.1 (List.cons.inj (List.cons.inj h).2).2
  have hvar : s.var = t.var := Local.eq_of_parts hname htype
  cases s
  cases t
  cases hmethod
  cases hvar
  rfl

theorem Method.receiverLabel_injOn : Set.InjOn Method.receiverLabel {m | m.IsPlain} := by
  intro m hm n hn hmn
  have h := congrArg String.toList hmn
  simp only [Method.receiverLabel, String.toList_append] at h
  exact (Method.delimited_signature hm hn trivial trivial h).1

theorem ParamSlot.label_injOn : Set.InjOn ParamSlot.label {s | s.IsPlain} := by
  intro s hs t ht hst
  have hchars : ∀ s : ParamSlot, s.label.toList = s.method.signature.toList ++ (" @parameter".toList ++
      ((toString s.param.index).toList ++ ':' :: ' ' :: s.param.type.toList)) := by
    intro s
    show (s.method.signature ++ " " ++ ("@parameter" ++ toString s.param.index ++ ": " ++ s.param.type)).toList = _
    simp [String.toList_append]
  have h := congrArg String.toList hst
  rw [hchars, hchars] at h
  obtain ⟨hmethod, h⟩ := Method.delimited_signature hs ht trivial trivial h
  obtain ⟨hindex, h⟩ := delimited_nat trivial trivial (ends_colon _) (ends_colon _) (List.append_cancel_left h)
  have htype : s.param.type = t.param.type := String.toList_inj.1 (List.cons.inj (List.cons.inj h).2).2
  obtain ⟨m, i, ty⟩ := s
  obtain ⟨n, j, tz⟩ := t
  cases hmethod
  cases hindex
  cases htype
  rfl

/-! ## contexts -/

/-- no name in either method has a separator -/
def CallEdge.IsPlain : CallEdge → Prop
  | entry t => t.IsPlain
  | call s _ t => s.IsPlain ∧ t.IsPlain

namespace CallEdge

theorem toList_entry (t : Method) (r : List Char) :
    (toString (entry t)).toList ++ r =
      '<' :: ("entry>".toList ++ ' ' :: ("-> ".toList ++ (t.signature.toList ++ r))) := by
  show ("<entry> -> " ++ t.signature).toList ++ r = _
  simp [String.toList_append]

theorem toList_call (m : Method) (i : Nat) (t : Method) (r : List Char) :
    (toString (call m i t)).toList ++ r = m.signature.toList ++
      (" @".toList ++ ((toString i).toList ++ ' ' :: ("-> ".toList ++ (t.signature.toList ++ r)))) := by
  show (m.signature ++ " @" ++ toString i ++ " -> " ++ t.signature).toList ++ r = _
  simp [String.toList_append]

/-- a class could be called `entry>`, but a colon follows it -/
theorem entry_ne_call {t m n : Method} {i : Nat} {r s : List Char} (hm : m.IsPlain) :
    (toString (entry t)).toList ++ r ≠ (toString (call m i n)).toList ++ s := by
  intro h
  rw [toList_entry, toList_call, Method.toList_signature m] at h
  have hentry : Plain "entry>" := by decide
  obtain ⟨_, h⟩ := delimited_name hentry hm.className (ends_space _) (ends_colon _) (List.cons.inj h).2
  exact absurd (List.cons.inj h).1 (by decide)

theorem delimited_text : Delimited IsPlain (fun _ => True) (toString : CallEdge → String) := by
  intro a b r s ha hb _ _ h
  cases a with
  | entry t =>
    cases b with
    | entry u =>
      rw [toList_entry, toList_entry] at h
      obtain ⟨rfl, hrs⟩ := Method.delimited_signature ha hb trivial trivial
        (List.append_cancel_left (List.cons.inj (List.append_cancel_left (List.cons.inj h).2)).2)
      exact ⟨rfl, hrs⟩
    | call n j u => exact absurd h (entry_ne_call hb.1)
  | call m i t =>
    cases b with
    | entry u => exact absurd h.symm (entry_ne_call ha.1)
    | call n j u =>
      rw [toList_call, toList_call] at h
      obtain ⟨rfl, hsite⟩ := Method.delimited_signature ha.1 hb.1 trivial trivial h
      obtain ⟨rfl, htarget⟩ := delimited_nat trivial trivial (ends_space _) (ends_space _)
        (List.append_cancel_left hsite)
      obtain ⟨rfl, hrs⟩ := Method.delimited_signature ha.2 hb.2 trivial trivial
        (List.append_cancel_left (List.cons.inj htarget).2)
      exact ⟨rfl, hrs⟩

end CallEdge

structure Context.IsPlain (c : Context) : Prop where
  entry : c.entry.IsPlain
  call : c.call.IsPlain

theorem Context.text_injOn : Set.InjOn (toString : Context → String) {c | c.IsPlain} := by
  intro c hc d hd hcd
  have hchars : ∀ c : Context, (toString c).toList =
      '(' :: ((toString c.entry).toList ++ (", ".toList ++ ((toString c.call).toList ++ [')']))) := by
    intro c
    show ("(" ++ toString c.entry ++ ", " ++ toString c.call ++ ")").toList = _
    simp [String.toList_append]
  have h := congrArg String.toList hcd
  rw [hchars, hchars] at h
  obtain ⟨hentry, h⟩ := CallEdge.delimited_text hc.entry hd.entry trivial trivial (List.cons.inj h).2
  obtain ⟨hcall, _⟩ := CallEdge.delimited_text hc.call hd.call trivial trivial (List.append_cancel_left h)
  cases c
  cases d
  cases hentry
  cases hcall
  rfl

end InfoFlow
