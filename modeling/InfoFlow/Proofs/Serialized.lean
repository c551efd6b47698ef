import InfoFlow.Proofs.HeldFields
import InfoFlow.Proofs.Tokens
import InfoFlow.Value.Json

/-!
# Texts tell values apart

* `Json.toTokens_inj`: the tokens of a JSON value end at one place, whatever comes after them;
* `Json.text_injective`: so a text is the text of one JSON value only;
* `Method.toJson_injective` and its like: each element, key and value is written in its own way;
* `Held`: a value whose address is a handle, from whichever tables;
* `serialized_text_identifies`: texts are equal exactly if what was written is.
-/

namespace InfoFlow

namespace Json

/-! ## telling values apart -/

theorem pieces_injective : Function.Injective pieces := by
  intro s t h
  have hd : some s.toList = some t.toList := by rw [← decode_pieces, h, decode_pieces]
  exact String.toList_inj.1 (Option.some.inj hd)

theorem digits_injective : Function.Injective digits := by
  intro m n h
  rw [← ofDigits_digits m, h, ofDigits_digits]

/-- the first token of a value -/
def lead : Json → Token
  | null => .null
  | num n => .number ⟨false, digits n, [], none⟩
  | str s => .string (pieces s)
  | arr _ => .lbracket
  | obj _ => .lbrace

theorem toTokens_eq_cons (j : Json) : ∃ ts, toTokens j = lead j :: ts := by
  cases j with
  | arr js => cases js <;> exact ⟨_, rfl⟩
  | obj ms => cases ms <;> exact ⟨_, rfl⟩
  | _ => exact ⟨_, rfl⟩

theorem lead_eq {j k : Json} {r s : List Token} (h : toTokens j ++ r = toTokens k ++ s) : lead j = lead k := by
  obtain ⟨ts, hj⟩ := toTokens_eq_cons j
  obtain ⟨us, hk⟩ := toTokens_eq_cons k
  rw [hj, hk] at h
  exact (List.cons.inj h).1

theorem toTokens_ne_rbracket (j : Json) (r s : List Token) : .rbracket :: s ≠ toTokens j ++ r := by
  intro h
  obtain ⟨ts, hj⟩ := toTokens_eq_cons j
  rw [hj] at h
  have hl : Token.rbracket = lead j := (List.cons.inj h).1
  cases j <;> cases hl

/-- a comma in place of the opening bracket makes the first item one of those after the first -/
theorem itemTokens_of_array {js ks : List Json} {r s : List Token}
    (h : toTokens (arr js) ++ r = toTokens (arr ks) ++ s) : itemTokens js ++ r = itemTokens ks ++ s := by
  cases js with
  | nil =>
    cases ks with
    | nil => exact (List.cons.inj h).2
    | cons k ks =>
      have hk : .rbracket :: r = toTokens k ++ (itemTokens ks ++ s) := by
        rw [← List.append_assoc]
        exact (List.cons.inj h).2
      exact absurd hk (toTokens_ne_rbracket k _ _)
  | cons j js =>
    cases ks with
    | nil =>
      have hj : .rbracket :: s = toTokens j ++ (itemTokens js ++ r) := by
        rw [← List.append_assoc]
        exact (List.cons.inj h).2.symm
      exact absurd hj (toTokens_ne_rbracket j _ _)
    | cons k ks => exact congrArg (.comma :: ·) (List.cons.inj h).2

theorem memberTokens_of_object {ms ns : List (String × Json)} {r s : List Token}
    (h : toTokens (obj ms) ++ r = toTokens (obj ns) ++ s) : memberTokens ms ++ r = memberTokens ns ++ s := by
  cases ms with
  | nil =>
    cases ns with
    | nil => exact (List.cons.inj h).2
    | cons n ns => cases h
  | cons m ms =>
    cases ns with
    | nil => cases h
    | cons n ns => exact congrArg (.comma :: ·) (List.cons.inj h).2

mutual

/-- the tokens of a value end at one place, whatever comes after them -/
theorem toTokens_inj : (j k : Json) → {r s : List Token} → toTokens j ++ r = toTokens k ++ s → j = k ∧ r = s
  | null, k, r, s, h => by
    -- the first token tells which kind of value `k` is
    have hl := lead_eq h
    cases k with
    | null => exact ⟨rfl, (List.cons.inj h).2⟩
    | _ => cases hl
  | num m, k, r, s, h => by
    have hl := lead_eq h
    cases k with
    | num n =>
      have hd : digits m = digits n := congrArg Numeral.whole (Token.number.inj hl)
      exact ⟨congrArg num (digits_injective hd), (List.cons.inj h).2⟩
    | _ => cases hl
  | str t, k, r, s, h => by
    have hl := lead_eq h
    cases k with
    | str u => exact ⟨congrArg str (pieces_injective (Token.string.inj hl)), (List.cons.inj h).2⟩
    | _ => cases hl
  | arr js, k, r, s, h => by
    have hl := lead_eq h
    cases k with
    | arr ks =>
      obtain ⟨rfl, hr⟩ := itemTokens_inj js ks (itemTokens_of_array h)
      exact ⟨rfl, hr⟩
    | _ => cases hl
  | obj ms, k, r, s, h => by
    have hl := lead_eq h
    cases k with
    | obj ns =>
      obtain ⟨rfl, hr⟩ := memberTokens_inj ms ns (memberTokens_of_object h)
      exact ⟨rfl, hr⟩
    | _ => cases hl

theorem itemTokens_inj : (js ks : List Json) → {r s : List Token} → itemTokens js ++ r = itemTokens ks ++ s →
    js = ks ∧ r = s
  | [], [], _, _, h => ⟨rfl, (List.cons.inj h).2⟩
  | [], _ :: _, _, _, h => by cases h
  | _ :: _, [], _, _, h => by cases h
  | j :: js, k :: ks, r, s, h => by
    rw [itemTokens, itemTokens, List.cons_append, List.cons_append, List.append_assoc, List.append_assoc] at h
    obtain ⟨rfl, hitems⟩ := toTokens_inj j k (List.cons.inj h).2
    obtain ⟨rfl, hr⟩ := itemTokens_inj js ks hitems
    exact ⟨rfl, hr⟩

theorem memberTokens_inj : (ms ns : List (String × Json)) → {r s : List Token} →
    memberTokens ms ++ r = memberTokens ns ++ s → ms = ns ∧ r = s
  | [], [], _, _, h => ⟨rfl, (List.cons.inj h).2⟩
  | [], _ :: _, _, _, h => by cases h
  | _ :: _, [], _, _, h => by cases h
  | (a, j) :: ms, (b, k) :: ns, r, s, h => by
    rw [memberTokens, memberTokens] at h
    simp only [List.cons_append, List.append_assoc, List.cons.injEq, Token.string.injEq, true_and] at h
    obtain ⟨hkey, hvalue⟩ := h
    obtain ⟨rfl, hmembers⟩ := toTokens_inj j k hvalue
    obtain ⟨rfl, hr⟩ := memberTokens_inj ms ns hmembers
    rw [pieces_injective hkey]
    exact ⟨rfl, hr⟩

end

theorem text_injective : Function.Injective text := by
  intro j k h
  have ht : toTokens j ++ [] = toTokens k ++ [] := by rw [← tokens_text, h, tokens_text]
  exact (toTokens_inj j k ht).1

/-- the texts of two values are equal exactly if the values are -/
def Identifying {α : Type} [BEq α] (write : α → Json) : Prop :=
  ∀ a b, (write a).text = (write b).text ↔ (a == b) = true

theorem identifying_of_injective {α : Type} [DecidableEq α] {write : α → Json} (h : Function.Injective write) :
    Identifying write := by
  intro a b
  rw [text_injective.eq_iff, h.eq_iff, beq_iff_eq]

/-! ## what is written -/

theorem str_injective : Function.Injective str := fun _ _ => str.inj

theorem option_injective {α : Type} {f : α → Json} (hf : Function.Injective f) (hnull : ∀ a, f a ≠ null) :
    Function.Injective (option f) := by
  intro a b h
  cases a with
  | none =>
    cases b with
    | none => rfl
    | some b => exact absurd h.symm (hnull b)
  | some a =>
    cases b with
    | none => exact absurd h (hnull a)
    | some b => exact congrArg some (hf h)

end Json

open Json

theorem Method.toJson_injective : Function.Injective Method.toJson := by
  intro a b h
  simp only [toJson, obj.injEq, List.cons.injEq, Prod.mk.injEq, str.injEq, arr.injEq, true_and, and_true] at h
  obtain ⟨-, hclass, hname, hparams, hreturn⟩ := h
  exact eq_of_parts hclass hname (str_injective.list_map hparams) hreturn

theorem Field.toJson_injective : Function.Injective Field.toJson := by
  intro f g h
  simp only [toJson, obj.injEq, List.cons.injEq, Prod.mk.injEq, str.injEq, true_and, and_true] at h
  obtain ⟨-, hclass, hname, htype⟩ := h
  exact eq_of_parts hclass htype hname

theorem Local.toJson_injective : Function.Injective Local.toJson := by
  intro a b h
  simp only [toJson, obj.injEq, List.cons.injEq, Prod.mk.injEq, str.injEq, true_and, and_true] at h
  exact eq_of_parts h.1 h.2

theorem Parameter.toJson_injective : Function.Injective Parameter.toJson := by
  rintro ⟨i, t⟩ ⟨j, u⟩ h
  simp only [toJson, obj.injEq, List.cons.injEq, Prod.mk.injEq, str.injEq, num.injEq, true_and, and_true] at h
  obtain ⟨rfl, rfl⟩ := h
  rfl

theorem Site.toJson_injective : Function.Injective Site.toJson := by
  intro a b h
  simp only [toJson, obj.injEq, List.cons.injEq, Prod.mk.injEq, str.injEq, num.injEq, true_and, and_true] at h
  obtain ⟨-, hid, htype, hmethod⟩ := h
  exact eq_of_parts hid htype (option_injective str_injective (fun _ => nofun) hmethod)

theorem CallEdge.toJson_injective : Function.Injective CallEdge.toJson := by
  intro a b h
  simp only [toJson, obj.injEq, List.cons.injEq, Prod.mk.injEq, true_and, and_true] at h
  obtain ⟨hsource, hsite, htarget⟩ := h
  have hsource := option_injective Method.toJson_injective (fun _ => nofun) hsource
  have hsite := option_injective (fun _ _ => num.inj) (fun _ => nofun) hsite
  have htarget := Method.toJson_injective htarget
  cases a <;> cases b <;> simp_all [source?, site?, target]

theorem Context.toJson_injective : Function.Injective Context.toJson := by
  rintro ⟨e, c⟩ ⟨e', c'⟩ h
  simp only [toJson, obj.injEq, List.cons.injEq, Prod.mk.injEq, true_and, and_true] at h
  rw [CallEdge.toJson_injective h.1, CallEdge.toJson_injective h.2]

theorem Address.toJson_injective : Function.Injective Address.toJson := by
  rintro ⟨s⟩ ⟨t⟩ h
  simp only [toJson, obj.injEq, List.cons.injEq, Prod.mk.injEq, true_and, and_true] at h
  rw [Site.toJson_injective h]

theorem ObjectField.toJson_injective : Function.Injective ObjectField.toJson := by
  rintro ⟨a, f⟩ ⟨b, g⟩ h
  simp only [toJson, obj.injEq, List.cons.injEq, Prod.mk.injEq, true_and, and_true] at h
  rw [Address.toJson_injective h.1, Field.toJson_injective h.2]

theorem LocalSlot.toJson_injective : Function.Injective LocalSlot.toJson := by
  rintro ⟨m, v⟩ ⟨n, w⟩ h
  simp only [toJson, obj.injEq, List.cons.injEq, Prod.mk.injEq, true_and, and_true] at h
  rw [Method.toJson_injective h.1, Local.toJson_injective h.2]

theorem ParamSlot.toJson_injective : Function.Injective ParamSlot.toJson := by
  rintro ⟨m, p⟩ ⟨n, q⟩ h
  simp only [toJson, obj.injEq, List.cons.injEq, Prod.mk.injEq, true_and, and_true] at h
  obtain rfl := Method.toJson_injective h.1
  obtain rfl := Parameter.toJson_injective h.2
  rfl

theorem Atom.toJson_injective : Function.Injective Atom.toJson := by
  intro a b h
  cases a <;> cases b <;> simp_all [toJson]

theorem Value.toJson_injective : Function.Injective Value.toJson := by
  intro v w h
  cases v with
  | address a =>
    cases w with
    | address b =>
      simp only [toJson, obj.injEq, List.cons.injEq, Prod.mk.injEq, true_and, and_true] at h
      rw [Address.toJson_injective h]
    | atom b => simp [toJson] at h
  | atom a =>
    cases w with
    | address b => simp [toJson] at h
    | atom b =>
      simp only [toJson, obj.injEq, List.cons.injEq, Prod.mk.injEq, true_and, and_true] at h
      rw [Atom.toJson_injective h]

theorem ValueSet.toJson_injective : Function.Injective ValueSet.toJson := by
  intro s t h
  have hlist : s.toList = t.toList := Value.toJson_injective.list_map (arr.inj h)
  ext v
  rw [← mem_toList, hlist, mem_toList]

theorem ValueSet.ofList_eq_iff {vs ws : List Value} : ofList vs = ofList ws ↔ ∀ v, v ∈ vs ↔ v ∈ ws := by
  rw [ValueSet.ext_iff]
  simp

/-! ## handles -/

def Kind.toJson : (k : Kind) → k.Key → Json
  | .context => Context.toJson
  | .address => Address.toJson
  | .objectField => ObjectField.toJson
  | .localSlot => LocalSlot.toJson
  | .paramSlot => ParamSlot.toJson

theorem Kind.toJson_injective (k : Kind) : Function.Injective k.toJson := by
  cases k with
  | context => exact Context.toJson_injective
  | address => exact Address.toJson_injective
  | objectField => exact ObjectField.toJson_injective
  | localSlot => exact LocalSlot.toJson_injective
  | paramSlot => exact ParamSlot.toJson_injective

/-- a value that has its address by a handle -/
inductive Held
  | address (h : Handle Address)
  | atom (a : Atom)

namespace Held

def value : Held → Value
  | address h => .address h.key
  | atom a => .atom a

def equal : Held → Held → Bool
  | address h, address h' => h.equal h'
  | atom a, atom b => a == b
  | _, _ => false

/-- the handle was handed out in the course of a run -/
def From (rs : List Request) : Held → Prop
  | address h => ∃ o c, ⟨o, c, .address, h⟩ ∈ World.start.given rs
  | atom _ => True

theorem equal_iff {rs : List Request} {u v : Held} (hu : u.From rs) (hv : v.From rs) :
    u.equal v = true ↔ u.value = v.value := by
  cases u with
  | address h =>
    cases v with
    | address h' =>
      obtain ⟨o, c, hg⟩ := hu
      obtain ⟨o', c', hg'⟩ := hv
      have hkey : h.equal h' = true ↔ h.key = h'.key := (World.identifies_of_mem_given .start hg hg').equal_iff
      rw [equal, hkey, value, value, Value.address.injEq]
    | atom b => simp [equal, value]
  | atom a =>
    cases v with
    | address h' => simp [equal, value]
    | atom b => simp [equal, value]

theorem same_values_iff {rs : List Request} {us vs : List Held} (hus : ∀ u ∈ us, u.From rs)
    (hvs : ∀ v ∈ vs, v.From rs) : (∀ x, x ∈ us.map value ↔ x ∈ vs.map value) ↔
      (∀ u ∈ us, ∃ v ∈ vs, u.equal v = true) ∧ ∀ v ∈ vs, ∃ u ∈ us, u.equal v = true := by
  constructor
  · intro h
    refine ⟨fun u hu => ?_, fun v hv => ?_⟩
    · obtain ⟨v, hv, e⟩ := List.mem_map.1 ((h u.value).1 (List.mem_map_of_mem hu))
      exact ⟨v, hv, (equal_iff (hus u hu) (hvs v hv)).2 e.symm⟩
    · obtain ⟨u, hu, e⟩ := List.mem_map.1 ((h v.value).2 (List.mem_map_of_mem hv))
      exact ⟨u, hu, (equal_iff (hus u hu) (hvs v hv)).2 e⟩
  · rintro ⟨hleft, hright⟩ x
    rw [List.mem_map, List.mem_map]
    constructor
    · rintro ⟨u, hu, rfl⟩
      obtain ⟨v, hv, e⟩ := hleft u hu
      exact ⟨v, hv, ((equal_iff (hus u hu) (hvs v hv)).1 e).symm⟩
    · rintro ⟨v, hv, rfl⟩
      obtain ⟨u, hu, e⟩ := hright v hv
      exact ⟨u, hu, (equal_iff (hus u hu) (hvs v hv)).1 e⟩

end Held

/-! ## all that is written -/

open World in
/-- texts stand for what was written, where handles are those of a run -/
structure TextsIdentify (rs : List Request) : Prop where
  method : Identifying Method.toJson
  field : Identifying Field.toJson
  var : Identifying Local.toJson
  parameter : Identifying Parameter.toJson
  site : Identifying Site.toJson
  callEdge : Identifying CallEdge.toJson
  context : Identifying Context.toJson
  address : Identifying Address.toJson
  objectField : Identifying ObjectField.toJson
  localSlot : Identifying LocalSlot.toJson
  paramSlot : Identifying ParamSlot.toJson
  value : Identifying Value.toJson
  valueSet : Identifying ValueSet.toJson
  ofList : ∀ vs ws : List Value,
    (ValueSet.ofList vs).toJson.text = (ValueSet.ofList ws).toJson.text ↔ ∀ v, v ∈ vs ↔ v ∈ ws
  /-- handles of any tables, compared with or without their hashes -/
  handle : ∀ {k : Kind} {o o' : Nat} {c c' : Call} {h h' : Handle k.Key},
    ⟨o, c, k, h⟩ ∈ start.given rs → ⟨o', c', k, h'⟩ ∈ start.given rs →
    ((k.toJson h.key).text = (k.toJson h'.key).text ↔ h.equal h' = true) ∧
      ∀ hash : k.Key → UInt64, (k.toJson h.key).text = (k.toJson h'.key).text ↔ h.equalBy hash h' = true
  held : ∀ {u v : Held}, u.From rs → v.From rs → (u.value.toJson.text = v.value.toJson.text ↔ u.equal v = true)
  /-- handles of object fields, which have their addresses by handles of any tables -/
  heldField : ∀ {x y : Handle HeldField}, HeldField.Gave rs x → HeldField.Gave rs y → ∀ hash : ObjectField → UInt64,
    (x.key.key.toJson.text = y.key.key.toJson.text ↔ HeldField.handleEqual hash x y = true)
  heldList : ∀ {us vs : List Held}, (∀ u ∈ us, u.From rs) → (∀ v ∈ vs, v.From rs) →
    ((ValueSet.ofList (us.map Held.value)).toJson.text = (ValueSet.ofList (vs.map Held.value)).toJson.text ↔
      (∀ u ∈ us, ∃ v ∈ vs, u.equal v = true) ∧ ∀ v ∈ vs, ∃ u ∈ us, u.equal v = true)

theorem ValueSet.text_ofList_eq_iff {vs ws : List Value} :
    (ofList vs).toJson.text = (ofList ws).toJson.text ↔ ∀ v, v ∈ vs ↔ v ∈ ws := by
  rw [text_injective.eq_iff, toJson_injective.eq_iff, ofList_eq_iff]

theorem Kind.text_eq_iff {k : Kind} {a b : k.Key} : (k.toJson a).text = (k.toJson b).text ↔ a = b := by
  rw [text_injective.eq_iff, k.toJson_injective.eq_iff]

/-- Texts identify what was written: two texts of one kind are equal exactly if the values are, whichever tables their
handles are from. -/
theorem serialized_text_identifies (rs : List Request) : TextsIdentify rs where
  method := identifying_of_injective Method.toJson_injective
  field := identifying_of_injective Field.toJson_injective
  var := identifying_of_injective Local.toJson_injective
  parameter := identifying_of_injective Parameter.toJson_injective
  site := identifying_of_injective Site.toJson_injective
  callEdge := identifying_of_injective CallEdge.toJson_injective
  context := identifying_of_injective Context.toJson_injective
  address := identifying_of_injective Address.toJson_injective
  objectField := identifying_of_injective ObjectField.toJson_injective
  localSlot := identifying_of_injective LocalSlot.toJson_injective
  paramSlot := identifying_of_injective ParamSlot.toJson_injective
  value := identifying_of_injective Value.toJson_injective
  valueSet := identifying_of_injective ValueSet.toJson_injective
  ofList _ _ := ValueSet.text_ofList_eq_iff
  handle hg hg' := by
    have hkey := World.identifies_of_mem_given .start hg hg'
    refine ⟨?_, fun hash => ?_⟩
    · rw [Kind.text_eq_iff, hkey.equal_iff]
    · rw [Kind.text_eq_iff, hkey.equalBy_iff]
  held hu hv := by rw [text_injective.eq_iff, Value.toJson_injective.eq_iff, Held.equal_iff hu hv]
  heldField hx hy hash := by
    rw [text_injective.eq_iff, ObjectField.toJson_injective.eq_iff, HeldField.handleEqual_iff hash hx hy]
  heldList hus hvs := by rw [ValueSet.text_ofList_eq_iff, Held.same_values_iff hus hvs]

namespace Sample

/-- a field whose type has a blank -/
def blankType : Field where
  className := "Point"
  name := "x"
  type := "long int"
  signature := _
  signature_eq := rfl
  className_ne := by decide
  name_ne := by decide

/-- a field of the same signature, whose name has the blank -/
def blankName : Field where
  className := "Point"
  name := "int x"
  type := "long"
  signature := _
  signature_eq := rfl
  className_ne := by decide
  name_ne := by decide

/-- the first box by the handle of one table and by that of another -/
def twice : List Held := [.address (boxHandle 0), .atom (.taint "\""), .address (boxHandle 1)]

def once : List Held := [.atom (.taint "\""), .address (boxHandle 1)]

end Sample

open Sample in
theorem serialized_text_identifies_boxes :
    blankType.signature = blankName.signature ∧ blankType.toJson.text ≠ blankName.toJson.text ∧
      (boxHandle 0).same (boxHandle 1) = false ∧ (boxHandle 0).key.toJson.text = (boxHandle 1).key.toJson.text ∧
      (sharedBy 0).key.key.toJson.text = (sharedBy 1).key.key.toJson.text ∧
      (ValueSet.ofList (twice.map Held.value)).toJson.text = (ValueSet.ofList (once.map Held.value)).toJson.text := by
  have h := serialized_text_identifies twoTables
  have h₀ := mem_given_boxHandle (.inl rfl)
  have h₁ := mem_given_boxHandle (.inr rfl)
  have htwice : ∀ u ∈ twice, u.From twoTables := by
    simp only [twice, List.forall_mem_cons, List.not_mem_nil, false_implies, implies_true, and_true]
    exact ⟨⟨_, _, h₀⟩, trivial, _, _, h₁⟩
  have honce : ∀ u ∈ once, u.From twoTables := by
    simp only [once, List.forall_mem_cons, List.not_mem_nil, false_implies, implies_true, and_true]
    exact ⟨trivial, _, _, h₁⟩
  refine ⟨by decide, ?_, by decide, ((h.handle h₀ h₁).1).2 (by decide), ?_, (h.heldList htwice honce).2 (by decide)⟩
  · rw [ne_eq, h.field]
    decide
  · exact (h.heldField (gave_sharedBy (.inl rfl)) (gave_sharedBy (.inr rfl)) fun _ => 0).2 (by decide)

end InfoFlow
