import InfoFlow.Proofs.Tokens
import InfoFlow.Session
import InfoFlow.Value.Json

/-!
# Reading what was written

* `Json.Reads r ts a rest`: the reader `r` takes `a` from the front of the tokens and leaves `rest`;
* `Json.reads_members`: the members of an object, in any order and among members that are no fields;
* `Json.Means r text a`: the same of a text, whatever follows it; `Json.means_record` is the rule for records;
* `Field.means_described`, `Options.means_parts`, `Atom.means_toJson`: fields, whatever their signature is, options
  and atoms;
* `reading_undoes_writing`: what was written is read back.
-/

namespace InfoFlow

namespace Json

variable {α : Type}

/-- the reader takes `a` from the front of the tokens, and `rest` is left -/
def Reads (r : Reader α) (ts : List Token) (a : α) (rest : List Token) : Prop := ∃ h, r ts = .ok ⟨a, rest, h⟩

theorem reads_string {ps : List Piece} {s : String} (h : decode ps = some s.toList) (rest : List Token) :
    Reads Reader.string (.string ps :: rest) s rest := by
  refine ⟨Nat.lt_succ_self _, ?_⟩
  rw [Reader.string, h]
  simp

theorem reads_skip_string (ps : List Piece) (rest : List Token) : Reads skip (.string ps :: rest) () rest :=
  ⟨Nat.lt_succ_self _, rfl⟩

theorem Reads.run {r : Reader α} {text : String} {a : α} (h : Reads r (tokens text) a []) : r.run text = .ok a := by
  obtain ⟨hlt, hr⟩ := h
  rw [Reader.run, hr]

/-! ## members of an object -/

section
variable {fields : List String} {value : Reader α} {found new : List (String × α)} {key : String}
  {ts rest : List Token}

theorem Reads.member_field {a : α} (hv : Reads value ts a rest) (hk : key ∈ fields) (hn : found.lookup key = none) :
    Reads (member fields value found key) (.colon :: ts) ((key, a) :: found) rest := by
  obtain ⟨hlt, hv⟩ := hv
  refine ⟨Nat.lt_succ_of_lt hlt, ?_⟩
  have hdup : ¬(key ∈ fields ∧ (found.lookup key).isSome = true) := by
    rintro ⟨-, h⟩
    rw [hn] at h
    cases h
  rw [member, if_neg hdup]
  show (if key ∈ fields then _ else _) = _
  rw [if_pos hk, hv]
  rfl

theorem Reads.member_other (hs : Reads skip ts () rest) (hk : key ∉ fields) :
    Reads (member fields value found key) (.colon :: ts) found rest := by
  obtain ⟨hlt, hs⟩ := hs
  refine ⟨Nat.lt_succ_of_lt hlt, ?_⟩
  rw [member, if_neg fun h => hk h.1]
  show (if key ∈ fields then _ else _) = _
  rw [if_neg hk, hs]
  rfl

theorem Reads.members_last {as : List α} (hm : Reads (member fields value found key) ts new (.rbrace :: rest))
    (hc : close fields new = .ok as) : Reads (members fields value found key) ts as rest := by
  obtain ⟨hlt, hm⟩ := hm
  refine ⟨Nat.lt_of_succ_lt hlt, ?_⟩
  rw [members, hm]
  show (close fields new).map _ = _
  rw [hc]
  rfl

theorem Reads.members_more {ps : List Piece} {us : List Token} {next : String} {as : List α}
    (hm : Reads (member fields value found key) ts new (.comma :: .string ps :: us))
    (hd : decode ps = some next.toList) (hr : Reads (members fields value new next) us as rest) :
    Reads (members fields value found key) ts as rest := by
  obtain ⟨hlt, hm⟩ := hm
  obtain ⟨hlt', hr⟩ := hr
  refine ⟨Nat.lt_trans hlt' (Nat.lt_of_succ_lt (Nat.lt_of_succ_lt hlt)), ?_⟩
  rw [members, hm]
  simp only [hd, String.ofList_toList, hr]
  rfl

end

theorem close_eq {fields : List String} {found : List (String × α)} {val : String → α}
    (h : ∀ k ∈ fields, found.lookup k = some (val k)) : close fields found = .ok (fields.map val) := by
  induction fields with
  | nil => rfl
  | cons k ks ih =>
    have hks : close ks found = .ok (ks.map val) := ih fun j hj => h j (List.mem_cons_of_mem _ hj)
    rw [close] at hks
    rw [close, List.mapM_cons, h k List.mem_cons_self, hks]
    rfl

def moreTokens : List (String × List Token) → List Token
  | [] => [.rbrace]
  | (k, ts) :: ms => .comma :: .string (pieces k) :: .colon :: (ts ++ moreTokens ms)

/-- an object, by the tokens of its members; `moreTokens` has the members after the first, and the closing brace -/
def objectTokens : List (String × List Token) → List Token
  | [] => [.lbrace, .rbrace]
  | (k, ts) :: ms => .lbrace :: .string (pieces k) :: .colon :: (ts ++ moreTokens ms)

theorem moreTokens_cons_append (m : String × List Token) (ms : List (String × List Token)) (rest : List Token) :
    moreTokens (m :: ms) ++ rest =
      .comma :: .string (pieces m.1) :: .colon :: (m.2 ++ (moreTokens ms ++ rest)) := by
  rw [moreTokens, List.cons_append, List.cons_append, List.cons_append, List.append_assoc]

theorem objectTokens_cons_append (m : String × List Token) (ms : List (String × List Token)) (rest : List Token) :
    objectTokens (m :: ms) ++ rest =
      .lbrace :: .string (pieces m.1) :: .colon :: (m.2 ++ (moreTokens ms ++ rest)) := by
  rw [objectTokens, List.cons_append, List.cons_append, List.cons_append, List.append_assoc]

section
variable (fields : List String) (value : Reader α) (val : String → α)

/-- a field is read as its value, and anything else is skipped -/
def MemberReads (m : String × List Token) : Prop :=
  (m.1 ∈ fields → ∀ rest, Reads value (m.2 ++ rest) (val m.1) rest) ∧
    (m.1 ∉ fields → ∀ rest, Reads skip (m.2 ++ rest) () rest)

/-- the fields found are those among `seen` -/
def Holds (seen : List String) (found : List (String × α)) : Prop :=
  ∀ k ∈ fields, found.lookup k = if k ∈ seen then some (val k) else none

end

section
variable {fields : List String} {value : Reader α} {val : String → α}

theorem MemberReads.member {m : String × List Token} (hm : MemberReads fields value val m) {seen : List String}
    {found : List (String × α)} (hf : Holds fields val seen found) (hn : m.1 ∉ seen) (rest : List Token) :
    ∃ new, Reads (member fields value found m.1) (.colon :: (m.2 ++ rest)) new rest ∧
      Holds fields val (m.1 :: seen) new := by
  by_cases hk : m.1 ∈ fields
  · have hnone : found.lookup m.1 = none := by rw [hf _ hk, if_neg hn]
    refine ⟨_, (hm.1 hk rest).member_field hk hnone, fun k hkf => ?_⟩
    rw [List.lookup_cons]
    by_cases e : k = m.1
    · simp [e]
    · have hb : (k == m.1) = false := beq_eq_false_iff_ne.2 e
      rw [hb]
      show found.lookup k = _
      rw [hf k hkf]
      simp [e]
  · refine ⟨found, (hm.2 hk rest).member_other hk, fun k hkf => ?_⟩
    have e : k ≠ m.1 := fun e => hk (e ▸ hkf)
    rw [hf k hkf]
    simp [e]

theorem reads_members {ms : List (String × List Token)} {m : String × List Token} {seen : List String}
    {found : List (String × α)} (hf : Holds fields val seen found) (hms : ∀ n ∈ m :: ms, MemberReads fields value val n)
    (hnew : (seen ++ (m :: ms).map Prod.fst).Nodup) (hall : ∀ k ∈ fields, k ∈ seen ++ (m :: ms).map Prod.fst)
    (rest : List Token) :
    Reads (members fields value found m.1) (.colon :: (m.2 ++ (moreTokens ms ++ rest))) (fields.map val) rest := by
  -- on the members after `m`; what was seen and found grows along
  induction ms generalizing m seen found with
  | nil =>
    have hn : m.1 ∉ seen := fun h => (List.nodup_append.1 hnew).2.2 _ h _ List.mem_cons_self rfl
    obtain ⟨new, hread, hfound⟩ := (hms m List.mem_cons_self).member hf hn (moreTokens [] ++ rest)
    refine hread.members_last (close_eq fun k hk => ?_)
    have hseen : k ∈ m.1 :: seen := by
      have := hall k hk
      simp only [List.map_cons, List.map_nil, List.mem_append, List.mem_cons, List.not_mem_nil, or_false] at this ⊢
      exact this.symm
    rw [hfound k hk, if_pos hseen]
  | cons n ns ih =>
    have hn : m.1 ∉ seen := fun h => (List.nodup_append.1 hnew).2.2 _ h _ List.mem_cons_self rfl
    obtain ⟨new, hread, hfound⟩ := (hms m List.mem_cons_self).member hf hn (moreTokens (n :: ns) ++ rest)
    have hperm : (seen ++ (m :: n :: ns).map Prod.fst).Perm (m.1 :: seen ++ (n :: ns).map Prod.fst) :=
      List.perm_middle
    have hreads := ih hfound (fun x hx => hms x (List.mem_cons_of_mem _ hx)) (hperm.nodup_iff.1 hnew)
      fun k hk => hperm.mem_iff.1 (hall k hk)
    rw [moreTokens_cons_append] at hread
    rw [moreTokens_cons_append]
    exact hread.members_more (decode_pieces n.1) hreads

/-- a record is read from an object that has each of its fields, whatever else is in it -/
theorem reads_record {m : String × List Token} {ms : List (String × List Token)} (expected : String)
    (hms : ∀ n ∈ m :: ms, MemberReads fields value val n) (hnodup : ((m :: ms).map Prod.fst).Nodup)
    (hall : ∀ k ∈ fields, k ∈ (m :: ms).map Prod.fst) (rest : List Token) :
    Reads (Reader.record expected fields value) (objectTokens (m :: ms) ++ rest) (fields.map val) rest := by
  have hempty : Holds fields val [] [] := fun _ _ => rfl
  obtain ⟨hlt, hread⟩ := reads_members hempty hms hnodup hall rest
  rw [objectTokens_cons_append]
  refine ⟨Nat.lt_succ_of_lt (Nat.lt_succ_of_lt hlt), ?_⟩
  rw [Reader.record]
  simp only [decode_pieces, String.ofList_toList, hread]
  rfl

end

/-! ## texts of objects -/

/-- whatever follows, the text is scanned as these tokens -/
def Spells (text : List Char) (ts : List Token) : Prop :=
  ∀ rest, tokensFrom .between (text ++ rest) = ts ++ tokensFrom .between rest

theorem Spells.tokens {text : List Char} {ts : List Token} (h : Spells text ts) :
    tokens (String.ofList text) = ts := by
  have hnil := h []
  rw [List.append_nil, tokensFrom, Scan.finish, List.append_nil] at hnil
  rw [Json.tokens, String.toList_ofList, hnil]

def moreChars : List (String × List Char) → List Char
  | [] => ['\x7d']
  | (k, text) :: ms => ',' :: (quote k ++ ':' :: (text ++ moreChars ms))

/-- an object, by the texts of its members -/
def objectChars : List (String × List Char) → List Char
  | [] => ['\x7b', '\x7d']
  | (k, text) :: ms => '\x7b' :: (quote k ++ ':' :: (text ++ moreChars ms))

theorem tokensFrom_members {text : List Char} {ts : List Token} (h : Spells text ts) (k : String)
    {ms : List (String × List Char)} {ns : List (String × List Token)} (hms : Spells (moreChars ms) (moreTokens ns))
    (rest : List Char) :
    tokensFrom .between ((quote k ++ ':' :: (text ++ moreChars ms)) ++ rest) =
      .string (pieces k) :: .colon :: (ts ++ (moreTokens ns ++ tokensFrom .between rest)) := by
  rw [List.append_assoc, List.cons_append, List.append_assoc, tokensFrom_key, h, hms]

theorem spells_moreChars {P : String × List Token → Prop} {ms : List (String × List Char)}
    (hms : ∀ m ∈ ms, ∃ ts, Spells m.2 ts ∧ P (m.1, ts)) :
    ∃ ns, ns.map Prod.fst = ms.map Prod.fst ∧ (∀ n ∈ ns, P n) ∧ Spells (moreChars ms) (moreTokens ns) := by
  induction ms with
  | nil => exact ⟨[], rfl, nofun, fun _ => rfl⟩
  | cons m ms ih =>
    obtain ⟨ts, hts, hP⟩ := hms m List.mem_cons_self
    obtain ⟨ns, hkeys, hall, hns⟩ := ih fun n hn => hms n (List.mem_cons_of_mem _ hn)
    refine ⟨(m.1, ts) :: ns, congrArg (m.1 :: ·) hkeys, List.forall_mem_cons.2 ⟨hP, hall⟩, fun rest => ?_⟩
    rw [moreTokens_cons_append]
    exact congrArg (Token.comma :: ·) (tokensFrom_members hts m.1 hns rest)

/-- an opening brace in place of the comma makes a member the first one -/
theorem Spells.object {m : String × List Char} {ms : List (String × List Char)} {n : String × List Token}
    {ns : List (String × List Token)} (h : Spells (moreChars (m :: ms)) (moreTokens (n :: ns))) :
    Spells (objectChars (m :: ms)) (objectTokens (n :: ns)) :=
  fun rest => congrArg (Token.lbrace :: ·) (List.cons.inj (h rest)).2

/-! ## what a text means -/

/-- the reader takes `a` from the text, whatever follows it -/
def Means (r : Reader α) (text : List Char) (a : α) : Prop :=
  ∃ ts, Spells text ts ∧ ∀ rest, Reads r (ts ++ rest) a rest

theorem Means.run {r : Reader α} {text : List Char} {a : α} (h : Means r text a) :
    r.run (String.ofList text) = .ok a := by
  obtain ⟨ts, hts, hr⟩ := h
  have hreads := hr []
  rw [List.append_nil, ← hts.tokens] at hreads
  exact hreads.run

/-- a reader that goes by what another one takes -/
theorem Means.trans {β : Type} {r : Reader α} {r' : Reader β} {text : List Char} {a : α} {b : β} (h : Means r text a)
    (hr : ∀ ts rest hlt, r ts = .ok ⟨a, rest, hlt⟩ → r' ts = .ok ⟨b, rest, hlt⟩) : Means r' text b := by
  obtain ⟨ts, hts, hreads⟩ := h
  refine ⟨ts, hts, fun rest => ?_⟩
  obtain ⟨hlt, h⟩ := hreads rest
  exact ⟨hlt, hr _ _ hlt h⟩

theorem means_quote (s : String) : Means Reader.string (quote s) s :=
  ⟨[.string (pieces s)], (literal_quote s).tokens, reads_string (decode_pieces s)⟩

theorem Literal.means_skip {text : List Char} {ps : List Piece} (h : Literal text ps) : Means skip text () :=
  ⟨[.string ps], h.tokens, reads_skip_string ps⟩

/-- a record is read from the text of an object that has each of its fields, whatever else is in it -/
theorem means_record {fields : List String} {value : Reader α} {val : String → α} {ms : List (String × List Char)}
    (expected : String)
    (hms : ∀ m ∈ ms, m.1 ∈ fields ∧ Means value m.2 (val m.1) ∨ m.1 ∉ fields ∧ Means skip m.2 ())
    (hnodup : (ms.map Prod.fst).Nodup) (hne : ms ≠ []) (hall : ∀ k ∈ fields, k ∈ ms.map Prod.fst) :
    Means (Reader.record expected fields value) (objectChars ms) (fields.map val) := by
  have hreads : ∀ m ∈ ms, ∃ ts, Spells m.2 ts ∧ MemberReads fields value val (m.1, ts) := by
    intro m hm
    obtain ⟨hk, ts, hts, hr⟩ | ⟨hk, ts, hts, hr⟩ := hms m hm
    · exact ⟨ts, hts, fun _ => hr, fun hn => absurd hk hn⟩
    · exact ⟨ts, hts, fun hy => absurd hy hk, fun _ => hr⟩
  obtain ⟨ns, hkeys, hreads, hspells⟩ := spells_moreChars hreads
  rw [← hkeys] at hnodup hall
  cases ms with
  | nil => exact absurd rfl hne
  | cons m ms =>
    cases ns with
    | nil => cases hkeys
    | cons n ns => exact ⟨_, hspells.object, reads_record expected hreads hnodup hall⟩

end Json

/-! ## fields and options -/

namespace Field

open Json

/-- the text of a field with any text for its signature, or none -/
def described (className type name : String) (signature? : Option (List Char)) : List Char :=
  objectChars ((signature?.map fun l => ("signature", l)).toList ++
    [("class", quote className), ("name", quote name), ("type_", quote type)])

def Parts.part (p : Parts) (k : String) : String :=
  if k = "class" then p.className else if k = "type_" then p.type else p.name

theorem means_described (className type name : String) {signature? : Option (List Char)}
    (h : ∀ l ∈ signature?, ∃ ps, Literal l ps) :
    Means partsReader (described className type name signature?) ⟨className, type, name⟩ := by
  have hrecord : Means (Reader.record "struct FieldDescriptor" ["class", "type_", "name"] Reader.string)
      (described className type name signature?)
      (["class", "type_", "name"].map (Parts.part ⟨className, type, name⟩)) := by
    refine means_record _ (fun m hm => ?_) ?_ (by simp) ?_
    · obtain hm | hm := List.mem_append.1 hm
      · obtain ⟨l, hl, rfl⟩ := Option.map_eq_some_iff.1 (Option.mem_toList.1 hm)
        obtain ⟨ps, hps⟩ := h l hl
        exact .inr ⟨by simp, hps.means_skip⟩
      · simp only [List.mem_cons, List.not_mem_nil, or_false] at hm
        obtain rfl | rfl | rfl := hm
        · exact .inl ⟨by simp, means_quote className⟩
        · exact .inl ⟨by simp, means_quote name⟩
        · exact .inl ⟨by simp, means_quote type⟩
    · cases signature? with
      | none =>
        show ["class", "name", "type_"].Nodup
        decide
      | some l =>
        show ["signature", "class", "name", "type_"].Nodup
        decide
    · intro k hk
      have hkey : k ∈ ["class", "name", "type_"] := by
        revert k
        decide
      rw [List.map_append]
      exact List.mem_append_right _ hkey
  refine hrecord.trans fun ts rest hlt hr => ?_
  rw [partsReader, hr]
  rfl

theorem parts_of_declare {className type name : String} {f : Field} (h : declare className type name = .ok f) :
    f.className = className ∧ f.type = type ∧ f.name = name := by
  rw [declare] at h
  split at h
  · cases h
  · split at h
    · cases h
    · cases h
      exact ⟨rfl, rfl, rfl⟩

theorem toJson_chars {className type name : String} {f : Field} (h : declare className type name = .ok f) :
    f.toJson.chars = described className type name (some (quote f.signature)) := by
  obtain ⟨rfl, rfl, rfl⟩ := parts_of_declare h
  rfl

theorem means_declared {className type name : String} {f : Field} (hf : declare className type name = .ok f)
    {signature? : Option (List Char)} (h : ∀ l ∈ signature?, ∃ ps, Literal l ps) :
    Means reader (described className type name signature?) f := by
  have hdeclare : Parts.declare ⟨className, type, name⟩ = .ok f := hf
  refine (means_described className type name h).trans fun ts rest hlt hr => ?_
  rw [reader, hr]
  simp only [bind, Except.bind, hdeclare]

end Field

open Json in
theorem Options.means_parts {field : List Char} {parts : Field.Parts} (h : Means Field.partsReader field parts) :
    Means Options.reader (objectChars [("taint_field", field)]) parts := by
  have hrecord : Means (Reader.record "struct OptionsDescriptor" ["taint_field"] Field.partsReader)
      (objectChars [("taint_field", field)]) (["taint_field"].map fun _ => parts) := by
    refine means_record _ (fun m hm => ?_) (by simp) (by simp) (by simp)
    obtain rfl := List.mem_singleton.1 hm
    exact .inl ⟨List.mem_cons_self, h⟩
  refine hrecord.trans fun ts rest hlt hr => ?_
  rw [reader, hr]
  rfl

/-! ## atoms -/

namespace Atom

open Json

/-- an atom is read from an object whose only member names its constructor and holds what belongs to it -/
theorem means_form {name : String} {form : Form} (hname : Form.ofName name = .ok form) {payload : List Char} {a : Atom}
    (h : Means form.payload payload a) : Means reader (objectChars [(name, payload)]) a := by
  obtain ⟨ts, hts, hreads⟩ := h
  have hspells : Spells (objectChars [(name, payload)]) (objectTokens [(name, ts)]) := by
    intro rest
    rw [objectTokens_cons_append]
    exact congrArg (Token.lbrace :: ·) (tokensFrom_members hts name (fun _ => rfl) rest)
  refine ⟨_, hspells, fun rest => ?_⟩
  obtain ⟨hlt, hpayload⟩ := hreads (.rbrace :: rest)
  obtain ⟨_, hstring⟩ := reads_string (decode_pieces name) (.colon :: (ts ++ .rbrace :: rest))
  rw [objectTokens_cons_append]
  show Reads reader (.lbrace :: .string (pieces name) :: .colon :: (ts ++ .rbrace :: rest)) a rest
  refine ⟨Nat.lt_succ_of_lt (Nat.lt_succ_of_lt (Nat.lt_succ_of_lt (Nat.lt_of_succ_lt hlt))), ?_⟩
  have hafter : form.afterName (.colon :: (ts ++ .rbrace :: rest)) =
      .ok ⟨a, rest, Nat.lt_succ_of_lt (Nat.lt_of_succ_lt hlt)⟩ := by
    rw [Form.afterName, hpayload]
    rfl
  rw [reader, hstring]
  show (Form.ofName name >>= fun form => _) = _
  rw [hname]
  show (form.afterName (.colon :: (ts ++ .rbrace :: rest))).map _ = _
  rw [hafter]
  rfl

theorem means_token (kind label : String) :
    Means (Form.payload .token) (objectChars [("kind", quote kind), ("label", quote label)]) (.token kind label) := by
  have hrecord : Means (Reader.record "struct variant Opaque::Token" ["kind", "label"] Reader.string)
      (objectChars [("kind", quote kind), ("label", quote label)])
      (["kind", "label"].map fun k => if k = "kind" then kind else label) := by
    refine means_record _ (fun m hm => ?_) ?_ (by simp) (by simp)
    · simp only [List.mem_cons, List.not_mem_nil, or_false] at hm
      obtain rfl | rfl := hm
      · exact .inl ⟨by simp, means_quote kind⟩
      · exact .inl ⟨by simp, means_quote label⟩
    · show ["kind", "label"].Nodup
      decide
  refine hrecord.trans fun ts rest hlt hr => ?_
  rw [Form.payload, hr]
  rfl

theorem means_toJson (a : Atom) : Means reader a.toJson.chars a := by
  cases a with
  | taint l =>
    have hpayload : Means (Form.payload .taint) (quote l) (.taint l) :=
      (means_quote l).trans fun ts rest hlt hr => by rw [Form.payload, hr]; rfl
    exact means_form rfl hpayload
  | constant t =>
    have hpayload : Means (Form.payload .constant) (quote t) (.constant t) :=
      (means_quote t).trans fun ts rest hlt hr => by rw [Form.payload, hr]; rfl
    exact means_form rfl hpayload
  | token kind label => exact means_form rfl (means_token kind label)

end Atom

/-! ## whole texts -/

theorem Field.ofJson_described {className type name : String} {f : Field}
    (hf : Field.declare className type name = .ok f) {signature? : Option (List Char)}
    (h : ∀ l ∈ signature?, ∃ ps, Json.Literal l ps) :
    Field.ofJson (String.ofList (described className type name signature?)) = .ok f :=
  (means_declared hf h).run

open Json in
theorem Options.ofJson_described {className type name : String} {f : Field}
    (hf : Field.declare className type name = .ok f) {signature? : Option (List Char)}
    (h : ∀ l ∈ signature?, ∃ ps, Literal l ps) :
    Options.ofJson (String.ofList (objectChars [("taint_field", Field.described className type name signature?)])) =
      .ok ⟨f⟩ := by
  have hdeclare : Field.Parts.declare ⟨className, type, name⟩ = .ok f := hf
  rw [Options.ofJson, (means_parts (Field.means_described className type name h)).run]
  simp only [hdeclare]

open Json in
/-- Reading undoes writing.  A field that was declared is read from its text, and from the text without its signature
or with any string literal in its place; the options that hold such a text have this field.  An atom is read from its
text. -/
theorem reading_undoes_writing :
    (∀ (className type name : String) (f : Field), Field.declare className type name = .ok f →
      Field.ofJson f.toJson.text = .ok f ∧
      Options.ofJson (text (.obj [("taint_field", f.toJson)])) = .ok ⟨f⟩ ∧
      f.toJson.chars = Field.described className type name (some (quote f.signature)) ∧
      ∀ signature? : Option (List Char), (∀ l ∈ signature?, ∃ ps, Literal l ps) →
        Field.ofJson (String.ofList (Field.described className type name signature?)) = .ok f ∧
        Options.ofJson (String.ofList
          (objectChars [("taint_field", Field.described className type name signature?)])) = .ok ⟨f⟩) ∧
    ∀ a : Atom, Atom.ofJson a.toJson.text = .ok a := by
  refine ⟨fun className type name f hf => ?_, fun a => (Atom.means_toJson a).run⟩
  have hchars : f.toJson.chars = Field.described className type name (some (quote f.signature)) := Field.toJson_chars hf
  have hquote : ∀ l ∈ some (quote f.signature), ∃ ps, Literal l ps := by
    intro l hl
    obtain rfl := Option.mem_some_iff.1 hl
    exact ⟨_, literal_quote _⟩
  refine ⟨?_, ?_, hchars, fun signature? h => ⟨Field.ofJson_described hf h, Options.ofJson_described hf h⟩⟩
  · rw [text, hchars]
    exact Field.ofJson_described hf hquote
  · show Options.ofJson (String.ofList (objectChars [("taint_field", f.toJson.chars)])) = _
    rw [hchars]
    exact Options.ofJson_described hf hquote

namespace Sample

/-- a field whose parts need every kind of escape -/
def escaped : Field where
  className := "C\"\n"
  name := "\\😀\x01"
  type := ""
  signature := "<C\"\n:  \\😀\x01>"
  signature_eq := rfl
  className_ne := by decide
  name_ne := by decide

theorem declare_escaped : Field.declare "C\"\n" "" "\\😀\x01" = .ok escaped := rfl

/-- a literal with one half of a surrogate pair, which stands for no string -/
def halfPair : List Char := ['"', '\\', 'u', 'D', '8', '3', 'd', '"']

open Json in
theorem literal_halfPair : Literal halfPair [.code 0xd83d] := by
  have hD : ('D', 13) ∈ hexForms := by decide
  have h8 : ('8', 8) ∈ hexForms := by decide
  have h3 : ('3', 3) ∈ hexForms := by decide
  have hd : ('d', 13) ∈ hexForms := by decide
  exact ⟨_, .code hD h8 h3 hd .nil, rfl⟩

end Sample

open Sample Json in
theorem reading_undoes_writing_escaped :
    Field.ofJson escaped.toJson.text = .ok escaped ∧
      Field.ofJson (String.ofList (Field.described "C\"\n" "" "\\😀\x01" none)) = .ok escaped ∧
      Literal halfPair [.code 0xd83d] ∧ decode [.code 0xd83d] = none ∧
      Options.ofJson (String.ofList (objectChars
        [("taint_field", Field.described "C\"\n" "" "\\😀\x01" (some halfPair))])) = .ok ⟨escaped⟩ ∧
      Atom.ofJson (Atom.toJson (.token "\t" "")).text = .ok (.token "\t" "") := by
  obtain ⟨hfield, hatom⟩ := reading_undoes_writing
  obtain ⟨htext, _, _, hsignature⟩ := hfield _ _ _ _ declare_escaped
  refine ⟨htext, (hsignature none nofun).1, literal_halfPair, by decide, (hsignature (some halfPair) ?_).2, hatom _⟩
  intro l hl
  obtain rfl := Option.mem_some_iff.1 hl
  exact ⟨_, literal_halfPair⟩

end InfoFlow
