import Mathlib.Data.Nat.Init
import InfoFlow.Json.Basic
import InfoFlow.Json.Token

/-!
# Tokens of written JSON

The text of a value is read back as the tokens that one would write for it, whatever stands after it.

* `Literal`: the string literals of JSON, each with the pieces it is read as (`Literal.tokens`);
* `literal_quote`, `decode_pieces`: a quoted string is a literal, and its pieces are decoded to the string;
* `ofDigits_digits`: the digits of a number spell it;
* `toTokens`, `tokens_text`: the tokens of a value are those of its text.
-/

namespace InfoFlow

namespace Json

/-! ## string literals -/

/-- the letters that may follow a backslash, with the characters that they stand for -/
def shortForms : List (Char × Char) :=
  [('"', '"'), ('\\', '\\'), ('/', '/'), ('b', '\x08'), ('f', '\x0c'), ('n', '\n'), ('r', '\r'), ('t', '\t')]

/-- the hexadecimal digits with their values -/
def hexForms : List (Char × Nat) :=
  ['0', '1', '2', '3', '4', '5', '6', '7', '8', '9', 'a', 'b', 'c', 'd', 'e', 'f'].zipIdx ++
    ['A', 'B', 'C', 'D', 'E', 'F'].zipIdx 10

/-- what may stand between the quotes of a string, and what it is read as -/
inductive Body : List Char → List Piece → Prop
  | nil : Body [] []
  | plain {c : Char} {cs : List Char} {ps : List Piece} (hq : c ≠ '"') (hb : c ≠ '\\') (hc : 32 ≤ c.toNat)
      (h : Body cs ps) : Body (c :: cs) (.char c :: ps)
  | short {e c : Char} {cs : List Char} {ps : List Piece} (he : (e, c) ∈ shortForms) (h : Body cs ps) :
      Body ('\\' :: e :: cs) (.char c :: ps)
  | code {w x y z : Char} {a b c d : Nat} {cs : List Char} {ps : List Piece} (hw : (w, a) ∈ hexForms)
      (hx : (x, b) ∈ hexForms) (hy : (y, c) ∈ hexForms) (hz : (z, d) ∈ hexForms) (h : Body cs ps) :
      Body ('\\' :: 'u' :: w :: x :: y :: z :: cs) (.code (16 * (16 * (16 * a + b) + c) + d) :: ps)

/-- a string literal, and what it is read as -/
def Literal (text : List Char) (ps : List Piece) : Prop := ∃ cs, Body cs ps ∧ text = '"' :: (cs ++ ['"'])

theorem unescape?_of_short : ∀ p ∈ shortForms, p.1 ≠ 'u' ∧ unescape? p.1 = some p.2 := by decide

theorem hexDigit?_of_hex : ∀ p ∈ hexForms, hexDigit? p.1 = some p.2 := by decide

theorem Body.tokens {cs : List Char} {ps : List Piece} (h : Body cs ps) (done : List Piece) (rest : List Char) :
    tokensFrom (.string done) (cs ++ '"' :: rest) = .string (done.reverse ++ ps) :: tokensFrom .between rest := by
  induction h generalizing done with
  | nil =>
    rw [List.append_nil]
    rfl
  | @plain c cs ps hq hb hc h ih =>
    have hstep : Scan.step (.string done) c = ([], .string (.char c :: done)) := by
      rw [Scan.step, if_neg hq, if_neg hb, if_neg (Nat.not_lt.2 hc)]
    show (Scan.step (.string done) c).1 ++ tokensFrom (Scan.step (.string done) c).2 (cs ++ '"' :: rest) = _
    rw [hstep, List.nil_append, ih]
    simp
  | @short e c cs ps he h ih =>
    obtain ⟨hu, hc⟩ := unescape?_of_short _ he
    have hstep : Scan.step (.escape done) e = ([], .string (.char c :: done)) := by
      rw [Scan.step, if_neg hu, hc]
    show (Scan.step (.escape done) e).1 ++ tokensFrom (Scan.step (.escape done) e).2 (cs ++ '"' :: rest) = _
    rw [hstep, List.nil_append, ih]
    simp
  | @code w x y z a b c d cs ps hw hx hy hz h ih =>
    have hdigit : ∀ {x : Char} {d : Nat}, (x, d) ∈ hexForms → ∀ left code us,
        tokensFrom (.hex left code done) (x :: us) =
          if left ≤ 1 then tokensFrom (.string (.code (16 * code + d) :: done)) us
          else tokensFrom (.hex (left - 1) (16 * code + d) done) us := by
      intro x d hx left code us
      have hd : hexDigit? x = some d := hexDigit?_of_hex _ hx
      rw [tokensFrom, Scan.step, hd]
      by_cases hl : left ≤ 1
      · simp [hl]
      · simp [hl]
    show tokensFrom (.hex 4 0 done) (w :: x :: y :: z :: (cs ++ '"' :: rest)) = _
    rw [hdigit hw, if_neg (by decide), hdigit hx, if_neg (by decide), hdigit hy, if_neg (by decide), hdigit hz,
      if_pos (by decide), ih]
    simp

theorem Literal.tokens {text : List Char} {ps : List Piece} (h : Literal text ps) (rest : List Char) :
    tokensFrom .between (text ++ rest) = .string ps :: tokensFrom .between rest := by
  obtain ⟨cs, hbody, rfl⟩ := h
  show tokensFrom (.string []) ((cs ++ ['"']) ++ rest) = _
  rw [List.append_assoc]
  exact hbody.tokens [] rest

/-! ## quoted strings -/

def named : List Char := ['"', '\\', '\n', '\r', '\t', '\x08', '\x0c']

/-- what a character of a quoted string is read as -/
def piece (c : Char) : Piece := if c ∈ named ∨ 32 ≤ c.toNat then .char c else .code c.toNat

def pieces (s : String) : List Piece := s.toList.map piece

theorem escape_named {c : Char} (hc : c ∈ named) : ∃ p ∈ shortForms, p.2 = c ∧ escape c = ['\\', p.1] := by
  have h : (named.all fun c => shortForms.any fun p => p.2 = c ∧ escape c = ['\\', p.1]) = true := by decide
  simpa using List.all_eq_true.1 h c hc

theorem escape_of_not_named {c : Char} (h : c ∉ named) : escape c =
    if c.toNat < 32 then ['\\', 'u', '0', '0', hexDigit (c.toNat / 16), hexDigit (c.toNat % 16)] else [c] := by
  simp only [named, List.mem_cons, List.not_mem_nil, or_false, not_or] at h
  obtain ⟨hq, hb, hn, hr, ht, hbs, hff⟩ := h
  rw [escape, if_neg hq, if_neg hb, if_neg hn, if_neg hr, if_neg ht, if_neg hbs, if_neg hff]

theorem hexDigit_mem : ∀ n < 16, (hexDigit n, n) ∈ hexForms := by decide

theorem Body.escape {cs : List Char} {ps : List Piece} (h : Body cs ps) (c : Char) :
    Body (Json.escape c ++ cs) (piece c :: ps) := by
  by_cases hc : c ∈ named
  · obtain ⟨⟨e, _⟩, he, rfl, hesc⟩ := escape_named hc
    rw [hesc, piece, if_pos (.inl hc)]
    exact h.short he
  · rw [escape_of_not_named hc]
    by_cases hlt : c.toNat < 32
    · have hcode : piece c = .code (16 * (16 * (16 * 0 + 0) + c.toNat / 16) + c.toNat % 16) := by
        have hno : ¬(c ∈ named ∨ 32 ≤ c.toNat) := fun k => k.elim hc (Nat.not_le.2 hlt)
        rw [piece, if_neg hno]
        congr 1
        omega
      rw [if_pos hlt, hcode]
      exact h.code (by decide) (by decide) (hexDigit_mem _ (by omega)) (hexDigit_mem _ (by omega))
    · have hq : c ≠ '"' := fun e => hc (by rw [e]; decide)
      have hb : c ≠ '\\' := fun e => hc (by rw [e]; decide)
      rw [if_neg hlt, piece, if_pos (.inr (Nat.not_lt.1 hlt))]
      exact h.plain hq hb (Nat.not_lt.1 hlt)

theorem literal_quote (s : String) : Literal (quote s) (pieces s) := by
  have hbody : ∀ cs : List Char, Body (cs.flatMap escape) (cs.map piece) := by
    intro cs
    induction cs with
    | nil => exact .nil
    | cons c cs ih =>
      rw [List.flatMap_cons, List.map_cons]
      exact ih.escape c
  exact ⟨_, hbody _, rfl⟩

theorem decode_code {n : Nat} (hn : n < 0xd800) (ps : List Piece) :
    decode (.code n :: ps) = (decode ps).map (Char.ofNat n :: ·) := by
  have hlow : ¬isLow n = true := by
    rw [isLow, Bool.and_eq_true, decide_eq_true_eq]
    omega
  have hhigh : ¬isHigh n = true := by
    rw [isHigh, Bool.and_eq_true, decide_eq_true_eq]
    omega
  rw [decode.eq_def (.code n :: ps)]
  exact (if_neg hlow).trans (if_neg hhigh)

theorem decode_pieces (s : String) : decode (pieces s) = some s.toList := by
  have h : ∀ cs : List Char, decode (cs.map piece) = some cs := by
    intro cs
    induction cs with
    | nil => rfl
    | cons c cs ih =>
      rw [List.map_cons, piece]
      split
      · rw [decode, ih]
        rfl
      · next hc =>
        have hlt : c.toNat < 32 := Nat.not_le.1 fun k => hc (.inr k)
        rw [decode_code (by omega), ih, Char.ofNat_toNat]
        rfl
  exact h s.toList

/-! ## numbers -/

def digits (n : Nat) : List Nat := (Nat.toDigits 10 n).map fun c => c.toNat - 48

theorem ofDigits_digits (n : Nat) : Numeral.ofDigits (digits n) = n := by
  have hval : ∀ d < 10, (Nat.digitChar d).toNat - 48 = d := by decide
  induction n using Nat.strong_induction_on with
  | _ n ih =>
    by_cases hn : n < 10
    · rw [digits, Nat.toDigits_of_lt_base hn]
      show 10 * 0 + ((Nat.digitChar n).toNat - 48) = n
      rw [hval n hn]
      omega
    · have ihn : (digits (n / 10)).foldl (fun n d => 10 * n + d) 0 = n / 10 := ih (n / 10) (by omega)
      rw [digits, Nat.toDigits_of_base_le (by decide) (Nat.not_lt.1 hn), List.map_append, Numeral.ofDigits,
        List.foldl_append]
      rw [digits] at ihn
      rw [ihn]
      show 10 * (n / 10) + ((Nat.digitChar (n % 10)).toNat - 48) = n
      rw [hval _ (by omega)]
      omega

theorem toDigits_cons {n : Nat} (hn : 0 < n) : ∃ c cs, Nat.toDigits 10 n = c :: cs ∧ c ≠ '0' := by
  have hdigit : ∀ d < 10, 0 < d → Nat.digitChar d ≠ '0' := by decide
  induction n using Nat.strong_induction_on with
  | _ n ih =>
    by_cases h10 : n < 10
    · exact ⟨_, [], Nat.toDigits_of_lt_base h10, hdigit n h10 hn⟩
    · obtain ⟨c, cs, hc, h0⟩ := ih (n / 10) (by omega) (by omega)
      exact ⟨c, _, by rw [Nat.toDigits_of_base_le (by decide) (Nat.not_lt.1 h10), hc]; rfl, h0⟩

theorem digit?_of_mem_toDigits {n : Nat} {c : Char} (hc : c ∈ Nat.toDigits 10 n) : digit? c = some (c.toNat - 48) := by
  have hd := Nat.isDigit_of_mem_toDigits (by decide) (by decide) hc
  rw [Char.isDigit, Bool.and_eq_true, decide_eq_true_eq, decide_eq_true_eq] at hd
  exact if_pos hd

/-- nothing follows, or a mark that a number does not go on with -/
def Closes (rest : List Char) : Prop := ∀ c ∈ rest.head?, c = ',' ∨ c = ']' ∨ c = '\x7d'

theorem closes_nil : Closes [] := nofun

theorem closes_cons {c : Char} (hc : c = ',' ∨ c = ']' ∨ c = '\x7d') (rest : List Char) : Closes (c :: rest) := by
  intro d hd
  cases hd
  exact hc

theorem tokensFrom_number_closes {stage : Stage} (hs : stage = .zero ∨ stage = .whole) (n : Numeral)
    {rest : List Char} (hr : Closes rest) :
    tokensFrom (.number stage n) rest = .number n :: tokensFrom .between rest := by
  cases rest with
  | nil => obtain rfl | rfl := hs <;> rfl
  | cons c cs =>
    have hstep : numberStep stage n c = (.number n :: (start c).1, (start c).2) := by
      obtain rfl | rfl := hs <;> obtain rfl | rfl | rfl := hr c rfl <;> rfl
    show (numberStep stage n c).1 ++ tokensFrom (numberStep stage n c).2 cs = _
    rw [hstep]
    rfl

theorem tokensFrom_whole {cs : List Char} (hcs : ∀ c ∈ cs, digit? c = some (c.toNat - 48)) (ds : List Nat)
    {rest : List Char} (hr : Closes rest) :
    tokensFrom (.number .whole ⟨false, ds, [], none⟩) (cs ++ rest) =
      .number ⟨false, ds ++ cs.map (fun c => c.toNat - 48), [], none⟩ :: tokensFrom .between rest := by
  induction cs generalizing ds with
  | nil =>
    rw [List.map_nil, List.append_nil]
    exact tokensFrom_number_closes (.inr rfl) _ hr
  | cons c cs ih =>
    have hstep : numberStep .whole ⟨false, ds, [], none⟩ c =
        ([], .number .whole ⟨false, ds ++ [c.toNat - 48], [], none⟩) := by
      rw [numberStep, hcs c List.mem_cons_self]
      rfl
    show (numberStep .whole ⟨false, ds, [], none⟩ c).1 ++
      tokensFrom (numberStep .whole ⟨false, ds, [], none⟩ c).2 (cs ++ rest) = _
    rw [hstep, List.nil_append, ih fun d hd => hcs d (List.mem_cons_of_mem _ hd)]
    simp

theorem start_of_digit {c : Char} {d : Nat} (hd : digit? c = some d) (h0 : c ≠ '0') :
    start c = ([], .number .whole ⟨false, [d], [], none⟩) := by
  have hne : ∀ x : Char, digit? x = none → c ≠ x := by
    rintro x hx rfl
    rw [hd] at hx
    cases hx
  have hblank : ¬(c = ' ' ∨ c = '\t' ∨ c = '\n' ∨ c = '\r') := by
    rintro (h | h | h | h)
    · exact hne ' ' rfl h
    · exact hne '\t' rfl h
    · exact hne '\n' rfl h
    · exact hne '\r' rfl h
  rw [start, if_neg hblank, if_neg (hne _ rfl), if_neg (hne _ rfl), if_neg (hne _ rfl), if_neg (hne _ rfl),
    if_neg (hne _ rfl), if_neg (hne _ rfl), if_neg (hne _ rfl), if_neg (hne _ rfl), if_neg (hne _ rfl),
    if_neg (hne _ rfl), if_neg (hne _ rfl), if_neg h0, hd]

theorem tokensFrom_toDigits (n : Nat) {rest : List Char} (hr : Closes rest) :
    tokensFrom .between (Nat.toDigits 10 n ++ rest) =
      .number ⟨false, digits n, [], none⟩ :: tokensFrom .between rest := by
  rcases Nat.eq_zero_or_pos n with rfl | hn
  · exact tokensFrom_number_closes (.inl rfl) _ hr
  · obtain ⟨c, cs, hcs, h0⟩ := toDigits_cons hn
    have hdigit : ∀ x ∈ c :: cs, digit? x = some (x.toNat - 48) := by
      intro x hx
      rw [← hcs] at hx
      exact digit?_of_mem_toDigits hx
    rw [digits, hcs]
    show (start c).1 ++ tokensFrom (start c).2 (cs ++ rest) = _
    rw [start_of_digit (hdigit c List.mem_cons_self) h0, List.nil_append,
      tokensFrom_whole (fun x hx => hdigit x (List.mem_cons_of_mem _ hx)) _ hr]
    rfl

/-! ## whole values -/

mutual

/-- the tokens of a value; those of the items and members after the first have the closing mark with them -/
def toTokens : Json → List Token
  | null => [.null]
  | num n => [.number ⟨false, digits n, [], none⟩]
  | str s => [.string (pieces s)]
  | arr [] => [.lbracket, .rbracket]
  | arr (j :: js) => .lbracket :: (toTokens j ++ itemTokens js)
  | obj [] => [.lbrace, .rbrace]
  | obj ((k, j) :: ms) => .lbrace :: .string (pieces k) :: .colon :: (toTokens j ++ memberTokens ms)

def itemTokens : List Json → List Token
  | [] => [.rbracket]
  | j :: js => .comma :: (toTokens j ++ itemTokens js)

def memberTokens : List (String × Json) → List Token
  | [] => [.rbrace]
  | (k, j) :: ms => .comma :: .string (pieces k) :: .colon :: (toTokens j ++ memberTokens ms)

end

theorem closes_itemChars (js : List Json) (rest : List Char) : Closes (itemChars js ++ rest) := by
  cases js with
  | nil => exact closes_cons (.inr (.inl rfl)) _
  | cons j js => exact closes_cons (.inl rfl) _

theorem closes_memberChars (ms : List (String × Json)) (rest : List Char) : Closes (memberChars ms ++ rest) := by
  cases ms with
  | nil => exact closes_cons (.inr (.inr rfl)) _
  | cons m ms => exact closes_cons (.inl rfl) _

theorem tokensFrom_key (k : String) (rest : List Char) :
    tokensFrom .between (quote k ++ ':' :: rest) = .string (pieces k) :: .colon :: tokensFrom .between rest :=
  (literal_quote k).tokens _

mutual

theorem tokensFrom_chars : (j : Json) → {rest : List Char} → Closes rest →
    tokensFrom .between (chars j ++ rest) = toTokens j ++ tokensFrom .between rest
  | null, _, _ => rfl
  | num n, _, hr => tokensFrom_toDigits n hr
  | str s, rest, _ => (literal_quote s).tokens rest
  | arr [], _, _ => rfl
  | arr (j :: js), rest, _ => by
    show .lbracket :: tokensFrom .between ((chars j ++ itemChars js) ++ rest) = _
    rw [List.append_assoc, tokensFrom_chars j (closes_itemChars js rest), tokensFrom_itemChars js rest, toTokens,
      List.cons_append, List.append_assoc]
  | obj [], _, _ => rfl
  | obj ((k, j) :: ms), rest, _ => by
    show .lbrace :: tokensFrom .between ((quote k ++ ':' :: (chars j ++ memberChars ms)) ++ rest) = _
    rw [List.append_assoc, List.cons_append, List.append_assoc, tokensFrom_key,
      tokensFrom_chars j (closes_memberChars ms rest), tokensFrom_memberChars ms rest, toTokens, List.cons_append,
      List.cons_append, List.cons_append, List.append_assoc]

theorem tokensFrom_itemChars : (js : List Json) → (rest : List Char) →
    tokensFrom .between (itemChars js ++ rest) = itemTokens js ++ tokensFrom .between rest
  | [], _ => rfl
  | j :: js, rest => by
    show .comma :: tokensFrom .between ((chars j ++ itemChars js) ++ rest) = _
    rw [List.append_assoc, tokensFrom_chars j (closes_itemChars js rest), tokensFrom_itemChars js rest, itemTokens,
      List.cons_append, List.append_assoc]

theorem tokensFrom_memberChars : (ms : List (String × Json)) → (rest : List Char) →
    tokensFrom .between (memberChars ms ++ rest) = memberTokens ms ++ tokensFrom .between rest
  | [], _ => rfl
  | (k, j) :: ms, rest => by
    show .comma :: tokensFrom .between ((quote k ++ ':' :: (chars j ++ memberChars ms)) ++ rest) = _
    rw [List.append_assoc, List.cons_append, List.append_assoc, tokensFrom_key,
      tokensFrom_chars j (closes_memberChars ms rest), tokensFrom_memberChars ms rest, memberTokens, List.cons_append,
      List.cons_append, List.cons_append, List.append_assoc]

end

theorem tokens_text (j : Json) : tokens j.text = j.toTokens := by
  have h := tokensFrom_chars j closes_nil
  rw [List.append_nil, tokensFrom, Scan.finish, List.append_nil] at h
  rw [tokens, text, String.toList_ofList, h]

end Json

end InfoFlow
