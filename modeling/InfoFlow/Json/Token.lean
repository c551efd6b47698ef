import InfoFlow.Json.Numeral

/-!
# Tokens of JSON text

`tokens` splits a text into tokens, one character at a time.  Where no token can start, or one breaks off,
the list ends with `Token.broken`, so that whatever stands before that place can still be read.

The characters of a string are kept as they are written (`Piece`); `decode` puts pairs of escaped surrogates
together, and gives nothing for a surrogate that stands alone.
-/

namespace InfoFlow

namespace Json

/-- one character of a string: itself, or an escaped 16-bit code -/
inductive Piece
  | char (c : Char)
  | code (n : Nat)
deriving DecidableEq

inductive Token
  | lbrace
  | rbrace
  | lbracket
  | rbracket
  | colon
  | comma
  | null
  | bool (b : Bool)
  | number (n : Numeral)
  | string (pieces : List Piece)
  /-- no token can be read here -/
  | broken
deriving DecidableEq

/-! ## strings -/

def isHigh (n : Nat) : Bool := 0xd800 ≤ n && n < 0xdc00

def isLow (n : Nat) : Bool := 0xdc00 ≤ n && n < 0xe000

/-- the characters of a string, if it has no lone surrogate -/
def decode : List Piece → Option (List Char)
  | [] => some []
  | .char c :: ps => (decode ps).map (c :: ·)
  | .code n :: ps =>
    if isLow n then none
    else if isHigh n then
      match ps with
      | .code m :: ps =>
        if isLow m then
          (decode ps).map (Char.ofNat (0x10000 + 0x400 * (n - 0xd800) + (m - 0xdc00)) :: ·)
        else none
      | _ => none
    else (decode ps).map (Char.ofNat n :: ·)

/-! ## the scanner -/

/-- how far a number has been read -/
inductive Stage
  | sign | zero | whole | point | fraction | mark | markSign | exponent
deriving DecidableEq

/-- what the scanner is in the middle of -/
inductive Scan
  | between
  /-- a word: the letters still to come, and the token it makes -/
  | word (left : List Char) (token : Token)
  | number (stage : Stage) (n : Numeral)
  /-- a string: its pieces so far, last first -/
  | string (done : List Piece)
  /-- a string, after a backslash -/
  | escape (done : List Piece)
  /-- a string, in an escaped code: the digits still to come, and the code so far -/
  | hex (left : Nat) (code : Nat) (done : List Piece)
  /-- nothing can be read any more -/
  | stopped
deriving DecidableEq

def digit? (c : Char) : Option Nat := if '0' ≤ c ∧ c ≤ '9' then some (c.toNat - 48) else none

def hexDigit? (c : Char) : Option Nat :=
  if '0' ≤ c ∧ c ≤ '9' then some (c.toNat - 48)
  else if 'a' ≤ c ∧ c ≤ 'f' then some (c.toNat - 87)
  else if 'A' ≤ c ∧ c ≤ 'F' then some (c.toNat - 55)
  else none

/-- a character between tokens -/
def start (c : Char) : List Token × Scan :=
  if c = ' ' ∨ c = '\t' ∨ c = '\n' ∨ c = '\r' then ([], .between)
  else if c = '\x7b' then ([.lbrace], .between)
  else if c = '\x7d' then ([.rbrace], .between)
  else if c = '[' then ([.lbracket], .between)
  else if c = ']' then ([.rbracket], .between)
  else if c = ':' then ([.colon], .between)
  else if c = ',' then ([.comma], .between)
  else if c = '"' then ([], .string [])
  else if c = 'n' then ([], .word ['u', 'l', 'l'] .null)
  else if c = 't' then ([], .word ['r', 'u', 'e'] (.bool true))
  else if c = 'f' then ([], .word ['a', 'l', 's', 'e'] (.bool false))
  else if c = '-' then ([], .number .sign ⟨true, [], [], none⟩)
  else if c = '0' then ([], .number .zero ⟨false, [0], [], none⟩)
  else match digit? c with
    | some d => ([], .number .whole ⟨false, [d], [], none⟩)
    | none => ([.broken], .stopped)

/-- the number with one more digit -/
def Numeral.push (n : Numeral) (stage : Stage) (d : Nat) : Stage × Numeral :=
  match stage with
  | .sign => (if d = 0 then .zero else .whole, { n with whole := [d] })
  | .zero | .whole => (.whole, { n with whole := n.whole ++ [d] })
  | .point | .fraction => (.fraction, { n with fraction := n.fraction ++ [d] })
  | .mark => (.exponent, { n with exponent := some (false, [d]) })
  | .markSign | .exponent =>
    (.exponent, { n with exponent := n.exponent.map fun e => (e.1, e.2 ++ [d]) })

/-- whether a number may end here -/
def Stage.isComplete : Stage → Bool
  | .zero | .whole | .fraction | .exponent => true
  | .sign | .point | .mark | .markSign => false

/-- a character in a number -/
def numberStep (stage : Stage) (n : Numeral) (c : Char) : List Token × Scan :=
  match digit? c with
  | some d =>
    if stage = .zero then ([.broken], .stopped) else let r := n.push stage d; ([], .number r.1 r.2)
  | none =>
    if c = '.' ∧ (stage = .zero ∨ stage = .whole) then ([], .number .point n)
    else if (c = 'e' ∨ c = 'E') ∧ (stage = .zero ∨ stage = .whole ∨ stage = .fraction) then
      ([], .number .mark n)
    else if (c = '+' ∨ c = '-') ∧ stage = .mark then
      ([], .number .markSign { n with exponent := some (c == '-', []) })
    else if stage.isComplete then let r := start c; (.number n :: r.1, r.2)
    else ([.broken], .stopped)

/-- the character that a letter after a backslash stands for -/
def unescape? (c : Char) : Option Char :=
  if c = '"' then some '"'
  else if c = '\\' then some '\\'
  else if c = '/' then some '/'
  else if c = 'b' then some '\x08'
  else if c = 'f' then some '\x0c'
  else if c = 'n' then some '\n'
  else if c = 'r' then some '\r'
  else if c = 't' then some '\t'
  else none

/-- one character: the tokens it completes, and what the scanner is in the middle of after it -/
def Scan.step : Scan → Char → List Token × Scan
  | .between, c => start c
  | .word [] _, _ => ([.broken], .stopped)
  | .word [l] t, c => if c = l then ([t], .between) else ([.broken], .stopped)
  | .word (l :: ls) t, c => if c = l then ([], .word ls t) else ([.broken], .stopped)
  | .number stage n, c => numberStep stage n c
  | .string done, c =>
    if c = '"' then ([.string done.reverse], .between)
    else if c = '\\' then ([], .escape done)
    else if c.toNat < 32 then ([.broken], .stopped)
    else ([], .string (.char c :: done))
  | .escape done, c =>
    if c = 'u' then ([], .hex 4 0 done)
    else match unescape? c with
      | some e => ([], .string (.char e :: done))
      | none => ([.broken], .stopped)
  | .hex left code done, c =>
    match hexDigit? c with
    | some d =>
      if left ≤ 1 then ([], .string (.code (16 * code + d) :: done))
      else ([], .hex (left - 1) (16 * code + d) done)
    | none => ([.broken], .stopped)
  | .stopped, _ => ([], .stopped)

/-- what is left at the end of the text -/
def Scan.finish : Scan → List Token
  | .between | .stopped => []
  | .number stage n => if stage.isComplete then [.number n] else [.broken]
  | .word .. | .string _ | .escape _ | .hex .. => [.broken]

/-- the tokens of a text, read from the middle of something -/
def tokensFrom : Scan → List Char → List Token
  | s, [] => s.finish
  | s, c :: cs => let r := s.step c; r.1 ++ tokensFrom r.2 cs

def tokens (text : String) : List Token := tokensFrom .between text.toList

end Json

end InfoFlow
