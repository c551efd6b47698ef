/-!
# JSON values and their text

`Json` has the values this library writes: null, natural numbers, strings, arrays, and objects as lists of
named members, in the order in which they are written.

* `Json.text`: the compact text;
* `Json.sorted`: the value with the members of each object in order of their names.
-/

namespace InfoFlow

inductive Json
  | null
  | num (n : Nat)
  | str (s : String)
  | arr (items : List Json)
  | obj (members : List (String × Json))

namespace Json

/-! ## text -/

def hexDigit (n : Nat) : Char := if n < 10 then Char.ofNat (48 + n) else Char.ofNat (87 + n)

/-- a character inside a string: quote, backslash and control characters are escaped -/
def escape (c : Char) : List Char :=
  if c = '"' then ['\\', '"']
  else if c = '\\' then ['\\', '\\']
  else if c = '\n' then ['\\', 'n']
  else if c = '\r' then ['\\', 'r']
  else if c = '\t' then ['\\', 't']
  else if c = '\x08' then ['\\', 'b']
  else if c = '\x0c' then ['\\', 'f']
  else if c.toNat < 32 then ['\\', 'u', '0', '0', hexDigit (c.toNat / 16), hexDigit (c.toNat % 16)]
  else [c]

def quote (s : String) : List Char := '"' :: (s.toList.flatMap escape ++ ['"'])

mutual

/-- the compact text, character by character -/
def chars : Json → List Char
  | null => ['n', 'u', 'l', 'l']
  | num n => Nat.toDigits 10 n
  | str s => quote s
  | arr [] => ['[', ']']
  | arr (j :: js) => '[' :: (chars j ++ itemChars js)
  | obj [] => ['\x7b', '\x7d']
  | obj ((k, j) :: ms) => '\x7b' :: (quote k ++ ':' :: (chars j ++ memberChars ms))

/-- the items after the first, and the closing bracket -/
def itemChars : List Json → List Char
  | [] => [']']
  | j :: js => ',' :: (chars j ++ itemChars js)

/-- the members after the first, and the closing brace -/
def memberChars : List (String × Json) → List Char
  | [] => ['\x7d']
  | (k, j) :: ms => ',' :: (quote k ++ ':' :: (chars j ++ memberChars ms))

end

def text (j : Json) : String := String.ofList j.chars

/-! ## order of members -/

mutual

/-- the value with the members of each object in order of their names -/
def sorted : Json → Json
  | arr js => arr (sortedItems js)
  | obj ms => obj ((sortedMembers ms).mergeSort fun a b => (compare a.1 b.1).isLE)
  | j => j

def sortedItems : List Json → List Json
  | [] => []
  | j :: js => sorted j :: sortedItems js

def sortedMembers : List (String × Json) → List (String × Json)
  | [] => []
  | (k, j) :: ms => (k, sorted j) :: sortedMembers ms

end

end Json

end InfoFlow
