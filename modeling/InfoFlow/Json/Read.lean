import InfoFlow.Json.Token

/-!
# Reading JSON

Readers take tokens from the front of a list and return what is left; the rest is always shorter, which is
why reading ends.  The first fault in the order of the text is the one that is reported.

* `Reader.string`: a string;
* `Reader.record`: a record, written as an object or as the array of its fields;
* `skip`: any value at all;
* `Reader.run`: a reader on a whole text.
-/

namespace InfoFlow

namespace Json

/-- the value read, and the tokens after it -/
structure Taken (ts : List Token) (α : Type) where
  value : α
  rest : List Token
  shorter : rest.length < ts.length

/-- the same reading, seen from further left -/
def Taken.widen {ts us : List Token} {α : Type} (r : Taken ts α) (h : ts.length ≤ us.length) :
    Taken us α :=
  ⟨r.value, r.rest, Nat.lt_of_lt_of_le r.shorter h⟩

/-- the same reading, seen from two tokens further left -/
def Taken.widenTwo {t u : Token} {ts : List Token} {α : Type} (r : Taken ts α) : Taken (t :: u :: ts) α :=
  r.widen (Nat.le_succ_of_le (Nat.le_succ _))

abbrev Reader (α : Type) := (ts : List Token) → Except Fault (Taken ts α)

/-! ## mismatches -/

def Token.found? : Token → Option Found
  | null => some .null
  | bool b => some (.bool b)
  | number n => n.found?
  | string ps => (decode ps).map fun cs => .str (String.ofList cs)
  | lbracket => some .sequence
  | lbrace => some .map
  | rbrace | rbracket | colon | comma | broken => none

/-- the fault of finding a token where `expected` should be -/
def Token.mismatch (t : Token) (expected : String) : Fault :=
  match t.found? with
  | some f => .wrongType f expected
  | none => .notJson

/-! ## strings -/

def Reader.string : Reader String
  | [] => .error .notJson
  | .string ps :: ts =>
    match decode ps with
    | some cs => .ok ⟨String.ofList cs, ts, Nat.lt_succ_self _⟩
    | none => .error .notJson
  | t :: _ => .error (t.mismatch "a string")

/-! ## skipping -/

/-- an open bracket -/
inductive Bracket
  | array
  | object
deriving DecidableEq

/-- what may come next -/
inductive Expect
  | value
  /-- a value, or the end of an array -/
  | firstItem
  /-- a key, or the end of an object -/
  | firstKey
  | key
  | colon
  /-- a comma, or the end of what is open -/
  | more
deriving DecidableEq

/-- a token where a value is expected -/
def skipValue (stack : List Bracket) : Token → Option (List Bracket × Expect)
  | .lbracket => some (.array :: stack, .firstItem)
  | .lbrace => some (.object :: stack, .firstKey)
  | .null | .bool _ | .number _ | .string _ => some (stack, .more)
  | .rbrace | .rbracket | .colon | .comma | .broken => none

/-- one token of a value to skip: the brackets then open, and what may come next -/
def skipStep : List Bracket → Expect → Token → Option (List Bracket × Expect)
  | stack, .value, t => skipValue stack t
  | .array :: stack, .firstItem, .rbracket => some (stack, .more)
  | stack, .firstItem, t => skipValue stack t
  | .object :: stack, .firstKey, .rbrace => some (stack, .more)
  | stack, .firstKey, .string _ => some (stack, .colon)
  | stack, .key, .string _ => some (stack, .colon)
  | stack, .colon, .colon => some (stack, .value)
  | .array :: stack, .more, .comma => some (.array :: stack, .value)
  | .array :: stack, .more, .rbracket => some (stack, .more)
  | .object :: stack, .more, .comma => some (.object :: stack, .key)
  | .object :: stack, .more, .rbrace => some (stack, .more)
  | _, _, _ => none

/-- skips to the end of the value -/
def skipFrom (stack : List Bracket) (expect : Expect) : Reader Unit
  | [] => .error .notJson
  | t :: ts =>
    match skipStep stack expect t with
    | none => .error .notJson
    | some ([], .more) => .ok ⟨(), ts, Nat.lt_succ_self _⟩
    | some (stack, expect) => (skipFrom stack expect ts).map (·.widen (Nat.le_succ _))

/-- skips any well-formed value -/
def skip : Reader Unit := skipFrom [] .value

/-! ## records -/

section
variable {α : Type}

/-- the value of a member after its key, added to the fields read so far; a member that is no field is
    skipped, and a field that was read before is refused before its colon -/
def member (fields : List String) (value : Reader α) (found : List (String × α)) (key : String) :
    Reader (List (String × α)) := fun ts =>
  if key ∈ fields ∧ (found.lookup key).isSome then .error (.duplicateField key)
  else match ts with
    | .colon :: ts =>
      if key ∈ fields then
        (value ts).map fun r => ⟨(key, r.value) :: found, r.rest, Nat.lt_succ_of_lt r.shorter⟩
      else (skip ts).map fun r => ⟨found, r.rest, Nat.lt_succ_of_lt r.shorter⟩
    | _ => .error .notJson

/-- the fields in the order of their declaration; the first that is missing is reported -/
def close (fields : List String) (found : List (String × α)) : Except Fault (List α) :=
  fields.mapM fun f =>
    match found.lookup f with
    | some a => .ok a
    | none => .error (.missingField f)

/-- the members of an object, after the key of one of them -/
def members (fields : List String) (value : Reader α) (found : List (String × α)) (key : String)
    (ts : List Token) : Except Fault (Taken ts (List α)) :=
  match member fields value found key ts with
  | .error e => .error e
  | .ok ⟨found, .rbrace :: rest, h⟩ =>
    (close fields found).map fun r => ⟨r, rest, Nat.lt_of_succ_lt h⟩
  | .ok ⟨found, .comma :: .string ps :: rest, h⟩ =>
    match decode ps with
    | none => .error .notJson
    | some cs =>
      (members fields value found (String.ofList cs) rest).map
        (·.widen (Nat.le_of_lt (Nat.lt_of_succ_lt (Nat.lt_of_succ_lt h))))
  | .ok _ => .error .notJson
termination_by ts.length
decreasing_by exact Nat.lt_of_succ_lt (Nat.lt_of_succ_lt h)

/-- a record with this number of fields, as a message calls it -/
def elements (expected : String) (n : Nat) : String :=
  expected ++ " with " ++ toString n ++ (if n = 1 then " element" else " elements")

/-- the items of an array, one for each field that is left; `done` were read before -/
def items (expected : String) (value : Reader α) : (left done : Nat) → Reader (List α)
  | 0, _, .rbracket :: ts => .ok ⟨[], ts, Nat.lt_succ_self _⟩
  | 0, _, _ => .error .notJson
  | left + 1, done, .rbracket :: _ =>
    .error (.wrongLength done (elements expected (left + 1 + done)))
  | left + 1, 0, ts => do
    let r ← value ts
    let rs ← items expected value left 1 r.rest
    .ok ⟨r.value :: rs.value, rs.rest, Nat.lt_trans rs.shorter r.shorter⟩
  | left + 1, done + 1, .comma :: ts => do
    let r ← value ts
    let rs ← items expected value left (done + 2) r.rest
    .ok ⟨r.value :: rs.value, rs.rest, Nat.lt_succ_of_lt (Nat.lt_trans rs.shorter r.shorter)⟩
  | _ + 1, _ + 1, _ => .error .notJson

/-- a record of these fields, whose values are all read by `value` -/
def Reader.record (expected : String) (fields : List String) (value : Reader α) : Reader (List α)
  | .lbrace :: .rbrace :: ts =>
    (close fields []).map fun r => ⟨r, ts, Nat.lt_succ_of_lt (Nat.lt_succ_self _)⟩
  | .lbrace :: .string ps :: ts =>
    match decode ps with
    | none => .error .notJson
    | some cs =>
      (members fields value [] (String.ofList cs) ts).map (·.widenTwo)
  | .lbrace :: _ => .error .notJson
  | .lbracket :: ts => (items expected value fields.length 0 ts).map (·.widen (Nat.le_succ _))
  | [] => .error .notJson
  | t :: _ => .error (t.mismatch expected)

end

/-! ## whole texts -/

/-- the value of a whole text; nothing but blanks may follow it -/
def Reader.run {α : Type} (r : Reader α) (text : String) : Except Fault α :=
  match r (tokens text) with
  | .error e => .error e
  | .ok ⟨a, [], _⟩ => .ok a
  | .ok _ => .error .notJson

end Json

end InfoFlow
