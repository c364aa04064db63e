/-
  ClaimQueue.Json.Tree — JSON text as a tree whose numbers and strings are still as written.

  `Tree.read?` knows the grammar and no limits. What a tree means is decided where it is
  used, so a part nobody looks at may hold a number too large for a double, half of a
  surrogate pair or any depth of nesting: `value?` refuses these, skipping them does not.
-/

import ClaimQueue.Decimal.Scaled
import ClaimQueue.Json.Value
import ClaimQueue.Text.Hex

namespace ClaimQueue.Json

/-- A number as written. -/
structure Numeral where
  negative : Bool
  whole : List Char
  /-- Digits after the point. -/
  fraction : Option (List Char)
  /-- Sign and digits of the exponent. -/
  exponent : Option (Bool × List Char)
  deriving Repr

inductive Tree where
  | null
  | bool (b : Bool)
  | number (n : Numeral)
  /-- The characters between the quotes. -/
  | text (raw : List Char)
  | list (items : List Tree)
  | members (entries : List (List Char × Tree))
  deriving Repr, Inhabited

/-! ## Numbers -/

def digitValue (c : Char) : Nat := c.toNat - '0'.toNat

/-- Digits go into 64 bits while they fit; the count of those left over comes second. -/
def accumulate (n : Nat) : List Char → Nat × Nat
  | [] => (n, 0)
  | c :: rest =>
    if n * 10 + digitValue c < UInt64.size then accumulate (n * 10 + digitValue c) rest else (n, rest.length + 1)

def exponentLimit : Nat := 2_147_483_648

/-- The value: whole if written without point and exponent and within range, else a double.
None if too large for a double. -/
def Numeral.value? (n : Numeral) : Option Json :=
  let (significand, left) := accumulate 0 n.whole
  let sign (x : Float) : Json := .real (if n.negative then -x else x)
  match n.fraction, n.exponent with
  | none, none =>
    if left = 0 then
      if !n.negative then some (.whole significand)
      else if 0 < significand ∧ significand ≤ 9_223_372_036_854_775_808 then some (.whole (-significand))
      else some (sign (UInt64.ofNat significand).toFloat)
    else (Decimal.scaled? (.ofNat significand) left).map sign
  | fraction, exponent =>
    let digits := fraction.getD []
    let (significand, cut) := accumulate significand digits
    let taken := digits.length - cut
    let (negative, power) := match exponent with
      | none => (false, 0)
      | some (negative, ds) => (negative, ds.foldl (fun n c => min (n * 10 + digitValue c) exponentLimit) 0)
    if power = exponentLimit then
      if significand ≠ 0 ∧ !negative then none else some (sign 0.0)
    else
      let shift : Int := left - taken + (if negative then -power else power : Int)
      (Decimal.scaled? (.ofNat significand) shift).map sign

/-! ## Strings -/

def simpleEscape? : Char → Option Char
  | '"' => some '"'
  | '\\' => some '\\'
  | '/' => some '/'
  | 'b' => some '\x08'
  | 'f' => some '\x0c'
  | 'n' => some '\n'
  | 'r' => some '\r'
  | 't' => some '\t'
  | _ => none

/-- The characters that `raw` stands for; none if half of a surrogate pair stands alone. -/
def unescape? : List Char → Option (List Char)
  | [] => some []
  | '\\' :: 'u' :: a :: b :: c :: d :: rest =>
    match Hex.value? [a, b, c, d] with
    | none => none
    | some n =>
      if 0xD800 ≤ n ∧ n < 0xDC00 then
        match rest with
        | '\\' :: 'u' :: e :: f :: g :: h :: rest =>
          match Hex.value? [e, f, g, h] with
          | none => none
          | some m =>
            if 0xDC00 ≤ m ∧ m < 0xE000 then
              (unescape? rest).map (Char.ofNat (0x10000 + (n - 0xD800) * 0x400 + (m - 0xDC00)) :: ·)
            else none
        | _ => none
      else if 0xDC00 ≤ n ∧ n < 0xE000 then none
      else (unescape? rest).map (Char.ofNat n :: ·)
  | '\\' :: c :: rest => do
    let c ← simpleEscape? c
    (unescape? rest).map (c :: ·)
  | c :: rest => (unescape? rest).map (c :: ·)

def decodeText? (raw : List Char) : Option String := (unescape? raw).map String.ofList

/-! ## Values -/

mutual

/-- The value of a tree nested at most `depth` deep. -/
def Tree.value? (depth : Nat) : Tree → Option Json
  | .null => some .null
  | .bool b => some (.bool b)
  | .number n => n.value?
  | .text raw => (decodeText? raw).map .text
  | .list items => if depth = 0 then none else (values? (depth - 1) items).map .list
  | .members entries =>
    if depth = 0 then none else (memberValues? (depth - 1) entries).map Json.object

def values? (depth : Nat) : List Tree → Option (List Json)
  | [] => some []
  | t :: rest => do
    let j ← t.value? depth
    let js ← values? depth rest
    some (j :: js)

def memberValues? (depth : Nat) : List (List Char × Tree) → Option (List (String × Json))
  | [] => some []
  | (k, t) :: rest => do
    let k ← decodeText? k
    let j ← t.value? depth
    let js ← memberValues? depth rest
    some ((k, j) :: js)

end

/-! ## Reading -/

def isSpace (c : Char) : Bool := c == ' ' || c == '\n' || c == '\t' || c == '\r'

def skipSpace (s : List Char) : List Char := s.dropWhile isSpace

def spanDigits (s : List Char) : List Char × List Char := (s.takeWhile Char.isDigit, s.dropWhile Char.isDigit)

/-- A point needs a digit after it. -/
def fractionPart? : List Char → Option (Option (List Char) × List Char)
  | '.' :: rest =>
    match spanDigits rest with
    | ([], _) => none
    | (ds, rest) => some (some ds, rest)
  | s => some (none, s)

def exponentPart? : List Char → Option (Option (Bool × List Char) × List Char)
  | e :: rest =>
    if e == 'e' || e == 'E' then
      let (negative, rest) := match rest with
        | '+' :: rest => (false, rest)
        | '-' :: rest => (true, rest)
        | rest => (false, rest)
      match spanDigits rest with
      | ([], _) => none
      | (ds, rest) => some (some (negative, ds), rest)
    else some (none, e :: rest)
  | [] => some (none, [])

/-- No zero stands before another digit. -/
def numeral? (s : List Char) : Option (Numeral × List Char) := do
  let (negative, s) := match s with
    | '-' :: rest => (true, rest)
    | s => (false, s)
  let (digits, rest) ← match spanDigits s with
    | ([], _) => none
    | ('0' :: _ :: _, _) => none
    | (ds, rest) => some (ds, rest)
  let (fraction, rest) ← fractionPart? rest
  let (exponent, rest) ← exponentPart? rest
  some (⟨negative, digits, fraction, exponent⟩, rest)

def isHex (c : Char) : Bool := (Hex.digit? c).isSome

/-- The characters up to the closing quote. -/
def rawText? : List Char → Option (List Char × List Char)
  | [] => none
  | '"' :: rest => some ([], rest)
  | '\\' :: 'u' :: a :: b :: c :: d :: rest =>
    if isHex a && isHex b && isHex c && isHex d then
      (rawText? rest).map fun (raw, rest) => ('\\' :: 'u' :: a :: b :: c :: d :: raw, rest)
    else none
  | '\\' :: c :: rest =>
    if (simpleEscape? c).isSome then (rawText? rest).map fun (raw, rest) => ('\\' :: c :: raw, rest) else none
  | c :: rest => if c.toNat < 0x20 then none else (rawText? rest).map fun (raw, rest) => (c :: raw, rest)

mutual

def Tree.parse? (fuel : Nat) (s : List Char) : Option (Tree × List Char) :=
  match fuel with
  | 0 => none
  | fuel + 1 =>
    match skipSpace s with
    | 'n' :: 'u' :: 'l' :: 'l' :: rest => some (.null, rest)
    | 't' :: 'r' :: 'u' :: 'e' :: rest => some (.bool true, rest)
    | 'f' :: 'a' :: 'l' :: 's' :: 'e' :: rest => some (.bool false, rest)
    | '"' :: rest => (rawText? rest).map fun (raw, rest) => (.text raw, rest)
    | '[' :: rest =>
      match skipSpace rest with
      | ']' :: rest => some (.list [], rest)
      | rest => (items? fuel rest).map fun (items, rest) => (.list items, rest)
    | '{' :: rest =>
      match skipSpace rest with
      | '}' :: rest => some (.members [], rest)
      | rest => (entries? fuel rest).map fun (entries, rest) => (.members entries, rest)
    | s => (numeral? s).map fun (n, rest) => (.number n, rest)

/-- Items up to the closing bracket. -/
def items? (fuel : Nat) (s : List Char) : Option (List Tree × List Char) :=
  match fuel with
  | 0 => none
  | fuel + 1 => do
    let (t, rest) ← Tree.parse? fuel s
    match skipSpace rest with
    | ',' :: rest => (items? fuel rest).map fun (ts, rest) => (t :: ts, rest)
    | ']' :: rest => some ([t], rest)
    | _ => none

/-- Members up to the closing brace. -/
def entries? (fuel : Nat) (s : List Char) : Option (List (List Char × Tree) × List Char) :=
  match fuel with
  | 0 => none
  | fuel + 1 => do
    let (k, rest) ← match skipSpace s with
      | '"' :: rest => rawText? rest
      | _ => none
    let rest ← match skipSpace rest with
      | ':' :: rest => some rest
      | _ => none
    let (t, rest) ← Tree.parse? fuel rest
    match skipSpace rest with
    | ',' :: rest => (entries? fuel rest).map fun (es, rest) => ((k, t) :: es, rest)
    | '}' :: rest => some ([(k, t)], rest)
    | _ => none

end

/-- Exactly one value. Every step of the reader takes a character or opens an item, so
twice the length is enough. -/
def Tree.read? (s : List Char) : Option Tree := do
  let (t, rest) ← Tree.parse? (2 * s.length + 2) s
  if (skipSpace rest).isEmpty then some t else none

/-- Values nested deeper are refused. -/
def depthLimit : Nat := 127

def read? (text : String) : Option Json := (Tree.read? text.toList).bind (Tree.value? depthLimit)

/-- The value in UTF-8 text. -/
def ofBytes? (bytes : List UInt8) : Option Json := (String.fromUTF8? ⟨bytes.toArray⟩).bind read?

end ClaimQueue.Json
