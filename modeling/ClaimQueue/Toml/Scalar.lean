/-
  ClaimQueue.Toml.Scalar — the simple values of TOML 1.0: strings, numbers, dates.

  Each reader takes the characters in front of it and gives the value and the rest. A
  number is a whole number of 64 bits with sign, or a double; a date or time of day keeps
  its text, under a name that no setting has.
-/

import ClaimQueue.Decimal.Scaled
import ClaimQueue.Json.Value
import ClaimQueue.Text.Hex
import ClaimQueue.Time.Calendar

namespace ClaimQueue.Toml

abbrev Read (α : Type) := List Char → Option (α × List Char)

def isWs (c : Char) : Bool := c == ' ' || c == '\t'

def skipWs (s : List Char) : List Char := s.dropWhile isWs

def newline? : List Char → Option (List Char)
  | '\n' :: rest => some rest
  | '\r' :: '\n' :: rest => some rest
  | _ => none

/-- A character that may stand in a line: no control character but the tab. -/
def isLineChar (c : Char) : Bool := c == '\t' || (0x20 ≤ c.toNat && c.toNat != 0x7F)

def skipComment : List Char → List Char
  | '#' :: rest => rest.dropWhile isLineChar
  | s => s

/-! ## Strings -/

/-- The character that an escape names, after its backslash. -/
def escape? : Read Char
  | 'b' :: rest => some ('\x08', rest)
  | 't' :: rest => some ('\t', rest)
  | 'n' :: rest => some ('\n', rest)
  | 'f' :: rest => some ('\x0c', rest)
  | 'r' :: rest => some ('\r', rest)
  | '"' :: rest => some ('"', rest)
  | '\\' :: rest => some ('\\', rest)
  | 'u' :: rest => scalar 4 rest
  | 'U' :: rest => scalar 8 rest
  | _ => none
where
  scalar (width : Nat) (s : List Char) : Option (Char × List Char) :=
    if (s.take width).length = width then
      (Hex.value? (s.take width)).bind fun n => if n.isValidChar then some (.ofNat n, s.drop width) else none
    else none

def cons (c : Char) : List Char × List Char → List Char × List Char := fun (cs, rest) => (c :: cs, rest)

/-- Up to the closing quote; at most `fuel` characters. -/
def basic? (fuel : Nat) (s : List Char) : Option (List Char × List Char) :=
  match fuel, s with
  | 0, _ => none
  | _, [] => none
  | _, '"' :: rest => some ([], rest)
  | fuel + 1, '\\' :: rest => do
    let (c, rest) ← escape? rest
    (basic? fuel rest).map (cons c)
  | fuel + 1, c :: rest => if isLineChar c then (basic? fuel rest).map (cons c) else none

def literal? : Read (List Char)
  | [] => none
  | '\'' :: rest => some ([], rest)
  | c :: rest => if isLineChar c then (literal? rest).map (cons c) else none

/-- Blanks and line ends after a backslash at the end of a line. -/
def skipFold (fuel : Nat) (s : List Char) : List Char :=
  match fuel with
  | 0 => s
  | fuel + 1 =>
    match newline? (skipWs s) with
    | some rest => skipFold fuel rest
    | none => skipWs s

/-- Up to three closing quotes `q` in a row; one or two may stand right before them. -/
def multi? (q : Char) (escapes : Bool) (fuel : Nat) (s : List Char) : Option (List Char × List Char) :=
  match fuel with
  | 0 => none
  | fuel + 1 =>
    match s with
    | [] => none
    | c :: rest =>
      if c = q then
        let quotes := s.takeWhile (· == q)
        let after := s.dropWhile (· == q)
        if quotes.length < 3 then (multi? q escapes fuel after).map fun (cs, rest) => (quotes ++ cs, rest)
        else if quotes.length ≤ 5 then some (List.replicate (quotes.length - 3) q, after)
        else none
      else if c = '\\' ∧ escapes then
        match newline? (skipWs rest) with
        | some rest => multi? q escapes fuel (skipFold rest.length rest)
        | none => do
          let (c, rest) ← escape? rest
          (multi? q escapes fuel rest).map (cons c)
      else
        match newline? s with
        | some rest => (multi? q escapes fuel rest).map (cons '\n')
        | none => if isLineChar c then (multi? q escapes fuel rest).map (cons c) else none

/-- The first line end of a string over several lines says nothing. -/
def dropFirstNewline (s : List Char) : List Char := (newline? s).getD s

def string? : Read String
  | '"' :: '"' :: '"' :: rest =>
    (multi? '"' true (rest.length + 1) (dropFirstNewline rest)).map fun (cs, rest) => (.ofList cs, rest)
  | '\'' :: '\'' :: '\'' :: rest =>
    (multi? '\'' false (rest.length + 1) (dropFirstNewline rest)).map fun (cs, rest) => (.ofList cs, rest)
  | '"' :: rest => (basic? (rest.length + 1) rest).map fun (cs, rest) => (.ofList cs, rest)
  | '\'' :: rest => (literal? rest).map fun (cs, rest) => (.ofList cs, rest)
  | _ => none

/-! ## Numbers -/

/-- Digits with single underscores between them; the underscores are dropped. -/
def digits? (isDigit : Char → Bool) : Read (List Char)
  | [] => none
  | c :: rest => if isDigit c then more c rest else none
where
  more (c : Char) : List Char → Option (List Char × List Char)
    | [] => some ([c], [])
    | '_' :: d :: rest => if isDigit d then (more d rest).map (cons c) else none
    | d :: rest => if isDigit d then (more d rest).map (cons c) else if d = '_' then none else some ([c], d :: rest)

def sign : List Char → Bool × List Char
  | '-' :: rest => (true, rest)
  | '+' :: rest => (false, rest)
  | s => (false, s)

def naturalOf (base : Nat) (ds : List Char) : Nat :=
  ds.foldl (fun n c => n * base + (Hex.digit? c).getD 0) 0

/-- No zero stands before another digit. -/
def decimal? : Read (List Char)
  | '0' :: rest => some (['0'], rest)
  | s => digits? Char.isDigit s

def based? (base : Nat) (isDigit : Char → Bool) (s : List Char) : Option (Json × List Char) := do
  let (ds, rest) ← digits? isDigit s
  let n := naturalOf base ds
  if n < 9_223_372_036_854_775_808 then some (.whole n, rest) else none

def whole? (s : List Char) : Option (Json × List Char) :=
  match s with
  | '0' :: 'x' :: rest => based? 16 (fun c => (Hex.digit? c).isSome) rest
  | '0' :: 'o' :: rest => based? 8 (fun c => '0' ≤ c ∧ c ≤ '7') rest
  | '0' :: 'b' :: rest => based? 2 (fun c => c == '0' || c == '1') rest
  | s => do
    let (negative, s) := sign s
    let (ds, rest) ← decimal? s
    let n : Int := if negative then -naturalOf 10 ds else naturalOf 10 ds
    if -9_223_372_036_854_775_808 ≤ n ∧ n < 9_223_372_036_854_775_808 then some (.whole n, rest) else none

/-- Digits after a point. -/
def fraction? : List Char → Option (Option (List Char) × List Char)
  | '.' :: rest => (digits? Char.isDigit rest).map fun (ds, rest) => (some ds, rest)
  | s => some (none, s)

def exponent? : List Char → Option (Option Int × List Char)
  | c :: rest =>
    if c == 'e' || c == 'E' then
      let (negative, rest) := sign rest
      (digits? Char.isDigit rest).map fun (ds, rest) =>
        (some (if negative then -naturalOf 10 ds else naturalOf 10 ds), rest)
    else some (none, c :: rest)
  | [] => some (none, [])

/-- A double needs a point or an exponent; one too large is refused. -/
def real? (s : List Char) : Option (Json × List Char) := do
  let (negative, s) := sign s
  match s with
  | 'i' :: 'n' :: 'f' :: rest => some (.real (if negative then -1.0 / 0.0 else 1.0 / 0.0), rest)
  | 'n' :: 'a' :: 'n' :: rest => some (.real (0.0 / 0.0), rest)
  | s =>
    let (ds, rest) ← decimal? s
    let (fraction, rest) ← fraction? rest
    let (exponent, rest) ← exponent? rest
    if fraction.isNone ∧ exponent.isNone then none
    else
      let x := Decimal.exact (naturalOf 10 (ds ++ fraction.getD []))
        (exponent.getD 0 - (fraction.getD []).length)
      if x.isInf ∧ !negative then none else some (.real (if negative then -x else x), rest)

/-! ## Dates -/

/-- Exactly `width` digits with a value from `low` to `high`. -/
def fixed? (width low high : Nat) (s : List Char) : Option (Nat × List Char) :=
  let ds := s.take width
  if ds.length = width ∧ ds.all Char.isDigit then
    let n := naturalOf 10 ds
    if low ≤ n ∧ n ≤ high then some (n, s.drop width) else none
  else none

def char? (c : Char) : List Char → Option (List Char)
  | d :: rest => if d = c then some rest else none
  | [] => none

def date? (s : List Char) : Option (List Char) := do
  let (year, s) ← fixed? 4 0 9999 s
  let s ← char? '-' s
  let (month, s) ← fixed? 2 1 12 s
  let s ← char? '-' s
  let (day, s) ← fixed? 2 1 31 s
  if (Calendar.Date.mk year month day).isValid then some s else none

def time? (s : List Char) : Option (List Char) := do
  let (_, s) ← fixed? 2 0 23 s
  let s ← char? ':' s
  let (_, s) ← fixed? 2 0 59 s
  let s ← char? ':' s
  let (_, s) ← fixed? 2 0 60 s
  match s with
  | '.' :: rest => if (rest.takeWhile Char.isDigit).isEmpty then none else some (rest.dropWhile Char.isDigit)
  | s => some s

def zone? : List Char → Option (List Char)
  | c :: rest =>
    if c == 'Z' || c == 'z' then some rest
    else if c == '+' || c == '-' then do
      let (_, s) ← fixed? 2 0 23 rest
      let s ← char? ':' s
      let (_, s) ← fixed? 2 0 59 s
      some s
    else some (c :: rest)
  | [] => some []

/-- A date, a time of day, or both with or without an offset. -/
def moment? (s : List Char) : Option (Json × List Char) := do
  let rest ← match date? s with
    | some rest =>
      match rest with
      | c :: after =>
        if c == 'T' || c == 't' || c == ' ' then
          match time? after with
          | some after => zone? after
          | none => some rest
        else some rest
      | [] => some rest
    | none => time? s
  some (.members [("$moment", .text (.ofList (s.take (s.length - rest.length))))], rest)

/-- A value that holds no other. -/
def scalar? (s : List Char) : Option (Json × List Char) :=
  match s with
  | 't' :: 'r' :: 'u' :: 'e' :: rest => some (.bool true, rest)
  | 'f' :: 'a' :: 'l' :: 's' :: 'e' :: rest => some (.bool false, rest)
  | '"' :: _ | '\'' :: _ => (string? s).map fun (t, rest) => (.text t, rest)
  | s => (moment? s).or ((real? s).or (whole? s))

end ClaimQueue.Toml
