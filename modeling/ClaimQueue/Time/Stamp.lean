/-
  ClaimQueue.Time.Stamp — instants as text, in the profile of RFC 3339.

  Written in UTC with a `Z` and a fraction of 0, 3, 6 or 9 digits, the fewest that are
  exact; years outside 0 to 9999 carry a sign. Read more freely: a sign lets a year have
  any number of digits, the other numbers may drop leading zeros, blanks may stand
  between the parts, a blank may replace the `T`, and any offset below a day is taken.
  A fraction is cut after nine digits. Every minute may have a second 60.
-/

import ClaimQueue.Text.Blank
import ClaimQueue.Time.Calendar
import ClaimQueue.Time.Instant

namespace ClaimQueue.Stamp

/-! ## Writing -/

def pad (width n : Nat) : List Char := (Nat.toDigits 10 n).leftpad width '0'

def yearText (year : Int) : List Char :=
  if 0 ≤ year ∧ year ≤ 9999 then pad 4 year.toNat
  else (if year < 0 then '-' else '+') :: pad 4 year.natAbs

def fractionText (nanos : Nat) : List Char :=
  if nanos == 0 then []
  else if nanos % 1_000_000 == 0 then '.' :: pad 3 (nanos / 1_000_000)
  else if nanos % 1_000 == 0 then '.' :: pad 6 (nanos / 1_000)
  else '.' :: pad 9 nanos

def write (t : Instant) : String :=
  let inserted : Nat := if t.leap then 1 else 0
  let second := t.nanos / 1_000_000_000 - inserted
  let date := Calendar.dateOf (second / 86400)
  let clock := (second % 86400).toNat
  String.ofList <|
    yearText date.year ++ '-' :: pad 2 date.month ++ '-' :: pad 2 date.day ++
      'T' :: pad 2 (clock / 3600) ++ ':' :: pad 2 (clock / 60 % 60) ++ ':' :: pad 2 (clock % 60 + inserted) ++
      fractionText (t.nanos % 1_000_000_000).toNat ++ ['Z']

/-! ## Reading -/

abbrev Rest := List Char

/-- At least one digit and at most `most`. -/
def number? (most : Nat) (s : List Char) : Option (Nat × Rest) :=
  match (s.take most).takeWhile Char.isDigit with
  | [] => none
  | digits => some (digits.foldl (fun n c => n * 10 + (c.toNat - '0'.toNat)) 0, s.drop digits.length)

/-- A number below `limit` after optional blanks. -/
def field? (most limit : Nat) (s : List Char) : Option (Nat × Rest) := do
  let (n, rest) ← number? most (skipBlank s)
  if n < limit then some (n, rest) else none

def mark? (c : Char) (s : List Char) : Option Rest :=
  match skipBlank s with
  | d :: rest => if c = d then some rest else none
  | [] => none

/-- Four digits at most, or a sign and any number of digits. -/
def year? (s : List Char) : Option (Int × Rest) :=
  match skipBlank s with
  | '-' :: rest => (number? rest.length rest).map fun (n, rest) => (-(n : Int), rest)
  | '+' :: rest => (number? rest.length rest).map fun (n, rest) => ((n : Int), rest)
  | rest => (number? 4 rest).map fun (n, rest) => ((n : Int), rest)

def date? (s : List Char) : Option (Calendar.Date × Rest) := do
  let (year, s) ← year? s
  let s ← mark? '-' s
  let (month, s) ← field? 2 13 s
  let s ← mark? '-' s
  let (day, s) ← field? 2 32 s
  let date : Calendar.Date := ⟨year, month, day⟩
  if date.isValid then some (date, s) else none

/-- Nanoseconds after an optional point. -/
def fraction? : List Char → Option (Nat × Rest)
  | '.' :: s => do
    let (n, rest) ← number? 9 s
    some (n * Nat.pow 10 (9 - (s.length - rest.length)), rest.dropWhile Char.isDigit)
  | s => some (0, s)

/-- Nanoseconds from the start of a day, and whether the second is an inserted one. -/
def clock? (s : List Char) : Option (Nat × Bool × Rest) := do
  let (hour, s) ← field? 2 24 s
  let s ← mark? ':' s
  let (minute, s) ← field? 2 60 s
  let s ← mark? ':' s
  let (second, s) ← field? 2 61 s
  let (nanos, s) ← fraction? s
  some (((hour * 60 + minute) * 60 + second) * 1_000_000_000 + nanos, second == 60, s)

def twoDigits? : List Char → Option (Nat × Rest)
  | a :: b :: rest =>
    if a.isDigit && b.isDigit then some ((a.toNat - 48) * 10 + (b.toNat - 48), rest) else none
  | _ => none

/-- Seconds east of UTC. -/
def offset? (s : List Char) : Option (Int × Rest) :=
  let signed (sign : Int) (s : List Char) : Option (Int × Rest) := do
    let (hours, s) ← twoDigits? s
    let (minutes, s) ← twoDigits? (s.dropWhile fun c => c == ':' || isBlank c)
    if hours < 24 ∧ minutes < 60 then some (sign * ((hours * 60 + minutes) * 60 : Nat), s) else none
  match skipBlank s with
  | u :: t :: c :: rest =>
    if u.toUpper == 'U' && t.toUpper == 'T' && c.toUpper == 'C' then some (0, rest)
    else if u == 'Z' || u == 'z' then some (0, t :: c :: rest)
    else if u == '+' then signed 1 (t :: c :: rest)
    else if u == '-' || u == '−' then signed (-1) (t :: c :: rest)
    else none
  | u :: rest => if u == 'Z' || u == 'z' then some (0, rest) else none
  | [] => none

def read? (text : String) : Option Instant := do
  let (date, s) ← date? text.toList
  let s ← match s with
    | c :: rest => if c == 'T' || c == 't' || c == ' ' then some rest else none
    | [] => none
  let (clock, leap, s) ← clock? s
  let (east, s) ← offset? s
  if (skipBlank s).isEmpty then
    let local_ ← Instant.ofNanos? (date.number * 86_400_000_000_000 + clock)
    (Instant.ofNanos? (local_.nanos - east * 1_000_000_000)).map ({ · with leap })
  else none

end ClaimQueue.Stamp
