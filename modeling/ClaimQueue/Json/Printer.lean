/-
  ClaimQueue.Json.Printer — JSON values as compact text.

  Only quotes, backslashes and characters below U+0020 are escaped. A double is written
  with its shortest digits: positional, with a point, while that point falls at most 16
  places after the first digit and at most 5 before it; else with an exponent, without
  plus sign. A double that is no number is written `null`.
-/

import ClaimQueue.Decimal.Shortest
import ClaimQueue.Json.Value
import ClaimQueue.Text.Hex

namespace ClaimQueue.Json

/-! ## Text -/

def escape (c : Char) : List Char :=
  if c = '"' then ['\\', '"']
  else if c = '\\' then ['\\', '\\']
  else if c = '\n' then ['\\', 'n']
  else if c = '\r' then ['\\', 'r']
  else if c = '\t' then ['\\', 't']
  else if c = '\x08' then ['\\', 'b']
  else if c = '\x0c' then ['\\', 'f']
  else if c.toNat < 0x20 then '\\' :: 'u' :: Hex.digits 4 c.toNat
  else [c]

def quote (s : String) : List Char := '"' :: s.toList.flatMap escape ++ ['"']

/-! ## Doubles -/

/-- How a double is laid out. -/
structure RealLayout where
  /-- The point stands at most this many places after the first digit. -/
  mostWhole : Int
  /-- At most this many zeros between the point and the first digit, less one. -/
  mostZeros : Int

def realLayout : RealLayout := ⟨16, 5⟩

def layOut (layout : RealLayout) (d : Decimal.Scientific) : List Char :=
  let digits := Nat.toDigits 10 d.digits
  let count : Int := digits.length
  let point := count + d.exponent
  if 0 ≤ d.exponent ∧ point ≤ layout.mostWhole then
    digits ++ List.replicate d.exponent.toNat '0' ++ ['.', '0']
  else if 0 < point ∧ point ≤ layout.mostWhole then
    digits.take point.toNat ++ '.' :: digits.drop point.toNat
  else if -layout.mostZeros < point ∧ point ≤ 0 then
    '0' :: '.' :: List.replicate (-point).toNat '0' ++ digits
  else
    let mantissa := match digits with
      | [d] => [d]
      | d :: rest => d :: '.' :: rest
      | [] => []
    mantissa ++ 'e' :: (toString (point - 1)).toList

def printReal (x : Float) : List Char :=
  if x.isNaN || x.isInf then "null".toList
  else
    let bits := x.toBits
    let sign := if bits >>> 63 = 1 then ['-'] else []
    let b := Decimal.Binary.ofBits bits
    if b.mantissa = 0 then sign ++ ['0', '.', '0'] else sign ++ layOut realLayout (Decimal.shortest b)

/-! ## Values -/

mutual

def chars : Json → List Char
  | .null => "null".toList
  | .bool true => "true".toList
  | .bool false => "false".toList
  | .whole n => (toString n).toList
  | .real x => printReal x
  | .text s => quote s
  | .list items => '[' :: itemChars items ++ [']']
  | .members entries => '{' :: memberChars entries ++ ['}']

def itemChars : List Json → List Char
  | [] => []
  | [j] => chars j
  | j :: rest => chars j ++ ',' :: itemChars rest

def memberChars : List (String × Json) → List Char
  | [] => []
  | [(k, j)] => quote k ++ ':' :: chars j
  | (k, j) :: rest => quote k ++ ':' :: (chars j ++ ',' :: memberChars rest)

end

/-- The compact text of a value. -/
def print (j : Json) : String := String.ofList (chars j)

end ClaimQueue.Json
