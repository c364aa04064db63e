/-
  ClaimQueue.Message.Id — identities of messages and of workers.

  A message id is a UUID: 128 bits, written hyphenated in lower case, and read hyphenated
  (bare, in braces or after `urn:uuid:`) or as 32 digits, in either case. A worker id
  names one worker session: process, nonce and index, joined by hyphens.
-/

import ClaimQueue.Text.Hex

namespace ClaimQueue

/-- Identity of a message. -/
structure MessageId where
  bits : BitVec 128
  deriving DecidableEq, Repr

namespace MessageId

def nil : MessageId := ⟨0⟩

instance : Inhabited MessageId := ⟨nil⟩

/-- The id with the random bits of `n`: version 4, variant 1. -/
def random (n : Nat) : MessageId :=
  ⟨BitVec.ofNat 48 (n >>> 74) ++ 4#4 ++ BitVec.ofNat 12 (n >>> 62) ++ 2#2 ++ BitVec.ofNat 62 n⟩

def version (id : MessageId) : Nat := (id.bits >>> 76).toNat % 16

/-- The text with hyphens after 8, 12, 16 and 20 digits. -/
def hyphenate (s : List Char) : List Char :=
  s.take 8 ++ '-' :: (s.drop 8).take 4 ++ '-' :: (s.drop 12).take 4 ++ '-' :: (s.drop 16).take 4 ++
    '-' :: s.drop 20

def toText (id : MessageId) : String := String.ofList (hyphenate (Hex.digits 32 id.bits.toNat))

instance : ToString MessageId := ⟨toText⟩

def ofDigits? (s : List Char) : Option MessageId :=
  if s.length = 32 then (Hex.value? s).map fun n => ⟨.ofNat 128 n⟩ else none

def ofHyphenated? (s : List Char) : Option MessageId :=
  let digits := s.take 8 ++ (s.drop 9).take 4 ++ (s.drop 14).take 4 ++ (s.drop 19).take 4 ++ s.drop 24
  if s.length = 36 ∧ hyphenate digits = s then ofDigits? digits else none

def urn : List Char := "urn:uuid:".toList

def ofText? (text : String) : Option MessageId :=
  match text.toList with
  | '{' :: rest => if rest.getLast? = some '}' then ofHyphenated? rest.dropLast else none
  | s =>
    if s.length = 32 then ofDigits? s
    else if (s.take urn.length).map Char.toLower = urn then ofHyphenated? (s.drop urn.length)
    else ofHyphenated? s

end MessageId

/-- Identity of a worker session. -/
structure WorkerId where
  text : String
  deriving DecidableEq, Repr, Inhabited

namespace WorkerId

instance : ToString WorkerId := ⟨text⟩

/-- The session of worker `index` in process `process`; `nonce` tells sessions apart. -/
def generate (process nonce index : Nat) : WorkerId :=
  ⟨toString process ++ "-" ++ String.ofList (Hex.digits 8 nonce) ++ "-" ++ toString index⟩

end WorkerId

end ClaimQueue
