/-
  ClaimQueue.Toml.Document — documents of TOML 1.0.

  A document builds a tree of tables line by line. A table is made by its header, on the
  way to a header, or by dotted keys, and that decides who may add to it: a header may
  take over only a table made on the way, dotted keys may extend only tables made by
  dotted keys, and no name is given twice.
-/

import ClaimQueue.Toml.Scalar

namespace ClaimQueue.Toml

/-- How a table came to be. -/
inductive Origin where
  /-- By its own header. -/
  | header
  /-- On the way to a header. -/
  | path
  /-- By dotted keys. -/
  | dotted
  deriving DecidableEq, Repr

inductive Node where
  /-- A value; nothing can be added to it. -/
  | value (j : Json)
  | table (origin : Origin) (entries : List (String × Node))
  /-- Tables of one header in double brackets. -/
  | tables (items : List (List (String × Node)))
  deriving Inhabited

abbrev Entries := List (String × Node)

mutual

def Node.toJson : Node → Json
  | .value j => j
  | .table _ entries => .object (entriesJson entries)
  | .tables items => .list (itemsJson items)

def entriesJson : List (String × Node) → List (String × Json)
  | [] => []
  | (k, n) :: rest => (k, n.toJson) :: entriesJson rest

def itemsJson : List (List (String × Node)) → List Json
  | [] => []
  | es :: rest => .object (entriesJson es) :: itemsJson rest

end

/-! ## Building -/

def replace (k : String) (n : Node) (es : Entries) : Entries :=
  es.map fun e => if e.1 = k then (k, n) else e

/-- Change the table at the end of `path`, making the tables on the way. -/
def within (dotted : Bool) (path : List String) (f : Origin → Entries → Option Entries)
    (origin : Origin) (es : Entries) : Option Entries :=
  match path with
  | [] => f origin es
  | k :: path =>
    match es.lookup k with
    | none => do
      let origin := if dotted then .dotted else .path
      let sub ← within dotted path f origin []
      some (es ++ [(k, .table origin sub)])
    | some (.value _) => none
    | some (.tables items) => do
      let last ← items.getLast?
      let sub ← within dotted path f .header last
      some (replace k (.tables (items.dropLast ++ [sub])) es)
    | some (.table origin sub) =>
      if dotted ∧ origin = .header then none
      else do
        let sub ← within dotted path f origin sub
        some (replace k (.table origin sub) es)

/-- Give the dotted key `path`.`k` a value. -/
def assign (path : List String) (k : String) (n : Node) (es : Entries) : Option Entries :=
  within true path (fun origin es =>
    if decide (origin = .dotted) == path.isEmpty then none
    else if (es.lookup k).isSome then none
    else some (es ++ [(k, n)])) .header es

/-- The tables so far, and the one that lines go into. -/
structure Builder where
  root : Entries := []
  path : List String := []
  many : Bool := false
  current : Entries := []

namespace Builder

/-- Put the current table into its place. -/
def close (b : Builder) : Option Entries :=
  match b.path.getLast? with
  | none => some b.current
  | some k =>
    within false b.path.dropLast (fun _ es =>
      match es.lookup k, b.many with
      | none, true => some (es ++ [(k, .tables [b.current])])
      | some (.tables items), true => some (replace k (.tables (items ++ [b.current])) es)
      | none, false => some (es ++ [(k, .table .header b.current)])
      | _, _ => none) .header b.root

/-- Start the table of a header. -/
def start (b : Builder) (path : List String) (many : Bool) : Option Builder := do
  let root ← b.close
  if many then some { root, path, many }
  else
    let k ← path.getLast?
    -- the content of a table made on the way goes to its header
    let (root, current) ← take path.dropLast k root
    some { root, path, current }
where
  take (path : List String) (k : String) (es : Entries) : Option (Entries × Entries) := do
    let found ← peek path k es
    match found with
    | none => some (es, [])
    | some (.table .path sub) =>
      (within false path (fun _ es => some (es.filter (·.1 != k))) .header es).map (·, sub)
    | some _ => none
  peek (path : List String) (k : String) (es : Entries) : Option (Option Node) :=
    match path with
    | [] => some (es.lookup k)
    | p :: path =>
      match es.lookup p with
      | none => some none
      | some (.value _) => none
      | some (.tables items) => items.getLast?.bind (peek path k)
      | some (.table _ sub) => peek path k sub

def assign (b : Builder) (path : List String) (k : String) (j : Json) : Option Builder :=
  (Toml.assign path k (.value j) b.current).map fun current => { b with current }

end Builder

/-! ## Reading -/

def isBare (c : Char) : Bool := c.isAlphanum || c == '_' || c == '-'

def simpleKey? : Read String
  | '"' :: rest => (basic? (rest.length + 1) rest).map fun (cs, rest) => (.ofList cs, rest)
  | '\'' :: rest => (literal? rest).map fun (cs, rest) => (.ofList cs, rest)
  | s => if (s.takeWhile isBare).isEmpty then none else some (.ofList (s.takeWhile isBare), s.dropWhile isBare)

/-- Names with points between them, and the blanks around. -/
def key? (fuel : Nat) (s : List Char) : Option (List String × List Char) :=
  match fuel with
  | 0 => none
  | fuel + 1 => do
    let (k, rest) ← simpleKey? (skipWs s)
    match skipWs rest with
    | '.' :: rest => (key? fuel rest).map fun (ks, rest) => (k :: ks, rest)
    | rest => some ([k], rest)

/-- Tables, lists and keys nest less deep than this. -/
def depthLimit : Nat := 80

/-- Blanks, line ends and comments between the items of a list. -/
def skipGaps (fuel : Nat) (s : List Char) : List Char :=
  match fuel with
  | 0 => s
  | fuel + 1 =>
    let s := skipComment (skipWs s)
    match newline? s with
    | some rest => skipGaps fuel rest
    | none => s

mutual

def value? (fuel depth : Nat) (s : List Char) : Option (Json × List Char) :=
  match fuel with
  | 0 => none
  | fuel + 1 =>
    match s with
    | '[' :: rest =>
      if depth + 1 < depthLimit then (items? fuel (depth + 1) rest).map fun (js, rest) => (.list js, rest)
      else none
    | '{' :: rest =>
      if depth + 1 < depthLimit then
        match skipWs rest with
        | '}' :: rest => some (.members [], rest)
        | rest => (pairs? fuel (depth + 1) [] rest).map fun (es, rest) => (.object (entriesJson es), rest)
      else none
    | s => scalar? s

/-- Items up to the closing bracket; a comma may stand after the last. -/
def items? (fuel depth : Nat) (s : List Char) : Option (List Json × List Char) :=
  match fuel with
  | 0 => none
  | fuel + 1 =>
    match skipGaps s.length s with
    | ']' :: rest => some ([], rest)
    | s => do
      let (j, rest) ← value? fuel depth s
      match skipGaps rest.length rest with
      | ',' :: rest => (items? fuel depth rest).map fun (js, rest) => (j :: js, rest)
      | ']' :: rest => some ([j], rest)
      | _ => none

/-- Pairs up to the closing brace, on one line. -/
def pairs? (fuel depth : Nat) (es : Entries) (s : List Char) : Option (Entries × List Char) :=
  match fuel with
  | 0 => none
  | fuel + 1 => do
    let (ks, rest) ← key? depthLimit s
    let k ← ks.getLast?
    let rest ← char? '=' rest
    let (j, rest) ← value? fuel depth (skipWs rest)
    let es ← if ks.length < depthLimit then assign ks.dropLast k (.value j) es else none
    match skipWs rest with
    | ',' :: rest => pairs? fuel depth es rest
    | '}' :: rest => some (es, rest)
    | _ => none

end

/-- The end of a line: blanks, a comment. -/
def lineEnd? (s : List Char) : Option (List Char) :=
  match skipComment (skipWs s) with
  | [] => some []
  | s => newline? s

def header? (s : List Char) : Option (List String × Bool × List Char) :=
  match s with
  | '[' :: '[' :: rest => do
    let (ks, rest) ← key? depthLimit rest
    match rest with
    | ']' :: ']' :: rest => (lineEnd? rest).map (ks, true, ·)
    | _ => none
  | '[' :: rest => do
    let (ks, rest) ← key? depthLimit rest
    match rest with
    | ']' :: rest => (lineEnd? rest).map (ks, false, ·)
    | _ => none
  | _ => none

/-- Read line by line; every line is shorter than what is left. -/
def lines? (fuel : Nat) (b : Builder) (s : List Char) : Option Builder :=
  match fuel with
  | 0 => none
  | fuel + 1 =>
    match skipWs s with
    | [] => some b
    | '#' :: rest => (lineEnd? ('#' :: rest)).bind (lines? fuel b)
    | '[' :: rest => do
      let (ks, many, rest) ← header? ('[' :: rest)
      let b ← if ks.length < depthLimit then b.start ks many else none
      lines? fuel b rest
    | '\n' :: rest => lines? fuel b rest
    | '\r' :: '\n' :: rest => lines? fuel b rest
    | s => do
      let (ks, rest) ← key? depthLimit s
      let k ← ks.getLast?
      let rest ← char? '=' rest
      let (j, rest) ← value? (2 * rest.length + 2) 0 (skipWs rest)
      let b ← if ks.length < depthLimit then b.assign ks.dropLast k j else none
      let rest ← lineEnd? rest
      lines? fuel b rest

/-- The table that a document describes. A byte order mark in front is skipped. -/
def read? (text : String) : Option Json := do
  let s := match text.toList with
    | '\ufeff' :: rest => rest
    | s => s
  let b ← lines? (s.length + 1) {} s
  let root ← b.close
  some (.object (entriesJson root))

end ClaimQueue.Toml
