import TestRepair.Yaml.Scalar
import TestRepair.Yaml.Value

/-!
Reading one YAML document: block and flow collections, plain and quoted scalars, and comments. In
blocks the column of the first key or item fixes the block, and what lies deeper belongs to it. Each
call of a reader has a budget that bounds how many calls nest; the length of the text is enough.
-/

namespace TestRepair

namespace Yaml

mutual

/-- A scalar or a flow collection; a plain scalar outside brackets goes on over lines that are at
least `least` columns to the right. -/
def unit? (flow : Bool) (least : Nat) : (budget : Nat) → Spot → Option (Yaml × Spot)
  | 0, _ => none
  | n + 1, p =>
    if p.atEnd || p.atItem then none
    else
      match p.rest with
      | '[' :: _ => (flowItems? least n (p.advance 1)).map fun (ys, q) => (.sequence ys, q)
      | '\x7b' :: _ => (flowPairs? least n (p.advance 1)).map fun (es, q) => (.mapping es, q)
      | '\x27' :: rest =>
        (singleFrom 0 {} [] (p.column + 1) p.line rest).map fun (s, q) =>
          (.scalar false (String.ofList s), q)
      | '"' :: rest =>
        (doubleFrom 0 {} [] (p.column + 1) p.line rest).map fun (s, q) =>
          (.scalar false (String.ofList s), q)
      | _ => (plain? flow least p).map fun (s, q) => (.scalar true (String.ofList s), q)

/-- The value of a key between brackets, or nothing. -/
def flowValue? (least : Nat) : (budget : Nat) → Spot → Option (Yaml × Spot)
  | 0, _ => none
  | n + 1, p =>
    let p := p.skipInside
    match p.rest with
    | ',' :: _ | ']' :: _ | '\x7d' :: _ => some (.empty, p)
    | _ => unit? true least n p

/-- A unit between brackets and, behind a colon, the value that it is the key of. -/
def flowPair? (least : Nat) : (budget : Nat) → Spot → Option (Yaml × Option Yaml × Spot)
  | 0, _ => none
  | n + 1, p => do
    let (key, q) ← unit? true least n p
    let q := q.skipInside
    match q.rest with
    | ':' :: _ =>
      if p.spansKey q then
        let (value, r) ← flowValue? least n (q.advance 1)
        pure (key, some value, r)
      else none
    | _ => pure (key, none, q)

/-- What is left of a flow sequence before an item or its closing bracket. -/
def flowItems? (least : Nat) : (budget : Nat) → Spot → Option (List Yaml × Spot)
  | 0, _ => none
  | n + 1, p =>
    let p := p.skipInside
    match p.rest with
    | ']' :: _ => some ([], p.advance 1)
    | _ => do
      let (key, value, q) ← flowPair? least n p
      let item :=
        match value with
        | none => key
        | some v => .mapping [(key, v)]
      let q := q.skipInside
      match q.rest with
      | ',' :: _ => (flowItems? least n (q.advance 1)).map fun (ys, r) => (item :: ys, r)
      | ']' :: _ => pure ([item], q.advance 1)
      | _ => none

/-- What is left of a flow mapping before a key or its closing brace. -/
def flowPairs? (least : Nat) : (budget : Nat) → Spot → Option (List (Yaml × Yaml) × Spot)
  | 0, _ => none
  | n + 1, p =>
    let p := p.skipInside
    match p.rest with
    | '\x7d' :: _ => some ([], p.advance 1)
    | _ => do
      let (key, value, q) ← flowPair? least n p
      let entry := (key, value.getD .empty)
      let q := q.skipInside
      match q.rest with
      | ',' :: _ => (flowPairs? least n (q.advance 1)).map fun (es, r) => (entry :: es, r)
      | '\x7d' :: _ => pure ([entry], q.advance 1)
      | _ => none

end

mutual

/-- A block that is at least `least` columns to the right. A collection can begin only where nothing
else stands before it on the line but the marks of other blocks' items, which `fresh` says. -/
def block? (least : Nat) (fresh : Bool) : (budget : Nat) → Spot → Option (Yaml × Spot)
  | 0, _ => none
  | n + 1, p =>
    if p.atEnd || p.column < least then some (.empty, p)
    else if p.atItem then
      if fresh then (items? false p.column n p).map fun (ys, q) => (.sequence ys, q) else none
    else do
      let (v, q) ← unit? false least n p
      let q' := q.skipBlanks
      if q'.atValue && p.spansKey q' then
        if fresh then (pairs? p.column v n q').map fun (es, r) => (.mapping es, r) else none
      else pure (v, q)

/-- The items of a block sequence whose marks stand in a column, from one of the marks on. One that
is `flush` stands in the column of the keys around it, so it ends at the next key. -/
def items? (flush : Bool) (column : Nat) : (budget : Nat) → Spot → Option (List Yaml × Spot)
  | 0, _ => none
  | n + 1, p => do
    let (item, q) ← block? (column + 1) true n ((p.advance 1).skip false)
    let q := q.skip true
    if q.atEnd || q.column < column then pure ([item], q)
    else if column < q.column then none
    else if q.atItem then (items? flush column n q).map fun (ys, r) => (item :: ys, r)
    else if flush then pure ([item], q)
    else none

/-- The entries of a block mapping whose keys stand in a column, from the colon after a key on. -/
def pairs? (column : Nat) (key : Yaml) : (budget : Nat) → Spot → Option (List (Yaml × Yaml) × Spot)
  | 0, _ => none
  | n + 1, p => do
    let q := (p.advance 1).skip true
    let fresh := p.line < q.line
    let (value, q) ←
      if fresh && q.column == column && q.atItem && !q.atEnd then
        (items? true column n q).map fun (ys, r) => (Yaml.sequence ys, r)
      else block? (column + 1) fresh n q
    let q := q.skip true
    if q.atEnd || q.column < column then pure ([(key, value)], q)
    else if column < q.column then none
    else
      let (next, r) ← unit? false (column + 1) n q
      let r := r.skipBlanks
      if r.atValue && q.spansKey r then
        (pairs? column next n r).map fun (es, s) => ((key, value) :: es, s)
      else none

end

/-- A character that may stand in a document. -/
def isAllowed (c : Char) : Bool :=
  c == '\t' || c == '\n' || c == '\r' || c == '\u0085' ||
    (32 ≤ c.toNat && c.toNat ≤ 126) || (160 ≤ c.toNat && c.toNat ≤ 0xfffd) || 0x10000 ≤ c.toNat

/-- Writes every line break that does not separate paragraphs as a line feed. -/
def unifyBreaks : List Char → List Char
  | [] => []
  | '\r' :: '\n' :: rest => '\n' :: unifyBreaks rest
  | c :: rest => (if c == '\r' || c == '\u0085' then '\n' else c) :: unifyBreaks rest

/-- The end of a document: nothing but comments may follow it. -/
def endsText (p : Spot) : Bool :=
  let p := p.skip true
  let p := if isDocumentMark p.column p.rest && isMark endMark p.rest then (p.advance 3).skip true else p
  p.rest.isEmpty

/-- The value of the only document in a text; a text without one has the empty value. -/
def read? (text : String) : Option Yaml := do
  let s := text.toList
  if s.all isAllowed then
    let s := unifyBreaks s
    let p := Spot.skip false ⟨s, 0, 0⟩
    let marked := p.column == 0 && isMark startMark p.rest
    if !marked && !p.rest.isEmpty && p.atEnd then none
    else
      let q := if marked then (p.advance 3).skip true else p
      let (v, r) ← block? 0 (!marked || p.line < q.line) (2 * s.length + 2) q
      if endsText r then pure v else none
  else none

end Yaml

end TestRepair
