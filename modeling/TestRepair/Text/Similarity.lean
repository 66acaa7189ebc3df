/-!
How alike two texts are, between zero and one: the Jaro measure, raised for texts that begin alike.
The operations keep their order because the last bits of a score decide between close candidates.
-/

namespace TestRepair.Text

/-- Marks the first free `c` at a position from `lo` to below `hi` as taken. -/
def take? (c : Char) (lo hi : Nat) : (pos : Nat) → List (Char × Bool) → Option (List (Char × Bool))
  | _, [] => none
  | pos, (d, taken) :: s =>
    if hi ≤ pos then none
    else if lo ≤ pos && c == d && !taken then some ((d, true) :: s)
    else (take? c lo hi (pos + 1) s).map ((d, taken) :: ·)

/-- Pairs the characters of a text with free equal ones that stand at most `range` away. Gives the
characters that found a partner, and the marked partners. -/
def pairUp (range : Nat) : (pos : Nat) → List Char → List (Char × Bool) →
    List Char × List (Char × Bool)
  | _, [], marks => ([], marks)
  | pos, c :: s, marks =>
    match take? c (pos - range) (pos + range + 1) 0 marks with
    | some marks =>
      let (paired, marks) := pairUp range (pos + 1) s marks
      (c :: paired, marks)
    | none => pairUp range (pos + 1) s marks

def jaro (a b : List Char) : Float :=
  if a.isEmpty && b.isEmpty then 1
  else if a.isEmpty || b.isEmpty then 0
  else
    let range := max a.length b.length / 2 - 1
    let (paired, marks) := pairUp range 0 a (b.map (·, false))
    let partners := (marks.filter (·.2)).map (·.1)
    if paired.isEmpty then 0
    else
      let swapped := ((paired.zip partners).filter fun p => p.1 != p.2).length / 2
      let m := paired.length.toFloat
      (m / a.length.toFloat + m / b.length.toFloat + (paired.length - swapped).toFloat / m) / 3

/-- How many characters the texts begin with in common, four at most. -/
def commonStart (a b : List Char) : Nat :=
  (((a.take 4).zip b).takeWhile fun p => p.1 == p.2).length

/-- The Jaro measure, raised by a common beginning when it is high already. -/
def similarity (a b : List Char) : Float :=
  let sim := jaro a b
  if sim > 0.7 then sim + 0.1 * (commonStart a b).toFloat * (1 - sim) else sim

end TestRepair.Text
