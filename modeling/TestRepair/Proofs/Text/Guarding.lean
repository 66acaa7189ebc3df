import TestRepair.Proofs.Text.Escaping
import TestRepair.Proofs.Text.Overlapping

/-!
Which quotes of a text are escaped. All quotes of a literal are, but the last one, and this is what
keeps two literals from sharing more than a quote. A step between literals that agree on it changes it
nowhere, and any other step changes it where it swaps first.
-/

namespace TestRepair.Text

open List (replicate)

variable {q : Char} {x y : List Char}

/-- For each quote `q` of a text whether it is escaped, that is, whether the run of backslashes before
it is odd. `odd` tells this of the run before the text. -/
def guards (q : Char) (odd : Bool) : List Char → List Bool
  | [] => []
  | c :: s => if c = q then odd :: guards q false s else guards q (c == '\\' && !odd) s

@[simp]
theorem guards_nil (q : Char) (odd : Bool) : guards q odd [] = [] := rfl

@[simp]
theorem guards_quote (q : Char) (odd : Bool) (s : List Char) :
    guards q odd (q :: s) = odd :: guards q false s := by simp [guards]

theorem length_guards (q : Char) (odd : Bool) (s : List Char) :
    (guards q odd s).length = s.count q := by
  induction s generalizing odd with
  | nil => rfl
  | cons c s ih =>
    rw [guards]
    split
    · next quote => simp [quote, ih]
    · next other => rw [ih, List.count_cons_of_ne other]

/-- Nothing in front of a quote tells whether the quotes behind it are escaped. -/
theorem guards_append (odd : Bool) (s t : List Char) :
    guards q odd (s ++ q :: t) = guards q odd (s ++ [q]) ++ guards q false t := by
  induction s generalizing odd with
  | nil => simp
  | cons c s ih =>
    rw [List.cons_append, List.cons_append, guards, guards]
    split
    · rw [ih, List.cons_append]
    · exact ih _

theorem guards_framed (odd : Bool) (x s : List Char) : guards q odd (q :: x ++ [q] ++ s) =
    odd :: (guards q false (x ++ [q]) ++ guards q false s) := by
  rw [List.append_assoc, List.cons_append, guards_quote]
  exact congrArg (odd :: ·) (guards_append false x s)

/-- In a literal all quotes are escaped but the last one. -/
theorem guards_escapeFor (hq : q ≠ '\\') (s : List Char) :
    guards q false (escapeFor q s ++ [q]) = replicate (s.count q) true ++ [false] := by
  induction s with
  | nil => simp
  | cons c s ih =>
    by_cases hc : c = '\\'
    · subst hc
      simpa [guards, hq.symm] using ih
    by_cases hcq : c = q
    · subst hcq
      simpa [escapeFor_quote hc, guards, hq.symm, List.replicate_succ] using ih
    · have plain : (c == '\\') = false := by simpa using hc
      simpa [escapeFor_cons hc hcq, guards, plain, hcq, List.count_cons_of_ne hcq] using ih

/-- A step between literals that agree on which quotes are escaped changes this nowhere. -/
theorem guards_replaceAll (same : guards q false (x ++ [q]) = guards q false (y ++ [q])) (odd : Bool)
    (s : List Char) :
    guards q odd (replaceAll (q :: x ++ [q]) (q :: y ++ [q]) s) = guards q odd s := by
  have proper : q :: x ++ [q] ≠ [] := List.cons_ne_nil _ _
  induction s using replaceAll_induction proper generalizing odd with
  | nil => simp
  | found s ih => rw [replaceAll_append proper, guards_framed, guards_framed, ih, same]
  | kept c s missed ih => rw [replaceAll_cons missed, guards, ih, ih, guards]

/-- A step that changes nowhere which quotes are escaped is between literals that agree on it. -/
theorem guards_eq_of_replaceAll (count : x.count q = y.count q) (odd : Bool) {s : List Char}
    (found : q :: x ++ [q] <:+: s)
    (h : guards q odd (replaceAll (q :: x ++ [q]) (q :: y ++ [q]) s) = guards q odd s) :
    guards q false (x ++ [q]) = guards q false (y ++ [q]) := by
  have proper : q :: x ++ [q] ≠ [] := List.cons_ne_nil _ _
  induction s using replaceAll_induction proper generalizing odd with
  | nil => exact absurd (List.eq_nil_of_infix_nil found) proper
  | found s =>
    rw [replaceAll_append proper, guards_framed, guards_framed] at h
    refine (List.append_inj_left (List.cons.inj h).2 ?_).symm
    simp [length_guards, count]
  | kept c s missed ih =>
    have rest := (List.infix_cons_iff.mp found).resolve_left missed
    rw [replaceAll_cons missed, guards, guards] at h
    split at h
    · exact ih false rest (List.cons.inj h).2
    · exact ih _ rest h

/-- Where all quotes of two contents are escaped alike, but the closing one, no end of one content
begins the other one. -/
theorem detached_of_guards {n : Nat} (hx : guards q false (x ++ [q]) = replicate n true ++ [false])
    (hy : guards q false (y ++ [q]) = replicate n true ++ [false]) : Detached q x y := by
  intro z v ne split pre
  obtain ⟨v, c, rfl⟩ := (List.eq_nil_or_concat' v).resolve_left ne
  obtain rfl : q = c := by
    rw [← List.cons_append, ← List.append_assoc] at split
    exact (List.cons.inj (List.append_inj_right' split rfl)).1
  obtain ⟨r, whole⟩ := pre
  rw [split, guards_append] at hx
  rw [← whole, List.append_assoc, List.singleton_append, guards_append] at hy
  have suffix : guards q false (v ++ [q]) <:+ replicate n true ++ [false] := ⟨_, hx⟩
  have last : false ∈ guards q false (v ++ [q]) := by
    rcases List.suffix_concat_iff.mp suffix with empty | ⟨t, inside, -⟩
    · have count := length_guards q false (v ++ [q])
      simp [empty] at count
    · simp [inside]
  rcases List.prefix_concat_iff.mp ⟨_, hy⟩ with same | inside
  · have none := List.append_left_eq_self.mp (same ▸ hx)
    have count := length_guards q false (z ++ [q])
    simp [none] at count
  · exact absurd (List.eq_of_mem_replicate (inside.mem last)) Bool.false_ne_true

end TestRepair.Text
