import TestRepair.Proofs.Text.Replacing
import TestRepair.Text.Literal

/-!
Literals give back what was written into them. Escapes are undone one kind after the other, so a
backslash that stands for itself can be taken for the escape of a quote behind it. What saves the
text is that this shortens a run of backslashes by one at most before the last step halves the run,
and halving rounds up.
-/

namespace TestRepair.Text

open List (replicate)

section Unescape

variable {c d : Char}

theorem unescapeChar_escaped (c : Char) (s : List Char) :
    unescapeChar c ('\\' :: c :: s) = c :: unescapeChar c s :=
  replaceAll_append (by simp : ['\\', c] ≠ []) [c] s

theorem unescapeChar_cons (h : d ≠ '\\') (s : List Char) :
    unescapeChar c (d :: s) = d :: unescapeChar c s :=
  replaceAll_cons (fun p => h (List.cons_prefix_cons.mp p).1.symm) [c]

theorem unescapeChar_backslash {s : List Char} (h : s.head? ≠ some c) :
    unescapeChar c ('\\' :: s) = '\\' :: unescapeChar c s := by
  refine replaceAll_cons (fun p => h ?_) [c]
  obtain ⟨_, rfl⟩ := (List.cons_prefix_cons.mp p).2
  rfl

@[simp]
theorem unescapeChar_nil (c : Char) : unescapeChar c [] = [] := replaceAll_nil _ _

theorem head?_unescapeChar {s : List Char} (h : s.head? ≠ some '\\') :
    (unescapeChar c s).head? = s.head? := by
  cases s with
  | nil => simp
  | cons d s => simp [unescapeChar_cons (show d ≠ '\\' from fun e => h (by simp [e]))]

/-- A quote behind a run of backslashes takes the last of them. -/
theorem unescapeChar_run (hc : c ≠ '\\') {s : List Char} (h : s.head? ≠ some '\\') (k : Nat) :
    unescapeChar c (replicate k '\\' ++ s) =
      replicate (if s.head? = some c then k - 1 else k) '\\' ++ unescapeChar c s := by
  induction k with
  | zero => simp
  | succ k ih =>
    cases k with
    | zero =>
      by_cases hs : s.head? = some c
      · obtain ⟨t, rfl⟩ := List.head?_eq_some_iff.mp hs
        simpa [unescapeChar_cons hc] using unescapeChar_escaped c t
      · simpa [hs] using unescapeChar_backslash hs
    | succ k =>
      have more : (replicate (k + 1) '\\' ++ s).head? ≠ some c := by
        simpa [List.replicate_succ] using hc.symm
      rw [List.replicate_succ, List.cons_append, unescapeChar_backslash more, ih]
      split <;> simp [List.replicate_succ]

/-- The last step halves a run. -/
theorem unescapeChar_halves {s : List Char} (h : s.head? ≠ some '\\') :
    (k : Nat) → unescapeChar '\\' (replicate k '\\' ++ s) =
      replicate ((k + 1) / 2) '\\' ++ unescapeChar '\\' s
  | 0 => by simp
  | 1 => by simpa using unescapeChar_backslash h
  | k + 2 => by
    have halved : (k + 2 + 1) / 2 = (k + 1) / 2 + 1 := by omega
    simp only [List.replicate_succ, List.cons_append, halved]
    rw [unescapeChar_escaped, unescapeChar_halves h k]

theorem unescape_cons (h : d ≠ '\\') (s : List Char) : unescape (d :: s) = d :: unescape s := by
  simp [unescape, unescapeChar_cons h]

/-- What is left of a run of backslashes: a quote behind it costs one before the rest is halved. -/
theorem unescape_run {s : List Char} (h : s.head? ≠ some '\\') (k : Nat) :
    unescape (replicate k '\\' ++ s) =
      replicate (((if s.head? = some '\x27' ∨ s.head? = some '"' then k - 1 else k) + 1) / 2) '\\' ++
        unescape s := by
  have single : (unescapeChar '\x27' s).head? = s.head? := head?_unescapeChar h
  have double : (unescapeChar '"' (unescapeChar '\x27' s)).head? = s.head? := by
    rw [head?_unescapeChar (by rwa [single]), single]
  rw [unescape, unescapeChar_run (by decide) h, unescapeChar_run (by decide) (by rwa [single]),
    unescapeChar_halves (by rwa [double]), single, ← unescape]
  by_cases hs : s.head? = some '\x27' <;> simp [hs]

end Unescape

section Escape

variable {q : Char}

@[simp]
theorem escapeFor_nil (q : Char) : escapeFor q [] = [] := rfl

@[simp]
theorem escapeFor_backslash (q : Char) (s : List Char) :
    escapeFor q ('\\' :: s) = '\\' :: '\\' :: escapeFor q s := rfl

theorem escapeFor_quote (hq : q ≠ '\\') (s : List Char) :
    escapeFor q (q :: s) = '\\' :: q :: escapeFor q s := by simp [escapeFor, hq]

theorem escapeFor_cons {c : Char} (hc : c ≠ '\\') (hq : c ≠ q) (s : List Char) :
    escapeFor q (c :: s) = c :: escapeFor q s := by simp [escapeFor, hc, hq]

/-- Backslashes that stand for themselves come in pairs. -/
theorem pairs_escapeFor_backslash (q : Char) (s : List Char) (n : Nat) :
    replicate (2 * n) '\\' ++ escapeFor q ('\\' :: s) =
      replicate (2 * (n + 1)) '\\' ++ escapeFor q s := by
  simp [Nat.mul_succ, List.replicate_succ']

theorem pairs_escapeFor_quote (hq : q ≠ '\\') (s : List Char) (n : Nat) :
    replicate (2 * n) '\\' ++ escapeFor q (q :: s) =
      replicate (2 * n + 1) '\\' ++ q :: escapeFor q s := by
  simp [escapeFor_quote hq, List.replicate_succ']

theorem escapeFor_cons_ne_nil (q c : Char) (s : List Char) : escapeFor q (c :: s) ≠ [] := by
  simp only [escapeFor, List.flatMap_cons]
  grind

theorem escapeFor_cons_inj {c d : Char} {s t : List Char}
    (h : escapeFor q (c :: s) = escapeFor q (d :: t)) : c = d ∧ escapeFor q s = escapeFor q t := by
  simp only [escapeFor, List.flatMap_cons] at h ⊢
  grind

theorem escapeFor_injective (q : Char) : Function.Injective (escapeFor q) := by
  intro s
  induction s with
  | nil =>
    rintro (_ | ⟨d, t⟩) h
    · rfl
    · exact absurd h.symm (escapeFor_cons_ne_nil q d t)
  | cons c s ih =>
    rintro (_ | ⟨d, t⟩) h
    · exact absurd h (escapeFor_cons_ne_nil q c s)
    · obtain ⟨rfl, rest⟩ := escapeFor_cons_inj h
      rw [ih rest]

theorem literalOf_injective (q : Char) : Function.Injective (literalOf q) := fun _ _ h =>
  escapeFor_injective q (List.append_cancel_right (List.cons.inj h).2)

theorem escapeFor_eq_or_mem (q : Char) (s : List Char) : escapeFor q s = s ∨ '\\' ∈ escapeFor q s := by
  induction s with
  | nil => exact .inl rfl
  | cons c s ih =>
    simp only [escapeFor, List.flatMap_cons] at ih ⊢
    grind

theorem mem_escapeFor {c : Char} {s : List Char} (h : c ∈ escapeFor q s) : c ∈ s ∨ c = '\\' := by
  simp only [escapeFor, List.mem_flatMap] at h
  grind

/-- Induction on the text, with the backslashes met last still unread: they come in pairs. -/
theorem unescape_pairs_escapeFor (hq : q = '\x27' ∨ q = '"') (s : List Char) (n : Nat) :
    unescape (replicate (2 * n) '\\' ++ escapeFor q s) = replicate n '\\' ++ s := by
  induction s generalizing n with
  | nil =>
    rw [escapeFor_nil, unescape_run (by simp)]
    simp [show (2 * n + 1) / 2 = n by omega, unescape]
  | cons c s ih =>
    have rest : unescape (escapeFor q s) = s := by simpa using ih 0
    by_cases hc : c = '\\'
    · subst hc
      rw [pairs_escapeFor_backslash, ih, List.replicate_succ', List.append_assoc, List.singleton_append]
    by_cases hcq : c = q
    · subst hcq
      have kept : (2 * n + 1) / 2 = n := by omega
      rw [pairs_escapeFor_quote hc, unescape_run (by simpa using hc), unescape_cons hc, rest]
      rcases hq with rfl | rfl <;> simp [kept]
    · rw [escapeFor_cons hc hcq, unescape_run (by simpa using hc), unescape_cons hc, rest]
      split <;> congr 2 <;> omega

/-- Undoing escapes gives back the text, for both quotes that logs use. -/
theorem unescape_escapeFor (hq : q = '\x27' ∨ q = '"') (s : List Char) :
    unescape (escapeFor q s) = s := by
  simpa using unescape_pairs_escapeFor hq s 0

theorem literalBody?_quote (hq : q ≠ '\\') (s : List Char) :
    literalBody? q (q :: s) = some ([], s) := by
  cases s <;> simp [literalBody?, hq]

theorem literalBody?_cons {c : Char} (hc : c ≠ '\\') (hq : c ≠ q) (s : List Char) :
    literalBody? q (c :: s) = (literalBody? q s).map fun (body, rest) => (c :: body, rest) := by
  cases s <;> simp [literalBody?, hc, hq]

theorem literalBody?_escaped {c : Char} (hc : c ≠ '\n') (s : List Char) :
    literalBody? q ('\\' :: c :: s) =
      (literalBody? q s).map fun (body, rest) => ('\\' :: c :: body, rest) := by
  simp [literalBody?, hc]

/-- A literal ends at its own closing quote, whatever was written into it. -/
theorem literalBody?_escapeFor (hq : q ≠ '\\') (hn : q ≠ '\n') (s rest : List Char) :
    literalBody? q (escapeFor q s ++ q :: rest) = some (escapeFor q s, rest) := by
  induction s with
  | nil => exact literalBody?_quote hq rest
  | cons c s ih =>
    by_cases hc : c = '\\'
    · subst hc
      simp [literalBody?_escaped (q := q) (show '\\' ≠ '\n' by decide), ih]
    by_cases hcq : c = q
    · subst hcq
      simp [escapeFor_quote hc, literalBody?_escaped hn, ih]
    · simp [escapeFor_cons hc hcq, literalBody?_cons hc hcq, ih]

end Escape

section UnescapeQuotes

variable {q c d : Char}

theorem unescapeQuotes_cons (h : d ≠ '\\') (s : List Char) :
    unescapeQuotes (d :: s) = d :: unescapeQuotes s := by
  simp [unescapeQuotes, unescapeChar_cons h]

/-- A quote of any kind behind a run of backslashes costs one of them. The others all stay. -/
theorem unescapeQuotes_run {s : List Char} (h : s.head? ≠ some '\\') (k : Nat) :
    unescapeQuotes (replicate k '\\' ++ s) =
      replicate (if s.head?.any quotes.contains then k - 1 else k) '\\' ++ unescapeQuotes s := by
  have single : (unescapeChar '\x27' s).head? = s.head? := head?_unescapeChar h
  have double : (unescapeChar '"' (unescapeChar '\x27' s)).head? = s.head? := by
    rw [head?_unescapeChar (by rwa [single]), single]
  rw [unescapeQuotes, unescapeChar_run (by decide) h, unescapeChar_run (by decide) (by rwa [single]),
    unescapeChar_run (by decide) (by rwa [double]), double, single, ← unescapeQuotes]
  cases hs : s.head? with
  | none => simp
  | some c =>
    by_cases h₁ : c = '\x27'
    · simp [h₁, quotes]
    by_cases h₂ : c = '"'
    · simp [h₂, quotes]
    by_cases h₃ : c = '\x60' <;> simp [h₁, h₂, h₃, quotes]

/-- Every backslash is the escape of a quote other than `q`. -/
def EscapesOnly (q : Char) (s : List Char) : Prop :=
  ∀ t, '\\' :: t <:+ s → ∃ c ∈ quotes, c ≠ q ∧ t.head? = some c

@[simp]
theorem escapesOnly_nil (q : Char) : EscapesOnly q [] := fun _ h => by simp at h

theorem escapesOnly_cons {s : List Char} (h : c ≠ '\\') :
    EscapesOnly q (c :: s) ↔ EscapesOnly q s := by
  simp [EscapesOnly, List.suffix_cons_iff, h.symm]

theorem escapesOnly_backslash {s : List Char} : EscapesOnly q ('\\' :: s) ↔
    (∃ c ∈ quotes, c ≠ q ∧ s.head? = some c) ∧ EscapesOnly q s := by
  simp [EscapesOnly, List.suffix_cons_iff, or_imp, forall_and]

theorem escapesOnly_run (s : List Char) (n : Nat) :
    EscapesOnly q (replicate n '\\' ++ s) ↔
      (n = 0 ∨ n = 1 ∧ ∃ c ∈ quotes, c ≠ q ∧ s.head? = some c) ∧ EscapesOnly q s := by
  match n with
  | 0 => simp
  | 1 => simp [escapesOnly_backslash]
  | n + 2 =>
    have plain : '\\' ∉ quotes := by decide
    have more : ¬∃ c ∈ quotes, c ≠ q ∧ (replicate (n + 1) '\\' ++ s).head? = some c := by
      rintro ⟨c, hc, -, first⟩
      have same : '\\' = c := by simpa [List.replicate_succ] using first
      exact plain (same ▸ hc)
    rw [List.replicate_succ, List.cons_append, escapesOnly_backslash]
    exact iff_of_false (fun k => more k.1) fun k => by omega

theorem run_inj {s t : List Char} (hs : s.head? ≠ some '\\') (ht : t.head? ≠ some '\\')
    {i j : Nat} : replicate i '\\' ++ s = replicate j '\\' ++ t ↔ i = j ∧ s = t := by
  induction i generalizing j with
  | zero =>
    cases j with
    | zero => simp
    | succ j =>
      have differ : s ≠ '\\' :: (replicate j '\\' ++ t) := fun e => hs (by rw [e]; rfl)
      simpa [List.replicate_succ] using differ
  | succ i ih =>
    cases j with
    | zero =>
      have differ : '\\' :: (replicate i '\\' ++ s) ≠ t := fun e => ht (by rw [← e]; rfl)
      simpa [List.replicate_succ] using differ
    | succ j => simp [List.replicate_succ, ih]

/-- Induction on the text, with the backslashes met last still unread. -/
theorem unescapeQuotes_pairs_iff (hq : q ∈ quotes) (s : List Char) (n : Nat) :
    unescapeQuotes (replicate (2 * n) '\\' ++ escapeFor q s) = replicate n '\\' ++ s ↔
      EscapesOnly q (replicate n '\\' ++ s) := by
  induction s generalizing n with
  | nil =>
    rw [escapeFor_nil, unescapeQuotes_run (by simp), escapesOnly_run]
    have none : 2 * n = n ↔ n = 0 := by omega
    simpa [unescapeQuotes] using none
  | cons c s ih =>
    have rest : unescapeQuotes (escapeFor q s) = s ↔ EscapesOnly q s := by simpa using ih 0
    by_cases hc : c = '\\'
    · subst hc
      have run : replicate n '\\' ++ '\\' :: s = replicate (n + 1) '\\' ++ s := by
        simp [List.replicate_succ']
      rw [pairs_escapeFor_backslash, run]
      exact ih (n + 1)
    have first (t : List Char) : (c :: t).head? ≠ some '\\' := by simpa using hc
    rw [escapesOnly_run, escapesOnly_cons hc]
    by_cases hcq : c = q
    · subst hcq
      rw [pairs_escapeFor_quote hc, unescapeQuotes_run (first _), unescapeQuotes_cons hc,
        run_inj (first _) (first _), List.cons_inj_right]
      refine and_congr ?_ rest
      have none : 2 * n = n ↔ n = 0 := by omega
      simpa [hq] using none
    · rw [escapeFor_cons hc hcq, unescapeQuotes_run (first _), unescapeQuotes_cons hc,
        run_inj (first _) (first _), List.cons_inj_right]
      refine and_congr ?_ rest
      by_cases quote : c ∈ quotes
      · have one : 2 * n - 1 = n ↔ n = 0 ∨ n = 1 := by omega
        simpa [quote, hcq] using one
      · have none : 2 * n = n ↔ n = 0 := by omega
        simpa [quote] using none

/-- Undoing the escapes of quotes gives back the text exactly if all of its backslashes are escapes
of other quotes. -/
theorem unescapeQuotes_escapeFor_iff (hq : q ∈ quotes) (s : List Char) :
    unescapeQuotes (escapeFor q s) = s ↔ EscapesOnly q s := by
  simpa using unescapeQuotes_pairs_iff hq s 0

end UnescapeQuotes

end TestRepair.Text
