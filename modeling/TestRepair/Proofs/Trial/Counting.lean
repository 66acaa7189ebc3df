import Mathlib.Data.List.Basic
import TestRepair.Proofs.Text.Rewriting
import TestRepair.Trial.Skipped

/-!
The lines of a log that count tests. The blanks in front of a count may take in whole lines, but the
count, the word and the end of the word stand on one line, and that line alone begins with blanks and
the count. So a log of complete lines is judged by which lines it has and not by their order, however
the two streams of a runner were put together.
-/

namespace TestRepair.TestCount

open Text

variable {word l s : List Char}

/-- The text begins with a count of tests with the word: blanks, decimal digits, one space and the
word, which ends there. -/
def Counts (word s : List Char) : Prop :=
  ∃ blanks count rest, s = blanks ++ (count ++ ' ' :: (word ++ rest)) ∧ Blank blanks ∧
    count ≠ [] ∧ (∀ c ∈ count, isDigit c = true) ∧ Apart rest

/-- A word as it stands behind a count. -/
structure IsWordText (word : List Char) : Prop where
  ne_nil : word ≠ []
  all : ∀ c ∈ word, isWord c = true

theorem newline_notMem (ink : ∀ c ∈ s, isBlank c = false) : '\n' ∉ s := by
  intro h
  exact absurd (ink _ h) (by decide)

/-- Behind the word there is a boundary if nothing goes on with it. -/
theorem IsWordText.atBoundary_iff (hw : IsWordText word) {before rest : List Char} :
    Cursor.atBoundary ⟨(' ' :: word).reverse ++ before, rest⟩ = true ↔ Apart rest := by
  obtain ⟨front, x, rfl⟩ := word.eq_nil_or_concat'.resolve_left hw.ne_nil
  have last : isWord x = true := hw.all x (by simp)
  have edge : Cursor.atBoundary ⟨x :: (front.reverse ++ ' ' :: before), rest⟩ = true ↔ Apart rest :=
    atBoundary_of_before last
  simpa using edge

theorem isDigit_space : isDigit ' ' = false := by decide

theorem isSome_counts_iff (hw : IsWordText word) {before after : List Char} :
    (counts word ⟨before, after⟩).isSome = true ↔
      atLineStart ⟨before, after⟩ = true ∧ Counts word after := by
  unfold counts
  rw [Recogniser.isSome_bind_iff]
  constructor
  · rintro ⟨_, c₀, start, h⟩
    obtain ⟨first, rfl⟩ := Recogniser.require_eq_some_iff.mp start
    refine ⟨first, ?_⟩
    obtain ⟨blanks, c₁, read, h⟩ := Recogniser.isSome_bind_iff.mp h
    obtain ⟨front, blank⟩ := Recogniser.run_eq_some_iff.mp read
    obtain ⟨count, c₂, read, h⟩ := Recogniser.isSome_bind_iff.mp h
    obtain ⟨ne, middle, digits⟩ := Recogniser.run1_eq_some_iff.mp read
    obtain ⟨rest, behind, h⟩ := Recogniser.isSome_literal_bind_iff.mp h
    have apart := hw.atBoundary_iff.mp (Recogniser.isSome_boundary_iff.mp h)
    refine ⟨blanks, count, rest, ?_, blank.all, ne, digits.all, apart⟩
    rw [show after = blanks ++ c₁.after from front.after, middle.after, behind, List.cons_append]
  · rintro ⟨start, blanks, count, rest, rfl, blank, ne, digits, apart⟩
    obtain ⟨d, count, rfl⟩ := List.exists_cons_of_ne_nil ne
    have ink : isBlank d = false := isBlank_of_isDigit (digits d List.mem_cons_self)
    have stop : Ends isDigit (d :: count) (' ' :: (word ++ rest)) :=
      ⟨digits, by simp [isDigit_space]⟩
    refine ⟨(), _, Recogniser.require_eq_some_iff.mpr ⟨start, rfl⟩, ?_⟩
    refine Recogniser.isSome_bind_iff.mpr ⟨blanks,
      ⟨blanks.reverse ++ before, d :: count ++ ' ' :: (word ++ rest)⟩,
      Recogniser.run_eq_some_iff.mpr ⟨⟨rfl, rfl⟩, blank.ends ink⟩, ?_⟩
    refine Recogniser.isSome_bind_iff.mpr ⟨d :: count,
      ⟨(d :: count).reverse ++ (blanks.reverse ++ before), ' ' :: (word ++ rest)⟩,
      Recogniser.run1_eq_some_iff.mpr ⟨ne, ⟨rfl, rfl⟩, stop⟩, ?_⟩
    refine Recogniser.isSome_literal_bind_iff.mpr ⟨rest, rfl, ?_⟩
    exact Recogniser.isSome_boundary_iff.mpr (hw.atBoundary_iff.mpr apart)

theorem not_counts_nil : ¬Counts word [] := by
  rintro ⟨blanks, count, rest, split, -⟩
  simp at split

/-- A text that does not hold the line feed ends before the first one. -/
theorem exists_rest_of_notMem {w rest : List Char} (hw : '\n' ∉ w)
    (h : l ++ '\n' :: s = w ++ rest) : ∃ rest', l = w ++ rest' ∧ rest = rest' ++ '\n' :: s := by
  obtain ⟨inner, rfl, tail⟩ | ⟨inner, rfl, tail⟩ := List.append_eq_append_iff.mp h
  · cases inner with
    | nil => exact ⟨[], by simp, by simpa using tail.symm⟩
    | cons c inner =>
        obtain ⟨rfl, -⟩ := List.cons.inj tail
        simp at hw
  · exact ⟨inner, rfl, tail⟩

/-- Where a text begins with a count, its first line does, or that line is blank and the text behind
it begins with a count. -/
theorem counts_append_newline (hw : IsWordText word) (hl : '\n' ∉ l) :
    Counts word (l ++ '\n' :: s) ↔ Counts word l ∨ Blank l ∧ Counts word s := by
  constructor
  · rintro ⟨blanks, count, rest, split, blank, ne, digits, apart⟩
    have number : '\n' ∉ count := newline_notMem fun c hc => isBlank_of_isDigit (digits c hc)
    have named : '\n' ∉ word := newline_notMem fun c hc => isBlank_of_isWord (hw.all c hc)
    have solid : '\n' ∉ count ++ ' ' :: word := by simp [number, named]
    obtain ⟨inner, rfl, tail⟩ | ⟨inner, rfl, tail⟩ := List.append_eq_append_iff.mp split
    · right
      have blank' : Blank l := fun x hx => blank x (List.mem_append_left _ hx)
      cases inner with
      | nil =>
          -- The count itself would begin with the line feed.
          obtain ⟨d, count, rfl⟩ := List.exists_cons_of_ne_nil ne
          obtain ⟨rfl, -⟩ := List.cons.inj tail
          simp at solid
      | cons c inner =>
          obtain ⟨rfl, rfl⟩ := List.cons.inj tail
          refine ⟨blank', inner, count, rest, rfl, ?_, ne, digits, apart⟩
          exact fun x hx => blank x (by simp [hx])
    · left
      rw [← List.cons_append, ← List.append_assoc] at tail
      obtain ⟨rest', rfl, rfl⟩ := exists_rest_of_notMem solid tail.symm
      refine ⟨blanks, count, rest', by simp, blank, ne, digits, ?_⟩
      intro c hc
      exact apart c (by simp [List.head?_append, Option.mem_def.mp hc])
  · rintro (⟨blanks, count, rest, rfl, blank, ne, digits, apart⟩ |
      ⟨blank', blanks, count, rest, rfl, blank, ne, digits, apart⟩)
    · refine ⟨blanks, count, rest ++ '\n' :: s, by simp, blank, ne, digits, ?_⟩
      cases rest with
      | nil => exact apart_cons.mpr (by decide)
      | cons c rest => exact apart
    · refine ⟨l ++ '\n' :: blanks, count, rest, by simp, ?_, ne, digits, apart⟩
      have feed : isBlank '\n' = true := by decide
      intro x hx
      obtain front | rfl | back : x ∈ l ∨ x = '\n' ∨ x ∈ blanks := by simpa using hx
      · exact blank' x front
      · exact feed
      · exact blank x back

/-- A count stands somewhere in the text, at the beginning of a line. -/
def CountsSomewhere (word s : List Char) : Prop :=
  ∃ x y, s = x ++ y ∧ (∀ c ∈ x.getLast?, c = '\n') ∧ Counts word y

theorem isCounted_iff (hw : IsWordText word) : isCounted word s = true ↔ CountsSomewhere word s := by
  rw [isCounted, Recogniser.occursIn_iff_exists]
  simp only [isSome_counts_iff hw, atLineStart, List.head?_reverse, Option.all_eq_true, beq_iff_eq]
  rfl

theorem not_countsSomewhere_nil : ¬CountsSomewhere word [] := by
  rintro ⟨x, y, split, -, h⟩
  obtain ⟨rfl, rfl⟩ := List.append_eq_nil_iff.mp split.symm
  exact not_counts_nil h

theorem countsSomewhere_append_newline (hw : IsWordText word) (hl : '\n' ∉ l) :
    CountsSomewhere word (l ++ '\n' :: s) ↔ Counts word l ∨ CountsSomewhere word s := by
  constructor
  · rintro ⟨x, y, split, start, h⟩
    obtain rfl | ⟨front, c, rfl⟩ := x.eq_nil_or_concat'
    · rw [List.nil_append] at split
      rw [← split, counts_append_newline hw hl] at h
      exact h.imp id fun h => ⟨[], s, rfl, nofun, h.2⟩
    · obtain rfl : c = '\n' := start c (by simp)
      right
      rw [List.append_assoc, List.singleton_append] at split
      obtain ⟨front', rfl, tail⟩ := exists_rest_of_notMem hl split.symm
      cases front' with
      | nil =>
          obtain ⟨-, rfl⟩ := List.cons.inj tail
          exact ⟨[], s, rfl, nofun, h⟩
      | cons d front' =>
          obtain ⟨-, rfl⟩ := List.cons.inj tail
          exact ⟨front' ++ ['\n'], y, by simp, by simp, h⟩
  · rintro (h | ⟨x, y, rfl, start, h⟩)
    · exact ⟨[], _, rfl, nofun, (counts_append_newline hw hl).mpr (.inl h)⟩
    · refine ⟨l ++ '\n' :: x, y, by simp, ?_, h⟩
      intro c hc
      cases x with
      | nil => simpa using hc.symm
      | cons d x => exact start c (by simpa [List.getLast?_append] using hc)

/-- The log of some lines, each with its line feed. -/
def logOf (lines : List String) : String := String.join (lines.map (· ++ "\n"))

theorem toList_logOf_cons (line : String) (lines : List String) :
    (logOf (line :: lines)).toList = line.toList ++ '\n' :: (logOf lines).toList := by
  simp [logOf]

theorem isCounted_logOf (hw : IsWordText word) {lines : List String}
    (whole : ∀ line ∈ lines, '\n' ∉ line.toList) :
    isCounted word (logOf lines).toList = true ↔ ∃ line ∈ lines, Counts word line.toList := by
  rw [isCounted_iff hw]
  induction lines with
  | nil => simpa [logOf] using not_countsSomewhere_nil
  | cons line lines ih =>
      have rest := ih fun line' h => whole line' (List.mem_cons_of_mem _ h)
      rw [toList_logOf_cons, countsSomewhere_append_newline hw (whole line List.mem_cons_self), rest]
      simp

/-- A log of complete lines counts only skipped tests if one of its lines begins with a count of
skipped tests and none with a count of passed ones, whichever way the lines are ordered. -/
theorem onlySkipped_of_perm {lines lines' : List String}
    (whole : ∀ line ∈ lines, '\n' ∉ line.toList) (order : lines'.Perm lines) :
    onlySkipped (logOf lines') = onlySkipped (logOf lines) ∧
      (onlySkipped (logOf lines) = true ↔
        (∃ line ∈ lines, Counts "skipped".toList line.toList) ∧
          ∀ line ∈ lines, ¬Counts "passed".toList line.toList) := by
  have skipped : IsWordText "skipped".toList := ⟨by decide, List.all_eq_true.mp (by decide)⟩
  have passed : IsWordText "passed".toList := ⟨by decide, List.all_eq_true.mp (by decide)⟩
  have verdict {lines : List String} (whole : ∀ line ∈ lines, '\n' ∉ line.toList) :
      onlySkipped (logOf lines) = true ↔
        (∃ line ∈ lines, Counts "skipped".toList line.toList) ∧
          ∀ line ∈ lines, ¬Counts "passed".toList line.toList := by
    rw [onlySkipped, Bool.and_eq_true, Bool.not_eq_true', isCounted_logOf skipped whole,
      ← Bool.not_eq_true, isCounted_logOf passed whole]
    simp
  refine ⟨?_, verdict whole⟩
  have whole' : ∀ line ∈ lines', '\n' ∉ line.toList := fun line h => whole line (order.mem_iff.mp h)
  rw [Bool.eq_iff_iff, verdict whole, verdict whole']
  simp only [order.mem_iff]

/-- The blank line belongs to no count where it is the last one, and to the count of the next line
where it is not. -/
theorem onlySkipped_blank_line_moved :
    (∀ line ∈ ["", " 2 skipped"], '\n' ∉ line.toList) ∧
      [" 2 skipped", ""].Perm ["", " 2 skipped"] ∧
      onlySkipped (logOf [" 2 skipped", ""]) = true ∧
      onlySkipped (logOf [" 2 skipped", ""]) = onlySkipped (logOf ["", " 2 skipped"]) := by
  have whole : ∀ line ∈ ["", " 2 skipped"], '\n' ∉ line.toList := by decide
  have order : [" 2 skipped", ""].Perm ["", " 2 skipped"] := .swap ..
  exact ⟨whole, order, by decide +kernel, (onlySkipped_of_perm whole order).1⟩

end TestRepair.TestCount
