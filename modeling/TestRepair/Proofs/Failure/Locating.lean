import Mathlib.Data.List.Basic
import Mathlib.Data.Nat.Digits.Defs
import TestRepair.Failure.Diagnosis
import TestRepair.Proofs.Text.Advancing
import TestRepair.Proofs.Text.Lines

/-!
The mentions of source lines in a text: what one looks like, and that a scan which skips places finds
all that a scan of every place finds. The places that are skipped lie inside a run of path
characters, where the run has been refused from its beginning.
-/

namespace TestRepair
namespace SourceLine

open Text Recogniser

/-- The name of a source file as logs write it: path characters up to a source ending, and a drive in
front of them if there is one. -/
def FileName (file : List Char) : Prop :=
  ∃ letter p, (letter = [] ∨ ∃ a : Char, a.isAlpha = true ∧ letter = [a, ':']) ∧ file = letter ++ p ∧
    (∀ x ∈ p, isPathChar x = true) ∧ isSourcePath p = true

section Paths

variable {p : List Char} {c c' : Cursor} {u : Unit}

theorem isSourcePath_iff :
    isSourcePath p = true ↔ ∃ ext ∈ extensions, ∃ stem, stem ≠ [] ∧ p = stem ++ ext := by
  rw [isSourcePath, List.any_eq_true]
  apply exists_congr
  intro ext
  apply and_congr_right
  intro _
  constructor
  · intro h
    cases found : rest? ext.reverse p.reverse with
    | none => simp [found] at h
    | some back =>
        have reversed : p.reverse = ext.reverse ++ back := rest?_eq_some_iff.mp found
        refine ⟨back.reverse, by simpa [found] using h, ?_⟩
        rw [← List.reverse_reverse p, reversed, List.reverse_append, List.reverse_reverse]
  · rintro ⟨stem, ne, rfl⟩
    rw [List.reverse_append, rest?_append]
    simpa using ne

theorem isSourcePath_cons (x : Char) (h : isSourcePath p = true) : isSourcePath (x :: p) = true := by
  obtain ⟨ext, mem, stem, ne, rfl⟩ := isSourcePath_iff.mp h
  exact isSourcePath_iff.mpr ⟨ext, mem, x :: stem, List.cons_ne_nil x stem, rfl⟩

/-- A path to a source file has at least two characters, so it is no drive. -/
theorem exists_cons_cons (h : isSourcePath p = true) : ∃ x y s, p = x :: y :: s := by
  obtain ⟨ext, mem, stem, ne, rfl⟩ := isSourcePath_iff.mp h
  have dotted : ∀ ext ∈ extensions, ext ≠ [] := by decide
  obtain ⟨x, stem, rfl⟩ := List.exists_cons_of_ne_nil ne
  obtain ⟨y, ext, rfl⟩ := List.exists_cons_of_ne_nil (dotted _ mem)
  cases stem with
  | nil => exact ⟨x, y, ext, rfl⟩
  | cons z stem => exact ⟨x, z, stem ++ y :: ext, rfl⟩

theorem path_eq_some_iff : path c = some (u, c') ↔
    ∃ p, c.Spans p c' ∧ Ends isPathChar p c'.after ∧ isSourcePath p = true := by
  rw [path, bind_eq_some_iff]
  constructor
  · rintro ⟨p, c₁, read, h⟩
    split at h
    · next source =>
      cases h
      obtain ⟨span, ends⟩ := run_eq_some_iff.mp read
      exact ⟨p, span, ends, source⟩
    · cases h
  · rintro ⟨p, span, ends, source⟩
    refine ⟨p, c', run_eq_some_iff.mpr ⟨span, ends⟩, ?_⟩
    rw [if_pos source]
    rfl

theorem drive_eq_some_iff : drive c = some (u, c') ↔
    ∃ a : Char, a.isAlpha = true ∧ c.Spans [a, ':'] c' := by
  rw [drive, bind_eq_some_iff]
  constructor
  · rintro ⟨a, c₁, letter, colon⟩
    obtain ⟨alpha, span⟩ := one_eq_some_iff.mp letter
    exact ⟨a, alpha, span.trans (literal_eq_some_iff.mp colon)⟩
  · rintro ⟨a, alpha, span⟩
    refine ⟨a, ⟨a :: c.before, ':' :: c'.after⟩, one_eq_some_iff.mpr ⟨alpha, span.after, rfl⟩, ?_⟩
    exact literal_eq_some_iff.mpr ⟨rfl, span.before⟩

end Paths

/-- A mention of a source line, read wherever it stands. -/
def located : Recogniser (List Char × List Char) := do
  let file ← withText ((do drive; path) <|> path)
  literal [':']
  let digits ← run1 isDigit
  (do literal [':']; let _ ← run1 isDigit; pure ()) <|> pure ()
  pure (file, digits)

section Mentions

variable {c c' : Cursor} {file digits : List Char}

theorem fileName_of_read
    (h : withText ((do drive; path) <|> path) c = some (file, c')) :
    FileName file ∧ c.Spans file c' := by
  obtain ⟨u, read, text⟩ := withText_eq_some_iff.mp h
  rcases orElse_eq_some_iff.mp read with read | ⟨-, read⟩
  · obtain ⟨_, c₁, letter, rest⟩ := bind_eq_some_iff.mp read
    obtain ⟨a, alpha, first⟩ := drive_eq_some_iff.mp letter
    obtain ⟨p, second, ends, source⟩ := path_eq_some_iff.mp rest
    have span := first.trans second
    rw [span.textTo] at text
    exact ⟨⟨[a, ':'], p, .inr ⟨a, alpha, rfl⟩, text.symm, ends.all, source⟩, text ▸ span⟩
  · obtain ⟨p, span, ends, source⟩ := path_eq_some_iff.mp read
    rw [span.textTo] at text
    exact ⟨⟨[], p, .inl rfl, text.symm, ends.all, source⟩, text ▸ span⟩

theorem read_of_fileName (h : FileName file) (before rest : List Char) :
    withText ((do drive; path) <|> path) ⟨before, file ++ ':' :: rest⟩ =
      some (file, ⟨file.reverse ++ before, ':' :: rest⟩) := by
  obtain ⟨letter, p, drives, rfl, all, source⟩ := h
  have readPath (front : List Char) : path ⟨front, p ++ ':' :: rest⟩ =
      some ((), ⟨p.reverse ++ front, ':' :: rest⟩) :=
    path_eq_some_iff.mpr ⟨p, ⟨rfl, rfl⟩, ⟨all, by simp; decide⟩, source⟩
  have span : Cursor.Spans ⟨before, letter ++ p ++ ':' :: rest⟩ (letter ++ p)
      ⟨(letter ++ p).reverse ++ before, ':' :: rest⟩ := ⟨rfl, rfl⟩
  refine withText_of_spans (v := ()) ?_ span
  rcases drives with rfl | ⟨a, alpha, rfl⟩
  · -- A path has no colon for its second character, so no drive is read.
    have noDrive : drive ⟨before, p ++ ':' :: rest⟩ = none := by
      rw [Option.eq_none_iff_forall_ne_some]
      rintro ⟨u, c'⟩ read
      obtain ⟨a, -, span⟩ := drive_eq_some_iff.mp read
      obtain ⟨x, y, s, rfl⟩ := exists_cons_cons source
      have colon : y = ':' := (List.cons.inj (List.cons.inj span.after).2).1
      have inPath : isPathChar y = true := all y (by simp)
      rw [colon] at inPath
      exact absurd inPath (by decide)
    exact (orElse_of_none (bind_of_none noDrive)).trans (readPath before)
  · have letter : drive ⟨before, [a, ':'] ++ p ++ ':' :: rest⟩ =
        some ((), ⟨':' :: a :: before, p ++ ':' :: rest⟩) :=
      drive_eq_some_iff.mpr ⟨a, alpha, ⟨by simp, rfl⟩⟩
    apply orElse_of_some
    rw [bind_of_some letter, readPath]
    simp

/-- What a mention reads: the name of a file, a colon, digits, and possibly a column behind them. -/
theorem located_eq_some (h : located c = some ((file, digits), c')) :
    FileName file ∧ digits ≠ [] ∧ (∀ x ∈ digits, isDigit x = true) ∧
      ∃ column, c.Spans (file ++ ':' :: (digits ++ column)) c' ∧
        (∃ front d, digits ++ column = front ++ [d] ∧ isDigit d = true) ∧
        ∀ x ∈ c'.after.head?, isDigit x = false := by
  obtain ⟨file, c₁, named, h⟩ := bind_eq_some_iff.mp h
  obtain ⟨_, c₂, colon, h⟩ := bind_eq_some_iff.mp h
  obtain ⟨digits, c₃, number, h⟩ := bind_eq_some_iff.mp h
  obtain ⟨_, c₄, column, h⟩ := bind_eq_some_iff.mp h
  cases h
  obtain ⟨name, first⟩ := fileName_of_read named
  obtain ⟨ne, second, ends⟩ := run1_eq_some_iff.mp number
  have span := (first.trans (literal_eq_some_iff.mp colon)).trans second
  refine ⟨name, ne, ends.all, ?_⟩
  rcases orElse_eq_some_iff.mp column with column | ⟨-, column⟩
  · obtain ⟨_, c₅, colon, column⟩ := bind_eq_some_iff.mp column
    obtain ⟨more, c₆, number, column⟩ := bind_eq_some_iff.mp column
    cases column
    obtain ⟨ne', third, ends'⟩ := run1_eq_some_iff.mp number
    have whole := span.trans ((literal_eq_some_iff.mp colon).trans third)
    obtain ⟨front, d, rfl⟩ := (List.eq_nil_or_concat' more).resolve_left ne'
    exact ⟨':' :: (front ++ [d]), by simpa using whole,
      ⟨digits ++ ':' :: front, d, by simp, ends'.all d (by simp)⟩, ends'.stop⟩
  · cases column
    obtain ⟨front, d, rfl⟩ := (List.eq_nil_or_concat' digits).resolve_left ne
    exact ⟨[], by simpa using span, ⟨front, d, by simp, ends.all d (by simp)⟩, ends.stop⟩

theorem run1_cons {p : Char → Bool} {d : Char} (hd : p d = true) (before rest : List Char) :
    run1 p ⟨before, d :: rest⟩ = some (d :: rest.takeWhile p,
      ⟨(d :: rest.takeWhile p).reverse ++ before, rest.dropWhile p⟩) := by
  rw [run1_eq_some_iff]
  refine ⟨List.cons_ne_nil _ _, run_eq_some_iff.mp ?_⟩
  simp [run, hd]

theorem isSome_orElse_pure_bind {α β : Type} {r : Recogniser α} {a : α} {f : α → Recogniser β}
    (hf : ∀ v c, (f v c).isSome = true) : (((r <|> pure a) >>= f) c).isSome = true := by
  rw [isSome_bind_iff]
  cases read : r c with
  | none => exact ⟨a, c, orElse_of_none read, hf a c⟩
  | some found => exact ⟨found.1, found.2, orElse_of_some read, hf found.1 found.2⟩

theorem isSome_located (h : FileName file) {d : Char} (hd : isDigit d = true)
    (before rest : List Char) : (located ⟨before, file ++ ':' :: d :: rest⟩).isSome = true := by
  rw [located, isSome_bind_iff]
  refine ⟨file, _, read_of_fileName h before (d :: rest), ?_⟩
  rw [isSome_literal_bind_iff]
  refine ⟨d :: rest, rfl, ?_⟩
  rw [isSome_bind_iff]
  exact ⟨_, _, run1_cons hd _ rest, isSome_orElse_pure_bind fun _ _ => rfl⟩

end Mentions

section Skipping

variable {before s : List Char} {os : List (Occurrence (List Char × List Char))}

theorem consumes_located : Consumes located := by
  rintro c ⟨file, digits⟩ c' h
  obtain ⟨-, -, -, column, span, -⟩ := located_eq_some h
  exact ⟨_, by simp, span⟩

theorem mention_of_mayStart {c : Cursor} (h : mayStart c = true) : mention c = located c := by
  have start : require mayStart c = some ((), c) := by rw [require, if_pos h]
  exact bind_of_some start

theorem mention_of_located {c : Cursor} (h : located c = none) : mention c = none := by
  cases start : mayStart c with
  | true => rw [mention_of_mayStart start, h]
  | false =>
      have refused : require mayStart c = none := by
        rw [require, start]
        rfl
      exact bind_of_none refused

theorem consumes_mention : Consumes mention := by
  intro c v c' h
  cases read : located c with
  | none =>
      rw [mention_of_located read] at h
      cases h
  | some found =>
      have start : mayStart c = true := by
        by_contra refused
        have none : require mayStart c = none := by rw [require, if_neg refused]
        rw [mention, bind_of_none none] at h
        cases h
      rw [mention_of_mayStart start] at h
      exact consumes_located c v c' h

/-- A path character that a scan has passed: no mention starts at it, or it is the last digit of one. -/
def Passed (before s : List Char) : Prop :=
  ∀ x b, before = x :: b → isPathChar x = true →
    located ⟨b, x :: s⟩ = none ∨ isDigit x = true ∧ ∀ y ∈ s.head?, isDigit y = false

/-- What starts behind a path character that was passed starts with a drive, or behind digits. -/
theorem mayStart_of_passed (passed : Passed before s)
    (read : (located ⟨before, s⟩).isSome = true) : mayStart ⟨before, s⟩ = true := by
  obtain ⟨⟨⟨file, digits⟩, c'⟩, read⟩ := Option.isSome_iff_exists.mp read
  obtain ⟨⟨letter, p, drives, rfl, all, source⟩, ne, digit, column, span, -⟩ := located_eq_some read
  obtain ⟨d, digits, rfl⟩ := List.exists_cons_of_ne_nil ne
  have text : s = letter ++ p ++ ':' :: (d :: digits ++ column) ++ c'.after := span.after
  cases before with
  | nil => simp [mayStart]
  | cons x b =>
      cases hx : isPathChar x with
      | true =>
          rcases drives with rfl | ⟨a, -, rfl⟩
          · -- A path that starts here would have started at the character before.
            have longer : FileName (x :: p) :=
              ⟨[], x :: p, .inl rfl, rfl, List.forall_mem_cons.mpr ⟨hx, all⟩,
                isSourcePath_cons x source⟩
            have reads := isSome_located longer (digit d List.mem_cons_self) b
              (digits ++ column ++ c'.after)
            have same : x :: p ++ ':' :: d :: (digits ++ column ++ c'.after) = x :: s := by
              simp [text]
            rw [same] at reads
            rcases passed x b rfl hx with refused | ⟨last, next⟩
            · rw [refused] at reads
              cases reads
            · obtain ⟨y, z, p, rfl⟩ := exists_cons_cons source
              have other : isDigit y = false := next y (by simp [text])
              simp [mayStart, text, last, other]
          · simp [mayStart, text]
      | false => cases s <;> simp [mayStart, hx]

/-- Skipping places loses nothing. -/
theorem scans_mention (h : Scans located before s os) (passed : Passed before s) :
    Scans mention before s os := by
  induction h with
  | done before => exact .done before
  | @pass before s c os refused _ ih =>
      refine .pass (mention_of_located refused) (ih ?_)
      rintro x b ⟨rfl, rfl⟩ -
      exact .inl refused
  | @found before w s v os hw read _ ih =>
      have start := mayStart_of_passed passed (by rw [read]; rfl)
      refine .found hw (by rw [mention_of_mayStart start, read]) (ih ?_)
      obtain ⟨-, -, -, column, span, ⟨front, d, last, digit⟩, stop⟩ := located_eq_some read
      intro x b e _
      right
      have whole : w = v.1 ++ ':' :: (front ++ [d]) := by
        have text := span.after
        rw [last] at text
        exact List.append_cancel_right text
      rw [whole] at e
      obtain ⟨rfl, -⟩ : d = x ∧ _ := by simpa using e
      exact ⟨digit, stop⟩

theorem occurrences_mention (s : List Char) : mention.occurrences s = located.occurrences s := by
  have passed : Passed [] s := nofun
  exact (scans_occurrences consumes_mention s).unique
    (scans_mention (scans_occurrences consumes_located s) passed)

end Skipping

section Usable

variable {s file digits : List Char} {n line : UInt32} {l : SourceLine}

/-- The number that decimal digits denote, the last digit counting single. -/
def value (digits : List Char) : Nat :=
  Nat.ofDigits 10 (digits.reverse.map fun c => c.toNat - '0'.toNat)

theorem foldl_eq_value (digits : List Char) :
    digits.foldl (fun n c => 10 * n + (c.toNat - '0'.toNat)) 0 = value digits := by
  induction digits using List.reverseRecOn with
  | nil => rfl
  | append_singleton digits c ih =>
      rw [List.foldl_concat, ih, value, value, List.reverse_append, List.reverse_singleton,
        List.singleton_append, List.map_cons, Nat.ofDigits_cons, Nat.add_comm]

theorem lineNumber?_eq_some_iff : lineNumber? digits = some n ↔
    (∀ c ∈ digits, c.isDigit = true) ∧ value digits = n.toNat := by
  unfold lineNumber?
  split
  · next all =>
    simp only [foldl_eq_value, Option.ite_none_right_eq_some, Option.some.injEq]
    constructor
    · rintro ⟨fits, rfl⟩
      exact ⟨List.all_eq_true.mp all, (UInt32.toNat_ofNat_of_lt' fits).symm⟩
    · rintro ⟨-, same⟩
      rw [same]
      exact ⟨n.toNat_lt_size, UInt32.ofNat_toNat⟩
  · next other =>
    simp only [reduceCtorEq, false_iff]
    intro h
    exact other (List.all_eq_true.mpr h.1)

/-- A mention that counts: a scan finds it, and its ASCII digits denote a number of 32 bits. -/
def Usable (s : List Char) (l : SourceLine) : Prop :=
  ∃ o ∈ located.occurrences s, o.value.1 = l.file ∧ (∀ c ∈ o.value.2, c.isDigit = true) ∧
    value o.value.2 = l.line.toNat

theorem mem_all_iff : l ∈ all s ↔ Usable s l := by
  rw [all, occurrences_mention, List.mem_filterMap]
  apply exists_congr
  intro o
  apply and_congr_right
  intro _
  rw [← lineNumber?_eq_some_iff, Option.map_eq_some_iff]
  constructor
  · rintro ⟨n, number, rfl⟩
    exact ⟨rfl, number⟩
  · rintro ⟨file, number⟩
    exact ⟨l.line, number, by rw [file]⟩

/-- A text holds the name of a source file, a colon, and digits that denote the line. -/
def Cites (s file : List Char) (line : UInt32) : Prop :=
  FileName file ∧ ∃ digits, digits ≠ [] ∧ (∀ c ∈ digits, c.isDigit = true) ∧
    value digits = line.toNat ∧ file ++ ':' :: digits <:+: s

theorem Usable.cites (h : Usable s l) : Cites s l.file l.line := by
  obtain ⟨o, mem, file, all, number⟩ := h
  obtain ⟨x, y, rfl, place, read⟩ := mem_occurrences mem
  obtain ⟨name, ne, -, column, span, -⟩ := located_eq_some read
  rw [file] at name span
  refine ⟨name, o.value.2, ne, all, number, x, column ++ o.stop.after, ?_⟩
  have text : y = _ := place ▸ span.after
  rw [text]
  simp

theorem FileName.noNewline (h : FileName file) : '\n' ∉ file := by
  obtain ⟨letter, p, drives, rfl, all, -⟩ := h
  have plain : '\n' ∉ p := fun feed => absurd (all _ feed) (by decide)
  rcases drives with rfl | ⟨a, alpha, rfl⟩
  · exact plain
  · have other : '\n' ≠ a := by
      rintro rfl
      exact absurd alpha (by decide)
    simp [plain, other]

/-- What lines cite that are joined, each of them cites by itself. -/
theorem Cites.of_joinWith {ls : List (List Char)} (h : Cites (joinWith ['\n'] ls) file line)
    (sub : ∀ l ∈ ls, l <:+: s) : Cites s file line := by
  obtain ⟨name, digits, ne, all, number, inside⟩ := h
  have oneLine : '\n' ∉ file ++ ':' :: digits := by
    have plain : '\n' ∉ digits := fun feed => absurd (all _ feed) (by decide)
    simp [name.noNewline, plain]
  obtain ⟨l, mem, there⟩ := infix_joinWith oneLine (by simp) inside
  exact ⟨name, digits, ne, all, number, there.trans (sub l mem)⟩

theorem best?_eq_none_iff : best? s = none ↔ ∀ l, ¬Usable s l := by
  simp only [← mem_all_iff, ← List.eq_nil_iff_forall_not_mem, best?]
  cases all s <;> simp

/-- The best mention is one of a dependency only if there is no other. -/
theorem usable_of_best? (h : best? s = some l) :
    Usable s l ∧ (l.isDependency = true → ∀ l', Usable s l' → l'.isDependency = true) := by
  simp only [← mem_all_iff]
  unfold best? at h
  cases found : (all s).find? fun l => !l.isDependency with
  | some own =>
      rw [found] at h
      cases h
      refine ⟨List.mem_of_find?_eq_some found, ?_⟩
      intro dependency
      have project : (!l.isDependency) = true :=
        List.find?_some (p := fun l : SourceLine => !l.isDependency) found
      rw [dependency] at project
      cases project
  | none =>
      rw [found] at h
      refine ⟨List.mem_of_head? h, ?_⟩
      intro _ l' hl'
      simpa using List.find?_eq_none.mp found l' hl'

end Usable

end SourceLine
end TestRepair
