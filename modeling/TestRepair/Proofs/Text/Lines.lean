import Mathlib.Data.List.Induction
import TestRepair.Proofs.Text.Replacing
import TestRepair.Proofs.Text.Splitting
import TestRepair.Text.Lines

/-!
Where the lines of a text stand in it. The line on which a place lies has the number of line feeds
before that place; it holds whatever follows there up to the next line feed, but for the carriage
return that belongs to the end of the line.
-/

namespace TestRepair.Text

theorem dropReturn_cases (s : List Char) : s = dropReturn s ∨ s = dropReturn s ++ ['\r'] := by
  cases h : front? ['\r'] s with
  | none =>
      left
      rw [dropReturn, h, Option.getD_none]
  | some front =>
      right
      rw [dropReturn, h, Option.getD_some]
      exact front?_eq_some_iff.mp h

theorem prefix_dropReturn (s : List Char) : dropReturn s <+: s := by
  cases dropReturn_cases s with
  | inl h => exact h ▸ List.prefix_rfl
  | inr h => exact ⟨_, h.symm⟩

theorem dropReturn_concat (s : List Char) : dropReturn (s ++ ['\r']) = s := by
  simp [dropReturn, front?, rest?]

/-- A part of a line loses no more than a carriage return at its own end. -/
theorem dropReturn_infix {u s : List Char} (h : u <:+: s) : dropReturn u <:+: dropReturn s := by
  have kept : dropReturn u <:+: u := (prefix_dropReturn u).isInfix
  obtain ⟨a, b, split⟩ := h
  cases dropReturn_cases s with
  | inl whole => exact whole ▸ kept.trans ⟨a, b, split⟩
  | inr cut =>
      rw [cut] at split
      cases b using List.reverseRecOn with
      | nil =>
          cases u using List.reverseRecOn with
          | nil => exact List.nil_infix
          | append_singleton u c =>
              rw [List.append_nil, ← List.append_assoc] at split
              obtain ⟨front, last⟩ := List.append_inj' split rfl
              cases last
              rw [dropReturn_concat]
              exact front ▸ (List.suffix_append a u).isInfix
      | append_singleton b c =>
          rw [← List.append_assoc] at split
          exact kept.trans ⟨a, b, (List.append_inj' split rfl).1⟩

theorem lines_of_notMem {s : List Char} (h : '\n' ∉ s) (ne : s ≠ []) : lines s = [s] := by
  rw [lines, splitAtChar_of_notMem h]
  simp [linesOfPieces, ne]

theorem lines_append_newline {p : List Char} (h : '\n' ∉ p) (s : List Char) :
    lines (p ++ '\n' :: s) = dropReturn p :: lines s := by
  rw [lines, lines, splitAtChar_append h]
  cases pieces : splitAtChar '\n' s with
  | nil => exact absurd pieces (splitAtChar_ne_nil '\n' s)
  | cons q qs => rfl

/-- A text has one line, or it is a line, its line feed and another text. -/
theorem line_induction {P : List Char → Prop} (last : ∀ s, '\n' ∉ s → P s)
    (line : ∀ p s, '\n' ∉ p → P s → P (p ++ '\n' :: s)) (s : List Char) : P s := by
  induction h : s.length using Nat.strongRecOn generalizing s with
  | ind n ih =>
      by_cases more : '\n' ∈ s
      · obtain ⟨p, rest, rfl, hp⟩ := List.eq_append_cons_of_mem more
        apply line p rest hp
        apply ih rest.length _ rest rfl
        rw [← h, List.length_append, List.length_cons]
        omega
      · exact last s more

theorem lineFeeds_of_notMem {s : List Char} (h : '\n' ∉ s) : lineFeeds s = 0 :=
  List.count_eq_zero.mpr h

theorem lineFeeds_append (s s' : List Char) : lineFeeds (s ++ s') = lineFeeds s + lineFeeds s' :=
  List.count_append

theorem lineFeeds_newline (s : List Char) : lineFeeds ('\n' :: s) = lineFeeds s + 1 :=
  List.count_cons_self

/-- What follows a place up to a line feed stands on the line of the place. -/
theorem exists_line (x : List Char) {u : List Char} (y : List Char) (hu : '\n' ∉ u) (ne : u ≠ []) :
    ∃ line, (lines (x ++ u ++ y))[lineFeeds x]? = some line ∧ dropReturn u <:+: line := by
  induction x using line_induction with
  | last x hx =>
      have front : '\n' ∉ x ++ u := by simp [hx, hu]
      rw [lineFeeds_of_notMem hx]
      by_cases more : '\n' ∈ y
      · obtain ⟨q, rest, rfl, hq⟩ := List.eq_append_cons_of_mem more
        have text : x ++ u ++ (q ++ '\n' :: rest) = (x ++ u ++ q) ++ '\n' :: rest := by simp
        rw [text, lines_append_newline (by simp [hx, hu, hq])]
        exact ⟨_, rfl, dropReturn_infix ⟨x, q, rfl⟩⟩
      · rw [lines_of_notMem (by simp [hx, hu, more]) (by simp [ne])]
        exact ⟨_, rfl, (prefix_dropReturn u).isInfix.trans ⟨x, y, rfl⟩⟩
  | line p x hp ih =>
      have text : p ++ '\n' :: x ++ u ++ y = p ++ '\n' :: (x ++ u ++ y) := by simp
      rw [text, lines_append_newline hp, lineFeeds_append, lineFeeds_of_notMem hp,
        lineFeeds_newline, Nat.zero_add, List.getElem?_cons_succ]
      exact ih

theorem infix_of_mem_lines {s line : List Char} (h : line ∈ lines s) : line <:+: s := by
  induction s using line_induction with
  | last s hs =>
      by_cases ne : s = []
      · rw [ne] at h
        cases h
      · rw [lines_of_notMem hs ne, List.mem_singleton] at h
        exact h ▸ List.infix_rfl
  | line p s hp ih =>
      rw [lines_append_newline hp, List.mem_cons] at h
      cases h with
      | inl h =>
          rw [h]
          exact ((prefix_dropReturn p).trans (List.prefix_append p _)).isInfix
      | inr h => exact (ih h).trans ⟨p ++ ['\n'], [], by simp⟩

section Joining

theorem joinWith_cons (sep p : List Char) {ps : List (List Char)} (h : ps ≠ []) :
    joinWith sep (p :: ps) = p ++ sep ++ joinWith sep ps := by
  cases ps with
  | nil => exact absurd rfl h
  | cons q ps => rfl

/-- A line among others stands between line feeds, or at the edges. -/
theorem joinWith_of_mem {ls : List (List Char)} {line : List Char} (h : line ∈ ls) :
    ∃ a b, joinWith ['\n'] ls = a ++ line ++ b ∧ (∀ c ∈ a.getLast?, c = '\n') ∧
      ∀ c ∈ b.head?, c = '\n' := by
  induction ls with
  | nil => cases h
  | cons p ps ih =>
      by_cases more : ps = []
      · subst more
        obtain rfl := List.mem_singleton.mp h
        exact ⟨[], [], by simp [joinWith], by simp, by simp⟩
      · rw [joinWith_cons ['\n'] p more]
        cases h with
        | head => exact ⟨[], '\n' :: joinWith ['\n'] ps, by simp, by simp, by simp⟩
        | tail _ h =>
            obtain ⟨a, b, split, before, behind⟩ := ih h
            refine ⟨p ++ '\n' :: a, b, by simp [split], ?_, behind⟩
            intro c hc
            cases a with
            | nil => simpa using hc.symm
            | cons d a => exact before c (by simpa [List.getLast?_append] using hc)

/-- A text without the character stands on one side of it. -/
theorem infix_append_cons {w a b : List Char} {c : Char} (hc : c ∉ w) (h : w <:+: a ++ c :: b) :
    w <:+: a ∨ w <:+: b := by
  obtain ⟨x, y, split⟩ := h
  rw [List.append_assoc] at split
  rcases List.append_eq_append_iff.mp split with ⟨front, rfl, rest⟩ | ⟨front, rfl, rest⟩
  · left
    rcases List.append_eq_append_iff.mp rest with ⟨inner, rfl, -⟩ | ⟨inner, rfl, tail⟩
    · exact ⟨x, inner, by simp⟩
    · cases inner with
      | nil => exact ⟨x, [], by simp⟩
      | cons d inner =>
          obtain ⟨rfl, -⟩ := List.cons.inj tail
          simp at hc
  · cases front with
    | nil =>
        cases w with
        | nil => exact .inl List.nil_infix
        | cons d w =>
            obtain ⟨rfl, -⟩ := List.cons.inj rest
            simp at hc
    | cons d front =>
        obtain ⟨-, rfl⟩ := List.cons.inj rest
        exact .inr ⟨front, y, by simp⟩

/-- What holds no line feed stands on one of the lines. -/
theorem infix_joinWith {ls : List (List Char)} {w : List Char} (hw : '\n' ∉ w) (ne : w ≠ [])
    (h : w <:+: joinWith ['\n'] ls) : ∃ line ∈ ls, w <:+: line := by
  induction ls with
  | nil => exact absurd (List.eq_nil_of_infix_nil h) ne
  | cons p ps ih =>
      by_cases more : ps = []
      · subst more
        exact ⟨p, List.mem_cons_self, h⟩
      · rw [joinWith_cons ['\n'] p more, List.append_assoc, List.singleton_append] at h
        cases infix_append_cons hw h with
        | inl h => exact ⟨p, List.mem_cons_self, h⟩
        | inr h =>
            obtain ⟨line, mem, inside⟩ := ih h
            exact ⟨line, List.mem_cons_of_mem _ mem, inside⟩

end Joining

/-- The lines of a text around one of them. -/
structure Around (ls : List (List Char)) (i r : Nat) (block : List (List Char)) : Prop where
  part : ∃ front back, ls = front ++ block ++ back ∧ front.length = i - r ∧
    front.length + block.length = min (i + r + 1) ls.length

theorem Around.length_le {ls block : List (List Char)} {i r : Nat} (h : Around ls i r block) :
    block.length ≤ 2 * r + 1 := by
  obtain ⟨front, back, -, first, last⟩ := h.part
  omega

/-- A line that is near enough is among them. -/
theorem Around.getElem? {ls block : List (List Char)} {i r j : Nat} {line : List Char}
    (h : Around ls i r block) (hj : ls[j]? = some line) (near : i ≤ j + r ∧ j ≤ i + r) :
    block[j - (i - r)]? = some line := by
  obtain ⟨front, back, split, first, last⟩ := h.part
  have bound : j < ls.length := (List.getElem?_eq_some_iff.mp hj).1
  rw [split, List.append_assoc, List.getElem?_append_right (by omega), first,
    List.getElem?_append_left (by omega)] at hj
  exact hj

theorem window_eq {ls : List (List Char)} {i : Nat} (r : Nat) (h : i < ls.length) :
    ∃ block, window ls i r = joinWith ['\n'] block ∧ Around ls i r block := by
  have index : min i (ls.length - 1) = i := by omega
  refine ⟨(ls.drop (i - r)).take (i + r + 1 - (i - r)), by rw [window, index], ls.take (i - r),
    (ls.drop (i - r)).drop (i + r + 1 - (i - r)), ?_, ?_, ?_⟩
  · rw [List.append_assoc, List.take_append_drop, List.take_append_drop]
  · rw [List.length_take]
    omega
  · simp only [List.length_take, List.length_drop]
    omega

end TestRepair.Text
