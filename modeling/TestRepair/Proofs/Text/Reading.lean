import Mathlib.Data.List.TakeWhile
import TestRepair.Proofs.Text.Scanning

/-!
What the basic recognisers read, as equivalences: each one succeeds just if the text that follows
starts with what it is to read, and it stops right behind that.
-/

namespace TestRepair.Text

/-- From `c` to `c'` the text `w` is read. -/
structure Cursor.Spans (c : Cursor) (w : List Char) (c' : Cursor) : Prop where
  after : c.after = w ++ c'.after
  before : c'.before = w.reverse ++ c.before

namespace Cursor.Spans

variable {c c' c'' : Cursor} {w w' : List Char}

theorem trans (h : c.Spans w c') (h' : c'.Spans w' c'') : c.Spans (w ++ w') c'' where
  after := by rw [h.after, h'.after, List.append_assoc]
  before := by rw [h'.before, h.before, List.reverse_append, List.append_assoc]

/-- What is read in two parts is read up to a cursor between them. -/
theorem split (h : c.Spans (w ++ w') c'') : ∃ c', c.Spans w c' ∧ c'.Spans w' c'' :=
  ⟨⟨w.reverse ++ c.before, w' ++ c''.after⟩, ⟨by simp [h.after], rfl⟩, ⟨rfl, by simp [h.before]⟩⟩

theorem eq (h : c.Spans w c') : c' = ⟨w.reverse ++ c.before, c'.after⟩ := by rw [← h.before]

theorem offset (h : c.Spans w c') : c'.offset = c.offset + w.length := by
  simp [Cursor.offset, h.before, Nat.add_comm]

theorem textTo (h : c.Spans w c') : c.textTo c' = w := by
  simp [Cursor.textTo, h.offset, h.after]

end Cursor.Spans

/-- All characters of a run satisfy `p`, and the one behind it does not. -/
structure Ends (p : Char → Bool) (w rest : List Char) : Prop where
  all : ∀ x ∈ w, p x = true
  stop : ∀ x ∈ rest.head?, p x = false

theorem Ends.takeWhile {p : Char → Bool} {w rest : List Char} (h : Ends p w rest) :
    (w ++ rest).takeWhile p = w ∧ (w ++ rest).dropWhile p = rest := by
  have stop : rest.takeWhile p = [] ∧ rest.dropWhile p = rest := by
    cases rest with
    | nil => exact ⟨rfl, rfl⟩
    | cons x rest => simp [h.stop x rfl]
  rw [List.takeWhile_append_of_pos h.all, List.dropWhile_append_of_pos h.all, stop.1, stop.2]
  simp

theorem ends_takeWhile (p : Char → Bool) (s : List Char) : Ends p (s.takeWhile p) (s.dropWhile p) where
  all := fun _ hx => List.mem_takeWhile_imp hx
  stop := by
    intro x hx
    have stop := List.head?_dropWhile_not p s
    rw [Option.mem_def.mp hx] at stop
    simpa using stop

theorem Ends.unique {p : Char → Bool} {w w' rest rest' : List Char} (h : Ends p w rest)
    (h' : Ends p w' rest') (text : w ++ rest = w' ++ rest') : w = w' ∧ rest = rest' := by
  have taken := h.takeWhile.1
  have left := h.takeWhile.2
  rw [text] at taken left
  exact ⟨taken.symm.trans h'.takeWhile.1, left.symm.trans h'.takeWhile.2⟩

/-- Nothing but blanks. -/
def Blank (w : List Char) : Prop := ∀ x ∈ w, isBlank x = true

instance (w : List Char) : Decidable (Blank w) := List.decidableBAll _ w

theorem Blank.ends {w rest : List Char} (hw : Blank w) {x : Char} (hx : isBlank x = false) :
    Ends isBlank w (x :: rest) where
  all := hw
  stop := by
    intro y hy
    cases hy
    exact hx

theorem toNat_of_isAlphanum {c : Char} (h : c.isAlphanum = true) : 48 ≤ c.toNat ∧ c.toNat ≤ 122 := by
  have range {l u : UInt32} (hl : l ≤ c.val) (hu : c.val ≤ u) : l.toNat ≤ c.toNat ∧ c.toNat ≤ u.toNat :=
    ⟨UInt32.le_iff_toNat_le.mp hl, UInt32.le_iff_toNat_le.mp hu⟩
  have inside : 65 ≤ c.toNat ∧ c.toNat ≤ 90 ∨ 97 ≤ c.toNat ∧ c.toNat ≤ 122 ∨
      48 ≤ c.toNat ∧ c.toNat ≤ 57 := by
    obtain letter | digit := Bool.or_eq_true_iff.mp h
    · obtain upper | lower := Bool.or_eq_true_iff.mp letter
      · exact .inl (range (of_decide_eq_true upper).1 (of_decide_eq_true upper).2)
      · obtain ⟨low, high⟩ := Bool.and_eq_true_iff.mp lower
        exact .inr (.inl (range (of_decide_eq_true low) (of_decide_eq_true high)))
    · obtain ⟨low, high⟩ := Bool.and_eq_true_iff.mp digit
      exact .inr (.inr (range (of_decide_eq_true low) (of_decide_eq_true high)))
  omega

theorem isWord_of_isAlphanum {c : Char} (h : c.isAlphanum = true) : isWord c = true := by
  have ascii : c.toNat < 128 := by
    have := (toNat_of_isAlphanum h).2
    omega
  simp [isWord, ascii, h]

theorem isBlank_of_isAlphanum {c : Char} (h : c.isAlphanum = true) : isBlank c = false := by
  have := toNat_of_isAlphanum h
  simp only [isBlank, Bool.or_eq_false_iff, Bool.and_eq_false_iff, decide_eq_false_iff_not, not_le,
    beq_eq_false_iff_ne]
  omega

/-- The codes of the blanks. -/
def blankCodes : List Nat := [9, 10, 11, 12, 13, 32, 0x85, 0xa0, 0x1680, 0x2000, 0x2001, 0x2002,
  0x2003, 0x2004, 0x2005, 0x2006, 0x2007, 0x2008, 0x2009, 0x200a, 0x2028, 0x2029, 0x202f, 0x205f,
  0x3000]

theorem mem_blankCodes {c : Char} (h : isBlank c = true) : c.toNat ∈ blankCodes := by
  simp only [isBlank, Bool.or_eq_true, Bool.and_eq_true, decide_eq_true_eq, beq_iff_eq] at h
  simp only [blankCodes, List.mem_cons, List.not_mem_nil, or_false]
  omega

/-- A class of characters told by a table holds no blank if it holds none of the few there are. -/
theorem isBlank_eq_false {p : Char → Bool} (none : ∀ n ∈ blankCodes, p (Char.ofNat n) = false)
    {c : Char} (h : p c = true) : isBlank c = false := by
  refine Bool.eq_false_iff.mpr fun blank => ?_
  have := none _ (mem_blankCodes blank)
  rw [Char.ofNat_toNat, h] at this
  cases this

theorem isBlank_of_isWord {c : Char} (h : isWord c = true) : isBlank c = false :=
  isBlank_eq_false (by decide +kernel) h

theorem isBlank_of_isDigit {c : Char} (h : isDigit c = true) : isBlank c = false :=
  isBlank_eq_false (by decide +kernel) h

/-- No word stands next to a place, where the text starts with the nearest character. -/
def Apart (s : List Char) : Prop := ∀ c ∈ s.head?, isWord c = false

theorem apart_cons {x : Char} {s : List Char} : Apart (x :: s) ↔ isWord x = false := by
  simp [Apart]

theorem atBoundary_of_behind {x : Char} (hx : isWord x = true) {before after : List Char} :
    Cursor.atBoundary ⟨before, x :: after⟩ = true ↔ Apart before := by
  cases before <;> simp [Cursor.atBoundary, Apart, hx]

theorem atBoundary_of_before {x : Char} (hx : isWord x = true) {before after : List Char} :
    Cursor.atBoundary ⟨x :: before, after⟩ = true ↔ Apart after := by
  cases after <;> simp [Cursor.atBoundary, Apart, hx]

namespace Recogniser

variable {α : Type} {r r' : Recogniser α} {c c' : Cursor} {v : α}

theorem orElse_eq_some_iff : (r <|> r') c = some (v, c') ↔
    r c = some (v, c') ∨ r c = none ∧ r' c = some (v, c') := by
  change (r c).orElse (fun _ => r' c) = _ ↔ _
  cases r c <;> simp

theorem require_eq_some_iff {p : Cursor → Bool} {u : Unit} :
    require p c = some (u, c') ↔ p c = true ∧ c' = c := by
  unfold require
  split
  · next h => simp [h, eq_comm]
  · next h => simp [h]

theorem boundary_eq_some_iff {u : Unit} :
    boundary c = some (u, c') ↔ c.atBoundary = true ∧ c' = c := require_eq_some_iff

theorem literal_eq_some_iff {p : List Char} {u : Unit} :
    literal p c = some (u, c') ↔ c.Spans p c' := by
  constructor
  · intro h
    obtain ⟨after, before⟩ := literal_eq_some h
    exact ⟨after, before⟩
  · intro h
    obtain ⟨before, after⟩ := c
    obtain rfl : after = p ++ c'.after := h.after
    rw [literal_append, h.eq]

theorem literal_cons (x : Char) (before after : List Char) :
    literal [x] ⟨before, x :: after⟩ = some ((), ⟨x :: before, after⟩) :=
  literal_append [x] before after

theorem literal_eq_none {p : List Char} (h : ¬p <+: c.after) : literal p c = none := by
  rw [Option.eq_none_iff_forall_ne_some]
  intro found e
  exact h ⟨_, (literal_eq_some_iff.mp e).after.symm⟩

theorem bind_of_none {β : Type} {f : α → Recogniser β} (h : r c = none) : (r >>= f) c = none := by
  change (r c).bind (fun p => f p.1 p.2) = none
  rw [h]
  rfl

theorem orElse_of_none (h : r c = none) : (r <|> r') c = r' c := by
  change (r c).orElse (fun _ => r' c) = _
  rw [h]
  rfl

theorem orElse_of_some (h : r c = some (v, c')) : (r <|> r') c = some (v, c') := by
  change (r c).orElse (fun _ => r' c) = _
  rw [h]
  rfl

theorem one_eq_some_iff {p : Char → Bool} {x : Char} :
    one p c = some (x, c') ↔ p x = true ∧ c.Spans [x] c' := by
  obtain ⟨before, after⟩ := c
  cases after with
  | nil => exact ⟨nofun, fun h => absurd h.2.after nofun⟩
  | cons y after =>
      constructor
      · intro h
        simp only [one, Option.ite_none_right_eq_some, Option.some.injEq, Prod.mk.injEq] at h
        obtain ⟨hy, rfl, rfl⟩ := h
        exact ⟨hy, rfl, rfl⟩
      · rintro ⟨hx, span⟩
        obtain ⟨rfl, rest⟩ := List.cons.inj span.after
        obtain rfl : after = c'.after := rest
        rw [span.eq, one, if_pos hx]
        rfl

theorem run_eq_some_iff {p : Char → Bool} {w : List Char} :
    run p c = some (w, c') ↔ c.Spans w c' ∧ Ends p w c'.after := by
  constructor
  · intro h
    cases h
    exact ⟨⟨List.takeWhile_append_dropWhile.symm, rfl⟩, ends_takeWhile p c.after⟩
  · rintro ⟨span, ends⟩
    obtain ⟨taken, left⟩ := ends.takeWhile
    rw [run, span.after, taken, left, ← span.eq]

theorem run1_eq_some_iff {p : Char → Bool} {w : List Char} :
    run1 p c = some (w, c') ↔ w ≠ [] ∧ c.Spans w c' ∧ Ends p w c'.after := by
  rw [run1, bind_eq_some_iff]
  constructor
  · rintro ⟨w', c₁, read, h⟩
    split at h
    · cases h
    · next ne =>
      cases h
      exact ⟨by simpa using ne, run_eq_some_iff.mp read⟩
  · rintro ⟨ne, h⟩
    refine ⟨w, c', run_eq_some_iff.mpr h, ?_⟩
    rw [if_neg (by simpa using ne)]
    rfl

theorem withText_eq_some_iff {w : List Char} :
    withText r c = some (w, c') ↔ ∃ v, r c = some (v, c') ∧ c.textTo c' = w := by
  simp [withText, Option.map_eq_some_iff]

theorem withText_of_spans {w : List Char} (h : r c = some (v, c')) (span : c.Spans w c') :
    withText r c = some (w, c') := withText_eq_some_iff.mpr ⟨v, h, span.textTo⟩

theorem isSome_bind_iff {β : Type} {f : α → Recogniser β} : ((r >>= f) c).isSome = true ↔
    ∃ v c', r c = some (v, c') ∧ (f v c').isSome = true := by
  simp only [Option.isSome_iff_exists, Prod.exists, bind_eq_some_iff]
  exact ⟨fun ⟨b, c₂, v, c₁, read, h⟩ => ⟨v, c₁, read, b, c₂, h⟩,
    fun ⟨v, c₁, read, b, c₂, h⟩ => ⟨b, c₂, v, c₁, read, h⟩⟩

theorem isSome_orElse_iff : ((r <|> r') c).isSome = true ↔
    (r c).isSome = true ∨ (r' c).isSome = true := by
  change ((r c).orElse fun _ => r' c).isSome = true ↔ _
  cases r c <;> simp

theorem isSome_firstOf_iff {rs : List (Recogniser α)} : (firstOf rs c).isSome = true ↔
    ∃ r ∈ rs, (r c).isSome = true := by
  induction rs with
  | nil => exact ⟨nofun, nofun⟩
  | cons r rs ih => simp only [firstOf, isSome_orElse_iff, ih, List.mem_cons, exists_eq_or_imp]

theorem isSome_boundary_iff : (boundary c).isSome = true ↔ c.atBoundary = true := by
  simp [boundary, require]

theorem isSome_boundary_bind_iff {f : Unit → Recogniser α} : ((boundary >>= f) c).isSome = true ↔
    c.atBoundary = true ∧ (f () c).isSome = true := by
  rw [isSome_bind_iff]
  constructor
  · rintro ⟨u, c', start, h⟩
    obtain ⟨edge, rfl⟩ := boundary_eq_some_iff.mp start
    exact ⟨edge, h⟩
  · rintro ⟨edge, h⟩
    exact ⟨(), c, boundary_eq_some_iff.mpr ⟨edge, rfl⟩, h⟩

theorem isSome_literal_bind_iff {p before after : List Char} {f : Unit → Recogniser α} :
    ((literal p >>= f) ⟨before, after⟩).isSome = true ↔
      ∃ rest, after = p ++ rest ∧ (f () ⟨p.reverse ++ before, rest⟩).isSome = true := by
  rw [isSome_bind_iff]
  constructor
  · rintro ⟨u, ⟨back, rest⟩, read, h⟩
    obtain ⟨rfl, rfl⟩ : after = p ++ rest ∧ back = p.reverse ++ before := literal_eq_some read
    exact ⟨rest, rfl, h⟩
  · rintro ⟨rest, rfl, h⟩
    exact ⟨(), _, literal_append p before rest, h⟩

theorem isSome_literal_iff {p before after : List Char} :
    (literal p ⟨before, after⟩).isSome = true ↔ p <+: after := by
  rw [literal, Option.isSome_map, ← startsWith, startsWith_iff]

end Recogniser

end TestRepair.Text
