import Mathlib.Logic.Basic
import TestRepair.Proofs.Text.Reading

/-!
What a scan of a text finds, as a derivation. A place where the recogniser refuses is passed, and a
reading is passed as a whole. Rewriting what was found follows the same derivation.
-/

namespace TestRepair.Text

namespace Recogniser

variable {α : Type} {r : Recogniser α}

/-- A reading takes one character at least. -/
def Consumes (r : Recogniser α) : Prop :=
  ∀ c v c', r c = some (v, c') → ∃ w, w ≠ [] ∧ c.Spans w c'

/-- What a scan finds from a place on, where `before` stands in front of it. -/
inductive Scans (r : Recogniser α) : List Char → List Char → List (Occurrence α) → Prop
  | done (before : List Char) : Scans r before [] []
  | pass {before s : List Char} {c : Char} {os : List (Occurrence α)}
      (h : r ⟨before, c :: s⟩ = none) (rest : Scans r (c :: before) s os) :
      Scans r before (c :: s) os
  | found {before w s : List Char} {v : α} {os : List (Occurrence α)} (hw : w ≠ [])
      (h : r ⟨before, w ++ s⟩ = some (v, ⟨w.reverse ++ before, s⟩))
      (rest : Scans r (w.reverse ++ before) s os) :
      Scans r before (w ++ s) (⟨⟨before, w ++ s⟩, ⟨w.reverse ++ before, s⟩, v⟩ :: os)

theorem occurrencesFrom_skip (w s before : List Char) :
    occurrencesFrom r w.length (w.length == 0) before (w ++ s) =
      occurrencesFrom r 0 true (w.reverse ++ before) s := by
  induction w generalizing before with
  | nil => rfl
  | cons c w ih =>
      simp only [List.cons_append, List.length_cons, occurrencesFrom, List.reverse_cons,
        List.append_assoc, List.nil_append]
      exact ih (c :: before)

theorem at?_of_spans {c c' : Cursor} {w : List Char} {v : α} (behind : Bool)
    (read : r c = some (v, c')) (hw : w ≠ []) (span : c.Spans w c') :
    r.at? behind c = some ⟨c, c', v⟩ := by
  have pos := List.length_pos_iff.mpr hw
  have moved : (c'.offset == c.offset) = false := by
    rw [span.offset, beq_eq_false_iff_ne]
    omega
  simp only [at?, read, moved, Bool.and_false, Bool.false_eq_true, if_false]

theorem length_of_spans {c c' : Cursor} {w : List Char} (span : c.Spans w c') (v : α) :
    Occurrence.length ⟨c, c', v⟩ = w.length := by
  rw [Occurrence.length, span.offset, Nat.add_sub_cancel_left]

/-- A reading is the first occurrence, and the others are looked for behind it. -/
theorem occurrencesFrom_found {before w s : List Char} {v : α} (behind : Bool) (hw : w ≠ [])
    (read : r ⟨before, w ++ s⟩ = some (v, ⟨w.reverse ++ before, s⟩)) :
    occurrencesFrom r 0 behind before (w ++ s) = ⟨⟨before, w ++ s⟩, ⟨w.reverse ++ before, s⟩, v⟩ ::
      occurrencesFrom r 0 true (w.reverse ++ before) s := by
  have span : Cursor.Spans ⟨before, w ++ s⟩ w ⟨w.reverse ++ before, s⟩ := ⟨rfl, rfl⟩
  have seen := at?_of_spans behind read hw span
  have length := length_of_spans span v
  obtain ⟨c, w, rfl⟩ := List.exists_cons_of_ne_nil hw
  have skip := occurrencesFrom_skip (r := r) w s (c :: before)
  have last : (w.length + 1 == 1) = (w.length == 0) := by simp
  simp only [List.cons_append] at seen length ⊢
  simp only [occurrencesFrom, seen, length, List.length_cons, Nat.add_sub_cancel, last, skip]
  simp

theorem scans_occurrencesFrom (hr : Consumes r) (behind : Bool) (before s : List Char) :
    Scans r before s (occurrencesFrom r 0 behind before s) := by
  induction hn : s.length using Nat.strongRecOn generalizing s before behind with
  | ind n ih =>
      cases read : r ⟨before, s⟩ with
      | none =>
          have missed : r.at? behind ⟨before, s⟩ = none := by simp [at?, read]
          cases s with
          | nil =>
              simp only [occurrencesFrom, missed, if_true, Option.toList_none]
              exact .done before
          | cons c s =>
              simp only [occurrencesFrom, missed]
              exact .pass read (ih s.length (by simp [← hn]) false (c :: before) s rfl)
      | some found =>
          obtain ⟨v, before', rest⟩ := found
          obtain ⟨w, hw, span⟩ := hr _ _ _ read
          obtain ⟨rfl, rfl⟩ : s = w ++ rest ∧ before' = w.reverse ++ before :=
            ⟨span.after, span.before⟩
          have shorter : rest.length < n := by
            have pos := List.length_pos_iff.mpr hw
            rw [← hn, List.length_append]
            omega
          rw [occurrencesFrom_found behind hw read]
          exact .found hw read (ih rest.length shorter true _ rest rfl)

theorem scans_occurrences (hr : Consumes r) (s : List Char) : Scans r [] s (r.occurrences s) :=
  scans_occurrencesFrom hr false [] s

namespace Scans

variable {before s : List Char} {os os' : List (Occurrence α)}

theorem unique (h : Scans r before s os) (h' : Scans r before s os') : os = os' := by
  induction h generalizing os' with
  | done =>
      generalize hs : ([] : List Char) = s at h'
      cases h' with
      | done => rfl
      | pass => cases hs
      | found hw => exact absurd (List.append_eq_nil_iff.mp hs.symm).1 hw
  | @pass before s c os h _ ih =>
      generalize hs : c :: s = s' at h'
      cases h' with
      | done => cases hs
      | pass _ rest =>
          cases hs
          exact ih rest
      | found _ h' =>
          rw [← hs, h] at h'
          cases h'
  | @found before w s v os hw h _ ih =>
      generalize hs : w ++ s = s' at h'
      cases h' with
      | done => exact absurd (List.append_eq_nil_iff.mp hs).1 hw
      | pass h' =>
          rw [← hs, h] at h'
          cases h'
      | @found _ w' s'' v' os' _ h' rest =>
          rw [← hs, h] at h'
          obtain ⟨rfl, stop⟩ := Prod.mk.inj (Option.some.inj h')
          obtain ⟨taken, rfl⟩ := Cursor.mk.inj stop
          obtain rfl : w = w' := by simpa using taken
          rw [ih rest]

theorem start_le (h : Scans r before s os) {o : Occurrence α} (ho : o ∈ os) :
    before.length ≤ o.start.offset := by
  induction h with
  | done => cases ho
  | pass _ _ ih => exact Nat.le_of_succ_le (ih ho)
  | found _ _ _ ih =>
      rcases List.mem_cons.mp ho with rfl | ho
      · exact Nat.le_refl _
      · refine Nat.le_trans ?_ (ih ho)
        simp

variable (f : Occurrence α → List Char)

theorem rewriteFrom_pass {c : Char} (rest : Scans r (c :: before) s os) :
    rewriteFrom f before.length (c :: s) os = c :: rewriteFrom f (c :: before).length s os := by
  cases os with
  | nil => rfl
  | cons o os =>
      have later : before.length + 1 ≤ o.start.offset := rest.start_le List.mem_cons_self
      obtain ⟨k, hk⟩ := Nat.exists_eq_add_of_le later
      have kept : o.start.offset - before.length = k + 1 := by omega
      have kept' : o.start.offset - (before.length + 1) = k := by omega
      simp only [rewriteFrom, List.length_cons, kept, kept', List.take_succ_cons, List.cons_append]
      rw [show k + 1 + o.length = k + o.length + 1 by omega, List.drop_succ_cons]

theorem rewriteFrom_found {w : List Char} {v : α} :
    rewriteFrom f before.length (w ++ s)
        (⟨⟨before, w ++ s⟩, ⟨w.reverse ++ before, s⟩, v⟩ :: os) =
      f ⟨⟨before, w ++ s⟩, ⟨w.reverse ++ before, s⟩, v⟩ ++
        rewriteFrom f (w.reverse ++ before).length s os := by
  have length : Occurrence.length
      ⟨⟨before, w ++ s⟩, ⟨w.reverse ++ before, s⟩, v⟩ = w.length := by
    simp [Occurrence.length, Cursor.offset]
  simp only [rewriteFrom, length]
  simp [Cursor.offset]

/-- Rewriting every occurrence as it is changes nothing. -/
theorem rewriteFrom_eq_self (h : Scans r before s os) {f : Occurrence α → List Char}
    (hf : ∀ o ∈ os, f o = o.text) : rewriteFrom f before.length s os = s := by
  induction h with
  | done => rfl
  | pass _ rest ih => rw [rewriteFrom_pass f rest, ih hf]
  | @found before w s v os _ _ _ ih =>
      have span : Cursor.Spans ⟨before, w ++ s⟩ w ⟨w.reverse ++ before, s⟩ := ⟨rfl, rfl⟩
      rw [rewriteFrom_found, hf _ List.mem_cons_self, Occurrence.text, span.textTo,
        ih fun o ho => hf o (List.mem_cons_of_mem _ ho)]

end Scans

theorem occurrencesFrom_eq_nil_iff {before s : List Char} :
    occurrencesFrom r 0 false before s = [] ↔
      ∀ x y, s = x ++ y → r ⟨x.reverse ++ before, y⟩ = none := by
  induction s generalizing before with
  | nil => simp [occurrencesFrom, at?_false_eq_none]
  | cons c s ih =>
      cases read : r.at? false ⟨before, c :: s⟩ with
      | some o =>
          have seen : r ⟨before, c :: s⟩ ≠ none := by
            rw [ne_eq, ← at?_false_eq_none, read]
            exact Option.some_ne_none o
          simp only [occurrencesFrom, read, reduceCtorEq, false_iff]
          exact fun h => seen (h [] _ rfl)
      | none =>
          simp only [occurrencesFrom, read, ih]
          constructor
          · intro h x y e
            cases x with
            | nil =>
                cases e
                exact at?_false_eq_none.mp read
            | cons d x =>
                obtain ⟨rfl, rfl⟩ := List.cons.inj e
                simpa using h x y rfl
          · intro h x y e
            simpa using h (c :: x) y (by rw [e, List.cons_append])

theorem first?_eq_none_iff {s : List Char} :
    r.first? s = none ↔ ∀ x y, s = x ++ y → r ⟨x.reverse, y⟩ = none := by
  have nothing : occurrencesFrom r 0 false [] s = [] ↔ _ := occurrencesFrom_eq_nil_iff
  simpa [first?, occurrences] using nothing

/-- A recogniser occurs in a text if it succeeds at some place of it. -/
theorem occursIn_iff_exists {s : List Char} : r.occursIn s = true ↔
    ∃ x y, s = x ++ y ∧ (r ⟨x.reverse, y⟩).isSome = true := by
  rw [occursIn, Option.isSome_iff_ne_none, ne_eq, first?_eq_none_iff]
  simp [Option.isSome_iff_ne_none]

end Recogniser

end TestRepair.Text
