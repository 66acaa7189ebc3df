import Mathlib.Data.List.Basic

/-!
Texts into which copies of one text have been put. `Inserts` counts the copies and says in front of
which characters they stand; `Strewn` says only that they stand in front of one character, and is
taken apart wherever a text is.
-/

namespace TestRepair.Text

/-- `t` is `s` with copies of `e` put in before some of the characters `q`. -/
inductive Strewn (e : List Char) (q : Char) : List Char → List Char → Prop
  | nil : Strewn e q [] []
  | keep (c : Char) {s t : List Char} (h : Strewn e q s t) : Strewn e q (c :: s) (c :: t)
  | put {s t : List Char} (h : Strewn e q s t) : Strewn e q (q :: s) (e ++ q :: t)

namespace Strewn

variable {e s s' t t' u v : List Char} {q c : Char}

theorem refl (e : List Char) (q : Char) (s : List Char) : Strewn e q s s := by
  induction s with
  | nil => exact .nil
  | cons c s ih => exact .keep c ih

theorem append (h : Strewn e q s t) (h' : Strewn e q s' t') :
    Strewn e q (s ++ s') (t ++ t') := by
  induction h with
  | nil => exact h'
  | keep c _ ih => exact .keep c ih
  | @put s t _ ih =>
      rw [List.append_assoc]
      exact .put ih

theorem eq_of_notMem (h : Strewn e q s t) (hq : q ∉ s) : t = s := by
  induction h with
  | nil => rfl
  | keep c _ ih => rw [ih fun hs => hq (List.mem_cons_of_mem c hs)]
  | put => exact absurd List.mem_cons_self hq

theorem eq_of_notMem_right (h : Strewn e q s t) (hq : q ∉ t) : s = t := by
  induction h with
  | nil => rfl
  | keep c _ ih => rw [ih fun ht => hq (List.mem_cons_of_mem c ht)]
  | put => exact absurd (List.mem_append_right e List.mem_cons_self) hq

theorem eq_iff_of_notMem (h : Strewn e q s t) (hu : q ∉ u) : t = u ↔ s = u := by
  constructor
  · rintro rfl
    exact h.eq_of_notMem_right hu
  · rintro rfl
    exact h.eq_of_notMem hu

theorem mem_iff (h : Strewn e q s t) (he : c ∉ e) : c ∈ t ↔ c ∈ s := by
  induction h with
  | nil => rfl
  | keep d _ ih => simp [ih]
  | put _ ih => simp [ih, he]

theorem eq_nil_iff (h : Strewn e q s t) : t = [] ↔ s = [] := by
  cases h <;> simp

theorem getLast?_eq (h : Strewn e q s t) : t.getLast? = s.getLast? := by
  induction h with
  | nil => rfl
  | keep c _ ih => rw [List.getLast?_cons, List.getLast?_cons, ih]
  | put _ ih =>
      rw [List.getLast?_append, List.getLast?_cons, List.getLast?_cons, ih]
      rfl

theorem split (h : Strewn e q s t) (hs : s = u ++ v) :
    ∃ u' v', t = u' ++ v' ∧ Strewn e q u u' ∧ Strewn e q v v' := by
  induction h generalizing u with
  | nil =>
      obtain ⟨rfl, rfl⟩ := List.append_eq_nil_iff.mp hs.symm
      exact ⟨[], [], rfl, .nil, .nil⟩
  | @keep c s t h ih =>
      cases u with
      | nil =>
          obtain rfl : c :: s = v := hs
          exact ⟨[], c :: t, rfl, .nil, .keep c h⟩
      | cons d u =>
          obtain ⟨rfl, rest⟩ := List.cons.inj hs
          obtain ⟨u', v', rfl, hu, hv⟩ := ih rest
          exact ⟨c :: u', v', rfl, .keep c hu, hv⟩
  | @put s t h ih =>
      cases u with
      | nil =>
          obtain rfl : q :: s = v := hs
          exact ⟨[], e ++ q :: t, rfl, .nil, .put h⟩
      | cons d u =>
          obtain ⟨rfl, rest⟩ := List.cons.inj hs
          obtain ⟨u', v', rfl, hu, hv⟩ := ih rest
          exact ⟨e ++ q :: u', v', by simp, .put hu, hv⟩

theorem split_char (h : Strewn e q s t) (hc : c ≠ q) (hs : s = u ++ c :: v) :
    ∃ u' v', t = u' ++ c :: v' ∧ Strewn e q u u' ∧ Strewn e q v v' := by
  obtain ⟨u', w, rfl, hu, hw⟩ := h.split hs
  cases hw with
  | keep _ hv => exact ⟨u', _, rfl, hu, hv⟩
  | put => exact absurd rfl hc

/-- Behind a character that no copy brings in, the text goes on as it did. -/
theorem split_back (h : Strewn e q s t) (he : c ∉ e) (hc : c ≠ q) (ht : t = u ++ c :: v) :
    ∃ u' v', s = u' ++ c :: v' ∧ Strewn e q u' u ∧ Strewn e q v' v := by
  induction h generalizing u with
  | nil => simp at ht
  | @keep d s t h ih =>
      cases u with
      | nil =>
          obtain ⟨rfl, rfl⟩ := List.cons.inj ht
          exact ⟨[], s, rfl, .nil, h⟩
      | cons d' u =>
          obtain ⟨rfl, rest⟩ := List.cons.inj ht
          obtain ⟨u', v', rfl, hu, hv⟩ := ih rest
          exact ⟨d :: u', v', rfl, .keep d hu, hv⟩
  | @put s t h ih =>
      obtain ⟨w, rfl, behind⟩ | ⟨w, rfl, behind⟩ := List.append_eq_append_iff.mp ht
      · cases w with
        | nil => exact absurd (List.cons.inj behind).1.symm hc
        | cons d w =>
            obtain ⟨rfl, rest⟩ := List.cons.inj behind
            obtain ⟨u', v', rfl, hu, hv⟩ := ih rest
            exact ⟨q :: u', v', rfl, .put hu, hv⟩
      · cases w with
        | nil => exact absurd (List.cons.inj behind).1 hc
        | cons d w =>
            obtain ⟨rfl, -⟩ := List.cons.inj behind
            simp at he

/-- What follows the last copy and its character is as it was. -/
theorem split_right (h : Strewn e q s t) (hq : q ∉ v) (ht : t = u ++ v) :
    ∃ u', s = u' ++ v ∧ Strewn e q u' u := by
  induction h generalizing u with
  | nil =>
      obtain ⟨rfl, rfl⟩ := List.append_eq_nil_iff.mp ht.symm
      exact ⟨[], rfl, .nil⟩
  | @keep d s t h ih =>
      cases u with
      | nil =>
          obtain rfl : d :: t = v := ht
          exact ⟨[], (Strewn.keep d h).eq_of_notMem_right hq, .nil⟩
      | cons d' u =>
          obtain ⟨rfl, rest⟩ := List.cons.inj ht
          obtain ⟨u', rfl, hu⟩ := ih rest
          exact ⟨d :: u', rfl, .keep d hu⟩
  | @put s t h ih =>
      obtain ⟨w, rfl, behind⟩ | ⟨w, rfl, rfl⟩ := List.append_eq_append_iff.mp ht
      · cases w with
        | nil =>
            obtain rfl : q :: t = v := behind
            exact absurd List.mem_cons_self hq
        | cons d w =>
            obtain ⟨rfl, rest⟩ := List.cons.inj behind
            obtain ⟨u', rfl, hu⟩ := ih rest
            exact ⟨q :: u', rfl, .put hu⟩
      · simp at hq

end Strewn

/-- `t` is `s` with `n` copies of `e` put in, each directly before a character of `s` at which `P`
holds: `P front c` is about the character `c` and all that stands in front of it. -/
inductive Inserts (e : List Char) (P : List Char → Char → Prop) :
    List Char → List Char → List Char → Nat → Prop
  | nil (front : List Char) : Inserts e P front [] [] 0
  | keep {front s t : List Char} {n : Nat} (c : Char) (h : Inserts e P (front ++ [c]) s t n) :
      Inserts e P front (c :: s) (c :: t) n
  | put {front s t : List Char} {c : Char} {n : Nat} (hp : P front c)
      (h : Inserts e P (front ++ [c]) s t n) : Inserts e P front (c :: s) (e ++ c :: t) (n + 1)

namespace Inserts

variable {e front front' s t u w : List Char} {P Q : List Char → Char → Prop} {m n : Nat}

theorem keep_append (w : List Char) (h : Inserts e P (front ++ w) s t n) :
    Inserts e P front (w ++ s) (w ++ t) n := by
  induction w generalizing front with
  | nil => simpa using h
  | cons c w ih => exact .keep c (ih (by simpa using h))

theorem strewn {q : Char} (hP : ∀ front c, P front c → c = q) (h : Inserts e P front s t n) :
    Strewn e q s t := by
  induction h with
  | nil => exact .nil
  | keep c _ ih => exact .keep c ih
  | put hp _ ih =>
      obtain rfl := hP _ _ hp
      exact .put ih

/-- Nothing is put in where no character allows it. -/
theorem skip (h : Inserts e P front s t n) (hs : s = w ++ u) (hw : ∀ c ∈ w, ∀ front, ¬P front c) :
    ∃ t', t = w ++ t' ∧ Inserts e P (front ++ w) u t' n := by
  induction w generalizing front s t n with
  | nil => exact ⟨t, rfl, by simpa [hs] using h⟩
  | cons c w ih =>
      cases h with
      | nil => cases hs
      | @keep _ s t _ d h =>
          obtain ⟨rfl, rest⟩ := List.cons.inj hs
          obtain ⟨t', rfl, h'⟩ := ih h rest fun c hc => hw c (List.mem_cons_of_mem d hc)
          exact ⟨t', rfl, by simpa using h'⟩
      | put hp =>
          obtain ⟨rfl, -⟩ := List.cons.inj hs
          exact absurd hp (hw _ List.mem_cons_self _)

/-- Copies put in before one character and then before another one have been put in at places of
the text as it was. -/
theorem trans {q q' : Char} (hqq : q ≠ q') (he : q' ∉ e) (hP : ∀ front c, P front c → c = q)
    (hQ : ∀ front c, Q front c → c = q')
    (back : ∀ front front' c, Strewn e q front front' → Q front' c → Q front c)
    (hf : Strewn e q front front') (h : Inserts e P front s t m) (h' : Inserts e Q front' t u n) :
    Inserts e (fun front c => P front c ∨ Q front c) front s u (m + n) := by
  induction h generalizing front' u n with
  | nil =>
      cases h'
      exact .nil _
  | keep c _ ih =>
      have hf' : Strewn e q (_ ++ [c]) (front' ++ [c]) := hf.append (.refl e q [c])
      cases h' with
      | keep _ h' => exact .keep c (ih hf' h')
      | put hq h' => exact .put (.inr (back _ _ _ hf hq)) (ih hf' h')
  | @put front s t c m hp _ ih =>
      obtain rfl := hP _ _ hp
      have closed : ∀ d ∈ e ++ [c], ∀ front, ¬Q front d := by
        intro d hd front hd'
        obtain rfl := hQ _ _ hd'
        simp only [List.mem_append, List.mem_singleton] at hd
        exact hd.elim he fun h => hqq h.symm
      obtain ⟨u', rfl, later⟩ := h'.skip (w := e ++ [c]) (u := t) (by simp) closed
      have hf' : Strewn e c (front ++ [c]) (front' ++ (e ++ [c])) := hf.append (.put .nil)
      rw [List.append_assoc, Nat.add_right_comm]
      exact .put (.inl hp) (ih hf' later)

end Inserts

end TestRepair.Text
