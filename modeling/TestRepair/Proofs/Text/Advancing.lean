import TestRepair.Proofs.Text.Rewriting

/-!
What a recogniser goes over when it succeeds, as a property of the text that it reads. If it always
takes a character, no place where it would succeed is missed by a scan: the place starts an
occurrence or lies inside one.
-/

namespace TestRepair.Text

namespace Recogniser

variable {α β : Type} {P Q R : List Char → Prop} {r r' : Recogniser α} {f : α → Recogniser β}

/-- From wherever the recogniser reads on, the text that it goes over satisfies `P`. -/
def Reads (P : List Char → Prop) (r : Recogniser α) : Prop :=
  ∀ c v c', r c = some (v, c') → ∃ w, P w ∧ c.Spans w c'

/-- The recogniser never goes back. -/
def Advances (r : Recogniser α) : Prop := Reads (fun _ => True) r

namespace Reads

theorem mono (hr : Reads P r) (h : ∀ w, P w → Q w) : Reads Q r := by
  intro c v c' read
  obtain ⟨w, hw, span⟩ := hr c v c' read
  exact ⟨w, h w hw, span⟩

theorem bind (hr : Reads P r) (hf : ∀ a, Reads Q (f a)) (h : ∀ w w', P w → Q w' → R (w ++ w')) :
    Reads R (r >>= f) := by
  intro c v c' read
  obtain ⟨a, c₁, first, second⟩ := bind_eq_some_iff.mp read
  obtain ⟨w, hw, span⟩ := hr c a c₁ first
  obtain ⟨w', hw', span'⟩ := hf a c₁ v c' second
  exact ⟨w ++ w', h w w' hw hw', span.trans span'⟩

/-- One recogniser behind another reads a text of two parts. -/
theorem seq (hr : Reads P r) (hf : ∀ a, Reads Q (f a)) :
    Reads (fun w => ∃ u v, P u ∧ Q v ∧ u ++ v = w) (r >>= f) :=
  hr.bind hf fun u v hu hv => ⟨u, v, hu, hv, rfl⟩

theorem orElse (hr : Reads P r) (hr' : Reads P r') : Reads P (r <|> r') := by
  intro c v c' read
  cases orElse_eq_some_iff.mp read with
  | inl read => exact hr c v c' read
  | inr read => exact hr' c v c' read.2

theorem firstOf_nil : Reads P (firstOf ([] : List (Recogniser α))) := fun _ _ _ read => nomatch read

theorem firstOf_cons {rs : List (Recogniser α)} (hr : Reads P r) (hrs : Reads P (firstOf rs)) :
    Reads P (firstOf (r :: rs)) := hr.orElse hrs

end Reads

theorem reads_pure {a : α} (h : P []) : Reads P (pure a : Recogniser α) := by
  intro c v c' read
  cases read
  exact ⟨[], h, rfl, rfl⟩

theorem reads_literal {s : List Char} (h : P s) : Reads P (literal s) :=
  fun _ _ _ read => ⟨s, h, literal_eq_some_iff.mp read⟩

theorem reads_optional {s : List Char} (nothing : P []) (some : P s) : Reads P (optional s) :=
  (reads_literal some).orElse (reads_pure nothing)

theorem reads_run {p : Char → Bool} (h : ∀ w, (∀ x ∈ w, p x = true) → P w) : Reads P (run p) := by
  intro c w c' read
  obtain ⟨span, ends⟩ := run_eq_some_iff.mp read
  exact ⟨w, h w ends.all, span⟩

theorem reads_run1 {p : Char → Bool} (h : ∀ x w, (∀ y ∈ x :: w, p y = true) → P (x :: w)) :
    Reads P (run1 p) := by
  intro c w c' read
  obtain ⟨ne, span, ends⟩ := run1_eq_some_iff.mp read
  obtain ⟨x, w, rfl⟩ := List.exists_cons_of_ne_nil ne
  exact ⟨x :: w, h x w ends.all, span⟩

namespace Advances

theorem bind (hr : Advances r) (hf : ∀ a, Advances (f a)) : Advances (r >>= f) :=
  Reads.bind hr hf fun _ _ _ _ => trivial

theorem orElse (hr : Advances r) (hr' : Advances r') : Advances (r <|> r') := Reads.orElse hr hr'

theorem pure (a : α) : Advances (pure a : Recogniser α) := reads_pure trivial

theorem failure : Advances (failure : Recogniser α) := by
  intro c v c' read
  cases read

theorem literal (s : List Char) : Advances (literal s) := reads_literal trivial

theorem run (p : Char → Bool) : Advances (run p) := reads_run fun _ _ => trivial

theorem run1 (p : Char → Bool) : Advances (run1 p) := reads_run1 fun _ _ _ => trivial

end Advances

/-- A place where a scan would succeed starts an occurrence or lies inside one. -/
theorem Scans.covers (hr : Consumes r) {before s : List Char} {os : List (Occurrence α)}
    (h : Scans r before s os) {x y : List Char} (split : s = x ++ y)
    (read : r ⟨x.reverse ++ before, y⟩ ≠ none) :
    ∃ o ∈ os, ∃ a b d z, x = a ++ b ∧ y = d ++ z ∧ d ≠ [] ∧
      o.start = ⟨a.reverse ++ before, b ++ y⟩ ∧ o.text = b ++ d := by
  induction h generalizing x with
  | done before =>
      obtain ⟨rfl, rfl⟩ := List.append_eq_nil_iff.mp split.symm
      obtain ⟨⟨v, stop⟩, found⟩ := Option.ne_none_iff_exists'.mp read
      obtain ⟨w, hw, span⟩ := hr _ _ _ found
      exact absurd (List.append_eq_nil_iff.mp span.after.symm).1 hw
  | @pass before s c os missed _ ih =>
      cases x with
      | nil =>
          rw [List.nil_append] at split
          exact absurd (split ▸ missed) read
      | cons d x =>
          obtain ⟨rfl, rest⟩ := List.cons.inj split
          rw [List.reverse_cons, List.append_assoc] at read
          obtain ⟨o, ho, a, b, e, z, rfl, hy, he, start, text⟩ := ih rest read
          exact ⟨o, ho, c :: a, b, e, z, rfl, hy, he, by simpa using start, text⟩
  | @found before w s v os hw _ _ ih =>
      -- The place lies behind the occurrence or inside it.
      have place : (∃ x', x = w ++ x' ∧ s = x' ++ y) ∨ ∃ d, d ≠ [] ∧ w = x ++ d ∧ y = d ++ s := by
        rcases List.append_eq_append_iff.mp split with ⟨x', hx, hs⟩ | ⟨d, hd, hy⟩
        · exact .inl ⟨x', hx, hs⟩
        · by_cases inside : d = []
          · subst inside
            exact .inl ⟨[], by simpa using hd.symm, hy.symm⟩
          · exact .inr ⟨d, inside, hd, hy⟩
      rcases place with ⟨x', rfl, rest⟩ | ⟨d, hd, rfl, hy⟩
      · rw [List.reverse_append, List.append_assoc] at read
        obtain ⟨o, ho, a, b, e, z, rfl, hy, he, start, text⟩ := ih rest read
        exact ⟨o, List.mem_cons_of_mem _ ho, w ++ a, b, e, z, by simp, hy, he, by simpa using start,
          text⟩
      · have span : Cursor.Spans ⟨before, x ++ d ++ s⟩ (x ++ d) ⟨(x ++ d).reverse ++ before, s⟩ :=
          ⟨rfl, rfl⟩
        refine ⟨_, List.mem_cons_self, [], x, d, s, rfl, hy, hd, ?_, span.textTo⟩
        rw [hy, List.append_assoc]
        rfl

/-- Where a recogniser that takes a character succeeds, there is one of its occurrences. -/
theorem exists_occurrence (hr : Consumes r) {x y : List Char}
    (read : (r ⟨x.reverse, y⟩).isSome = true) :
    ∃ o ∈ r.occurrences (x ++ y), ∃ a b d z, x = a ++ b ∧ y = d ++ z ∧ d ≠ [] ∧
      o.start = ⟨a.reverse, b ++ y⟩ ∧ o.text = b ++ d := by
  have some : r ⟨x.reverse ++ [], y⟩ ≠ none := by
    rw [List.append_nil]
    exact Option.isSome_iff_ne_none.mp read
  simpa using (scans_occurrences hr (x ++ y)).covers hr rfl some

end Recogniser

end TestRepair.Text
