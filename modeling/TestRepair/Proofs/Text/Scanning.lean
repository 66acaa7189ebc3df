import TestRepair.Proofs.Text.Replacing
import TestRepair.Text.Cursor

/-!
Where a recogniser succeeds in a text. Every occurrence is a reading of the recogniser at its place,
and the scan comes to the first place where the recogniser does not refuse.
-/

namespace TestRepair.Text.Recogniser

theorem bind_eq_some_iff {α β : Type} {r : Recogniser α} {f : α → Recogniser β} {c c' : Cursor}
    {b : β} : (r >>= f) c = some (b, c') ↔ ∃ a c₁, r c = some (a, c₁) ∧ f a c₁ = some (b, c') := by
  change (r c).bind (fun p => f p.1 p.2) = _ ↔ _
  simp [Option.bind_eq_some_iff]

theorem bind_of_some {α β : Type} {r : Recogniser α} {f : α → Recogniser β} {c c₁ : Cursor} {a : α}
    (h : r c = some (a, c₁)) : (r >>= f) c = f a c₁ := by
  change (r c).bind (fun p => f p.1 p.2) = _
  rw [h]
  rfl

theorem get_bind {β : Type} (f : Cursor → Recogniser β) (c : Cursor) : (get >>= f) c = f c c := rfl

theorem boundary_eq_some {c c' : Cursor} {u : Unit} (h : boundary c = some (u, c')) : c' = c := by
  unfold boundary require at h
  split at h
  · exact (Prod.mk.inj (Option.some.inj h)).2.symm
  · cases h

theorem literal_eq_some {p : List Char} {c c' : Cursor} {u : Unit}
    (h : literal p c = some (u, c')) :
    c.after = p ++ c'.after ∧ c'.before = p.reverse ++ c.before := by
  obtain ⟨rest, found, h⟩ := Option.map_eq_some_iff.mp h
  obtain ⟨-, rfl⟩ := Prod.mk.inj h
  exact ⟨rest?_eq_some_iff.mp found, rfl⟩

theorem optional_eq_some {p : List Char} {c c' : Cursor} {u : Unit}
    (h : Recogniser.optional p c = some (u, c')) :
    ∃ w, c.after = w ++ c'.after ∧ c'.before = w.reverse ++ c.before := by
  change (literal p c).orElse (fun _ => some ((), c)) = _ at h
  cases found : literal p c with
  | some read =>
    rw [found] at h
    cases h
    exact ⟨p, literal_eq_some found⟩
  | none =>
    rw [found] at h
    cases h
    exact ⟨[], rfl, rfl⟩

@[simp]
theorem literal_append (p before after : List Char) :
    literal p ⟨before, p ++ after⟩ = some ((), ⟨p.reverse ++ before, after⟩) := by
  simp [literal]

variable {α : Type} {r : Recogniser α}

theorem at?_eq_some {behind : Bool} {c : Cursor} {o : Occurrence α}
    (h : r.at? behind c = some o) : o.start = c ∧ r c = some (o.value, o.stop) := by
  unfold at? at h
  split at h
  · cases h
  · next value stop found =>
    split at h
    · cases h
    · cases h
      exact ⟨rfl, found⟩

theorem mem_occurrencesFrom {o : Occurrence α} {skip : Nat} {behind : Bool}
    {before after : List Char} (h : o ∈ occurrencesFrom r skip behind before after) :
    ∃ x y, after = x ++ y ∧ o.start = ⟨x.reverse ++ before, y⟩ ∧
      r o.start = some (o.value, o.stop) := by
  induction after generalizing skip behind before with
  | nil =>
    unfold occurrencesFrom at h
    split at h
    · obtain ⟨place, read⟩ := at?_eq_some (Option.mem_toList.mp h)
      exact ⟨[], [], rfl, place, place ▸ read⟩
    · cases h
  | cons c after ih =>
    -- An occurrence further on has one more character before it.
    have later {k : Nat} {b : Bool} (h : o ∈ occurrencesFrom r k b (c :: before) after) :
        ∃ x y, c :: after = x ++ y ∧ o.start = ⟨x.reverse ++ before, y⟩ ∧
          r o.start = some (o.value, o.stop) := by
      obtain ⟨x, y, rfl, place, read⟩ := ih h
      exact ⟨c :: x, y, rfl, by simpa using place, read⟩
    unfold occurrencesFrom at h
    split at h
    · exact later h
    · split at h
      · next found =>
        rcases List.mem_cons.mp h with rfl | h
        · obtain ⟨place, read⟩ := at?_eq_some found
          exact ⟨[], c :: after, rfl, place, place ▸ read⟩
        · exact later h
      · exact later h

theorem mem_occurrences {o : Occurrence α} {s : List Char} (h : o ∈ r.occurrences s) :
    ∃ x y, s = x ++ y ∧ o.start = ⟨x.reverse, y⟩ ∧ r o.start = some (o.value, o.stop) := by
  simpa using mem_occurrencesFrom h

/-- The scan passes places where the recogniser refuses. -/
theorem occurrencesFrom_append {before after : List Char} (x : List Char)
    (h : ∀ y z, x = y ++ z → z ≠ [] → r ⟨y.reverse ++ before, z ++ after⟩ = none) :
    occurrencesFrom r 0 false before (x ++ after) =
      occurrencesFrom r 0 false (x.reverse ++ before) after := by
  induction x generalizing before with
  | nil => rfl
  | cons c x ih =>
    have refused : r ⟨before, c :: (x ++ after)⟩ = none := h [] (c :: x) rfl (by simp)
    have missed : r.at? false ⟨before, c :: (x ++ after)⟩ = none := by simp [at?, refused]
    rw [List.cons_append, occurrencesFrom, missed]
    simpa using ih fun y z e hz => by simpa [e] using h (c :: y) z (by simp [e]) hz

theorem at?_false_eq_none {c : Cursor} : r.at? false c = none ↔ r c = none := by
  cases h : r c <;> simp [at?, h]

theorem head?_occurrencesFrom {before s : List Char} {o : Occurrence α}
    (h : (occurrencesFrom r 0 false before s).head? = some o) :
    ∃ x y, s = x ++ y ∧ o.start = ⟨x.reverse ++ before, y⟩ ∧ r o.start = some (o.value, o.stop) ∧
      ∀ a b, x = a ++ b → b ≠ [] → r ⟨a.reverse ++ before, b ++ y⟩ = none := by
  induction s generalizing before with
  | nil =>
      rw [occurrencesFrom, if_pos rfl, Option.head?_toList] at h
      obtain ⟨place, read⟩ := at?_eq_some h
      refine ⟨[], [], rfl, place, place ▸ read, ?_⟩
      intro a b e hb
      exact absurd (List.append_eq_nil_iff.mp e.symm).2 hb
  | cons c s ih =>
      rw [occurrencesFrom] at h
      cases read : r.at? false ⟨before, c :: s⟩ with
      | some o' =>
          simp only [read, List.head?_cons, Option.some.injEq] at h
          obtain ⟨place, read⟩ := at?_eq_some (h ▸ read)
          refine ⟨[], c :: s, rfl, place, place ▸ read, ?_⟩
          intro a b e hb
          exact absurd (List.append_eq_nil_iff.mp e.symm).2 hb
      | none =>
          simp only [read] at h
          obtain ⟨x, y, rfl, place, found, least⟩ := ih h
          refine ⟨c :: x, y, rfl, by simpa using place, found, ?_⟩
          intro a b e hb
          cases a with
          | nil =>
              obtain rfl : c :: x = b := e
              exact at?_false_eq_none.mp read
          | cons d a =>
              obtain ⟨rfl, rest⟩ := List.cons.inj e
              simpa using least a b rest hb

/-- The leftmost place is the first at which the recogniser does not refuse. -/
theorem first?_eq_some_iff {s : List Char} {o : Occurrence α} : r.first? s = some o ↔
    ∃ x y, s = x ++ y ∧ o.start = ⟨x.reverse, y⟩ ∧ r o.start = some (o.value, o.stop) ∧
      ∀ a b, x = a ++ b → b ≠ [] → r ⟨a.reverse, b ++ y⟩ = none := by
  constructor
  · intro h
    simpa using head?_occurrencesFrom h
  · obtain ⟨start, stop, value⟩ := o
    rintro ⟨x, y, rfl, rfl, read, least⟩
    have found : r.at? false ⟨x.reverse, y⟩ = some ⟨⟨x.reverse, y⟩, stop, value⟩ := by
      simp [at?, read]
    rw [first?, occurrences, occurrencesFrom_append x (by simpa using least), List.append_nil]
    cases y with
    | nil => simp [occurrencesFrom, found]
    | cons c y => simp [occurrencesFrom, found]

/-- The scan stops at the first place where the recogniser succeeds. -/
theorem mem_occurrences_of_read {x y : List Char} {value : α} {stop : Cursor}
    (h : ∀ a b, x = a ++ b → b ≠ [] → r ⟨a.reverse, b ++ y⟩ = none)
    (read : r ⟨x.reverse, y⟩ = some (value, stop)) :
    (⟨⟨x.reverse, y⟩, stop, value⟩ : Occurrence α) ∈ r.occurrences (x ++ y) :=
  List.mem_of_mem_head? (first?_eq_some_iff.mpr ⟨x, y, rfl, rfl, read, h⟩)

/-- What belongs to an occurrence is passed, and behind the last character nothing is read. -/
theorem occurrencesFrom_eq_nil {before after : List Char} {behind : Bool}
    (h : r ⟨after.reverse ++ before, []⟩ = none) :
    occurrencesFrom r after.length behind before after = [] := by
  induction after generalizing before behind with
  | nil =>
    have missed : r ⟨before, []⟩ = none := by simpa using h
    simp [occurrencesFrom, at?, missed]
  | cons c after ih =>
    rw [List.length_cons, occurrencesFrom]
    exact ih (by simpa using h)

/-- An occurrence that takes the whole text is the only one. -/
theorem occurrences_eq_singleton {s : List Char} {value : α} (hs : s ≠ [])
    (read : r ⟨[], s⟩ = some (value, ⟨s.reverse, []⟩)) (h : r ⟨s.reverse, []⟩ = none) :
    r.occurrences s = [⟨⟨[], s⟩, ⟨s.reverse, []⟩, value⟩] := by
  obtain ⟨c, s, rfl⟩ := List.exists_cons_of_ne_nil hs
  let o : Occurrence α := ⟨⟨[], c :: s⟩, ⟨(c :: s).reverse, []⟩, value⟩
  have found : r.at? false ⟨[], c :: s⟩ = some o := by simp [at?, read, o]
  have length : o.length = s.length + 1 := by simp [o, Occurrence.length, Cursor.offset]
  rw [occurrences, occurrencesFrom, found]
  simp only [length, Nat.add_sub_cancel]
  rw [occurrencesFrom_eq_nil (by simpa using h)]

end TestRepair.Text.Recogniser
