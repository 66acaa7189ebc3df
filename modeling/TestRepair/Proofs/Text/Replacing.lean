import TestRepair.Text.Search

/-!
Occurrences of one text in another, and what replacing them gives. Replacing is told at its two
steps: at an occurrence the new text is written and the occurrence is passed, anywhere else one
character is kept.
-/

namespace TestRepair.Text

theorem rest?_eq_some_iff {pat s r : List Char} : rest? pat s = some r ↔ s = pat ++ r := by
  induction pat generalizing s with
  | nil => simp [rest?]
  | cons p pat ih =>
    cases s with
    | nil => simp [rest?]
    | cons c s =>
      by_cases h : p = c
      · simp [rest?, h, ih]
      · simp [rest?, h, Ne.symm h]

@[simp]
theorem rest?_append (pat s : List Char) : rest? pat (pat ++ s) = some s :=
  rest?_eq_some_iff.mpr rfl

theorem rest?_eq_none_iff {pat s : List Char} : rest? pat s = none ↔ ¬pat <+: s := by
  rw [Option.eq_none_iff_forall_ne_some]
  constructor
  · rintro missed ⟨r, split⟩
    exact missed r (rest?_eq_some_iff.mpr split.symm)
  · intro missed r found
    exact missed ⟨r, (rest?_eq_some_iff.mp found).symm⟩

theorem front?_eq_some_iff {pat s r : List Char} : front? pat s = some r ↔ s = r ++ pat := by
  rw [front?, Option.map_eq_some_iff]
  constructor
  · rintro ⟨back, read, rfl⟩
    have reversed : s.reverse = pat.reverse ++ back := rest?_eq_some_iff.mp read
    rw [← List.reverse_reverse s, reversed, List.reverse_append, List.reverse_reverse]
  · rintro rfl
    exact ⟨r.reverse, rest?_eq_some_iff.mpr List.reverse_append, List.reverse_reverse r⟩

theorem startsWith_iff {pat s : List Char} : startsWith pat s = true ↔ pat <+: s := by
  rw [startsWith, Option.isSome_iff_exists]
  exact ⟨fun ⟨r, h⟩ => ⟨r, (rest?_eq_some_iff.mp h).symm⟩,
    fun ⟨r, h⟩ => ⟨r, rest?_eq_some_iff.mpr h.symm⟩⟩

theorem endsWith_iff {pat s : List Char} : endsWith pat s = true ↔ pat <:+ s := by
  rw [endsWith, front?, Option.isSome_map, ← startsWith, startsWith_iff, List.reverse_prefix]

theorem endsWith_singleton (c : Char) (s : List Char) :
    endsWith [c] s = true ↔ s.getLast? = some c := by
  rw [endsWith_iff, List.getLast?_eq_some_iff]
  exact exists_congr fun _ => eq_comm

theorem occursIn_iff {pat s : List Char} : occursIn pat s = true ↔ pat <:+: s := by
  induction s with
  | nil => simp [occursIn, startsWith_iff]
  | cons c s ih => simp [occursIn, startsWith_iff, ih, List.infix_cons_iff]

/-- A text before the first mark ends no later than a text before any mark. -/
theorem first_mark {P : Char → Prop} {pre w s t : List Char} {c d : Char}
    (bare : ∀ c ∈ pre, ¬P c) (hd : P d) (h : pre ++ c :: s = w ++ d :: t) :
    (w = pre ∧ d = c ∧ t = s) ∨ pre.length < w.length := by
  rcases List.append_eq_append_iff.mp h with ⟨_ | ⟨b, a⟩, rfl, e⟩ | ⟨_ | ⟨b, a⟩, rfl, e⟩
  · obtain ⟨rfl, rfl⟩ := List.cons.inj e
    exact .inl ⟨by simp, rfl, rfl⟩
  · exact .inr (by simp)
  · obtain ⟨rfl, rfl⟩ := List.cons.inj e
    exact .inl ⟨by simp, rfl, rfl⟩
  · obtain ⟨rfl, -⟩ := List.cons.inj e
    exact absurd hd (bare _ (by simp))

theorem replaceFrom_eq_drop (old new : List Char) (k : Nat) (s : List Char) :
    replaceFrom old new k s = replaceFrom old new 0 (s.drop k) := by
  induction s generalizing k with
  | nil => cases k <;> simp [replaceFrom]
  | cons c s ih =>
    cases k with
    | zero => rfl
    | succ k => simp [replaceFrom, ih k]

/-- At an occurrence the new text is written. -/
theorem replaceAll_append {old : List Char} (h : old ≠ []) (new s : List Char) :
    replaceAll old new (old ++ s) = new ++ replaceAll old new s := by
  obtain ⟨p, pat, rfl⟩ := List.exists_cons_of_ne_nil h
  have found : startsWith (p :: pat) (p :: (pat ++ s)) = true :=
    startsWith_iff.mpr ⟨s, rfl⟩
  simp [replaceAll, replaceFrom, found, replaceFrom_eq_drop _ _ pat.length]

/-- Elsewhere a character is kept. -/
theorem replaceAll_cons {old : List Char} {c : Char} {s : List Char} (h : ¬old <+: c :: s)
    (new : List Char) : replaceAll old new (c :: s) = c :: replaceAll old new s := by
  have proper : old ≠ [] := fun e => h (e ▸ List.nil_prefix)
  have missed : startsWith old (c :: s) = false := by
    rw [← Bool.not_eq_true, startsWith_iff]
    exact h
  simp [replaceAll, proper, replaceFrom, missed]

@[simp]
theorem replaceAll_nil (old new : List Char) : replaceAll old new [] = [] := by
  simp [replaceAll, replaceFrom]

/-- Induction along a replacement: an occurrence is passed as a whole, anything else one character
at a time. -/
theorem replaceAll_induction {old : List Char} (hold : old ≠ []) {motive : List Char → Prop}
    (nil : motive []) (found : ∀ s, motive s → motive (old ++ s))
    (kept : ∀ c s, ¬old <+: c :: s → motive s → motive (c :: s)) (s : List Char) : motive s := by
  induction hn : s.length using Nat.strongRecOn generalizing s with
  | ind n ih =>
    by_cases hp : old <+: s
    · obtain ⟨rest, rfl⟩ := hp
      have := List.length_pos_iff.mpr hold
      exact found rest (ih rest.length (by simp only [← hn, List.length_append]; omega) rest rfl)
    · cases s with
      | nil => exact nil
      | cons c s => exact kept c s hp (ih s.length (by simp [← hn]) s rfl)

theorem replaceAll_self {old : List Char} (h : old ≠ []) (new : List Char) :
    replaceAll old new old = new := by
  simpa using replaceAll_append h new []

theorem replaceAll_of_absent {old s : List Char} (h : ¬old <:+: s) (new : List Char) :
    replaceAll old new s = s := by
  induction s with
  | nil => simp
  | cons c s ih =>
    rw [List.infix_cons_iff, not_or] at h
    rw [replaceAll_cons h.1, ih h.2]

/-- An occurrence of a text that starts in `s` and ends in the text behind it. -/
def Straddles (w s t : List Char) : Prop :=
  ∃ u v, u ≠ [] ∧ v ≠ [] ∧ w = u ++ v ∧ u <:+ s ∧ v <+: t

theorem Straddles.of_suffix {w s s' t : List Char} (h : Straddles w s t) (hs : s <:+ s') :
    Straddles w s' t := by
  obtain ⟨u, v, hu, hv, hw, suffix, hp⟩ := h
  exact ⟨u, v, hu, hv, hw, suffix.trans hs, hp⟩

theorem prefix_of_not_straddles {w s t : List Char} (h : ¬Straddles w s t) (hs : s ≠ [])
    (hp : w <+: s ++ t) : w <+: s := by
  rcases List.prefix_or_prefix_of_prefix hp (List.prefix_append s t) with inside | ⟨v, rfl⟩
  · exact inside
  · have behind : v <+: t := (List.prefix_append_right_inj s).mp hp
    cases v with
    | nil => simp
    | cons c v => exact absurd ⟨s, c :: v, hs, nofun, rfl, List.suffix_rfl, behind⟩ h

theorem infix_append_of_not_straddles {w s t : List Char} (h : ¬Straddles w s t)
    (hw : w <:+: s ++ t) : w <:+: s ∨ w <:+: t := by
  rcases List.infix_append_iff.mp hw with inside | inside | ⟨u, v, split, hu, hv⟩
  · exact .inl inside
  · exact .inr inside
  · rcases u with _ | ⟨c, u⟩
    · exact .inr (split ▸ hv.isInfix)
    rcases v with _ | ⟨d, v⟩
    · exact .inl (by simpa [split] using hu.isInfix)
    exact absurd ⟨c :: u, d :: v, nofun, nofun, split, hu, hv⟩ h

/-- Where no occurrence starts in one part and ends in the next, each part is rewritten alone. -/
theorem replaceAll_append_of_not_straddles {old : List Char} (hold : old ≠ []) (new : List Char)
    {s t : List Char} (h : ¬Straddles old s t) :
    replaceAll old new (s ++ t) = replaceAll old new s ++ replaceAll old new t := by
  induction s using replaceAll_induction hold with
  | nil => simp
  | found s ih =>
    have apart : ¬Straddles old s t := fun k => h (k.of_suffix (List.suffix_append old s))
    rw [List.append_assoc, replaceAll_append hold, replaceAll_append hold, ih apart,
      List.append_assoc]
  | kept c s hp ih =>
    have apart : ¬Straddles old s t := fun k => h (k.of_suffix (List.suffix_cons c s))
    have missed : ¬old <+: c :: (s ++ t) := fun k => hp (prefix_of_not_straddles h nofun k)
    rw [List.cons_append, replaceAll_cons missed, replaceAll_cons hp, ih apart, List.cons_append]

theorem replaceAll_same (old s : List Char) : replaceAll old old s = s := by
  by_cases hold : old = []
  · rw [hold]
    rfl
  · induction s using replaceAll_induction hold with
    | nil => simp
    | found s ih => rw [replaceAll_append hold, ih]
    | kept c s hp ih => rw [replaceAll_cons hp, ih]

/-- Replacing shifts the number of a character by as much for every occurrence. -/
theorem count_replaceAll {old : List Char} (h : old ≠ []) (new s : List Char) :
    ∃ k, (old <:+: s → 0 < k) ∧ ∀ c : Char,
      (replaceAll old new s).count c + k * old.count c = s.count c + k * new.count c := by
  induction s using replaceAll_induction h with
  | nil => exact ⟨0, fun hi => absurd (List.eq_nil_of_infix_nil hi) h, by simp⟩
  | found s ih =>
    obtain ⟨k, -, count⟩ := ih
    refine ⟨k + 1, fun _ => Nat.succ_pos k, fun c => ?_⟩
    have := count c
    simp only [replaceAll_append h, List.count_append, Nat.add_mul, Nat.one_mul]
    omega
  | kept d s hp ih =>
    obtain ⟨k, found, count⟩ := ih
    refine ⟨k, fun hi => found ?_, fun c => ?_⟩
    · exact (List.infix_cons_iff.mp hi).resolve_left hp
    · have := count c
      simp only [replaceAll_cons hp, List.count_cons]
      omega

section Ends

variable {P : Char → Prop} {old new s : List Char} {c d : Char}

theorem head?_replaceAll (hold : old ≠ []) (hs : s.head? = some c) (hc : P c)
    (hnew : new.head? = some d) (hd : P d) : ∃ e, (replaceAll old new s).head? = some e ∧ P e := by
  induction s using replaceAll_induction hold with
  | nil => cases hs
  | found s => exact ⟨d, by simp [replaceAll_append hold, hnew], hd⟩
  | kept b s hp =>
    cases hs
    exact ⟨c, by simp [replaceAll_cons hp], hc⟩

theorem getLast?_replaceAll (hold : old ≠ []) (hs : s.getLast? = some c) (hc : P c)
    (hnew : new.getLast? = some d) (hd : P d) :
    ∃ e, (replaceAll old new s).getLast? = some e ∧ P e := by
  induction s using replaceAll_induction hold with
  | nil => cases hs
  | found s ih =>
    rw [replaceAll_append hold]
    cases s with
    | nil => exact ⟨d, by simpa using hnew, hd⟩
    | cons b s =>
      obtain ⟨e, last, he⟩ := ih (by simpa [List.getLast?_append] using hs)
      exact ⟨e, by simp [List.getLast?_append, last], he⟩
  | kept b s hp ih =>
    rw [replaceAll_cons hp]
    cases s with
    | nil => exact ⟨c, by simpa using hs, hc⟩
    | cons b' s =>
      obtain ⟨e, last, he⟩ := ih (by simpa [List.getLast?_cons] using hs)
      exact ⟨e, by simp [List.getLast?_cons, last], he⟩

end Ends

/-- What starts with another character is never written in vain. -/
theorem replaceAll_ne {a b : Char} (hab : a ≠ b) {old new s : List Char} (h : a :: old <:+: s) :
    replaceAll (a :: old) (b :: new) s ≠ s := by
  induction s with
  | nil => cases List.eq_nil_of_infix_nil h
  | cons c s ih =>
    by_cases hp : a :: old <+: c :: s
    · obtain ⟨rest, e⟩ := hp
      rw [← e, replaceAll_append (by simp)]
      exact fun e => hab (List.cons.inj e).1.symm
    · rw [replaceAll_cons hp]
      exact fun e => ih ((List.infix_cons_iff.mp h).resolve_left hp) (List.cons.inj e).2

end TestRepair.Text
