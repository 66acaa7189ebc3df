import TestRepair.Proofs.Script.Reading
import TestRepair.Proofs.Text.Rewriting
import TestRepair.Script.Export

/-!
When a source counts as exporting a class. Each form of export is told by the text in front of the
name of the class and the text behind it.
-/

namespace TestRepair
namespace Script

open Text Recogniser

/-- A name of a class. -/
structure ClassName (name : List Char) : Prop where
  nonempty : name ≠ []
  word : ∀ c ∈ name, isWord c = true

/-- A word with the blanks behind it, or nothing. -/
inductive Optionally (word : List Char) : List Char → Prop
  | absent : Optionally word []
  | present {g : List Char} (ne : g ≠ []) (hg : Blank g) : Optionally word (word ++ g)

/-- What stands in front of the name of an exported class, and what follows it. -/
inductive Exported : (front rest : List Char) → Prop
  | declared {a w o o' g rest : List Char} (start : Apart a.reverse) (ne : w ≠ []) (hw : Blank w)
      (ho : Optionally "default".toList o) (ho' : Optionally "abstract".toList o') (ne' : g ≠ [])
      (hg : Blank g) (stop : Apart rest) :
      Exported (a ++ ("export".toList ++ (w ++ (o ++ (o' ++ ("class".toList ++ g)))))) rest
  | listed {a w m rest : List Char} (start : Apart a.reverse) (hw : Blank w) (hm : '\x7d' ∉ m)
      (inside : Apart m.reverse) (stop : Apart rest) (closed : '\x7d' ∈ rest) :
      Exported (a ++ ("export".toList ++ (w ++ '\x7b' :: m))) rest
  | byDefault {a w g rest : List Char} (start : Apart a.reverse) (ne : w ≠ []) (hw : Blank w)
      (ne' : g ≠ []) (hg : Blank g) (stop : Apart rest) :
      Exported (a ++ ("export".toList ++ (w ++ ("default".toList ++ g)))) rest
  | assigned {a w m rest : List Char} (start : Apart a.reverse) (hw : Blank w) (hm : ';' ∉ m)
      (inside : Apart m.reverse) (stop : Apart rest) :
      Exported (a ++ ("module.exports".toList ++ (w ++ '=' :: m))) rest
  | member {a w rest : List Char} (start : Apart a.reverse) (hw : Blank w) :
      Exported (a ++ "exports.".toList) (w ++ '=' :: rest)

section Words

variable {α : Type} {name word before after rest : List Char}

theorem apart_append_cons {x : Char} (hx : isWord x = false) {u z : List Char} :
    Apart (u ++ x :: z) ↔ Apart u := by
  cases u <;> simp [Apart, hx]

theorem ClassName.head (h : ClassName name) : ∃ c w, name = c :: w ∧ isWord c = true := by
  obtain ⟨c, w, rfl⟩ := List.exists_cons_of_ne_nil h.nonempty
  exact ⟨c, w, rfl, h.word c List.mem_cons_self⟩

theorem ClassName.atBoundary_front (h : ClassName name) :
    Cursor.atBoundary ⟨before, name ++ after⟩ = true ↔ Apart before := by
  obtain ⟨c, w, rfl, hc⟩ := h.head
  exact atBoundary_of_behind hc

theorem ClassName.atBoundary_behind (h : ClassName name) :
    Cursor.atBoundary ⟨name.reverse ++ before, after⟩ = true ↔ Apart after := by
  obtain rfl | ⟨w, c, rfl⟩ := List.eq_nil_or_concat name
  · exact absurd rfl h.nonempty
  · rw [List.concat_eq_append, List.reverse_append]
    exact atBoundary_of_before (h.word c (by simp))

theorem isSome_name_iff (h : ClassName name) :
    ((do literal name; boundary : Recogniser Unit) ⟨before, after⟩).isSome = true ↔
      ∃ rest, after = name ++ rest ∧ Apart rest := by
  have stop {c : Cursor} : (boundary c).isSome = true ↔ c.atBoundary = true := by
    unfold boundary require
    split <;> simp [*]
  simp only [isSome_literal_bind_iff, stop, h.atBoundary_behind]

theorem wholeName_eq_some (h : ClassName name) {c c' : Cursor} {u : Unit}
    (read : wholeName name c = some (u, c')) :
    c.Spans name c' ∧ Apart c.before ∧ Apart c'.after := by
  obtain ⟨_, c₁, start, read⟩ := bind_eq_some_iff.mp read
  obtain ⟨_, c₂, here, stop⟩ := bind_eq_some_iff.mp read
  obtain ⟨edge, rfl⟩ := boundary_eq_some_iff.mp start
  obtain ⟨edge', rfl⟩ := boundary_eq_some_iff.mp stop
  have span := literal_eq_some_iff.mp here
  have front : Cursor.atBoundary ⟨c₁.before, name ++ c'.after⟩ = true := span.after ▸ edge
  have behind : Cursor.atBoundary ⟨name.reverse ++ c₁.before, c'.after⟩ = true := span.before ▸ edge'
  exact ⟨span, h.atBoundary_front.mp front, h.atBoundary_behind.mp behind⟩

theorem isSome_wholeName_bind_iff (h : ClassName name) {f : Unit → Recogniser α} :
    ((wholeName name >>= f) ⟨before, after⟩).isSome = true ↔ Apart before ∧
      ∃ rest, after = name ++ rest ∧ Apart rest ∧
        (f () ⟨name.reverse ++ before, rest⟩).isSome = true := by
  simp only [wholeName, bind_assoc, isSome_boundary_bind_iff, isSome_literal_bind_iff]
  constructor
  · rintro ⟨start, rest, rfl, stop, read⟩
    exact ⟨h.atBoundary_front.mp start, rest, rfl, h.atBoundary_behind.mp stop, read⟩
  · rintro ⟨start, rest, rfl, stop, read⟩
    exact ⟨h.atBoundary_front.mpr start, rest, rfl, h.atBoundary_behind.mpr stop, read⟩

theorem isSome_wholeName_iff (h : ClassName name) :
    (wholeName name ⟨before, after⟩).isSome = true ↔
      Apart before ∧ ∃ rest, after = name ++ rest ∧ Apart rest := by
  have alone : ((wholeName name >>= pure) ⟨before, after⟩).isSome = true ↔ _ :=
    isSome_wholeName_bind_iff h
  have accepts (c : Cursor) : ((pure () : Recogniser Unit) c).isSome = true := rfl
  rw [bind_pure] at alone
  simpa only [accepts, and_true] using alone

theorem optionalWord_eq_some {c c' : Cursor} {u : Unit} (h : optionalWord word c = some (u, c')) :
    ∃ o, Optionally word o ∧ c.Spans o c' := by
  rcases orElse_eq_some_iff.mp h with taken | ⟨-, skipped⟩
  · obtain ⟨_, c₁, here, gap⟩ := bind_eq_some_iff.mp taken
    obtain ⟨g, ne, span, ends⟩ := blanks1_eq_some_iff.mp gap
    exact ⟨word ++ g, .present ne ends.all, (literal_eq_some_iff.mp here).trans span⟩
  · cases skipped
    exact ⟨[], .absent, rfl, rfl⟩

theorem optional_of_isSome {f : Unit → Recogniser α}
    (h : ((optionalWord word >>= f) ⟨before, after⟩).isSome = true) :
    ∃ o rest, after = o ++ rest ∧ Optionally word o ∧
      (f () ⟨o.reverse ++ before, rest⟩).isSome = true := by
  obtain ⟨_, ⟨back, rest⟩, first, read⟩ := isSome_bind_iff.mp h
  obtain ⟨o, ho, span⟩ := optionalWord_eq_some first
  obtain rfl : back = o.reverse ++ before := span.before
  exact ⟨o, rest, span.after, ho, read⟩

/-- No blank comes first, if the word and what follows it begin with none. -/
theorem Optionally.stop {c : Char} {w o : List Char} (ho : Optionally (c :: w) o)
    (hc : isBlank c = false) (stop : ∀ x ∈ rest.head?, isBlank x = false) :
    ∀ x ∈ (o ++ rest).head?, isBlank x = false := by
  cases ho with
  | absent => exact stop
  | present _ _ => simpa using hc

theorem optionalWord_append {o : List Char} (ho : Optionally word o)
    (stop : ∀ x ∈ rest.head?, isBlank x = false) (absent : ¬word <+: rest) :
    optionalWord word ⟨before, o ++ rest⟩ = some ((), ⟨o.reverse ++ before, rest⟩) := by
  cases ho with
  | absent => exact orElse_of_none (bind_of_none (literal_eq_none absent))
  | @present g ne hg =>
      rw [List.append_assoc]
      refine orElse_of_some ?_
      rw [bind_of_some (literal_append ..), blanks1_append ne ⟨hg, stop⟩]
      simp

end Words

section Forms

variable {s name front rest : List Char}

theorem isExported_iff_exists : isExported s name = true ↔
    ∃ form ∈ exportForms name, ∃ x y, s = x ++ y ∧ (form ⟨x.reverse, y⟩).isSome = true := by
  simp only [isExported, List.any_eq_true, occursIn_iff_exists]

theorem exported_of_isExported (h : ClassName name) (hs : isExported s name = true) :
    ∃ front rest, s = front ++ (name ++ rest) ∧ Exported front rest := by
  obtain ⟨form, mem, x, y, rfl, read⟩ := isExported_iff_exists.mp hs
  have edge {c : Char} (hc : isWord c = true) {w : List Char}
      (start : Cursor.atBoundary ⟨x.reverse, c :: w⟩ = true) : Apart x.reverse :=
    (atBoundary_of_behind hc).mp start
  simp only [exportForms, List.mem_cons, List.not_mem_nil, or_false] at mem
  rcases mem with rfl | rfl | rfl | rfl | rfl
  · simp only [isSome_boundary_bind_iff, isSome_literal_bind_iff, isSome_blanks1_bind_iff] at read
    obtain ⟨start, _, rfl, w, _, ne, rfl, hw, read⟩ := read
    obtain ⟨o, _, rfl, ho, read⟩ := optional_of_isSome read
    obtain ⟨o', _, rfl, ho', read⟩ := optional_of_isSome read
    simp only [isSome_literal_bind_iff, isSome_afterBlanks_iff, isSome_name_iff h] at read
    obtain ⟨_, rfl, g, _, ne', rfl, hg, rest, rfl, stop⟩ := read
    exact ⟨_, rest, by simp only [List.append_assoc],
      .declared (edge (c := 'e') rfl start) ne hw.all ho ho' ne' hg stop⟩
  · simp only [isSome_boundary_bind_iff, isSome_literal_bind_iff, isSome_blanks_bind_iff,
      isSome_latest_iff, isSome_wholeName_bind_iff h, isSome_closeBraces_iff] at read
    obtain ⟨start, _, rfl, w, _, rfl, hw, _, rfl, m, _, rfl, hm, inside, rest, rfl, stop, closed⟩ :=
      read
    refine ⟨_, rest, ?_, .listed (edge (c := 'e') rfl start) hw.all (m := m) ?_ ?_ stop closed⟩
    · simp only [List.append_assoc, List.cons_append, List.nil_append]
    · exact fun h => absurd (hm _ h) (by decide)
    · exact (apart_append_cons (by decide)).mp inside
  · simp only [isSome_boundary_bind_iff, isSome_literal_bind_iff, isSome_blanks1_bind_iff,
      isSome_afterBlanks_iff, isSome_name_iff h] at read
    obtain ⟨start, _, rfl, w, _, ne, rfl, hw, _, rfl, g, _, ne', rfl, hg, rest, rfl, stop⟩ := read
    exact ⟨_, rest, by simp only [List.append_assoc],
      .byDefault (edge (c := 'e') rfl start) ne hw.all ne' hg stop⟩
  · simp only [isSome_boundary_bind_iff, isSome_literal_bind_iff, isSome_blanks_bind_iff,
      isSome_latest_iff, isSome_wholeName_iff h] at read
    obtain ⟨start, _, rfl, w, _, rfl, hw, _, rfl, m, _, rfl, hm, inside, rest, rfl, stop⟩ := read
    refine ⟨_, rest, ?_, .assigned (edge (c := 'm') rfl start) hw.all (m := m) ?_ ?_ stop⟩
    · simp only [List.append_assoc, List.cons_append, List.nil_append]
    · exact fun h => absurd (hm _ h) (by decide)
    · exact (apart_append_cons (by decide)).mp inside
  · simp only [isSome_boundary_bind_iff, isSome_literal_bind_iff, isSome_blanks_bind_iff,
      isSome_literal_iff] at read
    obtain ⟨start, _, rfl, _, rfl, w, _, rfl, hw, rest, rfl⟩ := read
    exact ⟨_, w ++ '=' :: rest, by simp only [List.append_assoc, List.cons_append, List.nil_append],
      .member (edge (c := 'e') rfl start) hw.all⟩

/-- A declared class is read from the first word behind `export`, where no blank stands. -/
theorem declared_read (h : ClassName name) {before o o' g : List Char}
    (ho : Optionally "default".toList o) (ho' : Optionally "abstract".toList o') (ne : g ≠ [])
    (hg : Blank g) (stop : Apart rest) {words : List Char}
    (hwords : words = o ++ (o' ++ ("class".toList ++ (g ++ (name ++ rest))))) :
    (∀ x ∈ words.head?, isBlank x = false) ∧
      ((do
        optionalWord "default".toList
        optionalWord "abstract".toList
        literal "class".toList
        afterBlanks do literal name; boundary : Recogniser Unit) ⟨before, words⟩).isSome = true := by
  have first : ∀ x ∈ ("class".toList ++ (g ++ (name ++ rest))).head?, isBlank x = false := by
    simp
    decide
  have second := ho'.stop (c := 'a') rfl first
  have no : ¬"default".toList <+: o' ++ ("class".toList ++ (g ++ (name ++ rest))) := by
    cases ho' <;> simp
  have no' : ¬"abstract".toList <+: "class".toList ++ (g ++ (name ++ rest)) := by simp
  subst hwords
  refine ⟨ho.stop (c := 'd') rfl second, ?_⟩
  rw [bind_of_some (optionalWord_append ho second no),
    bind_of_some (optionalWord_append ho' first no'), isSome_literal_bind_iff]
  exact ⟨_, rfl, isSome_afterBlanks_iff.mpr
    ⟨g, _, ne, rfl, hg, (isSome_name_iff h).mpr ⟨rest, rfl, stop⟩⟩⟩

theorem isExported_of_exported (h : ClassName name) (hs : Exported front rest) :
    isExported (front ++ (name ++ rest)) name = true := by
  have edge {c : Char} (hc : isWord c = true) {x w : List Char} (start : Apart x.reverse) :
      Cursor.atBoundary ⟨x.reverse, c :: w⟩ = true := (atBoundary_of_behind hc).mpr start
  rw [isExported_iff_exists]
  cases hs with
  | @declared a w o o' g rest start ne hw ho ho' ne' hg stop =>
      refine ⟨_, .head _, a, _, List.append_assoc .., ?_⟩
      obtain ⟨gap, read⟩ := declared_read h ho ho' ne' hg stop rfl
      simp only [List.append_assoc, isSome_boundary_bind_iff, isSome_literal_bind_iff,
        isSome_blanks1_bind_iff]
      exact ⟨edge (c := 'e') rfl start, _, rfl, w, _, ne, rfl, ⟨hw, gap⟩, read⟩
  | @listed a w m rest start hw hm inside stop closed =>
      refine ⟨_, .tail _ (.head _), a, _, List.append_assoc .., ?_⟩
      simp only [isSome_boundary_bind_iff, isSome_literal_bind_iff, isSome_blanks_bind_iff,
        isSome_latest_iff, isSome_wholeName_bind_iff h, isSome_closeBraces_iff, List.append_assoc]
      refine ⟨edge (c := 'e') rfl start, _, rfl, w, _, rfl, hw.ends rfl, m ++ (name ++ rest), rfl, m, _,
        rfl, ?_, (apart_append_cons (by decide)).mpr inside, rest, rfl, stop, closed⟩
      intro x hx
      have other : x ≠ '\x7d' := fun e => hm (e ▸ hx)
      simp [inBraces, other]
  | @byDefault a w g rest start ne hw ne' hg stop =>
      refine ⟨_, .tail _ (.tail _ (.head _)), a, _, List.append_assoc .., ?_⟩
      simp only [isSome_boundary_bind_iff, isSome_literal_bind_iff, isSome_blanks1_bind_iff,
        isSome_afterBlanks_iff, isSome_name_iff h, List.append_assoc]
      exact ⟨edge (c := 'e') rfl start, _, rfl, w, _, ne, rfl, hw.ends rfl, _, rfl, g, _, ne', rfl, hg,
        rest, rfl, stop⟩
  | @assigned a w m rest start hw hm inside stop =>
      refine ⟨_, .tail _ (.tail _ (.tail _ (.head _))), a, _, List.append_assoc .., ?_⟩
      simp only [isSome_boundary_bind_iff, isSome_literal_bind_iff, isSome_blanks_bind_iff,
        isSome_latest_iff, isSome_wholeName_iff h, List.append_assoc]
      refine ⟨edge (c := 'm') rfl start, _, rfl, w, _, rfl, hw.ends rfl, m ++ (name ++ rest), rfl, m, _,
        rfl, ?_, (apart_append_cons (by decide)).mpr inside, rest, rfl, stop⟩
      intro x hx
      have other : x ≠ ';' := fun e => hm (e ▸ hx)
      simp [other]
  | @member a w rest start hw =>
      refine ⟨_, .tail _ (.tail _ (.tail _ (.tail _ (.head _)))), a, _, List.append_assoc .., ?_⟩
      simp only [isSome_boundary_bind_iff, isSome_literal_bind_iff, isSome_blanks_bind_iff,
        isSome_literal_iff]
      exact ⟨edge (c := 'e') rfl start, _, rfl, _, rfl, w, _, rfl, hw.ends rfl, ⟨rest, rfl⟩⟩

/-- A source counts as exporting a class just if the name stands in one of the forms of export. -/
theorem isExported_iff {s name : List Char} (h : ClassName name) : isExported s name = true ↔
    ∃ front rest, s = front ++ (name ++ rest) ∧ Exported front rest := by
  constructor
  · exact exported_of_isExported h
  · rintro ⟨front, rest, rfl, hs⟩
    exact isExported_of_exported h hs

/-- An export stays one when something follows. -/
theorem Exported.append (h : Exported front rest) (ne : rest ≠ []) (more : List Char) :
    Exported front (rest ++ more) := by
  have edge (stop : Apart rest) : Apart (rest ++ more) := by
    obtain ⟨c, w, rfl⟩ := List.exists_cons_of_ne_nil ne
    exact stop
  cases h with
  | declared start ne hw ho ho' ne' hg stop => exact .declared start ne hw ho ho' ne' hg (edge stop)
  | listed start hw hm inside stop closed =>
      exact .listed start hw hm inside (edge stop) (List.mem_append_left more closed)
  | byDefault start ne hw ne' hg stop => exact .byDefault start ne hw ne' hg (edge stop)
  | assigned start hw hm inside stop => exact .assigned start hw hm inside (edge stop)
  | member start hw =>
      rw [List.append_assoc]
      exact .member start hw

theorem isDeclared_iff {s name : List Char} (h : ClassName name) : isDeclared s name = true ↔
    ∃ a g rest, s = a ++ ("class".toList ++ (g ++ (name ++ rest))) ∧ Apart a.reverse ∧ g ≠ [] ∧
      Blank g ∧ Apart rest := by
  simp only [isDeclared, declaration, occursIn_iff_exists, isSome_boundary_bind_iff,
    isSome_literal_bind_iff, isSome_afterBlanks_iff, isSome_name_iff h]
  constructor
  · rintro ⟨x, y, rfl, start, _, rfl, g, _, ne, rfl, hg, rest, rfl, stop⟩
    have edge : Apart x.reverse := (atBoundary_of_behind (x := 'c') rfl).mp start
    exact ⟨x, g, rest, rfl, edge, ne, hg, stop⟩
  · rintro ⟨a, g, rest, rfl, start, ne, hg, stop⟩
    exact ⟨a, _, rfl, (atBoundary_of_behind (x := 'c') rfl).mpr start, _, rfl, g, _, ne, rfl, hg, rest,
      rfl, stop⟩

end Forms

end Script
end TestRepair
