import TestRepair.Proofs.Script.Endings
import TestRepair.Proofs.Script.Reading

/-!
The relative imports of a script in one quote style: what stands before the specifier, what the
specifier can hold, and that the recogniser reads these texts and no others.
-/

namespace TestRepair
namespace Script

open Text Recogniser

/-- What stands before the specifier of an import. -/
inductive Lead : List Char → Prop
  | clause {w : List Char} (hw : Blank w) : Lead ("from".toList ++ w)
  | call {w w' : List Char} (hw : Blank w) (hw' : Blank w') :
      Lead ("import".toList ++ w ++ '(' :: w')
  | bare {w : List Char} (hw : Blank w) (ne : w ≠ []) : Lead ("import".toList ++ w)

/-- A relative specifier that can stand between two quotes `q`. -/
structure Relative (q : Char) (specifier : List Char) : Prop where
  relative : isRelative specifier = true
  noQuote : q ∉ specifier
  oneLine : '\n' ∉ specifier

/-- An import with a relative specifier between two quotes `q` starts between `before` and `after`. -/
structure Import (q : Char) (before after lead specifier rest : List Char) : Prop where
  apart : Apart before
  leads : Lead lead
  relative : Relative q specifier
  text : after = lead ++ q :: (specifier ++ q :: rest)

/-- The quotes of import specifiers. -/
def Style (q : Char) : Prop := q = '\x27' ∨ q = '"'

instance (q : Char) : Decidable (Style q) := inferInstanceAs (Decidable (_ ∨ _))

section Reading

variable {q : Char} {lead specifier rest before after : List Char}

theorem Lead.head (h : Lead lead) :
    ∃ c w, lead = c :: w ∧ (c = 'f' ∨ c = 'i') ∧ 'f' ∉ w ∧ 'i' ∉ w := by
  have plain {w : List Char} (hw : Blank w) : 'f' ∉ w ∧ 'i' ∉ w :=
    ⟨fun h => absurd (hw _ h) (by decide), fun h => absurd (hw _ h) (by decide)⟩
  cases h with
  | @clause w hw => exact ⟨'f', "rom".toList ++ w, rfl, .inl rfl, by simp [plain hw]⟩
  | @call w w' hw hw' =>
      exact ⟨'i', "mport".toList ++ w ++ '(' :: w', rfl, .inr rfl, by simp [plain hw, plain hw']⟩
  | @bare w hw => exact ⟨'i', "mport".toList ++ w, rfl, .inr rfl, by simp [plain hw]⟩

theorem Lead.notMem (h : Lead lead) (hq : Style q) : q ∉ lead := by
  have plain {w : List Char} (hw : Blank w) : q ∉ w := by
    intro hmem
    have blank := hw q hmem
    rcases hq with rfl | rfl <;> exact absurd blank (by decide)
  have words : q ∉ "from".toList ∧ q ∉ "import".toList ∧ q ≠ '(' := by
    rcases hq with rfl | rfl <;> decide
  cases h with
  | clause hw => simp only [List.mem_append, words, plain hw, or_self, not_false_eq_true]
  | call hw hw' =>
      simp only [List.mem_append, List.mem_cons, words, plain hw, plain hw', or_self,
        not_false_eq_true]
  | bare hw => simp only [List.mem_append, words, plain hw, or_self, not_false_eq_true]

theorem atBoundary_iff (h : Lead lead) :
    Cursor.atBoundary ⟨before, lead ++ rest⟩ = true ↔ Apart before := by
  obtain ⟨c, w, rfl, hc, -⟩ := h.head
  exact atBoundary_of_behind (by rcases hc with rfl | rfl <;> rfl)

theorem importLead_eq_some {c c' : Cursor} {u : Unit} (h : importLead c = some (u, c')) :
    ∃ lead, Lead lead ∧ c.Spans lead c' ∧ c.atBoundary = true := by
  simp only [importLead, firstOf, orElse_eq_some_iff] at h
  rcases h with h | ⟨-, h | ⟨-, h | ⟨-, h⟩⟩⟩
  · obtain ⟨_, _, start, h₁⟩ := bind_eq_some_iff.mp h
    obtain ⟨_, _, word, h₂⟩ := bind_eq_some_iff.mp h₁
    obtain ⟨edge, rfl⟩ := boundary_eq_some_iff.mp start
    obtain ⟨w, span, ends⟩ := blanks_eq_some_iff.mp h₂
    exact ⟨_, .clause ends.all, (literal_eq_some_iff.mp word).trans span, edge⟩
  · obtain ⟨_, _, start, h₁⟩ := bind_eq_some_iff.mp h
    obtain ⟨_, _, word, h₂⟩ := bind_eq_some_iff.mp h₁
    obtain ⟨_, _, gap, h₃⟩ := bind_eq_some_iff.mp h₂
    obtain ⟨_, _, bracket, h₄⟩ := bind_eq_some_iff.mp h₃
    obtain ⟨edge, rfl⟩ := boundary_eq_some_iff.mp start
    obtain ⟨w, span, ends⟩ := blanks_eq_some_iff.mp gap
    obtain ⟨w', span', ends'⟩ := blanks_eq_some_iff.mp h₄
    have read := (((literal_eq_some_iff.mp word).trans span).trans
      (literal_eq_some_iff.mp bracket)).trans span'
    exact ⟨_, .call ends.all ends'.all, by simpa using read, edge⟩
  · obtain ⟨_, _, start, h₁⟩ := bind_eq_some_iff.mp h
    obtain ⟨_, _, word, h₂⟩ := bind_eq_some_iff.mp h₁
    obtain ⟨edge, rfl⟩ := boundary_eq_some_iff.mp start
    obtain ⟨w, ne, span, ends⟩ := blanks1_eq_some_iff.mp h₂
    exact ⟨_, .bare ends.all ne, (literal_eq_some_iff.mp word).trans span, edge⟩
  · cases h

theorem Style.ends (hq : Style q) {w : List Char} (hw : Blank w) : Ends isBlank w (q :: rest) :=
  hw.ends (by rcases hq with rfl | rfl <;> rfl)

theorem importLead_of_lead (h : Lead lead) (apart : Apart before) (hq : Style q)
    (rest : List Char) :
    importLead ⟨before, lead ++ q :: rest⟩ = some ((), ⟨lead.reverse ++ before, q :: rest⟩) := by
  have start : boundary ⟨before, lead ++ q :: rest⟩ = some ((), ⟨before, lead ++ q :: rest⟩) :=
    boundary_eq_some_iff.mpr ⟨(atBoundary_iff h).mpr apart, rfl⟩
  have nothingFrom {w : List Char} {α : Type} (f : Unit → Recogniser α) :
      (literal "from".toList >>= f) ⟨before, "import".toList ++ w⟩ = none :=
    bind_of_none (literal_eq_none (by rintro ⟨_, e⟩; simp at e))
  cases h with
  | @clause w hw =>
      refine orElse_of_some ?_
      rw [bind_of_some start, List.append_assoc, bind_of_some (literal_append ..)]
      simpa using blanks_append (hq.ends hw)
  | @call w w' hw hw' =>
      have gap : Ends isBlank w ('(' :: (w' ++ q :: rest)) := hw.ends rfl
      simp only [List.append_assoc, List.cons_append] at start ⊢
      rw [importLead, firstOf, orElse_of_none (by rw [bind_of_some start, nothingFrom])]
      refine orElse_of_some ?_
      rw [bind_of_some start, bind_of_some (literal_append ..),
        bind_of_some (blanks_append gap), bind_of_some (literal_cons ..)]
      simpa using blanks_append (hq.ends hw')
  | @bare w hw ne =>
      have bracket : ¬['('] <+: q :: rest := by
        rintro ⟨_, e⟩
        rcases hq with rfl | rfl <;> simp at e
      simp only [List.append_assoc] at start ⊢
      rw [importLead, firstOf, orElse_of_none (by rw [bind_of_some start, nothingFrom]), firstOf,
        orElse_of_none, firstOf]
      · refine orElse_of_some ?_
        rw [bind_of_some start, bind_of_some (literal_append ..)]
        simpa using blanks1_append ne (hq.ends hw)
      · rw [bind_of_some start, bind_of_some (literal_append ..),
          bind_of_some (blanks_append (hq.ends hw)), bind_of_none (literal_eq_none bracket)]

theorem isRelative_iff {s : List Char} :
    isRelative s = true ↔ (∃ b, s = '.' :: '/' :: b) ∨ ∃ b, s = '.' :: '.' :: '/' :: b := by
  simp only [isRelative, Bool.or_eq_true, startsWith_iff]
  exact or_congr ⟨fun ⟨b, h⟩ => ⟨b, h.symm⟩, fun ⟨b, h⟩ => ⟨b, h.symm⟩⟩
    ⟨fun ⟨b, h⟩ => ⟨b, h.symm⟩, fun ⟨b, h⟩ => ⟨b, h.symm⟩⟩

theorem Style.notMem_dots (hq : Style q) : q ∉ "../".toList ∧ q ∉ "./".toList := by
  rcases hq with rfl | rfl <;> decide

theorem readsDots_iff {c c' : Cursor} {u : Unit} :
    (literal "../".toList <|> literal "./".toList : Recogniser Unit) c = some (u, c') ↔
      c.Spans "./".toList c' ∨ c.Spans "../".toList c' := by
  constructor
  · intro h
    rcases orElse_eq_some_iff.mp h with two | ⟨-, one⟩
    · exact .inr (literal_eq_some_iff.mp two)
    · exact .inl (literal_eq_some_iff.mp one)
  · obtain ⟨before, after⟩ := c
    rintro (one | two)
    · obtain rfl : after = "./".toList ++ c'.after := one.after
      have absent : ¬"../".toList <+: "./".toList ++ c'.after := by
        rintro ⟨_, e⟩
        simp at e
      exact orElse_eq_some_iff.mpr (.inr ⟨literal_eq_none absent, literal_eq_some_iff.mpr one⟩)
    · exact orElse_eq_some_iff.mpr (.inl (literal_eq_some_iff.mpr two))

/-- A relative specifier is read up to the quote or the end of the line. -/
theorem readsSpecifier_iff (hq : Style q) {c c' : Cursor} {u : Unit} :
    (do
      literal "../".toList <|> literal "./".toList
      let _ ← run fun x => x != q && x != '\n'
      pure () : Recogniser Unit) c = some (u, c') ↔
    ∃ s, c.Spans s c' ∧ Relative q s ∧ ∀ x ∈ c'.after.head?, x = q ∨ x = '\n' := by
  rw [bind_eq_some_iff]
  constructor
  · rintro ⟨_, c₁, dots, h⟩
    obtain ⟨b, c₂, body, h⟩ := bind_eq_some_iff.mp h
    cases h
    obtain ⟨span, all, stop⟩ := run_eq_some_iff.mp body
    have behind : ∀ x ∈ c'.after.head?, x = q ∨ x = '\n' := by
      intro x hx
      have := stop x hx
      by_cases h : x = q <;> simp_all
    have plain : q ∉ b ∧ '\n' ∉ b :=
      ⟨fun h => absurd (all _ h) (by simp), fun h => absurd (all _ h) (by simp)⟩
    have whole {d : List Char} (lead : c.Spans d c₁) (relative : isRelative (d ++ b) = true)
        (noQuote : q ∉ d) (oneLine : '\n' ∉ d) :
        ∃ s, c.Spans s c' ∧ Relative q s ∧ ∀ x ∈ c'.after.head?, x = q ∨ x = '\n' :=
      ⟨d ++ b, lead.trans span, ⟨relative, by simp [noQuote, plain], by simp [oneLine, plain]⟩, behind⟩
    rcases readsDots_iff.mp dots with one | two
    · exact whole one (isRelative_iff.mpr (.inl ⟨b, rfl⟩)) hq.notMem_dots.2 (by simp)
    · exact whole two (isRelative_iff.mpr (.inr ⟨b, rfl⟩)) hq.notMem_dots.1 (by simp)
  · rintro ⟨s, span, relative, behind⟩
    obtain ⟨d, b, rfl, dots⟩ : ∃ d b, s = d ++ b ∧ (d = "./".toList ∨ d = "../".toList) := by
      rcases isRelative_iff.mp relative.relative with ⟨b, rfl⟩ | ⟨b, rfl⟩
      · exact ⟨"./".toList, b, rfl, .inl rfl⟩
      · exact ⟨"../".toList, b, rfl, .inr rfl⟩
    obtain ⟨c₁, lead, rest⟩ := span.split
    have body : Ends (fun x => x != q && x != '\n') b c'.after := by
      refine ⟨fun x hx => ?_, fun x hx => ?_⟩
      · have noQuote : x ≠ q := fun e => relative.noQuote (e ▸ List.mem_append_right d hx)
        have oneLine : x ≠ '\n' := fun e => relative.oneLine (e ▸ List.mem_append_right d hx)
        simp [noQuote, oneLine]
      · rcases behind x hx with rfl | rfl <;> simp
    refine ⟨(), c₁, readsDots_iff.mpr ?_,
      bind_eq_some_iff.mpr ⟨b, c', run_eq_some_iff.mpr ⟨rest, body⟩, rfl⟩⟩
    rcases dots with rfl | rfl
    · exact .inl lead
    · exact .inr lead

/-- What a relative import reads in a text. -/
theorem relativeImport_eq_some_iff (hq : Style q) {stop : Cursor} :
    relativeImport q ⟨before, after⟩ = some ((lead, specifier), stop) ↔
      Import q before after lead specifier stop.after ∧
        stop.before = (lead ++ q :: (specifier ++ [q])).reverse ++ before := by
  constructor
  · intro h
    obtain ⟨_, c₁, first, h₁⟩ := bind_eq_some_iff.mp h
    obtain ⟨_, c₂, opening, h₂⟩ := bind_eq_some_iff.mp h₁
    obtain ⟨_, c₃, second, h₃⟩ := bind_eq_some_iff.mp h₂
    obtain ⟨_, c₄, closing, h₄⟩ := bind_eq_some_iff.mp h₃
    cases h₄
    obtain ⟨_, readLead, text⟩ := withText_eq_some_iff.mp first
    obtain ⟨l, leads, span, edge⟩ := importLead_eq_some readLead
    obtain rfl : l = lead := span.textTo.symm.trans text
    obtain ⟨_, readName, text⟩ := withText_eq_some_iff.mp second
    obtain ⟨s, span', relative, -⟩ := (readsSpecifier_iff hq).mp readName
    obtain rfl : s = specifier := span'.textTo.symm.trans text
    have whole := ((span.trans (literal_eq_some_iff.mp opening)).trans span').trans
      (literal_eq_some_iff.mp closing)
    have start : after = l ++ q :: (s ++ q :: stop.after) := by simpa using whole.after
    exact ⟨⟨(atBoundary_iff leads).mp (start ▸ edge), leads, relative, start⟩,
      by simpa using whole.before⟩
  · rintro ⟨⟨apart, leads, relative, rfl⟩, hstop⟩
    obtain ⟨back, rest⟩ := stop
    obtain rfl : back = (lead ++ q :: (specifier ++ [q])).reverse ++ before := hstop
    have first := withText_of_spans (w := lead) 
      (importLead_of_lead leads apart hq (specifier ++ q :: rest)) ⟨rfl, rfl⟩
    let c : Cursor := ⟨q :: (lead.reverse ++ before), specifier ++ q :: rest⟩
    let c' : Cursor := ⟨specifier.reverse ++ c.before, q :: rest⟩
    have span : c.Spans specifier c' := ⟨rfl, rfl⟩
    have second := withText_of_spans (v := ())
      ((readsSpecifier_iff hq).mpr ⟨specifier, span, relative, by simp [c']⟩) span
    rw [relativeImport, bind_of_some first, bind_of_some (literal_cons ..), bind_of_some second,
      bind_of_some (literal_cons ..)]
    rw [show (lead ++ q :: (specifier ++ [q])).reverse ++ before =
      q :: (specifier.reverse ++ c.before) by simp [c]]
    rfl

theorem relativeImport_eq_none (hq : Style q)
    (h : ∀ lead specifier rest, ¬Import q before after lead specifier rest) :
    relativeImport q ⟨before, after⟩ = none := by
  rw [Option.eq_none_iff_forall_ne_some]
  rintro ⟨⟨lead, specifier⟩, stop⟩ found
  exact h _ _ _ ((relativeImport_eq_some_iff hq).mp found).1

theorem not_import_of_none (hq : Style q) (h : relativeImport q ⟨before, after⟩ = none) :
    ¬Import q before after lead specifier rest := by
  intro found
  let stop : Cursor := ⟨(lead ++ q :: (specifier ++ [q])).reverse ++ before, rest⟩
  have read : relativeImport q ⟨before, after⟩ = some ((lead, specifier), stop) :=
    (relativeImport_eq_some_iff hq).mpr ⟨found, rfl⟩
  rw [h] at read
  cases read

end Reading

end Script
end TestRepair
