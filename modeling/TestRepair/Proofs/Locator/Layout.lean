import TestRepair.Proofs.Locator.Literals

/-!
What becomes of a text in which code and literals alternate. Where no spelling of the old selector
starts in a literal and ends behind it, every literal is rewritten as if it stood alone; such a
spelling takes a quote in the selector itself. A literal of another value is left as it is unless it
mentions the old selector between quotes.
-/

namespace TestRepair
namespace Replacement

open Text

/-- Code between literals. -/
structure Code where
  chars : List Char
  plain : ∀ c ∈ chars, c ∉ quotes ∧ c ≠ '\\'

structure Literal where
  quote : Char
  value : List Char
  proper : quote ∈ quotes

def Literal.text (l : Literal) : List Char := literalOf l.quote l.value

/-- Whether there is something to swap in a literal, as it is written. -/
def Literal.Mentions (l : Literal) (old new : List Char) : Prop :=
  ∃ p ∈ swaps old new, Applies p l.text

instance (l : Literal) (old new : List Char) : Decidable (l.Mentions old new) :=
  inferInstanceAs (Decidable (∃ p ∈ swaps old new, Applies p l.text))

/-- A text in which code and literals alternate. -/
structure Layout where
  head : Code
  tail : List (Literal × Code)

namespace Layout

/-- The text from some code on, with the literals as `f` writes them. -/
def textFrom (f : Literal → List Char) (head : Code) (tail : List (Literal × Code)) : List Char :=
  head.chars ++ tail.flatMap fun l => f l.1 ++ l.2.chars

def textWith (f : Literal → List Char) (L : Layout) : List Char := textFrom f L.head L.tail

def text (L : Layout) : List Char := L.textWith Literal.text

def literals (L : Layout) : List Literal := L.tail.map (·.1)

def codes (L : Layout) : List Code := L.head :: L.tail.map (·.2)

/-- Whether an occurrence starts in a literal, as `f` writes it, and ends behind the literal. -/
def Overruns (w : List Char) (f : Literal → List Char) : List (Literal × Code) → Prop
  | [] => False
  | (l, code) :: tail => Straddles w (f l) (textFrom f code tail) ∨ Overruns w f tail

/-- Whether, at the turn of one of the steps, a spelling of the old selector overruns a literal. -/
def OverrunBy (L : Layout) (old new : List Char) : Prop :=
  ∃ done p rest, swaps old new = done ++ p :: rest ∧ p.1 ≠ p.2 ∧
    Overruns p.1 (fun l => rewriteAll done l.text) L.tail

variable {f g : Literal → List Char} {head : Code} {tail : List (Literal × Code)}

@[simp]
theorem textFrom_nil (f : Literal → List Char) (head : Code) : textFrom f head [] = head.chars := by
  simp [textFrom]

@[simp]
theorem textFrom_cons (f : Literal → List Char) (head : Code) (l : Literal × Code)
    (tail : List (Literal × Code)) :
    textFrom f head (l :: tail) = head.chars ++ (f l.1 ++ textFrom f l.2 tail) := by
  simp [textFrom]

theorem textFrom_congr (h : ∀ l ∈ tail, f l.1 = g l.1) : textFrom f head tail = textFrom g head tail := by
  simp only [textFrom]
  rw [List.flatMap_congr fun l hl => by rw [h l hl]]

section Steps

variable {old new : List Char} {p : List Char × List Char}

theorem quote_of_mem_swaps (hp : p ∈ swaps old new) : ∃ q x, q ∈ quotes ∧ p.1 = q :: x ++ [q] ∧
    (x = old ∨ x = escapeFor q old) ∧ p.2 = literalOf q new := by
  obtain ⟨q, hq, spelled, rewritten⟩ := mem_swaps.mp hp
  rcases eq_of_mem_spellings spelled with e | e
  · exact ⟨q, old, hq, e, .inl rfl, rewritten⟩
  · exact ⟨q, escapeFor q old, hq, e, .inr rfl, rewritten⟩

theorem not_straddles_code (hp : p ∈ swaps old new) (code : Code) (t : List Char) :
    ¬Straddles p.1 code.chars t := by
  rintro ⟨_ | ⟨c, u⟩, v, hu, -, split, hsuffix, -⟩
  · exact hu rfl
  · obtain ⟨q, x, hq, spelled, -⟩ := quote_of_mem_swaps hp
    obtain rfl : q = c := (List.cons.inj (spelled.symm.trans split)).1
    exact (code.plain q (hsuffix.subset List.mem_cons_self)).1 hq

theorem not_infix_code (hp : p ∈ swaps old new) (code : Code) : ¬p.1 <:+: code.chars := by
  intro h
  obtain ⟨q, x, hq, spelled, -⟩ := quote_of_mem_swaps hp
  exact (code.plain q (h.subset (by simp [spelled]))).1 hq

theorem ne_nil_of_mem_swaps (hp : p ∈ swaps old new) : p.1 ≠ [] :=
  (count_of_mem_swaps hp (show 'a' ≠ '\\' by decide)).2

/-- A step that overruns no literal rewrites every literal alone. -/
theorem replaceAll_textFrom (hp : p ∈ swaps old new) (h : ¬Overruns p.1 f tail) :
    replaceAll p.1 p.2 (textFrom f head tail) = textFrom (fun l => replaceAll p.1 p.2 (f l)) head tail := by
  have nonempty := ne_nil_of_mem_swaps hp
  have code (code : Code) : replaceAll p.1 p.2 code.chars = code.chars :=
    replaceAll_of_absent (not_infix_code hp code) p.2
  induction tail generalizing head with
  | nil => simp [code]
  | cons l tail ih =>
    rw [Overruns, not_or] at h
    rw [textFrom_cons, textFrom_cons,
      replaceAll_append_of_not_straddles nonempty p.2 (not_straddles_code hp head _), code,
      replaceAll_append_of_not_straddles nonempty p.2 h.1, ih h.2]

theorem applies_of_applies_textFrom (hp : p ∈ swaps old new) (h : ¬Overruns p.1 f tail)
    (applies : Applies p (textFrom f head tail)) : ∃ l ∈ tail, Applies p (f l.1) := by
  induction tail generalizing head with
  | nil => exact absurd (by simpa using applies.2) (not_infix_code hp head)
  | cons l tail ih =>
    rw [Overruns, not_or] at h
    have found := applies.2
    rw [textFrom_cons] at found
    have behind := (infix_append_of_not_straddles (not_straddles_code hp head _) found).resolve_left
      (not_infix_code hp head)
    rcases infix_append_of_not_straddles h.1 behind with inside | later
    · exact ⟨l, List.mem_cons_self, applies.1, inside⟩
    · obtain ⟨l', hl', found⟩ := ih h.2 ⟨applies.1, later⟩
      exact ⟨l', List.mem_cons_of_mem l hl', found⟩

/-- Steps that overrun no literal, each at its turn, rewrite every literal alone. -/
theorem rewriteAll_textFrom (ps : List (List Char × List Char)) (hps : ps ⊆ swaps old new)
    (h : ∀ done p rest, ps = done ++ p :: rest → p.1 ≠ p.2 →
      ¬Overruns p.1 (fun l => rewriteAll done (f l)) tail) :
    rewriteAll ps (textFrom f head tail) = textFrom (fun l => rewriteAll ps (f l)) head tail := by
  induction ps generalizing f with
  | nil => rfl
  | cons p ps ih =>
    obtain ⟨hp, rest⟩ := List.cons_subset.mp hps
    have step : replaceAll p.1 p.2 (textFrom f head tail) =
        textFrom (fun l => replaceAll p.1 p.2 (f l)) head tail := by
      by_cases same : p.1 = p.2
      · simp only [same, replaceAll_same]
      · exact replaceAll_textFrom hp (h [] p ps rfl same)
    simp only [rewriteAll_cons, step]
    exact ih rest fun done p' rest split => h (p :: done) p' rest (by rw [split]; rfl)

end Steps

section Fences

/-- A text between two quotes, which need not be of one kind. -/
def Fenced (x : List Char) : Prop :=
  (∃ q, x.head? = some q ∧ q ∈ quotes) ∧ ∃ q, x.getLast? = some q ∧ q ∈ quotes

theorem fenced_literalOf {q : Char} (hq : q ∈ quotes) (s : List Char) : Fenced (literalOf q s) :=
  ⟨⟨q, rfl, hq⟩, ⟨q, by rw [literalOf, List.getLast?_concat], hq⟩⟩

variable {old new : List Char}

theorem Fenced.rewriteAll {x : List Char} (h : Fenced x) (ps : List (List Char × List Char))
    (hps : ps ⊆ swaps old new) : Fenced (rewriteAll ps x) := by
  induction ps generalizing x with
  | nil => exact h
  | cons p ps ih =>
    obtain ⟨hp, rest⟩ := List.cons_subset.mp hps
    obtain ⟨q, hq, -, rewritten⟩ := mem_swaps.mp hp
    obtain ⟨⟨c, first, hc⟩, ⟨d, last, hd⟩⟩ := h
    obtain ⟨⟨c', first', hc'⟩, ⟨d', last', hd'⟩⟩ := rewritten ▸ fenced_literalOf hq new
    have step : Fenced (replaceAll p.1 p.2 x) :=
      ⟨head?_replaceAll (ne_nil_of_mem_swaps hp) first hc first' hc',
        getLast?_replaceAll (ne_nil_of_mem_swaps hp) last hd last' hd'⟩
    exact ih step rest

theorem eq_code_of_prefix {f : Literal → List Char} {code : Code} {tail : List (Literal × Code)}
    (hf : ∀ l, Fenced (f l)) {x : List Char} (hx : ∀ c ∈ x, c ∉ quotes) {q : Char} (hq : q ∈ quotes)
    (h : x ++ [q] <+: textFrom f code tail) : x = code.chars := by
  -- Neither the text nor the code has a quote, and each ends at the next one.
  obtain ⟨b, h⟩ := h
  have bare : ∀ c ∈ code.chars, ¬c ∈ quotes := fun c hc => (code.plain c hc).1
  rw [List.append_assoc, List.singleton_append] at h
  cases tail with
  | nil =>
    have inside : q ∈ code.chars := by simp [← textFrom_nil f code, ← h]
    exact absurd hq (bare q inside)
  | cons l tail =>
    obtain ⟨⟨d, first, hd⟩, -⟩ := hf l.1
    obtain ⟨m, hm⟩ := List.head?_eq_some_iff.mp first
    rw [textFrom_cons, hm, List.cons_append] at h
    rcases first_mark hx hd h with ⟨same, -⟩ | longer
    · exact same.symm
    · rcases first_mark bare hq h.symm with ⟨same, -⟩ | longer'
      · exact same
      · omega

/-- A spelling that starts in a literal and ends behind it would have code for the selector. -/
theorem not_overruns {f : Literal → List Char} {tail : List (Literal × Code)}
    (hf : ∀ l, Fenced (f l)) (hold : ∀ c ∈ old, c ∉ quotes)
    (htail : ∀ l ∈ tail, l.2.chars ≠ old) {p : List Char × List Char} (hp : p ∈ swaps old new) :
    ¬Overruns p.1 f tail := by
  obtain ⟨q, x, hq, spelled, hx, -⟩ := quote_of_mem_swaps hp
  have bare : ∀ c ∈ x, c ∉ quotes := by
    rcases hx with rfl | rfl
    · exact hold
    · intro c hc
      rcases mem_escapeFor hc with hc | rfl
      · exact hold c hc
      · decide
  induction tail with
  | nil => exact id
  | cons l tail ih =>
    rintro (⟨u, v, hu, hv, split, ⟨a, hsuffix⟩, hprefix⟩ | h)
    · obtain ⟨-, d, last, hd⟩ := hf l.1
      obtain ⟨u, e, rfl⟩ := (List.eq_nil_or_concat u).resolve_left hu
      obtain rfl : e = d := by simpa [← hsuffix] using last
      have whole : q :: (x ++ [q]) = u ++ e :: v := by simpa using spelled.symm.trans split
      cases u with
      | nil =>
        have code : x = l.2.chars := eq_code_of_prefix hf bare hq ((List.cons.inj whole).2 ▸ hprefix)
        have plain : '\\' ∉ x := fun h => (l.2.plain _ (code ▸ h)).2 rfl
        rcases hx with rfl | rfl
        · exact htail l List.mem_cons_self code.symm
        · have same := (escapeFor_eq_or_mem q old).resolve_right plain
          exact htail l List.mem_cons_self (code.symm.trans same)
      | cons c u =>
        have later : x ++ [q] = u ++ e :: v := (List.cons.inj whole).2
        rcases first_mark bare hd later with ⟨-, -, rfl⟩ | longer
        · exact hv rfl
        · have := congrArg List.length later
          simp only [List.length_append, List.length_cons, List.length_nil] at this
          omega
    · exact ih (fun l' hl' => htail l' (List.mem_cons_of_mem l hl')) h

end Fences

variable {L : Layout} {old new : List Char}

theorem not_overrunBy (hold : ∀ c ∈ old, c ∉ quotes) (hcode : ∀ code ∈ L.codes, code.chars ≠ old) :
    ¬L.OverrunBy old new := by
  rintro ⟨done, p, rest, split, -, h⟩
  have hp : p ∈ swaps old new := by simp [split]
  have hdone : done ⊆ swaps old new := split ▸ List.subset_append_left done (p :: rest)
  exact not_overruns (fun l => (fenced_literalOf l.proper l.value).rewriteAll done hdone) hold
    (fun l hl => hcode l.2 (List.mem_cons_of_mem _ (List.mem_map_of_mem hl))) hp h

theorem infix_text {l : Literal} (hl : l ∈ L.literals) : l.text <:+: L.text := by
  obtain ⟨⟨l, code⟩, hmem, rfl⟩ := List.mem_map.mp hl
  obtain ⟨before, after, split⟩ := List.append_of_mem hmem
  refine ⟨textFrom Literal.text L.head before, textFrom Literal.text code after, ?_⟩
  simp [text, textWith, textFrom, split]

theorem mentions_of_value_eq (h : old ≠ new) {l : Literal} (hl : l.value = old) :
    l.Mentions old new := by
  refine ⟨(literalOf l.quote old, literalOf l.quote new),
    mem_swaps.mpr ⟨l.quote, l.proper, literalOf_mem_spellings l.quote old, rfl⟩, ?_⟩
  rw [Literal.text, hl]
  exact applies_literalOf l.quote h

/-- Where no literal is overrun, each is rewritten as if it stood alone. -/
theorem quoted?_text (overrun : ¬L.OverrunBy old new) :
    quoted? L.text old new =
      if ∃ l ∈ L.literals, l.Mentions old new then
        some (L.textWith fun l => rewriteAll (swaps old new) l.text)
      else none := by
  have turn {done : List (List Char × List Char)} {p : List Char × List Char}
      {rest : List (List Char × List Char)} (split : swaps old new = done ++ p :: rest)
      (hp : p.1 ≠ p.2) : ¬Overruns p.1 (fun l => rewriteAll done l.text) L.tail :=
    fun k => overrun ⟨done, p, rest, split, hp, k⟩
  split
  · next found =>
    obtain ⟨l, hl, p, hp, applies⟩ := found
    rw [quoted?_of_applies ⟨p, hp, applies.1, applies.2.trans (infix_text hl)⟩, text, textWith,
      rewriteAll_textFrom _ (List.Subset.refl _) fun done p rest => turn, textWith]
  · next missed =>
    have quiet {l : Literal × Code} (hl : l ∈ L.tail) {p : List Char × List Char}
        (hp : p ∈ swaps old new) : ¬Applies p l.1.text :=
      fun k => missed ⟨l.1, List.mem_map_of_mem hl, p, hp, k⟩
    refine quoted?_of_not_applies fun p hp k => ?_
    obtain ⟨done, rest, split⟩ := List.append_of_mem hp
    -- No earlier step has changed a literal, so none is overrun in the text as it is.
    have kept {l : Literal × Code} (hl : l ∈ L.tail) : rewriteAll done l.1.text = l.1.text :=
      rewriteAll_of_not_applies fun p hp => quiet hl (by simp [split, hp])
    have stage : L.text = textFrom (fun l => rewriteAll done l.text) L.head L.tail :=
      textFrom_congr fun l hl => (kept hl).symm
    obtain ⟨l, hl, found⟩ := applies_of_applies_textFrom hp (turn split k.1) (stage ▸ k)
    exact quiet hl hp (kept hl ▸ found)

/-- Swapping a selector swaps its literals, each as if it stood alone, and keeps the literals of
other values; it comes to nothing where there is nothing to swap. Two things can go wrong. A literal
of another value may mention the selector between quotes: it is rewritten too. And where the selector
has quotes of its own, a spelling of it may start in a literal and end behind it. -/
theorem swap_keeps_others (L : Layout) (h : old ≠ new) (hcode : ∀ code ∈ L.codes, code.chars ≠ old) :
    ((∃ c ∈ old, c ∈ quotes) ∧ L.OverrunBy old new) ∨
      ∃ fate : Literal → List Char,
        (∀ l ∈ L.literals, l.value = old ∨ l.Mentions old new →
          quoted? l.text old new = some (fate l)) ∧
        (∀ l ∈ L.literals, l.value ≠ old → ¬l.Mentions old new → fate l = l.text) ∧
        quoted? L.text old new =
          if ∃ l ∈ L.literals, l.value = old ∨ l.Mentions old new then some (L.textWith fate)
          else none := by
  have mentions {l : Literal} (hl : l.value = old ∨ l.Mentions old new) : l.Mentions old new :=
    hl.elim (mentions_of_value_eq h) id
  by_cases overrun : L.OverrunBy old new
  · refine .inl ⟨?_, overrun⟩
    by_contra quoteless
    exact not_overrunBy (fun c hc hq => quoteless ⟨c, hc, hq⟩) hcode overrun
  · refine .inr ⟨fun l => rewriteAll (swaps old new) l.text,
      fun l _ hl => quoted?_of_applies (mentions hl), fun l _ _ hl => ?_, ?_⟩
    · exact rewriteAll_of_not_applies fun p hp k => hl ⟨p, hp, k⟩
    · rw [quoted?_text overrun]
      exact if_congr ⟨fun ⟨l, hl, k⟩ => ⟨l, hl, .inr k⟩, fun ⟨l, hl, k⟩ => ⟨l, hl, mentions k⟩⟩ rfl rfl

/-- Two calls for one element, between them one for an element with a longer name. -/
def threeCalls : Layout where
  head := ⟨"a = page.locator(".toList, by simp [quotes]⟩
  tail := [
    (⟨'\x27', "#old".toList, by decide⟩, ⟨"); b = page.locator(".toList, by simp [quotes]⟩),
    (⟨'\x27', "#older".toList, by decide⟩, ⟨"); c = page.locator(".toList, by simp [quotes]⟩),
    (⟨'"', "#old".toList, by decide⟩, ⟨");".toList, by simp [quotes]⟩)]

theorem swap_keeps_older :
    let old := "#old".toList
    let new := "[name='new']".toList
    old ≠ new ∧ (∀ code ∈ threeCalls.codes, code.chars ≠ old) ∧
      ∃ fate : Literal → List Char,
        (∀ l ∈ threeCalls.literals, l.value = old → quoted? l.text old new = some (fate l)) ∧
        (∀ l ∈ threeCalls.literals, l.value ≠ old → fate l = l.text) ∧
        quoted? threeCalls.text old new = some (threeCalls.textWith fate) := by
  intro old new
  have distinct : old ≠ new := by decide
  have hcode : ∀ code ∈ threeCalls.codes, code.chars ≠ old := by decide
  have hquiet : ∀ l ∈ threeCalls.literals, l.value ≠ old → ¬l.Mentions old new := by decide
  refine ⟨distinct, hcode, ?_⟩
  rcases threeCalls.swap_keeps_others distinct hcode with ⟨quoteless, -⟩ | ⟨fate, own, kept, swapped⟩
  · exact absurd quoteless (by simp [old, quotes])
  · exact ⟨fate, fun l hl e => own l hl (.inl e), fun l hl e => kept l hl e (hquiet l hl e),
      swapped.trans (if_pos (by decide))⟩

/-- A literal that mentions the selector `go`. -/
example : inLiterals? "\"[name='go']\"" "go" "#x" = some "\"[name='#x']\"" := by decide

end Layout
end Replacement
end TestRepair
