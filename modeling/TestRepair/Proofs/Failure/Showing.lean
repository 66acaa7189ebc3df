import TestRepair.Proofs.Failure.Deciding
import TestRepair.Proofs.Failure.Locating

/-!
What a diagnosis of the built-in table shows is in the log: its context is a block of lines around
the recognised text, and the place in the sources that it names is mentioned in that block, or, where
the block mentions none, elsewhere in the log.
-/

namespace TestRepair

namespace Text

/-- A text that starts with something else than the end of a line. -/
def Inked (w : List Char) : Prop := w.head?.any (· != '\n') = true

instance (w : List Char) : Decidable (Inked w) := inferInstanceAs (Decidable (_ = true))

theorem Inked.append {w : List Char} (h : Inked w) (w' : List Char) : Inked (w ++ w') := by
  cases w with
  | nil => cases h
  | cons x w => exact h

/-- The first line of a text, up to its line feed. -/
def firstLine (s : List Char) : List Char := s.takeWhile (· != '\n')

theorem notMem_firstLine (s : List Char) : '\n' ∉ firstLine s := by
  intro feed
  simpa using List.mem_takeWhile_imp feed

theorem Inked.firstLine_ne_nil {s : List Char} (h : Inked s) : firstLine s ≠ [] := by
  cases s with
  | nil => cases h
  | cons x s =>
      have ink : (x != '\n') = true := h
      rw [firstLine, List.takeWhile_cons, if_pos ink]
      exact List.cons_ne_nil _ _

namespace Recogniser

variable {α β : Type}

theorem Reads.lead {r : Recogniser α} {f : α → Recogniser β} (hr : Reads Inked r)
    (hf : ∀ a, Advances (f a)) : Reads Inked (r >>= f) :=
  hr.bind hf fun _ w' h _ => h.append w'

theorem reads_lead {s : List Char} {f : Unit → Recogniser β} (h : Inked s)
    (hf : ∀ a, Advances (f a)) : Reads Inked (literal s >>= f) :=
  Reads.lead (reads_literal h) hf

end Recogniser

end Text

namespace Signature

open Text Recogniser

section Rows

theorem advances_quotedText (quote : Char) (minimum : Nat) : Advances (quotedText quote minimum) := by
  refine .bind (.literal [quote]) fun _ => .bind (.run _) fun body => .bind (.literal [quote]) ?_
  intro _
  split
  · exact .pure body
  · exact .failure

theorem reads_quotedWord {lead : List Char} (h : Inked lead) : Reads Inked (quotedWord lead) :=
  reads_lead h fun _ => .bind (.literal _) fun _ => .bind (.run1 _) fun word =>
    .bind (.literal _) fun _ => .pure word

theorem reads_importResolution : Reads Inked importResolution := by
  refine .firstOf_cons ?module (.firstOf_cons (reads_literal (by decide))
    (.firstOf_cons (reads_literal (by decide)) (.firstOf_cons ?bundler .firstOf_nil)))
  case module =>
    exact reads_lead (by decide) fun _ => .bind (.orElse (.literal _) (.literal _)) fun _ =>
      .bind (.literal _) fun _ => .bind (advances_quotedText _ _) fun _ => .pure ()
  case bundler =>
    exact reads_lead (by decide) fun _ => .bind (advances_quotedText _ _) fun _ => .pure ()

theorem reads_notConstructor : Reads Inked notConstructor := by
  have word : Reads Inked (run1 isWord) := by
    apply reads_run1
    intro x w all
    have ink : x ≠ '\n' := by
      rintro rfl
      exact absurd (all _ List.mem_cons_self) (by decide)
    simpa [Inked] using ink
  have rest : Reads Inked (run1 isWord >>= fun word => do
      literal " is not a constructor".toList
      pure word) :=
    word.lead fun word => .bind (.literal _) fun _ => .pure word
  intro c v c' h
  obtain ⟨_, c₁, edge, read⟩ := bind_eq_some_iff.mp h
  obtain ⟨-, rfl⟩ := boundary_eq_some_iff.mp edge
  exact rest _ v c' read

theorem reads_exportConstructor : Reads Inked exportConstructor := by
  refine Reads.lead ?_ fun _ => .pure ()
  exact .firstOf_cons reads_notConstructor (.firstOf_cons (reads_quotedWord (by decide))
    (.firstOf_cons (reads_quotedWord (by decide)) .firstOf_nil))

theorem reads_locatorNotFound : Reads Inked locatorNotFound := by
  refine .firstOf_cons ?timeout (.firstOf_cons (reads_literal (by decide))
    (.firstOf_cons (reads_literal (by decide)) (.firstOf_cons (reads_literal (by decide)) .firstOf_nil)))
  exact reads_lead (by decide) fun _ => .bind (.run1 _) fun _ => .literal _

theorem reads_selectorAmbiguity : Reads Inked selectorAmbiguity := by
  refine .firstOf_cons (reads_literal (by decide)) (.firstOf_cons ?count .firstOf_nil)
  exact reads_lead (by decide) fun _ => .bind (.run1 _) fun _ => .literal _

theorem reads_missingDataFile : Reads Inked missingDataFile := by
  refine .firstOf_cons ?entry (.firstOf_cons ?data .firstOf_nil)
  case entry =>
    refine reads_lead (by decide) fun _ => .bind (.orElse (.literal _) (.pure ())) fun _ =>
      .bind (.literal _) fun _ => .bind (.run1 _) fun _ => .bind (.literal _) fun _ =>
      .bind (advances_quotedText _ _) ?_
    intro name
    split
    · exact .pure ()
    · exact .failure
  case data =>
    have letter : Reads Inked (literal ['D'] <|> literal ['d']) :=
      (reads_literal (by decide)).orElse (reads_literal (by decide))
    exact letter.lead fun _ => .literal _

theorem reads_typeError : Reads Inked typeError :=
  reads_lead (by decide) fun _ => .bind (.run _) fun _ => .pure ()

theorem reads_missingMethod : Reads Inked missingMethod := by
  refine .firstOf_cons (reads_literal (by decide)) (.firstOf_cons ?absent
    (.firstOf_cons ?typed (.firstOf_cons (reads_literal (by decide)) .firstOf_nil)))
  case absent =>
    exact reads_lead (by decide) fun _ => .bind (.orElse (.literal _) (.literal _)) fun _ =>
      .bind (.literal _) fun _ => .orElse (.literal _) (.literal _)
  case typed => exact (reads_quotedWord (by decide)).lead fun _ => .literal _

theorem reads_compilation : Reads Inked compilation := by
  refine .firstOf_cons ?code (.firstOf_cons (reads_literal (by decide))
    (.firstOf_cons (reads_literal (by decide)) (.firstOf_cons (reads_literal (by decide)) .firstOf_nil)))
  exact reads_lead (by decide) fun _ => .bind (.run1 _) fun _ => .literal _

/-- No row of the built-in table recognises a text that starts at the end of a line. -/
theorem reads_builtin : ∀ row ∈ builtin, Reads Inked row.pattern := by
  have malformed : Reads Inked syntaxError :=
    Reads.lead ((reads_literal (by decide)).orElse (reads_literal (by decide))) fun _ =>
      .bind (.run _) fun _ => .pure ()
  simp only [builtin, List.forall_mem_cons, List.not_mem_nil, false_imp_iff, implies_true, and_true]
  exact ⟨reads_importResolution, reads_exportConstructor, reads_locatorNotFound,
    reads_selectorAmbiguity, reads_missingDataFile, reads_typeError, malformed, malformed,
    reads_missingMethod, reads_compilation⟩

end Rows

end Signature

namespace Diagnosis

open Text Recogniser SourceLine Signature

/-- The context of a diagnosis is a block of lines of the log around the place where the recognised
text starts. -/
structure Excerpt (log : List Char) (d : Diagnosis) (before after : List Char)
    (block : List (List Char)) (line : List Char) : Prop where
  text : log = before ++ d.matched.toList ++ after
  recognised : ∃ row ∈ builtin, row.kind = d.kind ∧ ∃ o ∈ row.pattern.occurrences log,
    o.start.before = before.reverse ∧ o.text = d.matched.toList
  context : d.context.toList = joinWith ['\n'] block
  /-- The lines follow one another, and that of the place is among them. -/
  consecutive : ∃ front back, lines log = front ++ block ++ back ∧
    front.length ≤ lineFeeds before ∧ block[lineFeeds before - front.length]? = some line
  atMost : block.length ≤ 7
  /-- The first line of the recognised text, less a carriage return, is on the line of the place. -/
  onLine : dropReturn (firstLine d.matched.toList) <:+: line
  shown : dropReturn (firstLine d.matched.toList) <:+: d.context.toList

/-- The text in which a place is looked for: the context if it mentions one, else the log. -/
def Searched (log context text : List Char) : Prop :=
  text = context ∧ (∃ l, Usable context l) ∨ text = log ∧ ∀ l, ¬Usable context l

/-- The place in the sources that a diagnosis names. -/
structure Locates (log : List Char) (d : Diagnosis) : Prop where
  both : d.file.isSome = true ↔ d.line.isSome = true
  cited : ∀ file line, d.file = some file → d.line = some line → Cites log file.toList line
  nearest : (∃ l, Usable d.context.toList l) → ∃ l, Usable d.context.toList l ∧
    d.file = some (String.ofList l.file) ∧ d.line = some l.line
  /-- It is one of the text that is searched, and in a dependency only if all places there are. -/
  searched : ∀ file line, d.file = some file → d.line = some line →
    ∃ text, Searched log d.context.toList text ∧ Usable text ⟨file.toList, line⟩ ∧
      ("node_modules".toList <:+: file.toList → ∀ l, Usable text l → "node_modules".toList <:+: l.file)
  absent : d.file = none → ∀ l, ¬Usable log l

section

variable {log : List Char} {o : Occurrence Unit} {kind : FailureKind}

theorem excerpt_ofOccurrence {row : Signature} (mem : row ∈ builtin)
    (found : o ∈ row.pattern.occurrences log) :
    ∃ before after block line, Excerpt log (ofOccurrence row.kind log o) before after block line := by
  obtain ⟨x, y, split, place, read⟩ := mem_occurrences found
  obtain ⟨w, ink, span⟩ := reads_builtin row mem _ _ _ read
  have text : o.text = w := span.textTo
  have after : y = w ++ o.stop.after := by
    rw [← span.after, place]
  have first : firstLine w ++ w.dropWhile (· != '\n') = w := List.takeWhile_append_dropWhile
  have parts : log = x ++ firstLine w ++ (w.dropWhile (· != '\n') ++ o.stop.after) := by
    rw [List.append_assoc, ← List.append_assoc (firstLine w), first, ← after, split]
  have start : o.start.before = x.reverse := by rw [place]
  obtain ⟨block, line, context, around, there, onLine⟩ :=
    contextAt_eq parts start (notMem_firstLine w) ink.firstLine_ne_nil
  have inBlock : line ∈ block :=
    List.mem_of_getElem? (around.getElem? there (by omega))
  obtain ⟨a, b, joined, -, -⟩ := joinWith_of_mem inBlock
  obtain ⟨front, back, part, first', -⟩ := around.part
  refine ⟨x, o.stop.after, block, line, ?_, ?_, ?_, ?_, around.length_le, ?_, ?_⟩
  · simp [ofOccurrence, text, split, after]
  · exact ⟨row, mem, rfl, o, found, start, by simp [ofOccurrence]⟩
  · simpa [ofOccurrence] using context
  · refine ⟨front, back, part, by omega, ?_⟩
    rw [first']
    exact around.getElem? there (by omega)
  · simpa [ofOccurrence, text] using onLine
  · simpa [ofOccurrence, text, context] using onLine.trans ⟨a, b, joined.symm⟩

/-- Where the place of a diagnosis comes from, if it names one. -/
theorem place_cases (log context : List Char) :
    (best? context <|> best? log) = none ∧ (∀ l, ¬Usable log l) ∧ (∀ l, ¬Usable context l) ∨
    ∃ text l, (best? context <|> best? log) = some l ∧ Searched log context text ∧ Usable text l ∧
      (l.isDependency = true → ∀ l', Usable text l' → l'.isDependency = true) := by
  cases near : best? context with
  | some l =>
      obtain ⟨usable, dependency⟩ := usable_of_best? near
      exact .inr ⟨context, l, rfl, .inl ⟨rfl, l, usable⟩, usable, dependency⟩
  | none =>
      have nothing := best?_eq_none_iff.mp near
      cases far : best? log with
      | some l =>
          obtain ⟨usable, dependency⟩ := usable_of_best? far
          exact .inr ⟨log, l, rfl, .inr ⟨rfl, nothing⟩, usable, dependency⟩
      | none => exact .inl ⟨rfl, best?_eq_none_iff.mp far, nothing⟩

theorem locates_ofOccurrence {block : List (List Char)}
    (context : contextAt log o = joinWith ['\n'] block) (part : ∀ line ∈ block, line <:+: log) :
    Locates log (ofOccurrence kind log o) := by
  have shown : (ofOccurrence kind log o).context.toList = contextAt log o := String.toList_ofList
  have file : (ofOccurrence kind log o).file =
      (best? (contextAt log o) <|> best? log).map (String.ofList ·.file) := rfl
  have line : (ofOccurrence kind log o).line =
      (best? (contextAt log o) <|> best? log).map (·.line) := rfl
  rcases place_cases log (contextAt log o) with
    ⟨place, nowhere, notNear⟩ | ⟨text, l, place, searched, usable, dependency⟩
  · rw [place] at file line
    exact {
      both := by simp [file, line]
      cited := by simp [file]
      nearest := fun ⟨l, near⟩ => absurd (shown ▸ near) (notNear l)
      searched := by simp [file]
      absent := fun _ => nowhere }
  · rw [place] at file line
    have cites : Cites log l.file l.line := by
      cases searched with
      | inl near =>
          rw [near.1, context] at usable
          exact usable.cites.of_joinWith part
      | inr far =>
          rw [far.1] at usable
          exact usable.cites
    have named {f : String} {n : UInt32} (hf : (ofOccurrence kind log o).file = some f)
        (hn : (ofOccurrence kind log o).line = some n) : f.toList = l.file ∧ n = l.line := by
      rw [file, Option.map_some, Option.some.injEq] at hf
      rw [line, Option.map_some, Option.some.injEq] at hn
      exact ⟨by rw [← hf, String.toList_ofList], hn.symm⟩
    refine ⟨by simp [file, line], ?_, ?_, ?_, by simp [file]⟩
    · intro f n hf hn
      rw [(named hf hn).1, (named hf hn).2]
      exact cites
    · rintro ⟨l', near⟩
      rw [shown] at near ⊢
      cases searched with
      | inl own => exact ⟨l, own.1 ▸ usable, file, line⟩
      | inr far => exact absurd near (far.2 l')
    · intro f n hf hn
      rw [(named hf hn).1, (named hf hn).2, shown]
      refine ⟨text, searched, usable, ?_⟩
      intro inside l' hl'
      exact occursIn_iff.mp (dependency (occursIn_iff.mpr inside) l' hl')

end

/-- Whatever the log, what its diagnosis shows is really in it: the context around the recognised
text, and the place in the sources. -/
theorem ofBuiltin?_shows {log : String} {d : Diagnosis} (h : ofBuiltin? log = some d) :
    (∃ before after block line, Excerpt log.toList d before after block line) ∧
      Locates log.toList d := by
  obtain ⟨front, row, rest, o, table, -, found, rfl⟩ := ofLog?_eq_some_iff.mp h
  have mem : row ∈ builtin := by simp [table]
  obtain ⟨before, after, block, line, excerpt⟩ :=
    excerpt_ofOccurrence mem (mem_of_find? found).1
  refine ⟨⟨before, after, block, line, excerpt⟩, ?_⟩
  have context : contextAt log.toList o = joinWith ['\n'] block := by
    simpa [ofOccurrence] using excerpt.context
  apply locates_ofOccurrence context
  intro l hl
  obtain ⟨first, last, lines, -, -⟩ := excerpt.consecutive
  apply infix_of_mem_lines
  rw [lines]
  simp [hl]

/-- A log with carriage returns, in which a dependency is mentioned before a file of the project. -/
def returningLog : String :=
  "one\r\ntwo\r\nTypeError: x\r\n  at node_modules/a.js:10:3\r\n  at tests/b.spec.ts:42:7\r\n"

def returningDiagnosis : Diagnosis where
  kind := .typeError
  matched := "TypeError: x\r"
  context := "one\ntwo\nTypeError: x\n  at node_modules/a.js:10:3\n  at tests/b.spec.ts:42:7"
  file := some "tests/b.spec.ts"
  line := some 42

theorem ofBuiltin?_returningLog : ofBuiltin? returningLog = some returningDiagnosis ∧
    (∃ before after block line,
      Excerpt returningLog.toList returningDiagnosis before after block line) ∧
    Locates returningLog.toList returningDiagnosis := by
  have found : ofBuiltin? returningLog = some returningDiagnosis := by decide +kernel
  exact ⟨found, ofBuiltin?_shows found⟩

end Diagnosis

end TestRepair
