import TestRepair.Failure.Signatures
import TestRepair.Proofs.Text.Advancing
import TestRepair.Proofs.Text.Lines

/-!
Which row of a table decides. A row fires when one of its occurrences is accepted, whichever that is,
and the first row that fires gives the kind. In the built-in table a syntax error next to a locator
builder makes the guarded row fire, also when other syntax errors stand before it.
-/

namespace TestRepair

open Text Recogniser

namespace Signature

/-- A row fires on a log: its guard, if it has one, occurs in the lines around an occurrence. -/
def Fires (row : Signature) (log : List Char) : Prop :=
  ∃ o ∈ row.pattern.occurrences log, ∀ guard ∈ row.guard, guard.occursIn (contextAt log o) = true

variable {row : Signature} {log : List Char} {o : Occurrence Unit}

theorem admits_iff :
    row.admits log o = true ↔ ∀ guard ∈ row.guard, guard.occursIn (contextAt log o) = true := by
  unfold admits
  cases row.guard <;> simp

theorem mem_of_find? (h : row.find? log = some o) :
    o ∈ row.pattern.occurrences log ∧ row.admits log o = true :=
  ⟨List.mem_of_find?_eq_some h, List.find?_some h⟩

theorem find?_eq_none_iff : row.find? log = none ↔ ¬row.Fires log := by
  rw [find?, List.find?_eq_none]
  constructor
  · rintro none ⟨o, mem, guarded⟩
    exact none o mem (admits_iff.mpr guarded)
  · intro silent o mem admitted
    exact silent ⟨o, mem, admits_iff.mp admitted⟩

/-- The context of an occurrence is a block of lines around that on which it starts, and what it
reads there stands on this line. -/
theorem contextAt_eq {x u z : List Char} (split : log = x ++ u ++ z)
    (start : o.start.before = x.reverse) (hu : '\n' ∉ u) (ne : u ≠ []) :
    ∃ block line, contextAt log o = joinWith ['\n'] block ∧
      Around (lines log) (lineFeeds x) contextRadius block ∧
      (lines log)[lineFeeds x]? = some line ∧ dropReturn u <:+: line := by
  obtain ⟨line, there, inside⟩ := exists_line x z hu ne
  rw [← split] at there
  obtain ⟨block, text, around⟩ :=
    window_eq contextRadius (List.getElem?_eq_some_iff.mp there).1
  refine ⟨block, line, ?_, around, there, inside⟩
  rw [contextAt, start, lineFeeds, List.count_reverse]
  exact text

end Signature

namespace Diagnosis

open Signature

variable {table : List Signature} {log : String} {d : Diagnosis}

/-- The first row that fires decides, with the first occurrence that it accepts. -/
theorem ofLog?_eq_some_iff : ofLog? table log = some d ↔
    ∃ front row rest o, table = front ++ row :: rest ∧ (∀ r ∈ front, ¬r.Fires log.toList) ∧
      row.find? log.toList = some o ∧ d = ofOccurrence row.kind log.toList o := by
  rw [ofLog?, List.findSome?_eq_some_iff]
  constructor
  · rintro ⟨front, row, rest, split, made, silent⟩
    obtain ⟨o, found, rfl⟩ := Option.map_eq_some_iff.mp made
    refine ⟨front, row, rest, o, split, ?_, found, rfl⟩
    intro r hr
    exact find?_eq_none_iff.mp (Option.map_eq_none_iff.mp (silent r hr))
  · rintro ⟨front, row, rest, o, split, silent, found, rfl⟩
    refine ⟨front, row, rest, split, Option.map_eq_some_iff.mpr ⟨o, found, rfl⟩, ?_⟩
    intro r hr
    exact Option.map_eq_none_iff.mpr (find?_eq_none_iff.mpr (silent r hr))

theorem ofLog?_eq_none_iff : ofLog? table log = none ↔ ∀ row ∈ table, ¬row.Fires log.toList := by
  rw [ofLog?, List.findSome?_eq_none_iff]
  simp only [Option.map_eq_none_iff, find?_eq_none_iff]

theorem ofLog?_append (more : List Signature) (h : ofLog? table log = some d) :
    ofLog? (table ++ more) log = some d := by
  rw [ofLog?, List.findSome?_append, ← ofLog?, h]
  rfl

/-- The kind of the first row that fires. -/
theorem kind_iff {kind : FailureKind} : (ofLog? table log).map (·.kind) = some kind ↔
    ∃ front row rest, table = front ++ row :: rest ∧ row.kind = kind ∧ row.Fires log.toList ∧
      ∀ r ∈ front, ¬r.Fires log.toList := by
  rw [Option.map_eq_some_iff]
  constructor
  · rintro ⟨d, found, rfl⟩
    obtain ⟨front, row, rest, o, split, silent, accepted, rfl⟩ := ofLog?_eq_some_iff.mp found
    have fires : row.Fires log.toList := by
      by_contra none
      rw [find?_eq_none_iff.mpr none] at accepted
      cases accepted
    exact ⟨front, row, rest, split, rfl, fires, silent⟩
  · rintro ⟨front, row, rest, split, rfl, fires, silent⟩
    cases accepted : row.find? log.toList with
    | none => exact absurd fires (find?_eq_none_iff.mp accepted)
    | some o => exact ⟨_, ofLog?_eq_some_iff.mpr ⟨front, row, rest, o, split, silent, accepted, rfl⟩, rfl⟩

end Diagnosis

namespace Signature

section SyntaxErrors

variable {y : List Char}

/-- The beginnings of a syntax error. -/
def SyntaxErrorAt (y : List Char) : Prop :=
  "SyntaxError:".toList <+: y ∨ "Unexpected token".toList <+: y

theorem isSome_syntaxError (before : List Char) (h : SyntaxErrorAt y) :
    (syntaxError ⟨before, y⟩).isSome = true := by
  have start : ((literal "SyntaxError:".toList <|> literal "Unexpected token".toList) ⟨before, y⟩).isSome
      = true := by
    rw [isSome_orElse_iff, isSome_literal_iff, isSome_literal_iff]
    exact h
  obtain ⟨⟨u, c⟩, read⟩ := Option.isSome_iff_exists.mp start
  exact isSome_bind_iff.mpr ⟨u, c, read, rfl⟩

/-- A syntax error is read up to the end of its line. -/
theorem reads_syntaxError : Reads (fun w => w ≠ [] ∧ '\n' ∉ w) syntaxError := by
  have start : Reads (fun w => w ≠ [] ∧ '\n' ∉ w)
      (literal "SyntaxError:".toList <|> literal "Unexpected token".toList) :=
    (reads_literal (by decide)).orElse (reads_literal (by decide))
  have rest : Reads (fun w => '\n' ∉ w) restOfLine := by
    have line : Reads (fun w => '\n' ∉ w) (run (· != '\n')) := by
      apply reads_run
      intro w all feed
      simpa using all _ feed
    apply line.bind fun _ => reads_pure (P := fun w => '\n' ∉ w) List.not_mem_nil
    intro w w' hw hw'
    simp [hw, hw']
  apply start.bind fun _ => rest
  intro w w' hw hw'
  simp [hw.1, hw.2, hw']

end SyntaxErrors

/-- A line names a locator builder, as a word of its own. -/
def NamesBuilder (line : List Char) : Prop :=
  ∃ a subject b, subject ∈ builderSubjects ∧ line = a ++ "getBy".toList ++ subject ++ b ∧
    Apart a.reverse ∧ Apart b

theorem isSome_locatorBuilder {before after subject : List Char} (mem : subject ∈ builderSubjects)
    (front : Apart before) (back : Apart after) :
    (locatorBuilder ⟨before, "getBy".toList ++ subject ++ after⟩).isSome = true := by
  have word : ∀ s ∈ builderSubjects, s.reverse.head?.any isWord = true := by decide
  have edge : Cursor.atBoundary ⟨subject.reverse ++ ("getBy".toList.reverse ++ before), after⟩ = true := by
    cases last : subject.reverse with
    | nil => simpa [last] using word subject mem
    | cons c t => exact (atBoundary_of_before (by simpa [last] using word subject mem)).mpr back
  rw [locatorBuilder, isSome_boundary_bind_iff]
  refine ⟨(atBoundary_of_behind (x := 'g') (by decide)).mpr front, ?_⟩
  rw [isSome_literal_bind_iff]
  refine ⟨subject ++ after, by simp, ?_⟩
  rw [isSome_firstOf_iff]
  refine ⟨_, List.mem_map_of_mem mem, ?_⟩
  rw [isSome_literal_bind_iff]
  exact ⟨after, rfl, Option.isSome_iff_exists.mpr ⟨((), _), boundary_eq_some_iff.mpr ⟨edge, rfl⟩⟩⟩

/-- A builder on one of several lines is found in all of them together. -/
theorem occursIn_of_namesBuilder {ls : List (List Char)} {line : List Char} (mem : line ∈ ls)
    (h : NamesBuilder line) : locatorBuilder.occursIn (joinWith ['\n'] ls) = true := by
  obtain ⟨a, subject, b, hs, rfl, front, back⟩ := h
  obtain ⟨before, behind, text, edge, edge'⟩ := joinWith_of_mem mem
  rw [occursIn_iff_exists]
  refine ⟨before ++ a, "getBy".toList ++ subject ++ (b ++ behind), by rw [text]; simp, ?_⟩
  apply isSome_locatorBuilder hs
  · intro c hc
    cases a using List.reverseRecOn with
    | nil =>
        rw [edge c (by simpa using hc)]
        decide
    | append_singleton a d => exact front c (by simpa using hc)
  · intro c hc
    cases b with
    | nil =>
        rw [edge' c (by simpa using hc)]
        decide
    | cons d b => exact back c (by simpa using hc)

/-- A syntax error fires the guarded row if a builder is named at most three lines away. The
occurrence that is read may start further left on the line, where another error begins. -/
theorem fires_of_namesBuilder {log x y line : List Char} {j : Nat} (split : log = x ++ y)
    (error : SyntaxErrorAt y) (there : (lines log)[j]? = some line) (names : NamesBuilder line)
    (near : lineFeeds x ≤ j + contextRadius ∧ j ≤ lineFeeds x + contextRadius) :
    Fires ⟨.locatorNotFound, syntaxError, some locatorBuilder⟩ log := by
  have consumes : Consumes syntaxError := reads_syntaxError.mono fun _ h => h.1
  obtain ⟨o, mem, a, b, d, z, rfl, rfl, hd, start, text⟩ :=
    exists_occurrence consumes (isSome_syntaxError x.reverse error)
  rw [← split] at mem
  have oneLine : '\n' ∉ b ++ d := by
    obtain ⟨-, -, -, -, read⟩ := mem_occurrences mem
    obtain ⟨w, ⟨-, none⟩, span⟩ := reads_syntaxError _ _ _ read
    rw [← text, Occurrence.text, span.textTo]
    exact none
  have sameLine : lineFeeds (a ++ b) = lineFeeds a := by
    rw [lineFeeds_append, lineFeeds_of_notMem fun h => oneLine (List.mem_append_left d h)]
    rfl
  rw [sameLine] at near
  have parts : log = a ++ (b ++ d) ++ z := by simp [split]
  have place : o.start.before = a.reverse := by rw [start]
  obtain ⟨block, -, context, around, -⟩ := contextAt_eq parts place oneLine (by simp [hd])
  refine ⟨o, mem, ?_⟩
  intro guard hg
  cases hg
  rw [context]
  exact occursIn_of_namesBuilder (List.mem_of_getElem? (around.getElem? there near)) names

end Signature

namespace Diagnosis

open Signature

/-- Which diagnosis a table gives: for every table and log the kind of the first row that fires, and
none if no row does; more rows behind the others change nothing that was found. With the built-in
table a syntax error within three lines of a locator builder is never taken for an error of the
language or anything less telling, wherever it stands among others. -/
theorem ofLog?_decides :
    (∀ (table : List Signature) (log : String),
      (ofLog? table log = none ↔ ∀ row ∈ table, ¬row.Fires log.toList) ∧
      (∀ kind, (ofLog? table log).map (·.kind) = some kind ↔
        ∃ front row rest, table = front ++ row :: rest ∧ row.kind = kind ∧
          row.Fires log.toList ∧ ∀ r ∈ front, ¬r.Fires log.toList) ∧
      ∀ more d, ofLog? table log = some d → ofLog? (table ++ more) log = some d) ∧
    ∀ (log : String) (x y line : List Char) (j : Nat), log.toList = x ++ y → SyntaxErrorAt y →
      (lines log.toList)[j]? = some line → NamesBuilder line →
      lineFeeds x ≤ j + 3 ∧ j ≤ lineFeeds x + 3 →
      ∃ d, ofBuiltin? log = some d ∧
        d.kind ≠ .syntaxError ∧ d.kind ≠ .missingMethod ∧ d.kind ≠ .compilation := by
  constructor
  · intro table log
    exact ⟨ofLog?_eq_none_iff, fun _ => kind_iff, fun more _ => ofLog?_append more⟩
  · intro log x y line j split error there names near
    have fires := fires_of_namesBuilder split error there names near
    -- The guarded row is the seventh, so the first seven rows decide.
    cases found : ofLog? (builtin.take 7) log with
    | none => exact absurd fires (ofLog?_eq_none_iff.mp found _ (by simp [builtin]))
    | some d =>
        have telling : ∀ kind ∈ (builtin.take 7).map (·.kind),
            kind ≠ .syntaxError ∧ kind ≠ .missingMethod ∧ kind ≠ .compilation := by
          decide
        refine ⟨d, ?_, telling d.kind ?_⟩
        · rw [ofBuiltin?, ← List.take_append_drop 7 builtin]
          exact ofLog?_append _ found
        · obtain ⟨front, row, rest, table, kind, -⟩ := kind_iff.mp (congrArg (Option.map _) found)
          have same : d.kind = row.kind := kind.symm
          rw [table, same]
          simp

/-- A log with two syntax errors, of which the second stands next to a locator builder. -/
def farErrors : String :=
  "SyntaxError: one\n\n\n\n\n\nUnexpected token two\n  at page.getByRole('link')\n"

theorem ofLog?_farErrors : ∃ d, ofBuiltin? farErrors = some d ∧
    d.kind ≠ .syntaxError ∧ d.kind ≠ .missingMethod ∧ d.kind ≠ .compilation :=
  ofLog?_decides.2 farErrors "SyntaxError: one\n\n\n\n\n\n".toList
    "Unexpected token two\n  at page.getByRole('link')\n".toList
    "  at page.getByRole('link')".toList 7 (by decide +kernel) (.inr (by decide +kernel))
    (by decide +kernel)
    ⟨"  at page.".toList, "Role".toList, "('link')".toList, by decide, by decide +kernel,
      apart_cons.mpr rfl, apart_cons.mpr rfl⟩ (by decide +kernel)

end Diagnosis

end TestRepair
