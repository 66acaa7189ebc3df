import Mathlib.Logic.Relation
import TestRepair.Proofs.Repair.Touching
import TestRepair.Proofs.Script.Exports

/-!
Exporting a class from its module. One line is appended to the file, and whatever is appended behind
it, the class counts as exported from then on.
-/

namespace TestRepair
namespace Script

open FileTree Text

/-- The statement that exports a class: an assignment where the source only requires modules. -/
inductive ExportStatement (source cls : String) : String → Prop
  | assignment (requires : "require(".toList <:+: source.toList)
      (imports : ¬"import ".toList <:+: source.toList) :
      ExportStatement source cls ("module.exports." ++ cls ++ " = " ++ cls ++ ";")
  | list (h : "require(".toList <:+: source.toList → "import ".toList <:+: source.toList) :
      ExportStatement source cls ("export \x7b " ++ cls ++ " \x7d;")

/-- `out` is the source, a line break where its last line has none, and one line that exports. -/
def Appended (source cls out : String) : Prop :=
  ∃ line, ExportStatement source cls line ∧ '\n' ∉ line.toList ∧
    out = source ++ (if source.toList.getLast? = some '\n' then "" else "\n") ++ line ++ "\n"

/-- One class after the other is exported, each from some file. -/
def Exports : FileTree → FileTree → Prop :=
  Relation.ReflTransGen fun t t' => ∃ p cls changed, ensureExported t p cls = .ok (changed, t')

section Line

variable {source cls : String}

theorem exportLine_eq (source cls : String) : ∃ line, ExportStatement source cls line ∧
    exportLine source.toList cls = line ++ "\n" := by
  have older : exportsByAssignment source.toList = true ↔
      "require(".toList <:+: source.toList ∧ ¬"import ".toList <:+: source.toList := by
    rw [exportsByAssignment, Bool.and_eq_true, Bool.not_eq_true', ← Bool.not_eq_true, occursIn_iff,
      occursIn_iff]
  have ended : ";\n" = ";" ++ "\n" := by decide
  have ended' : " \x7d;\n" = " \x7d;" ++ "\n" := by decide
  unfold exportLine
  split
  · next kind =>
    obtain ⟨requires, imports⟩ := older.mp kind
    exact ⟨_, .assignment requires imports, by rw [ended, ← String.append_assoc]⟩
  · next kind =>
    rw [older, not_and, not_not] at kind
    exact ⟨_, .list kind, by rw [ended', ← String.append_assoc]⟩

theorem withExport_eq (source cls : String) : ∃ line, ExportStatement source cls line ∧
    withExport source cls =
      source ++ (if source.toList.getLast? = some '\n' then "" else "\n") ++ line ++ "\n" := by
  obtain ⟨line, statement, written⟩ := exportLine_eq source cls
  refine ⟨line, statement, ?_⟩
  simp only [withExport, written, endsWith_singleton, String.append_assoc]
  split <;> simp only [String.append_assoc, String.empty_append]

theorem appended_withExport (hc : ∀ c ∈ cls.toList, isWord c = true) (source : String) :
    Appended source cls (withExport source cls) := by
  have plain : '\n' ∉ cls.toList := fun h => absurd (hc _ h) (by decide)
  obtain ⟨line, statement, written⟩ := withExport_eq source cls
  refine ⟨line, statement, ?_, written⟩
  cases statement <;> simp [plain]

/-- A text exports a class whatever is appended to it. -/
def Settled (name text : List Char) : Prop := ∀ more, isExported (text ++ more) name = true

theorem Settled.append {name text : List Char} (h : Settled name text) (more : List Char) :
    Settled name (text ++ more) := by
  intro more'
  rw [List.append_assoc]
  exact h (more ++ more')

theorem settled_of_exported {name front rest : List Char} (h : ClassName name)
    (hs : Exported front rest) (ne : rest ≠ []) : Settled name (front ++ (name ++ rest)) := by
  intro more
  rw [List.append_assoc, List.append_assoc]
  exact isExported_of_exported h (hs.append ne more)

/-- The export statement starts on a line of its own. -/
theorem withExport_split (source cls : String) : ∃ (lines : List Char) (line : String),
    Apart lines.reverse ∧ ExportStatement source cls line ∧
      (withExport source cls).toList = lines ++ (line.toList ++ ['\n']) := by
  obtain ⟨line, statement, written⟩ := withExport_eq source cls
  by_cases ends : source.toList.getLast? = some '\n'
  · refine ⟨source.toList, line, ?_, statement, ?_⟩
    · intro c hc
      rw [List.head?_reverse, ends] at hc
      cases hc
      rfl
    · rw [written, if_pos ends]
      simp
  · refine ⟨source.toList ++ ['\n'], line, ?_, statement, ?_⟩
    · rw [List.reverse_append]
      exact apart_cons.mpr rfl
    · rw [written, if_neg ends]
      simp

theorem settled_withExport (h : ClassName cls.toList) (source : String) :
    Settled cls.toList (withExport source cls).toList := by
  obtain ⟨lines, line, apart, statement, text⟩ := withExport_split source cls
  have space : Blank [' '] := List.forall_mem_singleton.mpr rfl
  rw [text]
  cases statement with
  | assignment requires imports =>
      have start : Apart (lines ++ "module.".toList).reverse := by
        rw [List.reverse_append]
        exact apart_cons.mpr rfl
      have member : Exported (lines ++ "module.".toList ++ "exports.".toList)
          ([' '] ++ '=' :: (' ' :: cls.toList ++ ";\n".toList)) := .member start space
      simpa using settled_of_exported h member (List.cons_ne_nil _ _)
  | list kind =>
      have listed : Exported (lines ++ ("export".toList ++ ([' '] ++ '\x7b' :: [' '])))
          " \x7d;\n".toList :=
        .listed apart space (by decide) (apart_cons.mpr rfl) (apart_cons.mpr rfl) (by decide)
      simpa using settled_of_exported h listed (List.cons_ne_nil _ _)

theorem Settled.withExport {name : List Char} {source : String} (h : Settled name source.toList)
    (cls : String) : Settled name (withExport source cls).toList := by
  obtain ⟨line, -, written⟩ := withExport_eq source cls
  rw [written, String.append_assoc, String.append_assoc, String.toList_append]
  exact h.append _

end Line

section Calls

variable {t t' : FileTree} {p : Path} {q : Place} {cls : String} {changed : Bool}

/-- What one call does: nothing, or the file that the path leads to gets one export. -/
theorem ensureExported_set (ht : t.WellFormed)
    (h : ensureExported t p cls = .ok (changed, t')) :
    changed = false ∧ t' = t ∨ changed = true ∧ ∃ q source m, t.canonical p = .ok q ∧
      t.get? q = some (.file source.toUTF8 m) ∧
      t' = t.set q (.file (withExport source cls).toUTF8 m) := by
  obtain unchanged | ⟨rfl, source, read, written⟩ := ensureExported_eq_ok h
  · exact .inl unchanged
  · obtain ⟨q, m, leads, held, set⟩ := replaceText_of_readText ht read (withExport source cls)
    rw [written] at set
    exact .inr ⟨rfl, q, source, m, leads, held, Except.ok.inj set⟩

/-- A call fails only before anything is written. -/
theorem ensureExported_eq_error (ht : t.WellFormed) {e : ExportError}
    (h : ensureExported t p cls = .error e) :
    (∃ cause, t.readText p = .error cause ∧ e = .read p cause) ∨
      (∃ source, t.readText p = .ok source ∧ isDeclared source.toList cls.toList = false ∧
        e = .notDeclared cls p) := by
  unfold ensureExported at h
  cases read : t.readText p with
  | error cause =>
      simp only [read, mapError_error, error_bind, Except.error.injEq] at h
      exact .inl ⟨cause, rfl, h.symm⟩
  | ok source =>
      simp only [read, mapError_ok, ok_bind] at h
      split at h
      · cases h
      · split at h
        · next undeclared =>
          cases h
          exact .inr ⟨source, rfl, by simpa using undeclared, rfl⟩
        · obtain ⟨q, m, -, -, set⟩ := replaceText_of_readText ht read (withExport source cls)
          simp only [set, mapError_ok, ok_bind] at h
          cases h

theorem ensureExported_of_settled {source : String} {m : Nat} (leads : t.canonical p = .ok q)
    (held : t.get? q = some (.file source.toUTF8 m)) (h : Settled cls.toList source.toList) :
    ensureExported t p cls = .ok (false, t) := by
  have read : t.readText p = .ok source :=
    readText_eq_ok_iff.mpr ⟨q, _, m, leads, held, fromUTF8?_toUTF8 source⟩
  have exported : isExported source.toList cls.toList = true := by
    simpa using h []
  simp only [ensureExported, read, mapError_ok, ok_bind, exported, if_true, pure_eq_ok]

/-- The file at a place exports a class, whatever is appended to it. -/
structure SettledAt (q : Place) (name : List Char) (t : FileTree) : Prop where
  wellFormed : t.WellFormed
  held : ∃ (source : String) (m : Nat), t.get? q = some (.file source.toUTF8 m) ∧
    Settled name source.toList

theorem SettledAt.step {name : List Char} (h : SettledAt q name t)
    (call : ensureExported t p cls = .ok (changed, t')) : SettledAt q name t' ∧ Extends t t' := by
  obtain ⟨-, rfl⟩ | ⟨-, q', source, m, -, held, rfl⟩ := ensureExported_set h.wellFormed call
  · exact ⟨h, .refl _⟩
  · refine ⟨⟨h.wellFormed.set_file held, ?_⟩, extends_set_of_file held _ _⟩
    have inTree := ne_nil_of_file held
    obtain ⟨old, m', here, settled⟩ := h.held
    by_cases same : q = q'
    · subst same
      obtain ⟨bytes, -⟩ := Node.file.inj (Option.some.inj (held.symm.trans here))
      obtain rfl := String.toByteArray_inj.mp bytes
      exact ⟨_, m, get?_set_self t _ inTree, settled.withExport _⟩
    · exact ⟨old, m', by rwa [get?_set_of_ne t _ inTree same], settled⟩

theorem SettledAt.run {name : List Char} (h : SettledAt q name t) (calls : Exports t t') :
    SettledAt q name t' ∧ Extends t t' := by
  induction calls with
  | refl => exact ⟨h, .refl t⟩
  | tail _ last ih =>
      obtain ⟨settled, grown⟩ := ih
      obtain ⟨p, cls, changed, call⟩ := last
      obtain ⟨settled', grown'⟩ := settled.step call
      exact ⟨settled', grown.trans grown'⟩

end Calls

/-- Exporting a class appends one line once. A call fails before anything is written, or it leaves the
tree as it is, or the file that the path leads to gets the export behind its old text; then every
further call for that file and class leaves the tree as it is, whatever has been exported between. -/
theorem ensureExported_appends_once {t : FileTree} (ht : t.WellFormed) (p : Path) {cls : String}
    (hc : ∀ c ∈ cls.toList, isWord c = true) :
    (∃ e, ensureExported t p cls = .error e ∧ ∀ cause, e ≠ .patch cause) ∨
    ensureExported t p cls = .ok (false, t) ∨
    ∃ t' q source out m, ensureExported t p cls = .ok (true, t') ∧ t.canonical p = .ok q ∧
      t.get? q = some (.file source.toUTF8 m) ∧ Appended source cls out ∧
      (∀ q', t'.get? q' = if q' = q then some (.file out.toUTF8 m) else t.get? q') ∧
      t'.current = t.current ∧
      (cls ≠ "" → ∀ t'', Exports t' t'' → t''.canonical p = .ok q ∧
        ∀ p', t''.canonical p' = .ok q → ensureExported t'' p' cls = .ok (false, t'')) := by
  cases call : ensureExported t p cls with
  | error e =>
      refine .inl ⟨e, rfl, ?_⟩
      obtain ⟨_, -, rfl⟩ | ⟨_, -, -, rfl⟩ := ensureExported_eq_error ht call <;> exact fun _ => nofun
  | ok result =>
      obtain ⟨changed, t'⟩ := result
      obtain ⟨rfl, rfl⟩ | ⟨rfl, q, source, m, leads, held, rfl⟩ := ensureExported_set ht call
      · exact .inr (.inl rfl)
      · have inTree := ne_nil_of_file held
        refine .inr (.inr ⟨_, q, source, withExport source cls, m, rfl, leads, held,
          appended_withExport hc source, fun q' => get?_set t q q' _ inTree, rfl, ?_⟩)
        intro proper t'' calls
        have name : ClassName cls.toList := ⟨mt String.toList_eq_nil_iff.mp proper, hc⟩
        have settled : SettledAt q cls.toList (t.set q (.file (withExport source cls).toUTF8 m)) :=
          ⟨ht.set_file held, _, m, get?_set_self t _ inTree, settled_withExport name source⟩
        obtain ⟨⟨-, text, m', held', settled'⟩, grown⟩ := settled.run calls
        refine ⟨grown.canonical ((extends_set_of_file held _ _).canonical leads), ?_⟩
        intro p' leads'
        exact ensureExported_of_settled leads' held' settled'

/-- A module that requires another one, and a link to it. -/
def linkedModule : FileTree where
  nodes := .ofList [(["pages"], .dir),
    (["pages", "home.js"], .file "const a = require('a');\nclass Home \x7b\x7d".toUTF8 0o600),
    (["pages", "main.js"], .link ⟨"home.js"⟩)]

theorem wellFormed_linkedModule : linkedModule.WellFormed :=
  wellFormed_of_fits rfl (by decide)

theorem ensureExported_linkedModule : linkedModule.WellFormed ∧
    (∀ c ∈ "Home".toList, isWord c = true) ∧
    ∃ t', ensureExported linkedModule ⟨"pages/main.js"⟩ "Home" = .ok (true, t') ∧
      t'.get? ["pages", "home.js"] = some (.file ("const a = require('a');\nclass Home \x7b\x7d\n" ++
        "module.exports.Home = Home;\n").toUTF8 0o600) ∧
      ensureExported t' ⟨"pages/main.js"⟩ "Home" = .ok (false, t') := by
  have word : ∀ c ∈ "Home".toList, isWord c = true := List.all_eq_true.mp (by decide)
  have changes : (ensureExported linkedModule ⟨"pages/main.js"⟩ "Home").toOption.map (·.1) =
      some true := by decide +kernel
  have stored : ((ensureExported linkedModule ⟨"pages/main.js"⟩ "Home").toOption.bind
      fun r => r.2.get? ["pages", "home.js"]) =
        some (.file ("const a = require('a');\nclass Home \x7b\x7d\n" ++
          "module.exports.Home = Home;\n").toUTF8 0o600) := by decide +kernel
  obtain ⟨e, call, -⟩ | call | ⟨t', q, source, out, m, call, -, -, -, -, -, later⟩ :=
    ensureExported_appends_once wellFormed_linkedModule ⟨"pages/main.js"⟩ word
  · rw [call] at changes
    cases changes
  · rw [call] at changes
    cases changes
  · rw [call] at stored
    obtain ⟨leads, again⟩ := later (by decide) t' .refl
    exact ⟨wellFormed_linkedModule, word, t', call, stored, again _ leads⟩

end Script
end TestRepair
