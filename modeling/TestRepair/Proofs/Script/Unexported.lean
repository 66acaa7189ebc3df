import Mathlib.Data.List.Infix
import TestRepair.Proofs.Script.Exporting
import TestRepair.Proofs.Text.Trimming

/-!
A class that is declared behind a source which does not know its name. It counts as exported all the
same where an assignment to the exports of the module is still open at the end of the source, for the
search then runs on into the declaration; in all other sources the class is found to be unexported.
-/

namespace TestRepair
namespace Script

open FileTree Text

/-- Every brace is closed, and none is closed that has not been opened. -/
structure Balanced (s : List Char) : Prop where
  nested : ∀ p, p <+: s → p.count '\x7d' ≤ p.count '\x7b'
  closed : s.count '\x7d' = s.count '\x7b'

/-- The last character that is no blank. -/
def lastInk (s : List Char) : Option Char := (s.rdropWhile isBlank).getLast?

/-- A source that ends a statement or a block, and in which the name of a class does not occur. -/
structure Unaware (name s : List Char) : Prop where
  absent : ¬name <:+: s
  balanced : Balanced s
  ended : lastInk s = some '\x7d' ∨ lastInk s = some ';'

/-- An assignment to the exports of the module runs on to the end of the text. -/
def OpenAssignment (s : List Char) : Prop :=
  ∃ a w m, s = a ++ ("module.exports".toList ++ (w ++ '=' :: m)) ∧ Apart a.reverse ∧ Blank w ∧ ';' ∉ m

/-- The source with an empty class behind it. -/
def withClass (source cls : String) : String := source ++ "\nclass " ++ cls ++ " \x7b\x7d\n"

section Texts

variable {c : Char} {a m o p s t v w z word : List Char}

theorem Balanced.closes (h : Balanced (a ++ '\x7b' :: m)) : '\x7d' ∈ m := by
  by_contra none
  have opened := h.nested a (List.prefix_append a _)
  have closed := h.closed
  simp only [List.count_append, List.count_cons, List.count_eq_zero_of_not_mem none] at closed
  simp at closed
  omega

theorem prefix_of_append_cons (hc : c ∉ p) (h : p ++ v = w ++ c :: t) : ∃ w', w = p ++ w' := by
  obtain ⟨w', rfl, -⟩ | ⟨_ | ⟨d, p'⟩, rfl, e⟩ := List.append_eq_append_iff.mp h
  · exact ⟨w', rfl⟩
  · exact ⟨[], by simp⟩
  · obtain ⟨rfl, -⟩ := List.cons.inj e
    exact absurd (by simp) hc

theorem split_of_append (hc : c ∉ t) (h : s ++ t = a ++ c :: m) :
    ∃ m', s = a ++ c :: m' ∧ m = m' ++ t := by
  obtain ⟨a', rfl, rfl⟩ | ⟨_ | ⟨d, m'⟩, rfl, e⟩ := List.append_eq_append_iff.mp h
  · exact absurd (by simp) hc
  · exact absurd (List.nil_append t ▸ e ▸ List.mem_cons_self) hc
  · obtain ⟨rfl, rfl⟩ := List.cons.inj e
    exact ⟨m', rfl, rfl⟩

theorem lastInk_append_blank (hw : Blank w) : lastInk (z ++ w) = lastInk z := by
  rw [lastInk, rdropWhile_append_blank hw, lastInk]

theorem lastInk_append_of_getLast? (hw : w.getLast? = some c) (hc : isBlank c = false) :
    lastInk (z ++ w) = some c := by
  rw [lastInk, rdropWhile_append_of_getLast? hw hc, List.getLast?_append, hw, Option.some_or]

theorem lastInk_append_optionally (ho : Optionally word o) (hz : lastInk z = some c)
    (hword : word.getLast? = some c) (hc : isBlank c = false) : lastInk (z ++ o) = some c := by
  cases ho with
  | absent => rwa [List.append_nil]
  | present ne hg =>
      rw [← List.append_assoc, lastInk_append_blank hg, lastInk_append_of_getLast? hword hc]

end Texts

section Names

variable {name s front rest : List Char}

/-- The name stands in the declaration only: at its place there, or inside the word before it. -/
theorem front_of_name (h : ClassName name) (absent : ¬name <:+: s)
    (e : s ++ '\n' :: ("class ".toList ++ (name ++ " \x7b\x7d\n".toList)) = front ++ (name ++ rest)) :
    ∃ u, front = s ++ '\n' :: u ∧ u <+: "class ".toList := by
  have plain {c : Char} (hc : isWord c = false) : c ∉ name := fun hn =>
    absurd (h.word c hn) (by simp [hc])
  obtain ⟨x, name', hn, hx⟩ := h.head
  obtain ⟨_ | ⟨d, u⟩, rfl, behind⟩ | ⟨v, rfl, within⟩ := List.append_eq_append_iff.mp e
  · rw [hn] at behind
    obtain ⟨rfl, -⟩ := List.cons.inj behind
    cases hx
  · obtain ⟨rfl, tail⟩ := List.cons.inj behind
    refine ⟨u, rfl, ?_⟩
    obtain ⟨a, rfl, later⟩ | ⟨a, inside, -⟩ := List.append_eq_append_iff.mp tail
    · obtain ⟨b, rfl, after⟩ | ⟨b, hb, after⟩ := List.append_eq_append_iff.mp later
      · -- the name would have to stand in what follows the class
        have holds : x ∈ " \x7b\x7d\n".toList := by
          rw [after, hn]
          simp
        have none : " \x7b\x7d\n".toList.all (fun y => !isWord y) = true := by decide
        have plain := List.all_eq_true.mp none x holds
        rw [hx] at plain
        cases plain
      · obtain ⟨w, rfl⟩ := prefix_of_append_cons (plain (c := ' ') rfl) after
        have length := congrArg List.length hb
        simp only [List.length_append] at length
        obtain rfl : a = [] := List.eq_nil_of_length_eq_zero (by omega)
        simp
    · exact ⟨a, inside.symm⟩
  · obtain ⟨w, rfl⟩ := prefix_of_append_cons (plain (c := '\n') rfl) within
    exact absurd ⟨front, w, by simp⟩ absent

/-- Where blanks stand in front of the name, these are the line break or the whole word. -/
theorem whole_of_blank {z g u : List Char} (hu : u <+: "class ".toList) (ne : g ≠ []) (hg : Blank g)
    (e : z ++ g = s ++ '\n' :: u) : u = [] ∨ u = "class ".toList := by
  have inside : ∀ u ∈ "class ".toList.inits, ('\n' :: u).getLast?.any isBlank = true →
      u = [] ∨ u = "class ".toList := by decide
  have last : ('\n' :: u).getLast? = g.getLast? := by
    have whole := congrArg List.getLast? e
    rw [List.getLast?_append_of_ne_nil _ ne, List.getLast?_append_of_ne_nil _ (List.cons_ne_nil _ _)]
      at whole
    exact whole.symm
  obtain ⟨g', x, rfl⟩ := (List.eq_nil_or_concat g).resolve_left ne
  refine inside u ((List.mem_inits _ _).mpr hu) ?_
  rw [last, List.concat_eq_append, List.getLast?_concat, Option.any_some]
  exact hg x (by simp)

theorem Unaware.lastInk_ne (hs : Unaware name s) {c : Char} (hc : c ≠ '\x7d' ∧ c ≠ ';') :
    lastInk (s ++ ['\n']) ≠ some c := by
  rw [lastInk_append_blank (List.forall_mem_singleton.mpr rfl)]
  rcases hs.ended with ended | ended <;> simp [ended, hc.1.symm, hc.2.symm]

section Words

variable {g u z : List Char} (hs : Unaware name s) (hu : u <+: "class ".toList) (ne : g ≠ [])
  (hg : Blank g)

include hs hu ne hg

/-- No export of a declaration reaches the name: the word `class` in front of it is that of the
declaration, and the source does not end in a word of an export. -/
theorem declared_ne (lead : lastInk z = some 't') :
    z ++ "class".toList ++ g ≠ s ++ '\n' :: u := by
  intro front
  have ink : lastInk (z ++ "class".toList ++ g) = some 's' :=
    (lastInk_append_blank hg).trans (lastInk_append_of_getLast? rfl rfl)
  rcases whole_of_blank hu ne hg front with rfl | rfl
  · exact hs.lastInk_ne (by decide) (front ▸ ink)
  · have trimmed := congrArg (List.rdropWhile isBlank) front
    rw [rdropWhile_append_blank hg, rdropWhile_append_of_getLast? (c := 's') rfl rfl,
      show s ++ '\n' :: "class ".toList = s ++ ['\n'] ++ "class".toList ++ [' '] by simp,
      rdropWhile_append_blank (List.forall_mem_singleton.mpr rfl),
      rdropWhile_append_of_getLast? (c := 's') rfl rfl] at trimmed
    exact hs.lastInk_ne (by decide) (List.append_cancel_right trimmed ▸ lead)

theorem byDefault_ne : z ++ "default".toList ++ g ≠ s ++ '\n' :: u := by
  intro front
  have ink : lastInk (z ++ "default".toList ++ g) = some 't' :=
    (lastInk_append_blank hg).trans (lastInk_append_of_getLast? rfl rfl)
  rcases whole_of_blank hu ne hg front with rfl | rfl
  · exact hs.lastInk_ne (by decide) (front ▸ ink)
  · rw [front, show s ++ '\n' :: "class ".toList = s ++ "\nclass".toList ++ [' '] by simp,
      lastInk_append_blank (List.forall_mem_singleton.mpr rfl),
      lastInk_append_of_getLast? (c := 's') rfl rfl] at ink
    cases ink

end Words

/-- Behind a source that is not aware of the class, only an open assignment exports it. -/
theorem openAssignment_of_exported (h : ClassName name) (hs : Unaware name s)
    (e : s ++ '\n' :: ("class ".toList ++ (name ++ " \x7b\x7d\n".toList)) = front ++ (name ++ rest))
    (exported : Exported front rest) : OpenAssignment s := by
  obtain ⟨u, hfront, hu⟩ := front_of_name h hs.absent e
  have absentFrom {c : Char} (hc : c ∉ '\n' :: "class ".toList) : c ∉ '\n' :: u :=
    fun hmem => hc ((List.cons_prefix_cons.mpr ⟨rfl, hu⟩).subset hmem)
  cases exported with
  | @declared a w o o' g rest start ne hw ho ho' ne' hg stop =>
      have lead : lastInk (a ++ "export".toList ++ w ++ o ++ o') = some 't' :=
        lastInk_append_optionally ho' (lastInk_append_optionally ho
          ((lastInk_append_blank hw).trans (lastInk_append_of_getLast? rfl rfl)) rfl rfl) rfl rfl
      exact absurd (by simpa only [List.append_assoc] using hfront) (declared_ne hs hu ne' hg lead)
  | @listed a w m rest start hw hm inside stop closed =>
      have front : s ++ '\n' :: u = (a ++ ("export".toList ++ w)) ++ '\x7b' :: m := by
        rw [← hfront]
        simp only [List.append_assoc]
      obtain ⟨m', rfl, rfl⟩ := split_of_append (absentFrom (by decide)) front
      exact absurd (List.mem_append_left _ hs.balanced.closes) hm
  | @byDefault a w g rest start ne hw ne' hg stop =>
      have front : a ++ "export".toList ++ w ++ "default".toList ++ g = s ++ '\n' :: u := by
        simpa only [List.append_assoc] using hfront
      exact absurd front (byDefault_ne hs hu ne' hg)
  | @assigned a w m rest start hw hm inside stop =>
      have front : s ++ '\n' :: u = (a ++ ("module.exports".toList ++ w)) ++ '=' :: m := by
        rw [← hfront]
        simp only [List.append_assoc]
      obtain ⟨m', rfl, rfl⟩ := split_of_append (absentFrom (by decide)) front
      exact ⟨a, w, m', by simp only [List.append_assoc], start, hw,
        fun h => hm (List.mem_append_left _ h)⟩
  | @member a w rest start hw =>
      have last := congrArg List.getLast? hfront
      rw [List.getLast?_append_of_ne_nil _ (by decide),
        List.getLast?_append_of_ne_nil _ (List.cons_ne_nil _ _)] at last
      have found : '.' ∈ '\n' :: u := List.mem_of_getLast? last.symm
      exact absurd found (absentFrom (by decide))

/-- An open assignment takes the declaration of the class for its value. -/
theorem exported_of_openAssignment (hs : OpenAssignment s) :
    Exported (s ++ '\n' :: "class ".toList) " \x7b\x7d\n".toList := by
  obtain ⟨a, w, m, rfl, start, hw, hm⟩ := hs
  have through : ';' ∉ m ++ '\n' :: "class ".toList := by
    rw [List.mem_append, not_or]
    exact ⟨hm, by decide⟩
  have inside : Apart (m ++ '\n' :: "class ".toList).reverse := by
    rw [List.reverse_append]
    exact apart_cons.mpr rfl
  have exported := Exported.assigned start hw through inside
    (show Apart " \x7b\x7d\n".toList from apart_cons.mpr rfl)
  simpa using exported

theorem isExported_withClass_iff (h : ClassName name) (hs : Unaware name s) :
    isExported (s ++ '\n' :: ("class ".toList ++ (name ++ " \x7b\x7d\n".toList))) name = true ↔
      OpenAssignment s := by
  rw [isExported_iff h]
  constructor
  · rintro ⟨front, rest, e, exported⟩
    exact openAssignment_of_exported h hs e exported
  · intro hs
    exact ⟨_, _, by simp, exported_of_openAssignment hs⟩

theorem isDeclared_withClass (h : ClassName name) (s : List Char) :
    isDeclared (s ++ '\n' :: ("class ".toList ++ (name ++ " \x7b\x7d\n".toList))) name = true := by
  refine (isDeclared_iff h).mpr ⟨s ++ ['\n'], [' '], " \x7b\x7d\n".toList, by simp, ?_, by simp,
    List.forall_mem_singleton.mpr rfl, apart_cons.mpr rfl⟩
  rw [List.reverse_append]
  exact apart_cons.mpr rfl

end Names

/-- A class behind a source that is not aware of it is exported, but where the source leaves an
assignment to the exports of its module open: there it is taken for exported already. -/
theorem ensureExported_withClass {t : FileTree} (ht : t.WellFormed) {p : Path} {q : Place}
    {source cls : String} {m : Nat} (hc : ∀ c ∈ cls.toList, isWord c = true)
    (hs : Unaware cls.toList source.toList) (leads : t.canonical p = .ok q)
    (held : t.get? q = some (.file (withClass source cls).toUTF8 m)) :
    (¬OpenAssignment source.toList → ensureExported t p cls = .ok (true,
      t.set q (.file (withExport (withClass source cls) cls).toUTF8 m))) ∧
    (OpenAssignment source.toList → ensureExported t p cls = .ok (false, t)) := by
  have name : ClassName cls.toList := by
    refine ⟨fun empty => hs.absent ?_, hc⟩
    rw [empty]
    exact List.nil_infix
  have read : t.readText p = .ok (withClass source cls) :=
    readText_eq_ok_iff.mpr ⟨q, _, m, leads, held, fromUTF8?_toUTF8 _⟩
  have text : (withClass source cls).toList =
      source.toList ++ '\n' :: ("class ".toList ++ (cls.toList ++ " \x7b\x7d\n".toList)) := by
    simp [withClass]
  constructor
  · intro closed
    have unexported : isExported (withClass source cls).toList cls.toList = false := by
      rw [text, ← Bool.not_eq_true, isExported_withClass_iff name hs]
      exact closed
    have declared : isDeclared (withClass source cls).toList cls.toList = true := by
      rw [text]
      exact isDeclared_withClass name _
    obtain ⟨q', m', leads', held', set⟩ :=
      replaceText_of_readText ht read (withExport (withClass source cls) cls)
    obtain rfl : q = q' := Except.ok.inj (leads.symm.trans leads')
    obtain ⟨-, rfl⟩ := Node.file.inj (Option.some.inj (held.symm.trans held'))
    simp only [ensureExported, read, mapError_ok, ok_bind, unexported, declared, set, pure_eq_ok,
      Bool.not_true, Bool.false_eq_true, if_false]
  · intro hopen
    have exported : isExported (withClass source cls).toList cls.toList = true := by
      rw [text]
      exact (isExported_withClass_iff name hs).mpr hopen
    simp only [ensureExported, read, mapError_ok, ok_bind, exported, if_true, pure_eq_ok]

/-- A module whose list of exports no semicolon ends, with a class that is not in the list. -/
def unendedModule : FileTree where
  nodes := .ofList [(["pages"], .dir), (["pages", "home.js"],
    .file (withClass "module.exports = \x7b Base \x7d" "HomePage").toUTF8 0o644)]

theorem wellFormed_unendedModule : unendedModule.WellFormed :=
  wellFormed_of_fits rfl (by decide)

theorem unaware_unendedModule :
    Unaware "HomePage".toList "module.exports = \x7b Base \x7d".toList where
  absent := by decide
  balanced := by
    refine ⟨fun p hp => ?_, by decide⟩
    have all : ∀ p ∈ "module.exports = \x7b Base \x7d".toList.inits,
      p.count '\x7d' ≤ p.count '\x7b' := by decide
    exact all p ((List.mem_inits _ _).mpr hp)
  ended := by decide

theorem ensureExported_unendedModule : unendedModule.WellFormed ∧
    Unaware "HomePage".toList "module.exports = \x7b Base \x7d".toList ∧
    ensureExported unendedModule ⟨"pages/home.js"⟩ "HomePage" = .ok (false, unendedModule) := by
  have word : ∀ c ∈ "HomePage".toList, isWord c = true := List.all_eq_true.mp (by decide)
  have runsOn : OpenAssignment "module.exports = \x7b Base \x7d".toList :=
    ⟨[], [' '], " \x7b Base \x7d".toList, by decide, nofun, List.forall_mem_singleton.mpr rfl, by decide⟩
  exact ⟨wellFormed_unendedModule, unaware_unendedModule,
    (ensureExported_withClass wellFormed_unendedModule word unaware_unendedModule
      (q := ["pages", "home.js"]) (m := 0o644) rfl rfl).2 runsOn⟩

end Script
end TestRepair
