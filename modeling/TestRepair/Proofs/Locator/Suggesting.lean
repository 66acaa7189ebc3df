import Mathlib.Data.List.TakeWhile
import TestRepair.Locator.Suggestion
import TestRepair.Proofs.Locator.Quoting

/-!
The selector that a log suggests, where the suggestion is a locator call with a literal. The
arguments reach to the last parenthesis of the line, so whatever stands in the literal the log holds
this one suggestion. Its literal is not read as the one of a failing call is: the escapes of
backslashes stay.
-/

namespace TestRepair
namespace Suggestion

open Text Recogniser

variable {q : Char} {s args before : List Char}

theorem splitLast?_concat (c : Char) (s : List Char) : splitLast? c (s ++ [c]) = some (s, []) := by
  simp [splitLast?, splitFirst?]

/-- The arguments of a call at the end of a line. -/
theorem argumentsOnLine_concat (line : '\n' ∉ args) : argumentsOnLine ⟨before, args ++ [')']⟩ =
    some (args, ⟨')' :: args.reverse ++ before, []⟩) := by
  have plain : ∀ c ∈ args ++ [')'], (c != '\n') = true := by
    simp only [List.mem_append, List.mem_singleton, bne_iff_ne]
    rintro c (hc | rfl)
    · exact ne_of_mem_of_not_mem hc line
    · decide
  have taken : (args ++ [')']).takeWhile (· != '\n') = args ++ [')'] := List.takeWhile_eq_self_iff.mpr plain
  have left : (args ++ [')']).dropWhile (· != '\n') = [] := List.dropWhile_eq_nil_iff.mpr plain
  simp only [argumentsOnLine, taken, left, splitLast?_concat, Option.map_some, List.append_nil]

theorem mention_locator (line : '\n' ∉ args) :
    let text := "aka locator(".toList ++ (args ++ [')'])
    mention ⟨[], text⟩ = some ((.locator, args), ⟨text.reverse, []⟩) := by
  intro text
  let rest := args ++ [')']
  have start : boundary ⟨[], "aka".toList ++ (' ' :: ("locator(".toList ++ rest))⟩ =
      some ((), ⟨[], "aka".toList ++ (' ' :: ("locator(".toList ++ rest))⟩) := rfl
  have blank (before : List Char) : run1 isBlank ⟨before, ' ' :: ("locator(".toList ++ rest)⟩ =
      some ([' '], ⟨' ' :: before, "locator(".toList ++ rest⟩) := rfl
  have method (before : List Char) :
      firstOf (Method.all.map fun m => do literal (m.name.toList ++ ['(']); pure m)
        ⟨before, "locator(".toList ++ rest⟩ =
      some (.locator, ⟨"locator(".toList.reverse ++ before, rest⟩) := rfl
  have shape : text = "aka".toList ++ (' ' :: ("locator(".toList ++ rest)) := rfl
  rw [mention, shape, bind_of_some start, bind_of_some (literal_append ..), bind_of_some (blank _),
    bind_of_some (method _), bind_of_some (argumentsOnLine_concat line)]
  refine congrArg (fun before => some ((Method.locator, args), (⟨before, []⟩ : Cursor))) ?_
  simp [rest]

theorem mention_nil (before : List Char) : mention ⟨before, []⟩ = none := by
  by_contra some
  obtain ⟨⟨_, stop⟩, h⟩ := Option.ne_none_iff_exists'.mp some
  obtain ⟨_, c, atEnd, h⟩ := bind_eq_some_iff.mp h
  obtain ⟨_, _, word, -⟩ := bind_eq_some_iff.mp h
  rw [boundary_eq_some atEnd] at word
  cases word

theorem firstLiteral?_literalOf (hq : FailingLocator.IsQuote q) (s : List Char) :
    firstLiteral? (literalOf q s) = some (unescapeQuotes (escapeFor q s), []) := by
  have body := literalBody?_escapeFor hq.ne_backslash hq.ne_newline s []
  have trimmed : trimStart (literalOf q s) = q :: (escapeFor q s ++ [q]) := by
    rcases hq with rfl | rfl <;> rfl
  have quote : quotes.contains q = true := by rcases hq with rfl | rfl <;> decide
  simp only [firstLiteral?, trimmed, quote, if_true, body, Option.map_some]

/-- A line in which the runner suggests a locator call. -/
def advice (q : Char) (s : String) : String :=
  "aka locator(" ++ String.ofList (literalOf q s.toList) ++ ")"

/-- A suggested locator call gives one candidate. Its selector is the one that the literal quotes
exactly if all backslashes of the selector are escapes of quotes of another kind; a failing call with
the same literal is read as that selector whatever its backslashes. -/
theorem suggestion_of_literal (s : String) (line : '\n' ∉ s.toList) {q : Char}
    (hq : q ∈ ['\x27', '"']) :
    (∃ selector, ofLog (advice q s) = [{ selector, tier := .suggestion }] ∧
      (selector = s ↔ EscapesOnly q s.toList)) ∧
    (Selector.isPageRoot s = false → FailingLocator.ofLog? (advice q s) = some s) := by
  have quote : FailingLocator.IsQuote q := by simpa [FailingLocator.IsQuote] using hq
  have args : '\n' ∉ literalOf q s.toList := by
    simp only [literalOf, List.cons_append, List.mem_cons, List.mem_append, List.not_mem_nil, or_false]
    rintro (e | body | e)
    · exact quote.ne_newline e.symm
    · exact (mem_escapeFor body).elim line (by decide)
    · exact quote.ne_newline e.symm
  have text : (advice q s).toList = "aka locator(".toList ++ (literalOf q s.toList ++ [')']) := by
    simp [advice]
  constructor
  · refine ⟨String.ofList (unescapeQuotes (escapeFor q s.toList)), ?_, ?_⟩
    · rw [ofLog, text, occurrences_eq_singleton (by simp) (mention_locator args) (mention_nil _)]
      simp [selector?, firstLiteral?_literalOf quote]
    · rw [← unescapeQuotes_escapeFor_iff (by rcases quote with rfl | rfl <;> decide)]
      exact ⟨fun e => String.toList_ofList.symm.trans (congrArg String.toList e),
        fun e => by rw [e, String.ofList_toList]⟩
  · intro proper
    have bare : ∀ c ∈ "aka locator(".toList, ¬FailingLocator.IsQuote c := by
      simp [FailingLocator.IsQuote]
    have foreign : ¬"getBy".toList <:+: "aka locator(".toList := by
      rw [← occursIn_iff]
      decide
    have written := FailingLocator.ofLog?_literal quote bare ⟨"aka ".toList, by decide⟩ foreign
      (show Selector.isPageRoot (String.ofList s.toList) = false by rwa [String.ofList_toList]) text
    rwa [String.ofList_toList] at written

/-- The backslash of an escaped identifier is suggested twice, those of escaped quotes are not. -/
theorem suggestion_of_identifier :
    (∃ selector, ofLog (advice '\x27' "#a\\:b") = [{ selector, tier := .suggestion }] ∧
      selector ≠ "#a\\:b") ∧
    FailingLocator.ofLog? (advice '\x27' "#a\\:b") = some "#a\\:b" ∧
    ofLog (advice '\x27' "text=\"a \\\"b\\\"\"") =
      [{ selector := "text=\"a \\\"b\\\"\"", tier := .suggestion }] := by
  obtain ⟨⟨selector, one, same⟩, failing⟩ :=
    suggestion_of_literal "#a\\:b" (by decide) (q := '\x27') (by decide)
  obtain ⟨⟨selector', one', same'⟩, -⟩ :=
    suggestion_of_literal "text=\"a \\\"b\\\"\"" (by decide) (q := '\x27') (by decide)
  have doubled : ¬EscapesOnly '\x27' "#a\\:b".toList :=
    mt (unescapeQuotes_escapeFor_iff (by decide) _).mpr (by decide)
  have kept : EscapesOnly '\x27' "text=\"a \\\"b\\\"\"".toList :=
    (unescapeQuotes_escapeFor_iff (by decide) _).mp (by decide)
  obtain rfl := same'.mpr kept
  exact ⟨⟨selector, one, mt same.mp doubled⟩, failing (by decide +kernel), one'⟩

end Suggestion
end TestRepair
