import Mathlib.Data.List.Basic
import TestRepair.Locator.Failing
import TestRepair.Locator.Replacement
import TestRepair.Proofs.Text.Escaping
import TestRepair.Proofs.Text.Scanning

/-!
A selector that was written into a script is the one that a log gives back when it fails. The body
of its literal may itself hold literals, locator calls and builder calls; all of these start further
on, so the scan of the log reports the literal first.
-/

namespace TestRepair
namespace FailingLocator

open Text Recogniser

/-- The quotes that logs put around a selector. -/
def IsQuote (q : Char) : Prop := q = '\x27' ∨ q = '"'

instance (q : Char) : Decidable (IsQuote q) := inferInstanceAs (Decidable (_ ∨ _))

theorem IsQuote.ne_backslash {q : Char} (h : IsQuote q) : q ≠ '\\' := by
  rcases h with rfl | rfl <;> decide

theorem IsQuote.ne_newline {q : Char} (h : IsQuote q) : q ≠ '\n' := by
  rcases h with rfl | rfl <;> decide

section Shapes

variable {opening closing body : List Char} {q : Char} {c start stop : Cursor}

theorem quotedBetween_eq_some
    (h : quotedBetween opening q closing c = some ((start, body), stop)) :
    ∃ t rest, c.after = opening ++ q :: t ∧ start = ⟨q :: opening.reverse ++ c.before, t⟩ ∧
      literalBody? q t = some (body, rest) := by
  obtain ⟨_, c₁, opened, h⟩ := bind_eq_some_iff.mp h
  rw [get_bind] at h
  obtain ⟨_, _, read, h⟩ := bind_eq_some_iff.mp h
  obtain ⟨_, _, -, h⟩ := bind_eq_some_iff.mp h
  obtain ⟨after, before⟩ := literal_eq_some opened
  obtain ⟨⟨_, rest⟩, literal, e⟩ := Option.map_eq_some_iff.mp read
  cases h
  cases e
  exact ⟨start.after, rest, by simpa using after, by cases start; simpa using before, literal⟩

theorem quotedBetween_literal (hq : IsQuote q) (opening closing s before rest : List Char) :
    ∃ stop, quotedBetween opening q closing ⟨before, opening ++ literalOf q s ++ closing ++ rest⟩ =
      some ((⟨q :: opening.reverse ++ before, escapeFor q s ++ q :: closing ++ rest⟩,
        escapeFor q s), stop) := by
  have shape : opening ++ literalOf q s ++ closing ++ rest =
      (opening ++ [q]) ++ (escapeFor q s ++ q :: (closing ++ rest)) := by simp [literalOf]
  have body := literalBody?_escapeFor hq.ne_backslash hq.ne_newline s (closing ++ rest)
  have read : literalBody q ⟨(opening ++ [q]).reverse ++ before,
      escapeFor q s ++ q :: (closing ++ rest)⟩ =
      some (escapeFor q s, ⟨q :: (escapeFor q s).reverse ++ ((opening ++ [q]).reverse ++ before),
        closing ++ rest⟩) := by
    simp [literalBody, body]
  rw [quotedBetween, shape, bind_of_some (literal_append ..), get_bind, bind_of_some read,
    bind_of_some (literal_append ..)]
  exact ⟨_, congrArg some (by simp; rfl)⟩

/-- Whatever the shape, a quoted selector starts right behind a quote. -/
theorem start_of_mem_quotedShapes {shape : Recogniser (Cursor × List Char)}
    (hs : shape ∈ quotedShapes) (h : shape c = some ((start, body), stop)) :
    ∃ w q t rest, IsQuote q ∧ c.after = w ++ q :: t ∧ start = ⟨q :: w.reverse ++ c.before, t⟩ ∧
      literalBody? q t = some (body, rest) := by
  have between {opening closing : List Char} {q : Char} (hq : IsQuote q)
      (h : quotedBetween opening q closing c = some ((start, body), stop)) :
      ∃ w q t rest, IsQuote q ∧ c.after = w ++ q :: t ∧ start = ⟨q :: w.reverse ++ c.before, t⟩ ∧
        literalBody? q t = some (body, rest) := by
    obtain ⟨t, rest, after, place, read⟩ := quotedBetween_eq_some h
    exact ⟨opening, q, t, rest, hq, after, place, read⟩
  simp only [quotedShapes, List.mem_cons, List.not_mem_nil, or_false] at hs
  rcases hs with rfl | rfl | rfl | rfl | rfl
  · exact between (.inl rfl) h
  · exact between (.inr rfl) h
  · exact between (.inr rfl) h
  · exact between (.inl rfl) h
  · -- The phrase and its optional colon move the place, and nothing else.
    obtain ⟨_, c₁, phrase, h⟩ := bind_eq_some_iff.mp h
    obtain ⟨_, c₂, colon, h⟩ := bind_eq_some_iff.mp h
    obtain ⟨after₁, before₁⟩ := literal_eq_some phrase
    obtain ⟨w, after₂, before₂⟩ := optional_eq_some colon
    obtain ⟨t, rest, after, place, read⟩ := quotedBetween_eq_some h
    refine ⟨"No element found for selector".toList ++ w ++ [' '], '"', t, rest, .inr rfl, ?_, ?_,
      read⟩
    · rw [after₁, after₂, after]
      simp only [List.append_assoc]
    · rw [place, before₂, before₁]
      simp only [List.reverse_append, List.append_assoc, List.cons_append]

end Shapes

section Reported

variable {pre s : List Char} {q : Char}

/-- Every quoted selector of a log is the body of a literal that starts at its place. -/
theorem quoted_split {log : List Char} {f : Nat × List Char} (hf : f ∈ quoted log) :
    ∃ u q t body rest, IsQuote q ∧ log = u ++ q :: t ∧ f.1 = u.length + 1 ∧
      literalBody? q t = some (body, rest) ∧ f.2 = unescape body := by
  obtain ⟨shape, hs, hf⟩ := List.mem_flatMap.mp hf
  obtain ⟨o, ho, rfl⟩ := List.mem_map.mp hf
  obtain ⟨x, y, text, place, read⟩ := mem_occurrences ho
  have found : shape o.start = some ((o.value.1, o.value.2), o.stop) := read
  obtain ⟨w, q, t, rest, hq, after, start, body⟩ := start_of_mem_quotedShapes hs found
  rw [place] at after start
  obtain rfl : y = w ++ q :: t := after
  refine ⟨x ++ w, q, t, o.value.2, rest, hq, by simpa using text, ?_, body, rfl⟩
  simp [start, Cursor.offset, Nat.add_comm]

/-- Every quoted selector of the log starts behind the literal, but for the literal's own. -/
theorem quoted_start (hq : IsQuote q) (bare : ∀ c ∈ pre, ¬IsQuote c) {rest : List Char}
    {f : Nat × List Char} (hf : f ∈ quoted (pre ++ literalOf q s ++ rest)) :
    pre.length + 1 ≤ f.1 ∧ (f.1 = pre.length + 1 → f.2 = s) := by
  obtain ⟨u, q', t, body, rest', hq', text, place, read, value⟩ := quoted_split hf
  have split : pre ++ q :: (escapeFor q s ++ q :: rest) = u ++ q' :: t := by
    simpa [literalOf] using text
  rw [place]
  rcases first_mark bare hq' split with ⟨same, rfl, rfl⟩ | later
  · rw [literalBody?_escapeFor hq'.ne_backslash hq'.ne_newline] at read
    have own : escapeFor q' s = body := (Prod.mk.inj (Option.some.inj read)).1
    exact ⟨by simp [same], fun _ => value.trans (own ▸ unescape_escapeFor hq' s)⟩
  · exact ⟨by omega, fun e => by omega⟩

/-- The literal itself is among the quoted selectors. -/
theorem mem_quoted (hq : IsQuote q) (bare : ∀ c ∈ pre, ¬IsQuote c)
    (call : "locator(".toList <:+ pre) (rest : List Char) :
    (pre.length + 1, s) ∈ quoted (pre ++ literalOf q s ++ ')' :: rest) := by
  obtain ⟨front, rfl⟩ := call
  let shape := quotedBetween "locator(".toList q [')']
  let y := "locator(".toList ++ literalOf q s ++ [')'] ++ rest
  have mem : shape ∈ quotedShapes := by rcases hq with rfl | rfl <;> simp [shape, quotedShapes]
  -- No quote stands in front of the call, so the shape is refused there.
  have refused : ∀ a b, front = a ++ b → b ≠ [] → shape ⟨a.reverse, b ++ y⟩ = none := by
    intro a b split hb
    by_contra some
    obtain ⟨⟨⟨start, body⟩, stop⟩, read⟩ := Option.ne_none_iff_exists'.mp some
    obtain ⟨t, -, after, -, -⟩ := quotedBetween_eq_some read
    have bare' : ∀ c ∈ b ++ "locator(".toList, ¬IsQuote c := fun c hc =>
      bare c (by rw [split, List.append_assoc]; exact List.mem_append_right a hc)
    have text : (b ++ "locator(".toList) ++ q :: (escapeFor q s ++ q :: ([')'] ++ rest)) =
        "locator(".toList ++ q :: t := by
      simpa [y, literalOf] using after
    rcases first_mark bare' hq text with ⟨same, -, -⟩ | later
    · exact hb (by simpa using congrArg List.length same)
    · simp only [List.length_append] at later
      omega
  obtain ⟨stop, read⟩ := quotedBetween_literal hq "locator(".toList [')'] s front.reverse rest
  have found := mem_occurrences_of_read refused read
  have text : front ++ "locator(".toList ++ literalOf q s ++ ')' :: rest = front ++ y := by simp [y]
  refine List.mem_flatMap.mpr ⟨shape, mem, List.mem_map.mpr ⟨_, text ▸ found, ?_⟩⟩
  have offset : (q :: "locator(".toList.reverse ++ front.reverse).length =
      (front ++ "locator(".toList).length + 1 := by
    simp only [List.cons_append, List.length_cons, List.length_append, List.length_reverse]
    omega
  simp only [Cursor.offset, unescape_escapeFor hq, offset]

theorem prefix_of_notMem {p u v : List Char} {c : Char} (h : p <+: u ++ c :: v) (hc : c ∉ p) :
    p <+: u := by
  rcases List.prefix_or_prefix_of_prefix h (List.prefix_append u (c :: v)) with h' | ⟨w, rfl⟩
  · exact h'
  · cases w with
    | nil => simp
    | cons d w =>
      obtain ⟨rfl, -⟩ := List.cons_prefix_cons.mp (List.prefix_append_right_inj u |>.mp h)
      simp at hc

theorem call_eq_some {c stop : Cursor} {u : Unit} (h : BuilderCall.call c = some (u, stop)) :
    "getBy".toList <+: c.after := by
  obtain ⟨_, c₁, boundary, h⟩ := bind_eq_some_iff.mp h
  obtain ⟨_, c₂, name, -⟩ := bind_eq_some_iff.mp h
  exact boundary_eq_some boundary ▸ ⟨_, (literal_eq_some name).1.symm⟩

/-- No builder call starts in front of the literal's body. -/
theorem calls_start (hq : IsQuote q) (foreign : ¬"getBy".toList <:+: pre) {rest : List Char}
    {f : Nat × List Char} (hf : f ∈ calls (pre ++ q :: rest)) : pre.length + 1 ≤ f.1 := by
  obtain ⟨o, ho, rfl⟩ := List.mem_map.mp hf
  obtain ⟨x, y, text, place, read⟩ := mem_occurrences (List.mem_filter.mp ho).1
  have name : "getBy".toList <+: y := by simpa [place] using call_eq_some read
  have plain : q ∉ "getBy".toList := by rcases hq with rfl | rfl <;> decide
  suffices pre.length < x.length by simpa [place, Cursor.offset] using Nat.succ_le_of_lt this
  by_contra early
  obtain ⟨z, rfl⟩ : x <+: pre := List.prefix_of_prefix_length_le ⟨y, text.symm⟩
    (List.prefix_append pre (q :: rest)) (Nat.le_of_not_lt early)
  have tail : y = z ++ q :: rest := by simpa using text.symm
  exact foreign ((prefix_of_notMem (tail ▸ name) plain).isInfix.trans (List.suffix_append x z).isInfix)

end Reported

section Sorting

variable {found : List (Nat × List Char)} {p : Nat × List Char → Bool} {f : Nat × List Char}

theorem trans_place (a b c : Nat × List Char) :
    decide (a.1 ≤ b.1) → decide (b.1 ≤ c.1) → decide (a.1 ≤ c.1) := by
  simp only [decide_eq_true_eq]
  omega

theorem total_place (a b : Nat × List Char) : (decide (a.1 ≤ b.1) || decide (b.1 ≤ a.1)) = true := by
  simp only [Bool.or_eq_true, decide_eq_true_eq]
  omega

/-- Sorting by place is stable: what stands at one place keeps its order. -/
theorem find?_mergeSort_of_level {near : Nat × List Char → Bool}
    (level : ∀ a b, near a = true → near b = true → a.1 ≤ b.1) :
    (found.mergeSort fun a b => decide (a.1 ≤ b.1)).find? near = found.find? near := by
  let le (a b : Nat × List Char) : Bool := decide (a.1 ≤ b.1)
  have flat : (found.filter near).Pairwise fun a b => le a b = true := by
    refine List.pairwise_of_forall_mem_list fun a ha b hb => ?_
    exact decide_eq_true (level a b (List.mem_filter.mp ha).2 (List.mem_filter.mp hb).2)
  have sub := (List.sublist_mergeSort trans_place total_place flat List.filter_sublist).filter near
  simp only [List.filter_filter, Bool.and_self] at sub
  have kept : found.filter near = (found.mergeSort le).filter near :=
    sub.eq_of_length (by simpa using ((List.mergeSort_perm found le).filter near).length_eq.symm)
  rw [← List.head?_filter, ← List.head?_filter, kept]

/-- Of a sorted list the first is found that has the least place, and comes first at its place. -/
theorem find?_mergeSort : (found.mergeSort fun a b => decide (a.1 ≤ b.1)).find? p = some f ↔
    (∀ g ∈ found, p g = true → f.1 ≤ g.1) ∧
      found.find? (fun g => p g && decide (g.1 = f.1)) = some f := by
  have same (f : Nat × List Char) : (found.mergeSort fun a b => decide (a.1 ≤ b.1)).find?
      (fun g => p g && decide (g.1 = f.1)) = found.find? fun g => p g && decide (g.1 = f.1) :=
    find?_mergeSort_of_level (by simp; omega)
  have mem {g : Nat × List Char} : g ∈ found.mergeSort (fun a b => decide (a.1 ≤ b.1)) ↔ g ∈ found :=
    (List.mergeSort_perm found _).mem_iff
  have sorted := List.pairwise_mergeSort trans_place total_place found
  have forward {f : Nat × List Char}
      (h : (found.mergeSort fun a b => decide (a.1 ≤ b.1)).find? p = some f) :
      (∀ g ∈ found, p g = true → f.1 ≤ g.1) ∧
        found.find? (fun g => p g && decide (g.1 = f.1)) = some f := by
    obtain ⟨hf, front, rest, split, none⟩ := List.find?_eq_some_iff_append.mp h
    constructor
    · intro g hg hp
      rw [← mem, split] at hg
      rw [split] at sorted
      rcases List.mem_append.mp hg with hg | hg
      · exact absurd (none g hg) (by simp [hp])
      · rcases List.mem_cons.mp hg with rfl | hg
        · exact Nat.le_refl _
        · simpa using (List.pairwise_cons.mp (List.pairwise_append.mp sorted).2.1).1 g hg
    · rw [← same]
      refine List.find?_eq_some_iff_append.mpr ⟨by simp [hf], front, rest, split, fun a ha => ?_⟩
      simp [by simpa using none a ha]
  refine ⟨forward, fun ⟨least, first⟩ => ?_⟩
  obtain ⟨hf, near⟩ : p f = true ∧ f ∈ found :=
    ⟨by simpa using List.find?_some first, List.mem_of_find?_eq_some first⟩
  obtain ⟨g, hg⟩ := Option.isSome_iff_exists.mp (List.find?_isSome.mpr ⟨f, mem.mpr near, hf⟩)
  obtain ⟨least', first'⟩ := forward hg
  have place : g.1 = f.1 :=
    Nat.le_antisymm (least' f near hf) (least g (List.mem_of_find?_eq_some first') (List.find?_some hg))
  rw [place, first] at first'
  rw [hg, first']

theorem head?_mergeSort (least : ∀ g ∈ found, f.1 ≤ g.1) (first : found.find? (·.1 = f.1) = some f) :
    (found.mergeSort fun a b => decide (a.1 ≤ b.1)).head? = some f := by
  have head (l : List (Nat × List Char)) : l.find? (fun _ => true) = l.head? := by
    cases l <;> rfl
  rw [← head, find?_mergeSort]
  exact ⟨fun g hg _ => least g hg, by simpa using first⟩

end Sorting

section Reported

variable {pre s : List Char} {q : Char}

theorem head?_all (hq : IsQuote q) (bare : ∀ c ∈ pre, ¬IsQuote c) (call : "locator(".toList <:+ pre)
    (foreign : ¬"getBy".toList <:+: pre) (rest : List Char) :
    (all (pre ++ literalOf q s ++ ')' :: rest)).head? = some (pre.length + 1, s) := by
  have start {f : Nat × List Char} (hf : f ∈ quoted (pre ++ literalOf q s ++ ')' :: rest)) :=
    quoted_start hq bare hf
  refine head?_mergeSort (fun g hg => ?_) ?_
  · rcases List.mem_append.mp hg with hg | hg
    · exact (start hg).1
    · exact calls_start hq foreign (by simpa [literalOf] using hg)
  · rw [List.find?_append]
    obtain ⟨f, found⟩ := Option.isSome_iff_exists.mp
      (List.find?_isSome (p := fun g => decide (g.1 = pre.length + 1)) |>.mpr
        ⟨_, mem_quoted hq bare call rest, by simp⟩)
    have place : f.1 = pre.length + 1 := by simpa using List.find?_some found
    have own := (start (List.mem_of_find?_eq_some found)).2 place
    rw [found, ← place, ← own]
    rfl

/-- The literal of a locator call is reported ahead of whatever stands in it or behind it. -/
theorem ofLog?_literal (hq : IsQuote q) (bare : ∀ c ∈ pre, ¬IsQuote c)
    (call : "locator(".toList <:+ pre) (foreign : ¬"getBy".toList <:+: pre) {rest : List Char}
    (proper : Selector.isPageRoot (String.ofList s) = false) {log : String}
    (hlog : log.toList = pre ++ literalOf q s ++ ')' :: rest) :
    ofLog? log = some (String.ofList s) := by
  obtain ⟨tail, h⟩ := List.head?_eq_some_iff.mp (head?_all hq bare call foreign rest (s := s))
  rw [ofLog?, hlog, h]
  simp [proper]

end Reported

theorem name_prefix_of_isBuilderCall {c : String} (h : Selector.isBuilderCall c = true) :
    "getBy".toList <+: c.toList := by
  unfold Selector.isBuilderCall accepts at h
  split at h
  · next read => exact call_eq_some read
  · cases h

/-- A selector is read back from a log as it was written, whichever quote the log uses; and the call
that replaces a failing builder call fails under the very selector it was given. -/
theorem reports_what_was_written (s : String) (proper : Selector.isPageRoot s = false) :
    (∀ q ∈ ['\x27', '"'],
      ofLog? ("waiting for locator(" ++ String.ofList (literalOf q s.toList) ++ ")") = some s) ∧
    ∀ c, Selector.isBuilderCall c = true →
      ∃ text, Replacement.inText? c c s = some text ∧ ofLog? text = some s := by
  have root : Selector.isPageRoot (String.ofList s.toList) = false := by rwa [String.ofList_toList]
  constructor
  · intro q hq
    have text : ("waiting for locator(" ++ String.ofList (literalOf q s.toList) ++ ")").toList =
        "waiting for locator(".toList ++ literalOf q s.toList ++ [')'] := by simp
    have written := ofLog?_literal (by simpa [IsQuote] using hq) (by simp [IsQuote])
      ⟨"waiting for ".toList, by decide⟩ (by rw [← occursIn_iff]; decide) root text
    rwa [String.ofList_toList] at written
  · intro c hc
    have itself : occursIn c.toList c.toList = true := occursIn_iff.mpr List.infix_rfl
    have nonempty : c.toList ≠ [] := by
      obtain ⟨_, name⟩ := name_prefix_of_isBuilderCall hc
      exact name ▸ nofun
    refine ⟨String.ofList (Replacement.locatorCall s.toList), ?_, ?_⟩
    · simp [Replacement.inText?, hc, itself, replaceAll_self nonempty]
    · have text : (String.ofList (Replacement.locatorCall s.toList)).toList =
          "locator(".toList ++ literalOf '\x27' s.toList ++ [')'] := String.toList_ofList
      have written := ofLog?_literal (.inl rfl) (by simp [IsQuote]) List.suffix_rfl
        (by rw [← occursIn_iff]; decide) root text
      rwa [String.ofList_toList] at written

/-- A selector with both quotes, with backslashes before them, with a line break and with a call. -/
def crowdedSelector : String := "[title='\\'a\\\"\\\\\"'] >> locator('x') \n \\"

theorem reports_crowdedSelector :
    Selector.isPageRoot crowdedSelector = false ∧
      (∀ q ∈ ['\x27', '"'],
        ofLog? ("waiting for locator(" ++ String.ofList (literalOf q crowdedSelector.toList) ++ ")") =
          some crowdedSelector) ∧
      ∃ text, Replacement.inText? "getByText('Go')" "getByText('Go')" crowdedSelector = some text ∧
        ofLog? text = some crowdedSelector :=
  have proper : Selector.isPageRoot crowdedSelector = false := by decide +kernel
  have written := reports_what_was_written crowdedSelector proper
  ⟨proper, written.1, written.2 "getByText('Go')" (by decide +kernel)⟩

end FailingLocator
end TestRepair
