import TestRepair.Proofs.Locator.Proposing
import TestRepair.Proofs.Locator.Rebuilding

/-!
Which recorded actions match a selector exactly. The selector has to compare some attribute, and the
element has to have its tag and every value that it compares. A predicate that only asks for an
attribute plays no part.
-/

namespace TestRepair

open Text

namespace AttributeSelector

/-- A value as it is written, and without the flag that tells whether its case counts. -/
inductive Unflagged : (written bare : List Char) → Prop
  | flag {w : List Char} {f : Char} (hf : f ∈ ['i', 's']) : Unflagged (w ++ [' ', f]) w
  | plain {w : List Char} (h : ∀ f ∈ ['i', 's'], ¬[' ', f] <:+ w) : Unflagged w w

/-- A value with its quotes, if it has any, and the text that it stands for. -/
inductive StandsFor : (written value : List Char) → Prop
  | quoted {q : Char} {w : List Char} (hq : q ∈ ['\x27', '"']) :
      StandsFor (q :: (w ++ [q])) (replaceAll ['\\', q] [q] w)
  | plain {w : List Char} (h : ∀ q ∈ ['\x27', '"'], ∀ inner, w ≠ q :: (inner ++ [q])) : StandsFor w w

/-- A predicate that compares the attribute `name` with `value`, with signs in front of the equals
sign if the comparison is inexact. -/
inductive Compares (name value : List Char) : (predicate : List Char) → Prop
  | mk {left signs right bare : List Char} (first : '=' ∉ left)
      (hsigns : ∀ c ∈ signs, isComparison c = true)
      (hleft : ∀ c ∈ left.getLast?, isComparison c = false) (hname : trim left = name)
      (ne : name ≠ []) (hbare : Unflagged (trim right) bare) (hvalue : StandsFor (trim bare) value) :
      Compares name value (left ++ (signs ++ '=' :: right))

section Comparing

variable {w v bare : List Char}

theorem Unflagged.eq (h : Unflagged w v) :
    ((front? " i".toList w) <|> (front? " s".toList w)).getD w = v := by
  change ((front? [' ', 'i'] w) <|> (front? [' ', 's'] w)).getD w = v
  cases h with
  | @flag _ f hf =>
      have ends (g : Char) : front? [' ', g] (v ++ [' ', f]) = if g = f then some v else none := by
        split
        · next same => rw [front?_eq_some_iff, same]
        · next other =>
          rw [Option.eq_none_iff_forall_ne_some]
          intro u hu
          have split := front?_eq_some_iff.mp hu
          exact other (by simpa using (congrArg List.getLast? split).symm)
      simp only [List.mem_cons, List.not_mem_nil, or_false] at hf
      rcases hf with rfl | rfl
      · simp [ends]
      · simp [ends]
  | plain h =>
      have missing (f : Char) (hf : f ∈ ['i', 's']) : front? [' ', f] w = none := by
        rw [Option.eq_none_iff_forall_ne_some]
        exact fun u hu => h f hf ⟨u, (front?_eq_some_iff.mp hu).symm⟩
      simp [missing]

theorem exists_unflagged (w : List Char) : ∃ bare, Unflagged w bare := by
  by_cases h : ∃ f ∈ ['i', 's'], [' ', f] <:+ w
  · obtain ⟨f, hf, u, rfl⟩ := h
    exact ⟨u, .flag hf⟩
  · exact ⟨w, .plain fun f hf ends => h ⟨f, hf, ends⟩⟩

theorem between_eq_some_iff {q : Char} :
    (rest? [q] w).bind (front? [q]) = some v ↔ w = q :: (v ++ [q]) := by
  rw [Option.bind_eq_some_iff]
  constructor
  · rintro ⟨rest, hrest, hv⟩
    rw [rest?_eq_some_iff.mp hrest, front?_eq_some_iff.mp hv]
    rfl
  · rintro rfl
    exact ⟨v ++ [q], rest?_eq_some_iff.mpr rfl, front?_eq_some_iff.mpr rfl⟩

theorem between_eq_none {q : Char} (h : ∀ inner, w ≠ q :: (inner ++ [q])) :
    (rest? [q] w).bind (front? [q]) = none := by
  rw [Option.eq_none_iff_forall_ne_some]
  exact fun v hv => h v (between_eq_some_iff.mp hv)

theorem exists_standsFor (w : List Char) : ∃ v, StandsFor w v := by
  by_cases h : ∃ q ∈ ['\x27', '"'], ∃ inner, w = q :: (inner ++ [q])
  · obtain ⟨q, hq, inner, rfl⟩ := h
    exact ⟨_, .quoted hq⟩
  · exact ⟨w, .plain fun q hq inner e => h ⟨q, hq, inner, e⟩⟩

theorem unquote_of_standsFor (hbare : Unflagged w bare) (hv : StandsFor (trim bare) v) :
    unquote w = v := by
  simp only [unquote, hbare.eq]
  generalize trim bare = inked at hv
  cases hv with
  | @quoted q inner hq =>
      have found : (rest? [q] (q :: (inner ++ [q]))).bind (front? [q]) = some inner :=
        between_eq_some_iff.mpr rfl
      simp only [List.mem_cons, List.not_mem_nil, or_false] at hq
      rcases hq with rfl | rfl
      · simp [found]
      · have other : (rest? ['\x27'] ('"' :: (inner ++ ['"']))).bind (front? ['\x27']) = none :=
          between_eq_none fun _ => by simp
        simp [found, other]
  | plain h =>
      have single : (rest? ['\x27'] v).bind (front? ['\x27']) = none := between_eq_none (h _ (by simp))
      have double : (rest? ['"'] v).bind (front? ['"']) = none := between_eq_none (h _ (by simp))
      simp [single, double]

theorem unquote_eq_iff :
    unquote w = v ↔ ∃ bare, Unflagged w bare ∧ StandsFor (trim bare) v := by
  constructor
  · rintro rfl
    obtain ⟨bare, hbare⟩ := exists_unflagged w
    obtain ⟨v, hv⟩ := exists_standsFor (trim bare)
    exact ⟨bare, hbare, unquote_of_standsFor hbare hv ▸ hv⟩
  · rintro ⟨bare, hbare, hv⟩
    exact unquote_of_standsFor hbare hv

theorem rdropWhile_signs {left signs : List Char} (hsigns : ∀ c ∈ signs, isComparison c = true)
    (hleft : ∀ c ∈ left.getLast?, isComparison c = false) :
    (left ++ signs).rdropWhile isComparison = left := by
  have ends : Ends isComparison signs.reverse left.reverse := by
    refine ⟨fun c hc => hsigns c (List.mem_reverse.mp hc), ?_⟩
    rwa [List.head?_reverse]
  rw [List.rdropWhile, List.reverse_append, ends.takeWhile.2, List.reverse_reverse]

theorem exists_signs (s : List Char) : ∃ left signs, s = left ++ signs ∧
    (∀ c ∈ signs, isComparison c = true) ∧ ∀ c ∈ left.getLast?, isComparison c = false := by
  refine ⟨s.rdropWhile isComparison, s.rtakeWhile isComparison,
    List.rdropWhile_append_rtakeWhile.symm, fun c => List.mem_rtakeWhile_imp, ?_⟩
  intro c hc
  rw [List.rdropWhile, List.getLast?_reverse] at hc
  have stop := List.head?_dropWhile_not isComparison s.reverse
  rw [Option.mem_def.mp hc] at stop
  simpa using stop

/-- How a predicate is taken apart at its first equals sign. -/
theorem comparison?_split {p : String} {left signs right : List Char}
    (split : p.toList = left ++ (signs ++ '=' :: right)) (first : '=' ∉ left)
    (hsigns : ∀ c ∈ signs, isComparison c = true)
    (hleft : ∀ c ∈ left.getLast?, isComparison c = false) :
    comparison? p = if trim left = [] then none
      else some (String.ofList (trim left), String.ofList (unquote (trim right))) := by
  have parts : splitFirst? '=' p.toList = some (left ++ signs, right) := by
    rw [splitFirst?_eq_some_iff, split, List.append_assoc, List.mem_append, not_or]
    exact ⟨rfl, first, fun inside => absurd (hsigns _ inside) (by decide)⟩
  have name : ((left ++ signs).reverse.dropWhile isComparison).reverse = left :=
    rdropWhile_signs hsigns hleft
  simp only [comparison?, parts, name, Option.bind_eq_bind, Option.bind_some, List.isEmpty_iff]
  rfl

theorem comparison?_eq_some_iff {p name value : String} : comparison? p = some (name, value) ↔
    Compares name.toList value.toList p.toList := by
  constructor
  · intro h
    obtain ⟨⟨front, right⟩, parts, -⟩ := Option.bind_eq_some_iff.mp h
    obtain ⟨split, first⟩ := splitFirst?_eq_some_iff.mp parts
    obtain ⟨left, signs, rfl, hsigns, hleft⟩ := exists_signs front
    rw [List.append_assoc] at split
    rw [List.mem_append, not_or] at first
    rw [comparison?_split split first.1 hsigns hleft, Option.ite_none_left_eq_some] at h
    obtain ⟨ne, e⟩ := h
    cases e
    obtain ⟨bare, hbare, hvalue⟩ := unquote_eq_iff.mp rfl
    rw [split, String.toList_ofList, String.toList_ofList]
    exact ⟨first.1, hsigns, hleft, rfl, ne, hbare, hvalue⟩
  · intro h
    generalize split : p.toList = s at h
    obtain @⟨left, signs, right, bare, first, hsigns, hleft, hname, ne, hbare, hvalue⟩ := h
    rw [comparison?_split split first hsigns hleft, hname, if_neg ne,
      unquote_of_standsFor hbare hvalue, String.ofList_toList, String.ofList_toList]

end Comparing

/-- A character of a tag. -/
def isTagChar (c : Char) : Bool := c.isAlphanum || c == '-'

/-- The tag that a base names: as far as its letters, digits and hyphens go, with a letter in front
and no equals sign behind. -/
structure NamesTag (base tag : List Char) : Prop where
  letter : ∃ x xs, tag = x :: xs ∧ x.isAlpha = true
  ends : ∃ rest, base = tag ++ rest ∧ Ends isTagChar tag rest ∧ rest.head? ≠ some '='

theorem isTagChar_of_isBlank {c : Char} (h : isBlank c = true) : isTagChar c = false := by
  rw [isTagChar, Bool.or_eq_false_iff]
  refine ⟨Bool.eq_false_iff.mpr fun letter => ?_, beq_eq_false_iff_ne.mpr ?_⟩
  · rw [isBlank_of_isAlphanum letter] at h
    cases h
  · rintro rfl
    cases h

section Tags

variable {failing : String} {s : AttributeSelector} {base rest tag : List Char}

/-- A tag is not changed by what follows, if a tag cannot go on with it. -/
theorem namesTag_append_iff (hrest : ∀ c ∈ rest.head?, isTagChar c = false ∧ c ≠ '=') :
    NamesTag (base ++ rest) tag ↔ NamesTag base tag := by
  constructor
  · rintro ⟨letter, behind, split, ends, sign⟩
    have place : ∃ u, base = tag ++ u ∧ behind = u ++ rest := by
      rcases List.append_eq_append_iff.mp split.symm with ⟨u, hu, hr⟩ | ⟨u, hu, hr⟩
      · exact ⟨u, hu, hr⟩
      · cases u with
        | nil => exact ⟨[], by simpa using hu.symm, by simpa using hr.symm⟩
        | cons c u =>
            have other := (hrest c (by rw [hr]; rfl)).1
            rw [ends.all c (by simp [hu])] at other
            cases other
    obtain ⟨u, rfl, rfl⟩ := place
    refine ⟨letter, u, rfl, ⟨ends.all, fun c hc => ends.stop c ?_⟩, fun h => sign ?_⟩
    · rw [List.head?_append, Option.mem_def.mp hc]
      rfl
    · rw [List.head?_append, h]
      rfl
  · rintro ⟨letter, behind, rfl, ends, sign⟩
    refine ⟨letter, behind ++ rest, List.append_assoc .., ⟨ends.all, fun c hc => ?_⟩, fun h => ?_⟩
    · rw [List.head?_append, Option.mem_def, Option.or_eq_some_iff] at hc
      exact hc.elim (ends.stop c) fun next => (hrest c next.2).1
    · rw [List.head?_append, Option.or_eq_some_iff] at h
      exact h.elim sign fun next => (hrest '=' next.2).2 rfl

theorem tag?_eq_some_iff_trim {name : String} : Selector.tag? failing = some name ↔
    ∃ tag, NamesTag (trim failing.toList) tag ∧ name = String.ofList (asciiLower tag) := by
  have read : Selector.tag? failing =
      if !((trim failing.toList).takeWhile isTagChar).head?.any Char.isAlpha ||
        ((trim failing.toList).dropWhile isTagChar).head? == some '=' then none
      else some (String.ofList (asciiLower ((trim failing.toList).takeWhile isTagChar))) := rfl
  generalize trim failing.toList = text at read ⊢
  have letter : (text.takeWhile isTagChar).head?.any Char.isAlpha = true ↔
      ∃ x xs, text.takeWhile isTagChar = x :: xs ∧ x.isAlpha = true := by
    cases text.takeWhile isTagChar <;> simp
  rw [read, Option.ite_none_left_eq_some, Option.some.injEq]
  simp only [Bool.or_eq_true, Bool.not_eq_true', beq_iff_eq, not_or, Bool.not_eq_false, letter]
  constructor
  · rintro ⟨⟨start, sign⟩, rfl⟩
    exact ⟨_, ⟨start, _, List.takeWhile_append_dropWhile.symm, ends_takeWhile isTagChar text, sign⟩, rfl⟩
  · rintro ⟨tag, ⟨start, behind, rfl, ends, sign⟩, rfl⟩
    rw [ends.takeWhile.1, ends.takeWhile.2]
    exact ⟨⟨start, sign⟩, rfl⟩

/-- The tag of a selector with predicates is the one that its base names. -/
theorem tag?_eq_some_iff (read : ofText? failing = some s) {name : String} :
    Selector.tag? failing = some name ↔
      ∃ tag, NamesTag s.base.toList tag ∧ name = String.ofList (asciiLower tag) := by
  obtain ⟨front, bodies, parts, split, -, base⟩ := exists_readFrom read
  obtain ⟨b, bodies, rfl⟩ := List.exists_cons_of_ne_nil parts.nonempty
  obtain ⟨blanks, w, around, hblanks, hw⟩ := trim_append front
  have start : blanks = [] := by
    cases blanks with
    | nil => rfl
    | cons c blanks =>
        have ink : isBlank c = false := head?_trim (s := failing.toList) c (by rw [split, around]; rfl)
        rw [hblanks c List.mem_cons_self] at ink
        cases ink
  have whole : trim failing.toList = s.base.toList ++ (w ++ bracketed (b :: bodies)) := by
    rw [start, List.nil_append] at around
    rw [split, base, String.toList_ofList, ← List.append_assoc, ← around]
  have stop : ∀ c ∈ (w ++ bracketed (b :: bodies)).head?, isTagChar c = false ∧ c ≠ '=' := by
    intro c hc
    cases w with
    | nil =>
        cases hc
        decide
    | cons x w =>
        obtain rfl : x = c := by simpa using hc
        have blank : isBlank x = true := hw x List.mem_cons_self
        refine ⟨isTagChar_of_isBlank blank, ?_⟩
        rintro rfl
        cases blank
  simp only [tag?_eq_some_iff_trim, whole, namesTag_append_iff stop]

end Tags

end AttributeSelector

namespace ActionMatch

open AttributeSelector

section

variable {failing : String} {actions : List RecordedAction} {i : Nat} {a : RecordedAction}
  {s : AttributeSelector}

theorem exists_exact_iff_isExact (ha : actions[i]? = some a) :
    (∃ m ∈ all failing actions, m.index = i ∧ m.exact = true) ↔
      (Target.ofSelector failing).isExact a = true := by
  constructor
  · rintro ⟨m, hm, rfl, exact⟩
    obtain ⟨found, weak, split, hfound, hweak, -, -⟩ := all_split failing actions
    rw [split, List.mem_append] at hm
    cases hm with
    | inl hm =>
        obtain ⟨action, -, agrees⟩ := hfound m hm
        rw [ha] at action
        cases action
        exact agrees
    | inr hm =>
        rw [(hweak m hm).2.1] at exact
        cases exact
  · intro exact
    refine ⟨⟨i, a, 1, "same tag and attributes", true⟩, ?_, rfl, rfl⟩
    refine List.mem_append_left _ (List.mem_filterMap.mpr ⟨(a, i), ?_, if_pos exact⟩)
    exact List.mem_zipIdx_iff_getElem?.mpr ha

theorem agrees_iff (read : ofText? failing = some s) :
    (Target.ofSelector failing).agrees a = true ↔
      (∃ p ∈ s.predicates, ∃ name value : String, Compares name.toList value.toList p.toList) ∧
      ∀ p ∈ s.predicates, ∀ name value : String, Compares name.toList value.toList p.toList →
        a.attributes.get? (String.ofList (asciiLower name.toList)) = some value := by
  have comparisons : (Target.ofSelector failing).comparisons = s.predicates.filterMap comparison? := by
    simp [Target.ofSelector, read, AttributeSelector.comparisons]
  simp only [Target.agrees, comparisons, Bool.and_eq_true]
  have member (e : String × String) : e ∈ s.predicates.filterMap comparison? ↔
      ∃ p ∈ s.predicates, Compares e.1.toList e.2.toList p.toList := by
    simp only [List.mem_filterMap, ← comparison?_eq_some_iff]
  refine and_congr ?_ ?_
  · rw [Bool.not_eq_true', List.isEmpty_eq_false_iff_exists_mem]
    constructor
    · rintro ⟨e, he⟩
      obtain ⟨p, hp, compares⟩ := (member e).mp he
      exact ⟨p, hp, e.1, e.2, compares⟩
    · rintro ⟨p, hp, name, value, compares⟩
      exact ⟨(name, value), (member (name, value)).mpr ⟨p, hp, compares⟩⟩
  · rw [List.all_eq_true]
    constructor
    · intro h p hp name value compares
      exact beq_iff_eq.mp (h (name, value) ((member (name, value)).mpr ⟨p, hp, compares⟩))
    · intro h e he
      obtain ⟨p, hp, compares⟩ := (member e).mp he
      exact beq_iff_eq.mpr (h p hp e.1 e.2 compares)

/-- A match of an action that a selector was not recorded for is exact just if the selector compares
an attribute, and the element has its tag and all the values that it compares. -/
theorem exact_match_iff (read : ofText? failing = some s) (ha : actions[i]? = some a)
    (unrecorded : a.selectors.contains failing = false) :
    (∃ m ∈ all failing actions, m.index = i ∧ m.exact = true) ↔
      (∀ tag, NamesTag s.base.toList tag → a.tag = String.ofList (asciiLower tag)) ∧
      (∃ p ∈ s.predicates, ∃ name value : String, Compares name.toList value.toList p.toList) ∧
      ∀ p ∈ s.predicates, ∀ name value : String, Compares name.toList value.toList p.toList →
        a.attributes.get? (String.ofList (asciiLower name.toList)) = some value := by
  rw [exists_exact_iff_isExact ha, Target.isExact, Bool.and_eq_true]
  have selector : (Target.ofSelector failing).selector = failing := rfl
  rw [selector, unrecorded, Bool.or_false, agrees_iff read]
  refine and_congr ?_ Iff.rfl
  have named {tag : String} : (Target.ofSelector failing).tag = some tag ↔
      ∃ t, NamesTag s.base.toList t ∧ tag = String.ofList (asciiLower t) := tag?_eq_some_iff read
  rw [Option.all_eq_true]
  constructor
  · intro h tag hn
    exact (beq_iff_eq.mp (h _ (named.mpr ⟨tag, hn, rfl⟩))).symm
  · intro h tag htag
    obtain ⟨t, hn, rfl⟩ := named.mp htag
    exact beq_iff_eq.mpr (h t hn).symm

/-- A click on a link that has a type and leads nowhere. -/
def idleLink : RecordedAction where
  kind := .click
  element := { tag := "a", attributes := .ofList [("type", "submit")] }

theorem exact_match_iff_idleLink :
    (∃ m ∈ all "a[type='submit'][href]" [idleLink], m.index = 0 ∧ m.exact = true) ∧
      idleLink.attributes.get? "href" = none := by
  have body {b : List Char} (h : predicate? none (b ++ [']']) = some (b, [])) : Body none b :=
    (predicate?_eq_some_iff.mp h).1
  have base : IsBase "a".toList := ⟨by decide, List.forall_mem_singleton.mpr rfl⟩
  have text : "a[type='submit'][href]".toList =
      "a".toList ++ bracketed ["type='submit'".toList, "href".toList] := rfl
  have read : ofText? "a[type='submit'][href]" = some ⟨"a", ["type='submit'", "href"]⟩ :=
    ofText?_bracketed base (by simp) (by simpa using ⟨body (by decide), body (by decide)⟩) text
  have typed : comparison? "type='submit'" = some ("type", "submit") := by decide
  have present : comparison? "href" = none := by decide
  refine ⟨(exact_match_iff read rfl (by decide)).mpr ⟨?_, ?_, ?_⟩, by decide⟩
  · rintro tag ⟨⟨x, xs, rfl, -⟩, rest, split, -⟩
    obtain ⟨rfl, nothing⟩ := List.cons.inj split
    obtain ⟨rfl, -⟩ := List.append_eq_nil_iff.mp nothing.symm
    decide
  · exact ⟨"type='submit'", by simp, "type", "submit", comparison?_eq_some_iff.mp typed⟩
  · intro p hp name value compares
    rw [← comparison?_eq_some_iff] at compares
    simp only [List.mem_cons, List.not_mem_nil, or_false] at hp
    rcases hp with rfl | rfl
    · rw [typed] at compares
      cases compares
      decide
    · rw [present] at compares
      cases compares

end

end ActionMatch

end TestRepair
