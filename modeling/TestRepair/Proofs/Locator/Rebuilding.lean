import TestRepair.Locator.Proposal
import TestRepair.Proofs.Script.Endings
import TestRepair.Proofs.Text.Trimming

/-!
Selectors with predicates, taken apart and put together again. The bracket that closes a predicate is
found before outer blanks are taken off. So a blank behind a backslash is lost and leaves the
backslash alone: between brackets again, it hides the closing one. All other predicates are read back.
-/

namespace TestRepair
namespace AttributeSelector

open Text

/-- What can stand in front of a closing bracket, from a place on where `quote` is open. -/
inductive Body : (quote : Option Char) → List Char → Prop
  | done : Body none []
  | escaped {quote : Option Char} {c : Char} {s : List Char} (h : Body quote s) :
      Body quote ('\\' :: c :: s)
  | opened {q : Char} {s : List Char} (hq : q ∈ ['\x27', '"']) (h : Body (some q) s) :
      Body none (q :: s)
  | closed {q : Char} {s : List Char} (hq : q ≠ '\\') (h : Body none s) : Body (some q) (q :: s)
  | quoted {q c : Char} {s : List Char} (hc : c ≠ '\\') (hq : c ≠ q) (h : Body (some q) s) :
      Body (some q) (c :: s)
  | plain {c : Char} {s : List Char} (hc : c ∉ ['\\', '\x27', '"', ']']) (h : Body none s) :
      Body none (c :: s)

/-- Whether a text ends in a backslash that no backslash escapes. -/
def endsInEscape : List Char → Bool
  | [] => false
  | [c] => c == '\\'
  | c :: d :: s => if c = '\\' then endsInEscape s else endsInEscape (d :: s)

section Scan

variable {quote : Option Char} {q c : Char} {s body rest : List Char}

theorem predicate?_escaped (quote : Option Char) (c : Char) (s : List Char) :
    predicate? quote ('\\' :: c :: s) =
      (predicate? quote s).map fun (body, rest) => ('\\' :: c :: body, rest) := rfl

theorem predicate?_bracket (s : List Char) : predicate? none (']' :: s) = some ([], s) := by
  cases s <;> rfl

theorem predicate?_quoted (hc : c ≠ '\\') (q : Char) (s : List Char) : predicate? (some q) (c :: s) =
    (predicate? (if c = q then none else some q) s).map fun (body, rest) => (c :: body, rest) := by
  cases s with
  | nil => simp [predicate?]
  | cons d s => simp [predicate?, hc]

theorem predicate?_plain (hc : c ≠ '\\') (hb : c ≠ ']') (s : List Char) : predicate? none (c :: s) =
    (predicate? (if c ∈ ['\x27', '"'] then some c else none) s).map
      fun (body, rest) => (c :: body, rest) := by
  cases s with
  | nil => simp [predicate?, hb]
  | cons d s => simp [predicate?, hc, hb]

theorem body_of_predicate? (h : predicate? quote s = some (body, rest)) :
    Body quote body ∧ s = body ++ ']' :: rest := by
  fun_induction predicate? quote s generalizing body rest with
  | case1 => cases h
  | case2 quote c closes =>
      obtain ⟨rfl, rfl⟩ := closes
      cases h
      exact ⟨.done, rfl⟩
  | case3 => cases h
  | case4 quote d s ih =>
      obtain ⟨⟨b, r⟩, read, e⟩ := Option.map_eq_some_iff.mp h
      cases e
      obtain ⟨hb, rfl⟩ := ih read
      exact ⟨.escaped hb, rfl⟩
  | case5 c d s escape q ih =>
      obtain ⟨⟨b, r⟩, read, e⟩ := Option.map_eq_some_iff.mp h
      cases e
      obtain ⟨hb, split⟩ := ih read
      rw [split]
      by_cases same : c = q
      · subst same
        rw [if_pos rfl] at hb
        exact ⟨.closed escape hb, rfl⟩
      · rw [if_neg same] at hb
        exact ⟨.quoted escape same hb, rfl⟩
  | case6 d s =>
      cases h
      exact ⟨.done, rfl⟩
  | case7 c d s escape bracket ih =>
      obtain ⟨⟨b, r⟩, read, e⟩ := Option.map_eq_some_iff.mp h
      cases e
      obtain ⟨hb, split⟩ := ih read
      rw [split]
      by_cases opens : c = '\x27' ∨ c = '"'
      · rw [if_pos opens] at hb
        exact ⟨.opened (by simpa using opens) hb, rfl⟩
      · rw [if_neg opens] at hb
        rw [not_or] at opens
        exact ⟨.plain (by simp [escape, bracket, opens]) hb, rfl⟩

theorem predicate?_of_body (h : Body quote body) (rest : List Char) :
    predicate? quote (body ++ ']' :: rest) = some (body, rest) := by
  induction h with
  | done => exact predicate?_bracket rest
  | escaped _ ih => rw [List.cons_append, List.cons_append, predicate?_escaped, ih, Option.map_some]
  | @opened q s hq _ ih =>
      have escape : q ≠ '\\' := by rintro rfl; simp at hq
      have bracket : q ≠ ']' := by rintro rfl; simp at hq
      rw [List.cons_append, predicate?_plain escape bracket, if_pos hq, ih, Option.map_some]
  | closed hq _ ih => rw [List.cons_append, predicate?_quoted hq, if_pos rfl, ih, Option.map_some]
  | quoted hc hq _ ih => rw [List.cons_append, predicate?_quoted hc, if_neg hq, ih, Option.map_some]
  | @plain c s hc _ ih =>
      simp only [List.mem_cons, List.not_mem_nil, or_false, not_or] at hc
      obtain ⟨escape, single, double, bracket⟩ := hc
      have opens : c ∉ ['\x27', '"'] := by simp [single, double]
      rw [List.cons_append, predicate?_plain escape bracket, if_neg opens, ih, Option.map_some]

/-- A predicate reaches to the first bracket that nothing hides. -/
theorem predicate?_eq_some_iff :
    predicate? quote s = some (body, rest) ↔ Body quote body ∧ s = body ++ ']' :: rest := by
  constructor
  · exact body_of_predicate?
  · rintro ⟨h, rfl⟩
    exact predicate?_of_body h rest

end Scan

section Escapes

variable {quote : Option Char} {c : Char} {s w : List Char}

theorem endsInEscape_cons (hc : c ≠ '\\') (s : List Char) :
    endsInEscape (c :: s) = endsInEscape s := by
  cases s <;> simp [endsInEscape, hc]

theorem endsInEscape_concat (hc : c ≠ '\\') (s : List Char) : endsInEscape (s ++ [c]) = false := by
  induction s using endsInEscape.induct with
  | case1 => simp [endsInEscape, hc]
  | case2 d => by_cases escape : d = '\\' <;> simp [endsInEscape, escape, hc]
  | case3 d s ih => exact ih
  | case4 d e s escape ih => rwa [List.cons_append, endsInEscape_cons escape]

theorem Body.endsInEscape_eq_false (h : Body quote s) : endsInEscape s = false := by
  induction h with
  | done => rfl
  | escaped _ ih => exact ih
  | opened hq _ ih => rwa [endsInEscape_cons (by rintro rfl; simp at hq)]
  | closed hq _ ih => rwa [endsInEscape_cons hq]
  | quoted hc _ _ ih => rwa [endsInEscape_cons hc]
  | plain hc _ ih => rwa [endsInEscape_cons (by rintro rfl; simp at hc)]

/-- A blank at the end can be left out, but behind a backslash. -/
theorem Body.of_concat (h : Body quote (s ++ [c])) (hc : isBlank c = true)
    (hs : endsInEscape s = false) (hq : ∀ q ∈ quote, isBlank q = false) : Body quote s := by
  generalize split : s ++ [c] = t at h
  induction h generalizing s with
  | done => simp at split
  | @escaped quote d t h ih =>
      match s with
      | [] => simp at split
      | [x] =>
          obtain rfl : x = '\\' := (List.cons.inj split).1
          cases hs
      | x :: y :: s =>
          simp only [List.cons_append, List.cons.injEq] at split
          obtain ⟨rfl, rfl, rest⟩ := split
          exact .escaped (ih hs hq rest)
  | @opened q t hopen h ih =>
      have ink : isBlank q = false := by
        simp only [List.mem_cons, List.not_mem_nil, or_false] at hopen
        rcases hopen with rfl | rfl <;> rfl
      cases s with
      | nil =>
          obtain rfl : c = q := (List.cons.inj split).1
          rw [ink] at hc
          cases hc
      | cons x s =>
          obtain ⟨rfl, rest⟩ := List.cons.inj split
          rw [endsInEscape_cons (by rintro rfl; simp at hopen)] at hs
          refine .opened hopen (ih hs ?_ rest)
          rintro _ ⟨⟩
          exact ink
  | @closed q t hq' h ih =>
      cases s with
      | nil =>
          obtain rfl : c = q := (List.cons.inj split).1
          rw [hq c rfl] at hc
          cases hc
      | cons x s =>
          obtain ⟨rfl, rest⟩ := List.cons.inj split
          rw [endsInEscape_cons hq'] at hs
          exact .closed hq' (ih hs nofun rest)
  | @quoted q d t hd hq' h ih =>
      cases s with
      | nil =>
          obtain rfl : [] = t := (List.cons.inj split).2
          cases h
      | cons x s =>
          obtain ⟨rfl, rest⟩ := List.cons.inj split
          rw [endsInEscape_cons hd] at hs
          exact .quoted hd hq' (ih hs hq rest)
  | @plain d t hd h ih =>
      cases s with
      | nil => exact .done
      | cons x s =>
          obtain ⟨rfl, rest⟩ := List.cons.inj split
          rw [endsInEscape_cons (by rintro rfl; simp at hd)] at hs
          exact .plain hd (ih hs nofun rest)

theorem Body.of_append_blank (h : Body none (s ++ w)) (hw : Blank w)
    (hs : endsInEscape s = false) : Body none s := by
  induction w using List.reverseRecOn with
  | nil => simpa using h
  | append_singleton w c ih =>
      obtain ⟨hw, hc⟩ := blank_append.mp hw
      have blank : isBlank c = true := hc c List.mem_cons_self
      have whole : endsInEscape (s ++ w) = false := by
        cases w using List.reverseRecOn with
        | nil => simpa using hs
        | append_singleton w d =>
            have last : isBlank d = true := hw d (by simp)
            rw [← List.append_assoc]
            exact endsInEscape_concat (by rintro rfl; cases last) _
      rw [← List.append_assoc] at h
      exact ih (h.of_concat blank whole nofun) hw

theorem Body.of_blank_append (h : Body none (w ++ s)) (hw : Blank w) : Body none s := by
  induction w with
  | nil => exact h
  | cons c w ih =>
      obtain ⟨hc, hw⟩ := List.forall_mem_cons.mp hw
      rw [List.cons_append] at h
      generalize w ++ s = t at h ih
      cases h with
      | escaped => cases hc
      | opened hq =>
          simp only [List.mem_cons, List.not_mem_nil, or_false] at hq
          rcases hq with rfl | rfl <;> cases hc
      | plain _ h => exact ih h hw

/-- Without its outer blanks a predicate stays one just if it does not end in an escape then. -/
theorem Body.trim_iff (h : Body none s) : Body none (trim s) ↔ endsInEscape (trim s) = false := by
  obtain ⟨b, w, split, hb, hw⟩ := trim_append s
  rw [split] at h
  exact ⟨Body.endsInEscape_eq_false, (h.of_blank_append hb).of_append_blank hw⟩

end Escapes

section Brackets

variable {s : List Char} {ps : List String} {bodies : List (List Char)}

/-- Predicates between brackets, one behind the other. -/
def bracketed (bodies : List (List Char)) : List Char :=
  bodies.flatMap fun b => '[' :: (b ++ [']'])

theorem bracketed_cons (b : List Char) (bodies : List (List Char)) :
    bracketed (b :: bodies) = '[' :: (b ++ ']' :: bracketed bodies) := by simp [bracketed]

theorem predicates?_bracket (s : List Char) : predicates? ('[' :: s) =
    (predicate? none s).bind fun (body, rest) =>
      (predicates? rest).map (String.ofList (trim body) :: ·) := by
  rw [predicates?, if_pos rfl]
  split <;> simp [*]

theorem bracketed_of_predicates? (h : predicates? s = some ps) : ∃ bodies,
    (∀ b ∈ bodies, Body none b) ∧ s = bracketed bodies ∧
      ps = (bodies.map trim).map String.ofList := by
  fun_induction predicates? s generalizing ps with
  | case1 =>
      cases h
      exact ⟨[], List.forall_mem_nil _, rfl, rfl⟩
  | case2 => cases h
  | case3 s body rest read ih =>
      obtain ⟨ps, more, rfl⟩ := Option.map_eq_some_iff.mp h
      obtain ⟨hb, rfl⟩ := predicate?_eq_some_iff.mp read
      obtain ⟨bodies, all, rfl, rfl⟩ := ih more
      exact ⟨body :: bodies, List.forall_mem_cons.mpr ⟨hb, all⟩, (bracketed_cons ..).symm, rfl⟩
  | case4 => cases h

theorem predicates?_bracketed (h : ∀ b ∈ bodies, Body none b) :
    predicates? (bracketed bodies) = some ((bodies.map trim).map String.ofList) := by
  induction bodies with
  | nil => rw [bracketed, List.flatMap_nil, predicates?, List.map_nil, List.map_nil]
  | cons b bodies ih =>
      obtain ⟨hb, h⟩ := List.forall_mem_cons.mp h
      simp only [bracketed_cons, predicates?_bracket, predicate?_of_body hb, Option.bind_some, ih h,
        Option.map_some, List.map_cons]

theorem length_trim_le (s : List Char) : (trim s).length ≤ s.length := by
  obtain ⟨b, w, split, -, -⟩ := trim_append s
  have := congrArg List.length split
  simp only [List.length_append] at this
  omega

theorem trim_eq_of_length {s : List Char} (h : (trim s).length = s.length) : trim s = s := by
  obtain ⟨b, w, split, -, -⟩ := trim_append s
  have := congrArg List.length split
  simp only [List.length_append] at this
  have hb : b = [] := List.length_eq_zero_iff.mp (by omega)
  have hw : w = [] := List.length_eq_zero_iff.mp (by omega)
  rw [hb, hw, List.nil_append, List.append_nil] at split
  exact split.symm

theorem length_bracketed_le (bodies : List (List Char)) :
    (bracketed (bodies.map trim)).length ≤ (bracketed bodies).length := by
  induction bodies with
  | nil => exact le_rfl
  | cons b bodies ih =>
      have := length_trim_le b
      simp only [List.map_cons, bracketed_cons, List.length_cons, List.length_append]
      omega

/-- Nothing is taken off from predicates that fill the same brackets without their outer blanks. -/
theorem map_trim_of_length (h : (bracketed (bodies.map trim)).length = (bracketed bodies).length) :
    bodies.map trim = bodies := by
  induction bodies with
  | nil => rfl
  | cons b bodies ih =>
      have front := length_trim_le b
      have back := length_bracketed_le bodies
      simp only [List.map_cons, bracketed_cons, List.length_cons, List.length_append] at h
      rw [List.map_cons, trim_eq_of_length (by omega), ih (by omega)]

end Brackets

section Selectors

variable {selector : String} {s : AttributeSelector} {bodies : List (List Char)}

/-- A base that can stand in front of predicates. -/
structure IsBase (base : List Char) : Prop where
  bracket : '[' ∉ base
  simple : ∀ c ∈ base, isCombinator c = false

theorem IsBase.solid {base : List Char} (h : IsBase base) : Solid base := by
  intro c hc
  have := h.simple c hc
  simp only [isCombinator, Bool.or_eq_false_iff] at this
  exact this.1.1.1

theorem trim_bracketed {base : List Char} (h : IsBase base) (ne : bodies ≠ []) :
    trim (base ++ bracketed bodies) = base ++ bracketed bodies := by
  have front : trimStart (base ++ bracketed bodies) = base ++ bracketed bodies := by
    obtain ⟨b, bodies, rfl⟩ := List.exists_cons_of_ne_nil ne
    cases base with
    | nil => rfl
    | cons c base =>
        have ink : isBlank c = false := h.solid c List.mem_cons_self
        simp [trimStart, ink]
  obtain ⟨bodies, b, rfl⟩ := (List.eq_nil_or_concat' bodies).resolve_left ne
  have back : base ++ bracketed (bodies ++ [b]) = (base ++ bracketed bodies ++ '[' :: b) ++ [']'] := by
    simp [bracketed]
  rw [trim, front, back]
  exact trimEnd_append_of_getLast? rfl rfl

/-- How a selector reads: the predicates lose their outer blanks. -/
theorem ofText?_bracketed {base : List Char} (hbase : IsBase base) (ne : bodies ≠ [])
    (h : ∀ b ∈ bodies, Body none b) (text : selector.toList = base ++ bracketed bodies) :
    ofText? selector = some ⟨String.ofList base, (bodies.map trim).map String.ofList⟩ := by
  obtain ⟨b, bodies, rfl⟩ := List.exists_cons_of_ne_nil ne
  have split : splitFirst? '[' (trim selector.toList) =
      some (base, b ++ ']' :: bracketed bodies) := by
    rw [text, trim_bracketed hbase ne, splitFirst?_eq_some_iff, bracketed_cons]
    exact ⟨rfl, hbase.bracket⟩
  have simple : base.any isCombinator = false := by
    rw [List.any_eq_false]
    intro c hc
    simp [hbase.simple c hc]
  simp only [ofText?, split, Option.bind_eq_bind, Option.bind_some, hbase.solid.trim_eq, simple,
    Bool.false_eq_true, if_false, ← bracketed_cons, predicates?_bracketed h]
  rfl

/-- What is sure of a selector that was read, with these texts between its brackets. -/
structure ReadFrom (bodies : List (List Char)) (s : AttributeSelector) : Prop where
  base : IsBase s.base.toList
  nonempty : bodies ≠ []
  body : ∀ b ∈ bodies, Body none b
  predicates : s.predicates = (bodies.map trim).map String.ofList

theorem exists_readFrom (h : ofText? selector = some s) : ∃ front bodies, ReadFrom bodies s ∧
    trim selector.toList = front ++ bracketed bodies ∧ '[' ∉ front ∧
      s.base = String.ofList (trim front) := by
  simp only [ofText?, Option.bind_eq_bind, Option.bind_eq_some_iff] at h
  obtain ⟨⟨front, rest⟩, split, h⟩ := h
  split at h
  · cases h
  · next simple =>
    obtain ⟨ps, read, h⟩ := Option.bind_eq_some_iff.mp h
    cases h
    obtain ⟨whole, bracket⟩ := splitFirst?_eq_some_iff.mp split
    obtain ⟨bodies, all, text, rfl⟩ := bracketed_of_predicates? read
    obtain ⟨b, w, around, -, -⟩ := trim_append front
    refine ⟨front, bodies, ⟨⟨?_, ?_⟩, ?_, all, rfl⟩, by rw [whole, text], bracket, rfl⟩
    · rw [String.toList_ofList]
      intro inside
      rw [around] at bracket
      exact bracket (List.mem_append_right b (List.mem_append_left w inside))
    · rw [String.toList_ofList]
      intro c hc
      by_contra combinator
      exact simple (List.any_eq_true.mpr ⟨c, hc, by simpa using combinator⟩)
    · rintro rfl
      cases text

theorem toList_text (s : AttributeSelector) :
    s.text.toList = s.base.toList ++ bracketed (s.predicates.map String.toList) := by
  have parts (ps : List String) : (String.join (ps.map fun p => "[" ++ p ++ "]")).toList =
      bracketed (ps.map String.toList) := by
    induction ps with
    | nil => rfl
    | cons p ps ih => simp [bracketed_cons, String.join_cons, ih]
  rw [text, String.toList_append, parts]

theorem ReadFrom.map_predicates (h : ReadFrom bodies s) :
    s.predicates.map String.toList = bodies.map trim := by
  have id : String.toList ∘ String.ofList = id := funext fun _ => String.toList_ofList
  rw [h.predicates, List.map_map, id, List.map_id]

theorem ReadFrom.toList_text (h : ReadFrom bodies s) :
    s.text.toList = s.base.toList ++ bracketed (bodies.map trim) := by
  rw [AttributeSelector.toList_text, h.map_predicates]

theorem ReadFrom.body_trim_iff (h : ReadFrom bodies s) : (∀ b ∈ bodies.map trim, Body none b) ↔
    ∀ p ∈ s.predicates, endsInEscape p.toList = false := by
  simp only [h.predicates, List.forall_mem_map, String.toList_ofList]
  exact forall₂_congr fun b hb => (h.body b hb).trim_iff

/-- A selector is read back from its parts just if none of its predicates ends in an escape. -/
theorem ReadFrom.ofText?_text_iff (h : ReadFrom bodies s) :
    ofText? s.text = some s ↔ ∀ p ∈ s.predicates, endsInEscape p.toList = false := by
  have ne : bodies.map trim ≠ [] := fun e => h.nonempty (List.map_eq_nil_iff.mp e)
  rw [← h.body_trim_iff]
  constructor
  · intro back
    obtain ⟨front, filled, h', split, bracket, -⟩ := exists_readFrom back
    have same : filled.map trim = bodies.map trim := h'.map_predicates.symm.trans h.map_predicates
    have text : bracketed (filled.map trim) = bracketed filled := by
      rw [h.toList_text, trim_bracketed h.base ne, ← same] at split
      obtain ⟨b, filled, rfl⟩ := List.exists_cons_of_ne_nil h'.nonempty
      rw [List.map_cons, bracketed_cons, bracketed_cons] at split ⊢
      rw [(append_cons_inj_of_first h.base.bracket bracket split).2]
    rw [← same, map_trim_of_length (congrArg List.length text)]
    exact h'.body
  · intro all
    have trimmed : (bodies.map trim).map trim = bodies.map trim := by
      rw [List.map_map]
      exact List.map_congr_left fun b _ => trim_trim b
    rw [ofText?_bracketed h.base ne all h.toList_text, String.ofList_toList, trimmed, ← h.predicates]

/-- A single predicate that ends in an escape is not closed any more. -/
theorem ReadFrom.ofText?_text_eq_none {b : List Char} (h : ReadFrom [b] s)
    (escape : endsInEscape (trim b) = true) : ofText? s.text = none := by
  rw [Option.eq_none_iff_forall_ne_some]
  intro s' back
  obtain ⟨front, filled, h', split, bracket, -⟩ := exists_readFrom back
  obtain ⟨x, filled, rfl⟩ := List.exists_cons_of_ne_nil h'.nonempty
  have hx : Body none x := h'.body x List.mem_cons_self
  have text : trim b ++ [']'] = x ++ ']' :: bracketed filled := by
    rw [h.toList_text, trim_bracketed h.base (by simp), List.map_singleton, bracketed_cons,
      bracketed_cons] at split
    exact (append_cons_inj_of_first h.base.bracket bracket split).2
  cases last : bracketed filled using List.reverseRecOn with
  | nil =>
      rw [last] at text
      rw [List.append_cancel_right text, hx.endsInEscape_eq_false] at escape
      cases escape
  | append_singleton more c =>
      -- The bracket in front of the rest would have closed the predicate when it was read first.
      rw [last, ← List.cons_append, ← List.append_assoc] at text
      obtain ⟨early, -⟩ := List.append_inj' text rfl
      obtain ⟨front, w, whole, hfront, -⟩ := trim_append b
      have hb := h.body b List.mem_cons_self
      rw [whole] at hb
      have late := predicate?_of_body (hb.of_blank_append hfront) []
      rw [early, List.append_assoc, List.append_assoc, List.cons_append, predicate?_of_body hx] at late
      have length := congrArg (fun r => r.map fun p => p.1.length) late
      simp at length

theorem withPredicate_eq (s : AttributeSelector) (p : String) :
    s.withPredicate p = text ⟨s.base, [p]⟩ := by
  simp [withPredicate, text, String.append_assoc]

theorem ReadFrom.single (h : ReadFrom bodies s) {p : String} (hp : p ∈ s.predicates) :
    ∃ b, trim b = p.toList ∧ ReadFrom [b] ⟨s.base, [p]⟩ := by
  rw [h.predicates] at hp
  obtain ⟨_, trimmed, rfl⟩ := List.mem_map.mp hp
  obtain ⟨b, hb, rfl⟩ := List.mem_map.mp trimmed
  exact ⟨b, String.toList_ofList.symm, h.base, by simp, List.forall_mem_singleton.mpr (h.body b hb), rfl⟩

theorem mem_subsets {c : Candidate} (read : ofText? selector = some s)
    (h : c ∈ Candidate.subsets selector) :
    c.selector = s.base ∨ ∃ p ∈ s.predicates, c.selector = s.withPredicate p := by
  simp only [Candidate.subsets, read] at h
  split at h
  · cases h
  · obtain ⟨part, hpart, rfl⟩ := List.mem_map.mp h
    rcases List.mem_append.mp hpart with one | bare
    · obtain ⟨p, hp, rfl⟩ := List.mem_map.mp one
      exact .inr ⟨p, hp, rfl⟩
    · split at bare
      · cases bare
      · exact .inl (List.mem_singleton.mp bare)

/-- When a selector that was read can be read again from its parts, as a whole and with one predicate
alone. The proposals made of parts of a failing selector are its base and such texts. -/
theorem ofText?_parts (h : ofText? selector = some s) :
    (ofText? s.text = some s ↔ ∀ p ∈ s.predicates, endsInEscape p.toList = false) ∧
    (∀ p ∈ s.predicates, ofText? (s.withPredicate p) =
      if endsInEscape p.toList then none else some ⟨s.base, [p]⟩) ∧
    ∀ c ∈ Candidate.subsets selector,
      c.selector = s.base ∨ ∃ p ∈ s.predicates, c.selector = s.withPredicate p := by
  obtain ⟨front, bodies, parts, -⟩ := exists_readFrom h
  refine ⟨parts.ofText?_text_iff, ?_, fun c => mem_subsets h⟩
  intro p hp
  obtain ⟨b, trimmed, single⟩ := parts.single hp
  rw [withPredicate_eq]
  split
  · next escape => exact single.ofText?_text_eq_none (trimmed ▸ escape)
  · next closed =>
    refine single.ofText?_text_iff.mpr (List.forall_mem_singleton.mpr ?_)
    exact Bool.eq_false_iff.mpr closed

/-- A value that ends in an escaped blank. -/
def spacedTitle : String := "a[title=x\\ ][href]"

theorem ofText?_spacedTitle : ofText? spacedTitle = some ⟨"a", ["title=x\\", "href"]⟩ := by
  have body {b : List Char} (h : predicate? none (b ++ [']']) = some (b, [])) : Body none b :=
    (predicate?_eq_some_iff.mp h).1
  have base : IsBase "a".toList := ⟨by decide, List.forall_mem_singleton.mpr rfl⟩
  have text : spacedTitle.toList = "a".toList ++ bracketed ["title=x\\ ".toList, "href".toList] := rfl
  exact ofText?_bracketed base (by simp) (by simpa using ⟨body (by decide), body (by decide)⟩) text

theorem ofText?_parts_spacedTitle :
    ofText? (text ⟨"a", ["title=x\\", "href"]⟩) ≠ some ⟨"a", ["title=x\\", "href"]⟩ ∧
    ofText? "a[title=x\\]" = none ∧ ofText? "a[href]" = some ⟨"a", ["href"]⟩ := by
  obtain ⟨whole, single, -⟩ := ofText?_parts ofText?_spacedTitle
  refine ⟨fun back => ?_, single "title=x\\" (by simp), single "href" (by simp)⟩
  have closed := whole.mp back "title=x\\" (by simp)
  revert closed
  decide

end Selectors

end AttributeSelector
end TestRepair
