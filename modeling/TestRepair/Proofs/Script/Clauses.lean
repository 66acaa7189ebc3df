import TestRepair.Proofs.Script.Endings
import TestRepair.Proofs.Script.Exports
import TestRepair.Proofs.Text.Trimming

/-!
How an import is written up to its specifier, and that a text can be taken as such a head in one way
only: what is bound, and the blanks behind the word `type`, can be told from it.
-/

namespace TestRepair
namespace Script

open Text Recogniser

/-- What an import binds: names in braces, a default, or a default and names. -/
inductive Clause
  | names (list : List Char)
  | default (name : List Char)
  | both (name list : List Char)

/-- A name is listed, on its own or as a part of an alias. -/
def Listed (name list : List Char) : Prop :=
  ∃ a b, list = a ++ (name ++ b) ∧ Apart a.reverse ∧ Apart b

/-- A clause in which a name occurs. -/
def Clause.Mentions (name : List Char) : Clause → Prop
  | .names list => Listed name list
  | .default name' => name' = name
  | .both name' list => name' = name ∨ Listed name list

/-- A name of a script, of word characters and dollar signs. -/
structure IsName (name : List Char) : Prop where
  nonempty : name ≠ []
  all : ∀ c ∈ name, isWord c = true ∨ c = '$'

/-- The words in front of a clause. If `type` is one of them, `kind` has the blanks behind it. -/
inductive Start : (kind : Option (List Char)) → List Char → Prop
  | untyped {w : List Char} (hw : Blank w) : Start none ("import".toList ++ w)
  | typed {w g : List Char} (hw : Blank w) (hg : Blank g) :
      Start (some g) ("import".toList ++ (w ++ ("type".toList ++ g)))

/-- The word between a clause and a specifier. -/
inductive Tail : List Char → Prop
  | mk {b b' : List Char} (hb : Blank b) (hb' : Blank b') : Tail (b ++ ("from".toList ++ b'))

/-- A blank stands at the end. -/
def EndsInBlank (w : List Char) : Prop := ∀ c ∈ w.getLast?, isBlank c = true

/-- An import up to its specifier. -/
inductive Head (kind : Option (List Char)) : Clause → List Char → Prop
  | names {start list tail : List Char} (hstart : Start kind start) (hlist : '\x7d' ∉ list)
      (htail : Tail tail) : Head kind (.names list) (start ++ '\x7b' :: (list ++ '\x7d' :: tail))
  | default {start name tail : List Char} (hstart : Start kind start)
      (gap : EndsInBlank start) (hname : IsName name) (htail : Tail tail) :
      Head kind (.default name) (start ++ (name ++ tail))
  | both {start name b b' list tail : List Char} (hstart : Start kind start)
      (gap : EndsInBlank start) (hname : IsName name) (hb : Blank b) (hb' : Blank b')
      (hlist : '\x7d' ∉ list) (htail : Tail tail) : Head kind (.both name list)
        (start ++ (name ++ (b ++ ',' :: (b' ++ '\x7b' :: (list ++ '\x7d' :: tail)))))

section Words

variable {kind kind' : Option (List Char)} {start start' name name' tail tail' : List Char}

/-- A character that ends the words at the beginning of an import. -/
def isStop (c : Char) : Bool := isQuote c || c == ',' || c == '\x7b'

theorem isStop_cases {c : Char} (h : isStop c = true) :
    c = '\x27' ∨ c = '"' ∨ c = ',' ∨ c = '\x7b' := by
  simpa [isStop, isQuote, or_assoc] using h

theorem isStop_of_isBlank {c : Char} (h : isBlank c = true) : isStop c = false := by
  refine Bool.eq_false_iff.mpr fun stop => ?_
  rcases isStop_cases stop with rfl | rfl | rfl | rfl <;> exact absurd h (by decide)

/-- No quote, comma or opening brace. -/
def Plain (w : List Char) : Prop := ∀ c ∈ w, isStop c = false

instance (w : List Char) : Decidable (Plain w) := List.decidableBAll _ w

theorem Plain.append {w w' : List Char} (hw : Plain w) (hw' : Plain w') : Plain (w ++ w') :=
  List.forall_mem_append.mpr ⟨hw, hw'⟩

theorem plain_of_blank {w : List Char} (hw : Blank w) : Plain w :=
  fun c hc => isStop_of_isBlank (hw c hc)

/-- Two ways to go on up to a stop are the same. -/
theorem Plain.inj {u v s t : List Char} {x y : Char} (hu : Plain u) (hv : Plain v)
    (hx : isStop x = true) (hy : isStop y = true) (h : u ++ x :: s = v ++ y :: t) :
    u = v ∧ x = y ∧ s = t := by
  have ends {w rest : List Char} {z : Char} (hw : Plain w) (hz : isStop z = true) :
      Ends (fun c => !isStop c) w (z :: rest) :=
    ⟨fun c hc => by simp [hw c hc], by simp [hz]⟩
  obtain ⟨rfl, rest⟩ := (ends hu hx).unique (ends hv hy) h
  exact ⟨rfl, List.cons.inj rest⟩

theorem Start.plain (h : Start kind start) : Plain start := by
  cases h with
  | untyped hw => exact .append (by decide) (plain_of_blank hw)
  | typed hw hg =>
      exact .append (by decide) (.append (plain_of_blank hw) (.append (by decide) (plain_of_blank hg)))

theorem Tail.plain (h : Tail tail) : Plain tail := by
  obtain ⟨hb, hb'⟩ := h
  exact .append (plain_of_blank hb) (.append (by decide) (plain_of_blank hb'))

theorem ClassName.isName (h : ClassName name) : IsName name where
  nonempty := h.nonempty
  all c hc := .inl (h.word c hc)

theorem IsName.solid (h : IsName name) : Solid name := by
  intro c hc
  rcases h.all c hc with word | rfl
  · exact isBlank_of_isWord word
  · decide

theorem IsName.plain (h : IsName name) : Plain name := by
  intro c hc
  refine Bool.eq_false_iff.mpr fun stop => ?_
  rcases h.all c hc with word | rfl
  · rcases isStop_cases stop with rfl | rfl | rfl | rfl <;> exact absurd word (by decide)
  · exact absurd stop (by decide)

theorem Start.unique (h : Start kind start) (h' : Start kind' start) : kind = kind' := by
  have wordless {w : List Char} (hw : Blank w) : 't' ∉ w := fun ht => absurd (hw _ ht) (by decide)
  cases h with
  | @untyped w hw =>
      generalize split : "import".toList ++ w = start at h'
      cases h' with
      | untyped => rfl
      | @typed w' g hw' hg =>
          have whole : w = w' ++ ("type".toList ++ g) := List.append_cancel_left split
          exact absurd (by simp [whole]) (wordless hw)
  | @typed w g hw hg =>
      generalize split : "import".toList ++ (w ++ ("type".toList ++ g)) = start at h'
      cases h' with
      | untyped hw' =>
          have whole := List.append_cancel_left split
          exact absurd (by simp [← whole]) (wordless hw')
      | @typed w' g' hw' hg' =>
          have whole : w ++ 't' :: ("ype".toList ++ g) = w' ++ 't' :: ("ype".toList ++ g') :=
            List.append_cancel_left split
          obtain ⟨-, rest⟩ := append_cons_inj_of_first (wordless hw) (wordless hw') whole
          rw [List.append_cancel_left rest]

theorem Tail.nonempty (h : Tail tail) : tail ≠ [] := by
  obtain ⟨hb, hb'⟩ := h
  simp

theorem Tail.indent {b : List Char} (h : Tail tail) (hb : Blank b) : Tail (b ++ tail) := by
  obtain ⟨hb', hb''⟩ := h
  rw [← List.append_assoc]
  exact .mk (blank_append.mpr ⟨hb, hb'⟩) hb''

theorem IsName.trimEnd_append {u b : List Char} (h : IsName name) (hb : Blank b) :
    trimEnd (u ++ (name ++ b)) = u ++ name := by
  have last := List.getLast?_eq_some_getLast h.nonempty
  rw [← List.append_assoc, trimEnd_append_blank hb]
  exact trimEnd_append_of_getLast? last (h.solid _ (List.getLast_mem h.nonempty))

/-- The name behind the first words of an import can be told from them. -/
theorem Start.name_unique {b b' : List Char} (h : Start kind start) (h' : Start kind' start')
    (gap : EndsInBlank start) (gap' : EndsInBlank start') (hname : IsName name)
    (hname' : IsName name') (hb : Blank b) (hb' : Blank b')
    (text : start ++ (name ++ b) = start' ++ (name' ++ b')) : kind = kind' ∧ name = name' := by
  have named : start ++ name = start' ++ name' := by
    rw [← hname.trimEnd_append hb, ← hname'.trimEnd_append hb', text]
  -- A name goes back to the last blank.
  have ends {s n : List Char} (hn : IsName n) (gap : EndsInBlank s) :
      Ends (fun c => !isBlank c) n.reverse s.reverse := by
    refine ⟨fun c hc => by simp [hn.solid c (List.mem_reverse.mp hc)], fun c hc => ?_⟩
    rw [List.head?_reverse] at hc
    simp [gap c hc]
  obtain ⟨names, starts⟩ := (ends hname gap).unique (ends hname' gap')
    (by simpa using congrArg List.reverse named)
  obtain rfl := List.reverse_inj.mp starts
  exact ⟨h.unique h', List.reverse_inj.mp names⟩

theorem Tail.trimEnd_append {u : List Char} (h : Tail tail) :
    ∃ b, Blank b ∧ trimEnd (u ++ tail) = (u ++ b) ++ "from".toList := by
  obtain @⟨b, b', hb, hb'⟩ := h
  refine ⟨b, hb, ?_⟩
  rw [← List.append_assoc, ← List.append_assoc, trimEnd_append_blank hb']
  exact trimEnd_append_of_getLast? (c := 'm') rfl (by decide)

end Words

section Heads

variable {kind kind' : Option (List Char)} {clause clause' : Clause} {head head' r r' : List Char}
  {q q' : Char}

theorem Head.starts (h : Head kind clause head) : "import".toList <+: head := by
  have first {start more : List Char} (hstart : Start kind start) :
      "import".toList <+: start ++ more := by
    cases hstart with
    | untyped _ => exact (List.prefix_append _ _).trans (List.prefix_append _ _)
    | typed _ _ => exact (List.prefix_append _ _).trans (List.prefix_append _ _)
  cases h with
  | names hstart _ _ => exact first hstart
  | default hstart _ _ _ => exact first hstart
  | both hstart _ _ _ _ _ _ => exact first hstart

theorem isStop_of_isQuote (hq : isQuote q = true) : isStop q = true := by simp [isStop, hq]

/-- The first quote, comma or opening brace of an import, if `q` stands behind its head. -/
def Clause.stop (q : Char) : Clause → Char
  | .names _ => '\x7b'
  | .default _ => q
  | .both _ _ => ','

theorem Clause.isStop_stop (hq : isQuote q = true) (clause : Clause) :
    isStop (clause.stop q) = true := by
  cases clause with
  | names _ => rfl
  | default _ => exact isStop_of_isQuote hq
  | both _ _ => rfl

theorem Head.exists_stop (h : Head kind clause head) (q : Char) (r : List Char) :
    ∃ front rest, Plain front ∧ head ++ q :: r = front ++ clause.stop q :: rest := by
  cases h with
  | @names start list tail hstart _ _ =>
      exact ⟨start, list ++ '\x7d' :: tail ++ q :: r, hstart.plain, by simp [Clause.stop]⟩
  | @default start name tail hstart _ hname htail =>
      exact ⟨start ++ (name ++ tail), r, hstart.plain.append (hname.plain.append htail.plain), rfl⟩
  | @both start name b b' list tail hstart _ hname hb _ _ _ =>
      refine ⟨start ++ (name ++ b), b' ++ '\x7b' :: (list ++ '\x7d' :: tail) ++ q :: r, ?_, ?_⟩
      · exact hstart.plain.append (hname.plain.append (plain_of_blank hb))
      · simp [Clause.stop]

theorem Head.stop_eq (h : Head kind clause head) (h' : Head kind' clause' head')
    (hq : isQuote q = true) (hq' : isQuote q' = true) (text : head ++ q :: r = head' ++ q' :: r') :
    clause.stop q = clause'.stop q' := by
  obtain ⟨front, rest, plain, split⟩ := h.exists_stop q r
  obtain ⟨front', rest', plain', split'⟩ := h'.exists_stop q' r'
  rw [split, split'] at text
  exact (plain.inj plain' (clause.isStop_stop hq) (clause'.isStop_stop hq') text).2.1

/-- The names in braces end at the first closing brace, the import behind them at the quote. -/
theorem Tail.list_unique {list list' tail tail' : List Char} (htail : Tail tail) (htail' : Tail tail')
    (hlist : '\x7d' ∉ list) (hlist' : '\x7d' ∉ list') (hq : isQuote q = true) (hq' : isQuote q' = true)
    (text : list ++ '\x7d' :: (tail ++ q :: r) = list' ++ '\x7d' :: (tail' ++ q' :: r')) :
    list = list' ∧ r = r' := by
  obtain ⟨rfl, rest⟩ := append_cons_inj_of_first hlist hlist' text
  have stop := isStop_of_isQuote hq
  have stop' := isStop_of_isQuote hq'
  exact ⟨rfl, (htail.plain.inj htail'.plain stop stop' rest).2.2⟩

theorem Start.default_unique {start start' name name' tail tail' : List Char}
    (hstart : Start kind start) (hstart' : Start kind' start') (gap : EndsInBlank start)
    (gap' : EndsInBlank start') (hname : IsName name) (hname' : IsName name') (htail : Tail tail)
    (htail' : Tail tail') (hq : isQuote q = true) (hq' : isQuote q' = true)
    (text : start ++ (name ++ tail) ++ q :: r = start' ++ (name' ++ tail') ++ q' :: r') :
    kind = kind' ∧ name = name' ∧ r = r' := by
  have plain := hstart.plain.append (hname.plain.append htail.plain)
  have plain' := hstart'.plain.append (hname'.plain.append htail'.plain)
  obtain ⟨words, -, behind⟩ :=
    plain.inj plain' (isStop_of_isQuote hq) (isStop_of_isQuote hq') text
  -- Both tails end in `from`, and what is in front of it ends in the name and blanks.
  obtain ⟨b, hb, front⟩ := htail.trimEnd_append (u := start ++ name)
  obtain ⟨b', hb', front'⟩ := htail'.trimEnd_append (u := start' ++ name')
  rw [List.append_assoc, words, ← List.append_assoc, front'] at front
  obtain ⟨rfl, rfl⟩ := hstart.name_unique hstart' gap gap' hname hname' hb hb'
    (by simpa using (List.append_cancel_right front).symm)
  exact ⟨rfl, rfl, behind⟩

/-- The name in front of a comma can be told, and where the names in braces begin. -/
theorem Start.both_unique {start start' name name' b b' b₁ b₁' rest rest' : List Char}
    (hstart : Start kind start) (hstart' : Start kind' start') (gap : EndsInBlank start)
    (gap' : EndsInBlank start') (hname : IsName name) (hname' : IsName name') (hb : Blank b)
    (hb' : Blank b') (hb₁ : Blank b₁) (hb₁' : Blank b₁')
    (text : start ++ (name ++ b) ++ ',' :: (b₁ ++ '\x7b' :: rest) =
      start' ++ (name' ++ b') ++ ',' :: (b₁' ++ '\x7b' :: rest')) :
    kind = kind' ∧ name = name' ∧ rest = rest' := by
  have plain := hstart.plain.append (hname.plain.append (plain_of_blank hb))
  have plain' := hstart'.plain.append (hname'.plain.append (plain_of_blank hb'))
  obtain ⟨words, -, behind⟩ := plain.inj plain' rfl rfl text
  obtain ⟨-, -, rest⟩ := (plain_of_blank hb₁).inj (plain_of_blank hb₁') rfl rfl behind
  obtain ⟨rfl, rfl⟩ := hstart.name_unique hstart' gap gap' hname hname' hb hb' words
  exact ⟨rfl, rfl, rest⟩

/-- What is bound by a head and what stands behind it can be told from the text. -/
theorem Head.unique (h : Head kind clause head) (h' : Head kind' clause' head')
    (hq : isQuote q = true) (hq' : isQuote q' = true) (text : head ++ q :: r = head' ++ q' :: r') :
    kind = kind' ∧ clause = clause' ∧ r = r' := by
  have same := h.stop_eq h' hq hq' text
  -- A brace, a comma and a quote are three different characters, so the clauses are of one form.
  have brace {c : Char} (hc : isQuote c = true) : c ≠ '\x7b' := by
    rintro rfl
    cases hc
  have comma {c : Char} (hc : isQuote c = true) : c ≠ ',' := by
    rintro rfl
    cases hc
  cases h with
  | names hstart hlist htail =>
      cases h' with
      | names hstart' hlist' htail' =>
          simp only [List.append_assoc, List.cons_append] at text
          obtain ⟨rfl, -, rest⟩ := hstart.plain.inj hstart'.plain rfl rfl text
          obtain ⟨rfl, behind⟩ := htail.list_unique htail' hlist hlist' hq hq' rest
          exact ⟨hstart.unique hstart', rfl, behind⟩
      | default => exact absurd same.symm (brace hq')
      | both => cases same
  | default hstart gap hname htail =>
      cases h' with
      | names => exact absurd same (brace hq)
      | default hstart' gap' hname' htail' =>
          obtain ⟨rfl, rfl, behind⟩ := hstart.default_unique hstart' gap gap' hname hname' htail
            htail' hq hq' text
          exact ⟨rfl, rfl, behind⟩
      | both => exact absurd same (comma hq)
  | both hstart gap hname hb hb₁ hlist htail =>
      cases h' with
      | names => cases same
      | default => exact absurd same.symm (comma hq')
      | both hstart' gap' hname' hb' hb₁' hlist' htail' =>
          obtain ⟨rfl, rfl, rest⟩ := hstart.both_unique hstart' gap gap' hname hname' hb hb' hb₁ hb₁'
            (by simpa using text)
          obtain ⟨rfl, behind⟩ := htail.list_unique htail' hlist hlist' hq hq' (by simpa using rest)
          exact ⟨rfl, rfl, behind⟩

end Heads

end Script
end TestRepair
