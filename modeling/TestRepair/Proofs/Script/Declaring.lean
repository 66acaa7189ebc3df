import TestRepair.Proofs.Script.Clauses
import TestRepair.Proofs.Script.Specifiers

/-!
Where a class is said to come from, if a single import of a script mentions it. A name in braces is
seen where no default stands in front of the braces, and a default where the word `type` does not; of
the specifier, the part up to the first quote of either kind is taken.
-/

namespace TestRepair
namespace Script

open Text Recogniser

/-- The part of a text up to its first quote. -/
def upToQuote (s : List Char) : List Char := s.takeWhile fun c => !isQuote c

/-- Whether an import that mentions a class is seen. -/
def Clause.isRead (cls : List Char) (kind : Option (List Char)) : Clause → Bool
  | .names _ => kind != some []
  | .default _ => kind == none
  | .both name _ => kind == none && name == cls

/-- What is read at a place: an import that mentions the class, and its specifier up to a quote. -/
def Found (cls text s : List Char) : Prop :=
  ∃ kind clause head q r, Head kind clause head ∧ clause.Mentions cls ∧
    clause.isRead cls kind = true ∧ isQuote q = true ∧ text = head ++ q :: r ∧
      s = upToQuote r

/-- A call of `require` behind an equals sign, with a name in front of it on the line. -/
def Requires (name script : List Char) : Prop :=
  ∃ a m w rest, script = a ++ (name ++ (m ++ '=' :: (w ++ ("require(".toList ++ rest)))) ∧
    Apart a.reverse ∧ Apart (m ++ ['=']) ∧ (∀ c ∈ m, c ≠ '\n' ∧ c ≠ '=') ∧ Blank w

section Phrases

variable {c c' : Cursor} {s tail before r : List Char} {q : Char}

theorem specifier_eq_some (h : specifier c = some (s, c')) : ∃ q r, isQuote q = true ∧
    c.after = q :: r ∧ s = upToQuote r := by
  obtain ⟨q, c₁, first, h⟩ := bind_eq_some_iff.mp h
  obtain ⟨v, c₂, body, h⟩ := bind_eq_some_iff.mp h
  obtain ⟨_, c₃, -, h⟩ := bind_eq_some_iff.mp h
  cases h
  obtain ⟨hq, span⟩ := one_eq_some_iff.mp first
  obtain ⟨-, span', ends⟩ := run1_eq_some_iff.mp body
  exact ⟨q, c₁.after, hq, span.after, by rw [upToQuote, span'.after, ends.takeWhile.1]⟩

theorem isSome_specifier (hq : isQuote q = true) {rest : List Char} {q' : Char} (ne : s ≠ [])
    (hs : ∀ x ∈ s, isQuote x = false) (hq' : isQuote q' = true) (before : List Char) :
    (specifier ⟨before, q :: (s ++ q' :: rest)⟩).isSome = true := by
  have first : one isQuote ⟨before, q :: (s ++ q' :: rest)⟩ =
      some (q, ⟨q :: before, s ++ q' :: rest⟩) := one_eq_some_iff.mpr ⟨hq, rfl, rfl⟩
  have body : run1 (fun x => !isQuote x) ⟨q :: before, s ++ q' :: rest⟩ =
      some (s, ⟨s.reverse ++ q :: before, q' :: rest⟩) :=
    run1_eq_some_iff.mpr ⟨ne, ⟨rfl, rfl⟩, fun x hx => by simp [hs x hx], by simp [hq']⟩
  have last : one isQuote ⟨s.reverse ++ q :: before, q' :: rest⟩ =
      some (q', ⟨q' :: (s.reverse ++ q :: before), rest⟩) := one_eq_some_iff.mpr ⟨hq', rfl, rfl⟩
  rw [specifier, bind_of_some first, bind_of_some body, bind_of_some last]
  rfl

theorem fromSpecifier_eq_some (h : fromSpecifier c = some (s, c')) : ∃ tail q r, Tail tail ∧
    isQuote q = true ∧ c.after = tail ++ q :: r ∧ s = upToQuote r := by
  obtain ⟨_, c₁, gap, h⟩ := bind_eq_some_iff.mp h
  obtain ⟨_, c₂, word, h⟩ := bind_eq_some_iff.mp h
  obtain ⟨_, c₃, gap', h⟩ := bind_eq_some_iff.mp h
  obtain ⟨b, span, ends⟩ := blanks_eq_some_iff.mp gap
  obtain ⟨b', span', ends'⟩ := blanks_eq_some_iff.mp gap'
  obtain ⟨q, r, hq, text, cut⟩ := specifier_eq_some h
  have whole := span.trans ((literal_eq_some_iff.mp word).trans span')
  exact ⟨_, q, r, .mk ends.all ends'.all, hq, by rw [whole.after, text], cut⟩

/-- A specifier can be read that has something in front of its first quote. -/
def Readable (r : List Char) : Prop :=
  ∃ s q rest, r = s ++ q :: rest ∧ s ≠ [] ∧ (∀ x ∈ s, isQuote x = false) ∧ isQuote q = true

theorem isSome_fromSpecifier (htail : Tail tail) (hq : isQuote q = true) (hr : Readable r)
    (before : List Char) : (fromSpecifier ⟨before, tail ++ q :: r⟩).isSome = true := by
  obtain ⟨s, q', rest, rfl, ne, hs, hq'⟩ := hr
  obtain @⟨b, b', hb, hb'⟩ := htail
  have ink : isBlank q = false := by
    refine Bool.eq_false_iff.mpr fun blank => ?_
    have stop := isStop_of_isQuote hq
    rw [isStop_of_isBlank blank] at stop
    cases stop
  have gap : Ends isBlank b ("from".toList ++ (b' ++ q :: (s ++ q' :: rest))) := hb.ends rfl
  rw [fromSpecifier, List.append_assoc, List.append_assoc, bind_of_some (blanks_append gap),
    bind_of_some (literal_append ..), bind_of_some (blanks_append (hb'.ends ink))]
  exact isSome_specifier hq ne hs hq' _

end Phrases

section Forms

variable {cls : List Char} {c c' : Cursor} {s before r : List Char} {q : Char}

theorem importOfNames_eq_some (h : ClassName cls) (read : importOfNames cls c = some (s, c')) :
    Found cls c.after s := by
  obtain ⟨_, c₁, word, read⟩ := bind_eq_some_iff.mp read
  obtain ⟨_, c₂, gap, read⟩ := bind_eq_some_iff.mp read
  obtain ⟨_, c₃, typed, read⟩ := bind_eq_some_iff.mp read
  obtain ⟨_, c₄, brace, read⟩ := bind_eq_some_iff.mp read
  obtain ⟨m, c₅, skipped, inside, read⟩ := latest_eq_some read
  obtain ⟨_, c₆, name, read⟩ := bind_eq_some_iff.mp read
  obtain ⟨_, c₇, close, read⟩ := bind_eq_some_iff.mp read
  obtain ⟨w, span, ends⟩ := blanks_eq_some_iff.mp gap
  obtain ⟨o, ho, span'⟩ := optionalWord_eq_some typed
  obtain ⟨named, apart, apart'⟩ := wholeName_eq_some h name
  obtain ⟨m', open_, closed⟩ := closeBraces_eq_some_iff.mp close
  obtain ⟨tail, q, r, htail, hq, text, cut⟩ := fromSpecifier_eq_some read
  have opening := literal_eq_some_iff.mp brace
  have whole := (literal_eq_some_iff.mp word).trans (span.trans (span'.trans
    (opening.trans (skipped.trans (named.trans closed)))))
  have plain : '\x7d' ∉ m ++ (cls ++ m') := by
    simp only [List.mem_append, not_or]
    exact ⟨fun hm => absurd (inside _ hm) (by decide), fun hm => absurd (h.word _ hm) (by decide), open_⟩
  have listed : Listed cls (m ++ (cls ++ m')) := by
    rw [skipped.before, opening.before] at apart
    rw [closed.after, List.append_assoc] at apart'
    exact ⟨m, m', rfl, (apart_append_cons (by decide)).mp apart,
      (apart_append_cons (by decide)).mp apart'⟩
  have found {kind : Option (List Char)} {start : List Char} (hstart : Start kind start)
      (split : start = "import".toList ++ (w ++ o)) (gap : kind ≠ some []) : Found cls c.after s := by
    refine ⟨kind, _, _, q, r, .names hstart plain htail, listed, bne_iff_ne.mpr gap, hq, ?_, cut⟩
    rw [whole.after, text, split]
    simp
  cases ho with
  | absent => exact found (.untyped ends.all) (by simp) (by simp)
  | @present g ne hg => exact found (.typed ends.all hg) rfl (by simpa using ne)

theorem importOfDefault_eq_some (h : ClassName cls) (read : importOfDefault cls c = some (s, c')) :
    Found cls c.after s := by
  obtain ⟨_, c₁, word, read⟩ := bind_eq_some_iff.mp read
  obtain ⟨w, c₂, ne, hw, span, read⟩ := afterBlanks_eq_some read
  obtain ⟨_, c₃, name, read⟩ := bind_eq_some_iff.mp read
  obtain ⟨_, c₄, gap, read⟩ := bind_eq_some_iff.mp read
  obtain ⟨_, c₅, listed, read⟩ := bind_eq_some_iff.mp read
  obtain ⟨b, span', ends⟩ := blanks_eq_some_iff.mp gap
  obtain ⟨tail, q, r, htail, hq, text, cut⟩ := fromSpecifier_eq_some read
  have front := (literal_eq_some_iff.mp word).trans
    (span.trans ((literal_eq_some_iff.mp name).trans span'))
  have start : Start none ("import".toList ++ w) := .untyped hw
  have blank : EndsInBlank ("import".toList ++ w) := by
    intro x hx
    rw [List.getLast?_append_of_ne_nil _ ne] at hx
    exact hw x (List.mem_of_getLast? hx)
  rcases orElse_eq_some_iff.mp listed with group | ⟨-, nothing⟩
  · obtain ⟨_, c₆, comma, group⟩ := bind_eq_some_iff.mp group
    obtain ⟨_, c₇, gap', group⟩ := bind_eq_some_iff.mp group
    obtain ⟨_, c₈, brace, close⟩ := bind_eq_some_iff.mp group
    obtain ⟨b', span'', ends'⟩ := blanks_eq_some_iff.mp gap'
    obtain ⟨list, open_, closed⟩ := closeBraces_eq_some_iff.mp close
    have whole := front.trans ((literal_eq_some_iff.mp comma).trans (span''.trans
      ((literal_eq_some_iff.mp brace).trans closed)))
    refine ⟨none, _, _, q, r, .both start blank h.isName ends.all ends'.all open_ htail, .inl rfl,
      by simp [Clause.isRead], hq, ?_, cut⟩
    rw [whole.after, text]
    simp
  · cases nothing
    refine ⟨none, _, _, q, r, .default start blank h.isName (htail.indent ends.all), rfl, rfl, hq, ?_,
      cut⟩
    rw [front.after, text]
    simp

theorem requires_of_isSome (h : ClassName cls) {x y : List Char}
    (read : (requireOf cls ⟨x.reverse, y⟩).isSome = true) : Requires cls (x ++ y) := by
  rw [requireOf, isSome_wholeName_bind_iff h] at read
  obtain ⟨apart, text, rfl, apart', read⟩ := read
  obtain ⟨m, ⟨before, after⟩, run, read⟩ := isSome_bind_iff.mp read
  obtain ⟨span, ends⟩ := run_eq_some_iff.mp run
  simp only [isSome_literal_bind_iff, isSome_blanks_bind_iff] at read
  obtain ⟨_, rfl, w, _, rfl, hw, rest, rfl, -⟩ := read
  obtain rfl : text = m ++ '=' :: (w ++ ("require(".toList ++ rest)) := span.after
  refine ⟨x, m, w, rest, rfl, apart, ?_, fun d hd => by simpa using ends.all d hd, hw.all⟩
  cases m with
  | nil => exact apart_cons.mpr (by decide)
  | cons d m => exact apart'

theorem isSome_importOfNames (h : ClassName cls) {w o m m' tail : List Char} (hw : Blank w)
    (ho : Optionally "type".toList o) (hm : '\x7d' ∉ m) (hm' : '\x7d' ∉ m') (apart : Apart m.reverse)
    (apart' : Apart m') (htail : Tail tail) (hq : isQuote q = true) (hr : Readable r)
    (before : List Char) :
    (importOfNames cls ⟨before, "import".toList ++ (w ++ (o ++ '\x7b' ::
      (m ++ (cls ++ (m' ++ '\x7d' :: (tail ++ q :: r))))))⟩).isSome = true := by
  have close {back : List Char} : closeBraces ⟨back, m' ++ '\x7d' :: (tail ++ q :: r)⟩ =
      some ((), ⟨(m' ++ ['\x7d']).reverse ++ back, tail ++ q :: r⟩) :=
    closeBraces_eq_some_iff.mpr ⟨m', hm', by simp, rfl⟩
  have inside {back : List Char} : (latest inBraces (do
      wholeName cls
      closeBraces
      fromSpecifier) ⟨'\x7b' :: back, m ++ (cls ++ (m' ++ '\x7d' :: (tail ++ q :: r)))⟩).isSome =
        true := by
    refine isSome_latest_iff.mpr ⟨m, _, rfl, fun x hx => ?_, ?_⟩
    · exact bne_iff_ne.mpr (ne_of_mem_of_not_mem hx hm)
    · refine (isSome_wholeName_bind_iff h).mpr ⟨(apart_append_cons (by decide)).mpr apart, _, rfl,
        (apart_append_cons (by decide)).mpr apart', ?_⟩
      rw [bind_of_some close]
      exact isSome_fromSpecifier htail hq hr _
  have gap {rest : List Char} : Ends isBlank w (o ++ '\x7b' :: rest) := by
    cases ho with
    | absent => exact hw.ends (by decide)
    | present _ _ => exact hw.ends (by decide)
  rw [importOfNames, bind_of_some (literal_append ..), bind_of_some (blanks_append gap),
    bind_of_some (optionalWord_append ho (by simp; decide) (by simp)), bind_of_some (literal_cons ..)]
  exact inside

/-- Names in braces behind a default, or nothing. -/
inductive Group : List Char → Prop
  | absent : Group []
  | names {b list : List Char} (hb : Blank b) (hlist : '\x7d' ∉ list) :
      Group (',' :: (b ++ '\x7b' :: (list ++ ['\x7d'])))

theorem isSome_importOfDefault {w b group tail : List Char} (ne : w ≠ []) (hw : Blank w)
    (hb : Ends isBlank b (group ++ (tail ++ q :: r))) (hgroup : Group group) (htail : Tail tail)
    (hq : isQuote q = true) (hr : Readable r) (before : List Char) :
    (importOfDefault cls
      ⟨before, "import".toList ++ (w ++ (cls ++ (b ++ (group ++ (tail ++ q :: r)))))⟩).isSome = true := by
  have names {back : List Char} : ((do
      literal [',']
      blanks
      literal ['\x7b']
      closeBraces) <|> pure ()) ⟨back, group ++ (tail ++ q :: r)⟩ =
        some ((), ⟨group.reverse ++ back, tail ++ q :: r⟩) := by
    cases hgroup with
    | absent =>
        refine orElse_of_none (bind_of_none (literal_eq_none ?_))
        rintro ⟨rest, e⟩
        obtain ⟨c, t, rfl⟩ := List.exists_cons_of_ne_nil htail.nonempty
        obtain rfl : ',' = c := (List.cons.inj e).1
        exact absurd (htail.plain ',' List.mem_cons_self) (by decide)
    | @names b' list hb' hlist =>
        have close {back : List Char} : closeBraces ⟨back, list ++ '\x7d' :: (tail ++ q :: r)⟩ =
            some ((), ⟨(list ++ ['\x7d']).reverse ++ back, tail ++ q :: r⟩) :=
          closeBraces_eq_some_iff.mpr ⟨list, hlist, by simp, rfl⟩
        have gap : Ends isBlank b' ('\x7b' :: (list ++ '\x7d' :: (tail ++ q :: r))) := hb'.ends (by decide)
        refine orElse_of_some ?_
        simp only [List.cons_append, List.append_assoc, List.nil_append]
        rw [bind_of_some (literal_cons ..), bind_of_some (blanks_append gap),
          bind_of_some (literal_cons ..), close]
        simp
  rw [importOfDefault, bind_of_some (literal_append ..)]
  refine isSome_afterBlanks_iff.mpr ⟨w, _, ne, rfl, hw, ?_⟩
  rw [bind_of_some (literal_append ..), bind_of_some (blanks_append hb), bind_of_some names]
  exact isSome_fromSpecifier htail hq hr _

/-- An import that is to be seen is read where it stands. -/
theorem isSome_of_isRead (h : ClassName cls) {kind : Option (List Char)} {clause : Clause}
    {head : List Char} (hhead : Head kind clause head) (mentions : clause.Mentions cls)
    (hread : clause.isRead cls kind = true) (hq : isQuote q = true) (hr : Readable r)
    (before : List Char) :
    (importOfNames cls ⟨before, head ++ q :: r⟩).isSome = true ∨
      (importOfDefault cls ⟨before, head ++ q :: r⟩).isSome = true := by
  have spaced {w : List Char} (gap : EndsInBlank ("import".toList ++ w)) : w ≠ [] := by
    rintro rfl
    exact absurd (gap 't' rfl) (by decide)
  cases hhead with
  | names hstart hlist htail =>
      left
      obtain ⟨m, m', rfl, apart, apart'⟩ := mentions
      simp only [List.mem_append, not_or] at hlist
      obtain ⟨hm, -, hm'⟩ := hlist
      cases hstart with
      | untyped hw =>
          simpa using isSome_importOfNames h hw .absent hm hm' apart apart' htail hq hr before
      | typed hw hg =>
          have ne := bne_iff_ne.mp hread
          have typed : Optionally "type".toList ("type".toList ++ _) := .present (by simpa using ne) hg
          simpa using isSome_importOfNames h hw typed hm hm' apart apart' htail hq hr before
  | default hstart gap hname htail =>
      right
      obtain rfl := mentions
      obtain rfl := beq_iff_eq.mp hread
      obtain ⟨hw⟩ := hstart
      obtain ⟨hb, hb'⟩ := htail
      have tail : Tail ("from".toList ++ _) := .mk (b := []) (by simp [Blank]) hb'
      simpa using isSome_importOfDefault (spaced gap) hw (hb.ends (by decide)) .absent tail hq hr before
  | both hstart gap hname hb hb' hlist htail =>
      right
      simp only [Clause.isRead, Bool.and_eq_true, beq_iff_eq] at hread
      obtain ⟨rfl, rfl⟩ := hread
      obtain ⟨hw⟩ := hstart
      simpa using isSome_importOfDefault (spaced gap) hw (hb.ends (by decide)) (.names hb' hlist) htail
        hq hr before

end Forms

section Scripts

variable {cls s pre : List Char} {kind : Option (List Char)} {clause : Clause} {q : Char}

/-- An import that mentions a class stands in a script behind `pre`. -/
def MentionedBehind (cls script pre : List Char) : Prop :=
  ∃ kind clause head q rest, script = pre ++ (head ++ q :: rest) ∧ Head kind clause head ∧
    clause.Mentions cls ∧ isQuote q = true

/-- The only import of a script that mentions a class has the relative specifier `s`, and no call of
`require` mentions it. -/
structure ImportedOnce (cls : List Char) (kind : Option (List Char)) (clause : Clause)
    (s script : List Char) : Prop where
  once : ∃ pre head q rest, script = pre ++ (head ++ q :: (s ++ q :: rest)) ∧ Head kind clause head ∧
    isQuote q = true ∧ q ∉ s ∧ ∀ other, MentionedBehind cls script other → other = pre
  mentions : clause.Mentions cls
  relative : isRelative s = true
  unrequired : ¬Requires cls script

theorem upToQuote_append (hq : isQuote q = true) (s rest : List Char) :
    upToQuote (s ++ q :: rest) = upToQuote s := by
  induction s with
  | nil => simp [upToQuote, hq]
  | cons c s ih =>
      cases hc : isQuote c
      · simpa [upToQuote, hc] using ih
      · simp [upToQuote, hc]

theorem upToQuote_eq_self_iff : upToQuote s = s ↔ ∀ c ∈ s, isQuote c = false := by
  simp [upToQuote]

theorem isRelative_upToQuote (h : isRelative s = true) : isRelative (upToQuote s) = true := by
  rw [isRelative_iff] at h ⊢
  rcases h with ⟨b, rfl⟩ | ⟨b, rfl⟩
  · exact .inl ⟨upToQuote b, rfl⟩
  · exact .inr ⟨upToQuote b, rfl⟩

theorem readable_of_relative (h : isRelative s = true) (hq : isQuote q = true) (rest : List Char) :
    Readable (s ++ q :: rest) := by
  have ne : upToQuote s ≠ [] := by
    intro nothing
    have := isRelative_upToQuote h
    rw [nothing] at this
    cases this
  have plain : ∀ c ∈ upToQuote s, isQuote c = false := fun c hc => by
    simpa using List.mem_takeWhile_imp hc
  have split : s = upToQuote s ++ s.dropWhile fun c => !isQuote c :=
    List.takeWhile_append_dropWhile.symm
  cases left : s.dropWhile fun c => !isQuote c with
  | nil =>
      rw [left, List.append_nil] at split
      exact ⟨s, q, rest, rfl, split ▸ ne, by rw [split]; exact plain, hq⟩
  | cons c more =>
      have stop := List.head?_dropWhile_not (fun c => !isQuote c) s
      rw [left] at split stop
      refine ⟨upToQuote s, c, more ++ q :: rest, ?_, ne, plain, by simpa using stop⟩
      conv_lhs => rw [split]
      simp

/-- What is found for a class that is imported once. -/
theorem importOf?_of_once {script cls : String} (hcls : ClassName cls.toList)
    (h : ImportedOnce cls.toList kind clause s script.toList) : importOf? script cls =
      if clause.isRead cls.toList kind then some (String.ofList (upToQuote s)) else none := by
  obtain ⟨pre, head, q, rest, text, hhead, hq, -, only⟩ := h.once
  have found {x y v : List Char} (split : script.toList = x ++ y) (hv : Found cls.toList y v) :
      clause.isRead cls.toList kind = true ∧ v = upToQuote s := by
    obtain ⟨kind', clause', head', q', r, hhead', mentions, hread, hq', rfl, cut⟩ := hv
    obtain rfl : x = pre := only x ⟨kind', clause', head', q', r, split, hhead', mentions, hq'⟩
    obtain ⟨rfl, rfl, rfl⟩ := hhead.unique hhead' hq hq'
      (List.append_cancel_left (text.symm.trans split))
    exact ⟨hread, cut.trans (upToQuote_append hq s rest)⟩
  let forms := [importOfNames cls.toList, importOfDefault cls.toList, requireOf cls.toList]
  have value : ∀ form ∈ forms, ∀ o, form.first? script.toList = some o →
      clause.isRead cls.toList kind = true ∧ o.value = upToQuote s := by
    intro form mem o first
    obtain ⟨x, y, split, start, read, -⟩ := first?_eq_some_iff.mp first
    rw [start] at read
    simp only [forms, List.mem_cons, List.not_mem_nil, or_false] at mem
    rcases mem with rfl | rfl | rfl
    · exact found split (importOfNames_eq_some hcls read)
    · exact found split (importOfDefault_eq_some hcls read)
    · have required := requires_of_isSome hcls (Option.isSome_of_mem read)
      exact absurd (split ▸ required) h.unrequired
  have unfolded : importOf? script cls =
      (forms.findSome? fun form => (form.first? script.toList).map (·.value)).bind fun v =>
        if isRelative v then some (String.ofList v) else none := rfl
  rw [unfolded]
  cases e : forms.findSome? fun form => (form.first? script.toList).map (·.value) with
  | none =>
      rw [Option.bind_none, if_neg]
      intro hread
      have missing (form : Recogniser (List Char)) (mem : form ∈ forms) :
          form ⟨pre.reverse, head ++ q :: (s ++ q :: rest)⟩ = none := by
        have first := Option.map_eq_none_iff.mp (List.findSome?_eq_none_iff.mp e form mem)
        exact first?_eq_none_iff.mp first pre _ text
      have seen := isSome_of_isRead hcls hhead h.mentions hread hq
        (readable_of_relative h.relative hq rest) pre.reverse
      rw [missing (importOfNames cls.toList) (by simp [forms]),
        missing (importOfDefault cls.toList) (by simp [forms])] at seen
      simp at seen
  | some v =>
      obtain ⟨form, mem, reads⟩ := List.exists_of_findSome?_eq_some e
      obtain ⟨o, first, rfl⟩ := Option.map_eq_some_iff.mp reads
      obtain ⟨hread, cut⟩ := value form mem o first
      rw [Option.bind_some, cut, if_pos (isRelative_upToQuote h.relative), if_pos hread]

/-- A class that is imported once is found just if its import is seen, with the specifier up to the
first quote in it. So it is the specifier that is found just if there is no quote in it. -/
theorem importOf?_of_importedOnce {script cls : String} (hcls : ClassName cls.toList)
    (h : ImportedOnce cls.toList kind clause s script.toList) :
    importOf? script cls = (if clause.isRead cls.toList kind then some (String.ofList (upToQuote s))
      else none) ∧
    (importOf? script cls = some (String.ofList s) ↔
      clause.isRead cls.toList kind = true ∧ ∀ c ∈ s, isQuote c = false) := by
  have found := importOf?_of_once hcls h
  refine ⟨found, ?_⟩
  rw [found]
  cases clause.isRead cls.toList kind with
  | false => simp
  | true => simp only [if_true, true_and, Option.some.injEq, String.ofList_inj, upToQuote_eq_self_iff]

/-- A class that is listed behind a default. -/
def listedBehindDefault : String := "import Base, { LoginPage } from '../pages/LoginPage';\n"

theorem importedOnce_listedBehindDefault :
    ImportedOnce "LoginPage".toList none (.both "Base".toList " LoginPage ".toList)
      "../pages/LoginPage".toList listedBehindDefault.toList := by
  have listed : Listed "LoginPage".toList " LoginPage ".toList :=
    ⟨[' '], [' '], rfl, by simp [Apart]; decide, by simp [Apart]; decide⟩
  have base : ClassName "Base".toList := ⟨by decide, List.all_eq_true.mp (by decide)⟩
  have gap : Blank [' '] := by decide
  have nothing : Blank [] := by decide
  have start : Start none ("import".toList ++ [' ']) := .untyped gap
  have tail : Tail ([' '] ++ ("from".toList ++ [' '])) := .mk gap gap
  have head : Head none (.both "Base".toList " LoginPage ".toList)
      "import Base, { LoginPage } from ".toList :=
    .both start (by rintro _ ⟨⟩; decide) base.isName nothing gap (by decide) tail
  refine ⟨⟨[], _, '\x27', ";\n".toList, rfl, head, rfl, by decide, ?_⟩, .inr listed, rfl, ?_⟩
  · rintro other ⟨kind, clause, _, q, rest, split, hhead, -⟩
    obtain ⟨more, rfl⟩ := hhead.starts
    have fresh : 't' ∉ other ++ "impor".toList := by
      have once : listedBehindDefault.toList.count 't' = 1 := by decide
      have word : "import".toList.count 't' = 1 := by decide
      rw [split, List.count_append, List.count_append, List.count_append, word] at once
      rw [List.mem_append, not_or, ← List.count_eq_zero]
      exact ⟨by omega, by decide⟩
    have place : other ++ "impor".toList ++ 't' :: (more ++ q :: rest) =
        "impor".toList ++ 't' :: (listedBehindDefault.toList.drop 6) := by
      rw [List.append_assoc]
      exact split.symm.trans (by decide)
    simpa using (append_cons_inj_of_first fresh (by decide) place).1
  · rintro ⟨a, m, w, rest, split, -⟩
    have sign : '=' ∈ listedBehindDefault.toList := by simp [split]
    exact absurd sign (by decide)

theorem importOf?_of_importedOnce_listedBehindDefault :
    importOf? listedBehindDefault "LoginPage" = none := by
  have name : ClassName "LoginPage".toList := ⟨by decide, List.all_eq_true.mp (by decide)⟩
  exact (importOf?_of_importedOnce name importedOnce_listedBehindDefault).1

end Scripts

end Script
end TestRepair
