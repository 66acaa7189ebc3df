import TestRepair.Proofs.Script.Specifiers
import TestRepair.Proofs.Text.Rewriting

/-!
Adding an ending to the relative imports of a script. An ending stands directly before a quote, and
no import starts or stops in it. So the imports in one quote style are found again where those in the
other style have got their endings, and so are they in what was written for them. All specifiers are
complete after one round, and a second one finds nothing to do.
-/

namespace TestRepair
namespace Script

open Text Recogniser

theorem consumes_relativeImport {q : Char} (hq : Style q) : Consumes (relativeImport q) := by
  rintro ⟨before, after⟩ ⟨lead, specifier⟩ stop h
  obtain ⟨found, back⟩ := (relativeImport_eq_some_iff hq).mp h
  refine ⟨lead ++ q :: (specifier ++ [q]), by simp, ?_, back⟩
  simpa using found.text

/-- Places in front of which nothing differs for an import: the nearest characters are the same. -/
def SameEdge (before before' : List Char) : Prop := before.head? = before'.head?

theorem SameEdge.apart {before before' : List Char} (h : SameEdge before before') :
    Apart before ↔ Apart before' := by
  rw [Apart, Apart, h]

/-- The rewriting of an import that has been found. -/
def extend (q : Char) (ending : List Char) (o : Occurrence (List Char × List Char)) : List Char :=
  if needsExtension o.value.2 then o.value.1 ++ q :: o.value.2 ++ ending ++ [q] else o.text

/-- What an ending must not hold, so that no import starts or stops in it. -/
structure Foreign (ending : List Char) : Prop where
  noSlash : '/' ∉ ending
  oneLine : '\n' ∉ ending
  noQuote : ∀ q, Style q → q ∉ ending
  noLead : 'f' ∉ ending ∧ 'i' ∉ ending

theorem foreign_of_known {e : List Char} (he : e ∈ knownExtensions) : Foreign ('.' :: e) := by
  have all : ∀ e ∈ knownExtensions, '/' ∉ '.' :: e ∧ '\n' ∉ '.' :: e ∧ '\x27' ∉ '.' :: e ∧
      '"' ∉ '.' :: e ∧ 'f' ∉ '.' :: e ∧ 'i' ∉ '.' :: e := by decide
  obtain ⟨noSlash, oneLine, single, double, noLead⟩ := all e he
  exact ⟨noSlash, oneLine, fun q hq => by rcases hq with rfl | rfl <;> assumption, noLead⟩

section Found

variable {q : Char} {before s : List Char} {os : List (Occurrence (List Char × List Char))}
  {ending : List Char}

/-- A specifier as it stands after the rewriting. -/
def extended (ending specifier : List Char) : List Char :=
  specifier ++ if needsExtension specifier then ending else []

theorem Relative.extended {specifier : List Char} (h : Relative q specifier) (hq : Style q)
    (he : Foreign ending) : Relative q (extended ending specifier) := by
  unfold Script.extended
  split
  · refine ⟨?_, ?_, ?_⟩
    · rcases isRelative_iff.mp h.relative with ⟨b, rfl⟩ | ⟨b, rfl⟩
      · exact isRelative_iff.mpr (.inl ⟨b ++ ending, rfl⟩)
      · exact isRelative_iff.mpr (.inr ⟨b ++ ending, rfl⟩)
    · simpa only [List.mem_append, h.noQuote, false_or] using he.noQuote q hq
    · simpa only [List.mem_append, h.oneLine, false_or] using he.oneLine
  · rwa [List.append_nil]

theorem Relative.ne_nil {specifier : List Char} (h : Relative q specifier) : specifier ≠ [] := by
  rintro rfl
  exact absurd h.relative (by decide)

theorem Import.complete {e before after lead specifier rest : List Char} (he : e ∈ knownExtensions)
    (h : Import q before after lead specifier rest) :
    needsExtension (extended ('.' :: e) specifier) = false := by
  unfold extended
  cases needs : needsExtension specifier with
  | true => exact needsExtension_append he needs h.relative.ne_nil
  | false => simpa using needs

theorem import_of_found (hq : Style q) {w : List Char} {v : List Char × List Char}
    (read : relativeImport q ⟨before, w ++ s⟩ = some (v, ⟨w.reverse ++ before, s⟩)) :
    Import q before (w ++ s) v.1 v.2 s ∧ w = v.1 ++ q :: (v.2 ++ [q]) := by
  obtain ⟨found, back⟩ := (relativeImport_eq_some_iff hq).mp read
  have taken : w.reverse ++ before = (v.1 ++ q :: (v.2 ++ [q])).reverse ++ before := back
  exact ⟨found, List.reverse_injective (List.append_cancel_right taken)⟩

theorem extend_found {w : List Char} {v : List Char × List Char}
    (hw : w = v.1 ++ q :: (v.2 ++ [q])) :
    extend q ending ⟨⟨before, w ++ s⟩, ⟨w.reverse ++ before, s⟩, v⟩ =
      v.1 ++ q :: (extended ending v.2 ++ [q]) := by
  have span : Cursor.Spans ⟨before, w ++ s⟩ w ⟨w.reverse ++ before, s⟩ := ⟨rfl, rfl⟩
  unfold extend extended
  split
  · simp
  · rw [Occurrence.text, span.textTo, hw, List.append_nil]

theorem first_quote (hq : Style q) (h : Scans (relativeImport q) before s os) {x z : List Char}
    (hx : q ∉ x) (out : rewriteFrom (extend q ending) before.length s os = x ++ q :: z) :
    ∃ z', s = x ++ q :: z' := by
  induction h generalizing x with
  | done => simp [rewriteFrom] at out
  | @pass before s c os _ rest ih =>
      rw [rest.rewriteFrom_pass] at out
      cases x with
      | nil =>
          obtain ⟨rfl, -⟩ := List.cons.inj out
          exact ⟨s, rfl⟩
      | cons d x =>
          obtain ⟨rfl, tail⟩ := List.cons.inj out
          obtain ⟨z', rfl⟩ := ih (fun h => hx (List.mem_cons_of_mem _ h)) tail
          exact ⟨z', rfl⟩
  | @found before w s v os _ read _ _ =>
      obtain ⟨found, hw⟩ := import_of_found hq read
      rw [Scans.rewriteFrom_found, extend_found hw, List.append_assoc, List.cons_append] at out
      obtain ⟨rfl, -⟩ := append_cons_inj_of_first (found.leads.notMem hq) hx out
      exact ⟨_, by rw [hw, List.append_assoc, List.cons_append]⟩

theorem second_quote (hq : Style q) (h : Scans (relativeImport q) before s os) {x y z : List Char}
    (hx : 'f' ∉ x ∧ 'i' ∉ x) (hy : q ∉ y)
    (out : rewriteFrom (extend q ending) before.length s os = x ++ q :: (y ++ q :: z)) :
    ∃ z', s = x ++ q :: (y ++ q :: z') := by
  -- No import starts in `x` or at the quote behind it, and one that starts in `y` ends with a quote
  -- further on; so the scan passes `x` one character at a time.
  induction x generalizing before s os with
  | nil =>
      cases h with
      | done => simp [rewriteFrom] at out
      | pass _ rest =>
          rw [rest.rewriteFrom_pass] at out
          obtain ⟨rfl, tail⟩ := List.cons.inj out
          obtain ⟨z', rfl⟩ := first_quote hq rest hy tail
          exact ⟨z', rfl⟩
      | found _ read _ =>
          obtain ⟨found, hw⟩ := import_of_found hq read
          obtain ⟨c, l, hl, hc, -⟩ := found.leads.head
          rw [Scans.rewriteFrom_found, extend_found hw, hl] at out
          obtain ⟨rfl, -⟩ := List.cons.inj out
          exact absurd (hl ▸ List.mem_cons_self) (found.leads.notMem hq)
  | cons d x ih =>
      cases h with
      | done => simp [rewriteFrom] at out
      | pass _ rest =>
          rw [rest.rewriteFrom_pass] at out
          obtain ⟨rfl, tail⟩ := List.cons.inj out
          obtain ⟨z', rfl⟩ := ih rest (by simp_all) tail
          exact ⟨z', rfl⟩
      | found _ read _ =>
          obtain ⟨found, hw⟩ := import_of_found hq read
          obtain ⟨c, l, hl, hc, -⟩ := found.leads.head
          rw [Scans.rewriteFrom_found, extend_found hw, hl] at out
          obtain ⟨rfl, -⟩ := List.cons.inj out
          rcases hc with rfl | rfl <;> simp at hx

theorem not_import_rewritten (hq : Style q) {c : Char} {before' : List Char}
    (edge : SameEdge before before')
    (refused : relativeImport q ⟨before, c :: s⟩ = none)
    (rest : Scans (relativeImport q) (c :: before) s os) :
    relativeImport q
      ⟨before', c :: rewriteFrom (extend q ending) (c :: before).length s os⟩ = none := by
  refine relativeImport_eq_none hq fun lead specifier behind found => ?_
  obtain ⟨d, l, hl, -, plain⟩ := found.leads.head
  have text := found.text
  rw [hl] at text
  obtain ⟨rfl, tail⟩ := List.cons.inj text
  obtain ⟨z', rfl⟩ := second_quote hq rest plain found.relative.noQuote tail
  exact not_import_of_none hq refused
    ⟨edge.apart.mpr found.apart, found.leads, found.relative, by rw [hl]; rfl⟩

/-- What was written for the imports of a text is scanned as the text was, and now all of its
specifiers are complete. -/
theorem scans_rewritten (hq : Style q) {e : List Char} (he : e ∈ knownExtensions)
    (h : Scans (relativeImport q) before s os) {before' : List Char}
    (edge : SameEdge before before') :
    ∃ os', Scans (relativeImport q) before' (rewriteFrom (extend q ('.' :: e)) before.length s os) os' ∧
      ∀ o ∈ os', needsExtension o.value.2 = false := by
  induction h generalizing before' with
  | done before => exact ⟨[], .done before', by simp⟩
  | @pass before s c os refused rest ih =>
      obtain ⟨os', scans, complete⟩ := ih (show SameEdge (c :: before) (c :: before') from rfl)
      rw [rest.rewriteFrom_pass]
      exact ⟨os', .pass (not_import_rewritten hq edge refused rest) scans, complete⟩
  | @found before w s v os _ read rest ih =>
      obtain ⟨found, hw⟩ := import_of_found hq read
      rw [Scans.rewriteFrom_found, extend_found hw]
      let w' := v.1 ++ q :: (extended ('.' :: e) v.2 ++ [q])
      have edge' : SameEdge (w.reverse ++ before) (w'.reverse ++ before') := by
        simp [SameEdge, hw, w']
      obtain ⟨os', scans, complete⟩ := ih edge'
      have again : relativeImport q ⟨before', w' ++ rewriteFrom (extend q ('.' :: e))
          (w.reverse ++ before).length s os⟩ = some ((v.1, extended ('.' :: e) v.2),
            ⟨w'.reverse ++ before', rewriteFrom (extend q ('.' :: e))
              (w.reverse ++ before).length s os⟩) := by
        refine (relativeImport_eq_some_iff hq).mpr ⟨⟨edge.apart.mp found.apart, found.leads,
          found.relative.extended hq (foreign_of_known he), ?_⟩, rfl⟩
        simp [w']
      exact ⟨_, .found (by simp) again scans,
        List.forall_mem_cons.mpr ⟨found.complete he, complete⟩⟩

end Found

section Strewn

variable {q q' : Char} {ending s t before before' : List Char}

theorem isRelative_of_strewn (hq : Style q') (he : Foreign ending) (h : Strewn ending q' s t) :
    isRelative t = true ↔ isRelative s = true := by
  have plain : q' ∉ ['.'] ∧ q' ∉ ['.', '.'] ∧ '/' ≠ q' := by rcases hq with rfl | rfl <;> decide
  obtain ⟨one, two, slash⟩ := plain
  rw [isRelative_iff, isRelative_iff]
  constructor
  · rintro (⟨b, hb⟩ | ⟨b, hb⟩)
    · obtain ⟨u, v, rfl, hu, -⟩ := h.split_back he.noSlash slash (u := ['.']) hb
      exact .inl ⟨v, by rw [hu.eq_of_notMem_right one]; rfl⟩
    · obtain ⟨u, v, rfl, hu, -⟩ := h.split_back he.noSlash slash (u := ['.', '.']) hb
      exact .inr ⟨v, by rw [hu.eq_of_notMem_right two]; rfl⟩
  · rintro (⟨b, hb⟩ | ⟨b, hb⟩)
    · obtain ⟨u, v, rfl, hu, -⟩ := h.split_char slash (u := ['.']) hb
      exact .inl ⟨v, by rw [hu.eq_of_notMem one]; rfl⟩
    · obtain ⟨u, v, rfl, hu, -⟩ := h.split_char slash (u := ['.', '.']) hb
      exact .inr ⟨v, by rw [hu.eq_of_notMem two]; rfl⟩

theorem relative_of_strewn (hq : Style q) (hq' : Style q') (he : Foreign ending)
    (h : Strewn ending q' s t) : Relative q t ↔ Relative q s := by
  have relative := isRelative_of_strewn hq' he h
  have noQuote := h.mem_iff (he.noQuote q hq)
  have oneLine := h.mem_iff he.oneLine
  exact ⟨fun r => ⟨relative.mp r.relative, noQuote.not.mp r.noQuote, oneLine.not.mp r.oneLine⟩,
    fun r => ⟨relative.mpr r.relative, noQuote.not.mpr r.noQuote, oneLine.not.mpr r.oneLine⟩⟩

theorem needs_of_strewn (hq : Style q') (he : Foreign ending) (h : Strewn ending q' s t) :
    needsExtension t = needsExtension s := by
  have plain : q' ≠ '/' ∧ q' ≠ '.' ∧ ∀ e ∈ knownExtensions, q' ∉ '.' :: e := by
    rcases hq with rfl | rfl <;> decide
  exact needsExtension_of_strewn h he.noSlash plain.1 plain.2.1 plain.2.2

theorem Import.back (hq : Style q) (hq' : Style q') (ne : q ≠ q') (he : Foreign ending)
    (h : Strewn ending q' s t) (edge : SameEdge before before') {lead specifier rest : List Char}
    (found : Import q before' t lead specifier rest) :
    ∃ specifier' rest', Import q before s lead specifier' rest' := by
  obtain ⟨u, v, rfl, hu, hv⟩ := h.split_back (he.noQuote q hq) ne found.text
  obtain ⟨specifier', rest', rfl, hs, -⟩ := hv.split_back (he.noQuote q hq) ne rfl
  rw [hu.eq_of_notMem_right (found.leads.notMem hq')]
  exact ⟨specifier', rest', edge.apart.mpr found.apart, found.leads,
    (relative_of_strewn hq hq' he hs).mp found.relative, rfl⟩

theorem Import.forth (hq : Style q) (hq' : Style q') (ne : q ≠ q') (he : Foreign ending)
    (h : Strewn ending q' s t) (edge : SameEdge before before') {lead specifier rest : List Char}
    (found : Import q before s lead specifier rest) :
    ∃ specifier' rest', Import q before' t lead specifier' rest' ∧
      Strewn ending q' specifier specifier' ∧ Strewn ending q' rest rest' := by
  obtain ⟨u, v, rfl, hu, hv⟩ := h.split_char ne found.text
  obtain ⟨specifier', rest', rfl, hs, hr⟩ := hv.split_char ne rfl
  rw [hu.eq_of_notMem (found.leads.notMem hq')]
  exact ⟨specifier', rest', ⟨edge.apart.mp found.apart, found.leads,
    (relative_of_strewn hq hq' he hs).mpr found.relative, rfl⟩, hs, hr⟩

theorem scans_foreign (hq : Style q) {w : List Char} (hw : 'f' ∉ w ∧ 'i' ∉ w)
    {os : List (Occurrence (List Char × List Char))}
    (rest : Scans (relativeImport q) (w.reverse ++ before) t os) :
    Scans (relativeImport q) before (w ++ t) os := by
  induction w generalizing before with
  | nil => exact rest
  | cons c w ih =>
      refine .pass (relativeImport_eq_none hq fun lead specifier behind found => ?_)
        (ih (by simp_all) (by simpa using rest))
      obtain ⟨d, l, rfl, hd, -⟩ := found.leads.head
      obtain ⟨rfl, -⟩ := List.cons.inj found.text
      rcases hd with rfl | rfl <;> simp at hw

/-- Imports in one quote style are found again when endings have been put in before quotes of
another style, and just those specifiers are complete that were. -/
theorem scans_of_strewn (hq : Style q) (hq' : Style q') (ne : q ≠ q') (he : Foreign ending)
    {os : List (Occurrence (List Char × List Char))} (h : Scans (relativeImport q) before s os)
    (strewn : Strewn ending q' s t) (edge : SameEdge before before')
    (complete : ∀ o ∈ os, needsExtension o.value.2 = false) :
    ∃ os', Scans (relativeImport q) before' t os' ∧
      ∀ o ∈ os', needsExtension o.value.2 = false := by
  induction h generalizing t before' with
  | done =>
      cases strewn
      exact ⟨[], .done before', by simp⟩
  | @pass before s c os refused rest ih =>
      cases strewn with
      | keep _ strewn =>
          obtain ⟨os', scans, done⟩ := ih strewn (show SameEdge (c :: before) (c :: before') from rfl)
            complete
          refine ⟨os', .pass (relativeImport_eq_none hq fun _ _ _ found => ?_) scans, done⟩
          obtain ⟨_, _, was⟩ := Import.back hq hq' ne he (.keep c strewn) edge found
          exact not_import_of_none hq refused was
      | put strewn =>
          -- The ending and its quote are passed, for no import starts in them.
          obtain ⟨os', scans, done⟩ := ih strewn
            (show SameEdge (q' :: before) (q' :: (ending.reverse ++ before')) from rfl) complete
          have plain : 'f' ∉ ending ++ [q'] ∧ 'i' ∉ ending ++ [q'] := by
            have noLead := he.noLead
            rcases hq' with rfl | rfl <;> simp [noLead]
          exact ⟨os', by simpa using scans_foreign hq plain (by simpa using scans), done⟩
  | @found before w s v os _ read rest ih =>
      obtain ⟨found, hw⟩ := import_of_found hq read
      obtain ⟨specifier, rest', again, hspecifier, hrest⟩ :=
        Import.forth hq hq' ne he strewn edge found
      let w' := v.1 ++ q :: (specifier ++ [q])
      have edge' : SameEdge (w.reverse ++ before) (w'.reverse ++ before') := by
        simp [SameEdge, hw, w']
      obtain ⟨whole, others⟩ := List.forall_mem_cons.mp complete
      obtain ⟨os', scans, done⟩ := ih hrest edge' others
      have text : t = w' ++ rest' := by simpa [w'] using again.text
      have read' : relativeImport q ⟨before', w' ++ rest'⟩ =
          some ((v.1, specifier), ⟨w'.reverse ++ before', rest'⟩) :=
        (relativeImport_eq_some_iff hq).mpr ⟨text ▸ again, rfl⟩
      rw [text]
      refine ⟨_, .found (by simp [w']) read' scans, List.forall_mem_cons.mpr ⟨?_, done⟩⟩
      rw [needs_of_strewn hq' he hspecifier]
      exact whole

end Strewn

/-- A character before which an ending is missing: the closing quote of a relative import whose
specifier is not complete. -/
structure Pending (q : Char) (front : List Char) (c : Char) : Prop where
  quote : c = q
  opened : ∃ b lead specifier, front = b ++ (lead ++ q :: specifier) ∧ Apart b.reverse ∧
    Lead lead ∧ Relative q specifier ∧ needsExtension specifier = true

/-- Nothing is left to do for the imports in one quote style. -/
def Complete (q : Char) (script : List Char) : Prop :=
  ∀ o ∈ (relativeImport q).occurrences script, needsExtension o.value.2 = false

section Rounds

variable {q q' : Char} {ending s t front front' : List Char}

theorem Pending.back (hq : Style q) (hq' : Style q') (ne : q ≠ q') (he : Foreign ending)
    (h : Strewn ending q' front front') {c : Char} (pending : Pending q front' c) :
    Pending q front c := by
  obtain ⟨rfl, b, lead, specifier, rfl, apart, leads, relative, needs⟩ := pending
  obtain ⟨d, l, rfl, hd, -⟩ := leads.head
  have start : d ∉ ending ∧ d ≠ q' := by
    have noLead := he.noLead
    rcases hd with rfl | rfl <;> rcases hq' with rfl | rfl <;> simp [noLead]
  obtain ⟨b', v, rfl, hb, hv⟩ := h.split_back start.1 start.2 rfl
  obtain ⟨l', specifier', rfl, hl, hs⟩ := hv.split_back (he.noQuote c hq) ne rfl
  have plain : q' ∉ l := fun h => leads.notMem hq' (List.mem_cons_of_mem d h)
  obtain rfl := hl.eq_of_notMem_right plain
  have edge : SameEdge b'.reverse b.reverse := by
    rw [SameEdge, List.head?_reverse, List.head?_reverse, hb.getLast?_eq]
  exact ⟨rfl, b', d :: l', specifier', rfl, edge.apart.mpr apart, leads,
    (relative_of_strewn hq hq' he hs).mp relative, (needs_of_strewn hq' he hs) ▸ needs⟩

theorem inserts_of_scans (hq : Style q) {before : List Char}
    {os : List (Occurrence (List Char × List Char))} (h : Scans (relativeImport q) before s os) :
    Inserts ending (Pending q) before.reverse s (rewriteFrom (extend q ending) before.length s os)
      (os.filter fun o => needsExtension o.value.2).length := by
  induction h with
  | done before => exact .nil before.reverse
  | @pass before s c os _ rest ih =>
      rw [rest.rewriteFrom_pass]
      exact .keep c (by simpa using ih)
  | @found before w s v os _ read _ ih =>
      obtain ⟨found, hw⟩ := import_of_found hq read
      rw [Scans.rewriteFrom_found, extend_found hw, extended]
      generalize rewriteFrom (extend q ending) (w.reverse ++ before).length s os = t at ih ⊢
      cases needs : needsExtension v.2 with
      | false =>
          have kept := Inserts.keep_append w (by simpa using ih)
          simpa [needs, hw] using kept
      | true =>
          have pending : Pending q (before.reverse ++ (v.1 ++ q :: v.2)) q :=
            ⟨rfl, before.reverse, v.1, v.2, rfl, by simpa using found.apart, found.leads,
              found.relative, needs⟩
          have behind : Inserts ending (Pending q) (before.reverse ++ (v.1 ++ q :: v.2) ++ [q]) s t
              (os.filter fun o => needsExtension o.value.2).length := by
            simpa [hw] using ih
          have put := Inserts.keep_append (v.1 ++ q :: v.2) (Inserts.put pending behind)
          simpa [needs, hw] using put

theorem extendImportsIn_inserts (hq : Style q) (ending s : List Char) :
    Inserts ending (Pending q) [] s (extendImportsIn q ending s).1 (extendImportsIn q ending s).2 :=
  inserts_of_scans hq (scans_occurrences (consumes_relativeImport hq) s)

theorem complete_of_scans (hq : Style q) {os : List (Occurrence (List Char × List Char))}
    (h : Scans (relativeImport q) [] s os) (done : ∀ o ∈ os, needsExtension o.value.2 = false) :
    Complete q s := by
  intro o ho
  rw [(scans_occurrences (consumes_relativeImport hq) s).unique h] at ho
  exact done o ho

theorem extendImportsIn_complete (hq : Style q) {e : List Char} (he : e ∈ knownExtensions)
    (s : List Char) : Complete q (extendImportsIn q ('.' :: e) s).1 := by
  have scans := scans_occurrences (consumes_relativeImport hq) s
  obtain ⟨os, again, complete⟩ := scans_rewritten hq he scans (show SameEdge [] [] from rfl)
  exact complete_of_scans hq again complete

theorem Complete.strewn (hq : Style q) (hq' : Style q') (ne : q ≠ q') (he : Foreign ending)
    (h : Strewn ending q' s t) (complete : Complete q s) : Complete q t := by
  have scans := scans_occurrences (consumes_relativeImport hq) s
  obtain ⟨os, again, done⟩ := scans_of_strewn hq hq' ne he scans h
    (show SameEdge [] [] from rfl) complete
  exact complete_of_scans hq again done

theorem Complete.extendImportsIn_eq (hq : Style q) (complete : Complete q s) (ending : List Char) :
    extendImportsIn q ending s = (s, 0) := by
  have kept : rewriteFrom (extend q ending) 0 s ((relativeImport q).occurrences s) = s :=
    (scans_occurrences (consumes_relativeImport hq) s).rewriteFrom_eq_self fun o ho => by
      rw [extend, complete o ho]
      rfl
  have none : ((relativeImport q).occurrences s).filter (fun o => needsExtension o.value.2) = [] :=
    List.filter_eq_nil_iff.mpr fun o ho => by simp [complete o ho]
  exact Prod.ext kept (congrArg List.length none)

end Rounds

/-- Adding a known ending to the imports of a script puts it in before closing quotes of incomplete
relative specifiers, as often as is counted, and leaves nothing to do for a second time. -/
theorem extendImports_converges (script : String) {e : List Char} (he : e ∈ knownExtensions) :
    ∃ out n, extendImports script (String.ofList ('.' :: e)) = (out, n) ∧
      Inserts ('.' :: e) (fun front c => Pending '\x27' front c ∨ Pending '"' front c) []
        script.toList out.toList n ∧
      extendImports out (String.ofList ('.' :: e)) = (out, 0) := by
  have single : Style '\x27' := .inl rfl
  have double : Style '"' := .inr rfl
  have foreign := foreign_of_known he
  let once := extendImportsIn '\x27' ('.' :: e) script.toList
  let twice := extendImportsIn '"' ('.' :: e) once.1
  have first := extendImportsIn_inserts single ('.' :: e) script.toList
  have second := extendImportsIn_inserts double ('.' :: e) once.1
  have settled : Complete '\x27' twice.1 :=
    (extendImportsIn_complete single he script.toList).strewn single double (by decide) foreign
      (second.strewn fun _ _ p => p.quote)
  have settled' : Complete '"' twice.1 := extendImportsIn_complete double he once.1
  refine ⟨String.ofList twice.1, once.2 + twice.2, ?_, ?_, ?_⟩
  · rw [extendImports, String.toList_ofList]
  · rw [String.toList_ofList]
    exact first.trans (by decide) (foreign.noQuote _ double) (fun _ _ p => p.quote)
      (fun _ _ p => p.quote) (fun _ _ _ h => Pending.back double single (by decide) foreign h)
      .nil second
  · simp only [extendImports, String.toList_ofList, settled.extendImportsIn_eq single,
      settled'.extendImportsIn_eq double]

/-- A specifier between double quotes that holds a clause between single ones. -/
theorem extendImports_nested : knownExtensions.contains "js".toList = true ∧
    extendImports "import x from \"./a from './b'\"" ".js" =
      ("import x from \"./a from './b.js'.js\"", 2) ∧
    extendImports "import x from \"./a from './b.js'.js\"" ".js" =
      ("import x from \"./a from './b.js'.js\"", 0) := by
  obtain ⟨out, n, found, -, again⟩ := extendImports_converges
    "import x from \"./a from './b'\"" (e := "js".toList) (by decide)
  have ending : String.ofList ('.' :: "js".toList) = ".js" := by decide
  rw [ending] at found again
  have once : extendImports "import x from \"./a from './b'\"" ".js" =
      ("import x from \"./a from './b.js'.js\"", 2) := by decide +kernel
  have same : ("import x from \"./a from './b.js'.js\"", 2) = (out, n) := once.symm.trans found
  obtain ⟨rfl, rfl⟩ := Prod.mk.inj same
  exact ⟨by decide, once, again⟩

end Script
end TestRepair
