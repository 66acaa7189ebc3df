import Mathlib.Data.List.Nodup
import TestRepair.Locator.Proposal

/-!
Which candidates a failing selector has, and in which order. The proposals stand tier by tier, so the
first of several with one selector is the one of the most trusted tier; exactly those firsts are kept
that are neither page roots nor the failing selector. The matches from which the recorded tier is
made have one entry an action, exact ones first and in recording order.
-/

namespace TestRepair

namespace ActionMatch

/-- The order of matches: an exact match has none before it but exact ones of earlier actions. -/
def Precedes (m n : ActionMatch) : Prop := n.exact = true → m.exact = true ∧ m.index < n.index

section

variable {t : Target} {i : Nat} {a : RecordedAction} {values : List String} {m : ActionMatch}

theorem exactMatch?_eq_some (h : exactMatch? t i a = some m) :
    t.isExact a = true ∧ m.index = i ∧ m.action = a ∧ m.exact = true := by
  unfold exactMatch? at h
  split at h
  · next exact =>
    cases h
    exact ⟨exact, rfl, rfl, rfl⟩
  · cases h

theorem weakMatch?_eq_some (h : weakMatch? t i a values = some m) :
    t.isExact a = false ∧ m.index = i ∧ m.action = a ∧ m.exact = false := by
  unfold weakMatch? at h
  split at h
  · cases h
  · next other =>
    simp only [Bool.or_eq_true, not_or, Bool.not_eq_true] at other
    cases h
    exact ⟨other.1.1, rfl, rfl, rfl⟩

end

/-- Matches of single actions, numbered as recorded, are in the order of their numbers. -/
theorem pairwise_index {f : RecordedAction × Nat → Option ActionMatch}
    (hf : ∀ a i m, f (a, i) = some m → m.index = i) (actions : List RecordedAction) :
    (actions.zipIdx.filterMap f).Pairwise fun m n => m.index < n.index := by
  have numbers : (actions.zipIdx.map (·.2)).Pairwise (· < ·) := by
    rw [List.zipIdx_map_snd]
    exact List.pairwise_lt_range'
  rw [List.pairwise_filterMap]
  apply (List.pairwise_map.mp numbers).imp
  intro e e' lt m hm m' hm'
  rw [hf e.1 e.2 m hm, hf e'.1 e'.2 m' hm']
  exact lt

section

variable (failing : String) (actions : List RecordedAction)

/-- The exact matches in recording order, and behind them the others. -/
theorem all_split : ∃ exact weak : List ActionMatch, all failing actions = exact ++ weak ∧
    (∀ m ∈ exact, actions[m.index]? = some m.action ∧ m.exact = true ∧
      (Target.ofSelector failing).isExact m.action = true) ∧
    (∀ m ∈ weak, actions[m.index]? = some m.action ∧ m.exact = false ∧
      (Target.ofSelector failing).isExact m.action = false) ∧
    (exact.Pairwise fun m n => m.index < n.index) ∧ (weak.map (·.index)).Nodup := by
  let t := Target.ofSelector failing
  let weak := actions.zipIdx.filterMap fun e => weakMatch? t e.2 e.1 e.1.attributes.values
  refine ⟨actions.zipIdx.filterMap fun e => exactMatch? t e.2 e.1,
    weak.mergeSort fun a b => decide (scoreOrder b.score ≤ scoreOrder a.score), by rw [all, allBy],
    ?_, ?_, ?_, ?_⟩
  · intro m hm
    obtain ⟨⟨a, i⟩, he, found⟩ := List.mem_filterMap.mp hm
    obtain ⟨exact, rfl, rfl, flag⟩ := exactMatch?_eq_some found
    exact ⟨List.mem_zipIdx_iff_getElem?.mp he, flag, exact⟩
  · intro m hm
    rw [(List.mergeSort_perm weak _).mem_iff] at hm
    obtain ⟨⟨a, i⟩, he, found⟩ := List.mem_filterMap.mp hm
    obtain ⟨exact, rfl, rfl, flag⟩ := weakMatch?_eq_some found
    exact ⟨List.mem_zipIdx_iff_getElem?.mp he, flag, exact⟩
  · exact pairwise_index (fun a i m found => (exactMatch?_eq_some found).2.1) actions
  · have sorted : weak.Pairwise fun m n => m.index < n.index :=
      pairwise_index (fun a i m found => (weakMatch?_eq_some found).2.1) actions
    rw [((List.mergeSort_perm weak _).map _).nodup_iff]
    exact List.pairwise_map.mpr (sorted.imp fun lt => Nat.ne_of_lt lt)

theorem action_of_mem_all {m : ActionMatch} (h : m ∈ all failing actions) :
    actions[m.index]? = some m.action := by
  obtain ⟨exact, weak, split, hexact, hweak, -, -⟩ := all_split failing actions
  rw [split, List.mem_append] at h
  cases h with
  | inl h => exact (hexact m h).1
  | inr h => exact (hweak m h).1

theorem precedes_all : (all failing actions).Pairwise Precedes := by
  obtain ⟨exact, weak, split, hexact, hweak, sorted, -⟩ := all_split failing actions
  rw [split, List.pairwise_append]
  refine ⟨?_, ?_, ?_⟩
  · apply sorted.imp_of_mem
    intro m n hm _ lt _
    exact ⟨(hexact m hm).2.1, lt⟩
  · apply List.pairwise_of_forall_mem_list
    intro m _ n hn flag
    rw [(hweak n hn).2.1] at flag
    cases flag
  · intro m _ n hn flag
    rw [(hweak n hn).2.1] at flag
    cases flag

/-- No action is matched twice. -/
theorem nodup_index_all : ((all failing actions).map (·.index)).Nodup := by
  obtain ⟨exact, weak, split, hexact, hweak, sorted, once⟩ := all_split failing actions
  rw [split, List.map_append, List.nodup_append]
  refine ⟨List.pairwise_map.mpr (sorted.imp fun lt => Nat.ne_of_lt lt), once, ?_⟩
  intro i hi j hj same
  obtain ⟨m, hm, rfl⟩ := List.mem_map.mp hi
  obtain ⟨n, hn, rfl⟩ := List.mem_map.mp hj
  have action : some m.action = some n.action := by
    rw [← (hexact m hm).1, ← (hweak n hn).1, same]
  have differs := (hweak n hn).2.2
  rw [← Option.some.inj action, (hexact m hm).2.2] at differs
  cases differs

end

end ActionMatch

namespace Candidate

open Text

/-- The first of the candidates with its selector. -/
def FirstIn (cs : List Candidate) (c : Candidate) : Prop :=
  ∃ front rest, cs = front ++ c :: rest ∧ ∀ d ∈ front, d.selector ≠ c.selector

theorem firstIn_cons {d c : Candidate} {cs : List Candidate} :
    FirstIn (d :: cs) c ↔ c = d ∨ d.selector ≠ c.selector ∧ FirstIn cs c := by
  constructor
  · rintro ⟨front, rest, split, other⟩
    cases front with
    | nil => exact .inl (List.cons.inj split).1.symm
    | cons e front =>
        obtain ⟨rfl, rfl⟩ := List.cons.inj split
        exact .inr ⟨other d List.mem_cons_self, front, rest, rfl,
          fun e he => other e (List.mem_cons_of_mem _ he)⟩
  · intro h
    cases h with
    | inl h =>
        subst h
        exact ⟨[], cs, rfl, by simp⟩
    | inr h =>
        obtain ⟨ne, front, rest, rfl, other⟩ := h
        exact ⟨d :: front, rest, rfl, List.forall_mem_cons.mpr ⟨ne, other⟩⟩

theorem FirstIn.mem {cs : List Candidate} {c : Candidate} (h : FirstIn cs c) : c ∈ cs := by
  obtain ⟨front, rest, rfl, -⟩ := h
  exact List.mem_append_right _ List.mem_cons_self

theorem exists_firstIn {cs : List Candidate} {c : Candidate} (h : c ∈ cs) :
    ∃ d, FirstIn cs d ∧ d.selector = c.selector := by
  induction cs with
  | nil => cases h
  | cons e cs ih =>
      by_cases same : e.selector = c.selector
      · exact ⟨e, firstIn_cons.mpr (.inl rfl), same⟩
      · have later : c ∈ cs := by
          cases h with
          | head => exact absurd rfl same
          | tail _ h => exact h
        obtain ⟨d, first, hd⟩ := ih later
        exact ⟨d, firstIn_cons.mpr (.inr ⟨by rwa [hd], first⟩), hd⟩

/-- Whether a candidate is dropped depends on its selector, so dropping keeps the firsts. -/
theorem firstIn_filter {cs : List Candidate} {c : Candidate} {p : Candidate → Bool}
    (hp : ∀ d, d.selector = c.selector → p d = p c) :
    FirstIn (cs.filter p) c ↔ p c = true ∧ FirstIn cs c := by
  induction cs with
  | nil =>
      constructor
      · intro h
        cases h.mem
      · intro h
        cases h.2.mem
  | cons d cs ih =>
      rw [firstIn_cons]
      cases keep : p d with
      | true =>
          rw [List.filter_cons_of_pos keep, firstIn_cons, ih]
          constructor
          · rintro (rfl | ⟨ne, hc, first⟩)
            · exact ⟨keep, .inl rfl⟩
            · exact ⟨hc, .inr ⟨ne, first⟩⟩
          · rintro ⟨hc, rfl | ⟨ne, first⟩⟩
            · exact .inl rfl
            · exact .inr ⟨ne, hc, first⟩
      | false =>
          rw [List.filter_cons_of_neg (by rw [keep]; exact Bool.false_ne_true), ih]
          have other (hc : p c = true) : d.selector ≠ c.selector := by
            intro same
            rw [← hp d same, keep] at hc
            cases hc
          constructor
          · rintro ⟨hc, first⟩
            exact ⟨hc, .inr ⟨other hc, first⟩⟩
          · rintro ⟨hc, rfl | ⟨-, first⟩⟩
            · exact absurd rfl (other hc)
            · exact ⟨hc, first⟩

section

variable {seen : List String} {cs : List Candidate} {c : Candidate}

theorem firstOfEach_sublist (seen : List String) (cs : List Candidate) :
    (firstOfEach seen cs).Sublist cs := by
  induction cs generalizing seen with
  | nil => exact .slnil
  | cons d cs ih =>
      unfold firstOfEach
      split
      · exact .cons d (ih seen)
      · exact .cons_cons d (ih (d.selector :: seen))

theorem mem_firstOfEach_iff : c ∈ firstOfEach seen cs ↔ c.selector ∉ seen ∧ FirstIn cs c := by
  induction cs generalizing seen with
  | nil =>
      constructor
      · intro h
        cases h
      · intro h
        cases h.2.mem
  | cons d cs ih =>
      rw [firstIn_cons]
      unfold firstOfEach
      split
      · next known =>
        have known : d.selector ∈ seen := by simpa using known
        rw [ih]
        constructor
        · rintro ⟨fresh, first⟩
          exact ⟨fresh, .inr ⟨fun same => fresh (same ▸ known), first⟩⟩
        · rintro ⟨fresh, rfl | ⟨-, first⟩⟩
          · exact absurd known fresh
          · exact ⟨fresh, first⟩
      · next fresh =>
        have fresh : d.selector ∉ seen := by simpa using fresh
        rw [List.mem_cons, ih, List.mem_cons, not_or]
        constructor
        · rintro (rfl | ⟨⟨ne, new⟩, first⟩)
          · exact ⟨fresh, .inl rfl⟩
          · exact ⟨new, .inr ⟨Ne.symm ne, first⟩⟩
        · rintro ⟨new, rfl | ⟨ne, first⟩⟩
          · exact .inl rfl
          · exact .inr ⟨⟨Ne.symm ne, new⟩, first⟩

theorem nodup_firstOfEach (seen : List String) (cs : List Candidate) :
    ((firstOfEach seen cs).map (·.selector)).Nodup := by
  induction cs generalizing seen with
  | nil => exact List.nodup_nil
  | cons d cs ih =>
      unfold firstOfEach
      split
      · exact ih seen
      · rw [List.map_cons, List.nodup_cons]
        refine ⟨?_, ih (d.selector :: seen)⟩
        intro again
        obtain ⟨e, he, same⟩ := List.mem_map.mp again
        exact (mem_firstOfEach_iff.mp he).1 (same ▸ List.mem_cons_self)

end

section

variable {failing : String} {found : List ActionMatch} {limit : Nat} {c : Candidate}

theorem tier_of_mem_ofLog {log : String} (h : c ∈ Suggestion.ofLog log) : c.tier = .suggestion := by
  obtain ⟨o, -, read⟩ := List.mem_filterMap.mp h
  obtain ⟨s, -, rfl⟩ := Option.map_eq_some_iff.mp read
  rfl

theorem tier_of_mem_subsets (h : c ∈ subsets failing) : c.tier = .subset := by
  unfold subsets at h
  split at h
  · cases h
  · split at h
    · cases h
    · obtain ⟨s, -, rfl⟩ := List.mem_map.mp h
      rfl

theorem tier_of_mem_recorded (h : c ∈ recorded failing found) : c.tier = .recorded := by
  obtain ⟨m, -, best⟩ := List.mem_filterMap.mp h
  obtain ⟨s, -, rfl⟩ := Option.map_eq_some_iff.mp best
  rfl

theorem tier_of_mem_visibleTexts (h : c ∈ visibleTexts limit found) : c.tier = .visibleText := by
  obtain ⟨m, -, short⟩ := List.mem_filterMap.mp h
  obtain ⟨s, -, rfl⟩ := Option.map_eq_some_iff.mp short
  rfl

end

/-- Behind a candidate of a tier there is none of a more trusted one. -/
def Descending (cs : List Candidate) : Prop := cs.Pairwise fun c d => c.tier.rank ≤ d.tier.rank

/-- The candidates of one more tier go behind those of the tiers above it. -/
theorem Descending.append {cs ds : List Candidate} {t : CandidateTier} (h : Descending cs)
    (above : ∀ c ∈ cs, c.tier.rank ≤ t.rank) (ht : ∀ d ∈ ds, d.tier = t) : Descending (cs ++ ds) := by
  refine List.pairwise_append.mpr ⟨h, ?_, ?_⟩
  · apply List.pairwise_of_forall_mem_list
    intro c hc d hd
    have same : c.tier = d.tier := (ht c hc).trans (ht d hd).symm
    exact Nat.le_of_eq (congrArg CandidateTier.rank same)
  · intro c hc d hd
    rw [ht d hd]
    exact above c hc

section

variable (failing : String) (actions : List RecordedAction) (log : String) (limit : Nat)

theorem descending_proposals : Descending (proposals failing actions log limit) := by
  let found := ActionMatch.all failing actions
  have suggested : ∀ c ∈ Suggestion.ofLog log, c.tier = .suggestion := fun c => tier_of_mem_ofLog
  have parts : ∀ c ∈ subsets failing, c.tier = .subset := fun c => tier_of_mem_subsets
  have known : ∀ c ∈ recorded failing found, c.tier = .recorded := fun c => tier_of_mem_recorded
  have shown : ∀ c ∈ visibleTexts limit found, c.tier = .visibleText :=
    fun c => tier_of_mem_visibleTexts
  have first : Descending (Suggestion.ofLog log) :=
    Descending.append .nil (by simp) suggested
  have second := first.append (t := .subset) (fun c hc => by rw [suggested c hc]; decide) parts
  have third := second.append (t := .recorded) (fun c hc => by
    cases List.mem_append.mp hc with
    | inl hc => rw [suggested c hc]; decide
    | inr hc => rw [parts c hc]; decide) known
  exact third.append (t := .visibleText) (fun c _ => by cases c.tier <;> decide) shown

end

/-- The candidate that a match adds to the recorded tier, if one was recorded. -/
def alternative? (failing : String) (m : ActionMatch) : Option Candidate :=
  (m.action.bestSelector? failing).map fun selector =>
    { selector, tier := .recorded, score := some m.score, reason := some m.reason }

/-- A candidate of the recorded tier is what was recorded for the action of a match. -/
structure RecordedFor (failing : String) (c : Candidate) (m : ActionMatch) : Prop where
  selector : m.action.bestSelector? failing = some c.selector
  score : c.score = some m.score
  reason : c.reason = some m.reason

/-- A candidate of the text tier shows the text of a matched action. -/
structure TextOf (limit : Nat) (c : Candidate) (m : ActionMatch) (text : List Char) : Prop where
  shown : m.action.element.text.map (fun s => trim s.toList) = some text
  nonempty : text ≠ []
  oneLine : '\n' ∉ text
  short : text.length ≤ limit
  selector : c.selector = String.ofList ("text=\"".toList ++ Suggestion.escapeQuote '"' text ++ ['"'])

/-- What each tier proposes for a failing selector. -/
def ofTier (failing : String) (actions : List RecordedAction) (log : String) (limit : Nat) :
    CandidateTier → List Candidate
  | .suggestion => Suggestion.ofLog log
  | .subset => subsets failing
  | .recorded => recorded failing (ActionMatch.all failing actions)
  | .visibleText => visibleTexts limit (ActionMatch.all failing actions)

/-- The candidates for a failing selector, told by what each tier proposes and by the matched actions. -/
structure Pool (failing : String) (actions : List RecordedAction) (log : String) (limit : Nat)
    (cs : List Candidate) : Prop where
  distinct : (cs.map (·.selector)).Nodup
  proper : ∀ c ∈ cs, Selector.isPageRoot c.selector = false ∧ c.selector ≠ failing
  descending : Descending cs
  /-- The candidates come from the tiers that they name, in the order in which these propose them. -/
  proposed : ∀ tier, (cs.filter (·.tier = tier)).Sublist (ofTier failing actions log limit tier)
  /-- No proposal of a tier is lost, and of several with one selector none is of a more trusted tier than
  the one that is kept. -/
  kept : ∀ tier, ∀ p ∈ ofTier failing actions log limit tier,
    Selector.isPageRoot p.selector = false → p.selector ≠ failing →
    ∃ c ∈ cs, c.selector = p.selector ∧ ∀ tier', ∀ q ∈ ofTier failing actions log limit tier',
      q.selector = p.selector → c.tier.rank ≤ tier'.rank
  /-- The recorded tier has one candidate each for some of the matched actions, in their order. -/
  recorded : ∃ ms : List ActionMatch, ms.Sublist (ActionMatch.all failing actions) ∧
    (ms.map (·.index)).Nodup ∧ (∀ m ∈ ms, actions[m.index]? = some m.action) ∧
    ms.Pairwise ActionMatch.Precedes ∧
    List.Forall₂ (RecordedFor failing) (cs.filter (·.tier = .recorded)) ms
  visible : ∀ c ∈ cs, c.tier = .visibleText →
    ∃ m ∈ ActionMatch.all failing actions, ∃ text, TextOf limit c m text

theorem recordedFor_of_alternative? {failing : String} {m : ActionMatch} {c : Candidate}
    (h : alternative? failing m = some c) : RecordedFor failing c m := by
  obtain ⟨s, best, rfl⟩ := Option.map_eq_some_iff.mp h
  exact ⟨best, rfl, rfl⟩

/-- Matches add one candidate each, or none. -/
theorem recorded_matches (failing : String) (ms : List ActionMatch) :
    List.Forall₂ (RecordedFor failing) (recorded failing ms)
      (ms.filter fun m => (alternative? failing m).isSome) := by
  change List.Forall₂ _ (ms.filterMap (alternative? failing)) _
  induction ms with
  | nil => exact .nil
  | cons m ms ih =>
      cases h : alternative? failing m with
      | none =>
          rw [List.filterMap_cons_none h, List.filter_cons_of_neg (by rw [h]; exact Bool.false_ne_true)]
          exact ih
      | some c =>
          rw [List.filterMap_cons_some h, List.filter_cons_of_pos (by rw [h]; rfl)]
          exact .cons (recordedFor_of_alternative? h) ih

theorem isUsable_iff {failing : String} {c : Candidate} : isUsable failing c = true ↔
    c.selector ≠ failing ∧ Selector.isPageRoot c.selector = false := by
  simp [isUsable]

theorem FirstIn.rank_le {cs : List Candidate} {c : Candidate} (h : FirstIn cs c)
    (sorted : Descending cs) {q : Candidate} (hq : q ∈ cs) (same : q.selector = c.selector) :
    c.tier.rank ≤ q.tier.rank := by
  obtain ⟨front, rest, rfl, other⟩ := h
  cases List.mem_append.mp hq with
  | inl hq => exact absurd same (other q hq)
  | inr hq =>
      cases hq with
      | head => exact Nat.le_refl _
      | tail _ hq =>
          exact (List.pairwise_cons.mp (List.pairwise_append.mp sorted).2.1).1 q hq

theorem shortText?_eq_some {limit : Nat} {m : ActionMatch} {text : List Char}
    (h : shortText? limit m = some text) :
    m.action.element.text.map (fun s => trim s.toList) = some text ∧
      text ≠ [] ∧ '\n' ∉ text ∧ text.length ≤ limit := by
  unfold shortText? at h
  cases shown : m.action.element.text with
  | none => simp [shown] at h
  | some s =>
      simp only [shown, Option.bind_eq_bind, Option.bind_some, Option.ite_none_left_eq_some,
        Option.pure_def, Option.some.injEq] at h
      obtain ⟨fits, rfl⟩ := h
      simp only [Bool.or_eq_true, not_or, List.isEmpty_iff, List.contains_iff_mem, decide_eq_true_eq,
        Nat.not_lt] at fits
      exact ⟨rfl, fits.1.1, fits.1.2, fits.2⟩

theorem mem_visibleTexts {limit : Nat} {c : Candidate} {found : List ActionMatch}
    (h : c ∈ visibleTexts limit found) : ∃ m ∈ found, ∃ text, TextOf limit c m text := by
  obtain ⟨m, hm, made⟩ := List.mem_filterMap.mp h
  obtain ⟨text, short, rfl⟩ := Option.map_eq_some_iff.mp made
  obtain ⟨shown, nonempty, oneLine, fits⟩ := shortText?_eq_some short
  exact ⟨m, hm, text, shown, nonempty, oneLine, fits, rfl⟩

section

variable (failing : String) (actions : List RecordedAction) (log : String) (limit : Nat)

/-- The candidates are the first usable proposals of each selector. -/
theorem mem_all_iff {c : Candidate} : c ∈ all failing actions log limit ↔
    isUsable failing c = true ∧ FirstIn (proposals failing actions log limit) c := by
  have bySelector : ∀ d : Candidate, d.selector = c.selector →
      isUsable failing d = isUsable failing c := by
    intro d same
    rw [isUsable, isUsable, same]
  rw [all, mem_firstOfEach_iff, firstIn_filter bySelector]
  simp

theorem all_sublist : (all failing actions log limit).Sublist (proposals failing actions log limit) :=
  (firstOfEach_sublist [] _).trans List.filter_sublist

theorem tier_of_mem_ofTier {tier : CandidateTier} {c : Candidate}
    (h : c ∈ ofTier failing actions log limit tier) : c.tier = tier := by
  cases tier with
  | suggestion => exact tier_of_mem_ofLog h
  | subset => exact tier_of_mem_subsets h
  | recorded => exact tier_of_mem_recorded h
  | visibleText => exact tier_of_mem_visibleTexts h

/-- The proposals are those of the tiers, one tier after the other. -/
theorem proposals_eq : proposals failing actions log limit =
    CandidateTier.all.flatMap (ofTier failing actions log limit) := by
  simp only [proposals, CandidateTier.all, List.flatMap_cons, List.flatMap_nil, List.append_nil,
    List.append_assoc, ofTier]

theorem mem_proposals_iff {c : Candidate} : c ∈ proposals failing actions log limit ↔
    c ∈ ofTier failing actions log limit c.tier := by
  have every : ∀ tier, tier ∈ CandidateTier.all := fun tier => by cases tier <;> decide
  rw [proposals_eq, List.mem_flatMap]
  constructor
  · rintro ⟨tier, -, h⟩
    rwa [tier_of_mem_ofTier failing actions log limit h]
  · exact fun h => ⟨c.tier, every c.tier, h⟩

/-- Of the proposals, those of a tier are what it proposes. -/
theorem filter_proposals (tier : CandidateTier) :
    (proposals failing actions log limit).filter (·.tier = tier) =
      ofTier failing actions log limit tier := by
  have own (other : CandidateTier) :
      (ofTier failing actions log limit other).filter (·.tier = tier) =
        if other = tier then ofTier failing actions log limit other else [] := by
    split
    · next same =>
      refine List.filter_eq_self.mpr fun c hc => ?_
      simpa using (tier_of_mem_ofTier failing actions log limit hc).trans same
    · next differs =>
      refine List.filter_eq_nil_iff.mpr fun c hc => ?_
      rw [tier_of_mem_ofTier failing actions log limit hc]
      simpa using differs
  rw [proposals_eq, List.filter_flatMap]
  simp only [own]
  cases tier <;> simp [CandidateTier.all]

theorem recorded_all : ∃ ms : List ActionMatch, ms.Sublist (ActionMatch.all failing actions) ∧
    List.Forall₂ (RecordedFor failing)
      ((all failing actions log limit).filter (·.tier = .recorded)) ms := by
  have kept := (all_sublist failing actions log limit).filter (·.tier = .recorded)
  rw [filter_proposals] at kept
  obtain ⟨ms, sub, made⟩ := List.sublist_filterMap_iff.mp kept
  rw [made]
  exact ⟨_, List.filter_sublist.trans sub, recorded_matches failing ms⟩

/-- For every failing selector, recording, log and limit: the candidates are distinct, proper and in
the order of trust, nothing that a tier proposes is lost, and each comes from where its tier says. -/
theorem pool_all : Pool failing actions log limit (all failing actions log limit) where
  distinct := nodup_firstOfEach [] _
  proper c hc := (isUsable_iff.mp ((mem_all_iff failing actions log limit).mp hc).1).symm
  descending := (descending_proposals failing actions log limit).sublist
    (all_sublist failing actions log limit)
  proposed tier := by
    rw [← filter_proposals]
    exact (all_sublist failing actions log limit).filter _
  kept tier p hp proper other := by
    have mem {tier : CandidateTier} {q : Candidate}
        (hq : q ∈ ofTier failing actions log limit tier) :
        q ∈ proposals failing actions log limit ∧ q.tier = tier := by
      have same := tier_of_mem_ofTier failing actions log limit hq
      exact ⟨(mem_proposals_iff failing actions log limit).mpr (same ▸ hq), same⟩
    obtain ⟨c, first, same⟩ := exists_firstIn (mem hp).1
    have usable : isUsable failing c = true := isUsable_iff.mpr (same ▸ ⟨other, proper⟩)
    refine ⟨c, (mem_all_iff failing actions log limit).mpr ⟨usable, first⟩, same, ?_⟩
    intro tier' q hq hs
    obtain ⟨hq', rfl⟩ := mem hq
    exact first.rank_le (descending_proposals failing actions log limit) hq' (hs.trans same.symm)
  recorded := by
    obtain ⟨ms, sub, made⟩ := recorded_all failing actions log limit
    exact ⟨ms, sub, (ActionMatch.nodup_index_all failing actions).sublist (sub.map _),
      fun m hm => ActionMatch.action_of_mem_all failing actions (sub.subset hm),
      (ActionMatch.precedes_all failing actions).sublist sub, made⟩
  visible c hc tier := by
    have proposed := (all_sublist failing actions log limit).subset hc
    rw [mem_proposals_iff, tier] at proposed
    exact mem_visibleTexts proposed

end

/-- A button as it was recorded. -/
def signInButton : RecordedAction where
  kind := .click
  element := {
    tag := "button"
    text := some "Sign in"
    markup := some "<button type=\"submit\" data-automation-id=\"signInButton\">Sign in</button>" }
  selectors := { byAttribute := ["[data-automation-id='signInButton']"] }

/-- The button has candidates of every tier, and what two tiers propose is kept in the first of them. -/
theorem pool_signInButton :
    let failing := "button[type='submit'][data-automation-id='signInButton']"
    let log := "strict mode violation: aka locator('button')"
    (all failing [signInButton] log 50).map (fun c => (c.selector, c.tier)) =
      [("button", .suggestion), ("button[type='submit']", .subset),
        ("button[data-automation-id='signInButton']", .subset),
        ("[data-automation-id='signInButton']", .recorded), ("text=\"Sign in\"", .visibleText)] ∧
      Pool failing [signInButton] log 50 (all failing [signInButton] log 50) := by
  refine ⟨?_, pool_all _ _ _ _⟩
  decide +kernel

end Candidate
end TestRepair
