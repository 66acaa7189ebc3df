import TestRepair.Proofs.Locator.Quoting
import TestRepair.Proofs.Text.Reading

/-!
Which of the selectors in a log is reported, and when it is one that the log only offers. The reading
with the least place counts, if it is neither a page root nor a builder call behind the word `aka`. A
quoted selector counts behind that word as well.
-/

namespace TestRepair
namespace FailingLocator

open Text Recogniser

/-- A selector that is read in a log. -/
structure Reading where
  place : Nat
  /-- What stands in front of the phrase or the call, nearest character first. -/
  before : List Char
  selector : List Char
  /-- Whether the selector is a builder call; all others are quoted. -/
  call : Bool
  deriving DecidableEq

namespace Reading

/-- The selector means less than the whole page. -/
def Proper (r : Reading) : Prop := Selector.isPageRoot (String.ofList r.selector) = false

/-- The reading counts: it is proper, and no builder call behind `aka`. -/
structure Eligible (r : Reading) : Prop where
  proper : r.Proper
  admitted : r.call = true → isOffered r.before = false

def entry (r : Reading) : Nat × List Char := (r.place, r.selector)

end Reading

def quotedReadings (log : List Char) : List Reading :=
  quotedShapes.flatMap fun shape =>
    (shape.occurrences log).map fun o =>
      ⟨o.value.1.offset, o.start.before, unescape o.value.2, false⟩

def callReadings (log : List Char) : List Reading :=
  (BuilderCall.call.occurrences log).map fun o => ⟨o.start.offset, o.start.before, o.text, true⟩

def readings (log : List Char) : List Reading := quotedReadings log ++ callReadings log

/-- The word `aka` stands directly in front, but for blanks. -/
def Offered (before : List Char) : Prop :=
  ∃ w a, before = w ++ ("aka".toList.reverse ++ a) ∧ Blank w ∧ Apart a

/-- No other reading that counts comes before; at one place a quoted reading precedes a call. -/
structure Earliest (log : List Char) (r : Reading) : Prop where
  mem : r ∈ readings log
  eligible : r.Eligible
  least : ∀ r' ∈ readings log, r'.Eligible →
    r.place < r'.place ∨ r.place = r'.place ∧ (r.call = true → r'.call = true)

theorem isOffered_of_offered {before : List Char} (h : Offered before) :
    isOffered before = true := by
  obtain ⟨w, a, rfl, hw, -⟩ := h
  rw [isOffered, List.dropWhile_append_of_pos hw, startsWith_iff]
  exact ⟨a, rfl⟩

section Places

variable {log : List Char} {r r' : Reading} {f f' : Nat × List Char}

/-- At one place the quoted selectors agree, whatever phrases stand in front of them. -/
theorem quoted_inj (h : f ∈ quoted log) (h' : f' ∈ quoted log) (same : f.1 = f'.1) :
    f.2 = f'.2 := by
  obtain ⟨u, q, t, body, rest, -, text, place, read, value⟩ := quoted_split h
  obtain ⟨u', q', t', body', rest', -, text', place', read', value'⟩ := quoted_split h'
  have length : u.length = u'.length := by omega
  obtain ⟨rfl, tail⟩ := List.append_inj (text.symm.trans text') length
  obtain ⟨rfl, rfl⟩ := List.cons.inj tail
  obtain ⟨rfl, -⟩ := Prod.mk.inj (Option.some.inj (read.symm.trans read'))
  rw [value, value']

/-- At one place only one builder call starts. -/
theorem calls_inj (h : f ∈ calls log) (h' : f' ∈ calls log) (same : f.1 = f'.1) : f.2 = f'.2 := by
  obtain ⟨o, ho, rfl⟩ := List.mem_map.mp h
  obtain ⟨o', ho', rfl⟩ := List.mem_map.mp h'
  obtain ⟨x, y, text, start, read⟩ := mem_occurrences (List.mem_filter.mp ho).1
  obtain ⟨x', y', text', start', read'⟩ := mem_occurrences (List.mem_filter.mp ho').1
  have length : x.length = x'.length := by simpa [start, start', Cursor.offset] using same
  obtain ⟨rfl, rfl⟩ := List.append_inj (text.symm.trans text') length
  rw [start] at read
  rw [start', read] at read'
  obtain ⟨-, stop⟩ := Prod.mk.inj (Option.some.inj read')
  simp only [Occurrence.text, start, start', stop]

theorem mem_quoted_iff : f ∈ quoted log ↔ ∃ r ∈ readings log, r.call = false ∧ r.entry = f := by
  simp only [quoted, readings, quotedReadings, callReadings, List.mem_append, List.mem_flatMap,
    List.mem_map]
  constructor
  · rintro ⟨shape, hs, o, ho, rfl⟩
    exact ⟨_, .inl ⟨shape, hs, o, ho, rfl⟩, rfl, rfl⟩
  · rintro ⟨_, ⟨shape, hs, o, ho, rfl⟩ | ⟨o, ho, rfl⟩, kind, rfl⟩
    · exact ⟨shape, hs, o, ho, rfl⟩
    · cases kind

theorem mem_calls_iff : f ∈ calls log ↔
    ∃ r ∈ readings log, r.call = true ∧ isOffered r.before = false ∧ r.entry = f := by
  simp only [calls, readings, quotedReadings, callReadings, List.mem_append, List.mem_flatMap,
    List.mem_map, List.mem_filter, Bool.not_eq_true']
  constructor
  · rintro ⟨o, ⟨ho, free⟩, rfl⟩
    exact ⟨_, .inr ⟨o, ho, rfl⟩, rfl, free, rfl⟩
  · rintro ⟨_, ⟨shape, hs, o, ho, rfl⟩ | ⟨o, ho, rfl⟩, kind, free, rfl⟩
    · cases kind
    · exact ⟨o, ⟨ho, free⟩, rfl⟩

end Places

section First

variable {log : List Char} {r : Reading} {f : Nat × List Char}

/-- The test that picks the reported selector. -/
def isProper (f : Nat × List Char) : Bool := !Selector.isPageRoot (String.ofList f.2)

theorem isProper_entry : isProper r.entry = true ↔ r.Proper := by
  simp [isProper, Reading.entry, Reading.Proper]

theorem eligible_of_entry (hr : r ∈ readings log) (h : r.Eligible) :
    r.entry ∈ quoted log ++ calls log := by
  cases kind : r.call with
  | false => exact List.mem_append_left _ (mem_quoted_iff.mpr ⟨r, hr, kind, rfl⟩)
  | true => exact List.mem_append_right _ (mem_calls_iff.mpr ⟨r, hr, kind, h.admitted kind, rfl⟩)

theorem exists_eligible (hf : f ∈ quoted log ++ calls log) (proper : isProper f = true) :
    ∃ r ∈ readings log, r.Eligible ∧ r.entry = f := by
  rcases List.mem_append.mp hf with hf | hf
  · obtain ⟨r, hr, kind, rfl⟩ := mem_quoted_iff.mp hf
    exact ⟨r, hr, ⟨isProper_entry.mp proper, by simp [kind]⟩, rfl⟩
  · obtain ⟨r, hr, -, free, rfl⟩ := mem_calls_iff.mp hf
    exact ⟨r, hr, ⟨isProper_entry.mp proper, fun _ => free⟩, rfl⟩

theorem find?_at {l : List (Nat × List Char)} (inj : ∀ g ∈ l, g.1 = f.1 → g.2 = f.2) (hf : f ∈ l)
    (proper : isProper f = true) :
    l.find? (fun g => isProper g && decide (g.1 = f.1)) = some f := by
  cases found : l.find? fun g => isProper g && decide (g.1 = f.1) with
  | none =>
      have refused := List.find?_eq_none.mp found f hf
      simp [proper] at refused
  | some g =>
      have near : isProper g = true ∧ g.1 = f.1 := by simpa using List.find?_some found
      rw [Prod.ext near.2 (inj g (List.mem_of_find?_eq_some found) near.2)]

/-- What is picked at the place of the earliest reading: an offered selector before a call. -/
theorem earliest_of_find? (least : ∀ g ∈ quoted log ++ calls log, isProper g = true → f.1 ≤ g.1)
    (first : ((quoted log).find? fun g => isProper g && decide (g.1 = f.1)).or
      ((calls log).find? fun g => isProper g && decide (g.1 = f.1)) = some f) :
    ∃ r, Earliest log r ∧ r.entry = f := by
  have before {r' : Reading} (hr' : r' ∈ readings log) (h' : r'.Eligible) : f.1 ≤ r'.place :=
    least _ (eligible_of_entry hr' h') (isProper_entry.mpr h'.proper)
  cases hq : (quoted log).find? fun g => isProper g && decide (g.1 = f.1) with
  | some g =>
      rw [hq] at first
      obtain rfl : g = f := Option.some.inj first
      obtain ⟨r, hr, kind, rfl⟩ := mem_quoted_iff.mp (List.mem_of_find?_eq_some hq)
      have proper : r.Proper := isProper_entry.mp (by simpa using (List.find?_some hq))
      refine ⟨r, ⟨hr, ⟨proper, by simp [kind]⟩, fun r' hr' h' => ?_⟩, rfl⟩
      exact (Nat.lt_or_eq_of_le (before hr' h')).imp_right fun same => ⟨same, by simp [kind]⟩
  | none =>
      rw [hq, Option.none_or] at first
      obtain ⟨r, hr, kind, free, rfl⟩ := mem_calls_iff.mp (List.mem_of_find?_eq_some first)
      have proper : r.Proper := isProper_entry.mp (by simpa using (List.find?_some first))
      refine ⟨r, ⟨hr, ⟨proper, fun _ => free⟩, fun r' hr' h' => ?_⟩, rfl⟩
      refine (Nat.lt_or_eq_of_le (before hr' h')).imp_right fun same => ⟨same, fun _ => ?_⟩
      by_contra quote
      have there := mem_quoted_iff.mpr ⟨r', hr', by simpa using quote, rfl⟩
      have refused := List.find?_eq_none.mp hq _ there
      simp [isProper_entry.mpr h'.proper, show r'.entry.1 = r.entry.1 from same.symm] at refused

theorem find?_of_earliest (earliest : Earliest log r) :
    ((quoted log).find? fun g => isProper g && decide (g.1 = r.entry.1)).or
      ((calls log).find? fun g => isProper g && decide (g.1 = r.entry.1)) = some r.entry := by
  have proper := isProper_entry.mpr earliest.eligible.proper
  cases kind : r.call with
  | false =>
      have there := mem_quoted_iff.mpr ⟨r, earliest.mem, kind, rfl⟩
      rw [find?_at (fun g hg same => quoted_inj hg there same) there proper, Option.some_or]
  | true =>
      have there := mem_calls_iff.mpr ⟨r, earliest.mem, kind, earliest.eligible.admitted kind, rfl⟩
      have none : (quoted log).find? (fun g => isProper g && decide (g.1 = r.entry.1)) = none := by
        refine List.find?_eq_none.mpr fun g hg near => ?_
        obtain ⟨hp, place⟩ : isProper g = true ∧ g.1 = r.entry.1 := by simpa using near
        obtain ⟨r', hr', quote, rfl⟩ := mem_quoted_iff.mp hg
        have h' : r'.Eligible := ⟨isProper_entry.mp hp, by simp [quote]⟩
        rcases earliest.least r' hr' h' with later | ⟨-, tie⟩
        · exact absurd place (Nat.ne_of_gt later)
        · simp [tie kind] at quote
      rw [none, Option.none_or, find?_at (fun g hg same => calls_inj hg there same) there proper]

theorem find?_all_iff : (all log).find? isProper = some f ↔ ∃ r, Earliest log r ∧ r.entry = f := by
  rw [all, find?_mergeSort, List.find?_append]
  constructor
  · rintro ⟨least, first⟩
    exact earliest_of_find? least first
  · rintro ⟨r, earliest, rfl⟩
    refine ⟨fun g hg hp => ?_, find?_of_earliest earliest⟩
    obtain ⟨r', hr', h', rfl⟩ := exists_eligible hg hp
    exact (earliest.least r' hr' h').elim Nat.le_of_lt fun h => Nat.le_of_eq h.1

end First

/-- The selector that a log reports is the earliest one that counts. Where the log only offers it, it is
quoted, and all proper readings before it are builder calls behind `aka`. -/
theorem ofLog?_reports_earliest (log s : String) :
    (ofLog? log = some s ↔ ∃ r, Earliest log.toList r ∧ String.ofList r.selector = s) ∧
    ∀ r, Earliest log.toList r → Offered r.before → r.call = false ∧
      ∀ r' ∈ readings log.toList, r'.Proper → r'.place < r.place →
        r'.call = true ∧ isOffered r'.before = true := by
  constructor
  · have reported : ofLog? log = ((all log.toList).find? isProper).map fun f => String.ofList f.2 := by
      rw [ofLog?, List.find?_map]
      rfl
    rw [reported, Option.map_eq_some_iff]
    constructor
    · rintro ⟨f, found, rfl⟩
      obtain ⟨r, earliest, rfl⟩ := find?_all_iff.mp found
      exact ⟨r, earliest, rfl⟩
    · rintro ⟨r, earliest, rfl⟩
      exact ⟨r.entry, find?_all_iff.mpr ⟨r, earliest, rfl⟩, rfl⟩
  · intro r earliest offered
    constructor
    · by_contra call
      have free := earliest.eligible.admitted (by simpa using call)
      rw [isOffered_of_offered offered] at free
      cases free
    · intro r' hr' proper sooner
      by_contra counts
      have h' : r'.Eligible := by
        refine ⟨proper, fun call => ?_⟩
        rw [← Bool.not_eq_true]
        exact fun behind => counts ⟨call, behind⟩
      rcases earliest.least r' hr' h' with later | ⟨same, -⟩
      · omega
      · omega

/-- A log that names no locator but the one that it offers. -/
def offeringLog : String := "strict mode violation: <a>Go</a> aka locator('#go')"

theorem ofLog?_offeringLog : (∃ r, Earliest offeringLog.toList r ∧ String.ofList r.selector = "#go") ∧
    ∀ r, Earliest offeringLog.toList r → Offered r.before ∧ r.call = false := by
  have reported : ofLog? offeringLog = some "#go" := by decide +kernel
  have only : readings offeringLog.toList =
      [⟨46, "strict mode violation: <a>Go</a> aka ".toList.reverse, "#go".toList, false⟩] := by
    decide +kernel
  obtain ⟨iff, offers⟩ := ofLog?_reports_earliest offeringLog "#go"
  refine ⟨iff.mp reported, fun r earliest => ?_⟩
  have offered : Offered r.before := by
    have mem := earliest.mem
    rw [only, List.mem_singleton] at mem
    exact mem ▸ ⟨[' '], "strict mode violation: <a>Go</a> ".toList.reverse, by decide,
      List.forall_mem_singleton.mpr rfl, apart_cons.mpr rfl⟩
  exact ⟨offered, (offers r earliest offered).1⟩

end FailingLocator
end TestRepair
