import Mathlib.Data.List.MinMax
import TestRepair.Proofs.Text.Reading
import TestRepair.Script.MissingClass

/-!
Which class a log is taken to complain about. There are three shapes of complaints, and of each shape
only the first complaint is looked at. So a complaint about a default export hides those of its shape
that follow, and among all others the earliest one counts.
-/

namespace TestRepair
namespace MissingClass

open Text Recogniser

inductive Shape
  | notConstructor
  | noExport
  | noMember
  deriving DecidableEq

namespace Shape

def all : List Shape := [notConstructor, noExport, noMember]

/-- What stands before the name. -/
def lead : Shape → String
  | notConstructor => ""
  | noExport => "does not provide an export named '"
  | noMember => "has no exported member '"

/-- What stands behind the name. -/
def rest : Shape → String
  | notConstructor => " is not a constructor"
  | noExport | noMember => "'"

def text (shape : Shape) (name : List Char) : List Char :=
  shape.lead.toList ++ name ++ shape.rest.toList

def reader : Shape → Recogniser (List Char)
  | notConstructor => Signature.notConstructor
  | noExport => Signature.noExport
  | noMember => Signature.noMember

end Shape

structure Name (name : List Char) : Prop where
  nonempty : name ≠ []
  word : ∀ c ∈ name, isWord c = true

/-- At a place of a log a complaint starts, and its name is a whole run of word characters. -/
structure Complains (log : List Char) (shape : Shape) (place : Nat) (name : List Char) : Prop where
  named : Name name
  split : ∃ front back, log = front ++ (shape.text name ++ back) ∧ front.length = place ∧
    Apart (shape.lead.toList.reverse ++ front.reverse)

def default : List Char := "default".toList

/-- A complaint that is not about a default export, as no complaint of its shape further up is. -/
structure Counts (log : List Char) (shape : Shape) (place : Nat) (name : List Char) : Prop
    extends Complains log shape place name where
  proper : name ≠ default
  clear : ∀ p < place, ¬Complains log shape p default

section Reading

variable {c c' : Cursor} {lead rest name : List Char}

theorem run1_name (h : Name name) {s : List Char} (hs : Apart s) (before : List Char) :
    run1 isWord ⟨before, name ++ s⟩ = some (name, ⟨name.reverse ++ before, s⟩) :=
  run1_eq_some_iff.mpr ⟨h.nonempty, ⟨rfl, rfl⟩, h.word, hs⟩

theorem quotedWord_eq_some_iff : Signature.quotedWord lead c = some (name, c') ↔
    Name name ∧ c.Spans (lead ++ ['\x27'] ++ name ++ ['\x27']) c' := by
  rw [Signature.quotedWord, bind_eq_some_iff]
  constructor
  · rintro ⟨_, c₁, first, h⟩
    obtain ⟨_, c₂, opened, h⟩ := bind_eq_some_iff.mp h
    obtain ⟨word, c₃, read, h⟩ := bind_eq_some_iff.mp h
    obtain ⟨_, c₄, closed, h⟩ := bind_eq_some_iff.mp h
    cases h
    obtain ⟨ne, span, ends⟩ := run1_eq_some_iff.mp read
    refine ⟨⟨ne, ends.all⟩, ?_⟩
    exact (((literal_eq_some_iff.mp first).trans (literal_eq_some_iff.mp opened)).trans span).trans
      (literal_eq_some_iff.mp closed)
  · rintro ⟨named, span⟩
    obtain ⟨before, after⟩ := c
    obtain rfl : after = lead ++ '\x27' :: (name ++ '\x27' :: c'.after) := by
      simpa using span.after
    refine ⟨(), _, literal_append lead before _, ?_⟩
    rw [bind_of_some (literal_cons '\x27' _ _), bind_of_some (run1_name named (apart_cons.mpr rfl) _),
      bind_of_some (literal_cons '\x27' _ _), span.eq]
    simp only [List.reverse_append, List.reverse_cons, List.reverse_nil, List.append_assoc,
      List.cons_append, List.nil_append]
    rfl

theorem notConstructor_eq_some_iff : Signature.notConstructor c = some (name, c') ↔
    Name name ∧ Apart c.before ∧ c.Spans (name ++ " is not a constructor".toList) c' := by
  rw [Signature.notConstructor, bind_eq_some_iff]
  constructor
  · rintro ⟨_, c₁, start, h⟩
    obtain ⟨edge, rfl⟩ := boundary_eq_some_iff.mp start
    obtain ⟨word, c₂, read, h⟩ := bind_eq_some_iff.mp h
    obtain ⟨_, c₃, said, h⟩ := bind_eq_some_iff.mp h
    cases h
    obtain ⟨ne, span, ends⟩ := run1_eq_some_iff.mp read
    obtain ⟨x, word, rfl⟩ := List.exists_cons_of_ne_nil ne
    obtain ⟨before, after⟩ := c₁
    obtain rfl : after = x :: (word ++ c₂.after) := span.after
    have apart := (atBoundary_of_behind (ends.all x List.mem_cons_self)).mp edge
    exact ⟨⟨ne, ends.all⟩, apart, span.trans (literal_eq_some_iff.mp said)⟩
  · rintro ⟨named, apart, span⟩
    obtain ⟨before, after⟩ := c
    obtain rfl : after = name ++ " is not a constructor".toList ++ c'.after := span.after
    obtain ⟨x, word, rfl⟩ := List.exists_cons_of_ne_nil named.nonempty
    refine ⟨(), _, boundary_eq_some_iff.mpr
      ⟨(atBoundary_of_behind (named.word x List.mem_cons_self)).mpr apart, rfl⟩, ?_⟩
    have spaced : Apart (" is not a constructor".toList ++ c'.after) := apart_cons.mpr rfl
    rw [List.append_assoc, bind_of_some (run1_name named spaced before),
      bind_of_some (literal_append _ _ _), span.eq, List.reverse_append, List.append_assoc]
    rfl

theorem apart_quoted {shape : Shape} {phrase before : List Char}
    (h : shape.lead.toList = phrase ++ ['\x27']) :
    Apart (shape.lead.toList.reverse ++ before) := by
  rw [h, List.reverse_append]
  exact apart_cons.mpr rfl

theorem reader_eq_some_iff {shape : Shape} : shape.reader c = some (name, c') ↔
    Name name ∧ Apart (shape.lead.toList.reverse ++ c.before) ∧ c.Spans (shape.text name) c' := by
  cases shape with
  | notConstructor => exact notConstructor_eq_some_iff
  | noExport =>
      have quoted : Shape.noExport.lead.toList =
          "does not provide an export named ".toList ++ ['\x27'] := by simp [Shape.lead]
      rw [and_iff_right (apart_quoted quoted), Shape.text, quoted]
      exact quotedWord_eq_some_iff
  | noMember =>
      have quoted : Shape.noMember.lead.toList = "has no exported member ".toList ++ ['\x27'] := by
        simp [Shape.lead]
      rw [and_iff_right (apart_quoted quoted), Shape.text, quoted]
      exact quotedWord_eq_some_iff

/-- A complaint is what its reader reads. -/
theorem complains_iff {log : List Char} {shape : Shape} {place : Nat} :
    Complains log shape place name ↔ ∃ x y stop, log = x ++ y ∧ x.length = place ∧
      shape.reader ⟨x.reverse, y⟩ = some (name, stop) := by
  constructor
  · rintro ⟨named, front, back, rfl, length, apart⟩
    exact ⟨front, _, ⟨(shape.text name).reverse ++ front.reverse, back⟩, rfl, length,
      reader_eq_some_iff.mpr ⟨named, apart, rfl, rfl⟩⟩
  · rintro ⟨x, y, stop, rfl, length, read⟩
    obtain ⟨named, apart, span⟩ := reader_eq_some_iff.mp read
    obtain rfl : y = shape.text name ++ stop.after := span.after
    exact ⟨named, x, stop.after, rfl, length, apart⟩

theorem Complains.unique {log : List Char} {shape : Shape} {place : Nat}
    (h : Complains log shape place name) {name' : List Char}
    (h' : Complains log shape place name') : name = name' := by
  obtain ⟨x, y, stop, rfl, rfl, read⟩ := complains_iff.mp h
  obtain ⟨x', y', stop', split, length, read'⟩ := complains_iff.mp h'
  obtain ⟨rfl, rfl⟩ := List.append_inj split length.symm
  rw [read] at read'
  cases read'
  rfl

end Reading

section Shapes

variable {name name' : List Char}

/-- What follows the first word of a complaint. -/
def Shape.second : Shape → String
  | notConstructor => " is "
  | noExport => " not"
  | noMember => " no "

theorem Shape.second_injective {shape shape' : Shape} (h : shape.second = shape'.second) :
    shape = shape' := by
  revert h
  cases shape <;> cases shape' <;> decide

theorem Shape.text_eq (shape : Shape) (h : Name name) : ∃ word more,
    shape.text name = word ++ (shape.second.toList ++ more) ∧ ∀ c ∈ word, isWord c = true := by
  cases shape with
  | notConstructor =>
      refine ⟨name, "not a constructor".toList, ?_, h.word⟩
      simp [Shape.text, Shape.lead, Shape.rest, Shape.second]
  | noExport =>
      refine ⟨"does".toList, " provide an export named '".toList ++ name ++ ['\x27'], ?_,
        List.all_eq_true.mp (by decide)⟩
      simp [Shape.text, Shape.lead, Shape.rest, Shape.second]
  | noMember =>
      refine ⟨"has".toList, "exported member '".toList ++ name ++ ['\x27'], ?_,
        List.all_eq_true.mp (by decide)⟩
      simp [Shape.text, Shape.lead, Shape.rest, Shape.second]

theorem Shape.ends_second (shape : Shape) {word : List Char} (h : ∀ c ∈ word, isWord c = true)
    (more : List Char) : Ends isWord word (shape.second.toList ++ more) := by
  refine ⟨h, ?_⟩
  intro c hc
  obtain rfl : c = ' ' := by cases shape <;> exact (Option.some.inj hc).symm
  decide

theorem Name.dropWhile_text (h : Name name) (shape : Shape) (back : List Char) :
    ((shape.text name ++ back).dropWhile isWord).take 4 = shape.second.toList := by
  obtain ⟨word, more, text, hw⟩ := shape.text_eq h
  rw [text, List.append_assoc, List.append_assoc, (shape.ends_second hw _).takeWhile.2]
  cases shape <;> rfl

/-- Complaints of two shapes never stand at one place. -/
theorem Complains.shape_eq {log : List Char} {shape shape' : Shape} {place : Nat}
    (h : Complains log shape place name) (h' : Complains log shape' place name') :
    shape = shape' := by
  obtain ⟨front, back, rfl, rfl, -⟩ := h.split
  obtain ⟨front', back', split, length, -⟩ := h'.split
  obtain ⟨-, same⟩ := List.append_inj split length.symm
  apply Shape.second_injective
  apply String.toList_injective
  rw [← h.named.dropWhile_text shape back, same, h'.named.dropWhile_text]

end Shapes

section Counting

variable {log name : List Char} {shape : Shape} {place : Nat}

/-- The first complaint of its shape, the only one that is looked at. -/
structure Leads (log : List Char) (shape : Shape) (place : Nat) (name : List Char) : Prop
    extends Complains log shape place name where
  first : ∀ p < place, ∀ name, ¬Complains log shape p name

theorem first?_reader_eq_some_iff : (∃ o, shape.reader.first? log = some o ∧
    o.start.offset = place ∧ o.value = name) ↔ Leads log shape place name := by
  constructor
  · rintro ⟨⟨start, stop, value⟩, found, rfl, rfl⟩
    obtain ⟨x, y, rfl, rfl, read, least⟩ := first?_eq_some_iff.mp found
    refine ⟨complains_iff.mpr ⟨x, y, stop, rfl, by simp [Cursor.offset], read⟩, ?_⟩
    intro p hp name' h
    obtain ⟨a, b, stop', split, rfl, read'⟩ := complains_iff.mp h
    obtain ⟨b', rfl, rfl⟩ | ⟨b', rfl, rfl⟩ := List.append_eq_append_iff.mp split
    · simp only [Cursor.offset, List.length_append, List.length_reverse] at hp
      omega
    · have proper : b' ≠ [] := by
        rintro rfl
        simp [Cursor.offset] at hp
      rw [least a b' rfl proper] at read'
      cases read'
  · rintro ⟨complains, first⟩
    obtain ⟨x, y, stop, rfl, rfl, read⟩ := complains_iff.mp complains
    refine ⟨⟨⟨x.reverse, y⟩, stop, name⟩, first?_eq_some_iff.mpr ⟨x, y, rfl, rfl, read, ?_⟩,
      by simp [Cursor.offset], rfl⟩
    rintro a b rfl proper
    rw [Option.eq_none_iff_forall_ne_some]
    rintro ⟨name', stop'⟩ read'
    have shorter : a.length < (a ++ b).length := by
      simpa using List.length_pos_iff.mpr proper
    exact first a.length shorter name'
      (complains_iff.mpr ⟨a, b ++ y, stop', List.append_assoc a b y, rfl, read'⟩)

theorem mem_mentions_iff : (place, name) ∈ mentions log ↔
    ∃ shape, Leads log shape place name ∧ name ≠ default := by
  have readers : complaints = Shape.all.map Shape.reader := rfl
  rw [mentions, readers, List.filterMap_map, List.mem_filterMap]
  constructor
  · rintro ⟨shape, -, found⟩
    obtain ⟨o, first, kept⟩ := Option.bind_eq_some_iff.mp found
    split at kept
    · cases kept
    · next proper =>
      cases kept
      exact ⟨shape, first?_reader_eq_some_iff.mp ⟨o, first, rfl, rfl⟩, mt beq_iff_eq.mpr proper⟩
  · rintro ⟨shape, leads, proper⟩
    obtain ⟨o, first, rfl, rfl⟩ := first?_reader_eq_some_iff.mpr leads
    refine ⟨shape, by cases shape <;> simp [Shape.all], ?_⟩
    exact Option.bind_eq_some_iff.mpr ⟨o, first, if_neg (mt beq_iff_eq.mp proper)⟩

theorem Leads.counts (h : Leads log shape place name) (proper : name ≠ default) :
    Counts log shape place name := ⟨h.toComplains, proper, fun p hp => h.first p hp default⟩

theorem Counts.leads (h : Counts log shape place name)
    (least : ∀ p < place, ∀ name, ¬Counts log shape p name) : Leads log shape place name := by
  refine ⟨h.toComplains, ?_⟩
  intro p hp name' earlier
  by_cases same : name' = default
  · exact h.clear p hp (same ▸ earlier)
  · exact least p hp name' ⟨earlier, same, fun q hq => h.clear q (hq.trans hp)⟩

theorem Counts.exists_leads (h : Counts log shape place name) :
    ∃ p ≤ place, ∃ name, Leads log shape p name ∧ name ≠ default := by
  induction place using Nat.strongRecOn generalizing name with
  | ind place ih =>
      by_cases earlier : ∃ p < place, ∃ name, Counts log shape p name
      · obtain ⟨p, hp, name', counts⟩ := earlier
        obtain ⟨q, hq, found⟩ := ih p hp counts
        exact ⟨q, hq.trans hp.le, found⟩
      · refine ⟨place, le_rfl, name, h.leads ?_, h.proper⟩
        intro p hp name' counts
        exact earlier ⟨p, hp, name', counts⟩

end Counting

section Earliest

variable {name : List Char} {ms : List (Nat × List Char)}

theorem foldl_argAux (m : Nat × List Char) (ms : List (Nat × List Char)) :
    ms.foldl (List.argAux fun b a => b.1 < a.1) (some m) =
      some (ms.foldl (fun a b => if b.1 < a.1 then b else a) m) := by
  induction ms generalizing m with
  | nil => rfl
  | cons b ms ih =>
      simp only [List.foldl_cons, List.argAux]
      split <;> exact ih _

theorem earliest?_eq_argmin : earliest? ms = (ms.argmin Prod.fst).map Prod.snd := by
  cases ms with
  | nil => rfl
  | cons m ms => exact (congrArg (Option.map Prod.snd) (foldl_argAux m ms)).symm

theorem earliest?_eq_none_iff : earliest? ms = none ↔ ms = [] := by
  rw [earliest?_eq_argmin, Option.map_eq_none_iff, List.argmin_eq_none]

theorem exists_of_earliest?_eq_some (h : earliest? ms = some name) :
    ∃ place, (place, name) ∈ ms ∧ ∀ m ∈ ms, place ≤ m.1 := by
  rw [earliest?_eq_argmin] at h
  obtain ⟨m, least, rfl⟩ := Option.map_eq_some_iff.mp h
  exact ⟨m.1, List.argmin_mem least, fun m' hm' => List.le_of_mem_argmin hm' least⟩

end Earliest

section Reporting

variable {shape : Shape} {place : Nat} {name : List Char}

/-- A complaint that counts, with none before it that does. -/
def Earliest (log : List Char) (shape : Shape) (place : Nat) (name : List Char) : Prop :=
  Counts log shape place name ∧
    ∀ shape' place' name', Counts log shape' place' name' → place ≤ place'

theorem Earliest.unique {log : List Char} {shape' : Shape} {place' : Nat} {name' : List Char}
    (h : Earliest log shape place name) (h' : Earliest log shape' place' name') : name = name' := by
  obtain ⟨counts, least⟩ := h
  obtain ⟨counts', least'⟩ := h'
  obtain rfl : place = place' := (least _ _ _ counts').antisymm (least' _ _ _ counts)
  obtain rfl := counts.shape_eq counts'.toComplains
  exact counts.unique counts'.toComplains

theorem ofLog?_eq_none_iff {log : String} :
    ofLog? log = none ↔ ∀ shape place name, ¬Counts log.toList shape place name := by
  rw [ofLog?, Option.map_eq_none_iff, earliest?_eq_none_iff]
  constructor
  · intro silent shape place name counts
    obtain ⟨p, -, name', leads, proper⟩ := counts.exists_leads
    exact List.not_mem_nil (silent ▸ mem_mentions_iff.mpr ⟨shape, leads, proper⟩)
  · intro silent
    rw [List.eq_nil_iff_forall_not_mem]
    rintro ⟨place, name⟩ mentioned
    obtain ⟨shape, leads, proper⟩ := mem_mentions_iff.mp mentioned
    exact silent shape place name (leads.counts proper)

theorem exists_earliest {log name : String} (h : ofLog? log = some name) :
    ∃ shape place, Earliest log.toList shape place name.toList := by
  obtain ⟨name, found, rfl⟩ := Option.map_eq_some_iff.mp h
  obtain ⟨place, mentioned, least⟩ := exists_of_earliest?_eq_some found
  obtain ⟨shape, leads, proper⟩ := mem_mentions_iff.mp mentioned
  refine ⟨shape, place, by simpa using leads.counts proper, ?_⟩
  intro shape' place' name' counts
  obtain ⟨p, hp, name'', leads', proper'⟩ := counts.exists_leads
  exact (least (p, name'') (mem_mentions_iff.mpr ⟨shape', leads', proper'⟩)).trans hp

end Reporting

/-- The class that is reported is that of the earliest complaint that counts. -/
theorem ofLog?_reports_first (log : String) :
    (∀ name : String, ofLog? log = some name ↔
      ∃ shape place, Earliest log.toList shape place name.toList) ∧
    (ofLog? log = none ↔ ∀ shape place name, ¬Counts log.toList shape place name) := by
  refine ⟨fun name => ⟨exists_earliest, ?_⟩, ofLog?_eq_none_iff⟩
  rintro ⟨shape, place, earliest⟩
  cases found : ofLog? log with
  | none => exact absurd earliest.1 (ofLog?_eq_none_iff.mp found shape place name.toList)
  | some name' =>
      obtain ⟨shape', place', earliest'⟩ := exists_earliest found
      rw [String.toList_injective (earliest.unique earliest')]

example : ofLog? "default is not a constructor\nHome is not a constructor" = none := by
  decide +kernel

end MissingClass
end TestRepair
