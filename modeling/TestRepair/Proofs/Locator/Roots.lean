import TestRepair.Locator.PageRoot
import TestRepair.Proofs.Text.Advancing
import TestRepair.Proofs.Text.Trimming

/-!
Which selectors mean the page or its root: a grammar of the paths that end there beside their
recogniser, and what neither the case of a letter, nor blanks around a selector, nor the marker of
structural paths changes.
-/

namespace TestRepair

namespace Text

theorem toNat_toLower {c : Char} (low : 65 ≤ c.toNat) (high : c.toNat ≤ 90) :
    c.toLower.toNat = c.toNat + 32 := by
  have upper : c.val ≥ 'A'.val ∧ c.val ≤ 'Z'.val :=
    ⟨UInt32.le_iff_toNat_le.mpr low, UInt32.le_iff_toNat_le.mpr high⟩
  have raised : c.toLower.val = c.val + 32 := congrArg Char.val (dif_pos upper)
  rw [Char.toNat, raised, UInt32.toNat_add]
  exact Nat.mod_eq_of_lt (by change c.toNat + 32 < _; omega)

theorem isBlank_toLower (c : Char) : isBlank c.toLower = isBlank c := by
  have ink {d : Char} (low : 48 ≤ d.toNat) (high : d.toNat ≤ 122) : isBlank d = false := by
    simp only [isBlank, Bool.or_eq_false_iff, Bool.and_eq_false_iff, decide_eq_false_iff_not, not_le,
      beq_eq_false_iff_ne]
    omega
  by_cases upper : 65 ≤ c.toNat ∧ c.toNat ≤ 90
  · have code := toNat_toLower upper.1 upper.2
    rw [ink (by omega) (by omega), ink (by omega) (by omega)]
  · have kept : c.toLower = c := dif_neg fun h => by
      have low : 65 ≤ c.toNat := UInt32.le_iff_toNat_le.mp h.1
      have high : c.toNat ≤ 90 := UInt32.le_iff_toNat_le.mp h.2
      exact upper ⟨low, high⟩
    rw [kept]

theorem asciiLower_append (s w : List Char) : asciiLower (s ++ w) = asciiLower s ++ asciiLower w :=
  List.map_append

theorem trimStart_asciiLower (s : List Char) : trimStart (asciiLower s) = asciiLower (trimStart s) := by
  have same : isBlank ∘ Char.toLower = isBlank := funext isBlank_toLower
  rw [trimStart, asciiLower, List.dropWhile_map, same]
  rfl

theorem trimEnd_asciiLower (s : List Char) : trimEnd (asciiLower s) = asciiLower (trimEnd s) := by
  have front := congrArg List.reverse (trimStart_asciiLower s.reverse)
  simpa [trimEnd, trimStart, asciiLower] using front

theorem trim_asciiLower (s : List Char) : trim (asciiLower s) = asciiLower (trim s) := by
  rw [trim, trimStart_asciiLower, trimEnd_asciiLower, trim]

end Text

namespace Selector

open Text Recogniser

/-- A part that may be left out. -/
def Perhaps (s w : List Char) : Prop := w = [] ∨ w = s

theorem reads_perhaps (s : List Char) : Reads (Perhaps s) (optional s) :=
  reads_optional (.inl rfl) (.inr rfl)

/-- The steps from the top to the root or to the body. -/
inductive RootSteps : List Char → Prop
  | html {i : List Char} : Perhaps "[1]".toList i → RootSteps ("html".toList ++ i)
  | body {i : List Char} : Perhaps "[1]".toList i → RootSteps ("body".toList ++ i)
  | both {i j : List Char} : Perhaps "[1]".toList i → Perhaps "[1]".toList j →
      RootSteps ("html".toList ++ i ++ '/' :: ("body".toList ++ j))

/-- The structural paths that end at the top, the root or the body. -/
inductive RootPath : List Char → Prop
  | here : RootPath ['.']
  | top {o : List Char} : Perhaps ['/'] o → RootPath ('/' :: o)
  | steps {o w e : List Char} : Perhaps ['/'] o → RootSteps w → Perhaps ['/'] e →
      RootPath ('/' :: o ++ (w ++ e))

/-- What follows the slashes of a path. -/
def BehindSlashes (v : List Char) : Prop :=
  v = [] ∨ ∃ w e, RootSteps w ∧ Perhaps ['/'] e ∧ v = w ++ e

theorem reads_rootSteps : Reads BehindSlashes rootSteps := by
  have body : Reads (fun w => w = [] ∨ ∃ j, Perhaps "[1]".toList j ∧ w = "/body".toList ++ j)
      ((do literal "/body".toList; optional "[1]".toList) <|> pure ()) := by
    refine (Reads.mono ?_ fun w hw => .inr hw).orElse (reads_pure (.inl rfl))
    exact (reads_literal rfl : Reads (Eq _) _).bind (fun _ => reads_perhaps _)
      fun _ j e hj => ⟨j, hj, by rw [← e]⟩
  refine .firstOf_cons ?_ (.firstOf_cons ?_ (.firstOf_cons (reads_pure (.inl rfl)) .firstOf_nil))
  · refine Reads.mono ((reads_literal rfl).seq fun _ => (reads_perhaps _).seq fun _ =>
      body.seq fun _ => reads_perhaps _) ?_
    rintro _ ⟨_, _, rfl, ⟨i, _, hi, ⟨_, e, inner, he, rfl⟩, rfl⟩, rfl⟩
    rcases inner with rfl | ⟨j, hj, rfl⟩
    · exact .inr ⟨_, e, .html hi, he, by simp⟩
    · exact .inr ⟨_, e, .both hi hj, he, by simp⟩
  · refine Reads.mono ((reads_literal rfl).seq fun _ => (reads_perhaps _).seq fun _ =>
      reads_perhaps _) ?_
    rintro _ ⟨_, _, rfl, ⟨i, e, hi, he, rfl⟩, rfl⟩
    exact .inr ⟨_, e, .body hi, he, by simp⟩

theorem reads_rootPath : Reads RootPath rootPath := by
  refine .firstOf_cons (reads_literal .here) (.firstOf_cons ?_ .firstOf_nil)
  refine Reads.mono ((reads_literal rfl).seq fun _ => (reads_perhaps _).seq fun _ =>
    reads_rootSteps) ?_
  rintro _ ⟨_, _, rfl, ⟨o, _, ho, behind, rfl⟩, rfl⟩
  rcases behind with rfl | ⟨w, e, hw, he, rfl⟩
  · rw [List.append_nil]
    exact .top ho
  · exact (RootPath.steps ho hw he :)

theorem accepts_of_rootPath {s : List Char} (h : RootPath s) : rootPath.accepts s = true := by
  cases h with
  | here => decide
  | top ho => rcases ho with rfl | rfl <;> decide
  | steps ho hw he =>
    cases hw with
    | html hi | body hi =>
      rcases ho with rfl | rfl <;> rcases hi with rfl | rfl <;> rcases he with rfl | rfl <;> rfl
    | both hi hj =>
      rcases ho with rfl | rfl <;> rcases hi with rfl | rfl <;> rcases hj with rfl | rfl <;>
        rcases he with rfl | rfl <;> rfl

theorem accepts_rootPath_iff {s : List Char} : rootPath.accepts s = true ↔ RootPath s := by
  refine ⟨fun h => ?_, accepts_of_rootPath⟩
  unfold accepts at h
  split at h
  · next u stop read =>
    obtain ⟨w, path, span⟩ := reads_rootPath _ _ _ read
    have whole : s = w ++ stop.after := span.after
    rw [whole, List.isEmpty_iff.mp h, List.append_nil]
    exact path
  · cases h

/-- A selector without the marker of structural paths, if it has one, and trimmed. -/
inductive Unmarked : List Char → List Char → Prop
  | marked (path : List Char) : Unmarked ("xpath=".toList ++ path) (trim path)
  | bare {s : List Char} : ¬"xpath=".toList <+: s → Unmarked s (trim s)

theorem unmarked_iff {s path : List Char} (hs : trim s = s) :
    Unmarked s path ↔ path = withoutMarker s := by
  constructor
  · rintro (path | bare)
    · rw [withoutMarker, rest?_append]
    · rw [withoutMarker, rest?_eq_none_iff.mpr bare, hs]
  · rintro rfl
    unfold withoutMarker
    split
    · next path read =>
      rw [rest?_eq_some_iff.mp read]
      exact .marked path
    · next read =>
      have bare := Unmarked.bare (rest?_eq_none_iff.mp read)
      rwa [hs] at bare

/-- The names and signs of the root, and the paths that end there. -/
def MeansRoot (t : List Char) : Prop :=
  t = [] ∨ t ∈ ["html".toList, "body".toList, ":root".toList, "*".toList, "html > body".toList] ∨
    ∃ path, Unmarked t path ∧ RootPath path

theorem isPageRoot_iff_meansRoot (s : String) :
    isPageRoot s = true ↔ MeansRoot (asciiLower (trim s.toList)) := by
  have trimmed : trim (asciiLower (trim s.toList)) = asciiLower (trim s.toList) := by
    rw [trim_asciiLower, trim_trim]
  simp only [isPageRoot, MeansRoot, Bool.or_eq_true, List.isEmpty_iff, List.contains_iff_mem,
    accepts_rootPath_iff, unmarked_iff trimmed, exists_eq_left, or_assoc]
  rfl

/-- What starts with a slash means the root only as a path, and so it does behind the marker. -/
theorem meansRoot_marked {s : List Char} (hs : trim ('/' :: s) = '/' :: s) :
    MeansRoot ("xpath=".toList ++ '/' :: s) ↔ MeansRoot ('/' :: s) := by
  have marked : trim ("xpath=".toList ++ '/' :: s) = "xpath=".toList ++ '/' :: s := by
    rw [Solid.trim_append_cons (by decide) (by decide), hs]
  have path : withoutMarker ("xpath=".toList ++ '/' :: s) = withoutMarker ('/' :: s) := by
    have bare : rest? "xpath=".toList ('/' :: s) = none := rfl
    rw [withoutMarker, rest?_append, withoutMarker, bare]
    exact hs
  simp only [MeansRoot, unmarked_iff marked, unmarked_iff hs, path, exists_eq_left]
  simp

/-- A selector means the page or its root exactly if it is one of the names and signs of the root or
a path to it. Neither case nor blanks around it matter, nor does the marker in front of a path from
the top. -/
theorem isPageRoot_exact (s : String) :
    (isPageRoot s = true ↔ MeansRoot (asciiLower (trim s.toList))) ∧
      (∀ s' : String, asciiLower s'.toList = asciiLower s.toList → isPageRoot s' = isPageRoot s) ∧
      (∀ a b : String, Blank a.toList → Blank b.toList → isPageRoot (a ++ s ++ b) = isPageRoot s) ∧
      ∀ m : String, asciiLower m.toList = "xpath=".toList → s.toList.head? = some '/' →
        isPageRoot (m ++ s) = isPageRoot s := by
  refine ⟨isPageRoot_iff_meansRoot s, fun s' same => ?_, fun a b ha hb => ?_, fun m hm hs => ?_⟩
  · rw [Bool.eq_iff_iff, isPageRoot_iff_meansRoot, isPageRoot_iff_meansRoot, ← trim_asciiLower, same,
      trim_asciiLower]
  · rw [Bool.eq_iff_iff, isPageRoot_iff_meansRoot, isPageRoot_iff_meansRoot, String.toList_append,
      String.toList_append, trim_blank_append ha hb]
  · obtain ⟨rest, split⟩ := List.head?_eq_some_iff.mp hs
    have lowered : asciiLower s.toList = '/' :: asciiLower rest := by
      rw [split]
      rfl
    have behind : trim ('/' :: asciiLower rest) = '/' :: trimEnd (asciiLower rest) :=
      trim_cons (by decide) _
    rw [Bool.eq_iff_iff, isPageRoot_iff_meansRoot, isPageRoot_iff_meansRoot, ← trim_asciiLower,
      ← trim_asciiLower, String.toList_append, asciiLower_append, hm, lowered,
      Solid.trim_append_cons (by decide) (by decide), behind]
    exact meansRoot_marked (by rw [← behind, trim_trim])

theorem isPageRoot_marked_body :
    isPageRoot "//Body[1]/" = true ∧ isPageRoot ("XPath=" ++ "//Body[1]/") = true := by
  have bare : isPageRoot "//Body[1]/" = true := by decide +kernel
  have marker : asciiLower "XPath=".toList = "xpath=".toList := by decide +kernel
  exact ⟨bare, ((isPageRoot_exact "//Body[1]/").2.2.2 "XPath=" marker rfl).trans bare⟩

end Selector

end TestRepair
