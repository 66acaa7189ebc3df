import TestRepair.Locator.Markup
import TestRepair.Proofs.Dictionary
import TestRepair.Proofs.Script.Endings
import TestRepair.Proofs.Text.Advancing

/-!
What is read of an element that is written with its attributes in double quotes. The opening tag is
taken to end at the first closing bracket, wherever it stands, so an attribute with such a bracket in
its value is lost; without one, the attributes are read as they were written.
-/

namespace TestRepair
namespace Markup

open Text Recogniser

/-- An attribute of an element, with the number of spaces in front of it beyond the one needed. -/
structure Attribute where
  indent : Nat
  name : String
  value : String

namespace Attribute

/-- The attribute as it is written in an opening tag. -/
def text (a : Attribute) : List Char :=
  List.replicate (a.indent + 1) ' ' ++ (a.name.toList ++ '=' :: '"' :: (a.value.toList ++ ['"']))

/-- The attribute as it is to be found, under its name in lower case. -/
def entry (a : Attribute) : String × String := (String.ofList (asciiLower a.name.toList), a.value)

/-- The name starts with a letter, an underscore or a colon, and goes on with these, digits, dots and
hyphens; no quote ends the value early. -/
structure Proper (a : Attribute) : Prop where
  name : ∃ x xs, a.name.toList = x :: xs ∧ (x.isAlpha = true ∨ x ∈ ['_', ':']) ∧
    ∀ y ∈ xs, y.isAlphanum = true ∨ y ∈ ['_', ':', '.', '-']
  value : '"' ∉ a.value.toList

end Attribute

/-- The attributes of an opening tag, one behind the other. -/
def written (as : List Attribute) : List Char := as.flatMap Attribute.text

/-- An element with its attributes and its content. -/
def element (tag : String) (as : List Attribute) (content : String) : String :=
  "<" ++ tag ++ String.ofList (written as) ++ ">" ++ content ++ "</" ++ tag ++ ">"

/-- A name of a tag: a letter, and no character that ends a name or stands between one and a value. -/
structure IsTagName (tag : List Char) : Prop where
  letter : ∃ x xs, tag = x :: xs ∧ x.isAlpha = true
  plain : ∀ c ∈ tag, isBlank c = false ∧ c ∉ ['/', '>', '=']

section Characters

variable {c : Char}

theorem isBlank_of_isAlpha (h : c.isAlpha = true) : isBlank c = false :=
  isBlank_of_isAlphanum (by simp [Char.isAlphanum, h])

theorem isWord_of_isAlpha (h : c.isAlpha = true) : isWord c = true :=
  isWord_of_isAlphanum (by simp [Char.isAlphanum, h])

theorem isNameChar_of_isNameStart (h : isNameStart c = true) : isNameChar c = true := by
  simp only [isNameStart, Bool.or_eq_true, beq_iff_eq] at h
  rcases h with (letter | rfl) | rfl
  · simp [isNameChar, isWord_of_isAlpha letter]
  · decide
  · decide

theorem isBlank_of_isNameStart (h : isNameStart c = true) : isBlank c = false := by
  simp only [isNameStart, Bool.or_eq_true, beq_iff_eq] at h
  rcases h with (letter | rfl) | rfl
  · exact isBlank_of_isAlpha letter
  · decide
  · decide

theorem Attribute.Proper.nameStart {a : Attribute} (h : a.Proper) : ∃ x xs,
    a.name.toList = x :: xs ∧ isNameStart x = true ∧ ∀ y ∈ xs, isNameChar y = true := by
  obtain ⟨x, xs, split, start, more⟩ := h.name
  refine ⟨x, xs, split, ?_, ?_⟩
  · simp only [List.mem_cons, List.not_mem_nil, or_false] at start
    rcases start with letter | rfl | rfl
    · simp [isNameStart, letter]
    · decide
    · decide
  · intro y hy
    rcases more y hy with word | sign
    · simp [isNameChar, isWord_of_isAlphanum word]
    · simp only [List.mem_cons, List.not_mem_nil, or_false] at sign
      rcases sign with rfl | rfl | rfl | rfl <;> decide

end Characters

section Reading

variable {c c' : Cursor} {name value before rest : List Char}

theorem quotedValue_eq_some {q : Char} (h : quotedValue q c = some (value, c')) :
    c.Spans (q :: (value ++ [q])) c' := by
  obtain ⟨_, c₁, opened, h⟩ := bind_eq_some_iff.mp h
  obtain ⟨read, c₂, run, h⟩ := bind_eq_some_iff.mp h
  obtain ⟨_, c₃, closed, h⟩ := bind_eq_some_iff.mp h
  cases h
  exact (literal_eq_some_iff.mp opened).trans
    ((run_eq_some_iff.mp run).1.trans (literal_eq_some_iff.mp closed))

/-- What is gone over where a name and a value are read. -/
theorem nameAndValue_eq_some (h : nameAndValue c = some ((name, value), c')) :
    ∃ w more, (∀ x ∈ name, isNameChar x = true) ∧ Blank w ∧ value <:+: more ∧
      c.Spans (name ++ (w ++ '=' :: more)) c' := by
  obtain ⟨_, c₀, start, h⟩ := bind_eq_some_iff.mp h
  obtain ⟨first, c₁, one, h⟩ := bind_eq_some_iff.mp h
  obtain ⟨others, c₂, run, h⟩ := bind_eq_some_iff.mp h
  obtain ⟨w, c₃, gap, h⟩ := bind_eq_some_iff.mp h
  obtain ⟨_, c₄, equals, h⟩ := bind_eq_some_iff.mp h
  obtain ⟨w', c₅, gap', h⟩ := bind_eq_some_iff.mp h
  obtain ⟨read, c₆, given, h⟩ := bind_eq_some_iff.mp h
  cases h
  obtain rfl : c = c₀ := (require_eq_some_iff.mp start).2.symm
  obtain ⟨letter, front⟩ := one_eq_some_iff.mp one
  obtain ⟨more, ends⟩ := run_eq_some_iff.mp run
  obtain ⟨blank, ends'⟩ := run_eq_some_iff.mp gap
  have lead := ((front.trans more).trans blank).trans ((literal_eq_some_iff.mp equals).trans
    (run_eq_some_iff.mp gap').1)
  have named : ∀ x ∈ first :: others, isNameChar x = true :=
    List.forall_mem_cons.mpr ⟨isNameChar_of_isNameStart letter, ends.all⟩
  have finish {text : List Char} (inside : value <:+: text) (span : c₅.Spans text c') :
      ∃ w more, (∀ x ∈ first :: others, isNameChar x = true) ∧ Blank w ∧ value <:+: more ∧
        c.Spans (first :: others ++ (w ++ '=' :: more)) c' :=
    ⟨w, w' ++ text, named, ends'.all, inside.trans (List.suffix_append w' text).isInfix,
      by simpa using lead.trans span⟩
  rcases orElse_eq_some_iff.mp given with double | ⟨-, given⟩
  · exact finish ⟨['"'], ['"'], by simp⟩ (quotedValue_eq_some double)
  rcases orElse_eq_some_iff.mp given with single | ⟨-, given⟩
  · exact finish ⟨['\x27'], ['\x27'], by simp⟩ (quotedValue_eq_some single)
  rcases orElse_eq_some_iff.mp given with bare | ⟨-, given⟩
  · exact finish List.infix_rfl (run1_eq_some_iff.mp bare).2.1
  · cases given

theorem consumes_nameAndValue : Consumes nameAndValue := by
  rintro c ⟨name, value⟩ c' h
  obtain ⟨w, more, -, -, -, span⟩ := nameAndValue_eq_some h
  exact ⟨_, by simp, span⟩

theorem nameAndValue_of_not_start (h : ∀ x ∈ c.after.head?, isNameStart x = false) :
    nameAndValue c = none := by
  have refused : mayStartName c = false := by
    cases first : c.after.head? with
    | none => simp [mayStartName, first]
    | some x => simp [mayStartName, first, h x first]
  rw [nameAndValue, bind_of_none]
  rw [require, refused]
  rfl

/-- Behind a space, an attribute is read as it is written. -/
theorem nameAndValue_attribute {a : Attribute} (h : a.Proper) (before rest : List Char) :
    let w := a.name.toList ++ '=' :: '"' :: (a.value.toList ++ ['"'])
    nameAndValue ⟨' ' :: before, w ++ rest⟩ =
      some ((a.name.toList, a.value.toList), ⟨w.reverse ++ ' ' :: before, rest⟩) := by
  intro w
  obtain ⟨x, xs, split, start, more⟩ := h.nameStart
  have text : w ++ rest = x :: (xs ++ '=' :: '"' :: (a.value.toList ++ '"' :: rest)) := by
    simp [w, split]
  have here : mayStartName ⟨' ' :: before, w ++ rest⟩ = true := by
    have space : (' ' :: before).find? (fun x => isNameStart x || !isNameChar x) = some ' ' := by
      rw [List.find?_cons_of_pos]
      decide
    have other : isNameStart ' ' = false := by decide
    simp only [mayStartName, text, List.head?_cons, Option.any_some, start, Bool.true_and, space, other,
      Bool.not_false]
  have first (after : List Char) : one isNameStart ⟨' ' :: before, x :: after⟩ =
      some (x, ⟨x :: ' ' :: before, after⟩) := one_eq_some_iff.mpr ⟨start, rfl, rfl⟩
  have named : run isNameChar ⟨x :: ' ' :: before, xs ++ '=' :: '"' :: (a.value.toList ++ '"' :: rest)⟩ =
      some (xs, ⟨xs.reverse ++ x :: ' ' :: before, '=' :: '"' :: (a.value.toList ++ '"' :: rest)⟩) :=
    run_eq_some_iff.mpr ⟨⟨rfl, rfl⟩, more, by simp; decide⟩
  have gap (y : Char) (hy : isBlank y = false) (back after : List Char) :
      run isBlank ⟨back, y :: after⟩ = some ([], ⟨back, y :: after⟩) := by
    simp [run, hy]
  have value (back : List Char) : quotedValue '"' ⟨back, '"' :: (a.value.toList ++ '"' :: rest)⟩ =
      some (a.value.toList, ⟨('"' :: (a.value.toList ++ ['"'])).reverse ++ back, rest⟩) := by
    have inside : run (· != '"') ⟨'"' :: back, a.value.toList ++ '"' :: rest⟩ =
        some (a.value.toList, ⟨a.value.toList.reverse ++ '"' :: back, '"' :: rest⟩) := by
      refine run_eq_some_iff.mpr ⟨⟨rfl, rfl⟩, ?_, by simp⟩
      exact fun y hy => bne_iff_ne.mpr (ne_of_mem_of_not_mem hy h.value)
    rw [quotedValue, bind_of_some (literal_cons ..), bind_of_some inside,
      bind_of_some (literal_cons ..)]
    simp
    rfl
  have allowed : require mayStartName ⟨' ' :: before, w ++ rest⟩ =
      some ((), ⟨' ' :: before, w ++ rest⟩) := require_eq_some_iff.mpr ⟨here, rfl⟩
  rw [nameAndValue, bind_of_some allowed, text, bind_of_some (first _), bind_of_some named,
    bind_of_some (gap '=' (by decide) _ _), bind_of_some (literal_cons ..),
    bind_of_some (gap '"' (by decide) _ _), firstOf, bind_of_some (orElse_of_some (value _))]
  simp [w, split]
  rfl

end Reading

section Scanning

variable {α : Type} {r : Recogniser α} {before s w : List Char} {as : List Attribute}

/-- A scan passes a text in which nothing starts. -/
theorem scans_append {os : List (Occurrence α)}
    (h : ∀ x y, w = x ++ y → y ≠ [] → r ⟨x.reverse ++ before, y ++ s⟩ = none)
    (rest : Scans r (w.reverse ++ before) s os) : Scans r before (w ++ s) os := by
  induction w generalizing before with
  | nil => exact rest
  | cons c w ih =>
      refine .pass (h [] (c :: w) rfl (List.cons_ne_nil c w)) (ih ?_ (by simpa using rest))
      rintro x y rfl ne
      simpa using h (c :: x) y rfl ne

theorem written_cons (a : Attribute) (as : List Attribute) : written (a :: as) =
    List.replicate (a.indent + 1) ' ' ++
      ((a.name.toList ++ '=' :: '"' :: (a.value.toList ++ ['"'])) ++ written as) := by
  simp [written, Attribute.text]

/-- Attributes are found one behind the other, as they are written. -/
theorem scans_written (h : ∀ a ∈ as, a.Proper) (before : List Char) : ∃ os,
    Scans nameAndValue before (written as) os ∧
      os.map (·.value) = as.map fun a => (a.name.toList, a.value.toList) := by
  induction as generalizing before with
  | nil => exact ⟨[], .done before, rfl⟩
  | cons a as ih =>
      obtain ⟨proper, h⟩ := List.forall_mem_cons.mp h
      have spaces : (List.replicate (a.indent + 1) ' ').reverse ++ before =
          ' ' :: (List.replicate a.indent ' ' ++ before) := by
        rw [List.reverse_replicate, List.replicate_succ, List.cons_append]
      obtain ⟨os, scans, values⟩ := ih h _
      have read := nameAndValue_attribute proper (List.replicate a.indent ' ' ++ before) (written as)
      rw [written_cons]
      refine ⟨_, scans_append ?_ (spaces ▸ Scans.found (by simp) read scans), by simp [values]⟩
      intro x y split ne
      obtain ⟨c, y, rfl⟩ := List.exists_cons_of_ne_nil ne
      have inside : c ∈ List.replicate (a.indent + 1) ' ' := by simp [split]
      obtain rfl : c = ' ' := List.eq_of_mem_replicate inside
      refine nameAndValue_of_not_start ?_
      rintro _ ⟨⟩
      decide

/-- Nothing is read from a place in front of the first attribute, up to which no equals sign comes. -/
theorem nameAndValue_of_front (h : ∀ a ∈ as, a.Proper) (hw : '=' ∉ w) :
    nameAndValue ⟨before, w ++ written as⟩ = none := by
  rw [Option.eq_none_iff_forall_ne_some]
  rintro ⟨⟨name, value⟩, stop⟩ read
  obtain ⟨g, more, named, blank, -, span⟩ := nameAndValue_eq_some read
  have text : w ++ written as = name ++ (g ++ '=' :: (more ++ stop.after)) := by
    simpa using span.after
  have sign : '=' ∉ name ++ g := by
    rw [List.mem_append]
    rintro (inside | inside)
    · exact absurd (named _ inside) (by decide)
    · exact absurd (blank _ inside) (by decide)
  cases as with
  | nil =>
      have whole : w = name ++ (g ++ '=' :: (more ++ stop.after)) := by simpa [written] using text
      exact hw (by simp [whole])
  | cons a as =>
      obtain ⟨x, xs, split, start, others⟩ := (List.forall_mem_cons.mp h).1.nameStart
      have sign' : '=' ∉ w ++ List.replicate a.indent ' ' ++ ' ' :: (x :: xs) := by
        simp only [List.mem_append, List.mem_cons, List.mem_replicate, not_or]
        refine ⟨⟨hw, by simp⟩, by decide, ?_, fun inside => ?_⟩
        · rintro rfl
          exact absurd start (by decide)
        · exact absurd (others _ inside) (by decide)
      rw [written_cons, split, List.replicate_succ'] at text
      obtain ⟨lead, -⟩ := append_cons_inj_of_first sign' sign
        (s := '"' :: (a.value.toList ++ '"' :: written as)) (by simpa using text)
      -- The space in front of the attribute is part of the gap, and so is all that follows it.
      rcases List.append_eq_append_iff.mp lead with ⟨u, rfl, right⟩ | ⟨u, -, right⟩
      · cases u with
        | nil =>
            rw [List.nil_append] at right
            have ink : isBlank x = true := blank x (by simp [← right])
            rw [isBlank_of_isNameStart start] at ink
            cases ink
        | cons c u =>
            obtain rfl : ' ' = c := (List.cons.inj right).1
            exact absurd (named ' ' (by simp)) (by decide)
      · have ink : isBlank x = true := blank x (by simp [right])
        rw [isBlank_of_isNameStart start] at ink
        cases ink

end Scanning

section Elements

variable {tag content : String} {as : List Attribute}

theorem toList_element (tag : String) (as : List Attribute) (content : String) :
    (element tag as content).toList =
      '<' :: (tag.toList ++ (written as ++ '>' :: (content ++ "</" ++ tag ++ ">").toList)) := by
  simp [element]

/-- A name as it is read ends in front of the first attribute or the closing bracket. -/
theorem written_head? (as : List Attribute) (rest : List Char) :
    ∀ x ∈ (written as ++ '>' :: rest).head?, x = ' ' ∨ x = '>' := by
  intro x hx
  cases as with
  | nil =>
      cases hx
      exact .inr rfl
  | cons a as =>
      rw [written_cons, List.replicate_succ] at hx
      cases hx
      exact .inl rfl

theorem tagName_open {x : Char} (hx : x.isAlpha = true) (s : List Char) :
    tagName.parse? ('<' :: x :: s) = some (x :: s.takeWhile fun c => isWord c || c == '-') := by
  have gap : run isBlank (Cursor.start ('<' :: x :: s)) =
      some ([], Cursor.start ('<' :: x :: s)) := rfl
  have first : one Char.isAlpha ⟨['<'], x :: s⟩ = some (x, ⟨[x, '<'], s⟩) :=
    one_eq_some_iff.mpr ⟨hx, rfl, rfl⟩
  rw [parse?, tagName, bind_of_some gap, Cursor.start, bind_of_some (literal_cons '<' _ _),
    bind_of_some first]
  rfl

theorem tag?_element (h : IsTagName tag.toList) (as : List Attribute) (content : String) :
    tag? (element tag as content) = some (String.ofList (asciiLower tag.toList)) ↔
      ∀ c ∈ tag.toList, isWord c = true ∨ c = '-' := by
  obtain ⟨x, xs, split, letter⟩ := h.letter
  let rest := written as ++ '>' :: (content ++ "</" ++ tag ++ ">").toList
  have read : tag? (element tag as content) =
      some (String.ofList (asciiLower (x :: (xs ++ rest).takeWhile fun c => isWord c || c == '-'))) := by
    rw [tag?, toList_element, split, List.cons_append, tagName_open letter, Option.map_some]
  rw [read, split, Option.some.injEq, String.ofList_inj, List.forall_mem_cons]
  constructor
  · intro same
    have length := congrArg List.length same
    simp only [asciiLower, List.length_map, List.length_cons, Nat.add_right_cancel_iff] at length
    have whole : (xs ++ rest).takeWhile (fun c => isWord c || c == '-') = xs :=
      (List.prefix_of_prefix_length_le (List.takeWhile_prefix _) (List.prefix_append xs rest)
        length.le).eq_of_length length
    refine ⟨.inl (isWord_of_isAlpha letter), fun c hc => ?_⟩
    rw [← whole] at hc
    simpa using List.mem_takeWhile_imp hc
  · rintro ⟨-, all⟩
    have ends : Ends (fun c => isWord c || c == '-') xs rest := by
      refine ⟨fun c hc => by simpa using all c hc, fun c hc => ?_⟩
      rcases written_head? as _ c hc with rfl | rfl <;> decide
    rw [ends.takeWhile.1]

theorem notMem_written_iff (h : ∀ a ∈ as, a.Proper) :
    '>' ∉ written as ↔ ∀ a ∈ as, '>' ∉ a.value.toList := by
  rw [written, List.mem_flatMap, not_exists]
  refine forall_congr' fun a => ?_
  rw [not_and]
  refine forall_congr' fun ha => ?_
  have name : '>' ∉ a.name.toList := by
    obtain ⟨x, xs, split, start, others⟩ := (h a ha).nameStart
    rw [split, List.mem_cons, not_or]
    refine ⟨?_, fun inside => absurd (others _ inside) (by decide)⟩
    rintro rfl
    exact absurd start (by decide)
  simp [Attribute.text, name]

/-- The values of attributes are texts out of the opening tag. -/
theorem notMem_of_get? {markup k v : String} (h : (attributes markup).get? k = some v) :
    '>' ∉ v.toList := by
  have entry := Dictionary.mem_of_mem_ofList (Dictionary.mem_of_find? h)
  obtain ⟨o, ho, e⟩ := List.mem_map.mp entry
  obtain ⟨-, rfl⟩ := Prod.mk.inj e
  obtain ⟨x, y, split, place, read⟩ := mem_occurrences ho
  rw [place] at read
  obtain ⟨g, more, -, -, inside, span⟩ := nameAndValue_eq_some read
  rw [String.toList_ofList]
  intro bracket
  have opened : '>' ∈ markup.toList.takeWhile (· != '>') := by
    have text : y = o.value.1 ++ (g ++ '=' :: more) ++ o.stop.after := span.after
    rw [split, text]
    simp [inside.subset bracket]
  simpa using List.mem_takeWhile_imp opened

/-- Without a closing bracket in a value, all attributes are read as they are written. -/
theorem entries_attributes_element (htag : IsTagName tag.toList) (h : ∀ a ∈ as, a.Proper)
    (distinct : ((as.map Attribute.entry).map (·.1)).Nodup) (plain : ∀ a ∈ as, '>' ∉ a.value.toList)
    (content : String) : (attributes (element tag as content)).entries = as.map Attribute.entry := by
  have front : '=' ∉ '<' :: tag.toList := by
    rw [List.mem_cons, not_or]
    exact ⟨by decide, fun inside => (htag.plain _ inside).2 (by simp)⟩
  have opening : (element tag as content).toList.takeWhile (· != '>') =
      '<' :: tag.toList ++ written as := by
    have ends : Ends (· != '>') ('<' :: tag.toList ++ written as)
        ('>' :: (content ++ "</" ++ tag ++ ">").toList) := by
      refine ⟨fun c hc => bne_iff_ne.mpr ?_, by simp⟩
      rintro rfl
      rw [List.cons_append, List.mem_cons, List.mem_append] at hc
      rcases hc with sign | inside | inside
      · cases sign
      · exact (htag.plain _ inside).2 (by simp)
      · exact (notMem_written_iff h).mpr plain inside
    rw [toList_element, ← ends.takeWhile.1]
    simp
  obtain ⟨os, scans, values⟩ := scans_written h ('<' :: tag.toList).reverse
  have all : Scans nameAndValue [] ('<' :: tag.toList ++ written as) os := by
    refine scans_append ?_ (by simpa using scans)
    intro x y split _
    refine nameAndValue_of_front h fun inside => front ?_
    rw [split]
    exact List.mem_append_right x inside
  have found : nameAndValue.occurrences ('<' :: tag.toList ++ written as) = os :=
    (scans_occurrences consumes_nameAndValue _).unique all
  have entries : os.map (fun o => (String.ofList (asciiLower o.value.1), String.ofList o.value.2)) =
      as.map Attribute.entry := by
    have lowered := congrArg (List.map fun v : List Char × List Char =>
      (String.ofList (asciiLower v.1), String.ofList v.2)) values
    rw [List.map_map, List.map_map] at lowered
    refine lowered.trans (List.map_congr_left fun a _ => ?_)
    simp [Attribute.entry]
  rw [attributes, opening, found, entries, Dictionary.entries_ofList distinct]

/-- What is read of an element: its tag, unless the name holds other characters than those of words
and hyphens, and its attributes, unless a value holds the bracket that closes a tag. -/
theorem tag?_attributes_element (htag : IsTagName tag.toList) (h : ∀ a ∈ as, a.Proper)
    (distinct : ((as.map Attribute.entry).map (·.1)).Nodup) (content : String) :
    (tag? (element tag as content) = some (String.ofList (asciiLower tag.toList)) ↔
      ∀ c ∈ tag.toList, isWord c = true ∨ c = '-') ∧
    ((∀ k, (attributes (element tag as content)).get? k = Dictionary.find? k (as.map Attribute.entry)) ↔
      ∀ a ∈ as, '>' ∉ a.value.toList) := by
  refine ⟨tag?_element htag as content, ?_, ?_⟩
  · intro same a ha
    have there : (a.entry.1, a.value) ∈ as.map Attribute.entry := List.mem_map_of_mem ha
    have found := same a.entry.1
    rw [Dictionary.find?_of_mem distinct there] at found
    exact notMem_of_get? found
  · intro plain k
    rw [Dictionary.get?, entries_attributes_element htag h distinct plain]

/-- A link with a bracket in its title. -/
def linkAttributes : List Attribute := [⟨0, "title", "x > y"⟩, ⟨0, "id", "go"⟩]

theorem tag?_attributes_element_link :
    element "a" linkAttributes "Go" = "<a title=\"x > y\" id=\"go\">Go</a>" ∧
    tag? (element "a" linkAttributes "Go") = some "a" ∧
    ¬∀ k, (attributes (element "a" linkAttributes "Go")).get? k =
      Dictionary.find? k [("title", "x > y"), ("id", "go")] := by
  have tag : IsTagName "a".toList := ⟨⟨'a', [], rfl, by decide⟩, List.forall_mem_singleton.mpr (by decide)⟩
  have proper : ∀ a ∈ linkAttributes, a.Proper := by
    have title : Attribute.Proper ⟨0, "title", "x > y"⟩ :=
      ⟨⟨'t', ['i', 't', 'l', 'e'], rfl, by decide, by simp⟩, by decide⟩
    have id : Attribute.Proper ⟨0, "id", "go"⟩ :=
      ⟨⟨'i', ['d'], rfl, by decide, List.forall_mem_singleton.mpr (by decide)⟩, by decide⟩
    simp [linkAttributes, title, id]
  obtain ⟨named, attributes⟩ := tag?_attributes_element tag proper (by decide) "Go"
  refine ⟨by decide, named.mpr (List.forall_mem_singleton.mpr (.inl rfl)), fun same => ?_⟩
  have plain := attributes.mp same ⟨0, "title", "x > y"⟩ (by simp [linkAttributes])
  revert plain
  decide

end Elements

end Markup
end TestRepair
