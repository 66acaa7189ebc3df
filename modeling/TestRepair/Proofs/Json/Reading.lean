import TestRepair.Proofs.Json.Scalars

/-!
Every JSON value is read back from its text, whether it was written without blanks or laid out over
lines. A grammar says which texts spell a value; the reader reads all of them, and both ways of writing
give one of them.
-/

namespace TestRepair.Json

/-- A text of blanks only. -/
def Blanks (b : List Char) : Prop := ∀ c ∈ b, isBlank c

theorem blanks_nil : Blanks [] := nofun

mutual

/-- A text spells a value; blanks may stand behind brackets, braces, commas and colons, and before
closing ones. -/
inductive Spells : Json → List Char → Prop
  | null : Spells null "null".toList
  | yes : Spells (bool true) "true".toList
  | no : Spells (bool false) "false".toList
  | num (n : JsonNumber) : Spells (num n) (writeNumber n)
  | str (s : String) : Spells (str s) (writeString s)
  | brokenStr : Spells brokenStr "\"\\ud800\"".toList
  | emptyArr : Spells (arr []) ['[', ']']
  | arr {b t ts : List Char} {j : Json} {js : List Json} (hb : Blanks b) (hj : Spells j t)
      (hjs : SpellsItems js ts) : Spells (arr (j :: js)) ('[' :: (b ++ (t ++ ts)))
  | emptyObj : Spells (obj []) ['\x7b', '\x7d']
  | obj {b gap t ts : List Char} {k : String} {j : Json} {ms : List (String × Json)} (hb : Blanks b)
      (hgap : Blanks gap) (hj : Spells j t) (hms : SpellsMembers ms ts) :
      Spells (obj ((k, j) :: ms)) ('\x7b' :: (b ++ (writeString k ++ ':' :: (gap ++ (t ++ ts)))))

/-- A text spells the items after the first one, and the closing bracket. -/
inductive SpellsItems : List Json → List Char → Prop
  | last {b : List Char} (hb : Blanks b) : SpellsItems [] (b ++ [']'])
  | next {b t ts : List Char} {j : Json} {js : List Json} (hb : Blanks b) (hj : Spells j t)
      (hjs : SpellsItems js ts) : SpellsItems (j :: js) (',' :: (b ++ (t ++ ts)))

/-- A text spells the members after the first one, and the closing brace. -/
inductive SpellsMembers : List (String × Json) → List Char → Prop
  | last {b : List Char} (hb : Blanks b) : SpellsMembers [] (b ++ ['\x7d'])
  | next {b gap t ts : List Char} {k : String} {j : Json} {ms : List (String × Json)} (hb : Blanks b)
      (hgap : Blanks gap) (hj : Spells j t) (hms : SpellsMembers ms ts) :
      SpellsMembers ((k, j) :: ms) (',' :: (b ++ (writeString k ++ ':' :: (gap ++ (t ++ ts)))))

end

section

variable {b s rest : List Char} {c : Char} {n : Nat}

theorem skipBlanks_append (hb : Blanks b) (s : List Char) : skipBlanks (b ++ s) = skipBlanks s :=
  List.dropWhile_append_of_pos hb

theorem skipBlanks_cons (hc : isBlank c = false) (s : List Char) : skipBlanks (c :: s) = c :: s := by
  simp [skipBlanks, hc]

theorem value?_blanks (hb : Blanks b) (s : List Char) : value? n (b ++ s) = value? n s := by
  cases n with
  | zero => rw [value?, value?]
  | succ n =>
      rw [value?.eq_def, value?.eq_def (n + 1) s]
      dsimp only
      rw [skipBlanks_append hb]

theorem items?_blanks (hb : Blanks b) (s : List Char) : items? n (b ++ s) = items? n s := by
  cases n with
  | zero => rw [items?, items?]
  | succ n => rw [items?, items?, value?_blanks hb]

theorem members?_blanks (hb : Blanks b) (s : List Char) : members? n (b ++ s) = members? n s := by
  cases n with
  | zero => rw [members?, members?]
  | succ n => rw [members?, members?, skipBlanks_append hb]

/-- Blanks, a comma and closing brackets end a number. -/
theorem endsNumber_blanks (hb : Blanks b) (hc : c = ']' ∨ c = '\x7d' ∨ c = ',') (s : List Char) :
    EndsNumber (b ++ c :: s) := by
  cases b with
  | nil =>
      rintro _ ⟨⟩
      obtain rfl | rfl | rfl := hc <;> decide
  | cons d b =>
      rintro _ ⟨⟩
      have hd := hb d List.mem_cons_self
      simp only [isBlank, Bool.or_eq_true, beq_iff_eq] at hd
      obtain ((rfl | rfl) | rfl) | rfl := hd <;> decide

theorem SpellsItems.endsNumber {js : List Json} {ts : List Char} (h : SpellsItems js ts)
    (rest : List Char) : EndsNumber (ts ++ rest) := by
  cases h with
  | last hb => simpa using endsNumber_blanks hb (.inl rfl) rest
  | next => exact endsNumber_blanks blanks_nil (.inr (.inr rfl)) _

theorem SpellsMembers.endsNumber {ms : List (String × Json)} {ts : List Char}
    (h : SpellsMembers ms ts) (rest : List Char) : EndsNumber (ts ++ rest) := by
  cases h with
  | last hb => simpa using endsNumber_blanks hb (.inr (.inl rfl)) rest
  | next => exact endsNumber_blanks blanks_nil (.inr (.inr rfl)) _

theorem isBlank_of_isDigit (hc : c.isDigit) : isBlank c = false := by
  refine Bool.eq_false_iff.mpr fun h => ?_
  simp only [isBlank, Bool.or_eq_true, beq_iff_eq] at h
  obtain ((rfl | rfl) | rfl) | rfl := h <;> exact absurd hc (by decide)

theorem value?_digit (hc : c.isDigit) (s : List Char) :
    value? (n + 1) (c :: s) = number? false (c :: s) := by
  rw [value?.eq_def]
  dsimp only
  rw [skipBlanks_cons (isBlank_of_isDigit hc)]
  split
  all_goals
    first
      | rfl
      | next h =>
          cases h
          exact absurd hc (by decide)

theorem value?_writeNumber (m : JsonNumber) (hs : EndsNumber s) :
    value? (n + 1) (writeNumber m ++ s) = some (num m, s) := by
  have digits (k : Nat) (s : List Char) :
      value? (n + 1) (Nat.toDigits 10 k ++ s) = number? false (Nat.toDigits 10 k ++ s) := by
    cases hds : Nat.toDigits 10 k with
    | nil => exact absurd hds Nat.toDigits_ne_nil
    | cons d ds => exact value?_digit (isDigit_of_mem_toDigits (hds ▸ List.mem_cons_self)) _
  cases m with
  | whole negative k =>
      cases negative with
      | false => exact (digits k s).trans (number?_whole false k hs)
      | true => exact number?_whole true k hs
  | fraction negative k e =>
      have hwritten : writeNumber (.fraction negative k e) =
          (if negative then ['-'] else []) ++ (Nat.toDigits 10 k ++ writeExponent e) := by
        cases e <;> simp [writeNumber, writeExponent]
      rw [hwritten, List.append_assoc, List.append_assoc]
      cases negative with
      | false => exact (digits k _).trans (number?_fraction false k e hs)
      | true => exact number?_fraction true k e hs

theorem value?_writeString (k : String) (s : List Char) :
    value? (n + 1) (writeString k ++ s) = some (str k, s) := by
  have hread := string?_written k s
  rw [List.append_cons] at hread
  exact hread

/-- A spelled value begins with no blank and with no closing bracket. -/
theorem Spells.head {j : Json} {t : List Char} (h : Spells j t) :
    ∃ c t', t = c :: t' ∧ isBlank c = false ∧ c ≠ ']' := by
  have digits (k : Nat) (s : List Char) :
      ∃ c t', Nat.toDigits 10 k ++ s = c :: t' ∧ isBlank c = false ∧ c ≠ ']' := by
    cases hds : Nat.toDigits 10 k with
    | nil => exact absurd hds Nat.toDigits_ne_nil
    | cons d ds =>
        have hd : d.isDigit := isDigit_of_mem_toDigits (hds ▸ List.mem_cons_self)
        refine ⟨d, ds ++ s, rfl, isBlank_of_isDigit hd, ?_⟩
        rintro rfl
        exact absurd hd (by decide)
  cases h with
  | null | yes | no | str | brokenStr | emptyArr | arr | emptyObj | obj =>
      exact ⟨_, _, rfl, by decide, by decide⟩
  | num m =>
      cases m with
      | whole negative k =>
          cases negative with
          | false => simpa [writeNumber] using digits k []
          | true => exact ⟨_, _, rfl, by decide, by decide⟩
      | fraction negative k e =>
          cases negative with
          | false => exact digits k _
          | true => exact ⟨_, _, rfl, by decide, by decide⟩

/-- An array is read like its items, if there are some. -/
theorem value?_bracket (hb : Blanks b) (hs : ∃ c s', s = c :: s' ∧ isBlank c = false ∧ c ≠ ']') :
    value? (n + 1) ('[' :: (b ++ s)) = (items? n s).map fun (js, s) => (arr js, s) := by
  obtain ⟨c, s', rfl, hblank, hc⟩ := hs
  rw [value?.eq_def]
  simp only [skipBlanks_cons (by decide : isBlank '[' = false), skipBlanks_append hb,
    skipBlanks_cons hblank]
  split
  · next h => exact absurd (List.cons.inj h).1 hc
  · rfl

/-- An object is read like its members, if there are some. -/
theorem value?_brace (hb : Blanks b) (k : String) :
    value? (n + 1) ('\x7b' :: (b ++ (writeString k ++ s))) =
      (members? n (writeString k ++ s)).map fun (ms, s) => (obj ms, s) := by
  rw [value?.eq_def]
  simp only [skipBlanks_cons (by decide : isBlank '\x7b' = false), skipBlanks_append hb]
  rfl

theorem items?_last {j : Json} (hb : Blanks b) (hv : value? n s = some (j, b ++ ']' :: rest)) :
    items? (n + 1) s = some ([j], rest) := by
  rw [items?, hv]
  simp only [Option.bind_eq_bind, Option.bind_some, skipBlanks_append hb]
  rfl

theorem items?_next {j : Json} (hv : value? n s = some (j, ',' :: rest)) :
    items? (n + 1) s = (items? n rest).map fun (js, s) => (j :: js, s) := by
  rw [items?, hv]
  simp only [Option.bind_eq_bind, Option.bind_some,
    skipBlanks_cons (by decide : isBlank ',' = false)]
  cases items? n rest <;> rfl

/-- The name of a member and the colon are read, and then its value. -/
theorem members?_written (k : String) (s : List Char) :
    members? (n + 1) (writeString k ++ ':' :: s) = (do
      let (j, s) ← value? n s
      match skipBlanks s with
      | ',' :: s =>
        let (ms, s) ← members? n s
        pure ((k, j) :: ms, s)
      | '\x7d' :: s => pure ([(k, j)], s)
      | _ => none) := by
  have htext : writeString k ++ ':' :: s = '"' :: (k.toList.flatMap writeChar ++ '"' :: ':' :: s) := by
    simp [writeString]
  have read := members?.eq_2 (writeString k ++ ':' :: s) n
  rw [htext] at read ⊢
  simp only [skipBlanks_cons (by decide : isBlank '"' = false), Option.bind_eq_bind,
    Option.bind_some, units?_written, unitsText?_toNat,
    skipBlanks_cons (by decide : isBlank ':' = false), String.ofList_toList] at read
  exact read

theorem members?_last {j : Json} (k : String) (hb : Blanks b)
    (hv : value? n s = some (j, b ++ '\x7d' :: rest)) :
    members? (n + 1) (writeString k ++ ':' :: s) = some ([(k, j)], rest) := by
  rw [members?_written, hv]
  simp only [Option.bind_eq_bind, Option.bind_some, skipBlanks_append hb]
  rfl

theorem members?_next {j : Json} (k : String) (hv : value? n s = some (j, ',' :: rest)) :
    members? (n + 1) (writeString k ++ ':' :: s) =
      (members? n rest).map fun (ms, s) => ((k, j) :: ms, s) := by
  rw [members?_written, hv]
  simp only [Option.bind_eq_bind, Option.bind_some,
    skipBlanks_cons (by decide : isBlank ',' = false)]
  cases members? n rest <;> rfl

end

/-- With a budget of `n`, the reader reads every text that is no longer than that. -/
structure ReadsWithin (n : Nat) : Prop where
  value : ∀ {j t rest}, Spells j t → t.length ≤ n → EndsNumber rest →
    value? n (t ++ rest) = some (j, rest)
  items : ∀ {j t js ts rest}, Spells j t → SpellsItems js ts → t.length + ts.length ≤ n →
    items? n (t ++ (ts ++ rest)) = some (j :: js, rest)
  members : ∀ {k gap j t ms ts rest}, Blanks gap → Spells j t → SpellsMembers ms ts →
    t.length + ts.length ≤ n →
      members? n (writeString k ++ ':' :: (gap ++ (t ++ (ts ++ rest)))) = some ((k, j) :: ms, rest)

namespace ReadsWithin

variable {n : Nat} {gap t ts rest : List Char} {k : String} {j : Json} {js : List Json}
  {ms : List (String × Json)} (reads : ReadsWithin n)

include reads

theorem value_succ (h : Spells j t) (hn : t.length ≤ n + 1) (hrest : EndsNumber rest) :
    value? (n + 1) (t ++ rest) = some (j, rest) := by
  cases h with
  | null | yes | no | emptyArr | emptyObj => rfl
  | num m => exact value?_writeNumber m hrest
  | str s => exact value?_writeString s rest
  | brokenStr => exact string?_broken rest
  | @arr b t ts j js hb hj hjs =>
      simp only [List.length_cons, List.length_append] at hn
      have hitems : items? n (t ++ (ts ++ rest)) = some (j :: js, rest) :=
        reads.items hj hjs (by omega)
      have hhead : ∃ c s', t ++ (ts ++ rest) = c :: s' ∧ isBlank c = false ∧ c ≠ ']' := by
        obtain ⟨c, t', rfl, hc⟩ := hj.head
        exact ⟨c, _, rfl, hc⟩
      simp only [List.cons_append, List.append_assoc]
      rw [value?_bracket hb hhead, hitems]
      rfl
  | @obj b gap t ts k j ms hb hgap hj hms =>
      simp only [List.length_cons, List.length_append] at hn
      have hmembers : members? n (writeString k ++ ':' :: (gap ++ (t ++ (ts ++ rest)))) =
          some ((k, j) :: ms, rest) :=
        reads.members hgap hj hms (by omega)
      simp only [List.cons_append, List.append_assoc]
      rw [value?_brace hb, hmembers]
      rfl

theorem items_succ (hj : Spells j t) (h : SpellsItems js ts) (hn : t.length + ts.length ≤ n + 1) :
    items? (n + 1) (t ++ (ts ++ rest)) = some (j :: js, rest) := by
  have hvalue : t.length ≤ n → value? n (t ++ (ts ++ rest)) = some (j, ts ++ rest) :=
    fun hn => reads.value hj hn (h.endsNumber rest)
  cases h with
  | @last b hb =>
      simp only [List.length_append, List.length_singleton] at hn
      refine items?_last hb ?_
      simpa using hvalue (by omega)
  | @next b t' ts' j' js' hb hj' hjs =>
      simp only [List.length_cons, List.length_append] at hn
      have hitems : items? n (t' ++ (ts' ++ rest)) = some (j' :: js', rest) :=
        reads.items hj' hjs (by omega)
      simp only [List.cons_append, List.append_assoc] at hvalue ⊢
      rw [items?_next (hvalue (by omega)), items?_blanks hb, hitems]
      rfl

theorem members_succ (hgap : Blanks gap) (hj : Spells j t) (h : SpellsMembers ms ts)
    (hn : t.length + ts.length ≤ n + 1) :
    members? (n + 1) (writeString k ++ ':' :: (gap ++ (t ++ (ts ++ rest)))) =
      some ((k, j) :: ms, rest) := by
  have hvalue : t.length ≤ n → value? n (gap ++ (t ++ (ts ++ rest))) = some (j, ts ++ rest) :=
    fun hn => (value?_blanks hgap _).trans (reads.value hj hn (h.endsNumber rest))
  cases h with
  | @last b hb =>
      simp only [List.length_append, List.length_singleton] at hn
      refine members?_last k hb ?_
      simpa using hvalue (by omega)
  | @next b gap' t' ts' k' j' ms' hb hgap' hj' hms =>
      simp only [List.length_cons, List.length_append] at hn
      have hmembers : members? n (writeString k' ++ ':' :: (gap' ++ (t' ++ (ts' ++ rest)))) =
          some ((k', j') :: ms', rest) :=
        reads.members hgap' hj' hms (by omega)
      simp only [List.cons_append, List.append_assoc] at hvalue ⊢
      rw [members?_next k (hvalue (by omega)), members?_blanks hb, hmembers]
      rfl

end ReadsWithin

theorem Spells.length_pos {j : Json} {t : List Char} (h : Spells j t) : 0 < t.length := by
  obtain ⟨c, t', rfl, -⟩ := h.head
  exact Nat.succ_pos _

/-- The budget bounds how deep the text is nested. -/
theorem readsWithin (n : Nat) : ReadsWithin n := by
  induction n with
  | zero =>
      refine ⟨fun hj hn => ?_, fun hj _ hn => ?_, fun _ hj _ hn => ?_⟩
      all_goals
        have := hj.length_pos
        omega
  | succ n ih => exact ⟨ih.value_succ, ih.items_succ, ih.members_succ⟩

/-- Every text that spells a value is read as that value. -/
theorem read?_of_spells {j : Json} {s : String} (h : Spells j s.toList) : read? s = some j := by
  have hends : EndsNumber [] := nofun
  have hvalue := (readsWithin (s.toList.length + 1)).value h (Nat.le_succ _) hends
  rw [List.append_nil] at hvalue
  simp only [read?, hvalue]
  rfl

/-! ### Both ways of writing -/

theorem write_obj (k : String) (j : Json) (ms : List (String × Json)) :
    write (obj ((k, j) :: ms)) =
      '\x7b' :: ([] ++ (writeString k ++ ':' :: ([] ++ (write j ++ writeMembers ms)))) := by
  change '\x7b' :: writeString k ++ ':' :: write j ++ writeMembers ms = _
  simp

theorem writeMembers_cons (k : String) (j : Json) (ms : List (String × Json)) :
    writeMembers ((k, j) :: ms) =
      ',' :: ([] ++ (writeString k ++ ':' :: ([] ++ (write j ++ writeMembers ms)))) := by
  change ',' :: writeString k ++ ':' :: write j ++ writeMembers ms = _
  simp

mutual

theorem spells_write : (j : Json) → Spells j (write j)
  | null => .null
  | bool true => .yes
  | bool false => .no
  | num n => .num n
  | str s => .str s
  | brokenStr => .brokenStr
  | arr [] => .emptyArr
  | arr (j :: js) => .arr blanks_nil (spells_write j) (spellsItems_write js)
  | obj [] => .emptyObj
  | obj ((k, j) :: ms) =>
    write_obj k j ms ▸ .obj blanks_nil blanks_nil (spells_write j) (spellsMembers_write ms)

theorem spellsItems_write : (js : List Json) → SpellsItems js (writeItems js)
  | [] => .last blanks_nil
  | j :: js => .next blanks_nil (spells_write j) (spellsItems_write js)

theorem spellsMembers_write : (ms : List (String × Json)) → SpellsMembers ms (writeMembers ms)
  | [] => .last blanks_nil
  | (k, j) :: ms =>
    writeMembers_cons k j ms ▸
      .next blanks_nil blanks_nil (spells_write j) (spellsMembers_write ms)

end

theorem blanks_newline (depth : Nat) : Blanks (newline depth) := by
  intro c hc
  obtain rfl | hc := List.mem_cons.mp hc
  · rfl
  · rw [List.eq_of_mem_replicate hc]
    rfl

theorem blanks_gap : Blanks [' '] := by
  intro c hc
  rw [List.mem_singleton.mp hc]
  rfl

theorem layout_arr (d : Nat) (j : Json) (js : List Json) :
    layout d (arr (j :: js)) =
      '[' :: (newline (d + 1) ++ (layout (d + 1) j ++ layoutItems d js)) := by
  change '[' :: newline (d + 1) ++ layout (d + 1) j ++ layoutItems d js = _
  simp

theorem layoutItems_cons (d : Nat) (j : Json) (js : List Json) :
    layoutItems d (j :: js) =
      ',' :: (newline (d + 1) ++ (layout (d + 1) j ++ layoutItems d js)) := by
  change ',' :: newline (d + 1) ++ layout (d + 1) j ++ layoutItems d js = _
  simp

theorem layout_obj (d : Nat) (k : String) (j : Json) (ms : List (String × Json)) :
    layout d (obj ((k, j) :: ms)) = '\x7b' :: (newline (d + 1) ++
      (writeString k ++ ':' :: ([' '] ++ (layout (d + 1) j ++ layoutMembers d ms)))) := by
  change '\x7b' :: newline (d + 1) ++ writeString k ++ ": ".toList ++ layout (d + 1) j ++
    layoutMembers d ms = _
  simp

theorem layoutMembers_cons (d : Nat) (k : String) (j : Json) (ms : List (String × Json)) :
    layoutMembers d ((k, j) :: ms) = ',' :: (newline (d + 1) ++
      (writeString k ++ ':' :: ([' '] ++ (layout (d + 1) j ++ layoutMembers d ms)))) := by
  change ',' :: newline (d + 1) ++ writeString k ++ ": ".toList ++ layout (d + 1) j ++
    layoutMembers d ms = _
  simp

mutual

theorem spells_layout (d : Nat) : (j : Json) → Spells j (layout d j)
  | null => .null
  | bool true => .yes
  | bool false => .no
  | num n => .num n
  | str s => .str s
  | brokenStr => .brokenStr
  | arr [] => .emptyArr
  | arr (j :: js) =>
    layout_arr d j js ▸
      .arr (blanks_newline (d + 1)) (spells_layout (d + 1) j) (spellsItems_layout d js)
  | obj [] => .emptyObj
  | obj ((k, j) :: ms) =>
    layout_obj d k j ms ▸
      .obj (blanks_newline (d + 1)) blanks_gap (spells_layout (d + 1) j) (spellsMembers_layout d ms)

theorem spellsItems_layout (d : Nat) : (js : List Json) → SpellsItems js (layoutItems d js)
  | [] => .last (blanks_newline d)
  | j :: js =>
    layoutItems_cons d j js ▸
      .next (blanks_newline (d + 1)) (spells_layout (d + 1) j) (spellsItems_layout d js)

theorem spellsMembers_layout (d : Nat) :
    (ms : List (String × Json)) → SpellsMembers ms (layoutMembers d ms)
  | [] => .last (blanks_newline d)
  | (k, j) :: ms =>
    layoutMembers_cons d k j ms ▸
      .next (blanks_newline (d + 1)) blanks_gap (spells_layout (d + 1) j)
        (spellsMembers_layout d ms)

end

theorem read?_compact (j : Json) : read? (compact j) = some j :=
  read?_of_spells (by simpa [compact] using spells_write j)

theorem read?_pretty (j : Json) : read? (pretty j) = some j :=
  read?_of_spells (by simpa [pretty] using spells_layout 0 j)

end TestRepair.Json
