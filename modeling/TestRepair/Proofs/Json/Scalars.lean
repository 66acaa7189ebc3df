import TestRepair.Json.Printer
import TestRepair.Json.Reader

/-!
Strings and numbers are read as they were written. A string is read up to its closing quote, whatever
follows; a number is read to its end where something follows that no number goes on with.
-/

namespace TestRepair.Json

/-! ### Strings -/

theorem fourHex_control : ∀ n < 32,
    fourHex n = ['0', '0', Nat.digitChar (n / 16), Nat.digitChar (n % 16)] ∧
      hexValue? (Nat.digitChar (n / 16)) = some (n / 16) ∧
      hexValue? (Nat.digitChar (n % 16)) = some (n % 16) := by
  decide

/-- A control character without a short escape is written by its code point. -/
theorem units?_control {n : Nat} (hn : n < 32) (s : List Char) :
    units? ('\\' :: 'u' :: fourHex n ++ s) =
      (units? s).map fun (us, rest) => (n :: us, rest) := by
  obtain ⟨hex, hhigh, hlow⟩ := fourHex_control n hn
  have hzero : hexValue? '0' = some 0 := by decide
  have hvalue : ((0 * 16 + 0) * 16 + n / 16) * 16 + n % 16 = n := by omega
  simp only [hex, List.cons_append, List.nil_append, units?, hzero, hhigh, hlow, Option.bind_eq_bind,
    Option.bind_some, hvalue]
  cases units? s <;> rfl

/-- A character that may stand for itself. -/
theorem units?_plain {c : Char} (hquote : c ≠ '"') (hslash : c ≠ '\\') (hc : ¬c.toNat < 32)
    (s : List Char) :
    units? (c :: s) = (units? s).map fun (us, rest) => (c.toNat :: us, rest) := by
  rw [units?.eq_def]
  split
  · contradiction
  · next h => cases h; exact absurd rfl hquote
  · next h => cases h; exact absurd rfl hslash
  · next h => cases h; exact absurd rfl hslash
  · next h =>
      cases h
      simp only [hc, hslash, decide_false, beq_iff_eq, Bool.false_eq_true, if_false,
        Bool.or_eq_true, or_self]
      cases units? s <;> rfl

theorem units?_short {e d : Char} (he : e ≠ 'u') (hd : shortEscape? e = some d) (s : List Char) :
    units? ('\\' :: e :: s) = (units? s).map fun (us, rest) => (d.toNat :: us, rest) := by
  rw [units?.eq_def]
  split
  · contradiction
  · next h => cases h
  · next h => cases h; exact absurd rfl he
  · next h =>
      cases h
      simp only [hd, Option.bind_eq_bind, Option.bind_some]
      cases units? s <;> rfl
  · next _ _ other h =>
      cases h
      exact absurd rfl (other e s rfl)

/-- A character is written by a short escape, by its code point, or as itself. -/
theorem writeChar_cases (c : Char) :
    (∃ e, writeChar c = ['\\', e] ∧ e ≠ 'u' ∧ shortEscape? e = some c) ∨
    (writeChar c = '\\' :: 'u' :: fourHex c.toNat ∧ c.toNat < 32) ∨
    (writeChar c = [c] ∧ c ≠ '"' ∧ c ≠ '\\' ∧ ¬c.toNat < 32) := by
  by_cases short : c ∈ ['"', '\\', '\n', '\r', '\t', '\x08', '\x0c']
  · simp only [List.mem_cons, List.not_mem_nil, or_false] at short
    rcases short with rfl | rfl | rfl | rfl | rfl | rfl | rfl <;> exact .inl ⟨_, rfl, by decide, rfl⟩
  · simp only [List.mem_cons, List.not_mem_nil, or_false, not_or] at short
    by_cases control : c.toNat < 32
    · exact .inr (.inl ⟨by simp [writeChar, short, control], control⟩)
    · exact .inr (.inr ⟨by simp [writeChar, short, control], short.1, short.2.1, control⟩)

/-- A written character is read as its code point. -/
theorem units?_writeChar (c : Char) (s : List Char) :
    units? (writeChar c ++ s) = (units? s).map fun (us, rest) => (c.toNat :: us, rest) := by
  obtain ⟨e, written, he, hc⟩ | ⟨written, hc⟩ | ⟨written, hquote, hslash, hc⟩ := writeChar_cases c
  · rw [written]
    exact units?_short he hc s
  · rw [written]
    exact units?_control hc s
  · rw [written]
    exact units?_plain hquote hslash hc s

theorem units?_written (cs s : List Char) :
    units? (cs.flatMap writeChar ++ '"' :: s) = some (cs.map Char.toNat, s) := by
  induction cs with
  | nil => simp [units?]
  | cons c cs ih =>
      rw [List.flatMap_cons, List.append_assoc, units?_writeChar, ih]
      rfl

/-- No character is half of a surrogate pair. -/
theorem isHalf_toNat (c : Char) : isHighHalf c.toNat = false ∧ isLowHalf c.toNat = false := by
  have h := c.valid
  simp only [isHighHalf, isLowHalf, Bool.and_eq_false_iff, decide_eq_false_iff_not]
  change c.toNat < 0xd800 ∨ 0xdfff < c.toNat ∧ c.toNat < 0x110000 at h
  omega

theorem unitsText?_toNat (cs : List Char) : unitsText? (cs.map Char.toNat) = some cs := by
  induction cs with
  | nil => rfl
  | cons c cs ih =>
      obtain ⟨hhigh, hlow⟩ := isHalf_toNat c
      cases cs with
      | nil => simp [unitsText?, hhigh, hlow, Char.ofNat_toNat]
      | cons c' cs =>
          rw [List.map_cons] at ih
          simp [unitsText?, hhigh, hlow, ih, Char.ofNat_toNat]

/-- Behind its opening quote, a written text is read as that text. -/
theorem string?_written (s : String) (rest : List Char) :
    string? (s.toList.flatMap writeChar ++ '"' :: rest) = some (.str s, rest) := by
  simp [string?, units?_written, unitsText?_toNat]

theorem string?_broken (rest : List Char) :
    string? ("\\ud800\"".toList ++ rest) = some (.brokenStr, rest) := by
  simp [string?, units?, hexValue?, unitsText?, isHighHalf]

/-! ### Numbers -/

/-- Nothing follows that a number goes on with. -/
def EndsNumber (s : List Char) : Prop :=
  ∀ c ∈ s.head?, c.isDigit = false ∧ c ≠ '.' ∧ c ≠ 'e' ∧ c ≠ 'E'

theorem digitsValue_toDigits (n : Nat) : digitsValue (Nat.toDigits 10 n) = n :=
  Nat.ofDigitChars_ten_toDigits

theorem isDigit_of_mem_toDigits {n : Nat} {c : Char} (h : c ∈ Nat.toDigits 10 n) : c.isDigit :=
  Nat.isDigit_of_mem_toDigits (by decide) (by decide) h

/-- Only zero is written with a leading zero. -/
theorem eq_nil_of_leadingZero {n : Nat} {ds : List Char} (h : Nat.toDigits 10 n = '0' :: ds) :
    ds = [] := by
  induction n using Nat.strongRecOn generalizing ds with
  | ind n ih =>
      by_cases hn : n < 10
      · rw [Nat.toDigits_of_lt_base hn] at h
        exact (List.cons.inj h).2.symm
      · rw [Nat.toDigits_of_base_le (by decide) (Nat.le_of_not_lt hn)] at h
        cases hhead : Nat.toDigits 10 (n / 10) with
        | nil => exact absurd hhead Nat.toDigits_ne_nil
        | cons d ds' =>
            rw [hhead, List.cons_append] at h
            obtain ⟨rfl, -⟩ := List.cons.inj h
            obtain rfl := ih (n / 10) (by omega) hhead
            have hzero := digitsValue_toDigits (n / 10)
            rw [hhead] at hzero
            have : n / 10 = 0 := hzero.symm
            omega

theorem takeWhile_toDigits (n : Nat) {s : List Char} (hs : ∀ c ∈ s.head?, c.isDigit = false) :
    (Nat.toDigits 10 n ++ s).takeWhile Char.isDigit = Nat.toDigits 10 n ∧
      (Nat.toDigits 10 n ++ s).dropWhile Char.isDigit = s := by
  have hd : ∀ c ∈ Nat.toDigits 10 n, c.isDigit := fun c hc => isDigit_of_mem_toDigits hc
  rw [List.takeWhile_append_of_pos hd, List.dropWhile_append_of_pos hd]
  cases s with
  | nil => simp
  | cons c s => simp [hs c rfl]

theorem wholeDigits?_toDigits (n : Nat) {s : List Char} (hs : ∀ c ∈ s.head?, c.isDigit = false) :
    wholeDigits? (Nat.toDigits 10 n ++ s) = some (Nat.toDigits 10 n, s) := by
  obtain ⟨htake, hdrop⟩ := takeWhile_toDigits n hs
  unfold wholeDigits?
  split
  · next rest h =>
      cases hds : Nat.toDigits 10 n with
      | nil => exact absurd hds Nat.toDigits_ne_nil
      | cons d ds =>
          rw [hds] at h
          obtain ⟨rfl, hrest⟩ := List.cons.inj h
          obtain rfl := eq_nil_of_leadingZero hds
          rw [← hrest]
          rfl
  · simp [htake, hdrop, Nat.toDigits_ne_nil]

theorem exponentDigits?_toDigits (negative : Bool) (n : Nat) {s : List Char}
    (hs : ∀ c ∈ s.head?, c.isDigit = false) :
    exponentDigits? negative (Nat.toDigits 10 n ++ s) =
      some (some (if negative then -Int.ofNat n else Int.ofNat n), s) := by
  obtain ⟨htake, hdrop⟩ := takeWhile_toDigits n hs
  simp [exponentDigits?, htake, hdrop, Nat.toDigits_ne_nil, digitsValue_toDigits]

theorem fractionDigits?_none {s : List Char} (hs : ∀ c ∈ s.head?, c ≠ '.') :
    fractionDigits? s = some (none, s) := by
  unfold fractionDigits?
  split
  · exact absurd rfl (hs '.' rfl)
  · rfl

theorem exponent?_none {s : List Char} (hs : ∀ c ∈ s.head?, c ≠ 'e' ∧ c ≠ 'E') :
    exponent? s = some (none, s) := by
  cases s with
  | nil => rfl
  | cons c s => simp [exponent?, hs c rfl]

theorem exponent?_positive (n : Nat) {s : List Char} (hs : ∀ c ∈ s.head?, c.isDigit = false) :
    exponent? ('e' :: Nat.toDigits 10 n ++ s) = some (some (Int.ofNat n), s) := by
  refine Eq.trans ?_ (exponentDigits?_toDigits false n hs)
  rw [List.cons_append, exponent?.eq_def]
  cases hds : Nat.toDigits 10 n with
  | nil => exact absurd hds Nat.toDigits_ne_nil
  | cons d ds =>
      have hd : d.isDigit := isDigit_of_mem_toDigits (hds ▸ List.mem_cons_self)
      have hminus : d ≠ '-' := fun h => absurd (h ▸ hd) (by decide)
      have hplus : d ≠ '+' := fun h => absurd (h ▸ hd) (by decide)
      simp [hminus, hplus]

theorem exponent?_negative (n : Nat) {s : List Char} (hs : ∀ c ∈ s.head?, c.isDigit = false) :
    exponent? ('e' :: '-' :: Nat.toDigits 10 n ++ s) = some (some (-Int.ofNat n), s) := by
  rw [exponent?.eq_def]
  exact exponentDigits?_toDigits true n hs

/-- How the exponent of a number is written. -/
def writeExponent : Int → List Char
  | .ofNat e => 'e' :: Nat.toDigits 10 e
  | .negSucc e => 'e' :: '-' :: Nat.toDigits 10 (e + 1)

theorem exponent?_written (e : Int) {s : List Char} (hs : ∀ c ∈ s.head?, c.isDigit = false) :
    exponent? (writeExponent e ++ s) = some (some e, s) := by
  cases e with
  | ofNat e => exact exponent?_positive e hs
  | negSucc e => exact exponent?_negative (e + 1) hs

theorem head?_writeExponent (e : Int) (s : List Char) :
    (writeExponent e ++ s).head? = some 'e' := by
  cases e <;> rfl

/-- Behind its sign, a written number is read as that number. -/
theorem number?_whole (negative : Bool) (n : Nat) {s : List Char} (hs : EndsNumber s) :
    number? negative (Nat.toDigits 10 n ++ s) = some (.num (.whole negative n), s) := by
  simp only [number?, wholeDigits?_toDigits n fun c hc => (hs c hc).1,
    fractionDigits?_none fun c hc => (hs c hc).2.1, exponent?_none fun c hc => (hs c hc).2.2,
    Option.bind_eq_bind, Option.bind_some, digitsValue_toDigits]
  rfl

theorem number?_fraction (negative : Bool) (m : Nat) (e : Int) {s : List Char}
    (hs : EndsNumber s) :
    number? negative (Nat.toDigits 10 m ++ (writeExponent e ++ s)) =
      some (.num (.fraction negative m e), s) := by
  have hdigits : ∀ c ∈ (writeExponent e ++ s).head?, c.isDigit = false ∧ c ≠ '.' := by
    rw [head?_writeExponent]
    rintro c ⟨⟩
    decide
  simp only [number?, wholeDigits?_toDigits m fun c hc => (hdigits c hc).1,
    fractionDigits?_none fun c hc => (hdigits c hc).2, exponent?_written e fun c hc => (hs c hc).1,
    Option.bind_eq_bind, Option.bind_some, Option.getD_none, Option.getD_some, List.append_nil,
    digitsValue_toDigits]
  simp

end TestRepair.Json
