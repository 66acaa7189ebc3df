import Mathlib.Data.List.TakeWhile
import TestRepair.Proofs.Text.Scanning
import TestRepair.Script.Import

/-!
Where the specifier of an import stands: it is one of the parts into which quotes divide the script.
-/

namespace TestRepair

namespace Text.Recogniser

variable {α β : Type}

/-- What is left is the end of what there was. -/
def Forward (r : Recogniser α) : Prop := ∀ c a c', r c = some (a, c') → c'.after <:+ c.after

theorem Forward.bind {r : Recogniser α} {f : α → Recogniser β} (hr : r.Forward)
    (hf : ∀ a, (f a).Forward) : (r >>= f).Forward := by
  intro c b c' h
  obtain ⟨a, c₁, hread, hrest⟩ := bind_eq_some_iff.mp h
  exact (hf a c₁ b c' hrest).trans (hr c a c₁ hread)

theorem Forward.orElse {r r' : Recogniser α} (hr : r.Forward) (hr' : r'.Forward) :
    (r <|> r').Forward := by
  intro c a c' h
  change (r c).orElse (fun _ => r' c) = _ at h
  cases hread : r c with
  | none => exact hr' c a c' (by simpa [hread] using h)
  | some read => exact hr c a c' (by simpa [hread] using h)

theorem forward_pure (a : α) : Forward (pure a) := by
  rintro c _ _ h
  cases h
  exact List.suffix_rfl

theorem forward_boundary : Forward boundary := by
  intro c _ c' h
  change (if _ then some ((), c) else none) = _ at h
  split at h
  · cases h
    exact List.suffix_rfl
  · cases h

theorem forward_literal (s : List Char) : (literal s).Forward := fun _ _ _ h =>
  ⟨s, (literal_eq_some h).1.symm⟩

theorem one_eq_some {p : Char → Bool} {c c' : Cursor} {x : Char} (h : one p c = some (x, c')) :
    c.after = x :: c'.after ∧ p x := by
  obtain ⟨before, _ | ⟨y, after⟩⟩ := c
  · cases h
  · change (if p y then _ else none) = _ at h
    split at h
    · cases h
      exact ⟨rfl, ‹_›⟩
    · cases h

theorem run1_eq_some {p : Char → Bool} {c c' : Cursor} {s : List Char}
    (h : run1 p c = some (s, c')) : c.after = s ++ c'.after ∧ ∀ x ∈ s, p x := by
  obtain ⟨read, c₁, hrun, h⟩ := bind_eq_some_iff.mp h
  cases hrun
  split at h
  · cases h
  · cases h
    exact ⟨List.takeWhile_append_dropWhile.symm, fun x hx => List.mem_takeWhile_imp hx⟩

theorem forward_one (p : Char → Bool) : (one p).Forward := fun _ x _ h =>
  ⟨[x], (one_eq_some h).1.symm⟩

theorem forward_run (p : Char → Bool) : (run p).Forward := by
  rintro c _ _ h
  cases h
  exact List.dropWhile_suffix p

theorem forward_run1 (p : Char → Bool) : (run1 p).Forward := fun _ s _ h =>
  ⟨s, (run1_eq_some h).1.symm⟩

end Text.Recogniser

namespace Script

open Text Recogniser

/-- A part of a text between two quotes. -/
def Quoted (s text : List Char) : Prop :=
  ∃ a q q' b, text = a ++ q :: (s ++ q' :: b) ∧ isQuote q ∧ isQuote q' ∧ ∀ x ∈ s, isQuote x = false

theorem Quoted.of_suffix {s text text' : List Char} (h : Quoted s text) (ht : text <:+ text') :
    Quoted s text' := by
  obtain ⟨a, q, q', b, rfl, hq⟩ := h
  obtain ⟨first, rfl⟩ := ht
  exact ⟨first ++ a, q, q', b, by rw [List.append_assoc], hq⟩

theorem Quoted.mem_splitOnP {s text : List Char} (h : Quoted s text) :
    s ∈ text.splitOnP isQuote := by
  obtain ⟨a, q, q', b, rfl, hq, hq', hs⟩ := h
  rw [List.splitOnP_append_cons _ _ hq, List.splitOnP_append_cons_of_forall_mem hs _ hq']
  exact List.mem_append_right _ List.mem_cons_self

/-- What is read is a part between two quotes of the text that follows. -/
def Specifies (r : Recogniser (List Char)) : Prop :=
  ∀ c s c', r c = some (s, c') → Quoted s c.after

variable {α : Type}

theorem Specifies.after {r : Recogniser α} {f : α → Recogniser (List Char)} (hr : r.Forward)
    (hf : ∀ a, Specifies (f a)) : Specifies (r >>= f) := by
  intro c s c' h
  obtain ⟨a, c₁, hread, hrest⟩ := bind_eq_some_iff.mp h
  exact (hf a c₁ s c' hrest).of_suffix (hr c a c₁ hread)

/-- What is read and discarded behind a specifier does not matter. -/
theorem Specifies.before {r : Recogniser (List Char)} {f : List Char → Recogniser (List Char)}
    (hr : Specifies r) (hf : ∀ s c s' c', f s c = some (s', c') → s' = s) :
    Specifies (r >>= f) := by
  intro c s c' h
  obtain ⟨s₀, c₁, hread, hrest⟩ := bind_eq_some_iff.mp h
  exact hf s₀ c₁ s c' hrest ▸ hr c s₀ c₁ hread

theorem Specifies.latest {p : Char → Bool} {inner : Recogniser (List Char)} (h : Specifies inner) :
    Specifies (latest p inner) := by
  rintro ⟨before, after⟩ s c' hread
  change latestFrom p inner before after = _ at hread
  change Quoted s after
  induction after generalizing before with
  | nil => exact h ⟨before, []⟩ s c' hread
  | cons x after ih =>
      unfold latestFrom at hread
      split at hread
      · cases hlater : latestFrom p inner (x :: before) after with
        | none =>
            rw [hlater] at hread
            exact h ⟨before, x :: after⟩ s c' hread
        | some found =>
            rw [hlater] at hread
            cases hread
            exact (ih _ hlater).of_suffix (List.suffix_cons x after)
      · exact h ⟨before, x :: after⟩ s c' hread

theorem forward_blanks : blanks.Forward := (forward_run isBlank).bind fun _ => forward_pure ()

theorem forward_blanks1 : blanks1.Forward := (forward_run1 isBlank).bind fun _ => forward_pure ()

theorem forward_optionalWord (word : List Char) : (optionalWord word).Forward :=
  ((forward_literal word).bind fun _ => forward_blanks1).orElse (forward_pure ())

theorem forward_wholeName (name : List Char) : (wholeName name).Forward :=
  forward_boundary.bind fun _ => (forward_literal name).bind fun _ => forward_boundary

theorem forward_closeBraces : closeBraces.Forward :=
  (forward_run inBraces).bind fun _ => forward_literal _

theorem specifies_specifier : Specifies specifier := by
  intro c s c' h
  obtain ⟨q, c₁, hq, h⟩ := bind_eq_some_iff.mp h
  obtain ⟨s', c₂, hs, h⟩ := bind_eq_some_iff.mp h
  obtain ⟨q', _, hq', h⟩ := bind_eq_some_iff.mp h
  cases h
  obtain ⟨hafter, hquote⟩ := one_eq_some hq
  obtain ⟨hafter₁, hplain⟩ := run1_eq_some hs
  obtain ⟨hafter₂, hquote'⟩ := one_eq_some hq'
  refine ⟨[], q, q', c'.after, ?_, hquote, hquote', fun x hx => by simpa using hplain x hx⟩
  rw [hafter, hafter₁, hafter₂, List.nil_append]

theorem specifies_fromSpecifier : Specifies fromSpecifier :=
  .after forward_blanks fun _ => .after (forward_literal _) fun _ =>
    .after forward_blanks fun _ => specifies_specifier

theorem specifies_importOfNames (name : List Char) : Specifies (importOfNames name) :=
  .after (forward_literal _) fun _ => .after forward_blanks fun _ =>
    .after (forward_optionalWord _) fun _ => .after (forward_literal _) fun _ =>
      .latest <| .after (forward_wholeName name) fun _ =>
        .after forward_closeBraces fun _ => specifies_fromSpecifier

theorem specifies_importOfDefault (name : List Char) : Specifies (importOfDefault name) := by
  have names : Forward (do literal [',']; blanks; literal ['\x7b']; closeBraces) :=
    (forward_literal _).bind fun _ => forward_blanks.bind fun _ =>
      (forward_literal _).bind fun _ => forward_closeBraces
  refine .after (forward_literal _) fun _ => .after (forward_one isBlank) fun _ => .latest ?_
  exact .after (forward_literal name) fun _ => .after forward_blanks fun _ =>
    .after (names.orElse (forward_pure ())) fun _ => specifies_fromSpecifier

theorem specifies_requireOf (name : List Char) : Specifies (requireOf name) := by
  refine .after (forward_wholeName name) fun _ => .after (forward_run _) fun _ =>
    .after (forward_literal _) fun _ => .after forward_blanks fun _ =>
      .after (forward_literal _) fun _ => .after forward_blanks fun _ =>
        .before specifies_specifier ?_
  intro s c s' c' h
  obtain ⟨_, c₁, -, h⟩ := bind_eq_some_iff.mp h
  obtain ⟨_, c₂, -, h⟩ := bind_eq_some_iff.mp h
  cases h
  rfl

/-- The specifier that a class is imported by is one of the parts into which quotes divide the
script, and it is relative. -/
theorem mem_splitOnP_of_importOf? {script cls s : String} (h : importOf? script cls = some s) :
    s.toList ∈ script.toList.splitOnP isQuote ∧ isRelative s.toList := by
  obtain ⟨found, hfound, h⟩ := Option.bind_eq_some_iff.mp h
  split at h
  · cases h
    obtain ⟨form, hform, hmap⟩ := List.exists_of_findSome?_eq_some hfound
    obtain ⟨o, hfirst, rfl⟩ := Option.map_eq_some_iff.mp hmap
    obtain ⟨x, y, htext, hstart, hread⟩ := mem_occurrences (List.mem_of_mem_head? hfirst)
    have hspecifies : Specifies form := by
      obtain rfl | rfl | rfl := by simpa using hform
      · exact specifies_importOfNames _
      · exact specifies_importOfDefault _
      · exact specifies_requireOf _
    have hquoted := hspecifies _ _ _ hread
    rw [hstart] at hquoted
    rw [String.toList_ofList]
    exact ⟨(hquoted.of_suffix (htext ▸ List.suffix_append x y)).mem_splitOnP, ‹_›⟩
  · cases h

end Script
end TestRepair
