import TestRepair.Assistant.Reply
import TestRepair.Proofs.Text.Rewriting
import TestRepair.Proofs.Text.Trimming

/-!
Fences in a reply and in the script that is taken out of it. A block is told as a text: the line that
opens it, the code, and the next fence. The code of a block has no fence, so a fence comes into a
script only with a reply that is taken as a whole.
-/

namespace TestRepair
namespace AssistantReply

open Text Recogniser

variable {code front prose s t tail w : List Char}

theorem solid_fence : Solid fence := by decide

/-- A text in which no fence starts, also with a fence behind it. -/
structure Unfenced (s : List Char) : Prop where
  absent : ¬fence <:+: s
  apart : s.getLast? ≠ some '\x60'

def isPad (c : Char) : Bool := c == ' ' || c == '\t'

/-- A line feed, perhaps with a carriage return before it. -/
def LineEnd (w : List Char) : Prop := w = ['\n'] ∨ w = ['\r', '\n']

/-- The line that opens a block: a fence with a tag and blanks behind it. -/
inductive Opening : List Char → Prop
  | line {tag pad eol : List Char} (tagged : ∀ c ∈ tag, isTagChar c = true)
      (padded : ∀ c ∈ pad, isPad c = true) (ended : LineEnd eol) :
      Opening (fence ++ (tag ++ (pad ++ eol)))

/-- Somewhere a block is opened, and it is closed further down. -/
def HoldsBlock (reply : List Char) : Prop :=
  ∃ front w code tail, Opening w ∧ reply = front ++ (w ++ (code ++ (fence ++ tail)))

section Fence

theorem eq_tick_of_mem {c : Char} (h : c ∈ fence) : c = '\x60' := by
  simpa [fence] using h

theorem Unfenced.not_straddles (h : Unfenced s) : ¬Straddles fence s t := by
  rintro ⟨u, v, hu, -, split, ⟨r, rfl⟩, -⟩
  have tick : u.getLast hu = '\x60' :=
    eq_tick_of_mem (split ▸ List.mem_append_left v (List.getLast_mem hu))
  apply h.apart
  rw [List.getLast?_append_of_ne_nil _ hu, List.getLast?_eq_some_getLast hu, tick]

theorem Unfenced.not_prefix {c : Char} (h : Unfenced (c :: s)) : ¬fence <+: c :: s ++ t :=
  fun starts => h.absent
    (prefix_of_not_straddles h.not_straddles (List.cons_ne_nil c s) starts).isInfix

theorem Unfenced.of_cons {c : Char} (h : Unfenced (c :: s)) : Unfenced s := by
  refine ⟨fun inside => h.absent (List.infix_cons_iff.mpr (.inr inside)), ?_⟩
  intro last
  exact h.apart (by simp [List.getLast?_cons, last])

theorem Unfenced.cons {c : Char} (h : Unfenced s) (missed : ¬fence <+: c :: (s ++ (fence ++ t))) :
    Unfenced (c :: s) := by
  constructor
  · rw [List.infix_cons_iff, not_or]
    exact ⟨fun starts => missed (starts.trans (List.prefix_append (c :: s) _)), h.absent⟩
  · intro last
    cases s with
    | nil =>
        obtain rfl : c = '\x60' := by simpa using last
        exact missed ⟨'\x60' :: t, rfl⟩
    | cons d s => exact h.apart (by simpa using last)

theorem before?_append (h : Unfenced s) : before? fence (s ++ (fence ++ t)) = some (s, t) := by
  induction s with
  | nil =>
      have found : rest? fence ('\x60' :: '\x60' :: '\x60' :: t) = some t := rest?_append fence t
      rw [fence, List.nil_append, List.cons_append, before?, ← fence, List.cons_append,
        List.cons_append, List.nil_append, found]
  | cons c s ih =>
      have missed : rest? fence (c :: (s ++ (fence ++ t))) = none :=
        rest?_eq_none_iff.mpr h.not_prefix
      rw [List.cons_append, before?, missed, ih h.of_cons]
      rfl

theorem before?_eq_some_iff :
    before? fence s = some (code, tail) ↔ s = code ++ (fence ++ tail) ∧ Unfenced code := by
  constructor
  · intro h
    induction s generalizing code with
    | nil => cases h
    | cons c s ih =>
        rw [before?] at h
        split at h
        · next rest found =>
          have split : c :: s = fence ++ rest := rest?_eq_some_iff.mp found
          cases h
          exact ⟨split, ⟨by decide, nofun⟩⟩
        · next missed =>
          obtain ⟨⟨code, rest⟩, read, h⟩ := Option.map_eq_some_iff.mp h
          cases h
          obtain ⟨rfl, unfenced⟩ := ih read
          exact ⟨rfl, unfenced.cons (rest?_eq_none_iff.mp missed)⟩
  · rintro ⟨rfl, unfenced⟩
    exact before?_append unfenced

theorem exists_before? (h : fence <:+: s) : ∃ code tail, before? fence s = some (code, tail) := by
  induction s with
  | nil => cases List.eq_nil_of_infix_nil h
  | cons c s ih =>
      rw [before?]
      cases found : rest? fence (c :: s) with
      | some rest => exact ⟨[], rest, rfl⟩
      | none =>
          have inside : fence <:+: s :=
            (List.infix_cons_iff.mp h).resolve_left (rest?_eq_none_iff.mp found)
          obtain ⟨code, tail, read⟩ := ih inside
          exact ⟨c :: code, tail, by rw [read]; rfl⟩

end Fence

section Block

variable {α : Type} {c c' : Cursor} {eol pad tag : List Char}

theorem ends_pad (padded : ∀ c ∈ pad, isPad c = true) (ended : LineEnd eol) :
    Ends isPad pad (eol ++ t) := by
  refine ⟨padded, ?_⟩
  rcases ended with rfl | rfl <;> rintro x ⟨⟩ <;> decide

theorem ends_tag (tagged : ∀ c ∈ tag, isTagChar c = true) (padded : ∀ c ∈ pad, isPad c = true)
    (ended : LineEnd eol) : Ends isTagChar tag (pad ++ (eol ++ t)) := by
  refine ⟨tagged, ?_⟩
  cases pad with
  | nil => rcases ended with rfl | rfl <;> rintro x ⟨⟩ <;> decide
  | cons d pad =>
      rintro x ⟨⟩
      have padding : d = ' ' ∨ d = '\t' := by simpa [isPad] using padded d List.mem_cons_self
      rcases padding with rfl | rfl <;> decide

theorem lineEnd_eq_some_iff {f : Recogniser α} {v : α} :
    (Recogniser.optional ['\r'] >>= fun _ => literal ['\n'] >>= fun _ => f) c = some (v, c') ↔
      ∃ eol c₁, LineEnd eol ∧ c.Spans eol c₁ ∧ f c₁ = some (v, c') := by
  constructor
  · intro h
    obtain ⟨_, c₁, first, h⟩ := bind_eq_some_iff.mp h
    obtain ⟨_, c₂, feed, read⟩ := bind_eq_some_iff.mp h
    have feed := literal_eq_some_iff.mp feed
    rcases orElse_eq_some_iff.mp first with found | ⟨-, skipped⟩
    · exact ⟨_, c₂, .inr rfl, (literal_eq_some_iff.mp found).trans feed, read⟩
    · cases skipped
      exact ⟨_, c₂, .inl rfl, feed, read⟩
  · rintro ⟨eol, c₁, ended, span, h⟩
    obtain ⟨before, after⟩ := c
    obtain rfl : after = eol ++ c₁.after := span.after
    rw [span.eq] at h
    rcases ended with rfl | rfl
    · have missed : ¬['\r'] <+: '\n' :: c₁.after := by simp
      refine bind_eq_some_iff.mpr ⟨(), _, orElse_of_none (literal_eq_none missed), ?_⟩
      exact bind_eq_some_iff.mpr ⟨(), _, literal_cons '\n' before _, h⟩
    · refine bind_eq_some_iff.mpr ⟨(), _, orElse_of_some (literal_cons '\r' before _), ?_⟩
      exact bind_eq_some_iff.mpr ⟨(), _, literal_cons '\n' _ _, h⟩

theorem fencedBlock_eq_some_iff : fencedBlock c = some (code, c') ↔
    Unfenced code ∧ ∃ w, Opening w ∧ c.Spans (w ++ (code ++ fence)) c' := by
  rw [fencedBlock, bind_eq_some_iff]
  constructor
  · rintro ⟨_, c₁, opened, h⟩
    obtain ⟨tag, c₂, tagged, h⟩ := bind_eq_some_iff.mp h
    obtain ⟨pad, c₃, padded, h⟩ := bind_eq_some_iff.mp h
    obtain ⟨eol, c₄, ended, line, h⟩ := lineEnd_eq_some_iff.mp h
    obtain ⟨⟨code, rest⟩, read, h⟩ := Option.map_eq_some_iff.mp h
    cases h
    obtain ⟨after, unfenced⟩ := before?_eq_some_iff.mp read
    obtain ⟨tagged, tags⟩ := run_eq_some_iff.mp tagged
    obtain ⟨padded, pads⟩ := run_eq_some_iff.mp padded
    refine ⟨unfenced, _, .line tags.all pads.all ended, ?_⟩
    have opening := (literal_eq_some_iff.mp opened).trans (tagged.trans (padded.trans line))
    exact opening.trans ⟨by simpa using after, by simp [fence]⟩
  · rintro ⟨unfenced, w, @⟨tag, pad, eol, tags, pads, ended⟩, span⟩
    obtain ⟨before, after⟩ := c
    obtain rfl : after = fence ++ (tag ++ (pad ++ (eol ++ (code ++ (fence ++ c'.after))))) := by
      simpa using span.after
    refine ⟨(), _, literal_append fence before _, ?_⟩
    refine bind_eq_some_iff.mpr ⟨tag, ⟨tag.reverse ++ (fence.reverse ++ before), _⟩,
      run_eq_some_iff.mpr ⟨⟨rfl, rfl⟩, ends_tag tags pads ended⟩, ?_⟩
    refine bind_eq_some_iff.mpr ⟨pad, ⟨pad.reverse ++ (tag.reverse ++ (fence.reverse ++ before)), _⟩,
      run_eq_some_iff.mpr ⟨⟨rfl, rfl⟩, ends_pad pads ended⟩, ?_⟩
    refine lineEnd_eq_some_iff.mpr ⟨eol, ⟨_, _⟩, ended, ⟨rfl, rfl⟩, ?_⟩
    rw [before?_append unfenced, span.eq]
    simp [fence]

theorem not_prefix_of_opening (h : Opening w) : ¬('\x60' :: fence) <+: w ++ t := by
  obtain @⟨tag, pad, eol, tags, pads, ended⟩ := h
  intro starts
  have fourth : ['\x60'] <+: tag ++ (pad ++ (eol ++ t)) :=
    (List.prefix_append_right_inj fence).mp (by simpa [fence] using starts)
  obtain ⟨rest, split⟩ := fourth
  cases tag with
  | cons d tag =>
      obtain ⟨rfl, -⟩ := List.cons.inj split
      exact absurd (tags _ List.mem_cons_self) (by decide)
  | nil =>
      cases pad with
      | cons d pad =>
          obtain ⟨rfl, -⟩ := List.cons.inj split
          exact absurd (pads _ List.mem_cons_self) (by decide)
      | nil => rcases ended with rfl | rfl <;> cases split

/-- No line is opened in front of a fence by what has no fence of its own: where its last characters
make a fence with the one behind it, that is one of four characters. -/
theorem fencedBlock_eq_none {before : List Char} (hs : s ≠ []) (absent : ¬fence <:+: s) :
    fencedBlock ⟨before, s ++ (fence ++ t)⟩ = none := by
  rw [Option.eq_none_iff_forall_ne_some]
  rintro ⟨code, stop⟩ read
  obtain ⟨-, w, opening, span⟩ := fencedBlock_eq_some_iff.mp read
  have split : s ++ (fence ++ t) = w ++ (code ++ fence ++ stop.after) := by simpa using span.after
  have starts : fence <+: s ++ (fence ++ t) := by
    rw [split]
    obtain ⟨tags, pads, ended⟩ := opening
    exact ⟨_, (List.append_assoc ..).symm⟩
  rcases List.prefix_or_prefix_of_prefix starts (List.prefix_append s _) with inside | short
  · exact absent inside.isInfix
  · have four : '\x60' :: fence <+: s ++ (fence ++ t) := by
      have ticks : s = [] ∨ s = ['\x60'] ∨ s = ['\x60', '\x60'] ∨ s = fence := by
        simpa [fence] using (List.mem_inits s fence).mpr short
      rcases ticks with rfl | rfl | rfl | rfl
      · exact absurd rfl hs
      · exact ⟨t, rfl⟩
      · exact ⟨'\x60' :: t, rfl⟩
      · exact absurd List.infix_rfl absent
    rw [split] at four
    exact not_prefix_of_opening opening four

theorem first?_fencedBlock (hprose : ¬fence <:+: prose) (opening : Opening w)
    (unfenced : Unfenced code) (tail : List Char) :
    ∃ o, fencedBlock.first? (prose ++ (w ++ (code ++ (fence ++ tail)))) = some o ∧ o.value = code := by
  have found : fencedBlock ⟨prose.reverse, w ++ (code ++ (fence ++ tail))⟩ =
      some (code, ⟨(w ++ (code ++ fence)).reverse ++ prose.reverse, tail⟩) :=
    fencedBlock_eq_some_iff.mpr ⟨unfenced, w, opening, by simp, rfl⟩
  refine ⟨⟨_, _, code⟩, first?_eq_some_iff.mpr ⟨prose, _, rfl, rfl, found, ?_⟩, rfl⟩
  rintro a b rfl hb
  obtain ⟨tags, pads, ended⟩ := opening
  rw [List.append_assoc fence]
  exact fencedBlock_eq_none hb fun inside => hprose (inside.trans (List.suffix_append a b).isInfix)

theorem first?_eq_none_iff_not_holdsBlock :
    fencedBlock.first? s = none ↔ ¬HoldsBlock s := by
  rw [first?_eq_none_iff]
  constructor
  · rintro none ⟨front, w, code, tail, opening, rfl⟩
    obtain ⟨code', tail', read⟩ := exists_before? (List.infix_append code fence tail)
    obtain ⟨split, unfenced⟩ := before?_eq_some_iff.mp read
    have found : fencedBlock ⟨front.reverse, w ++ (code ++ (fence ++ tail))⟩ =
        some (code', ⟨(w ++ (code' ++ fence)).reverse ++ front.reverse, tail'⟩) :=
      fencedBlock_eq_some_iff.mpr ⟨unfenced, w, opening, by simpa using split, rfl⟩
    rw [none front _ rfl] at found
    cases found
  · rintro none x y rfl
    rw [Option.eq_none_iff_forall_ne_some]
    rintro ⟨code, stop⟩ read
    obtain ⟨-, w, opening, span⟩ := fencedBlock_eq_some_iff.mp read
    exact none ⟨x, w, code, stop.after, opening, by simpa using span.after⟩

end Block

section Script

variable {reply script : List Char}

theorem not_blank_of_readsLikeCode (h : readsLikeCode s = true) : ¬Blank s := by
  have anchored : anchors.any (Text.occursIn · s) = true := by
    simp only [readsLikeCode, Bool.and_eq_true] at h
    exact h.1.2
  obtain ⟨anchor, listed, occurs⟩ := List.any_eq_true.mp anchored
  intro blank
  have inked : anchors.all (fun a => a.any (!isBlank ·)) = true := by decide
  obtain ⟨c, hc, ink⟩ := List.any_eq_true.mp (List.all_eq_true.mp inked anchor listed)
  have := blank c ((occursIn_iff.mp occurs).subset hc)
  simp [this] at ink

theorem first?_eq_some {o : Occurrence (List Char)} (h : fencedBlock.first? reply = some o) :
    Unfenced o.value ∧ HoldsBlock reply := by
  obtain ⟨x, y, rfl, place, read, -⟩ := first?_eq_some_iff.mp h
  rw [place] at read
  obtain ⟨unfenced, w, opening, span⟩ := fencedBlock_eq_some_iff.mp read
  exact ⟨unfenced, x, w, o.value, o.stop.after, opening, by simpa using span.after⟩

/-- A script is a text without the blanks at its end and with one line feed instead. That text has a
fence just if the reply has one and is taken as a whole. -/
theorem script?_eq_some (h : script? reply = some script) : ∃ s, script = trimEnd s ++ ['\n'] ∧
    ¬Blank s ∧ (fence <:+: s ↔ fence <:+: reply ∧ ¬HoldsBlock reply) := by
  rw [script?] at h
  cases found : fencedBlock.first? reply with
  | some block =>
      obtain ⟨unfenced, holds⟩ := first?_eq_some found
      simp only [found, Option.ite_none_left_eq_some, Option.some.injEq] at h
      obtain ⟨ink, rfl⟩ := h
      refine ⟨block.value, rfl, ?_, iff_of_false unfenced.absent fun h => h.2 holds⟩
      rwa [List.isEmpty_iff, trim_eq_nil_iff, blank_trimEnd] at ink
  | none =>
      simp only [found, Option.ite_none_right_eq_some, Option.some.injEq] at h
      obtain ⟨code, rfl⟩ := h
      have whole : ¬HoldsBlock reply := first?_eq_none_iff_not_holdsBlock.mp found
      refine ⟨trimStart reply, rfl, ?_, ?_⟩
      · rw [← trimEnd_eq_nil_iff, ← trim, trim_eq_nil_iff]
        exact not_blank_of_readsLikeCode code
      · rw [and_iff_left whole, ← solid_fence.infix_trim (s := reply), trim, solid_fence.infix_trimEnd]

/-- What a script taken out of a reply is sure of, and when it has a fence. -/
theorem code?_fenced_iff {reply script : String} (h : code? reply = some script) :
    ¬Blank script.toList ∧ script.toList = trimEnd script.toList ++ ['\n'] ∧
      (fence <:+: script.toList ↔ fence <:+: reply.toList ∧ ¬HoldsBlock reply.toList) := by
  obtain ⟨chars, read, rfl⟩ := Option.map_eq_some_iff.mp h
  obtain ⟨s, rfl, ink, fenced⟩ := script?_eq_some read
  have feed : Blank ['\n'] := by decide
  rw [String.toList_ofList, trimEnd_append_blank feed, trimEnd_trimEnd,
    solid_fence.infix_append_blank feed, solid_fence.infix_trimEnd]
  refine ⟨?_, rfl, fenced⟩
  rwa [blank_append, and_iff_left feed, blank_trimEnd]

/-- A block whose line has a blank in it, so that the reply is taken as a whole. -/
def titledReply : String := "```ts title='login'\nawait page.click('#a');\nawait page.click('#b');\n```"

theorem code?_titledReply :
    code? titledReply = some (titledReply ++ "\n") ∧ fence <:+: (titledReply ++ "\n").toList ∧
      ¬HoldsBlock titledReply.toList := by
  have read : code? titledReply = some (titledReply ++ "\n") := by decide +kernel
  have fenced : fence <:+: (titledReply ++ "\n").toList := by decide +kernel
  exact ⟨read, fenced, ((code?_fenced_iff read).2.2.mp fenced).2⟩

end Script

/-- A reply with a block in it, and with whatever follows. -/
def withBlock (prose tag code tail : String) : String :=
  prose ++ "```" ++ tag ++ "\n" ++ code ++ "```" ++ tail

/-- What makes the code of such a block the first of its reply: no fence comes before it, and none is
in it. -/
structure FirstBlock (prose tag code : String) : Prop where
  unfenced : ¬fence <:+: prose.toList
  tagged : ∀ c ∈ tag.toList, c.isAlphanum = true ∨ c ∈ ['_', '+', '.', '-']
  ink : ¬Blank code.toList
  code : Unfenced code.toList

section FirstBlock

variable {prose tag code : String}

theorem FirstBlock.opening (h : FirstBlock prose tag code) :
    Opening (fence ++ (tag.toList ++ ([] ++ ['\n']))) := by
  refine .line ?_ nofun (.inl rfl)
  intro c hc
  rcases h.tagged c hc with word | sign
  · simp [isTagChar, isWord_of_isAlphanum word]
  · simp only [List.mem_cons, List.not_mem_nil, or_false] at sign
    rcases sign with rfl | rfl | rfl | rfl <;> decide

/-- The first block of a reply is read as it stands, up to the blanks at its end. -/
theorem code?_of_firstBlock (h : FirstBlock prose tag code) (tail : String) :
    code? (withBlock prose tag code tail) =
      some (String.ofList (trimEnd code.toList ++ ['\n'])) := by
  obtain ⟨o, found, value⟩ := first?_fencedBlock h.unfenced h.opening h.code tail.toList
  have split : (withBlock prose tag code tail).toList = prose.toList ++
      (fence ++ (tag.toList ++ ([] ++ ['\n'])) ++ (code.toList ++ (fence ++ tail.toList))) := by
    have ticks : "```".toList = fence := rfl
    simp [withBlock, ticks]
  have ink : ¬(trim (trimEnd code.toList)).isEmpty = true := by
    rw [List.isEmpty_iff, trim_eq_nil_iff, blank_trimEnd]
    exact h.ink
  rw [code?, script?, split, found]
  simp only [value, if_neg ink, Option.map_some]

end FirstBlock

end AssistantReply
end TestRepair
