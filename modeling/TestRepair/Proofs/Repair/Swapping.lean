import TestRepair.Proofs.FileTree.Drafts
import TestRepair.Repair.Patch

/-!
What swapping a locator does to a tree. The files that are to be rewritten are told from the tree as
it was before anything was laid out; staging and committing come to rewriting just those, or to
nothing at all if a listed file cannot be read. Drafts are in no tree that is left behind.
-/

namespace TestRepair
namespace Patch

open FileTree

/-- A file in which a locator is swapped. -/
structure Rewrite where
  /-- The path under which it was listed. -/
  path : Path
  /-- Where its links lead. -/
  place : Place
  original : String
  contents : String
  mode : Nat

def Rewrite.node (r : Rewrite) : Node := .file r.contents.toUTF8 r.mode

/-- How a listed file is rewritten; none if it is not a text that holds the locator. -/
def rewrite? (t : FileTree) (old new : String) (p : Path) : Option Rewrite :=
  match t.canonical p with
  | .error _ => none
  | .ok q =>
    match t.get? q with
    | some (.file bytes mode) =>
      (String.fromUTF8? bytes).bind fun original =>
        (Replacement.inText? original old new).map fun contents =>
          ⟨p, q, original, contents, mode⟩
    | _ => none

/-- The rewritings in a list of files, the first one for each place. -/
def rewrites (t : FileTree) (old new : String) (files : List Path) : List Rewrite :=
  (files.filterMap (rewrite? t old new)).eraseDupsBy fun r r' => r.place == r'.place

/-- The rewriting is what swapping means for the file at its place. -/
structure Rewrite.Sound (t : FileTree) (old new : String) (r : Rewrite) : Prop where
  leads : t.canonical r.path = .ok r.place
  held : t.get? r.place = some (.file r.original.toUTF8 r.mode)
  swapped : Replacement.inText? r.original old new = some r.contents

theorem rewrite?_of_file {t : FileTree} (old new : String) {p : Path} {q : Place} {s : String}
    {m : Nat} (hp : t.canonical p = .ok q) (hq : t.get? q = some (.file s.toUTF8 m)) :
    rewrite? t old new p = (Replacement.inText? s old new).map fun c => ⟨p, q, s, c, m⟩ := by
  simp only [rewrite?, hp, hq, fromUTF8?_toUTF8, Option.bind_some]

theorem rewrite?_eq_some {t : FileTree} {old new : String} {p : Path} {r : Rewrite}
    (h : rewrite? t old new p = some r) : t.canonical p = .ok r.place ∧ r.path = p := by
  unfold rewrite? at h
  split at h
  · cases h
  · rename_i hp
    split at h
    · obtain ⟨s, -, h⟩ := Option.bind_eq_some_iff.mp h
      obtain ⟨c, -, rfl⟩ := Option.map_eq_some_iff.mp h
      exact ⟨hp, rfl⟩
    · cases h

theorem mem_of_mem_eraseDupsBy {α : Type} {same : α → α → Bool} {a : α} (n : Nat) {as : List α}
    (hn : as.length ≤ n) (h : a ∈ as.eraseDupsBy same) : a ∈ as := by
  induction n generalizing as with
  | zero =>
      cases List.eq_nil_of_length_eq_zero (Nat.le_zero.mp hn)
      cases h
  | succ n ih =>
      cases as with
      | nil => cases h
      | cons b bs =>
          rw [List.eraseDupsBy_cons] at h
          rcases List.mem_cons.mp h with rfl | h
          · exact List.mem_cons_self
          · have hlength := List.length_filter_le (fun c => decide (same c b = false)) bs
            rw [List.length_cons] at hn
            exact List.mem_cons_of_mem _ (List.mem_filter.mp (ih (by omega) h)).1

theorem path_mem_of_rewrites {t : FileTree} {old new : String} {files : List Path} {r : Rewrite}
    (h : r ∈ rewrites t old new files) : r.path ∈ files := by
  obtain ⟨p, hp, hr⟩ := List.mem_filterMap.mp (mem_of_mem_eraseDupsBy _ (Nat.le_refl _) h)
  exact (rewrite?_eq_some hr).2 ▸ hp

/-- The entry that a rewriting and the place of its draft make. -/
def staged (z : Rewrite × Place) : Staged := ⟨z.1.path, z.1.place.path, z.1.original, z.2⟩

def draft (z : Rewrite × Place) : Place × Node := (z.2, z.1.node)

theorem discard_eq {t t' : FileTree} {zs : List (Rewrite × Place)}
    (h : Laid t (zs.map draft) t') : discard t' (zs.map staged) = t := by
  induction zs generalizing t' with
  | nil => exact h.eq
  | cons z zs ih =>
      have first : Laid t ([] ++ draft z :: zs.map draft) t' := h
      exact ih first.remove

/-- Some rewritings of files of the tree `t` are laid out in the tree `t'`. -/
structure Prepared (t : FileTree) (known : List String) (old new : String)
    (zs : List (Rewrite × Place)) (t' : FileTree) : Prop where
  laid : Laid t (zs.map draft) t'
  unmentioned : ∀ z ∈ zs, Unmentioned t known z.2
  sound : ∀ z ∈ zs, z.1.Sound t old new
  once : (zs.map (·.1.place)).Nodup

section

variable {t t' : FileTree} {known : List String} {old new : String} {zs : List (Rewrite × Place)}

theorem Prepared.nil (t : FileTree) (known : List String) (old new : String) :
    Prepared t known old new [] t :=
  ⟨.nil t, by simp, by simp, List.nodup_nil⟩

theorem Prepared.unmentioned_drafts (h : Prepared t known old new zs t') :
    ∀ e ∈ zs.map draft, Unmentioned t known e.1 := by
  intro e he
  obtain ⟨z, hz, rfl⟩ := List.mem_map.mp he
  exact h.unmentioned z hz

theorem Prepared.any_same_iff (h : Prepared t known old new zs t') (ht : t.WellFormed) {q : Place}
    (hq : t.Solid q) :
    ((zs.map staged).any fun s => s.target.same q.path) = true ↔ q ∈ zs.map (·.1.place) := by
  have hsame : ∀ z ∈ zs, (staged z).target.same q.path = true ↔ z.1.place = q := fun z hz =>
    Place.same_path_iff (ht.names ((h.sound z hz).held ▸ Option.some_ne_none _))
      (ht.names hq.get?_ne_none)
  rw [List.any_map, List.any_eq_true, List.mem_map]
  exact exists_congr fun z => and_congr_right fun hz => hsame z hz

theorem Prepared.snoc (h : Prepared t known old new zs t') {r : Rewrite} {d : Place}
    {t'' : FileTree} (hl : Laid t (zs.map draft ++ [(d, r.node)]) t'')
    (hd : Unmentioned t known d) (hr : r.Sound t old new)
    (hn : r.place ∉ zs.map (·.1.place)) : Prepared t known old new (zs ++ [(r, d)]) t'' where
  laid := by
    rw [List.map_append]
    exact hl
  unmentioned z hz := by
    rcases List.mem_append.mp hz with hz | hz
    · exact h.unmentioned z hz
    · cases List.mem_singleton.mp hz
      exact hd
  sound z hz := by
    rcases List.mem_append.mp hz with hz | hz
    · exact h.sound z hz
    · cases List.mem_singleton.mp hz
      exact hr
  once := by
    rw [List.map_append, List.map_singleton]
    refine List.nodup_append.mpr ⟨h.once, List.nodup_singleton _, ?_⟩
    intro a ha b hb hab
    cases List.mem_singleton.mp hb
    exact hn (hab ▸ ha)

theorem Prepared.readText_eq (h : Prepared t known old new zs t') (ht : t.WellFormed) {p : Path}
    {q : Place} (hp : t.canonical p = .ok q) : t'.readText q.path = t.readText p := by
  have hq : t.Solid q := solid_of_canonical ht hp
  obtain ⟨n, hn⟩ := Option.ne_none_iff_exists'.mp hq.get?_ne_none
  refine readText_congr hp (canonical_path ht h.laid.toExtends hq) ?_
  rw [hn]
  exact h.laid.get?_some hn

theorem Prepared.target_eq (h : Prepared t known old new zs t') {p : Path}
    (hs : ∀ n ∈ p.steps, n ∈ known) : t'.target p = t.target p :=
  h.laid.target h.unmentioned_drafts hs

theorem target_of_canonical {p : Path} {q : Place} (hp : t.canonical p = .ok q) :
    t.target p = q.path := by
  simp only [target, hp]

theorem target_of_error {p : Path} {e : FileError} (hp : t.canonical p = .error e) :
    t.target p = p := by
  simp only [target, hp]

/-- Resolving the links of a path first does not change what is read there. -/
theorem readText_target (ht : t.WellFormed) (p : Path) : t.readText (t.target p) = t.readText p := by
  cases hp : t.canonical p with
  | error e => rw [target_of_error hp]
  | ok q =>
      rw [target_of_canonical hp]
      exact (Prepared.nil t [] "" "").readText_eq ht hp

/-- What a listed path leads to is read as the tree had it before anything was laid out. -/
theorem Prepared.readTextUnder_eq (h : Prepared t known old new zs t') (ht : t.WellFormed)
    (refused : Refusals) {p : Path} (hs : ∀ n ∈ p.steps, n ∈ known) :
    t'.readTextUnder refused (t.target p) = t.readTextUnder refused (t.target p) := by
  have hread : t'.readText (t.target p) = t.readText (t.target p) := by
    rw [readText_target ht]
    cases hp : t.canonical p with
    | error e =>
        have hp' := (h.laid.canonical h.unmentioned_drafts hs).trans hp
        rw [target_of_error hp, readText_of_canonical_error hp, readText_of_canonical_error hp']
    | ok q =>
        rw [target_of_canonical hp]
        exact h.readText_eq ht hp
  simp only [readTextUnder, hread]

/-- A listed path can be read, or it is taken for one that leads to a file that is rewritten. -/
def Settled (refused : Refusals) (t : FileTree) (rs : List Rewrite) (p : Path) : Prop :=
  (∃ s, t.readTextUnder refused (t.target p) = .ok s) ∨
    ∃ r ∈ rs, r.place.path.same (t.target p) = true

/-- How laying out what one listed file will hold can end. -/
inductive StagesOne (refused : Refusals) (t : FileTree) (known : List String) (old new : String)
    (zs : List (Rewrite × Place)) (t' : FileTree) (p : Path) :
    Except PatchError (List Staged) × FileTree → Prop
  | unreadable {e : FileError} (hr : t.readTextUnder refused (t.target p) = .error e) :
      StagesOne refused t known old new zs t' p (.error (.read p e), t')
  | stays (hr : ∀ r, rewrite? t old new p = some r → r.place ∈ zs.map (·.1.place))
      (settled : Settled refused t (zs.map (·.1)) p) :
      StagesOne refused t known old new zs t' p (.ok (zs.map staged), t')
  | refused {r : Rewrite} {e : FileError} {t'' : FileTree} (hr : rewrite? t old new p = some r)
      (hn : r.place ∉ zs.map (·.1.place)) (he : refused.draft? r.place.path = some e)
      (hl : Laid t (zs.map draft) t'') :
      StagesOne refused t known old new zs t' p (.error (.write r.place.path e), t'')
  | laid {r : Rewrite} {d : Place} {t'' : FileTree} (hr : rewrite? t old new p = some r)
      (hn : r.place ∉ zs.map (·.1.place)) (he : refused.draft? r.place.path = none)
      (readable : ∃ s, t.readTextUnder refused (t.target p) = .ok s)
      (h : Prepared t known old new (zs ++ [(r, d)]) t'') :
      StagesOne refused t known old new zs t' p (.ok ((zs ++ [(r, d)]).map staged), t'')

/-- A path that is taken for one that is laid out needs nothing more. -/
theorem stageOne_taken (h : Prepared t known old new zs t') (refused : Refusals) {p : Path}
    (hs : ∀ n ∈ p.steps, n ∈ known)
    (ha : ((zs.map staged).any fun s => s.target.same (t.target p)) = true) :
    stageOne refused known old new t' (zs.map staged) p = (.ok (zs.map staged), t') := by
  simp only [stageOne, h.target_eq hs, ha, if_true]

/-- Another path has to be readable. -/
theorem stageOne_unreadable (h : Prepared t known old new zs t') (ht : t.WellFormed)
    {refused : Refusals} {p : Path} (hs : ∀ n ∈ p.steps, n ∈ known)
    (ha : ((zs.map staged).any fun s => s.target.same (t.target p)) = false) {e : FileError}
    (hr : t.readTextUnder refused (t.target p) = .error e) :
    stageOne refused known old new t' (zs.map staged) p = (.error (.read p e), t') := by
  simp only [stageOne, h.target_eq hs, ha, Bool.false_eq_true, if_false,
    h.readTextUnder_eq ht refused hs, hr, mapError_error, attempt_error]

theorem readText_of_readTextUnder {refused : Refusals} {p : Path} {s : String}
    (h : t.readTextUnder refused p = .ok s) : t.readText p = .ok s := by
  unfold readTextUnder at h
  split at h
  · cases h
  · exact h

/-- A file that can be read stays if it does not hold the locator, and is else laid out beside it, unless
the system refuses that. -/
theorem stagesOne_of_readable (h : Prepared t known old new zs t') (ht : t.WellFormed)
    {refused : Refusals} {p : Path} (hs : ∀ n ∈ p.steps, n ∈ known)
    (ha : ((zs.map staged).any fun s => s.target.same (t.target p)) = false) {q : Place}
    (hp : t.canonical p = .ok q) (hq : q ∉ zs.map (·.1.place)) {s : String}
    (hr : t.readTextUnder refused (t.target p) = .ok s) :
    StagesOne refused t known old new zs t' p
      (stageOne refused known old new t' (zs.map staged) p) := by
  have hread := readText_of_readTextUnder hr
  rw [readText_target ht] at hread
  obtain ⟨q', b, m, hp', hb, htext⟩ := readText_eq_ok_iff.mp hread
  cases hp.symm.trans hp'
  rw [eq_toUTF8_of_fromUTF8? htext] at hb
  have hrewrite := rewrite?_of_file old new hp hb
  simp only [stageOne, h.target_eq hs, ha, Bool.false_eq_true, if_false,
    h.readTextUnder_eq ht refused hs, hr, mapError_ok, attempt_ok]
  cases hc : Replacement.inText? s old new with
  | none => exact .stays (by simp [hrewrite, hc]) (.inl ⟨s, hr⟩)
  | some c =>
      rw [hc, Option.map_some] at hrewrite
      obtain ⟨e, t'', he, hstage, hl⟩ | ⟨he, d, t'', hstage, hd, hl⟩ :=
        h.laid.stage refused known ht hb c.toUTF8
      · simp only [target_of_canonical hp, hstage]
        exact .refused hrewrite hq he hl
      · simp only [target_of_canonical hp, hstage]
        have h' := h.snoc (r := ⟨p, q, s, c, m⟩) hl hd ⟨hp, hb, hc⟩ hq
        have hmap : (zs ++ [((⟨p, q, s, c, m⟩ : Rewrite), d)]).map staged =
            zs.map staged ++ [⟨p, q.path, s, d⟩] := List.map_append
        rw [← hmap]
        exact .laid hrewrite hq he ⟨s, hr⟩ h'

theorem stagesOne (h : Prepared t known old new zs t') (ht : t.WellFormed) (refused : Refusals)
    {p : Path} (hs : ∀ n ∈ p.steps, n ∈ known) :
    StagesOne refused t known old new zs t' p
      (stageOne refused known old new t' (zs.map staged) p) := by
  cases ha : (zs.map staged).any fun s => s.target.same (t.target p) with
  | true =>
      rw [stageOne_taken h refused hs ha]
      refine .stays (fun r hr => ?_) (.inr ?_)
      · have hp := (rewrite?_eq_some hr).1
        rw [target_of_canonical hp] at ha
        exact (h.any_same_iff ht (solid_of_canonical ht hp)).mp ha
      · obtain ⟨s, hs, same⟩ := List.any_eq_true.mp ha
        obtain ⟨z, hz, rfl⟩ := List.mem_map.mp hs
        exact ⟨z.1, List.mem_map_of_mem hz, same⟩
  | false =>
      cases hr : t.readTextUnder refused (t.target p) with
      | error e =>
          rw [stageOne_unreadable h ht hs ha hr]
          exact .unreadable hr
      | ok s =>
          have hread := readText_of_readTextUnder hr
          rw [readText_target ht] at hread
          obtain ⟨q, -, -, hp, -, -⟩ := readText_eq_ok_iff.mp hread
          refine stagesOne_of_readable h ht hs ha hp (fun hq => ?_) hr
          rw [target_of_canonical hp, (h.any_same_iff ht (solid_of_canonical ht hp)).mpr hq] at ha
          cases ha

/-- What is still to be laid out for some paths when there are drafts for some places. -/
def remaining (t : FileTree) (old new : String) (seen : List Place) (files : List Path) :
    List Rewrite :=
  ((files.filterMap (rewrite? t old new)).filter fun r => r.place ∉ seen).eraseDupsBy
    fun r r' => r.place == r'.place

theorem remaining_nil (t : FileTree) (old new : String) (files : List Path) :
    remaining t old new [] files = rewrites t old new files := by
  have hall : (files.filterMap (rewrite? t old new)).filter (fun r => r.place ∉ ([] : List Place)) =
      files.filterMap (rewrite? t old new) := List.filter_eq_self.mpr (by simp)
  rw [remaining, hall, rewrites]

theorem remaining_skip {seen : List Place} {p : Path}
    (h : ∀ r, rewrite? t old new p = some r → r.place ∈ seen) (ps : List Path) :
    remaining t old new seen (p :: ps) = remaining t old new seen ps := by
  unfold remaining
  cases hr : rewrite? t old new p with
  | none => rw [List.filterMap_cons_none hr]
  | some r =>
      rw [List.filterMap_cons_some hr, List.filter_cons_of_neg]
      simpa using h r hr

theorem remaining_cons {seen : List Place} {p : Path} {r : Rewrite}
    (h : rewrite? t old new p = some r) (hn : r.place ∉ seen) (ps : List Path) :
    remaining t old new seen (p :: ps) = r :: remaining t old new (seen ++ [r.place]) ps := by
  unfold remaining
  rw [List.filterMap_cons_some h, List.filter_cons_of_pos (by simpa using hn),
    List.eraseDupsBy_cons, List.filter_filter]
  congr 3
  funext r'
  simp [and_comm]

/-- Laying out all listed files is given up at the first one that cannot be read or laid out, and then
nothing is left of it. -/
theorem stage_cases (h : Prepared t known old new zs t') (ht : t.WellFormed) (refused : Refusals)
    (files : List Path) (hs : ∀ p ∈ files, ∀ n ∈ p.steps, n ∈ known) :
    (∃ p ∈ files, ∃ e, t.readTextUnder refused (t.target p) = .error e ∧
      stage refused known old new t' (zs.map staged) files = (.error (.read p e), t)) ∨
    (∃ r ∈ remaining t old new (zs.map (·.1.place)) files, ∃ e,
      refused.draft? r.place.path = some e ∧
      stage refused known old new t' (zs.map staged) files = (.error (.write r.place.path e), t)) ∨
    ∃ zs' t'', stage refused known old new t' (zs.map staged) files = (.ok (zs'.map staged), t'') ∧
      Prepared t known old new zs' t'' ∧
      zs'.map (·.1) = zs.map (·.1) ++ remaining t old new (zs.map (·.1.place)) files ∧
      (∀ r ∈ remaining t old new (zs.map (·.1.place)) files, refused.draft? r.place.path = none) ∧
      ∀ p ∈ files, Settled refused t (zs'.map (·.1)) p := by
  induction files generalizing zs t' with
  | nil => exact .inr (.inr ⟨zs, t', rfl, h, by simp [remaining], by simp [remaining], by simp⟩)
  | cons p ps ih =>
      have hps : ∀ p' ∈ ps, ∀ n ∈ p'.steps, n ∈ known :=
        fun p' hp' => hs p' (List.mem_cons_of_mem _ hp')
      have step := stagesOne h ht refused (hs p List.mem_cons_self)
      rw [stage]
      generalize stageOne refused known old new t' (zs.map staged) p = one at step ⊢
      cases step with
      | unreadable hr => exact .inl ⟨p, List.mem_cons_self, _, hr, by simp only [discard_eq h.laid]⟩
      | stays hr settled =>
          rw [remaining_skip hr]
          obtain ⟨p', hp', later⟩ | refuses | ⟨zs', t₂, ho, h₂, hz, hall, hsettled⟩ := ih h hps
          · exact .inl ⟨p', List.mem_cons_of_mem _ hp', later⟩
          · exact .inr (.inl refuses)
          · have hsub : zs.map (·.1) ⊆ zs'.map (·.1) := hz ▸ List.subset_append_left _ _
            refine .inr (.inr ⟨zs', t₂, ho, h₂, hz, hall, List.forall_mem_cons.mpr ⟨?_, hsettled⟩⟩)
            exact settled.imp_right fun ⟨r, hr, same⟩ => ⟨r, hsub hr, same⟩
      | refused hr hn he hl =>
          rw [remaining_cons hr hn]
          exact .inr (.inl ⟨_, List.mem_cons_self, _, he, by simp only [discard_eq hl]⟩)
      | @laid r d t'' hr hn he readable h' =>
          rw [remaining_cons hr hn]
          have hseen : (zs ++ [(r, d)]).map (·.1.place) = zs.map (·.1.place) ++ [r.place] :=
            List.map_append
          obtain ⟨p', hp', later⟩ | ⟨r', hr', later⟩ | ⟨zs', t₂, ho, h₂, hz, hall, hsettled⟩ :=
            ih h' hps
          · exact .inl ⟨p', List.mem_cons_of_mem _ hp', later⟩
          · exact .inr (.inl ⟨r', List.mem_cons_of_mem _ (hseen ▸ hr'), later⟩)
          · rw [hseen] at hz hall
            exact .inr (.inr ⟨zs', t₂, ho, h₂, by simpa using hz, List.forall_mem_cons.mpr ⟨he, hall⟩,
              List.forall_mem_cons.mpr ⟨.inl readable, hsettled⟩⟩)

theorem readTextUnder_none (p : Path) : t.readTextUnder .none p = t.readText p := rfl

/-- Laying out is given up at the first file that cannot be read. -/
theorem stage_unreadable (h : Prepared t known old new zs t') (ht : t.WellFormed)
    {before after : List Path} {p : Path}
    (hs : ∀ p' ∈ before ++ p :: after, ∀ n ∈ p'.steps, n ∈ known)
    (hb : ∀ p' ∈ before, ∃ s, t.readText p' = .ok s) {q : Place} (hp : t.canonical p = .ok q)
    {e : FileError} (hr : t.readText p = .error e) :
    stage .none known old new t' (zs.map staged) (before ++ p :: after) =
      (.error (.read p e), t) := by
  induction before generalizing zs t' with
  | nil =>
      have hr' : t.readTextUnder .none (t.target p) = .error e := (readText_target ht p).trans hr
      have hq : q ∉ zs.map (·.1.place) := by
        intro hq
        obtain ⟨z, hz, rfl⟩ := List.mem_map.mp hq
        rw [readText_eq_ok_iff.mpr ⟨_, _, _, hp, (h.sound z hz).held, fromUTF8?_toUTF8 _⟩] at hr
        cases hr
      have ha : ((zs.map staged).any fun s => s.target.same (t.target p)) = false := by
        rw [target_of_canonical hp, Bool.eq_false_iff]
        exact mt (h.any_same_iff ht (solid_of_canonical ht hp)).mp hq
      have ho := stageOne_unreadable h ht (hs p List.mem_cons_self) ha hr'
      simp only [List.nil_append, stage, ho, discard_eq h.laid]
  | cons p' before ih =>
      have later : ∀ p₁ ∈ before ++ p :: after, ∀ n ∈ p₁.steps, n ∈ known :=
        fun p₁ hp₁ => hs p₁ (List.mem_cons_of_mem _ hp₁)
      have readable : ∀ p₁ ∈ before, ∃ s, t.readText p₁ = .ok s :=
        fun p₁ hp₁ => hb p₁ (List.mem_cons_of_mem _ hp₁)
      have step := stagesOne h ht .none (hs p' List.mem_cons_self)
      rw [List.cons_append, stage]
      generalize stageOne .none known old new t' (zs.map staged) p' = one at step ⊢
      cases step with
      | unreadable hr' =>
          obtain ⟨s, hs'⟩ := hb p' List.mem_cons_self
          rw [readTextUnder_none, readText_target ht, hs'] at hr'
          cases hr'
      | stays => exact ih h later readable
      | refused _ _ he => cases he
      | laid _ _ _ _ h' => exact ih h' later readable

end

def rewritten (t : FileTree) (rs : List Rewrite) : FileTree :=
  rs.foldl (fun t r => t.set r.place r.node) t

theorem ne_nil_of_unmentioned {t : FileTree} {known : List String} {p : Place}
    (h : Unmentioned t known p) : p ≠ [] := by
  obtain ⟨d, n, rfl, -⟩ := h
  simp

theorem commit_eq {t t' : FileTree} {zs : List (Rewrite × Place)} (h : Laid t (zs.map draft) t')
    (ht : t.WellFormed) (hd : ∀ z ∈ zs, z.2 ≠ [])
    (hf : ∀ z ∈ zs, ∃ b m, t.get? z.1.place = some (.file b m))
    (hn : (zs.map (·.1.place)).Nodup) (replaced : List Staged) :
    commit t' replaced (zs.map staged) =
      (.ok (replaced.map (·.path) ++ zs.map (·.1.path)), rewritten t (zs.map (·.1))) := by
  induction zs generalizing t t' replaced with
  | nil => simp [commit, rewritten, h.eq]
  | cons z zs ih =>
      obtain ⟨b, m, hz⟩ := hf z List.mem_cons_self
      obtain ⟨t'', hp, hl⟩ := Laid.persist h ht (hd z List.mem_cons_self) hz
      rw [List.map_cons, List.nodup_cons] at hn
      have hne : z.1.place ≠ [] := ne_nil_of_file hz
      have hrest := ih hl (ht.set_file hz) (fun y hy => hd y (List.mem_cons_of_mem _ hy)) ?_ hn.2
        (replaced ++ [staged z])
      · have hp' : t'.persist (staged z).draft (staged z).target = .ok t'' := hp
        simp only [List.map_cons, commit, hp', hrest]
        simp [rewritten, staged]
      · intro y hy
        have hyz : y.1.place ≠ z.1.place :=
          fun he => hn.1 (List.mem_map.mpr ⟨y, hy, he⟩)
        rw [get?_set_of_ne t _ hne hyz]
        exact hf y (List.mem_cons_of_mem _ hy)

/-- The listed files are rewritten, each once, and nothing else has changed. -/
structure Swapped (t : FileTree) (old new : String) (rs : List Rewrite) (t' : FileTree) : Prop where
  current : t'.current = t.current
  sound : ∀ r ∈ rs, r.Sound t old new
  once : (rs.map (·.place)).Nodup
  held : ∀ r ∈ rs, t'.get? r.place = some (.file r.contents.toUTF8 r.mode)
  other : ∀ q, q ∉ rs.map (·.place) → t'.get? q = t.get? q
  link : ∀ q p, t'.get? q = some (.link p) ↔ t.get? q = some (.link p)

theorem place_ne_nil {t : FileTree} {old new : String} {r : Rewrite} (h : r.Sound t old new) :
    r.place ≠ [] := ne_nil_of_file h.held

theorem get?_rewritten_other {t : FileTree} {rs : List Rewrite} (hne : ∀ r ∈ rs, r.place ≠ [])
    {q : Place} (hq : q ∉ rs.map (·.place)) : (rewritten t rs).get? q = t.get? q := by
  induction rs generalizing t with
  | nil => rfl
  | cons r rs ih =>
      rw [List.map_cons, List.mem_cons, not_or] at hq
      have hrest := ih (t := t.set r.place r.node) (fun r' h => hne r' (List.mem_cons_of_mem _ h)) hq.2
      exact hrest.trans (get?_set_of_ne t _ (hne r List.mem_cons_self) hq.1)

theorem get?_rewritten {t : FileTree} {rs : List Rewrite} (hne : ∀ r ∈ rs, r.place ≠ [])
    (hn : (rs.map (·.place)).Nodup) {r : Rewrite} (hr : r ∈ rs) :
    (rewritten t rs).get? r.place = some r.node := by
  induction rs generalizing t with
  | nil => cases hr
  | cons r' rs ih =>
      rw [List.map_cons, List.nodup_cons] at hn
      have hne' : ∀ r ∈ rs, r.place ≠ [] := fun r h => hne r (List.mem_cons_of_mem _ h)
      rcases List.mem_cons.mp hr with rfl | hr
      · have hset := get?_set_self t r.node (hne r List.mem_cons_self)
        exact (get?_rewritten_other hne' hn.1).trans hset
      · exact ih (t := t.set r'.place r'.node) hne' hn.2 hr

theorem swapped_rewritten {t : FileTree} {old new : String} {rs : List Rewrite}
    (hs : ∀ r ∈ rs, r.Sound t old new) (hn : (rs.map (·.place)).Nodup) :
    Swapped t old new rs (rewritten t rs) := by
  have hne : ∀ r ∈ rs, r.place ≠ [] := fun r hr => place_ne_nil (hs r hr)
  have current : (rewritten t rs).current = t.current := by
    clear hs hn hne
    induction rs generalizing t with
    | nil => rfl
    | cons r rs ih => exact ih
  refine ⟨current, hs, hn, fun r hr => get?_rewritten hne hn hr,
    fun q hq => get?_rewritten_other hne hq, fun q p => ?_⟩
  by_cases hq : q ∈ rs.map (·.place)
  · obtain ⟨r, hr, rfl⟩ := List.mem_map.mp hq
    rw [get?_rewritten hne hn hr, (hs r hr).held]
    exact ⟨nofun, nofun⟩
  · rw [get?_rewritten_other hne hq]

/-- Swapping a locator either fails, and leaves the tree as it was, or rewrites what is to be rewritten. -/
theorem swapUnder_cases {t : FileTree} (ht : t.WellFormed) (refused : Refusals) (files : List Path)
    (old new : String) :
    (∃ p ∈ files, ∃ e, t.readTextUnder refused (t.target p) = .error e ∧
      swapUnder refused t files old new = (.error (.read p e), t)) ∨
    (∃ r ∈ rewrites t old new files, ∃ e, refused.draft? r.place.path = some e ∧
      swapUnder refused t files old new = (.error (.write r.place.path e), t)) ∨
    swapUnder refused t files old new =
        (.ok ((rewrites t old new files).map (·.path)), rewritten t (rewrites t old new files)) ∧
      (∀ r ∈ rewrites t old new files, r.Sound t old new ∧ refused.draft? r.place.path = none) ∧
      ((rewrites t old new files).map (·.place)).Nodup ∧
      ∀ p ∈ files, Settled refused t (rewrites t old new files) p := by
  have hknown : ∀ p ∈ files, ∀ n ∈ p.steps, n ∈ files.flatMap (·.steps) :=
    fun p hp n hn => List.mem_flatMap.mpr ⟨p, hp, hn⟩
  have staging := stage_cases (Prepared.nil t _ old new) ht refused files hknown
  rw [List.map_nil, List.map_nil, remaining_nil, List.map_nil, List.nil_append] at staging
  obtain ⟨p, hp, e, hr, ho⟩ | ⟨r, hr, e, he, ho⟩ | ⟨zs, t₁, ho, h, hz, hall, hsettled⟩ := staging
  · exact .inl ⟨p, hp, e, hr, by simp only [swapUnder, ho]⟩
  · exact .inr (.inl ⟨r, hr, e, he, by simp only [swapUnder, ho]⟩)
  · have hcommit := commit_eq h.laid ht (fun z hz => ne_nil_of_unmentioned (h.unmentioned z hz))
      (fun z hz => ⟨_, _, (h.sound z hz).held⟩) h.once []
    have hpaths : zs.map (·.1.path) = (rewrites t old new files).map (·.path) := by
      rw [← hz, List.map_map]
      rfl
    rw [hz, hpaths] at hcommit
    refine .inr (.inr ⟨by simp only [swapUnder, ho, hcommit]; rfl, fun r hr => ⟨?_, hall r hr⟩, ?_,
      hz ▸ hsettled⟩)
    · rw [← hz] at hr
      obtain ⟨z, hmem, rfl⟩ := List.mem_map.mp hr
      exact h.sound z hmem
    · rw [← hz, List.map_map]
      exact h.once

theorem swap_cases {t : FileTree} (ht : t.WellFormed) (files : List Path) (old new : String) :
    (∃ p ∈ files, ∃ e, t.readText p = .error e ∧
      swap t files old new = (.error (.read p e), t)) ∨
    swap t files old new =
        (.ok ((rewrites t old new files).map (·.path)), rewritten t (rewrites t old new files)) ∧
      (∀ r ∈ rewrites t old new files, r.Sound t old new) ∧
      ((rewrites t old new files).map (·.place)).Nodup := by
  obtain ⟨p, hp, e, hr, h⟩ | ⟨_, _, _, he, _⟩ | ⟨h, hs, hn, -⟩ :=
    swapUnder_cases ht .none files old new
  · exact .inl ⟨p, hp, e, (readText_target ht p).symm.trans hr, h⟩
  · cases he
  · exact .inr ⟨h, fun r hr => (hs r hr).1, hn⟩

theorem swap_of_readable {t : FileTree} (ht : t.WellFormed) {files : List Path}
    (hf : ∀ p ∈ files, ∃ s, t.readText p = .ok s) (old new : String) :
    swap t files old new =
        (.ok ((rewrites t old new files).map (·.path)), rewritten t (rewrites t old new files)) ∧
      ∀ r ∈ rewrites t old new files, r.Sound t old new := by
  obtain ⟨p, hp, e, hr, -⟩ | ⟨h, hs, -⟩ := swap_cases ht files old new
  · obtain ⟨s, hs⟩ := hf p hp
    rw [hs] at hr
    cases hr
  · exact ⟨h, hs⟩

theorem swap_of_unreadable {t : FileTree} (ht : t.WellFormed) {before after : List Path} {p : Path}
    (hb : ∀ p' ∈ before, ∃ s, t.readText p' = .ok s) {q : Place} (hp : t.canonical p = .ok q)
    {e : FileError} (hr : t.readText p = .error e) (old new : String) :
    swap t (before ++ p :: after) old new = (.error (.read p e), t) := by
  have hknown : ∀ p' ∈ before ++ p :: after, ∀ n ∈ p'.steps,
      n ∈ (before ++ p :: after).flatMap (·.steps) :=
    fun p' hp' n hn => List.mem_flatMap.mpr ⟨p', hp', hn⟩
  have ho := stage_unreadable (Prepared.nil t _ old new) ht hknown hb hp hr
  rw [List.map_nil] at ho
  simp only [swap, swapUnder, ho]

theorem wellFormed_rewritten {t : FileTree} {rs : List Rewrite} (ht : t.WellFormed)
    (hf : ∀ r ∈ rs, ∃ b m, t.get? r.place = some (.file b m)) : (rewritten t rs).WellFormed := by
  induction rs generalizing t with
  | nil => exact ht
  | cons r rs ih =>
      obtain ⟨b, m, hr⟩ := hf r List.mem_cons_self
      have hx : Extends t (t.set r.place r.node) := extends_set_of_file hr _ _
      refine ih (ht.set_file hr) fun r' hr' => ?_
      obtain ⟨b', m', hb⟩ := hf r' (List.mem_cons_of_mem _ hr')
      exact hx.file _ _ _ hb

theorem Swapped.mem_of_ne {t t' : FileTree} {old new : String} {rs : List Rewrite}
    (h : Swapped t old new rs t') {q : Place} (hq : t'.get? q ≠ t.get? q) :
    ∃ r ∈ rs, r.place = q := by
  by_contra hn
  exact hq (h.other q fun hm => hn (List.mem_map.mp hm))

theorem Swapped.extends {t t' : FileTree} {old new : String} {rs : List Rewrite}
    (h : Swapped t old new rs t') : Extends t t' := by
  have file : ∀ r ∈ rs, ∀ n, t.get? r.place = some n → ∃ b m, n = .file b m := by
    intro r hr n hn
    rw [(h.sound r hr).held] at hn
    exact ⟨_, _, (Option.some.inj hn).symm⟩
  refine ⟨h.current, ?_, fun q p hq => (h.link q p).mpr hq, ?_⟩
  · intro q hq
    rw [h.other q fun hm => ?_]
    · exact hq
    · obtain ⟨r, hr, rfl⟩ := List.mem_map.mp hm
      obtain ⟨b, m, hn⟩ := file r hr _ hq
      cases hn
  · intro q b m hq
    by_cases hm : q ∈ rs.map (·.place)
    · obtain ⟨r, hr, rfl⟩ := List.mem_map.mp hm
      exact ⟨_, _, h.held r hr⟩
    · exact ⟨b, m, (h.other q hm).trans hq⟩

/-- Swapping a locator is all or nothing, whatever the system refuses. Either a listed file cannot be read,
or the system refuses to lay out what a file that holds the locator is to hold, and the tree is left as
it was; or neither is so, the first path to each file that holds the locator is given back, and exactly
these files are rewritten, with their modes and through all links to them. -/
theorem swap_all_or_nothing {t : FileTree} (ht : t.WellFormed) (refused : Refusals)
    (files : List Path) (old new : String) :
    (∃ p ∈ files, ∃ e, t.readTextUnder refused (t.target p) = .error e ∧
      swapUnder refused t files old new = (.error (.read p e), t)) ∨
    (∃ r ∈ rewrites t old new files, ∃ e, refused.draft? r.place.path = some e ∧
      swapUnder refused t files old new = (.error (.write r.place.path e), t)) ∨
    (∀ p ∈ files, Settled refused t (rewrites t old new files) p) ∧
      (∀ r ∈ rewrites t old new files, refused.draft? r.place.path = none) ∧
      ∃ t', swapUnder refused t files old new =
          (.ok ((rewrites t old new files).map (·.path)), t') ∧
        Swapped t old new (rewrites t old new files) t' := by
  obtain h | h | ⟨h, hs, hn, settled⟩ := swapUnder_cases ht refused files old new
  · exact .inl h
  · exact .inr (.inl h)
  · exact .inr (.inr ⟨settled, fun r hr => (hs r hr).2, _, h,
      swapped_rewritten (fun r hr => (hs r hr).1) hn⟩)

/-- A page and a link to it. -/
def linkedPage : FileTree where
  nodes := .ofList [(["pages"], .dir), (["pages", "login.ts"], .file "$('#old')".toUTF8 0o644),
    (["pages", "start.ts"], .link ⟨"login.ts"⟩)]

theorem wellFormed_linkedPage : linkedPage.WellFormed :=
  wellFormed_of_fits rfl (by decide)

/-- The same with another page. -/
def twoPages : FileTree :=
  linkedPage.set ["pages", "home.ts"] (.file "$('#old')".toUTF8 0o600)

theorem wellFormed_twoPages : twoPages.WellFormed :=
  wellFormed_of_fits rfl (by decide)

/-- The link and the pages, in an order in which they may be listed. -/
def listedPages : List Path := [⟨"pages/start.ts"⟩, ⟨"pages/login.ts"⟩, ⟨"pages/home.ts"⟩]

def noSpace : FileError := .refused 28 "No space left on device"

/-- A disk that gets full when the second page is written. -/
def fullDisk : Refusals := fun p a =>
  if p = ⟨"/pages/home.ts"⟩ ∧ a = .write then some noSpace else none

theorem draft?_fullDisk (p : Path) :
    fullDisk.draft? p = if p = ⟨"/pages/home.ts"⟩ then some noSpace else none := by
  by_cases hp : p = ⟨"/pages/home.ts"⟩ <;> simp [Refusals.draft?, fullDisk, hp]

theorem readable_listedPages {refused : Refusals} (h : refused ∈ [Refusals.none, fullDisk])
    {p : Path} (hp : p ∈ listedPages) (e : FileError) :
    twoPages.readTextUnder refused (twoPages.target p) ≠ .error e := by
  have readable : ∀ refused ∈ [Refusals.none, fullDisk], ∀ p ∈ listedPages,
      (twoPages.readTextUnder refused (twoPages.target p)).isOk := by decide +kernel
  intro he
  have hread := readable refused h p hp
  rw [he] at hread
  cases hread

/-- The pages are rewritten where nothing is in the way. A disk that gets full at the second one, when the
first one is laid out already, and a listed file that is not there leave everything as it was. -/
theorem swap_twoPages :
    (∃ t', swapUnder .none twoPages listedPages "#old" "#new" =
        (.ok [⟨"pages/start.ts"⟩, ⟨"pages/home.ts"⟩], t') ∧
      Swapped twoPages "#old" "#new" (rewrites twoPages "#old" "#new" listedPages) t') ∧
    swapUnder fullDisk twoPages listedPages "#old" "#new" =
      (.error (.write ⟨"/pages/home.ts"⟩ noSpace), twoPages) ∧
    swapUnder .none twoPages (listedPages ++ [⟨"pages/none.ts"⟩]) "#old" "#new" =
      (.error (.read ⟨"pages/none.ts"⟩ .notFound), twoPages) := by
  have swaps := swap_all_or_nothing wellFormed_twoPages
  refine ⟨?_, ?_, ?_⟩
  · have paths : (rewrites twoPages "#old" "#new" listedPages).map (·.path) =
        [⟨"pages/start.ts"⟩, ⟨"pages/home.ts"⟩] := by decide +kernel
    obtain ⟨p, hp, e, he, -⟩ | ⟨_, _, _, he, _⟩ | ⟨-, -, swapped⟩ :=
      swaps .none listedPages "#old" "#new"
    · exact absurd he (readable_listedPages List.mem_cons_self hp e)
    · cases he
    · rwa [paths] at swapped
  · have refuses : ∃ r ∈ rewrites twoPages "#old" "#new" listedPages,
        fullDisk.draft? r.place.path ≠ none := by decide +kernel
    obtain ⟨p, hp, e, he, -⟩ | ⟨r, -, e, he, failed⟩ | ⟨-, free, -⟩ :=
      swaps fullDisk listedPages "#old" "#new"
    · exact absurd he (readable_listedPages (by simp) hp e)
    · rw [draft?_fullDisk] at he
      split at he
      · rename_i hr
        cases he
        rwa [hr] at failed
      · cases he
    · obtain ⟨r, hr, hne⟩ := refuses
      exact absurd (free r hr) hne
  · have missing : twoPages.readTextUnder .none (twoPages.target ⟨"pages/none.ts"⟩) =
        .error .notFound := by decide +kernel
    have other : ∀ r ∈ rewrites twoPages "#old" "#new" (listedPages ++ [⟨"pages/none.ts"⟩]),
        r.place.path.same (twoPages.target ⟨"pages/none.ts"⟩) = false := by decide +kernel
    obtain ⟨p, hp, e, he, failed⟩ | ⟨_, _, _, he, _⟩ | ⟨settled, -⟩ :=
      swaps .none (listedPages ++ [⟨"pages/none.ts"⟩]) "#old" "#new"
    · obtain hp | hp := List.mem_append.mp hp
      · exact absurd he (readable_listedPages List.mem_cons_self hp e)
      · cases List.mem_singleton.mp hp
        cases missing.symm.trans he
        exact failed
    · cases he
    · obtain ⟨s, hs⟩ | ⟨r, hr, same⟩ := settled ⟨"pages/none.ts"⟩ (by simp)
      · cases missing.symm.trans hs
      · rw [other r hr] at same
        cases same

end Patch
end TestRepair
