import TestRepair.Proofs.FileTree.Components
import TestRepair.Proofs.Text.Replacing
import TestRepair.Script.Import
import TestRepair.Script.Module

/-!
What carrying out `.` and `..` by the spelling alone makes of a path. Below a directory of plain names
a path comes out where it leads. From nowhere it does not always: a `..` takes back a `..` before it,
so of the directories that a relative path goes up only an odd one is kept.
-/

namespace TestRepair

namespace Path

/-- Where a path leads by its spelling: some directories up, and from there down these names. -/
structure Course where
  ups : Nat := 0
  names : List String := []

def Course.step (c : Course) : PathComponent → Course
  | .up => if c.names = [] then ⟨c.ups + 1, []⟩ else ⟨c.ups, c.names.dropLast⟩
  | .name n => ⟨c.ups, c.names ++ [n]⟩
  | .root | .here => c

def Course.along (c : Course) (cs : List PathComponent) : Course := cs.foldl Course.step c

def course (p : Path) : Course := Course.along {} p.components

/-- A directory whose path consists of names. -/
structure Plain (d : Path) : Prop where
  absolute : d.isAbsolute = true
  noUp : PathComponent.up ∉ d.components

namespace Course

variable {c : Course} {cs : List PathComponent}

theorem along_names (c : Course) (ns : List String) :
    c.along (ns.map .name) = ⟨c.ups, c.names ++ ns⟩ := by
  induction ns generalizing c with
  | nil => simp [along]
  | cons n ns ih =>
      have next : c.along ((n :: ns).map .name) = (c.step (.name n)).along (ns.map .name) := rfl
      rw [next, ih]
      simp [step]

theorem along_ups (k j : Nat) : along ⟨k, []⟩ (List.replicate j .up) = ⟨k + j, []⟩ := by
  induction j generalizing k with
  | zero => rfl
  | succ j ih =>
      have next : along ⟨k, []⟩ (List.replicate (j + 1) .up) =
          along ⟨k + 1, []⟩ (List.replicate j .up) := rfl
      rw [next, ih, Nat.add_right_comm, Nat.add_assoc]

/-- A course that goes up and down is its own course. -/
theorem along_course (k : Nat) (ns : List String) :
    along {} (List.replicate k .up ++ ns.map .name) = ⟨k, ns⟩ := by
  rw [along, List.foldl_append, ← along, ← along, along_ups, along_names]
  simp

/-- No component leads further than one step. -/
theorem length_along (c : Course) (cs : List PathComponent) :
    (c.along cs).ups + (c.along cs).names.length ≤ c.ups + c.names.length + cs.length := by
  induction cs generalizing c with
  | nil => exact Nat.le_refl _
  | cons x cs ih =>
      have bound : (c.step x).ups + (c.step x).names.length ≤ c.ups + c.names.length + 1 := by
        cases x with
        | up =>
            by_cases none : c.names = []
            · simp [step, none]
            · simp only [step, none, if_false, List.length_dropLast]
              omega
        | name n =>
            simp only [step, List.length_append, List.length_singleton]
            omega
        | root | here => exact Nat.le_succ _
      have next := ih (c.step x)
      rw [List.length_cons]
      change ((c.step x).along cs).ups + ((c.step x).along cs).names.length ≤ _
      omega

/-- The course from a directory: its own components less those that are gone up, and the names. -/
def below (c : Course) (base : List PathComponent) : List PathComponent :=
  base.take (base.length - c.ups) ++ c.names.map .name

/-- The course from nowhere: every second step up takes back the one before it. -/
def alone (c : Course) : List PathComponent :=
  List.replicate (c.ups % 2) .up ++ c.names.map .name

theorem normalStep_below {base : List PathComponent} {x : PathComponent} (hx : x ≠ .root)
    (h : c.ups + 1 < base.length) : normalStep (c.below base) x = (c.step x).below base := by
  cases x with
  | root => exact absurd rfl hx
  | here => rfl
  | name n => simp [below, step, normalStep]
  | up =>
      have long : 2 ≤ (base.take (base.length - c.ups)).length := by
        rw [List.length_take]
        omega
      have inside : (c.below base == [] || c.below base == [.root]) = false := by
        have length : 2 ≤ (c.below base).length := by
          rw [below, List.length_append]
          omega
        rw [Bool.or_eq_false_iff, beq_eq_false_iff_ne, beq_eq_false_iff_ne]
        constructor <;> intro e <;> simp [e] at length
      rw [normalStep, inside, if_neg Bool.false_ne_true]
      by_cases none : c.names = []
      · simp only [below, step, none, if_true, List.map_nil, List.append_nil,
          List.dropLast_eq_take, List.take_take, List.length_take]
        congr 1
        omega
      · rw [below, List.dropLast_append_of_ne_nil (by simpa using none)]
        simp only [below, step, none, if_false, List.map_dropLast]

theorem foldl_below {base : List PathComponent} (plain : .root ∉ cs)
    (h : c.ups + cs.length < base.length) :
    cs.foldl normalStep (c.below base) = (c.along cs).below base := by
  induction cs generalizing c with
  | nil => rfl
  | cons x cs ih =>
      rw [List.mem_cons, not_or] at plain
      rw [List.length_cons] at h
      have bound : (c.step x).ups ≤ c.ups + 1 := by
        cases x with
        | up => by_cases none : c.names = [] <;> simp [step, none]
        | root | here | name => exact Nat.le_succ _
      rw [List.foldl_cons, normalStep_below (Ne.symm plain.1) (by omega), ih plain.2 (by omega)]
      rfl

theorem normalStep_alone {x : PathComponent} (hx : x ≠ .root) :
    normalStep c.alone x = (c.step x).alone := by
  cases x with
  | root => exact absurd rfl hx
  | here => rfl
  | name n => simp [alone, step, normalStep]
  | up =>
      by_cases none : c.names = []
      · -- A step up that was kept is taken back by the next one.
        obtain even | odd := Nat.mod_two_eq_zero_or_one c.ups
        · have next : (c.ups + 1) % 2 = 1 := by omega
          simp [alone, step, normalStep, none, even, next]
        · have next : (c.ups + 1) % 2 = 0 := by omega
          simp [alone, step, normalStep, none, odd, next]
      · have inside : (c.alone == [] || c.alone == [.root]) = false := by
          obtain ⟨ns, n, last⟩ := (List.eq_nil_or_concat' c.names).resolve_left none
          rw [Bool.or_eq_false_iff, beq_eq_false_iff_ne, beq_eq_false_iff_ne, alone, last]
          constructor
          · simp
          · intro e
            have last := congrArg List.getLast? e
            simp at last
        rw [normalStep, inside, if_neg Bool.false_ne_true, alone,
          List.dropLast_append_of_ne_nil (by simpa using none)]
        simp only [alone, step, none, if_false, List.map_dropLast]

theorem foldl_alone (plain : .root ∉ cs) :
    cs.foldl normalStep c.alone = (c.along cs).alone := by
  induction cs generalizing c with
  | nil => rfl
  | cons x cs ih =>
      rw [List.mem_cons, not_or] at plain
      rw [List.foldl_cons, normalStep_alone (Ne.symm plain.1), ih plain.2]
      rfl

theorem spoken_along (hn : ∀ n ∈ c.names, Spoken (.name n)) (hcs : ∀ x ∈ cs, Spoken x) :
    ∀ n ∈ (c.along cs).names, Spoken (.name n) := by
  induction cs generalizing c with
  | nil => exact hn
  | cons x cs ih =>
      obtain ⟨first, rest⟩ := List.forall_mem_cons.mp hcs
      refine ih ?_ rest
      cases x with
      | root | here => exact hn
      | up =>
          intro n mem
          by_cases none : c.names = []
          · simp [step, none] at mem
          · simp only [step, none, if_false] at mem
            exact hn n (List.dropLast_subset _ mem)
      | name m =>
          intro n mem
          obtain mem | mem := List.mem_append.mp mem
          · exact hn n mem
          · rw [List.mem_singleton.mp mem]
            exact first

end Course

section Normalizing

variable {p d : Path}

theorem course_eq (hp : p.isAbsolute = false) : p.course = Course.along {} p.inner := by
  obtain same | same := components_of_relative hp <;> rw [course, same]
  rfl

theorem normalize_alone (hp : p.isAbsolute = false) :
    p.normalize = ofComponents p.course.alone := by
  have fold : p.components.foldl normalStep [] = p.inner.foldl normalStep [] := by
    obtain same | same := components_of_relative hp <;> rw [same]
    rfl
  have alone : p.inner.foldl normalStep (Course.alone {}) = _ :=
    Course.foldl_alone (root_notMem_inner p)
  rw [normalize, fold, course_eq hp]
  exact congrArg ofComponents alone

theorem Plain.components_eq (h : d.Plain) : d.components = .root :: d.inner :=
  components_of_absolute h.absolute

theorem foldl_normalStep_names {cs : List PathComponent} (out : List PathComponent)
    (h : ∀ c ∈ cs, Spoken c ∧ c ≠ .up) : cs.foldl normalStep out = out ++ cs := by
  induction cs generalizing out with
  | nil => exact (List.append_nil out).symm
  | cons c cs ih =>
      obtain ⟨⟨spoken, noUp⟩, rest⟩ := List.forall_mem_cons.mp h
      have kept : normalStep out c = out ++ [c] := by
        cases c with
        | name n => rfl
        | root => exact absurd rfl spoken.ne_root
        | up => exact absurd rfl noUp
        | here => exact absurd rfl spoken.ne_here
      rw [List.foldl_cons, kept, ih _ rest, List.append_assoc, List.singleton_append]

theorem Plain.foldl_components (h : d.Plain) :
    d.components.foldl normalStep [] = d.components := by
  have noUp := h.noUp
  rw [h.components_eq] at noUp ⊢
  refine foldl_normalStep_names [.root] fun c mem => ⟨spoken_of_mem_inner mem, ?_⟩
  rintro rfl
  exact noUp (List.mem_cons_of_mem _ mem)

theorem length_inner_le (hp : p.isAbsolute = false) : p.inner.length ≤ p.components.length := by
  cases components_of_relative hp with
  | inl same => exact Nat.le_of_eq (congrArg List.length same.symm)
  | inr same =>
      rw [same]
      exact Nat.le_succ _

theorem normalize_below (hd : d.Plain) (hp : p.isAbsolute = false)
    (long : p.inner.length < d.components.length) :
    (d.join p).normalize = ofComponents (p.course.below d.components) := by
  have start : Course.below {} d.components = d.components := by
    simp [Course.below]
  have fold : (d.join p).components.foldl normalStep [] =
      p.inner.foldl normalStep (Course.below {} d.components) := by
    rw [components_of_absolute (isAbsolute_join hd.absolute hp), inner_join hd.absolute hp,
      ← List.cons_append, ← hd.components_eq, List.foldl_append, hd.foldl_components, start]
  rw [normalize, fold, Course.foldl_below (root_notMem_inner p) (by simpa using long), course_eq hp]

theorem spoken_course (hp : p.isAbsolute = false) : ∀ n ∈ p.course.names, Spoken (.name n) := by
  rw [course_eq hp]
  exact Course.spoken_along nofun fun _ => spoken_of_mem_inner

theorem ups_lt (hp : p.isAbsolute = false) (long : p.inner.length < d.components.length) :
    p.course.ups + p.course.names.length < d.components.length := by
  rw [course_eq hp]
  have bound := Course.length_along {} p.inner
  simp only [List.length_nil, Nat.add_zero, Nat.zero_add] at bound
  omega

/-- Courses from one directory that differ in how far they go up lead to different places. -/
theorem ofComponents_below_inj {base : List PathComponent} {names : List String} {j k : Nat}
    (hb : ∀ x ∈ base, Spoken x) (hn : ∀ n ∈ names, Spoken (.name n)) (hj : j ≤ base.length)
    (hk : k ≤ base.length) :
    ofComponents (Course.below ⟨j, names⟩ (.root :: base)) =
      ofComponents (Course.below ⟨k, names⟩ (.root :: base)) ↔ j = k := by
  have written {i : Nat} (hi : i ≤ base.length) :
      (ofComponents (Course.below ⟨i, names⟩ (.root :: base))).components =
        .root :: (base.take (base.length - i) ++ names.map .name) := by
    rw [Course.below, List.length_cons, Nat.succ_sub hi, List.take_succ_cons, List.cons_append]
    apply components_ofComponents_root
    intro x mem
    obtain mem | mem := List.mem_append.mp mem
    · exact hb x (List.mem_of_mem_take mem)
    · obtain ⟨n, hn', rfl⟩ := List.mem_map.mp mem
      exact hn n hn'
  constructor
  · intro e
    have length := congrArg (fun p => p.components.length) e
    simp only [written hj, written hk, List.length_cons, List.length_append, List.length_take,
      List.length_map] at length
    omega
  · rintro rfl
    rfl

/-- A relative path that is normalised first comes out where it leads just if it does not go up two
directories or more. -/
theorem normalize_join_normalize_iff (hd : d.Plain) (hp : p.isAbsolute = false)
    (long : p.inner.length < d.components.length) :
    (d.join p.normalize).normalize = (d.join p).normalize ↔ p.course.ups ≤ 1 := by
  have names := spoken_course hp
  have spoken : ∀ x ∈ p.course.alone, Spoken x := by
    intro x mem
    obtain mem | mem := List.mem_append.mp mem
    · rw [List.eq_of_mem_replicate mem]
      exact ⟨['.', '.'], rfl, by decide, rfl⟩
    · obtain ⟨n, hn, rfl⟩ := List.mem_map.mp mem
      exact names n hn
  have bound := ups_lt hp long
  have relative : p.normalize.isAbsolute = false := by
    rw [normalize_alone hp]
    exact relative_ofComponents spoken
  have inner : p.normalize.inner = p.course.alone := by
    rw [normalize_alone hp, inner_ofComponents spoken]
  have short : p.normalize.inner.length < d.components.length := by
    rw [inner, Course.alone, List.length_append, List.length_replicate, List.length_map]
    omega
  have course : p.normalize.course = ⟨p.course.ups % 2, p.course.names⟩ := by
    rw [course_eq relative, inner, Course.alone, Course.along_course]
  rw [normalize_below hd relative short, normalize_below hd hp long, course, hd.components_eq]
  rw [hd.components_eq, List.length_cons] at bound
  have even : p.course.ups % 2 ≤ d.inner.length := by omega
  have spot := ofComponents_below_inj (fun _ => spoken_of_mem_inner) names even
    (show p.course.ups ≤ d.inner.length by omega)
  refine spot.trans ?_
  omega

theorem relative_join {q : Path} (hp : p.isAbsolute = false) (hq : q.isAbsolute = false) :
    (p.join q).isAbsolute = false := by
  rw [join, hq, if_neg Bool.false_ne_true]
  cases text : p.text.toList with
  | nil =>
      have empty : p.text = "" := String.toList_eq_nil_iff.mp text
      simpa [empty, isAbsolute] using hq
  | cons x s =>
      have other : x ≠ '/' := by simpa [isAbsolute, text] using hp
      split <;> simp [isAbsolute, text, other]

end Normalizing
end Path

namespace Script

theorem relative_of_mem_modulePaths {dir c : Path} {specifier : String}
    (hdir : dir.isAbsolute = false) (relative : isRelative specifier.toList = true)
    (h : c ∈ modulePaths dir specifier) : c.isAbsolute = false := by
  obtain ⟨rest, text⟩ : ∃ rest, specifier.toList = '.' :: rest := by
    obtain here | up := Bool.or_eq_true_iff.mp relative
    · obtain ⟨s, hs⟩ := Text.startsWith_iff.mp here
      exact ⟨'/' :: s, hs.symm⟩
    · obtain ⟨s, hs⟩ := Text.startsWith_iff.mp up
      exact ⟨'.' :: '/' :: s, hs.symm⟩
  have child {name : String} (hn : name.toList.head? = some '.') :
      (dir.child name).isAbsolute = false :=
    Path.relative_join hdir (by simp [Path.isAbsolute, hn])
  have plain : (dir.child specifier).isAbsolute = false := child (by rw [text]; rfl)
  rw [modulePaths, List.cons_append, List.cons_append, List.mem_cons, List.mem_append,
    List.mem_append] at h
  obtain rfl | (typed | omitted) | index := h
  · exact plain
  · split at typed
    · next stem found =>
      obtain ⟨ending, mem, rfl⟩ := List.mem_map.mp typed
      apply child
      rw [String.toList_append, String.toList_ofList]
      rw [Text.front?_eq_some_iff, text] at found
      cases stem with
      | nil =>
          have dotted : ∀ e ∈ [".ts", ".tsx"], e.toList.head? = some '.' := by decide
          exact dotted ending mem
      | cons x stem =>
          rw [← (List.cons.inj found).1]
          rfl
    · cases typed
  · obtain ⟨ending, -, rfl⟩ := List.mem_map.mp omitted
    exact child (by rw [String.toList_append, text]; rfl)
  · simp only [List.mem_cons, List.not_mem_nil, or_false] at index
    obtain rfl | rfl := index <;> exact Path.relative_join plain rfl

end Script

namespace Path

/-- Which places normalising keeps. Below a directory of names, a relative path with fewer components
comes out where it leads, and so it does if it is normalised before, just if it goes up one directory
at most. The module of a specifier is such a path, seen from the directory of the script. -/
theorem normalize_keeps_place {d : Path} (hd : d.Plain) :
    (∀ p : Path, p.isAbsolute = false → p.components.length < d.components.length →
      (d.join p).normalize = ofComponents (p.course.below d.components) ∧
      ((d.join p.normalize).normalize = (d.join p).normalize ↔ p.course.ups ≤ 1)) ∧
    ∀ (t : FileTree) (dir m : Path) (specifier : String), dir.isAbsolute = false →
      Script.isRelative specifier.toList = true → Script.module? t dir specifier = some m →
      ∃ c ∈ Script.modulePaths dir specifier, t.isFile m = true ∧ m = c.normalize ∧
        (c.components.length < d.components.length →
          ((d.join m).normalize = (d.join c).normalize ↔ c.course.ups ≤ 1)) := by
  constructor
  · intro p hp long
    have short := Nat.lt_of_le_of_lt (length_inner_le hp) long
    exact ⟨normalize_below hd hp short, normalize_join_normalize_iff hd hp short⟩
  · intro t dir m specifier hdir relative found
    have file : t.isFile m = true := List.find?_some found
    obtain ⟨c, mem, rfl⟩ := List.mem_map.mp (List.mem_of_find?_eq_some found)
    have hc := Script.relative_of_mem_modulePaths hdir relative mem
    refine ⟨c, mem, file, rfl, fun long => ?_⟩
    exact normalize_join_normalize_iff hd hc (Nat.lt_of_le_of_lt (length_inner_le hc) long)

/-- A work directory with a module in it, and none further up. -/
def strayModule : FileTree where
  nodes := .ofList [(["work"], .dir), (["work", "lib"], .dir),
    (["work", "lib", "page.ts"], .file "class Page \x7b\x7d\n".toUTF8 0o644)]
  current := ["work"]

/-- The import leads two directories further up than the module that is found for it. -/
theorem normalize_strayModule :
    Script.module? strayModule ⟨"tests"⟩ "../../../lib/page" = some ⟨"lib/page.ts"⟩ ∧
      Plain ⟨"/srv/ci/jobs/web/shop/work"⟩ ∧
      (join ⟨"/srv/ci/jobs/web/shop/work"⟩ (normalize ⟨"tests/../../../lib/page.ts"⟩)).normalize ≠
        (join ⟨"/srv/ci/jobs/web/shop/work"⟩ ⟨"tests/../../../lib/page.ts"⟩).normalize ∧
      ∃ c ∈ Script.modulePaths ⟨"tests"⟩ "../../../lib/page", ⟨"lib/page.ts"⟩ = c.normalize := by
  have found : Script.module? strayModule ⟨"tests"⟩ "../../../lib/page" = some ⟨"lib/page.ts"⟩ := by
    decide +kernel
  have plain : Plain ⟨"/srv/ci/jobs/web/shop/work"⟩ := ⟨by decide, by decide +kernel⟩
  obtain ⟨places, modules⟩ := normalize_keeps_place plain
  obtain ⟨c, mem, -, same, -⟩ := modules strayModule ⟨"tests"⟩ _ "../../../lib/page" (by decide)
    (by decide +kernel) found
  have place := (places ⟨"tests/../../../lib/page.ts"⟩ (by decide) (by decide +kernel)).2
  refine ⟨found, plain, fun kept => ?_, c, mem, same⟩
  exact absurd (place.mp kept) (by decide +kernel)

end Path

end TestRepair
