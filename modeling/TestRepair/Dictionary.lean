/-!
Finite maps as lists of entries with distinct keys. An entry keeps its place when its value is
replaced, so the order of entries is the order in which the keys first came. Every operation is
described by what `get?` sees afterwards.
-/

namespace TestRepair

/-- A finite map from `κ` to `α`. -/
structure Dictionary (κ α : Type) where
  entries : List (κ × α)
  distinct : (entries.map (·.1)).Nodup

namespace Dictionary

variable {κ α : Type}

/-- The keys, in the order in which they first came. -/
def keys (d : Dictionary κ α) : List κ := d.entries.map (·.1)

/-- The values, in the order of their keys. -/
def values (d : Dictionary κ α) : List α := d.entries.map (·.2)

def empty : Dictionary κ α := ⟨[], List.nodup_nil⟩

instance : Inhabited (Dictionary κ α) := ⟨empty⟩
instance : EmptyCollection (Dictionary κ α) := ⟨empty⟩

theorem ext {d e : Dictionary κ α} (h : d.entries = e.entries) : d = e := by
  cases d; cases e; cases h; rfl

instance [DecidableEq κ] [DecidableEq α] : DecidableEq (Dictionary κ α) := fun d e =>
  if h : d.entries = e.entries then isTrue (ext h)
  else isFalse fun hde => h (congrArg entries hde)

instance [Repr κ] [Repr α] : Repr (Dictionary κ α) := ⟨fun d n => reprPrec d.entries n⟩

variable [DecidableEq κ]

/-- The value of a key in a list of entries. -/
def find? (k : κ) : List (κ × α) → Option α
  | [] => none
  | e :: es => if e.1 = k then some e.2 else find? k es

/-- Sets the value of a key in a list of entries. -/
def put (k : κ) (v : α) : List (κ × α) → List (κ × α)
  | [] => [(k, v)]
  | e :: es => if e.1 = k then (k, v) :: es else e :: put k v es

def get? (d : Dictionary κ α) (k : κ) : Option α := find? k d.entries

def contains (d : Dictionary κ α) (k : κ) : Bool := (d.get? k).isSome

theorem keys_put (k : κ) (v : α) (es : List (κ × α)) :
    (put k v es).map (·.1) =
      if k ∈ es.map (·.1) then es.map (·.1) else es.map (·.1) ++ [k] := by
  induction es with
  | nil => simp [put]
  | cons e es ih =>
    by_cases h : e.1 = k
    · simp [put, h]
    · have h' : k ≠ e.1 := fun hk => h hk.symm
      simp only [put, h, if_false, List.map_cons, ih, List.mem_cons, h', false_or]
      split <;> simp

/-- Sets the value of a key; a new key comes last. -/
def insert (d : Dictionary κ α) (k : κ) (v : α) : Dictionary κ α where
  entries := put k v d.entries
  distinct := by
    rw [keys_put]
    split
    · exact d.distinct
    · rename_i h
      refine List.nodup_append.2 ⟨d.distinct, by simp, ?_⟩
      intro a ha b hb hab
      exact h (by simp_all)

def erase (d : Dictionary κ α) (k : κ) : Dictionary κ α where
  entries := d.entries.filter fun e => e.1 ≠ k
  distinct := by
    have h : ((d.entries.filter fun e => e.1 ≠ k).map (·.1)).Sublist (d.entries.map (·.1)) :=
      List.Sublist.map _ List.filter_sublist
    exact List.Nodup.sublist h d.distinct

/-- The map that holds the last value given for each key. -/
def ofList (es : List (κ × α)) : Dictionary κ α := es.foldl (fun d e => d.insert e.1 e.2) empty

theorem find?_put_self (k : κ) (v : α) (es : List (κ × α)) : find? k (put k v es) = some v := by
  induction es with
  | nil => simp [put, find?]
  | cons e es ih => by_cases h : e.1 = k <;> simp [put, find?, h, ih]

theorem find?_put_of_ne {k l : κ} (h : l ≠ k) (v : α) (es : List (κ × α)) :
    find? l (put k v es) = find? l es := by
  induction es with
  | nil => simp [put, find?, Ne.symm h]
  | cons e es ih =>
    by_cases he : e.1 = k
    · subst he; simp [put, find?, Ne.symm h]
    · simp [put, find?, he, ih]

@[simp] theorem get?_empty (k : κ) : (empty : Dictionary κ α).get? k = none := rfl

@[simp] theorem get?_insert_self (d : Dictionary κ α) (k : κ) (v : α) :
    (d.insert k v).get? k = some v :=
  find?_put_self k v d.entries

theorem get?_insert_of_ne (d : Dictionary κ α) {k l : κ} (h : l ≠ k) (v : α) :
    (d.insert k v).get? l = d.get? l :=
  find?_put_of_ne h v d.entries

theorem get?_insert (d : Dictionary κ α) (k l : κ) (v : α) :
    (d.insert k v).get? l = if l = k then some v else d.get? l := by
  by_cases h : l = k
  · subst h; simp
  · simp [h, get?_insert_of_ne d h v]

theorem find?_eq_none_iff {k : κ} {es : List (κ × α)} :
    find? k es = none ↔ k ∉ es.map (·.1) := by
  induction es with
  | nil => simp [find?]
  | cons e es ih =>
    by_cases h : e.1 = k
    · simp [find?, h]
    · have hk : k ≠ e.1 := fun hk => h hk.symm
      rw [find?, if_neg h, ih, List.map_cons, List.mem_cons, not_or]
      exact ⟨fun hes => ⟨hk, hes⟩, fun hes => hes.2⟩

theorem find?_filter_ne (k l : κ) (es : List (κ × α)) :
    find? l (es.filter fun e => e.1 ≠ k) = if l = k then none else find? l es := by
  induction es with
  | nil => simp [find?]
  | cons e es ih =>
    by_cases he : e.1 = k
    · subst he
      by_cases hl : l = e.1
      · subst hl; simp only [if_true] at ih ⊢; simpa using ih
      · simp only [hl, if_false] at ih ⊢
        simpa [find?, Ne.symm hl] using ih
    · by_cases hl : e.1 = l
      · subst hl; simp [find?, he]
      · by_cases hlk : l = k
        · subst hlk; simp only [if_true] at ih ⊢; simpa [find?, he] using ih
        · simp only [hlk, if_false] at ih ⊢; simpa [find?, he, hl] using ih

theorem get?_erase (d : Dictionary κ α) (k l : κ) :
    (d.erase k).get? l = if l = k then none else d.get? l :=
  find?_filter_ne k l d.entries

theorem contains_iff_mem_keys {d : Dictionary κ α} {k : κ} : d.contains k = true ↔ k ∈ d.keys := by
  unfold contains
  rw [← Option.not_isNone, Bool.not_eq_true', Option.isNone_eq_false_iff,
    Option.isSome_iff_ne_none]
  exact not_congr find?_eq_none_iff |>.trans Decidable.not_not

end Dictionary

end TestRepair
