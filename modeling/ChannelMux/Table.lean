/-! # Tables

A finite map from numbers whose entries stand in ascending order of their keys. The order belongs
to the type, so a table lists its entries the same way however it was filled, and two tables with
the same look-ups are equal (`Table.ext_get?`).
-/

namespace ChannelMux

/-- The keys of a list of entries ascend. -/
abbrev Ascending {α : Type} (es : List (Nat × α)) : Prop := es.Pairwise fun a b => a.1 < b.1

structure Table (α : Type) where
  entries : List (Nat × α)
  ascending : Ascending entries
deriving DecidableEq

namespace Table

variable {α β : Type}

instance [Repr α] : Repr (Table α) := ⟨fun t => reprPrec t.entries⟩

def empty : Table α := ⟨[], List.Pairwise.nil⟩

instance : Inhabited (Table α) := ⟨empty⟩

def size (t : Table α) : Nat := t.entries.length

def keys (t : Table α) : List Nat := t.entries.map Prod.fst

/-- The value of the first entry under a key. -/
def valueOf? (k : Nat) : List (Nat × α) → Option α
  | [] => none
  | e :: es => if k = e.1 then some e.2 else valueOf? k es

def get? (t : Table α) (k : Nat) : Option α := valueOf? k t.entries

def contains (t : Table α) (k : Nat) : Bool := (t.get? k).isSome

/-! ## Insertion -/

/-- Put an entry where its key belongs, in place of one with the same key. -/
def insertEntry (k : Nat) (a : α) : List (Nat × α) → List (Nat × α)
  | [] => [(k, a)]
  | e :: es =>
    if k < e.1 then (k, a) :: e :: es
    else if k = e.1 then (k, a) :: es
    else e :: insertEntry k a es

theorem key_of_mem_insertEntry {k : Nat} {a : α} {es : List (Nat × α)} {e : Nat × α}
    (h : e ∈ insertEntry k a es) : e = (k, a) ∨ e ∈ es := by
  induction es with
  | nil => exact .inl (List.mem_singleton.mp h)
  | cons d ds ih =>
    rw [insertEntry] at h
    split at h
    · rcases List.mem_cons.mp h with rfl | h
      · exact .inl rfl
      · exact .inr h
    · split at h
      · rcases List.mem_cons.mp h with rfl | h
        · exact .inl rfl
        · exact .inr (List.mem_cons_of_mem _ h)
      · rcases List.mem_cons.mp h with rfl | h
        · exact .inr List.mem_cons_self
        · exact (ih h).imp_right (List.mem_cons_of_mem _)

theorem ascending_insertEntry (k : Nat) (a : α) {es : List (Nat × α)} (h : Ascending es) :
    Ascending (insertEntry k a es) := by
  induction es with
  | nil => exact List.pairwise_singleton _ _
  | cons d ds ih =>
    have hd := List.pairwise_cons.mp h
    rw [insertEntry]
    split
    next hlt =>
      refine List.pairwise_cons.mpr ⟨fun e he => ?_, h⟩
      rcases List.mem_cons.mp he with rfl | he
      · exact hlt
      · exact Nat.lt_trans hlt (hd.1 e he)
    next hge =>
      split
      next heq => exact List.pairwise_cons.mpr ⟨fun e he => heq ▸ hd.1 e he, hd.2⟩
      next hne =>
        refine List.pairwise_cons.mpr ⟨fun e he => ?_, ih hd.2⟩
        rcases key_of_mem_insertEntry he with rfl | he
        · show d.1 < k
          omega
        · exact hd.1 e he

def insert (t : Table α) (k : Nat) (a : α) : Table α :=
  ⟨insertEntry k a t.entries, ascending_insertEntry k a t.ascending⟩

/-! ## Removal and change -/

def erase (t : Table α) (k : Nat) : Table α :=
  ⟨t.entries.filter fun e => e.1 ≠ k, t.ascending.filter _⟩

/-- Keep the entries whose values satisfy `p`. -/
def keep (t : Table α) (p : α → Bool) : Table α :=
  ⟨t.entries.filter fun e => p e.2, t.ascending.filter _⟩

/-- Change every value, with its key in view. -/
def mapEntries (f : Nat → α → β) (t : Table α) : Table β :=
  ⟨t.entries.map fun e => (e.1, f e.1 e.2), List.pairwise_map.mpr t.ascending⟩

/-- Change the value under a key, if there is one. -/
def modify (t : Table α) (k : Nat) (f : α → α) : Table α :=
  t.mapEntries fun i a => if i = k then f a else a

/-! ## Look-ups after each operation -/

@[simp] theorem get?_empty (k : Nat) : (empty : Table α).get? k = none := rfl

theorem valueOf?_insertEntry (k : Nat) (a : α) (es : List (Nat × α)) (i : Nat) :
    valueOf? i (insertEntry k a es) = if i = k then some a else valueOf? i es := by
  induction es with
  | nil => rfl
  | cons d ds ih =>
    simp only [insertEntry, valueOf?]
    split
    · rfl
    · split
      next heq =>
        subst heq
        simp only [valueOf?]
        split <;> rfl
      next hne =>
        simp only [valueOf?, ih]
        by_cases h : i = d.1
        · simp only [h, if_neg (Ne.symm hne), if_true]
        · simp only [h, if_false]

@[simp] theorem get?_insert (t : Table α) (k : Nat) (a : α) (i : Nat) :
    (t.insert k a).get? i = if i = k then some a else t.get? i :=
  valueOf?_insertEntry k a t.entries i

theorem valueOf?_filter_key (p : Nat → Bool) (es : List (Nat × α)) (i : Nat) :
    valueOf? i (es.filter fun e => p e.1) = if p i then valueOf? i es else none := by
  induction es with
  | nil => simp [valueOf?]
  | cons d ds ih =>
    by_cases h : i = d.1
    · subst h
      by_cases hp : p d.1 <;> simp_all [valueOf?]
    · by_cases hp : p d.1 <;> simp_all [valueOf?]

@[simp] theorem get?_erase (t : Table α) (k i : Nat) :
    (t.erase k).get? i = if i = k then none else t.get? i := by
  have h := valueOf?_filter_key (fun j => decide (j ≠ k)) t.entries i
  rw [get?, erase, h]
  by_cases hi : i = k <;> simp [hi, get?]

@[simp] theorem get?_mapEntries (f : Nat → α → β) (t : Table α) (i : Nat) :
    (t.mapEntries f).get? i = (t.get? i).map (f i) := by
  obtain ⟨es, _⟩ := t
  show valueOf? i (es.map fun e => (e.1, f e.1 e.2)) = (valueOf? i es).map (f i)
  induction es with
  | nil => rfl
  | cons d ds ih =>
    simp only [List.map_cons, valueOf?, ih (List.pairwise_cons.mp ‹_›).2]
    split
    next h => rw [h]; rfl
    next => rfl

@[simp] theorem get?_modify (t : Table α) (k : Nat) (f : α → α) (i : Nat) :
    (t.modify k f).get? i = if i = k then (t.get? i).map f else t.get? i := by
  rw [modify, get?_mapEntries]
  by_cases h : i = k
  · simp [h]
  · simp [h]

/-! ## Entries -/

theorem mem_entries_iff (t : Table α) (k : Nat) (a : α) :
    (k, a) ∈ t.entries ↔ t.get? k = some a := by
  obtain ⟨es, hes⟩ := t
  show (k, a) ∈ es ↔ valueOf? k es = some a
  induction es with
  | nil => simp [valueOf?]
  | cons d ds ih =>
    have hd := List.pairwise_cons.mp hes
    rw [List.mem_cons, valueOf?]
    split
    next h =>
      subst h
      constructor
      · rintro (h | h)
        · rw [← h]
        · exact absurd (hd.1 _ h) (Nat.lt_irrefl _)
      · intro h
        exact .inl (by rw [← Option.some.inj h])
    next h =>
      rw [← ih hd.2]
      exact ⟨fun e => e.resolve_left fun e => h (congrArg Prod.fst e), .inr⟩

/-- Tables with the same look-ups are equal. -/
theorem ext_get? {t u : Table α} (h : ∀ k, t.get? k = u.get? k) : t = u := by
  obtain ⟨es, hes⟩ := t
  obtain ⟨fs, hfs⟩ := u
  suffices es = fs by subst this; rfl
  have hmem : ∀ k a, (k, a) ∈ es ↔ (k, a) ∈ fs := fun k a => by
    rw [mem_entries_iff ⟨es, hes⟩, mem_entries_iff ⟨fs, hfs⟩, h k]
  clear h
  induction es generalizing fs with
  | nil =>
    cases fs with
    | nil => rfl
    | cons f fs => exact absurd ((hmem f.1 f.2).mpr List.mem_cons_self) List.not_mem_nil
  | cons e es ih =>
    cases fs with
    | nil => exact absurd ((hmem e.1 e.2).mp List.mem_cons_self) List.not_mem_nil
    | cons f fs =>
      have he := List.pairwise_cons.mp hes
      have hf := List.pairwise_cons.mp hfs
      have hef : e = f := by
        rcases List.mem_cons.mp ((hmem e.1 e.2).mp List.mem_cons_self) with h | h
        · exact h
        · rcases List.mem_cons.mp ((hmem f.1 f.2).mpr List.mem_cons_self) with h' | h'
          · exact h'.symm
          · exact absurd (Nat.lt_trans (hf.1 _ h) (he.1 _ h')) (Nat.lt_irrefl _)
      subst hef
      congr 1
      refine ih he.2 fs hf.2 fun k a => ?_
      constructor
      · intro h
        rcases List.mem_cons.mp ((hmem k a).mp (List.mem_cons_of_mem _ h)) with h' | h'
        · exact absurd (he.1 _ h) (h' ▸ Nat.lt_irrefl _)
        · exact h'
      · intro h
        rcases List.mem_cons.mp ((hmem k a).mpr (List.mem_cons_of_mem _ h)) with h' | h'
        · exact absurd (hf.1 _ h) (h' ▸ Nat.lt_irrefl _)
        · exact h'

end Table

end ChannelMux
