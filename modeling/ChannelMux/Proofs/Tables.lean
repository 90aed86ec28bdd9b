import ChannelMux.Table
import Mathlib.Algebra.GroupWithZero.Nat

/-!
# Tables: one entry at a time, and sums over all entries

A table changed at a key it holds is the table with the new value inserted there
(`modify_eq_insert`), so insertion is the only way in which an entry comes about.  `total` adds up
a measure of the values; an insertion replaces one summand (`total_insert`).
-/

namespace ChannelMux.Table

variable {α : Type}

/-! ## Entries -/

theorem modify_eq_insert {t : Table α} {k : Nat} {a : α} (h : t.get? k = some a) (f : α → α) :
    t.modify k f = t.insert k (f a) := by
  apply ext_get?
  intro i
  rw [get?_modify, get?_insert]
  split
  next hi => rw [hi, h]; rfl
  next => rfl

theorem modify_of_none {t : Table α} {k : Nat} (h : t.get? k = none) (f : α → α) :
    t.modify k f = t := by
  apply ext_get?
  intro i
  rw [get?_modify]
  split
  next hi => rw [hi, h]; rfl
  next => rfl

@[simp] theorem get?_insert_self (t : Table α) (k : Nat) (a : α) :
    (t.insert k a).get? k = some a := by
  rw [get?_insert, if_pos rfl]

theorem get?_insert_of_ne {i k : Nat} (h : i ≠ k) (t : Table α) (a : α) :
    (t.insert k a).get? i = t.get? i := by
  rw [get?_insert, if_neg h]

/-- What a table holds after an insertion is new or was there before. -/
theorem get?_insert_cases {t : Table α} {i k : Nat} {a b : α}
    (h : (t.insert k a).get? i = some b) : i = k ∧ b = a ∨ t.get? i = some b := by
  rw [get?_insert] at h
  split at h
  next hi => exact .inl ⟨hi, (Option.some.inj h).symm⟩
  next => exact .inr h

theorem get?_of_erase {t : Table α} {i k : Nat} {b : α} (h : (t.erase k).get? i = some b) :
    t.get? i = some b := by
  rw [get?_erase] at h
  split at h
  · cases h
  · exact h

theorem ne_of_get?_erase {t : Table α} {i k : Nat} {b : α} (h : (t.erase k).get? i = some b) :
    i ≠ k := by
  rintro rfl
  rw [get?_erase, if_pos rfl] at h
  cases h

theorem contains_insert_of_get? {t : Table α} {k : Nat} {a : α} (h : t.get? k = some a) (b : α)
    (i : Nat) : (t.insert k b).contains i = t.contains i := by
  rw [contains, contains, get?_insert]
  split
  next hi => rw [hi, h]; rfl
  next => rfl

theorem erase_insert {t : Table α} {k : Nat} (h : t.get? k = none) (a : α) :
    (t.insert k a).erase k = t := by
  apply ext_get?
  intro i
  rw [get?_erase]
  split
  next hi => rw [hi, h]
  next hi => rw [get?_insert, if_neg hi]

theorem erase_of_none {t : Table α} {k : Nat} (h : t.get? k = none) : t.erase k = t := by
  apply ext_get?
  intro i
  rw [get?_erase]
  split
  next hi => rw [hi, h]
  next => rfl

theorem insert_insert (t : Table α) (k : Nat) (a b : α) :
    (t.insert k a).insert k b = t.insert k b := by
  apply ext_get?
  intro i
  simp only [get?_insert]
  split <;> rfl

theorem insert_self {t : Table α} {k : Nat} {a : α} (h : t.get? k = some a) : t.insert k a = t := by
  apply ext_get?
  intro i
  rw [get?_insert]
  split
  next hi => rw [hi, h]
  next => rfl

theorem insert_erase {t : Table α} {k : Nat} {a : α} (h : t.get? k = some a) :
    (t.erase k).insert k a = t := by
  apply ext_get?
  intro i
  rw [get?_insert, get?_erase]
  split
  next hi => rw [hi, h]
  next => rfl

@[simp] theorem get?_keep (t : Table α) (p : α → Bool) (k : Nat) :
    (t.keep p).get? k = (t.get? k).filter p := by
  ext a
  rw [← mem_entries_iff, Option.filter_eq_some_iff, ← mem_entries_iff]
  exact List.mem_filter

theorem keep_eq_self {t : Table α} {p : α → Bool} (h : ∀ k a, t.get? k = some a → p a = true) :
    t.keep p = t := by
  apply ext_get?
  intro k
  rw [get?_keep]
  cases ha : t.get? k with
  | none => rfl
  | some a => exact Option.filter_some_pos (h k a ha)

/-! ## Tables alike -/

/-- Two tables have the same keys, with related values. -/
def Matches (R : α → α → Prop) (t u : Table α) : Prop :=
  ∀ k, Option.Rel R (t.get? k) (u.get? k)

namespace Matches

variable {R : α → α → Prop} {t u v : Table α} {k : Nat} {a b : α}

theorem of_get?_eq (hR : ∀ a, R a a) (h : ∀ k, u.get? k = t.get? k) : Matches R t u := by
  intro k
  rw [h k]
  cases t.get? k with
  | none => exact .none
  | some a => exact .some (hR a)

theorem refl (hR : ∀ a, R a a) (t : Table α) : Matches R t t := of_get?_eq hR fun _ => rfl

theorem trans (hR : ∀ a b c, R a b → R b c → R a c) (h : Matches R t u) (h' : Matches R u v) :
    Matches R t v := by
  intro k
  have hu := h k
  have hv := h' k
  generalize t.get? k = x at hu ⊢
  generalize u.get? k = y at hu hv
  generalize v.get? k = z at hv ⊢
  cases hu with
  | none => exact hv
  | some hab => cases hv with | some hbc => exact .some (hR _ _ _ hab hbc)

theorem insert (hR : ∀ a, R a a) (h : t.get? k = some a) (hab : R a b) :
    Matches R t (t.insert k b) := by
  intro i
  rw [get?_insert]
  split
  next hi => rw [hi, h]; exact .some hab
  next => exact refl hR t i

/-- Two tables that differ in one value. -/
theorem replace (hR : ∀ a, R a a) (t : Table α) (k : Nat) (hab : R a b) :
    Matches R (t.insert k a) (t.insert k b) := by
  rw [← insert_insert t k a b]
  exact insert hR (by rw [get?_insert, if_pos rfl]) hab

theorem modify (hR : ∀ a, R a a) (t : Table α) (k : Nat) {f : α → α}
    (hf : ∀ a, t.get? k = some a → R a (f a)) : Matches R t (t.modify k f) := by
  cases h : t.get? k with
  | none => rw [modify_of_none h]; exact refl hR t
  | some a => rw [modify_eq_insert h]; exact insert hR h (hf a h)

theorem mapEntries (t : Table α) {f : Nat → α → α} (hf : ∀ k a, R a (f k a)) :
    Matches R t (t.mapEntries f) := by
  intro i
  rw [get?_mapEntries]
  cases t.get? i with
  | none => exact .none
  | some a => exact .some (hf i a)

theorem mono {S : α → α → Prop} (hRS : ∀ a b, R a b → S a b) (h : Matches R t u) :
    Matches S t u := by
  intro k
  have hk := h k
  generalize t.get? k = x at hk ⊢
  generalize u.get? k = y at hk ⊢
  cases hk with
  | none => exact .none
  | some hab => exact .some (hRS _ _ hab)

/-- What is in the second table comes from the first. -/
theorem back (h : Matches R t u) (hb : u.get? k = some b) : ∃ a, t.get? k = some a ∧ R a b := by
  have hk := h k
  rw [hb] at hk
  revert hk
  cases t.get? k with
  | none => exact fun hk => nomatch hk
  | some a => exact fun hk => ⟨a, rfl, by cases hk with | some hab => exact hab⟩

theorem forth (h : Matches R t u) (ha : t.get? k = some a) : ∃ b, u.get? k = some b ∧ R a b := by
  have hk := h k
  rw [ha] at hk
  revert hk
  cases u.get? k with
  | none => exact fun hk => nomatch hk
  | some b => exact fun hk => ⟨b, rfl, by cases hk with | some hab => exact hab⟩

end Matches

/-! ## Sums -/

def total (f : α → Nat) (t : Table α) : Nat := (t.entries.map fun e => f e.2).sum

/-- The summand of a key, which is zero where there is no entry. -/
def share (f : α → Nat) (t : Table α) (k : Nat) : Nat := ((t.get? k).map f).getD 0

theorem share_of_some {t : Table α} {k : Nat} {a : α} (f : α → Nat) (h : t.get? k = some a) :
    t.share f k = f a := by
  rw [share, h]; rfl

theorem share_of_none {t : Table α} {k : Nat} (f : α → Nat) (h : t.get? k = none) :
    t.share f k = 0 := by
  rw [share, h]; rfl

theorem share_insert (f : α → Nat) (t : Table α) (k : Nat) (a : α) (i : Nat) :
    (t.insert k a).share f i = if i = k then f a else t.share f i := by
  rw [share, share, get?_insert]
  split <;> rfl

theorem valueOf?_eq_none {k : Nat} {es : List (Nat × α)} (h : ∀ e ∈ es, k < e.1) :
    valueOf? k es = none := by
  induction es with
  | nil => rfl
  | cons d ds ih =>
    have hd : k ≠ d.1 := Nat.ne_of_lt (h d List.mem_cons_self)
    rw [valueOf?, if_neg hd]
    exact ih fun e he => h e (List.mem_cons_of_mem _ he)

theorem total_insert (f : α → Nat) (t : Table α) (k : Nat) (a : α) :
    (t.insert k a).total f + t.share f k = t.total f + f a := by
  obtain ⟨es, hes⟩ := t
  change ((insertEntry k a es).map fun e => f e.2).sum + ((valueOf? k es).map f).getD 0 =
    (es.map fun e => f e.2).sum + f a
  induction es with
  | nil => simp [insertEntry, valueOf?]
  | cons d ds ih =>
    have hd := List.pairwise_cons.mp hes
    rw [insertEntry]
    split
    next hlt =>
      have hnone : valueOf? k (d :: ds) = none := valueOf?_eq_none fun e he => by
        rcases List.mem_cons.mp he with rfl | he
        · exact hlt
        · exact Nat.lt_trans hlt (hd.1 e he)
      rw [hnone]
      simp only [List.map_cons, List.sum_cons, Option.map_none, Option.getD_none]
      omega
    next hge =>
      split
      next heq =>
        rw [valueOf?, if_pos heq]
        simp only [List.map_cons, List.sum_cons, Option.map_some, Option.getD_some]
        omega
      next hne =>
        have := ih hd.2
        rw [valueOf?, if_neg hne]
        simp only [List.map_cons, List.sum_cons]
        omega

theorem total_erase (f : α → Nat) (t : Table α) (k : Nat) :
    (t.erase k).total f + t.share f k = t.total f := by
  cases h : t.get? k with
  | none =>
    rw [erase_of_none h, share_of_none f h, Nat.add_zero]
  | some a =>
    have hins := total_insert f (t.erase k) k a
    rw [insert_erase h, share_of_none f (by rw [get?_erase, if_pos rfl])] at hins
    rw [share_of_some f h]
    omega

theorem total_keep (f : α → Nat) (t : Table α) (p : α → Bool) :
    (t.keep p).total f = t.total fun a => if p a then f a else 0 := by
  obtain ⟨es, hes⟩ := t
  change ((es.filter fun e => p e.2).map fun e => f e.2).sum = _
  rw [total]
  induction es with
  | nil => rfl
  | cons d ds ih =>
    have := ih (List.pairwise_cons.mp hes).2
    by_cases hp : p d.2
    · simp only [List.filter_cons, hp, if_true, List.map_cons, List.sum_cons, this]
    · simpa [List.filter_cons, hp] using this

/-- Tables alike have the same sums of a measure that related values agree on. -/
theorem Matches.total_eq {R : α → α → Prop} {f : α → Nat} {t u : Table α} (h : Matches R t u)
    (hf : ∀ a b, R a b → f b = f a) : u.total f = t.total f := by
  have hu : u = t.mapEntries fun k a => (u.get? k).getD a := ext_get? fun k => by
    rw [get?_mapEntries]
    cases ht : t.get? k with
    | none =>
      cases hk : u.get? k with
      | none => rfl
      | some b =>
        obtain ⟨a, ha, -⟩ := h.back hk
        exact nomatch ht.symm.trans ha
    | some a =>
      obtain ⟨b, hb, -⟩ := h.forth ht
      rw [hb]
      rfl
  rw [hu, total, total, Table.mapEntries, List.map_map]
  refine congrArg List.sum (List.map_congr_left ?_)
  intro e he
  obtain ⟨b, hb, hab⟩ := h.forth ((mem_entries_iff t e.1 e.2).mp he)
  simp only [Function.comp_apply, hb, Option.getD_some]
  exact hf _ _ hab

theorem total_eq_zero {f : α → Nat} {t : Table α} (h : ∀ k a, t.get? k = some a → f a = 0) :
    t.total f = 0 := by
  rw [total, List.sum_eq_zero_iff_forall_eq_nat]
  intro n hn
  obtain ⟨e, he, rfl⟩ := List.mem_map.mp hn
  exact h e.1 e.2 ((mem_entries_iff t e.1 e.2).mp he)

theorem le_total {f : α → Nat} {t : Table α} {k : Nat} {a : α} (h : t.get? k = some a) :
    f a ≤ t.total f := by
  have := total_erase f t k
  rw [share_of_some f h] at this
  omega

end ChannelMux.Table
