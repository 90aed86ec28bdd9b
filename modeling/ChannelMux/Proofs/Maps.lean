import ChannelMux.Registry
import Mathlib.Data.Finmap

/-!
# Maps: a registry is a finite map from streams to slots

However a registry stores its entries, its user sees a finite map.  `Registry.toFinmap` is that
map, `StreamMap.serve` says what each request does to a map and answers, and the two are brought
together for one request (`serve_toFinmap`) and then for any sequence of them (`serving_toFinmap`).

What the map does not show is when a registry became a table.  `isPromoted_serve` says it for one
request: a stream was inserted beside another.
-/

namespace ChannelMux

/-! ## Tables as finite maps -/

namespace Table

variable {α : Type}

/-- The entries of a table, without their order. -/
def toAList (t : Table α) : AList fun _ : Nat => α where
  entries := t.entries.map fun e => ⟨e.1, e.2⟩
  nodupKeys := by
    rw [List.NodupKeys, List.keys, List.map_map]
    exact List.pairwise_map.mpr (t.ascending.imp fun h => Nat.ne_of_lt h)

def toFinmap (t : Table α) : Finmap fun _ : Nat => α := t.toAList.toFinmap

theorem dlookup_entries (es : List (Nat × α)) (k : Nat) :
    (es.map fun e => (⟨e.1, e.2⟩ : Sigma fun _ : Nat => α)).dlookup k = valueOf? k es := by
  induction es with
  | nil => rfl
  | cons e es ih =>
    rw [List.map_cons, valueOf?]
    split
    next h =>
      subst h
      exact @List.dlookup_cons_eq Nat (fun _ => α) _ _ e.1 e.2
    next h =>
      rw [← ih]
      exact List.dlookup_cons_ne _ _ h

@[simp] theorem lookup_toFinmap (t : Table α) (k : Nat) : t.toFinmap.lookup k = t.get? k := by
  rw [toFinmap, Finmap.lookup_toFinmap]
  exact dlookup_entries t.entries k

@[simp] theorem card_keys_toFinmap (t : Table α) : t.toFinmap.keys.card = t.size := by
  have h : t.toFinmap.keys.val = (t.toAList.keys : Multiset Nat) := Finmap.keys_val t.toAList
  rw [Finset.card, h, Multiset.coe_card, AList.keys, List.keys, List.length_map]
  exact List.length_map _

end Table

/-! ## The map that a registry stands for -/

abbrev StreamMap (V : Type) := Finmap fun _ : StreamId => Slot V

namespace StreamMap

variable {V : Type}

/-- The live channels, with their streams. -/
def actives (m : StreamMap V) : Multiset (StreamId × V) :=
  m.entries.filterMap fun e => e.2.value?.map (e.1, ·)

/-- What a request does to a map, and its answer. -/
def serve (m : StreamMap V) : Registry.Request V → Registry.Answer V × StreamMap V
  | .insert s v => (.slot (m.lookup s), Finmap.insert s (.active v) m)
  | .get s => (.slot (m.lookup s), m)
  | .active s =>
    (.value (match m.lookup s with | some (.active v) => some v | _ => none), m)
  | .markClosed s => if s ∈ m then (.acted true, Finmap.insert s .closed m) else (.acted false, m)
  | .remove s => (.slot (m.lookup s), m.erase s)
  | .removeClosed s =>
    match m.lookup s with
    | some .closed => (.acted true, m.erase s)
    | _ => (.acted false, m)
  | .clear => (.unit, ∅)

theorem lookup_insert (m : StreamMap V) (s : StreamId) (slot : Slot V) (t : StreamId) :
    (Finmap.insert s slot m).lookup t = if t = s then some slot else m.lookup t := by
  split
  next h => exact h ▸ Finmap.lookup_insert m
  next h => exact Finmap.lookup_insert_of_ne m h

theorem lookup_erase (m : StreamMap V) (s t : StreamId) :
    (m.erase s).lookup t = if t = s then none else m.lookup t := by
  split
  next h => exact h ▸ Finmap.lookup_erase t m
  next h => exact Finmap.lookup_erase_ne h

end StreamMap

namespace Registry

variable {V : Type}

def toFinmap (r : Registry V) : StreamMap V := r.toTable.toFinmap

@[simp] theorem lookup_toFinmap (r : Registry V) (s : StreamId) :
    r.toFinmap.lookup s = r.get? s := by
  rw [toFinmap, Table.lookup_toFinmap, get?_toTable]

theorem mem_toFinmap (r : Registry V) (s : StreamId) : s ∈ r.toFinmap ↔ (r.get? s).isSome := by
  rw [← Finmap.lookup_isSome, lookup_toFinmap]

/-- A registry stands for any map with its look-ups. -/
theorem toFinmap_eq {r : Registry V} {m : StreamMap V} (h : ∀ s, r.get? s = m.lookup s) :
    r.toFinmap = m := by
  apply Finmap.ext_lookup
  intro s
  rw [lookup_toFinmap, h]

@[simp] theorem toFinmap_empty : (empty : Registry V).toFinmap = ∅ := by
  apply toFinmap_eq
  intro s
  rw [get?_empty, Finmap.lookup_empty]

theorem toFinmap_put (r : Registry V) (s : StreamId) (slot : Slot V) :
    (r.put s slot).toFinmap = Finmap.insert s slot r.toFinmap := by
  apply toFinmap_eq
  intro t
  rw [get?_put, StreamMap.lookup_insert, lookup_toFinmap]

theorem toFinmap_remove (r : Registry V) (s : StreamId) :
    (r.remove s).toFinmap = r.toFinmap.erase s := by
  apply toFinmap_eq
  intro t
  rw [get?_remove, StreamMap.lookup_erase, lookup_toFinmap]

theorem toFinmap_clear (r : Registry V) : r.clear.toFinmap = ∅ := by
  apply toFinmap_eq
  intro s
  rw [get?_clear, Finmap.lookup_empty]

/-! ### What is counted and listed -/

theorem size_toTable (r : Registry V) : r.toTable.size = r.size := by
  cases r <;> rfl

theorem size_eq_card (r : Registry V) : r.size = r.toFinmap.keys.card := by
  rw [toFinmap, Table.card_keys_toFinmap, size_toTable]

theorem isEmpty_iff (r : Registry V) : r.isEmpty = true ↔ r.toFinmap = ∅ := by
  rw [isEmpty, decide_eq_true_iff, size_eq_card, Finset.card_eq_zero]
  constructor
  · intro h
    apply Finmap.ext_lookup
    intro s
    rw [Finmap.lookup_empty, Finmap.lookup_eq_none, ← Finmap.mem_keys, h]
    exact Finset.notMem_empty s
  · rintro h
    rw [h, Finmap.keys_empty]

theorem coe_activeEntries (r : Registry V) :
    (r.activeEntries : Multiset (StreamId × V)) = r.toFinmap.actives := by
  rw [StreamMap.actives, toFinmap, Table.toFinmap, AList.toFinmap_entries, Multiset.filterMap_coe,
    Table.toAList, List.filterMap_map]
  rfl

/-! ## Requests -/

/-- One request: the answer and the map left behind are those of the map. -/
theorem serve_toFinmap (r : Registry V) (q : Request V) :
    r.toFinmap.serve q = ((r.serve q).1, (r.serve q).2.toFinmap) := by
  cases q with
  | insert s v => simp only [StreamMap.serve, serve, insert, toFinmap_put, lookup_toFinmap]
  | get s => simp only [StreamMap.serve, serve, lookup_toFinmap]
  | active s =>
    simp only [StreamMap.serve, serve, active?, lookup_toFinmap]
    rcases r.get? s with _ | _ | _ <;> rfl
  | markClosed s =>
    simp only [StreamMap.serve, serve, markClosed, mem_toFinmap]
    cases r.get? s with
    | none => rfl
    | some slot => simp only [Option.isSome_some, if_true, toFinmap_put]
  | remove s => simp only [StreamMap.serve, serve, toFinmap_remove, lookup_toFinmap]
  | removeClosed s =>
    simp only [StreamMap.serve, serve, removeClosed, lookup_toFinmap]
    rcases r.get? s with _ | _ | _
    · rfl
    · rfl
    · simp only [toFinmap_remove]
  | clear => simp only [StreamMap.serve, serve, toFinmap_clear]

/-- The answers to requests served in turn, and what is left behind. -/
def serving {σ : Type} (serve : σ → Request V → Answer V × σ) (x : σ) :
    List (Request V) → List (Answer V) × σ
  | [] => ([], x)
  | q :: qs =>
    let rest := serving serve (serve x q).2 qs
    ((serve x q).1 :: rest.1, rest.2)

theorem serving_append {σ : Type} (serve : σ → Request V → Answer V × σ) (x : σ)
    (ps qs : List (Request V)) :
    (serving serve x (ps ++ qs)).2 = (serving serve (serving serve x ps).2 qs).2 := by
  induction ps generalizing x with
  | nil => rfl
  | cons p ps ih => exact ih _

theorem serving_toFinmap (r : Registry V) (qs : List (Request V)) :
    serving StreamMap.serve r.toFinmap qs =
      ((serving serve r qs).1, (serving serve r qs).2.toFinmap) := by
  induction qs generalizing r with
  | nil => rfl
  | cons q qs ih => simp only [serving, serve_toFinmap, ih]

/-! ## Promotion -/

theorem isPromoted_put (r : Registry V) (s : StreamId) (slot : Slot V) :
    (r.put s slot).isPromoted = true ↔
      r.isPromoted = true ∨ ∃ t, (r.get? t).isSome ∧ t ≠ s := by
  cases r with
  | empty => simp [put, isPromoted]
  | one t old =>
    rw [put]
    split
    next h =>
      subst h
      simp [isPromoted, get?]
    next h => simpa [isPromoted, get?] using Ne.symm h
  | many t => simp [put, isPromoted]

@[simp] theorem isPromoted_remove (r : Registry V) (s : StreamId) :
    (r.remove s).isPromoted = r.isPromoted := by
  cases r with
  | empty => rfl
  | one t slot =>
    rw [remove]
    split <;> rfl
  | many t => rfl

/-- Marking changes an entry in place: there is none beside a single one. -/
@[simp] theorem isPromoted_markClosed (r : Registry V) (s : StreamId) :
    (r.markClosed s).isPromoted = r.isPromoted := by
  cases r with
  | empty => rfl
  | one t slot =>
    rw [markClosed]
    split
    next h =>
      have hs : s = t := by
        by_contra hne
        rw [get?, if_neg hne] at h
        cases h
      rw [put, if_pos hs]
      rfl
    next => rfl
  | many t =>
    rw [markClosed]
    split <;> rfl

/-- A stream is inserted beside another. -/
def Crowds (m : StreamMap V) (q : Request V) : Prop :=
  ∃ s v, q = .insert s v ∧ ∃ t ∈ m, t ≠ s

theorem isPromoted_serve (r : Registry V) (q : Request V) :
    (r.serve q).2.isPromoted = true ↔ r.isPromoted = true ∨ Crowds r.toFinmap q := by
  cases q with
  | insert s v =>
    rw [serve, insert, isPromoted_put]
    simp only [Crowds, mem_toFinmap, Request.insert.injEq]
    constructor
    · rintro (h | h)
      · exact .inl h
      · exact .inr ⟨s, v, ⟨rfl, rfl⟩, h⟩
    · rintro (h | ⟨_, _, ⟨rfl, rfl⟩, h⟩)
      · exact .inl h
      · exact .inr h
  | removeClosed s =>
    rw [serve, removeClosed]
    split <;> simp [Crowds]
  | clear => cases r <;> simp [serve, clear, isPromoted, Crowds]
  | get s => simp [serve, Crowds]
  | active s => simp [serve, Crowds]
  | markClosed s => simp [serve, Crowds]
  | remove s => simp [serve, Crowds]

/-- A table stays a table. -/
theorem isPromoted_serving {r : Registry V} (h : r.isPromoted = true) (qs : List (Request V)) :
    (serving serve r qs).2.isPromoted = true := by
  induction qs generalizing r with
  | nil => exact h
  | cons q qs ih => exact ih ((isPromoted_serve r q).mpr (.inl h))

theorem isPromoted_serving_iff (r : Registry V) (qs : List (Request V)) :
    (serving serve r qs).2.isPromoted = true ↔
      r.isPromoted = true ∨
        ∃ ps q rs, qs = ps ++ q :: rs ∧ Crowds (serving StreamMap.serve r.toFinmap ps).2 q := by
  induction qs generalizing r with
  | nil => simp [serving]
  | cons q qs ih =>
    have hstep : (r.toFinmap.serve q).2 = (r.serve q).2.toFinmap := by rw [serve_toFinmap]
    rw [serving, ih, isPromoted_serve, or_assoc]
    refine or_congr_right ⟨?_, ?_⟩
    · rintro (h | ⟨ps, q', rs, rfl, h⟩)
      · exact ⟨[], q, qs, rfl, h⟩
      · refine ⟨q :: ps, q', rs, rfl, ?_⟩
        rwa [serving, hstep]
    · rintro ⟨ps, q', rs, hqs, h⟩
      cases ps with
      | nil =>
        cases hqs
        exact .inl h
      | cons p ps =>
        cases hqs
        rw [serving, hstep] at h
        exact .inr ⟨ps, q', rs, rfl, h⟩

/-- Over any requests a registry answers as a finite map from streams to slots would, and counts
and lists what that map holds.  It has become a table exactly if some stream was inserted while
another one was there, and is one from then on. -/
theorem registry_is_finite_map (qs : List (Request V)) :
    (serving serve empty qs).1 = (serving StreamMap.serve (∅ : StreamMap V) qs).1 ∧
      (∀ s, (serving serve empty qs).2.get? s =
        (serving StreamMap.serve (∅ : StreamMap V) qs).2.lookup s) ∧
      (serving serve empty qs).2.size =
        (serving StreamMap.serve (∅ : StreamMap V) qs).2.keys.card ∧
      ((serving serve empty qs).2.isEmpty = true ↔
        (serving StreamMap.serve (∅ : StreamMap V) qs).2 = ∅) ∧
      ((serving serve empty qs).2.activeEntries : Multiset (StreamId × V)) =
        (serving StreamMap.serve (∅ : StreamMap V) qs).2.actives ∧
      ((serving serve empty qs).2.isPromoted = true ↔
        ∃ ps s v rs, qs = ps ++ .insert s v :: rs ∧
          ∃ t ∈ (serving StreamMap.serve (∅ : StreamMap V) ps).2, t ≠ s) ∧
      ((serving serve empty qs).2.isPromoted = true →
        ∀ rs, (serving serve empty (qs ++ rs)).2.isPromoted = true) := by
  have hmap := serving_toFinmap (empty : Registry V) qs
  rw [toFinmap_empty] at hmap
  rw [hmap]
  refine ⟨rfl, fun s => (lookup_toFinmap _ s).symm, size_eq_card _, isEmpty_iff _,
    coe_activeEntries _, ?_, fun h rs => ?_⟩
  · rw [isPromoted_serving_iff, toFinmap_empty]
    constructor
    · rintro (h | ⟨ps, _, rs, hqs, s, v, rfl, h⟩)
      · cases h
      · exact ⟨ps, s, v, rs, hqs, h⟩
    · rintro ⟨ps, s, v, rs, hqs, h⟩
      exact .inr ⟨ps, .insert s v, rs, hqs, s, v, rfl, h⟩
  · rw [serving_append]
    exact isPromoted_serving h rs

end Registry

end ChannelMux
