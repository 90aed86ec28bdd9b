import ChannelMux.Extension
import Mathlib.Data.List.Basic
import Mathlib.Data.List.DropRight

/-!
# Elements: extensions that are written and read again

A list is cut at every separator, and each piece is then trimmed.  So a list comes back element by
element if names and values hold no separator and the names are trimmed already
(`Extension.Legible`).  Of a value the blanks and the quotation marks around it are lost on the way
(`Extension.reread`); where there are none, the element comes back as it was written
(`Extension.Writable`).
-/

namespace ChannelMux

namespace Text

variable {sep : Char} {cs ds : List Char} {p : Char → Bool}

/-! ## Cutting -/

theorem pieces_of_notMem (h : sep ∉ cs) : pieces sep cs = (cs, []) := by
  induction cs with
  | nil => rfl
  | cons c cs ih =>
    obtain ⟨hne, hrest⟩ := List.ne_and_not_mem_of_not_mem_cons h
    rw [pieces, ih hrest, if_neg (Ne.symm hne)]

theorem split_of_notMem (h : sep ∉ cs) : split sep cs = [cs] := by
  rw [split, pieces_of_notMem h]

theorem pieces_append_cons (h : sep ∉ cs) (ds : List Char) :
    pieces sep (cs ++ sep :: ds) = (cs, split sep ds) := by
  induction cs with
  | nil =>
    rw [List.nil_append, pieces, if_pos rfl]
    rfl
  | cons c cs ih =>
    obtain ⟨hne, hrest⟩ := List.ne_and_not_mem_of_not_mem_cons h
    rw [List.cons_append, pieces, ih hrest, if_neg (Ne.symm hne)]

theorem split_append_cons (h : sep ∉ cs) (ds : List Char) :
    split sep (cs ++ sep :: ds) = cs :: split sep ds := by
  rw [split, pieces_append_cons h]

/-- Texts between separators come back with what else stood between them. -/
theorem split_intercalate (pad : List Char) (hpad : sep ∉ pad) (hcs : sep ∉ cs)
    {xs : List (List Char)} (hxs : ∀ x ∈ xs, sep ∉ x) :
    split sep ((sep :: pad).intercalate (cs :: xs)) = cs :: xs.map (pad ++ ·) := by
  induction xs generalizing cs with
  | nil => rw [List.intercalate_singleton, split_of_notMem hcs, List.map_nil]
  | cons x xs ih =>
    have hx : sep ∉ pad ++ x := by
      rw [List.mem_append]
      exact not_or_intro hpad (hxs x List.mem_cons_self)
    have hmoved : pad ++ (sep :: pad).intercalate (x :: xs) =
        (sep :: pad).intercalate ((pad ++ x) :: xs) := by
      cases xs with
      | nil => rw [List.intercalate_singleton, List.intercalate_singleton]
      | cons y ys =>
        rw [List.intercalate_cons_cons, List.intercalate_cons_cons]
        simp only [List.append_assoc]
    rw [List.intercalate_cons_cons, List.append_assoc, List.cons_append, split_append_cons hcs,
      hmoved, ih hx (fun y hy => hxs y (List.mem_cons_of_mem x hy)), List.map_cons]

theorem cut?_of_notMem (h : sep ∉ cs) : cut? sep cs = none := by
  induction cs with
  | nil => rfl
  | cons c cs ih =>
    obtain ⟨hne, hrest⟩ := List.ne_and_not_mem_of_not_mem_cons h
    rw [cut?, ih hrest, if_neg (Ne.symm hne), Option.map_none]

theorem cut?_append_cons (h : sep ∉ cs) (ds : List Char) :
    cut? sep (cs ++ sep :: ds) = some (cs, ds) := by
  induction cs with
  | nil => rw [List.nil_append, cut?, if_pos rfl]
  | cons c cs ih =>
    obtain ⟨hne, hrest⟩ := List.ne_and_not_mem_of_not_mem_cons h
    rw [List.cons_append, cut?, ih hrest, if_neg (Ne.symm hne), Option.map_some]

theorem cut?_eq_some {as bs : List Char} (h : cut? sep cs = some (as, bs)) :
    cs = as ++ sep :: bs ∧ sep ∉ as := by
  induction cs generalizing as with
  | nil => cases h
  | cons c cs ih =>
    rw [cut?] at h
    split at h
    next heq =>
      obtain ⟨rfl, rfl⟩ := Prod.mk.inj (Option.some.inj h)
      exact ⟨congrArg (· :: cs) heq, List.not_mem_nil⟩
    next hne =>
      obtain ⟨⟨before, after⟩, hcut, hpair⟩ := Option.map_eq_some_iff.mp h
      obtain ⟨rfl, rfl⟩ := Prod.mk.inj hpair
      obtain ⟨hcs, hfree⟩ := ih hcut
      exact ⟨congrArg (c :: ·) hcs, List.not_mem_cons_of_ne_of_not_mem (Ne.symm hne) hfree⟩

theorem notMem_of_cut?_eq_none (h : cut? sep cs = none) : sep ∉ cs := by
  intro hin
  obtain ⟨as, bs, rfl, hfree⟩ := List.eq_append_cons_of_mem hin
  rw [cut?_append_cons hfree] at h
  cases h

/-- A separator is in none of the pieces, and in the pieces there is nothing else than in the
text. -/
theorem mem_of_mem_split {x : List Char} {c : Char} (hx : x ∈ split sep cs) (hc : c ∈ x) :
    c ∈ cs ∧ c ≠ sep := by
  induction cs generalizing x with
  | nil =>
    obtain rfl := List.mem_singleton.mp hx
    cases hc
  | cons d cs ih =>
    have hrest {y : List Char} (hy : y ∈ split sep cs) (hcy : c ∈ y) : c ∈ d :: cs ∧ c ≠ sep :=
      (ih hy hcy).imp_left (List.mem_cons_of_mem d)
    rw [split, pieces] at hx
    split at hx
    next =>
      rcases List.mem_cons.mp hx with rfl | hx
      · cases hc
      · exact hrest hx hc
    next hne =>
      rcases List.mem_cons.mp hx with rfl | hx
      · rcases List.mem_cons.mp hc with rfl | hc
        · exact ⟨List.mem_cons_self, hne⟩
        · exact hrest List.mem_cons_self hc
      · exact hrest (List.mem_cons_of_mem _ hx) hc

theorem mem_intercalate {a : Char} {pad : List Char} {xs : List (List Char)}
    (h : a ∈ pad.intercalate xs) : a ∈ pad ∨ ∃ x ∈ xs, a ∈ x := by
  induction xs with
  | nil => cases h
  | cons x xs ih =>
    cases xs with
    | nil =>
      rw [List.intercalate_singleton] at h
      exact .inr ⟨x, List.mem_cons_self, h⟩
    | cons y ys =>
      rw [List.intercalate_cons_cons] at h
      rcases List.mem_append.mp h with h | h
      · rcases List.mem_append.mp h with h | h
        · exact .inr ⟨x, List.mem_cons_self, h⟩
        · exact .inl h
      · exact (ih h).imp_right fun ⟨z, hz, ha⟩ => ⟨z, List.mem_cons_of_mem x hz, ha⟩

/-! ## Trimming -/

/-- A text stays as it is if and only if neither of its ends is to be removed. -/
theorem strip_eq_self_iff : strip p cs = cs ↔
    (∀ c ∈ cs.head?, p c = false) ∧ ∀ c ∈ cs.getLast?, p c = false := by
  have hhead : cs.dropWhile p = cs ↔ ∀ c ∈ cs.head?, p c = false := by
    cases cs with
    | nil => simp
    | cons c cs => simp [List.dropWhile_eq_self_iff]
  have hlast : cs.rdropWhile p = cs ↔ ∀ c ∈ cs.getLast?, p c = false := by
    rw [List.rdropWhile_eq_self_iff]
    constructor
    · intro h c hc
      obtain ⟨hne, rfl⟩ := List.mem_getLast?_eq_getLast hc
      exact Bool.eq_false_iff.mpr (h hne)
    · intro h hne
      exact Bool.eq_false_iff.mp (h _ (List.getLast?_eq_some_getLast hne))
  rw [← hhead, ← hlast]
  change (cs.dropWhile p).rdropWhile p = cs ↔ _
  constructor
  · intro h
    -- what is removed from one end cannot come back at the other
    have hlength : cs.length ≤ (cs.dropWhile p).length :=
      calc cs.length = ((cs.dropWhile p).rdropWhile p).length := by rw [h]
        _ ≤ (cs.dropWhile p).length := (List.rdropWhile_prefix p _).length_le
    have hfront := (List.dropWhile_suffix p).eq_of_length_le hlength
    rw [hfront] at h
    exact ⟨hfront, h⟩
  · rintro ⟨hfront, hback⟩
    rw [hfront, hback]

theorem trim_cons {c : Char} (h : isBlank c = true) (cs : List Char) :
    trim (c :: cs) = trim cs := by
  rw [trim, strip, List.dropWhile_cons_of_pos h]
  rfl

theorem strip_sublist (p : Char → Bool) (cs : List Char) : (strip p cs).Sublist cs :=
  (List.rdropWhile_prefix p _).sublist.trans (List.dropWhile_sublist p)

theorem mem_of_mem_strip {c : Char} (h : c ∈ strip p cs) : c ∈ cs := (strip_sublist p cs).subset h

/-- What was removed at the front once is not removed again. -/
theorem strip_dropWhile (p : Char → Bool) (cs : List Char) :
    strip p (cs.dropWhile p) = strip p cs := by
  rw [strip, List.dropWhile_idempotent]
  rfl

theorem strip_concat {c : Char} (h : p c = true) (cs : List Char) :
    strip p (cs ++ [c]) = strip p cs := by
  change ((cs ++ [c]).dropWhile p).rdropWhile p = (cs.dropWhile p).rdropWhile p
  rw [List.dropWhile_append]
  split
  next hempty => simp [List.isEmpty_iff.mp hempty, h]
  next => rw [List.rdropWhile_concat_pos p _ c h]

/-- Nor is what was removed at the back. -/
theorem strip_rdropWhile (p : Char → Bool) (cs : List Char) :
    strip p (cs.rdropWhile p) = strip p cs := by
  induction cs using List.reverseRecOn with
  | nil => rfl
  | append_singleton cs c ih =>
    cases h : p c with
    | true => rw [List.rdropWhile_concat_pos p cs c h, ih, strip_concat h]
    | false => rw [List.rdropWhile_concat_neg p cs c (Bool.eq_false_iff.mp h)]

/-- What was trimmed stays as it is. -/
theorem strip_strip (p : Char → Bool) (cs : List Char) : strip p (strip p cs) = strip p cs := by
  change strip p ((cs.dropWhile p).rdropWhile p) = strip p cs
  rw [strip_rdropWhile, strip_dropWhile]

theorem rdropWhile_append_cons {c : Char} (h : p c = false) (cs ds : List Char) :
    (cs ++ c :: ds).rdropWhile p = cs ++ c :: ds.rdropWhile p := by
  induction ds using List.reverseRecOn with
  | nil => exact List.rdropWhile_concat_neg p cs c (Bool.eq_false_iff.mp h)
  | append_singleton ds d ih =>
    have hlast : cs ++ c :: (ds ++ [d]) = (cs ++ c :: ds) ++ [d] := by simp
    rw [hlast, List.rdropWhile_concat, List.rdropWhile_concat, ih]
    split
    · rfl
    · exact hlast.symm

theorem dropWhile_append_cons {c : Char} (h : p c = false) (cs ds : List Char) :
    (cs ++ c :: ds).dropWhile p = cs.dropWhile p ++ c :: ds := by
  rw [List.dropWhile_append]
  split
  next hempty => simp [List.isEmpty_iff.mp hempty, h]
  next => rfl

/-- A character that stays divides a text in two, each trimmed at its outer end. -/
theorem strip_append_cons {c : Char} (h : p c = false) (cs ds : List Char) :
    strip p (cs ++ c :: ds) = cs.dropWhile p ++ c :: ds.rdropWhile p := by
  change ((cs ++ c :: ds).dropWhile p).rdropWhile p = _
  rw [dropWhile_append_cons h, rdropWhile_append_cons h]

end Text

open Text

namespace Extension

/-- A value keeps its quotation marks if and only if none of them is at its ends. -/
theorem unquote_eq_self_iff {cs : List Char} : unquote cs = cs ↔
    (∀ c ∈ cs.head?, c ≠ '"') ∧ ∀ c ∈ cs.getLast?, c ≠ '"' := by
  rw [unquote, strip_eq_self_iff]
  simp only [decide_eq_false_iff_not, ne_eq]

/-! ## What is read of what was written -/

namespace Param

/-- The parameter is cut where it should be once it is written: no separator is in a name or a
value but those that are written between them. -/
structure Legible (p : Param) : Prop where
  name_free : ∀ c ∈ p.name.toList, c ≠ ',' ∧ c ≠ ';' ∧ c ≠ '='
  name_trimmed : trim p.name.toList = p.name.toList
  named : p.value = none → p.name ≠ ""
  value_free : ∀ v ∈ p.value, ∀ c ∈ v.toList, c ≠ ',' ∧ c ≠ ';'

/-- What is left of a value: the blanks around it are lost, and then the quotation marks. -/
def bare (v : String) : String := String.ofList (unquote (trim v.toList))

/-- What is left of a parameter once it was written and read. -/
def reread (p : Param) : Param := { p with value := p.value.map bare }

variable {p : Param}

/-- The characters of a parameter are those of its name and its value and the sign between them. -/
theorem mem_render {c : Char} (h : c ∈ p.render.toList) :
    c ∈ p.name.toList ∨ c = '=' ∨ ∃ v ∈ p.value, c ∈ v.toList := by
  rw [render] at h
  split at h
  next v hv =>
    rw [String.toList_append, String.toList_append, List.mem_append, List.mem_append] at h
    rcases h with (h | h) | h
    · exact .inl h
    · exact .inr (.inl (List.mem_singleton.mp h))
    · exact .inr (.inr ⟨v, hv, h⟩)
  · exact .inl h

/-- The sign between them is not blank, so a name and a value are trimmed at their outer ends. -/
theorem trim_render_value (name v : String) : trim (render ⟨name, some v⟩).toList =
    name.toList.dropWhile isBlank ++ '=' :: v.toList.rdropWhile isBlank := by
  have htext : (render ⟨name, some v⟩).toList = name.toList ++ '=' :: v.toList := by
    simp [render]
  rw [htext, trim, strip_append_cons (by decide)]

namespace Legible

theorem render_free (h : p.Legible) {c : Char} (hc : c ∈ p.render.toList) : c ≠ ',' ∧ c ≠ ';' := by
  rcases mem_render hc with hc | rfl | ⟨v, hv, hc⟩
  · exact ⟨(h.name_free c hc).1, (h.name_free c hc).2.1⟩
  · decide
  · exact h.value_free v hv c hc

theorem trim_render_ne_nil (h : p.Legible) : trim p.render.toList ≠ [] := by
  obtain ⟨name, value⟩ := p
  cases value with
  | none =>
    change trim name.toList ≠ []
    rw [h.name_trimmed]
    exact fun hnil => h.named rfl (String.toList_eq_nil_iff.mp hnil)
  | some v => simp [trim_render_value]

theorem ofChars_trim_render (h : p.Legible) : ofChars (trim p.render.toList) = p.reread := by
  have hsign : '=' ∉ p.name.toList := fun hin => (h.name_free _ hin).2.2 rfl
  obtain ⟨name, value⟩ := p
  cases value with
  | none =>
    change ofChars (trim name.toList) = ⟨name, none⟩
    rw [h.name_trimmed, ofChars, cut?_of_notMem hsign, String.ofList_toList]
  | some v =>
    have hcut : '=' ∉ name.toList.dropWhile isBlank :=
      fun hin => hsign ((List.dropWhile_sublist isBlank).subset hin)
    have hname : trim (name.toList.dropWhile isBlank) = name.toList :=
      (strip_dropWhile isBlank _).trans h.name_trimmed
    have hvalue : trim (v.toList.rdropWhile isBlank) = trim v.toList := strip_rdropWhile isBlank _
    rw [trim_render_value, ofChars, cut?_append_cons hcut]
    dsimp only
    rw [hname, hvalue, String.ofList_toList]
    rfl

end Legible

/-- The parameter is read as it was written. -/
structure Writable (p : Param) : Prop where
  name_free : ∀ c ∈ p.name.toList, c ≠ ',' ∧ c ≠ ';' ∧ c ≠ '='
  name_trimmed : trim p.name.toList = p.name.toList
  named : p.value = none → p.name ≠ ""
  value_free : ∀ v ∈ p.value, ∀ c ∈ v.toList, c ≠ ',' ∧ c ≠ ';'
  value_trimmed : ∀ v ∈ p.value, trim v.toList = v.toList
  value_unquoted : ∀ v ∈ p.value, unquote v.toList = v.toList

/-- Said of single characters: a name neither starts nor ends with a blank, and a value neither with
a blank nor with a quotation mark. -/
theorem writable_iff_ends : p.Writable ↔
    (∀ c ∈ p.name.toList, c ≠ ',' ∧ c ≠ ';' ∧ c ≠ '=') ∧
    ((∀ c ∈ p.name.toList.head?, isBlank c = false) ∧
      ∀ c ∈ p.name.toList.getLast?, isBlank c = false) ∧
    (p.value = none → p.name ≠ "") ∧
    ∀ v ∈ p.value, (∀ c ∈ v.toList, c ≠ ',' ∧ c ≠ ';') ∧
      (∀ c ∈ v.toList.head?, isBlank c = false ∧ c ≠ '"') ∧
      ∀ c ∈ v.toList.getLast?, isBlank c = false ∧ c ≠ '"' := by
  have htrim (cs : List Char) : trim cs = cs ↔
      (∀ c ∈ cs.head?, isBlank c = false) ∧ ∀ c ∈ cs.getLast?, isBlank c = false :=
    strip_eq_self_iff
  constructor
  · intro h
    refine ⟨h.name_free, (htrim _).mp h.name_trimmed, h.named, fun v hv => ⟨h.value_free v hv, ?_⟩⟩
    obtain ⟨hblank, hblank'⟩ := (htrim _).mp (h.value_trimmed v hv)
    obtain ⟨hquote, hquote'⟩ := unquote_eq_self_iff.mp (h.value_unquoted v hv)
    exact ⟨fun c hc => ⟨hblank c hc, hquote c hc⟩, fun c hc => ⟨hblank' c hc, hquote' c hc⟩⟩
  · rintro ⟨hfree, hname, hnamed, hvalue⟩
    exact
      { name_free := hfree
        name_trimmed := (htrim _).mpr hname
        named := hnamed
        value_free := fun v hv => (hvalue v hv).1
        value_trimmed := fun v hv => (htrim _).mpr
          ⟨fun c hc => ((hvalue v hv).2.1 c hc).1, fun c hc => ((hvalue v hv).2.2 c hc).1⟩
        value_unquoted := fun v hv => unquote_eq_self_iff.mpr
          ⟨fun c hc => ((hvalue v hv).2.1 c hc).2, fun c hc => ((hvalue v hv).2.2 c hc).2⟩ }

/-- Nothing is lost of a value if and only if it has neither blanks nor quotation marks around
it. -/
theorem bare_eq_self_iff {v : String} :
    bare v = v ↔ trim v.toList = v.toList ∧ unquote v.toList = v.toList := by
  rw [bare, ← String.toList_inj, String.toList_ofList]
  constructor
  · intro h
    -- both steps only remove, so neither removes anything
    have hlength : v.toList.length ≤ (trim v.toList).length :=
      calc v.toList.length = (unquote (trim v.toList)).length := by rw [h]
        _ ≤ (trim v.toList).length := (strip_sublist _ _).length_le
    have htrim : trim v.toList = v.toList := (strip_sublist isBlank _).eq_of_length_le hlength
    rw [htrim] at h
    exact ⟨htrim, h⟩
  · rintro ⟨htrim, hunquote⟩
    rw [htrim, hunquote]

theorem writable_iff : p.Writable ↔ p.Legible ∧ p.reread = p := by
  obtain ⟨name, value⟩ := p
  constructor
  · intro h
    refine ⟨⟨h.name_free, h.name_trimmed, h.named, h.value_free⟩, ?_⟩
    cases value with
    | none => rfl
    | some v =>
      have hbare := bare_eq_self_iff.mpr ⟨h.value_trimmed v rfl, h.value_unquoted v rfl⟩
      simp [reread, hbare]
  · rintro ⟨h, hsame⟩
    have hbare {v : String} (hv : v ∈ value) : bare v = v := by
      obtain rfl := hv
      simpa [reread] using hsame
    exact
      { name_free := h.name_free
        name_trimmed := h.name_trimmed
        named := h.named
        value_free := h.value_free
        value_trimmed := fun v hv => (bare_eq_self_iff.mp (hbare hv)).1
        value_unquoted := fun v hv => (bare_eq_self_iff.mp (hbare hv)).2 }

end Param

/-- The element is cut where it should be once it is written. -/
structure Legible (e : Extension) : Prop where
  name_free : ∀ c ∈ e.name.toList, c ≠ ',' ∧ c ≠ ';'
  name_trimmed : trim e.name.toList = e.name.toList
  named : e.name ≠ ""
  params : ∀ p ∈ e.params, p.Legible

/-- What is left of an element once it was written and read. -/
def reread (e : Extension) : Extension := { e with params := e.params.map Param.reread }

variable {e : Extension} {es : List Extension}

theorem toList_render (e : Extension) : e.render.toList =
    [';', ' '].intercalate (e.name.toList :: e.params.map fun p => p.render.toList) := by
  rw [render, String.toList_intercalate, List.map_cons, List.map_map]
  rfl

/-- The characters of an element are those of its name and its parameters and what is between. -/
theorem mem_render {c : Char} (h : c ∈ e.render.toList) :
    c = ';' ∨ c = ' ' ∨ c ∈ e.name.toList ∨ ∃ p ∈ e.params, c ∈ p.render.toList := by
  rw [toList_render] at h
  rcases mem_intercalate h with h | ⟨x, hx, hc⟩
  · rcases List.mem_cons.mp h with h | h
    · exact .inl h
    · exact .inr (.inl (List.mem_singleton.mp h))
  · rcases List.mem_cons.mp hx with rfl | hx
    · exact .inr (.inr (.inl hc))
    · obtain ⟨p, hp, rfl⟩ := List.mem_map.mp hx
      exact .inr (.inr (.inr ⟨p, hp, hc⟩))

/-- A blank before an element is passed over. -/
theorem ofChars?_cons_blank {c : Char} (h : isBlank c = true) (hc : c ≠ ';') (cs : List Char) :
    ofChars? (c :: cs) = ofChars? cs := by
  rw [ofChars?, ofChars?, pieces, if_neg hc]
  dsimp only
  rw [trim_cons h]

namespace Legible

theorem comma_notMem_render (h : e.Legible) : ',' ∉ e.render.toList := by
  intro hc
  rcases mem_render hc with hc | hc | hc | ⟨p, hp, hc⟩
  · cases hc
  · cases hc
  · exact (h.name_free _ hc).1 rfl
  · exact ((h.params p hp).render_free hc).1 rfl

theorem ofChars?_render (h : e.Legible) : ofChars? e.render.toList = some e.reread := by
  have hcut : split ';' e.render.toList =
      e.name.toList :: (e.params.map fun p => p.render.toList).map ([' '] ++ ·) := by
    rw [toList_render]
    refine split_intercalate [' '] (by decide) (fun hin => (h.name_free _ hin).2 rfl) ?_
    intro x hx
    obtain ⟨p, hp, rfl⟩ := List.mem_map.mp hx
    exact fun hin => ((h.params p hp).render_free hin).2 rfl
  obtain ⟨hfirst, hrest⟩ := List.cons.inj hcut
  have hread : ((e.params.map fun p => p.render.toList).map ([' '] ++ ·)).map trim =
      e.params.map fun p => trim p.render.toList := by
    rw [List.map_map, List.map_map]
    exact List.map_congr_left fun p _ => trim_cons (by decide) _
  have hkept : (e.params.map fun p => trim p.render.toList).filter (· ≠ []) =
      e.params.map fun p => trim p.render.toList := by
    rw [List.filter_eq_self]
    intro x hx
    obtain ⟨p, hp, rfl⟩ := List.mem_map.mp hx
    exact decide_eq_true (h.params p hp).trim_render_ne_nil
  have hback : (e.params.map fun p => trim p.render.toList).map Param.ofChars =
      e.params.map Param.reread := by
    rw [List.map_map]
    exact List.map_congr_left fun p hp => (h.params p hp).ofChars_trim_render
  have hname : e.name.toList ≠ [] := fun hnil => h.named (String.toList_eq_nil_iff.mp hnil)
  rw [ofChars?, hfirst, hrest, h.name_trimmed, if_neg hname, hread, hkept, hback,
    String.ofList_toList]
  rfl

end Legible

/-- A list comes back element by element. -/
theorem parseList_renderList (h : ∀ e ∈ es, e.Legible) :
    parseList (renderList es) = es.map reread := by
  cases es with
  | nil => rfl
  | cons e es =>
    have hcut : split ',' (renderList (e :: es)).toList =
        e.render.toList :: (es.map fun e => e.render.toList).map ([' '] ++ ·) := by
      rw [renderList, String.toList_intercalate, List.map_map, List.map_cons]
      refine split_intercalate [' '] (by decide) (h e List.mem_cons_self).comma_notMem_render ?_
      intro x hx
      obtain ⟨e', he', rfl⟩ := List.mem_map.mp hx
      exact (h e' (List.mem_cons_of_mem e he')).comma_notMem_render
    have hread : ((es.map fun e => e.render.toList).map ([' '] ++ ·)).filterMap ofChars? =
        es.map reread := by
      rw [List.map_map, List.filterMap_map, ← List.filterMap_eq_map]
      refine List.filterMap_congr fun e' he' => ?_
      exact (ofChars?_cons_blank (by decide) (by decide) _).trans
        (h e' (List.mem_cons_of_mem e he')).ofChars?_render
    rw [parseList, hcut, List.filterMap_cons, (h e List.mem_cons_self).ofChars?_render]
    dsimp only
    rw [hread, List.map_cons]

/-! ## What can be written -/

/-- The element is read as it was written. -/
structure Writable (e : Extension) : Prop where
  name_free : ∀ c ∈ e.name.toList, c ≠ ',' ∧ c ≠ ';'
  name_trimmed : trim e.name.toList = e.name.toList
  named : e.name ≠ ""
  params : ∀ p ∈ e.params, p.Writable

theorem writable_iff : e.Writable ↔ e.Legible ∧ e.reread = e := by
  have hparams : e.reread = e ↔ ∀ p ∈ e.params, p.reread = p := by
    have hmap : e.params.map Param.reread = e.params.map id ↔ ∀ p ∈ e.params, p.reread = id p :=
      List.map_inj_left
    obtain ⟨name, params⟩ := e
    simpa [reread] using hmap
  rw [hparams]
  constructor
  · intro h
    exact ⟨⟨h.name_free, h.name_trimmed, h.named,
        fun p hp => (Param.writable_iff.mp (h.params p hp)).1⟩,
      fun p hp => (Param.writable_iff.mp (h.params p hp)).2⟩
  · rintro ⟨h, hsame⟩
    exact ⟨h.name_free, h.name_trimmed, h.named,
      fun p hp => Param.writable_iff.mpr ⟨h.params p hp, hsame p hp⟩⟩

/-- A list of one element is read as it was written. -/
theorem Writable.parseList_render (h : e.Writable) : parseList e.render = [e] := by
  obtain ⟨hlegible, hsame⟩ := writable_iff.mp h
  have hlist : renderList [e] = e.render := by simp [renderList]
  rw [← hlist, parseList_renderList (by simpa using hlegible), List.map_singleton, hsame]

end Extension

end ChannelMux
