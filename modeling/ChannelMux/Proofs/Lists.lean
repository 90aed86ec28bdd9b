import ChannelMux.Proofs.Elements

/-!
# Lists: what is read of any text can be written

The pieces of a text hold no separators and are trimmed, so whatever is read is cut at the same
places once it is written (`Extension.legible_of_mem_parseList`).  Only a value that stood between
quotation marks may begin or end with blanks, and loses them on a second reading; a text without
quotation marks gives elements that come back as they are.
-/

namespace ChannelMux

open Text

namespace Extension

variable {cs : List Char} {s : String} {e : Extension} {es : List Extension} {p : Param}

/-! ## Single parameters -/

namespace Param

theorem legible_ofChars (hfree : ∀ c ∈ cs, c ≠ ',' ∧ c ≠ ';') (htrimmed : trim cs = cs)
    (hne : cs ≠ []) : (ofChars cs).Legible := by
  rw [ofChars]
  split
  next name value hcut =>
    obtain ⟨rfl, hname⟩ := cut?_eq_some hcut
    refine ⟨?_, ?_, ?_, ?_⟩
    · intro c hc
      rw [String.toList_ofList] at hc
      have hin : c ∈ name := mem_of_mem_strip hc
      obtain ⟨hcomma, hsemicolon⟩ := hfree c (List.mem_append_left _ hin)
      refine ⟨hcomma, hsemicolon, ?_⟩
      rintro rfl
      exact hname hin
    · rw [String.toList_ofList]
      exact strip_strip isBlank name
    · rintro ⟨⟩
    · rintro _ ⟨rfl⟩ c hc
      rw [String.toList_ofList] at hc
      have hin : c ∈ value := mem_of_mem_strip (mem_of_mem_strip hc)
      exact hfree c (List.mem_append_right _ (List.mem_cons_of_mem _ hin))
  next hcut =>
    have hsign := notMem_of_cut?_eq_none hcut
    refine ⟨?_, ?_, ?_, ?_⟩
    · intro c hc
      rw [String.toList_ofList] at hc
      refine ⟨(hfree c hc).1, (hfree c hc).2, ?_⟩
      rintro rfl
      exact hsign hc
    · rw [String.toList_ofList]
      exact htrimmed
    · intro _ hnil
      apply hne
      simpa using congrArg String.toList hnil
    · rintro _ ⟨⟩

theorem unquote_of_notMem (h : '"' ∉ cs) : unquote cs = cs := by
  have hother : ∀ c ∈ cs, c ≠ '"' := by
    rintro _ hc rfl
    exact h hc
  exact unquote_eq_self_iff.mpr ⟨fun c hc => hother c (List.mem_of_mem_head? hc),
    fun c hc => hother c (List.mem_of_getLast? hc)⟩

/-- Without quotation marks a value is trimmed as well. -/
theorem reread_ofChars (h : '"' ∉ cs) : (ofChars cs).reread = ofChars cs := by
  rw [ofChars]
  split
  next name value hcut =>
    obtain ⟨rfl, -⟩ := cut?_eq_some hcut
    have hplain : '"' ∉ trim value := by
      intro hin
      exact h (List.mem_append_right _ (List.mem_cons_of_mem _ (mem_of_mem_strip hin)))
    have hbare : bare (String.ofList (trim value)) = String.ofList (trim value) := by
      rw [bare_eq_self_iff, String.toList_ofList]
      exact ⟨strip_strip isBlank value, unquote_of_notMem hplain⟩
    rw [unquote_of_notMem hplain, reread, Option.map_some, hbare]
  next => rfl

end Param

/-! ## Elements -/

/-- Every parameter is a piece of the element, trimmed. -/
theorem mem_params_of_ofChars? (h : ofChars? cs = some e) (hp : p ∈ e.params) :
    ∃ x ∈ split ';' cs, trim x ≠ [] ∧ p = Param.ofChars (trim x) := by
  rw [ofChars?] at h
  split at h
  · cases h
  · cases h
    obtain ⟨_, hkept, rfl⟩ := List.mem_map.mp hp
    obtain ⟨hpiece, hne⟩ := List.mem_filter.mp hkept
    obtain ⟨x, hx, rfl⟩ := List.mem_map.mp hpiece
    exact ⟨x, List.mem_cons_of_mem _ hx, of_decide_eq_true hne, rfl⟩

theorem name_of_ofChars? (h : ofChars? cs = some e) :
    ∃ x ∈ split ';' cs, trim x ≠ [] ∧ e.name = String.ofList (trim x) := by
  rw [ofChars?] at h
  split at h
  · cases h
  next hne =>
    cases h
    exact ⟨(pieces ';' cs).1, List.mem_cons_self, hne, rfl⟩

theorem legible_of_ofChars? (hcomma : ',' ∉ cs) (h : ofChars? cs = some e) : e.Legible := by
  have hfree {x : List Char} (hx : x ∈ split ';' cs) : ∀ c ∈ trim x, c ≠ ',' ∧ c ≠ ';' := by
    intro c hc
    obtain ⟨hin, hsemicolon⟩ := mem_of_mem_split hx (mem_of_mem_strip hc)
    refine ⟨?_, hsemicolon⟩
    rintro rfl
    exact hcomma hin
  obtain ⟨x, hx, hne, hname⟩ := name_of_ofChars? h
  refine ⟨?_, ?_, ?_, ?_⟩
  · rw [hname, String.toList_ofList]
    exact hfree hx
  · rw [hname, String.toList_ofList]
    exact strip_strip isBlank x
  · rw [hname]
    intro hnil
    apply hne
    simpa using congrArg String.toList hnil
  · intro p hp
    obtain ⟨y, hy, hkept, rfl⟩ := mem_params_of_ofChars? h hp
    exact Param.legible_ofChars (hfree hy) (strip_strip isBlank y) hkept

/-- Whatever is read of a text is cut at the same places once it is written. -/
theorem legible_of_mem_parseList (h : e ∈ parseList s) : e.Legible := by
  obtain ⟨x, hx, he⟩ := List.mem_filterMap.mp h
  exact legible_of_ofChars? (fun hin => (mem_of_mem_split hx hin).2 rfl) he

theorem reread_of_mem_parseList (hs : '"' ∉ s.toList) (h : e ∈ parseList s) : e.reread = e := by
  obtain ⟨x, hx, he⟩ := List.mem_filterMap.mp h
  have hsame : e.params.map Param.reread = e.params.map id := by
    refine List.map_congr_left fun p hp => ?_
    obtain ⟨y, hy, -, rfl⟩ := mem_params_of_ofChars? he hp
    refine Param.reread_ofChars fun hin => hs ?_
    exact (mem_of_mem_split hx (mem_of_mem_split hy (mem_of_mem_strip hin)).1).1
  rw [reread, hsame, List.map_id]

theorem writable_of_mem_parseList (hs : '"' ∉ s.toList) (h : e ∈ parseList s) : e.Writable :=
  writable_iff.mpr ⟨legible_of_mem_parseList h, reread_of_mem_parseList hs h⟩

/-! ## Whole lists -/

theorem parseList_renderList_of_writable (h : ∀ e ∈ es, e.Writable) :
    parseList (renderList es) = es := by
  rw [parseList_renderList fun e he => (writable_iff.mp (h e he)).1,
    List.map_congr_left fun e he => (writable_iff.mp (h e he)).2, List.map_id']

/-- What comes back as it was written has been read, and lost nothing. -/
theorem writable_of_parseList_renderList (h : parseList (renderList es) = es) :
    ∀ e ∈ es, e.Writable := by
  have hlegible : ∀ e ∈ es, e.Legible := by
    intro e he
    rw [← h] at he
    exact legible_of_mem_parseList he
  rw [parseList_renderList hlegible] at h
  have hsame : es.map reread = es.map id := h.trans (List.map_id es).symm
  intro e he
  exact writable_iff.mpr ⟨hlegible e he, List.map_inj_left.mp hsame e he⟩

/-- A list is read as it was written if and only if every element of it can be written.  All that
is read of a text without quotation marks can be.  What is read of any other text comes back
element by element, and of its values no more is lost than blanks and quotation marks that stood
between quotation marks. -/
theorem list_is_read_back_iff_writable :
    (∀ es, parseList (renderList es) = es ↔ ∀ e ∈ es, e.Writable) ∧
    (∀ s : String, '"' ∉ s.toList →
      (∀ e ∈ parseList s, e.Writable) ∧ parseList (renderList (parseList s)) = parseList s) ∧
    ∀ s, parseList (renderList (parseList s)) = (parseList s).map reread := by
  refine ⟨fun es => ⟨writable_of_parseList_renderList, parseList_renderList_of_writable⟩, ?_, ?_⟩
  · intro s hs
    have hwritable : ∀ e ∈ parseList s, e.Writable := fun e => writable_of_mem_parseList hs
    exact ⟨hwritable, parseList_renderList_of_writable hwritable⟩
  · intro s
    exact parseList_renderList fun e => legible_of_mem_parseList

/-- A sign within a value, a blank within a name, a value without a name and empty pieces. -/
theorem unusual_list_is_read_back :
    let s := "x y;a = b=c d; =;;q , ,p"
    let es : List Extension :=
      [⟨"x y", [⟨"a", some "b=c d"⟩, ⟨"", some ""⟩, ⟨"q", none⟩]⟩, ⟨"p", []⟩]
    '"' ∉ s.toList ∧ parseList s = es ∧ (∀ e ∈ es, e.Writable) ∧
      parseList (renderList es) = es := by
  intro s es
  have hplain : '"' ∉ s.toList := by decide +kernel
  have hread : parseList s = es := by decide +kernel
  have hwritable := (list_is_read_back_iff_writable.2.1 s hplain).1
  rw [hread] at hwritable
  exact ⟨hplain, hread, hwritable, (list_is_read_back_iff_writable.1 es).mpr hwritable⟩

end Extension

end ChannelMux
