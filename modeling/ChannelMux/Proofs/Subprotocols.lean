import ChannelMux.Connection.Admission
import ChannelMux.Proofs.Elements
import ChannelMux.Proofs.Fields
import Mathlib.Tactic.IntervalCases

/-!
# Subprotocols: what a server selects, a client finds in its list

A server selects one of its own names, one that is the same as an entry of the list up to the case
of letters.  Case is the only difference, and letters are neither blank nor outside ASCII; so the
name can be written and read if the list could, it is trimmed as the entry is, and the client
recognises it (`selects_of_offered`).

The client finds more than that.  It looks through the blank pieces of its list as well, and so it
takes a blank subprotocol for one that it has asked for (`selects_iff`).
-/

namespace ChannelMux

namespace Text

variable {sep c : Char} {a b cs : List Char} {p : Char → Bool}

/-! ## Case -/

/-- Only the capitals of ASCII have another form. -/
theorem toLower_eq_or_capital (c : Char) : c.toLower = c ∨ 65 ≤ c.toNat ∧ c.toNat ≤ 90 := by
  delta Char.toLower
  split
  next h => exact .inr ⟨UInt32.le_iff_toNat_le.mp h.1, UInt32.le_iff_toNat_le.mp h.2⟩
  next => exact .inl rfl

/-- A property of characters that no letter of ASCII has, or every one, does not depend on case. -/
theorem congr_toLower (q : Char → Bool)
    (h : ∀ n, 65 ≤ n → n ≤ 90 → q (Char.ofNat n).toLower = q (Char.ofNat n)) (c : Char) :
    q c.toLower = q c := by
  rcases toLower_eq_or_capital c with heq | ⟨hlow, hhigh⟩
  · rw [heq]
  · have hc := h c.toNat hlow hhigh
    rwa [Char.ofNat_toNat] at hc

theorem isBlank_toLower (c : Char) : isBlank c.toLower = isBlank c := by
  refine congr_toLower isBlank (fun n hlow hhigh => ?_) c
  interval_cases n <;> decide

theorem isTextChar_toLower (c : Char) : isTextChar c.toLower = isTextChar c := by
  refine congr_toLower isTextChar (fun n hlow hhigh => ?_) c
  interval_cases n <;> decide

/-- Texts that are the same up to case agree in every property that does not depend on it. -/
theorem map_congr_of_toLower {q : Char → Bool} (hq : ∀ c, q c.toLower = q c)
    (h : a.map Char.toLower = b.map Char.toLower) : a.map q = b.map q := by
  have hmap (xs : List Char) : xs.map q = (xs.map Char.toLower).map q := by
    rw [List.map_map]
    exact List.map_congr_left fun c _ => (hq c).symm
  rw [hmap a, hmap b, h]

theorem all_congr_of_toLower {q : Char → Bool} (hq : ∀ c, q c.toLower = q c)
    (h : a.map Char.toLower = b.map Char.toLower) : a.all q = b.all q := by
  have hmap (xs : List Char) : xs.all q = (xs.map q).all id := by rw [List.all_map]; rfl
  rw [hmap a, hmap b, map_congr_of_toLower hq h]

/-- Case does not matter for trimming. -/
theorem trim_eq_self_of_toLower (h : a.map Char.toLower = b.map Char.toLower) (ha : trim a = a) :
    trim b = b := by
  have hblank := map_congr_of_toLower isBlank_toLower h
  have hends (xs : List Char) : ((∀ c ∈ xs.head?, isBlank c = false) ∧
      ∀ c ∈ xs.getLast?, isBlank c = false) ↔
      (∀ v ∈ (xs.map isBlank).head?, v = false) ∧ ∀ v ∈ (xs.map isBlank).getLast?, v = false := by
    simp
  have htrimmed := (hends a).mp (strip_eq_self_iff.mp ha)
  rw [hblank] at htrimmed
  exact strip_eq_self_iff.mpr ((hends b).mpr htrimmed)

end Text

open Text Connect

/-! ## Selection -/

namespace Connect

variable {list entry own : String}

theorem mem_offered : entry ∈ Request.offered list ↔
    ∃ x ∈ split ',' list.toList, trim x ≠ [] ∧ entry = String.ofList (trim x) := by
  simp only [Request.offered, List.mem_map, List.mem_filter, decide_eq_true_eq]
  constructor
  · rintro ⟨_, ⟨⟨x, hx, rfl⟩, hne⟩, rfl⟩
    exact ⟨x, hx, hne, rfl⟩
  · rintro ⟨x, hx, hne, rfl⟩
    exact ⟨_, ⟨⟨x, hx, rfl⟩, hne⟩, rfl⟩

/-- A name that is an entry of a list up to case can be written and read if the list can. -/
theorem isPlainText_of_offered (h : entry ∈ Request.offered list)
    (hsame : sameIgnoringCase entry own = true) (hplain : isPlainText list = true) :
    isPlainText own = true := by
  obtain ⟨x, hx, -, rfl⟩ := mem_offered.mp h
  have hsame := of_decide_eq_true hsame
  rw [String.toList_ofList] at hsame
  rw [isPlainText, ← all_congr_of_toLower isTextChar_toLower hsame]
  refine List.all_eq_true.mpr fun c hc => ?_
  exact List.all_eq_true.mp hplain c (mem_of_mem_split hx (mem_of_mem_strip hc)).1

/-- The client looks through its whole list, blank pieces included; the server passes those over. -/
theorem selects_iff : Response.selects own (some list) = true ↔
    (∃ entry ∈ Request.offered list,
      sameIgnoringCase entry (String.ofList (trim own.toList)) = true) ∨
    trim own.toList = [] ∧ ∃ x ∈ split ',' list.toList, trim x = [] := by
  rw [Response.selects, List.any_eq_true]
  constructor
  · rintro ⟨x, hx, hsame⟩
    by_cases hblank : trim x = []
    · refine .inr ⟨?_, x, hx, hblank⟩
      rw [hblank] at hsame
      have hlower := of_decide_eq_true hsame
      simpa using hlower.symm
    · exact .inl ⟨_, mem_offered.mpr ⟨x, hx, hblank, rfl⟩, hsame⟩
  · rintro (⟨_, hentry, hsame⟩ | ⟨hown, x, hx, hblank⟩)
    · obtain ⟨x, hx, -, rfl⟩ := mem_offered.mp hentry
      exact ⟨x, hx, hsame⟩
    · exact ⟨x, hx, by rw [hown, hblank, sameIgnoringCase_self]⟩

/-- The client finds in its list what is an entry of it up to case. -/
theorem selects_of_offered (h : entry ∈ Request.offered list)
    (hsame : sameIgnoringCase entry own = true) : Response.selects own (some list) = true := by
  refine selects_iff.mpr (.inl ⟨entry, h, ?_⟩)
  obtain ⟨x, -, -, rfl⟩ := mem_offered.mp h
  have hlower := of_decide_eq_true hsame
  rw [String.toList_ofList] at hlower
  rw [trim_eq_self_of_toLower hlower (strip_strip isBlank x), String.ofList_toList]
  exact hsame

/-- No entry is blank. -/
theorem not_same_of_blank (h : entry ∈ Request.offered list) (hown : trim own.toList = []) :
    sameIgnoringCase entry (String.ofList (trim own.toList)) = false := by
  obtain ⟨x, -, hne, rfl⟩ := mem_offered.mp h
  simpa [sameIgnoringCase, hown] using hne

variable {r : Request}

/-- The client accepts a subprotocol if and only if, blanks aside, it is an entry of the request's
list as the server reads that, up to case, or it is blank and so is a piece of the list.  In the
second case it is no entry. -/
theorem accepted_subprotocol_is_entry_or_blank (hr : r.subprotocols = some list) (h : HeaderBlock)
    (own : String) :
    ((∃ response, Response.ofHeaders h false (some list) = .ok response ∧
        response.protocol = some own) ↔
      h.pseudo.status = some 200 ∧ h.get? HeaderBlock.subprotocolName = some own ∧
      ((∃ entry ∈ r.subprotocolList,
          sameIgnoringCase entry (String.ofList (trim own.toList)) = true) ∨
        trim own.toList = [] ∧ ∃ x ∈ split ',' list.toList, trim x = [])) ∧
    (trim own.toList = [] → ∀ entry ∈ r.subprotocolList,
      sameIgnoringCase entry (String.ofList (trim own.toList)) = false) := by
  have hlist : r.subprotocolList = Request.offered list := by rw [Request.subprotocolList, hr]; rfl
  rw [hlist]
  refine ⟨?_, fun hown entry hentry => not_same_of_blank hentry hown⟩
  constructor
  · rintro ⟨response, hread, hprotocol⟩
    obtain ⟨hstatus, -, hselects, rfl⟩ := Response.ofHeaders_eq_ok_iff.mp hread
    exact ⟨hstatus, hprotocol, selects_iff.mp (hselects own hprotocol)⟩
  · rintro ⟨hstatus, hprotocol, hfound⟩
    refine ⟨_, Response.ofHeaders_eq_ok_iff.mpr ⟨hstatus, rfl, ?_, rfl⟩, hprotocol⟩
    rw [hprotocol]
    rintro _ ⟨rfl⟩
    exact selects_iff.mpr hfound

/-- Case and blanks do not matter. -/
theorem second_entry_is_accepted :
    let r := Request.forPath "example.com" "/chat" (some "mqtt, Chat")
    let h := (HeaderBlock.ofStatus 200).putText HeaderBlock.subprotocolName (some "CHAT ")
    r.subprotocols = some "mqtt, Chat" ∧
      (∃ response, Response.ofHeaders h false (some "mqtt, Chat") = .ok response ∧
        response.protocol = some "CHAT ") ∧
      ∃ entry ∈ r.subprotocolList,
        sameIgnoringCase entry (String.ofList (trim "CHAT ".toList)) = true := by
  intro r h
  have hentry : ∃ entry ∈ r.subprotocolList,
      sameIgnoringCase entry (String.ofList (trim "CHAT ".toList)) = true := by decide +kernel
  have hiff := (accepted_subprotocol_is_entry_or_blank (r := r) rfl h "CHAT ").1
  exact ⟨rfl, hiff.mpr ⟨rfl, by decide +kernel, .inl hentry⟩, hentry⟩

/-- A list with two commas in a row offers two subprotocols, and the client that has sent it
accepts a third one, which is empty. -/
theorem empty_subprotocol_is_accepted :
    let r := Request.forPath "example.com" "/chat" (some "a,,b")
    let h := (HeaderBlock.ofStatus 200).append HeaderBlock.subprotocolName []
    r.subprotocolList = ["a", "b"] ∧
      Response.ofHeaders h false r.subprotocols = .ok ⟨200, some "", none⟩ ∧
      ∀ entry ∈ r.subprotocolList,
        sameIgnoringCase entry (String.ofList (trim "".toList)) = false := by
  decide +kernel

end Connect

namespace Config

variable {c : Config} {r : Request} {endStream : Bool} {own : String} {status : Nat}

/-- What is selected is the same as an entry of the request's list up to case. -/
theorem offered_of_verdict (h : c.verdict r endStream = .ok (some own)) :
    ∃ list entry, r.subprotocols = some list ∧ entry ∈ Request.offered list ∧
      sameIgnoringCase entry own = true := by
  have hselected : c.selectSubprotocol? r.subprotocolList = some own := by
    unfold verdict at h
    repeat' split at h
    all_goals try cases h
    assumption
  have hany := List.find?_some (p := fun own => r.subprotocolList.any (sameIgnoringCase · own))
    hselected
  obtain ⟨entry, hentry, hsame⟩ := List.any_eq_true.mp hany
  rw [Request.subprotocolList] at hentry
  cases hlist : r.subprotocols with
  | none => rw [hlist] at hentry; cases hentry
  | some list =>
    rw [hlist] at hentry
    exact ⟨list, entry, rfl, hentry, hsame⟩

/-- A request is refused with the status of an error. -/
theorem status_of_verdict (h : c.verdict r endStream = .error status) : 400 ≤ status := by
  unfold verdict at h
  split at h
  · cases h; decide
  split at h
  next status' hrefusal =>
    cases h
    unfold Request.refusal? at hrefusal
    repeat' split at hrefusal
    all_goals cases hrefusal
    all_goals decide
  · repeat' split at h
    all_goals cases h
    all_goals decide

end Config

end ChannelMux
