import ChannelMux.Connect.Request
import ChannelMux.Connect.Response
import Mathlib.Data.List.Basic

/-!
# Fields: texts that are written as header values and read again

A text that holds a control character is left out of a header block, and one that holds a character
beyond ASCII is written and cannot be read as text again.  Of both nothing arrives; every other text
arrives as it was (`textOfField?_fieldOfText?`).  As the names in use differ, each optional field of
a request or a response arrives or is missing apart from the others.
-/

namespace ChannelMux

open HeaderBlock

/-! ## Texts that can be read back -/

/-- Visible ASCII, the space and the tab. -/
def isTextChar (c : Char) : Bool := (0x20 ≤ c.toNat && c.toNat ≤ 0x7e) || c.toNat = 0x09

/-- Every character of a text can be written as a field value and be read again. -/
def isPlainText (s : String) : Bool := s.toList.all isTextChar

theorem isFieldByte_of_isTextByte {b : UInt8} (h : isTextByte b = true) : isFieldByte b = true := by
  simp only [isTextByte, isFieldByte, Bool.or_eq_true, Bool.and_eq_true, decide_eq_true_eq,
    UInt8.le_iff_toNat_le] at h ⊢
  rcases h with ⟨hlow, hhigh⟩ | htab
  · refine .inl ⟨hlow, ?_⟩
    rintro rfl
    exact absurd hhigh (by decide)
  · exact .inr htab

theorem utf8EncodeChar_of_isTextChar {c : Char} (h : isTextChar c = true) :
    String.utf8EncodeChar c = [UInt8.ofNat c.toNat] := by
  have hascii : c.val.toNat ≤ 127 := by
    change c.toNat ≤ 127
    simp only [isTextChar, Bool.or_eq_true, Bool.and_eq_true, decide_eq_true_eq] at h
    omega
  rw [String.utf8EncodeChar, if_pos hascii]
  rfl

theorem isTextByte_ofNat {n : Nat} (h : n < 256) :
    isTextByte (UInt8.ofNat n) = ((0x20 ≤ n && n ≤ 0x7e) || n = 0x09) := by
  have hval : (UInt8.ofNat n).toNat = n := UInt8.toNat_ofNat_of_lt h
  simp only [isTextByte, UInt8.le_iff_toNat_le, ← UInt8.toNat_inj, hval]
  rfl

/-- A character can be read back exactly if each of its bytes is a character by itself. -/
theorem all_isTextByte_utf8EncodeChar (c : Char) :
    (String.utf8EncodeChar c).all isTextByte = isTextChar c := by
  have hlast : isTextByte (UInt8.ofNat (c.val.toNat % 64 + 128)) = false := by
    rw [isTextByte_ofNat (by omega)]
    simp only [Bool.or_eq_false_iff, Bool.and_eq_false_iff, decide_eq_false_iff_not]
    omega
  have hbeyond (h : ¬ c.val.toNat ≤ 127) : isTextChar c = false := by
    change ¬ c.toNat ≤ 127 at h
    simp only [isTextChar, Bool.or_eq_false_iff, Bool.and_eq_false_iff, decide_eq_false_iff_not]
    omega
  rw [String.utf8EncodeChar]
  split
  next h =>
    rw [List.all_cons, List.all_nil, Bool.and_true, isTextByte_ofNat (by omega)]
    rfl
  next h =>
    rw [hbeyond h]
    -- whatever comes before it, the last byte is no character
    split
    · simp only [List.all_cons, hlast, Bool.and_false, Bool.false_and]
    · split <;> simp only [List.all_cons, hlast, Bool.and_false, Bool.false_and]

theorem utf8_of_isPlainText {s : String} (h : isPlainText s = true) :
    (utf8 s).map (fun b => Char.ofNat b.toNat) = s.toList := by
  rw [utf8, List.map_flatMap]
  have hone : ∀ c ∈ s.toList,
      (String.utf8EncodeChar c).map (fun b => Char.ofNat b.toNat) = [c] := by
    intro c hc
    have hc := List.all_eq_true.mp h c hc
    have hsmall : c.toNat < 256 := by
      simp only [isTextChar, Bool.or_eq_true, Bool.and_eq_true, decide_eq_true_eq] at hc
      omega
    rw [utf8EncodeChar_of_isTextChar hc, List.map_singleton, UInt8.toNat_ofNat',
      Nat.mod_eq_of_lt hsmall, Char.ofNat_toNat]
  rw [List.flatMap_congr hone, List.flatMap_singleton']

theorem all_isTextByte_utf8 (s : String) : (utf8 s).all isTextByte = isPlainText s := by
  rw [utf8, List.all_flatMap, isPlainText]
  congr 1
  funext c
  exact all_isTextByte_utf8EncodeChar c

/-- What is read of a text that was written: the text itself or nothing. -/
theorem textOfField?_fieldOfText? (text : Option String) :
    (text.bind fieldOfText?).bind textOfField? = text.filter isPlainText := by
  cases text with
  | none => rfl
  | some s =>
    have hread : textOfField? (utf8 s) = (some s).filter isPlainText := by
      rw [textOfField?, all_isTextByte_utf8, Option.filter_some]
      split
      next h => rw [utf8_of_isPlainText h, String.ofList_toList]
      next => rfl
    rw [Option.bind_some, fieldOfText?]
    split
    · exact hread
    next hnot =>
      -- a text that cannot be written could not be read either
      rw [Option.filter_some, if_neg fun hplain => hnot ?_]
      · rfl
      · rw [← all_isTextByte_utf8] at hplain
        exact List.all_eq_true.mpr fun b hb =>
          isFieldByte_of_isTextByte (List.all_eq_true.mp hplain b hb)

/-- All that can be read of a text arrives. -/
theorem filter_isPlainText_eq_self_iff {text : Option String} :
    text.filter isPlainText = text ↔ ∀ s ∈ text, isPlainText s = true := by
  cases text <;> simp

theorem isTextChar_ofNat {b : UInt8} (h : isTextByte b = true) :
    isTextChar (Char.ofNat b.toNat) = true := by
  have hcode : (Char.ofNat b.toNat).toNat = b.toNat := by
    rw [Char.ofNat, dif_pos (.inl (Nat.lt_trans b.toNat_lt (by decide)))]
    rfl
  rw [isTextChar, hcode, ← isTextByte_ofNat b.toNat_lt, UInt8.ofNat_toNat]
  exact h

/-- What was read can be written and read again. -/
theorem isPlainText_of_textOfField? {bs : Bytes} {s : String} (h : textOfField? bs = some s) :
    isPlainText s = true := by
  rw [textOfField?] at h
  split at h
  next hbytes =>
    obtain rfl := Option.some.inj h
    rw [isPlainText, String.toList_ofList, List.all_map]
    exact List.all_eq_true.mpr fun b hb => isTextChar_ofNat (List.all_eq_true.mp hbytes b hb)
  next => cases h

/-! ## Look-ups in a block -/

namespace HeaderBlock

variable {h : HeaderBlock} {name other : String}

theorem lookup_putText_of_ne (hne : lowerName name ≠ lowerName other) (text : Option String) :
    (h.putText other text).fields.lookup (lowerName name) = h.fields.lookup (lowerName name) := by
  rw [putText]
  split
  · rw [append, List.lookup_append]
    have hmiss : (lowerName name == lowerName other) = false := beq_false_of_ne hne
    simp [List.lookup_cons, hmiss]
  · rfl

theorem get?_putText_of_ne (hne : lowerName name ≠ lowerName other) (text : Option String) :
    (h.putText other text).get? name = h.get? name := by
  rw [get?, get?, lookup_putText_of_ne hne]

/-- The first text under a name arrives, if it can. -/
theorem get?_putText_self (hnone : h.fields.lookup (lowerName name) = none) (text : Option String) :
    (h.putText name text).get? name = text.filter isPlainText := by
  rw [get?, ← textOfField?_fieldOfText?, putText]
  split
  next value hvalue =>
    rw [hvalue, append, List.lookup_append, hnone]
    simp
  next hnone' => rw [hnone', hnone]

theorem isPlainText_of_get? {s : String} (hs : h.get? name = some s) : isPlainText s = true := by
  obtain ⟨_, -, hread⟩ := Option.bind_eq_some_iff.mp hs
  exact isPlainText_of_textOfField? hread

@[simp] theorem pseudo_putText (h : HeaderBlock) (name : String) (text : Option String) :
    (h.putText name text).pseudo = h.pseudo := by
  rw [putText]
  split <;> rfl

end HeaderBlock

namespace Connect

/-! ## Requests -/

namespace Request

/-- What arrives of a request: the pseudo-headers, and the fields that can be read. -/
def arrived (r : Request) : Request :=
  { r with
    subprotocols := r.subprotocols.filter isPlainText
    extensions := r.extensions.filter isPlainText
    origin := r.origin.filter isPlainText
    version := r.version.filter isPlainText }

theorem ofHeaders?_toHeaders (r : Request) :
    ofHeaders? r.toHeaders = r.protocol.map fun _ => r.arrived := by
  have hpseudo : r.toHeaders.pseudo = r.pseudo := by
    rw [toHeaders]
    simp
  have hversion : r.toHeaders.get? versionName = r.version.filter isPlainText := by
    rw [toHeaders, get?_putText_of_ne (by decide), get?_putText_of_ne (by decide),
      get?_putText_of_ne (by decide), get?_putText_self rfl]
  have hsubprotocols : r.toHeaders.get? subprotocolName = r.subprotocols.filter isPlainText := by
    rw [toHeaders, get?_putText_of_ne (by decide), get?_putText_of_ne (by decide),
      get?_putText_self]
    rw [lookup_putText_of_ne (by decide)]
    rfl
  have hextensions : r.toHeaders.get? extensionsName = r.extensions.filter isPlainText := by
    rw [toHeaders, get?_putText_of_ne (by decide), get?_putText_self]
    rw [lookup_putText_of_ne (by decide), lookup_putText_of_ne (by decide)]
    rfl
  have horigin : r.toHeaders.get? originName = r.origin.filter isPlainText := by
    rw [toHeaders, get?_putText_self]
    rw [lookup_putText_of_ne (by decide), lookup_putText_of_ne (by decide),
      lookup_putText_of_ne (by decide)]
    rfl
  rw [ofHeaders?, hpseudo, hversion, hsubprotocols, hextensions, horigin, if_pos (by rfl)]
  cases hprotocol : r.protocol with
  | none => simp [pseudo, hprotocol]
  | some protocol => simp [pseudo, hprotocol, arrived]

variable {r : Request} {h : HeaderBlock}

theorem arrived_eq_self_iff : r.arrived = r ↔
    ∀ text ∈ [r.version, r.subprotocols, r.extensions, r.origin], ∀ s ∈ text,
      isPlainText s = true := by
  obtain ⟨_, _, _, _, _, _, _, _⟩ := r
  simp only [arrived, mk.injEq, filter_isPlainText_eq_self_iff, List.forall_mem_cons,
    List.not_mem_nil, false_imp_iff, implies_true, true_and, and_true]
  tauto

/-- Every field that was read of a block can be read again. -/
theorem arrived_of_ofHeaders? (hread : ofHeaders? h = some r) : r.arrived = r := by
  rw [ofHeaders?] at hread
  split at hread
  · obtain ⟨_, -, rfl⟩ := Option.map_eq_some_iff.mp hread
    simp only [arrived_eq_self_iff, List.forall_mem_cons, List.not_mem_nil, false_imp_iff,
      implies_true, and_true]
    exact ⟨fun _ => isPlainText_of_get?, fun _ => isPlainText_of_get?,
      fun _ => isPlainText_of_get?, fun _ => isPlainText_of_get?⟩
  · cases hread

theorem protocol_of_ofHeaders? (hread : ofHeaders? h = some r) : r.protocol ≠ none := by
  rw [ofHeaders?] at hread
  split at hread
  · obtain ⟨_, -, rfl⟩ := Option.map_eq_some_iff.mp hread
    exact Option.some_ne_none _
  · cases hread

/-- What was read of any block is read again as it is. -/
theorem ofHeaders?_toHeaders_of_ofHeaders? (hread : ofHeaders? h = some r) :
    ofHeaders? r.toHeaders = some r := by
  rw [ofHeaders?_toHeaders, arrived_of_ofHeaders? hread]
  obtain ⟨protocol, hprotocol⟩ := Option.ne_none_iff_exists'.mp (protocol_of_ofHeaders? hread)
  rw [hprotocol, Option.map_some]

/-- Of a request that is written as a block, nothing is read if it names no protocol.  Otherwise
the pseudo-headers arrive whatever they hold, and each of the four fields arrives as it was or not
at all.  So nothing is lost if and only if the fields hold visible ASCII, spaces and tabs only.  All
that is lost is lost the first time: a request that was read of any block arrives whole. -/
theorem fields_of_request_arrive_whole_or_not (r : Request) :
    (ofHeaders? r.toHeaders = r.protocol.map fun _ => {
      path := r.path
      authority := r.authority
      scheme := r.scheme
      protocol := r.protocol
      version := r.version.filter isPlainText
      subprotocols := r.subprotocols.filter isPlainText
      extensions := r.extensions.filter isPlainText
      origin := r.origin.filter isPlainText }) ∧
    (ofHeaders? r.toHeaders = some r ↔ r.protocol ≠ none ∧
      ∀ text ∈ [r.version, r.subprotocols, r.extensions, r.origin], ∀ s ∈ text,
        isPlainText s = true) ∧
    ((ofHeaders? r.toHeaders).bind fun r' => ofHeaders? r'.toHeaders) = ofHeaders? r.toHeaders ∧
    ∀ h, ofHeaders? h = some r → ofHeaders? r.toHeaders = some r := by
  refine ⟨ofHeaders?_toHeaders r, ?_, ?_, fun h => ofHeaders?_toHeaders_of_ofHeaders?⟩
  · rw [ofHeaders?_toHeaders, ← arrived_eq_self_iff]
    cases r.protocol <;> simp
  · cases hread : ofHeaders? r.toHeaders with
    | none => rfl
    | some r' => exact ofHeaders?_toHeaders_of_ofHeaders? hread

/-- The path may hold any letter; an origin that does is lost, and a subprotocol with a tab is
not. -/
theorem accented_origin_is_lost :
    let r : Request := {
      path := "/é", authority := "", scheme := "https", protocol := some "websocket"
      subprotocols := some "chat,\tx", origin := some "https://é", version := some "13" }
    let r' : Request := { r with origin := none }
    ofHeaders? r.toHeaders = some r' ∧ ofHeaders? r.toHeaders ≠ some r ∧
      ofHeaders? r'.toHeaders = some r' := by
  intro r r'
  have harrived : ofHeaders? r.toHeaders = some r' :=
    (fields_of_request_arrive_whole_or_not r).1.trans (by decide +kernel)
  refine ⟨harrived, ?_, (fields_of_request_arrive_whole_or_not r').2.2.2 r.toHeaders harrived⟩
  intro hwhole
  have hplain := ((fields_of_request_arrive_whole_or_not r).2.1.mp hwhole).2 r.origin (by decide)
    "https://é" rfl
  revert hplain
  decide +kernel

end Request

/-! ## Responses -/

namespace Response

theorem status_toHeaders (r : Response) : r.toHeaders.pseudo.status = some r.status := by
  rw [toHeaders]
  simp [ofStatus]

theorem get?_subprotocol_toHeaders (r : Response) :
    r.toHeaders.get? subprotocolName = r.protocol.filter isPlainText := by
  rw [toHeaders, get?_putText_of_ne (by decide), get?_putText_self rfl]

theorem get?_extensions_toHeaders (r : Response) :
    r.toHeaders.get? extensionsName = r.extensions.filter isPlainText := by
  rw [toHeaders, get?_putText_self]
  rw [lookup_putText_of_ne (by decide)]
  rfl

/-- What is accepted, and what is read of it. -/
theorem ofHeaders_eq_ok_iff {h : HeaderBlock} {endStream : Bool} {requested : Option String}
    {response : Response} : ofHeaders h endStream requested = .ok response ↔
      h.pseudo.status = some 200 ∧ endStream = false ∧
      (∀ own ∈ h.get? subprotocolName, selects own requested = true) ∧
      response = accepting (h.get? subprotocolName) (h.get? extensionsName) := by
  rw [ofHeaders]
  cases h.pseudo.status with
  | none => simp
  | some status =>
    by_cases hstatus : status = 200
    · cases endStream with
      | true => simp [hstatus]
      | false =>
        cases h.get? subprotocolName with
        | none => simp [hstatus, accepting, @eq_comm _ _ response]
        | some own => cases hselects : selects own requested <;>
            simp [hstatus, hselects, accepting, @eq_comm _ _ response]
    · simp [hstatus]

/-- An acceptance arrives as it was written, if its texts can be read and the client finds the
subprotocol in its list. -/
theorem ofHeaders_accepting {protocol extensions requested : Option String}
    (hprotocol : ∀ own, protocol = some own →
      isPlainText own = true ∧ selects own requested = true)
    (hextensions : ∀ header, extensions = some header → isPlainText header = true) :
    ofHeaders (accepting protocol extensions).toHeaders false requested =
      .ok (accepting protocol extensions) := by
  have hread : (accepting protocol extensions).protocol.filter isPlainText = protocol :=
    filter_isPlainText_eq_self_iff.mpr fun own hown => (hprotocol own hown).1
  have hterms : (accepting protocol extensions).extensions.filter isPlainText = extensions :=
    filter_isPlainText_eq_self_iff.mpr hextensions
  rw [ofHeaders_eq_ok_iff, status_toHeaders, get?_subprotocol_toHeaders,
    get?_extensions_toHeaders, hread, hterms]
  exact ⟨rfl, rfl, fun own hown => (hprotocol own hown).2, rfl⟩

/-- A refusal arrives as the status that it states. -/
theorem ofHeaders_refusing {status : Nat} (h : status ≠ 200) (endStream : Bool)
    (requested : Option String) :
    ofHeaders (refusing status).toHeaders endStream requested =
      .error (.statusUnexpected status) := by
  rw [ofHeaders, status_toHeaders]
  exact if_pos h

end Response

end Connect

end ChannelMux
