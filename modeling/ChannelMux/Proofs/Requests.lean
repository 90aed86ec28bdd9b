import ChannelMux.Connection.Admission

/-!
# Requests: what headers ask of a server

Headers ask for a conversation if they are a CONNECT that names the protocol.  What such a request
says is read off the headers here, without the steps in which a server reads them; that the server
reads the same is `candidate?_of_asks` for the request and `refusal?_of_complete` for what is
required of every request.
-/

namespace ChannelMux

open Connect Text

/-! ## What a request says -/

namespace HeaderBlock

/-- The block asks for a conversation: a CONNECT that names the protocol, in any case of letters. -/
def Asks (h : HeaderBlock) : Prop :=
  h.pseudo.method = some "CONNECT" ∧
    ∃ name, h.pseudo.protocol = some name ∧ sameIgnoringCase name websocket = true

instance (h : HeaderBlock) : Decidable h.Asks :=
  decidable_of_iff (h.pseudo.method = some "CONNECT" ∧
    (h.pseudo.protocol.any fun name => sameIgnoringCase name websocket) = true)
    (and_congr_right' (Option.any_eq_true ..))

/-- An absent path is as good as an empty one. -/
def path (h : HeaderBlock) : String := h.pseudo.path.getD ""

def scheme (h : HeaderBlock) : String := h.pseudo.scheme.getD ""

/-- The path up to its first question mark. -/
def pathOnly (h : HeaderBlock) : String := String.ofList (h.path.toList.takeWhile (· ≠ '?'))

/-- The entries of the list of subprotocols. -/
def offered (h : HeaderBlock) : List String :=
  ((h.get? subprotocolName).map Request.offered).getD []

/-- A name is in the list, in any case of letters. -/
def Offers (h : HeaderBlock) (own : String) : Prop :=
  ∃ entry ∈ h.offered, sameIgnoringCase entry own = true

/-- What a request has to say, however the server is configured.  A value that cannot be read as
text counts as absent. -/
structure Complete (h : HeaderBlock) : Prop where
  path : h.path ≠ ""
  scheme : h.scheme ≠ ""
  version : h.get? versionName = none ∨ h.get? versionName = some version13

/-- The request is complete and leaves the stream open for what follows. -/
def Proper (h : HeaderBlock) (endStream : Bool) : Prop := endStream = false ∧ h.Complete

end HeaderBlock

/-! ## The request -/

namespace Text

variable {sep : Char}

/-- The first piece of a text ends before the first separator. -/
theorem fst_pieces (cs : List Char) : (pieces sep cs).1 = cs.takeWhile (· ≠ sep) := by
  induction cs with
  | nil => rfl
  | cons c cs ih =>
    rw [pieces, List.takeWhile_cons]
    by_cases hsep : c = sep
    · simp [hsep]
    · simp [hsep, ih]

end Text

namespace Connect.Request

variable {h : HeaderBlock}

/-- What the headers of a request say. -/
def read (h : HeaderBlock) : Request where
  path := h.path
  authority := h.pseudo.authority.getD ""
  scheme := h.scheme
  protocol := h.pseudo.protocol
  subprotocols := h.get? HeaderBlock.subprotocolName
  extensions := h.get? HeaderBlock.extensionsName
  origin := h.get? HeaderBlock.originName
  version := h.get? HeaderBlock.versionName

theorem isWebSocket_read (hasks : h.Asks) : (read h).isWebSocket = true := by
  obtain ⟨-, name, hname, hsame⟩ := hasks
  rw [isWebSocket, read, hname]
  exact hsame

theorem candidate?_of_asks (hasks : h.Asks) : Connection.candidate? h = some (read h) := by
  have hread : ofHeaders? h = some (read h) := by
    obtain ⟨hmethod, name, hname, -⟩ := hasks
    rw [ofHeaders?, if_pos hmethod, read, hname]
    rfl
  rw [Connection.candidate?, hread, Option.filter_some, if_pos (isWebSocket_read hasks)]

theorem candidate?_of_not_asks (hasks : ¬ h.Asks) : Connection.candidate? h = none := by
  rw [Connection.candidate?, ofHeaders?, Option.filter_eq_none_iff]
  intro r hr hprotocol
  split at hr
  next hmethod =>
    obtain ⟨name, hname, rfl⟩ := Option.map_eq_some_iff.mp hr
    exact hasks ⟨hmethod, name, hname, hprotocol⟩
  next => cases hr

theorem asks_iff_isSome_candidate? : h.Asks ↔ (Connection.candidate? h).isSome = true := by
  refine ⟨fun hasks => by rw [candidate?_of_asks hasks]; rfl, fun hsome => ?_⟩
  refine Decidable.byContradiction fun hasks => ?_
  rw [candidate?_of_not_asks hasks] at hsome
  cases hsome

theorem pathOnly_read (h : HeaderBlock) : (read h).pathOnly = h.pathOnly := by
  rw [pathOnly, Text.fst_pieces]
  rfl

theorem refusal?_of_complete (hasks : h.Asks) (hcomplete : h.Complete) :
    (read h).refusal? = none := by
  have hempty : ¬ ((read h).path = "" ∨ (read h).scheme = "") :=
    not_or.mpr ⟨hcomplete.path, hcomplete.scheme⟩
  have hother : ¬ (read h).version.any (· ≠ version13) = true := by
    change ¬ (h.get? HeaderBlock.versionName).any _ = true
    rcases hcomplete.version with hversion | hversion <;> rw [hversion] <;> decide
  rw [refusal?, if_neg (not_not_intro (isWebSocket_read hasks)), if_neg hempty, if_neg hother]

/-- Whatever is missing, the status is the same. -/
theorem refusal?_of_not_complete (hasks : h.Asks) (hnot : ¬ h.Complete) :
    (read h).refusal? = some 400 := by
  rw [refusal?, if_neg (not_not_intro (isWebSocket_read hasks))]
  split
  · rfl
  next hfull =>
    obtain ⟨hpath, hscheme⟩ := not_or.mp hfull
    rw [if_pos]
    change (h.get? HeaderBlock.versionName).any _ = true
    cases hversion : h.get? HeaderBlock.versionName with
    | none => exact absurd ⟨hpath, hscheme, .inl hversion⟩ hnot
    | some version =>
      refine decide_eq_true fun heq => hnot ⟨hpath, hscheme, .inr ?_⟩
      rw [hversion, heq]

end Connect.Request

end ChannelMux
