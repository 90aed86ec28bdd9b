import ChannelMux.Proofs.CorePaths
import ChannelMux.Proofs.Requests
import ChannelMux.Proofs.Subprotocols

/-!
# Admission: which requests a server admits, and what becomes of them

Headers on a stream that is not registered either ask a server for a conversation or are passed on.
The policy is stated here on the headers themselves: what each check requires, which status answers
the first check that fails, and which subprotocol is selected.  The verdict follows the policy
(`judges_verdict`).  A request that is refused gets a status and changes nothing.  One that is
admitted gets a channel before it is answered, so an answer that is not taken has to undo that: as
the number of the channel was never in use, nothing is left of it but that the number is used up.
Both answers are stated by what they say, a status and the fields, and not by how they are made
(`refusal`, `approval`).
-/

namespace ChannelMux

open Connect Text

/-! ## The policy -/

namespace Config

variable {c : Config} {h : HeaderBlock} {endStream : Bool} {own : String}
  {selected : Option String} {code : Nat}

/-- A list of paths, like one of origins, says nothing if it is empty. -/
def Serves (c : Config) (h : HeaderBlock) : Prop := c.paths = [] ∨ h.pathOnly ∈ c.paths

def Welcomes (c : Config) (h : HeaderBlock) : Prop :=
  c.origins = [] ∨ ∃ origin, h.get? HeaderBlock.originName = some origin ∧
    ∃ own ∈ c.origins, sameIgnoringCase own origin = true

def Speaks (c : Config) (h : HeaderBlock) : Prop :=
  h.offered = [] ∨ ∃ own ∈ c.subprotocols, h.Offers own

/-- A request is admitted if it passes every check. -/
structure Admits (c : Config) (h : HeaderBlock) (endStream : Bool) : Prop where
  proper : h.Proper endStream
  path : c.Serves h
  origin : c.Welcomes h
  subprotocol : c.Speaks h

/-- Nothing is selected if nothing is offered, and else the earliest name that is offered. -/
def Selects (c : Config) (h : HeaderBlock) : Option String → Prop
  | none => h.offered = []
  | some own => ∃ before after, c.subprotocols = before ++ own :: after ∧ h.Offers own ∧
      ∀ other ∈ before, ¬ h.Offers other

/-- The verdicts of the policy; the first check that fails decides on the status. -/
inductive Judges (c : Config) (h : HeaderBlock) (endStream : Bool) :
    Except Nat (Option String) → Prop
  | improper : ¬ h.Proper endStream → Judges c h endStream (.error 400)
  | unserved : h.Proper endStream → ¬ c.Serves h → Judges c h endStream (.error 404)
  | unwelcome : h.Proper endStream → c.Serves h → ¬ c.Welcomes h →
      Judges c h endStream (.error 403)
  | unspoken : h.Proper endStream → c.Serves h → c.Welcomes h → ¬ c.Speaks h →
      Judges c h endStream (.error 400)
  | admitted {selected : Option String} : c.Admits h endStream → c.Selects h selected →
      Judges c h endStream (.ok selected)

theorem Judges.not_admits (hj : c.Judges h endStream (.error code)) :
    ¬ c.Admits h endStream := by
  intro hadmits
  cases hj with
  | improper hnot => exact hnot hadmits.proper
  | unserved _ hnot => exact hnot hadmits.path
  | unwelcome _ _ hnot => exact hnot hadmits.origin
  | unspoken _ _ _ hnot => exact hnot hadmits.subprotocol

theorem Judges.admits (hj : c.Judges h endStream (.ok selected)) :
    c.Admits h endStream ∧ c.Selects h selected := by
  cases hj with
  | admitted hadmits hselects => exact ⟨hadmits, hselects⟩

theorem Judges.status (hj : c.Judges h endStream (.error code)) :
    code = 400 ∨ code = 403 ∨ code = 404 := by
  cases hj <;> simp

/-! ## The checks -/

theorem servesPath_iff : c.servesPath h.pathOnly = true ↔ c.Serves h := by
  simp [servesPath, Serves]

theorem allowsOrigin_iff : c.allowsOrigin (h.get? HeaderBlock.originName) = true ↔
    c.Welcomes h := by
  rw [allowsOrigin, Welcomes, Bool.or_eq_true, List.isEmpty_iff, Option.any_eq_true]
  simp only [List.any_eq_true]

theorem any_offered_iff : (h.offered.any fun entry => sameIgnoringCase entry own) = true ↔
    h.Offers own := List.any_eq_true

theorem selects_of_selectSubprotocol? (hs : c.selectSubprotocol? h.offered = some own) :
    c.Selects h (some own) := by
  obtain ⟨hoffered, before, after, heq, hbefore⟩ := List.find?_eq_some_iff_append.mp hs
  refine ⟨before, after, heq, any_offered_iff.mp hoffered, fun other hother hoffers => ?_⟩
  have hno := hbefore other hother
  rw [any_offered_iff.mpr hoffers] at hno
  cases hno

theorem not_offers_of_selectSubprotocol? (hs : c.selectSubprotocol? h.offered = none) :
    ¬ ∃ own ∈ c.subprotocols, h.Offers own := by
  rintro ⟨own, hown, hoffers⟩
  exact List.find?_eq_none.mp hs own hown (any_offered_iff.mpr hoffers)

theorem Selects.speaks (hs : c.Selects h (some own)) : c.Speaks h := by
  obtain ⟨before, after, heq, hoffers, -⟩ := hs
  exact .inr ⟨own, heq ▸ List.mem_append_right before List.mem_cons_self, hoffers⟩

end Config

/-! ## What an answer says -/

namespace HeaderBlock

/-- The field that carries a text under a name.  There is none without a text, or if no field can
hold the text. -/
def fieldFor (name : String) : Option String → List (String × Bytes)
  | none => []
  | some text => if (utf8 text).all isFieldByte then [(name, utf8 text)] else []

theorem fields_putText (h : HeaderBlock) (name : String) (text : Option String) :
    (h.putText name text).fields = h.fields ++ fieldFor (lowerName name) text := by
  cases text with
  | none => exact (List.append_nil _).symm
  | some text =>
    rw [putText, Option.bind_some, fieldOfText?, fieldFor]
    split_ifs
    · rfl
    · exact (List.append_nil _).symm

end HeaderBlock

namespace Connect.Response

theorem toHeaders_accepting (protocol extensions : Option String) :
    (accepting protocol extensions).toHeaders =
      { pseudo := { status := some 200 }
        fields := HeaderBlock.fieldFor "sec-websocket-protocol" protocol ++
          HeaderBlock.fieldFor "sec-websocket-extensions" extensions } := by
  have hpseudo : (accepting protocol extensions).toHeaders.pseudo = { status := some 200 } := by
    rw [toHeaders, HeaderBlock.pseudo_putText, HeaderBlock.pseudo_putText]
    rfl
  have hprotocol :
      HeaderBlock.lowerName HeaderBlock.subprotocolName = "sec-websocket-protocol" := by decide
  have hextensions :
      HeaderBlock.lowerName HeaderBlock.extensionsName = "sec-websocket-extensions" := by decide
  have hfields : (accepting protocol extensions).toHeaders.fields =
      HeaderBlock.fieldFor "sec-websocket-protocol" protocol ++
        HeaderBlock.fieldFor "sec-websocket-extensions" extensions := by
    rw [toHeaders, HeaderBlock.fields_putText, HeaderBlock.fields_putText, hprotocol, hextensions]
    rfl
  rw [← hpseudo, ← hfields]

end Connect.Response

/-! ## The verdict -/

namespace Config

variable {h : HeaderBlock} {endStream : Bool}

theorem verdict_of_not_proper (c : Config) (hasks : h.Asks) (hnot : ¬ h.Proper endStream) :
    c.verdict (.read h) endStream = .error 400 := by
  rw [verdict]
  cases endStream with
  | true => rfl
  | false =>
    have hmissing : ¬ h.Complete := fun hcomplete => hnot ⟨rfl, hcomplete⟩
    rw [Request.refusal?_of_not_complete hasks hmissing]
    rfl

theorem verdict_of_proper (c : Config) (hasks : h.Asks) (hproper : h.Proper endStream) :
    c.verdict (.read h) endStream =
      if ¬ c.servesPath h.pathOnly then .error 404
      else if ¬ c.allowsOrigin (h.get? HeaderBlock.originName) then .error 403
      else if h.offered = [] then .ok none
      else match c.selectSubprotocol? h.offered with
        | some selected => .ok (some selected)
        | none => .error 400 := by
  obtain ⟨rfl, hcomplete⟩ := hproper
  rw [verdict, Request.refusal?_of_complete hasks hcomplete, Request.pathOnly_read]
  rfl

/-- The verdict on a request is the policy's. -/
theorem judges_verdict (c : Config) (hasks : h.Asks) (endStream : Bool) :
    c.Judges h endStream (c.verdict (.read h) endStream) := by
  by_cases hproper : h.Proper endStream
  case neg =>
    rw [verdict_of_not_proper c hasks hproper]
    exact .improper hproper
  rw [verdict_of_proper c hasks hproper]
  split
  next hrefused => exact .unserved hproper (mt servesPath_iff.mpr hrefused)
  next hserved =>
    have hserves := servesPath_iff.mp (not_not.mp hserved)
    split
    next hrefused => exact .unwelcome hproper hserves (mt allowsOrigin_iff.mpr hrefused)
    next hallowed =>
      have hwelcomes := allowsOrigin_iff.mp (not_not.mp hallowed)
      split
      next hsilent => exact .admitted ⟨hproper, hserves, hwelcomes, .inl hsilent⟩ hsilent
      next hoffers =>
        split
        next selected hselected =>
          have hselects := selects_of_selectSubprotocol? hselected
          exact .admitted ⟨hproper, hserves, hwelcomes, hselects.speaks⟩ hselects
        next hnone =>
          refine .unspoken hproper hserves hwelcomes fun hspeaks => ?_
          exact hspeaks.elim hoffers (not_offers_of_selectSubprotocol? hnone)

end Config

/-! ## What becomes of a request -/

namespace Connection

variable {c : Connection} {config : Config} {encoder : Encoder} {s : StreamId}
  {h : HeaderBlock} {endStream : Bool} {path : String} {selected : Option String}
  {terms : Option Deflate.Terms}

/-- The connection once a read cycle has begun, as it does with each frame. -/
def inCycle (c : Connection) : Connection := { c with reading := true }

/-- The connection after a frame that was passed on. -/
def passedOn (c : Connection) (f : Frame) : Connection :=
  { c with
    reading := true
    stats := { c.stats with forwarded := c.stats.forwarded + 1 }
    journal := c.journal.push (.wire none ⟨.forward f, none⟩) }

/-- The answer to a request that is refused: a status, no fields, and the end of the stream. -/
def refusal (s : StreamId) (status : Nat) : WireCall :=
  .headers s { pseudo := { status := some status }, fields := [] } true

/-- The answer to a request that is admitted: status 200, the subprotocol that was selected and the
terms of compression, and the stream stays open. -/
def approval (s : StreamId) (selected : Option String) (terms : Option Deflate.Terms) : WireCall :=
  .headers s
    { pseudo := { status := some 200 }
      fields := HeaderBlock.fieldFor "sec-websocket-protocol" selected ++
        HeaderBlock.fieldFor "sec-websocket-extensions" (terms.map (·.responseHeader)) } false

/-- The fault with which the encoder would refuse a call. -/
def faultOf (c : Connection) (call : WireCall) : Option WriteFault :=
  c.encoder.fault c.journal.wire call

/-- The connection after a request that was refused, whether or not the answer was taken. -/
def turnedAway (c : Connection) (s : StreamId) (status : Nat) : Connection :=
  { c with
    reading := true
    journal := (c.journal.push (.wire none ⟨refusal s status, c.faultOf (refusal s status)⟩)).push
      (.wire none ⟨.flush, none⟩) }

/-- The connection after a request that was admitted and whose answer was taken. -/
def admitted (c : Connection) (s : StreamId) (path : String) (selected : Option String)
    (terms : Option Deflate.Terms) : Connection :=
  { c with
    reading := true
    channels := c.channels.insert c.nextChannel (c.enrolledChannel s path selected terms)
    nextChannel := c.nextChannel + 1
    registry := c.registry.insert s c.nextChannel
    stats := { c.stats with accepted := c.stats.accepted + 1 }
    journal := ((c.journal.push (.wire (some c.nextChannel) ⟨approval s selected terms, none⟩)).push
      (.wire none ⟨.flush, none⟩)).push
      (.event ⟨c.nextChannel, .opened s path selected⟩) }

/-- The second connection is the first after a request that was admitted and whose answer was not
taken: its entries are the same, and a number is used up. -/
def Undone (c : Connection) (answer : WireCall) (fault : WriteFault) (c' : Connection) : Prop :=
  ∃ registry : Registry ChannelId, (∀ t, registry.get? t = c.registry.get? t) ∧
    c' = { c with
      reading := true
      nextChannel := c.nextChannel + 1
      registry := registry
      journal := c.journal.push (.wire (some c.nextChannel) ⟨answer, some fault⟩) }

/-- The first thing that the second connection does beyond the first is to answer on a stream with
status 200 and leave the stream open. -/
def Approves (c c' : Connection) (s : StreamId) : Prop :=
  ∃ owner block fault es, block.pseudo.status = some 200 ∧
    c'.journal.entries = c.journal.entries ++ .wire owner ⟨.headers s block false, fault⟩ :: es

theorem approval_eq (s : StreamId) (selected : Option String) (terms : Option Deflate.Terms) :
    .headers s (Response.accepting selected (terms.map (·.responseHeader))).toHeaders false =
      approval s selected terms := by
  have hblock := Response.toHeaders_accepting selected (terms.map (·.responseHeader))
  rw [approval, hblock]

theorem submit_of_faultOf {call : WireCall} {fault : Option WriteFault}
    (h : c.faultOf call = fault) (owner : Option ChannelId) :
    c.submit owner call = (fault, c.note (.wire owner ⟨call, fault⟩)) := by
  subst h
  rfl

theorem accept_of_taken (path : String) (htaken : c.faultOf (approval s selected terms) = none) :
    c.inCycle.accept s path selected terms = c.admitted s path selected terms := by
  have henrolled : (c.inCycle.enrol s path selected terms).faultOf (approval s selected terms) =
      none := htaken
  rw [accept_eq, approval_eq, submit_of_faultOf henrolled]
  rfl

/-- The number of the new channel is not in use, so that forgetting the channel leaves those that
were there. -/
theorem accept_of_refused (hnew : c.channels.get? c.nextChannel = none)
    (hfree : c.registry.get? s = none) (path : String) {fault : WriteFault}
    (hrefused : c.faultOf (approval s selected terms) = some fault) :
    c.Undone (approval s selected terms) fault (c.inCycle.accept s path selected terms) := by
  have henrolled : (c.inCycle.enrol s path selected terms).faultOf (approval s selected terms) =
      some fault := hrefused
  have heq : c.inCycle.accept s path selected terms = { c with
      reading := true
      channels := (c.inCycle.enrol s path selected terms).channels.erase c.nextChannel
      nextChannel := c.nextChannel + 1
      registry := (c.registry.insert s c.nextChannel).remove s
      journal := c.journal.push
        (.wire (some c.nextChannel) ⟨approval s selected terms, some fault⟩) } := by
    rw [accept_eq, approval_eq, submit_of_faultOf henrolled]
    rfl
  have hchannels : (c.inCycle.enrol s path selected terms).channels.erase c.nextChannel =
      c.channels := Table.erase_insert hnew _
  refine ⟨(c.registry.insert s c.nextChannel).remove s, fun t => ?_, ?_⟩
  · rw [Registry.get?_remove, Registry.get?_insert]
    split
    next heq => rw [heq, hfree]
    next => rfl
  · rw [heq, hchannels]

/-! ### Headers that arrive -/

theorem after_headers (hserver : c.config.role = .server) (hfree : c.registry.get? s = none)
    (h : HeaderBlock) (endStream : Bool) :
    c.after (.frame (.headers s h endStream)) =
      match candidate? h with
      | some r => c.inCycle.answerRequest s r endStream
      | none => c.inCycle.forward (.headers s h endStream) := by
  change c.frameArrived (.headers s h endStream) = _
  rw [frameArrived.eq_def]
  dsimp only [Frame.stream]
  rw [hfree]
  dsimp only
  rw [strayFrame.eq_def]
  dsimp only
  rw [hserver]
  rfl

section

variable (hconfig : c.config = config) (hserver : config.role = .server)
  (hfree : c.registry.get? s = none)

include hconfig hserver hfree

theorem after_headers_of_not_asks (hasks : ¬ h.Asks) (endStream : Bool) :
    c.after (.frame (.headers s h endStream)) = c.passedOn (.headers s h endStream) := by
  subst hconfig
  rw [after_headers hserver hfree, Request.candidate?_of_not_asks hasks]
  rfl

theorem after_headers_of_asks (hasks : h.Asks) (endStream : Bool) :
    c.after (.frame (.headers s h endStream)) =
      match config.verdict (.read h) endStream with
      | .error status => c.turnedAway s status
      | .ok selected => c.inCycle.accept s h.path selected
          (config.grantCompression (h.get? HeaderBlock.extensionsName)) := by
  subst hconfig
  rw [after_headers hserver hfree, Request.candidate?_of_asks hasks]
  rfl

end

/-! ### The answer -/

theorem approves_of_entries {c' : Connection} {owner : Option ChannelId}
    {fault : Option WriteFault} {es : List Entry} (h : c'.journal.entries =
      c.journal.entries ++ .wire owner ⟨approval s selected terms, fault⟩ :: es) :
    c.Approves c' s :=
  ⟨owner, _, fault, es, rfl, h⟩

theorem approves_admitted (c : Connection) (s : StreamId) (path : String)
    (selected : Option String) (terms : Option Deflate.Terms) :
    c.Approves (c.admitted s path selected terms) s := by
  apply approves_of_entries
  rw [admitted, Journal.entries_push, Journal.entries_push, Journal.entries_push,
    List.append_assoc, List.append_assoc]
  rfl

theorem Undone.approves {c' : Connection} {fault : WriteFault}
    (h : c.Undone (approval s selected terms) fault c') : c.Approves c' s := by
  obtain ⟨registry, -, rfl⟩ := h
  exact approves_of_entries rfl

/-- A refusal ends the stream. -/
theorem not_approves_turnedAway (c : Connection) (s : StreamId) (status : Nat) :
    ¬ c.Approves (c.turnedAway s status) s := by
  rintro ⟨owner, block, fault, es, -, heq⟩
  rw [turnedAway, Journal.entries_push, Journal.entries_push, List.append_assoc] at heq
  cases List.append_cancel_left heq

/-- A server answers headers on a stream that is not registered by its policy.  Headers that ask for
no conversation are passed on.  A request is approved exactly if the policy admits it; otherwise it
is answered with the status of the first check that fails, and nothing else is done.  If the answer
to a request that is admitted is taken, there is one channel more, on the terms of the request and
of the policy; if it is not taken, there are the channels and the registered streams of before. -/
theorem server_admission_follows_policy (hstart : start config encoder = .ok c)
    (hserver : config.role = .server) (ks : List Call)
    (hfree : (c.run ks).registry.get? s = none) (h : HeaderBlock) (endStream : Bool) :
    let d := c.run ks
    let d' := d.after (.frame (.headers s h endStream))
    let terms := config.grantCompression (h.get? HeaderBlock.extensionsName)
    (¬ h.Asks → d' = d.passedOn (.headers s h endStream)) ∧
    (h.Asks →
      (d.Approves d' s ↔ config.Admits h endStream) ∧
      (¬ config.Admits h endStream → ∃ status, (status = 400 ∨ status = 403 ∨ status = 404) ∧
        config.Judges h endStream (.error status) ∧ d' = d.turnedAway s status) ∧
      (config.Admits h endStream → ∃ selected, config.Selects h selected ∧
        d.channels.get? d.nextChannel = none ∧
        (d.faultOf (approval s selected terms) = none →
          d' = d.admitted s h.path selected terms ∧
          (d.enrolledChannel s h.path selected terms).handshake = .complete) ∧
        ∀ fault, d.faultOf (approval s selected terms) = some fault →
          d.Undone (approval s selected terms) fault d')) := by
  intro d d' terms
  have hconfig : d.config = config := config_run hstart ks
  have hnew : d.channels.get? d.nextChannel = none := (tidy_run hstart ks).get?_nextChannel
  refine ⟨fun hasks => after_headers_of_not_asks hconfig hserver hfree hasks endStream,
    fun hasks => ?_⟩
  have hafter := after_headers_of_asks hconfig hserver hfree hasks endStream
  have hjudges := config.judges_verdict hasks endStream
  cases hverdict : config.verdict (.read h) endStream with
  | error status =>
    rw [hverdict] at hafter hjudges
    have hd : d' = d.turnedAway s status := hafter
    have hnot := hjudges.not_admits
    refine ⟨iff_of_false ?_ hnot, fun _ => ⟨status, hjudges.status, hjudges, hd⟩,
      fun hadmits => absurd hadmits hnot⟩
    rw [hd]
    exact not_approves_turnedAway d s status
  | ok selected =>
    rw [hverdict] at hafter hjudges
    have hd : d' = d.inCycle.accept s h.path selected terms := hafter
    obtain ⟨hadmits, hselects⟩ := hjudges.admits
    have htaken (hnone : d.faultOf (approval s selected terms) = none) :
        d' = d.admitted s h.path selected terms :=
      hd.trans (accept_of_taken h.path hnone)
    have hrefused (fault : WriteFault)
        (hsome : d.faultOf (approval s selected terms) = some fault) :
        d.Undone (approval s selected terms) fault d' := by
      rw [hd]
      exact accept_of_refused hnew hfree h.path hsome
    refine ⟨iff_of_true ?_ hadmits, fun hnot => absurd hadmits hnot, fun _ =>
      ⟨selected, hselects, hnew, fun hnone => ⟨htaken hnone, ?_⟩, hrefused⟩⟩
    · cases hfault : d.faultOf (approval s selected terms) with
      | none => rw [htaken hfault]; exact approves_admitted ..
      | some fault => exact (hrefused fault hfault).approves
    · exact handshake_enrolledChannel (hconfig.symm ▸ hserver) ..

/-- A visitor from a listed origin asks for a listed path, in other letters where case does not
matter; the server selects the second of its names, which is the first that is offered. -/
theorem listed_visitor_is_admitted :
    let config : Config :=
      { role := .server, paths := ["/chat"], origins := ["https://a.b"],
        subprotocols := ["json", "text"] }
    let block : HeaderBlock :=
      { pseudo := ⟨some "CONNECT", some "https", some "a", some "/chat?q?", some "WebSocket", none⟩
        fields := [("origin", utf8 "HTTPS://a.b"), ("sec-websocket-protocol", utf8 " xml , TEXT"),
          ("sec-websocket-version", utf8 "13")] }
    let d := fresh config .willing
    let d' := d.after (.frame (.headers 3 block false))
    block.Asks ∧ config.Admits block false ∧ d.Approves d' 3 ∧
      ∃ selected, config.Selects block selected ∧ d' = d.admitted 3 block.path selected none ∧
        (d'.channels.get? 1).map (·.subprotocol) = some (some "text") := by
  intro config block d d'
  have hasks : block.Asks := ⟨rfl, _, rfl, by decide⟩
  have hproper : block.Proper false := ⟨rfl, by decide, by decide, .inr (by decide)⟩
  have hspeaks : config.Speaks block :=
    .inr ⟨"text", by decide, "TEXT", by decide +kernel, by decide⟩
  have hwelcomes : config.Welcomes block :=
    .inr ⟨"HTTPS://a.b", by decide, "https://a.b", by decide, by decide⟩
  have hadmits : config.Admits block false := ⟨hproper, .inr (by decide), hwelcomes, hspeaks⟩
  obtain ⟨-, hasked⟩ := server_admission_follows_policy (rfl : start config .willing = .ok d) rfl []
    (rfl : d.registry.get? 3 = none) block false
  obtain ⟨happroves, -, hadmitted⟩ := hasked hasks
  obtain ⟨selected, hselects, -, htaken, -⟩ := hadmitted hadmits
  exact ⟨hasks, hadmits, happroves.mpr hadmits, selected, hselects, (htaken rfl).1,
    by decide +kernel⟩

end Connection

end ChannelMux
