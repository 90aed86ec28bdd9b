import ChannelMux.Proofs.Admission
import ChannelMux.Proofs.Compression
import ChannelMux.Proofs.Dispatch
import ChannelMux.Proofs.Guards

/-!
# Agreement: both ends of a handshake come to the same result

A client asks for a conversation, a server answers, and the client reads the answer.  Whatever the
two are configured to want, either both have an open channel on the same terms, or the server has
none and the client's is closed with the status as the cause.
-/

namespace ChannelMux

/-- Two channels are open on one stream and state the same terms. -/
structure Channel.Agrees (s : StreamId) (ch ch' : Channel) : Prop where
  opened : ch.closed = false ∧ ch'.closed = false
  stream : ch.stream = s ∧ ch'.stream = s
  complete : ch.handshake = .complete ∧ ch'.handshake = .complete
  subprotocol : ch.subprotocol = ch'.subprotocol
  compression : ch.compression = ch'.compression

namespace Connection

open Connect

variable {c d : Connection} {id other : ChannelId} {ch : Channel} {s : StreamId} {path : String}
  {subprotocol : Option String} {compression : Option Deflate.Terms} {status : Nat}

/-- The encoder refuses nothing, whatever was handed to it before. -/
def Unrefused (c : Connection) : Prop := ∀ log call, c.encoder.fault log call = none

/-- The terms of compression that are preferred, if any, can be stated. -/
def StatesTerms (c : Connection) : Prop := ∀ t, c.config.compression = some t → t.InRange

/-! ## The request -/

/-- The channel that asks for a conversation, before it has a stream. -/
def askingChannel (c : Connection) (path : String) (subprotocol : Option String) : Channel :=
  { c.newChannel path with requested := subprotocol }

/-- The request for a conversation. -/
def request (c : Connection) (path : String) (subprotocol : Option String) : Request :=
  c.requestFor (c.askingChannel path subprotocol)

/-- The connection after its request was sent. -/
def requesting (c : Connection) (path : String) (subprotocol : Option String) : Connection :=
  { c with
    channels := c.channels.insert c.nextChannel { c.askingChannel path subprotocol with
      stream := c.nextStream
      handshake := .requestSent }
    nextChannel := c.nextChannel + 1
    registry := c.registry.insert c.nextStream c.nextChannel
    timers := c.askingTimers
    stats := { c.stats with opened := c.stats.opened + 1 }
    journal := ((c.journal.push
      (.wire (some c.nextChannel) ⟨.reserve c.nextStream, none⟩)).push
      (.wire (some c.nextChannel)
        ⟨.headers c.nextStream (c.request path subprotocol).toHeaders false, none⟩)).push
      (.wire none ⟨.flush, none⟩) }

theorem reserve_of_unrefused (h : c.Unrefused) (id : ChannelId) :
    c.reserve id = (.ok c.nextStream, c.note (.wire (some id) ⟨.reserve c.nextStream, none⟩)) := by
  rw [reserve, submit, h]
  rfl

theorem submit_of_unrefused (h : c.Unrefused) (owner : Option ChannelId) (call : WireCall) :
    c.submit owner call = (none, c.note (.wire owner ⟨call, none⟩)) := by
  rw [submit, h]

/-- The request of a channel that is the first to be asked for is sent at once. -/
theorem startHandshake_of_unrefused (h : c.Unrefused) (hch : c.channels.get? id = some ch)
    (hweight : ch.cachedWeight = none) : c.startHandshake id = { c with
      channels := c.channels.insert id
        { ch with stream := c.nextStream, cachedWeight := none, handshake := .requestSent }
      registry := c.registry.insert c.nextStream id
      journal := ((c.journal.push (.wire (some id) ⟨.reserve c.nextStream, none⟩)).push
        (.wire (some id) ⟨.headers c.nextStream (c.requestFor ch).toHeaders false, none⟩)).push
        (.wire none ⟨.flush, none⟩) } := by
  have hreserve := reserve_of_unrefused h id
  have hnoted : (c.note (.wire (some id) ⟨.reserve c.nextStream, none⟩)).channels.get? id =
      some ch := hch
  rw [startHandshake, hreserve]
  dsimp only
  rw [hnoted]
  dsimp only
  split
  next f d hsub =>
    have hassigned : ((c.note (.wire (some id) ⟨.reserve c.nextStream, none⟩)).assignStream id
        c.nextStream).Unrefused := h
    cases hsub.symm.trans (submit_of_unrefused hassigned _ _)
  next d hsub =>
    have hd := get?_assigned hch hreserve hsub
    rw [hweight, updateChannel_eq hd, assigned_eq hch hreserve hsub]
    dsimp only
    rw [Table.insert_insert]
    rfl

theorem openStream_of_unrefused (h : c.Unrefused) (hsettings : c.peer.settingsReceived = true)
    (hopened : (c.openStream path subprotocol).1 = .ok id) :
    c.config.role = .client ∧ id = c.nextChannel ∧
      (c.openStream path subprotocol).2 = c.requesting path subprotocol := by
  rcases openStream_cases c path subprotocol with ⟨f, heq⟩ | ⟨hrole, -, -, -, heq⟩
  · rw [heq] at hopened
    cases hopened
  · rw [heq] at hopened ⊢
    have hunrefused : (c.addAsking path subprotocol).2.Unrefused := by
      rw [addAsking_eq]
      exact h
    refine ⟨hrole, (Except.ok.inj hopened).symm, ?_⟩
    rw [if_pos hsettings]
    refine (startHandshake_of_unrefused hunrefused (get?_addAsking path subprotocol) rfl).trans ?_
    rw [addAsking_eq, requesting]
    dsimp only
    rw [Table.insert_insert]
    rfl

/-! ## The answer -/

@[simp] theorem protocol_request (c : Connection) (path : String) (subprotocol : Option String) :
    (c.request path subprotocol).arrived.protocol = some websocket := rfl

/-- A request arrives as one for a conversation. -/
theorem candidate?_request (c : Connection) (path : String) (subprotocol : Option String) :
    candidate? (c.request path subprotocol).toHeaders =
      some (c.request path subprotocol).arrived := by
  rw [candidate?, Request.ofHeaders?_toHeaders]
  change (some (c.request path subprotocol).arrived).filter _ = _
  rw [Option.filter_some, if_pos]
  rw [Request.isWebSocket, protocol_request, Option.any_some]
  exact Text.sameIgnoringCase_self websocket

theorem after_request (hserver : d.config.role = .server) (hfree : d.registry.get? s = none) :
    d.after (.frame (.headers s (c.request path subprotocol).toHeaders false)) =
      { d with reading := true }.answerRequest s (c.request path subprotocol).arrived false := by
  rw [after_headers hserver hfree, candidate?_request]
  rfl

theorem accept_of_unrefused (h : d.Unrefused) (s : StreamId) (path : String)
    (subprotocol : Option String) (compression : Option Deflate.Terms) :
    d.accept s path subprotocol compression = { d.enrol s path subprotocol compression with
      journal := ((d.journal.push (.wire (some d.nextChannel) ⟨.headers s
          (Response.accepting subprotocol (compression.map (·.responseHeader))).toHeaders false,
            none⟩)).push
        (.wire none ⟨.flush, none⟩)).push
        (.event ⟨d.nextChannel, .opened s path subprotocol⟩)
      stats := { d.stats with accepted := d.stats.accepted + 1 } } := by
  have henrolled : (d.enrol s path subprotocol compression).Unrefused := h
  rw [accept_eq, submit_of_unrefused henrolled]
  rfl

theorem refuse_of_unrefused (h : d.Unrefused) (s : StreamId) (status : Nat) :
    d.refuse s status = { d with
      journal := (d.journal.push
        (.wire none ⟨.headers s (Response.refusing status).toHeaders true, none⟩)).push
        (.wire none ⟨.flush, none⟩) } := by
  rw [refuse, submit_of_unrefused h]
  rfl

/-! ## The reading of the answer -/

theorem after_headers_of_requestSent (hr : c.registry.get? s = some (.active id))
    (hch : c.channels.get? id = some ch) (hsent : ch.handshake = .requestSent)
    (block : HeaderBlock) (endStream : Bool) : c.after (.frame (.headers s block endStream)) =
      { c with reading := true }.responseArrived id block endStream := by
  have hread : ({ c with reading := true } : Connection).channels.get? id = some ch := hch
  change c.frameArrived (.headers s block endStream) = _
  rw [frameArrived.eq_def]
  dsimp only [Frame.stream]
  rw [hr]
  dsimp only
  rw [channelFrame.eq_def]
  dsimp only
  rw [headersArrived, hread]
  dsimp only
  rw [if_pos hsent]

/-- A handshake that fails is reported once, with its cause. -/
theorem eventsOf_failHandshake (hch : c.channels.get? id = some ch) (ho : ch.closed = false)
    (cause : Fault) :
    (c.failHandshake id cause).journal.eventsOf id = c.journal.eventsOf id ++ [.failed cause] := by
  obtain ⟨d, heq, hself, hreport⟩ := failHandshake_closes hch ho cause
  obtain ⟨es, hes, hclosing⟩ := closing_close hself ho .reset
  have hsilent : es.filterMap (Entry.reportOf? id) = [] := by cases hclosing <;> rfl
  have hreported : [Entry.event ⟨id, .failed cause⟩].filterMap (Entry.reportOf? id) =
      [.failed cause] := by simp [Entry.reportOf?]
  rw [heq, Journal.eventsOf_eq, Journal.eventsOf_eq, hes, List.filterMap_append,
    List.filterMap_append, hsilent, hreport, Journal.entries_push, List.filterMap_append, hreported]
  exact List.append_nil _

theorem get?_failHandshake_self (hch : c.channels.get? id = some ch) (ho : ch.closed = false)
    (cause : Fault) :
    ∃ ch', (c.failHandshake id cause).channels.get? id = some ch' ∧ ch'.closed = true := by
  obtain ⟨d, heq, hself, -⟩ := failHandshake_closes hch ho cause
  exact ⟨_, heq ▸ get?_close_self hself ho .reset, rfl⟩

/-- A conversation that is accepted before anything was written for it. -/
theorem get?_completeHandshake (hch : c.channels.get? id = some ch) (hparked : ch.parked = {})
    (response : Response) (compression : Option Deflate.Terms) :
    (c.completeHandshake id response compression).channels.get? id = some { ch with
      handshake := .complete
      subprotocol := response.protocol
      compression := compression
      parked := .done
      unflushed := false } := by
  rw [completeHandshake, hch]
  dsimp only
  rw [hparked]
  have hnothing : ({} : Parked).take.1.getD [] = [] := rfl
  rw [hnothing, replay, flushChannel]
  change (Connection.updateChannel _ id _).channels.get? id = _
  rw [get?_updateChannel, if_pos rfl]
  change ((c.updateChannel id _).channels.get? id).map _ = _
  rw [get?_updateChannel, if_pos rfl, hch]
  rfl

section

variable {block : HeaderBlock} {endStream : Bool} (hr : c.registry.get? s = some (.active id))
  (hch : c.channels.get? id = some ch) (hsent : ch.handshake = .requestSent)
include hr hch hsent

/-- The client reads an answer that accepts the conversation. -/
theorem get?_after_accepting {response : Response} (hparked : ch.parked = {})
    (hresponse : Response.ofHeaders block endStream ch.requested = .ok response)
    (haccept : c.acceptExtensions response.extensions = .ok compression) :
    (c.after (.frame (.headers s block endStream))).channels.get? id = some { ch with
      handshake := .complete
      subprotocol := response.protocol
      compression := compression
      parked := .done
      unflushed := false } := by
  have hread : ({ c with reading := true } : Connection).channels.get? id = some ch := hch
  have haccept : ({ c with reading := true } : Connection).acceptExtensions response.extensions =
      .ok compression := haccept
  rw [after_headers_of_requestSent hr hch hsent, responseArrived, hread]
  dsimp only
  rw [hresponse]
  dsimp only
  rw [haccept]
  exact get?_completeHandshake hread hparked response compression

/-- The client reads an answer that does not accept the conversation. -/
theorem closed_after_refusing {fault : HandshakeFault} (ho : ch.closed = false)
    (hresponse : Response.ofHeaders block endStream ch.requested = .error fault) :
    let c' := c.after (.frame (.headers s block endStream))
    (∃ ch', c'.channels.get? id = some ch' ∧ ch'.closed = true) ∧
      c'.journal.eventsOf id = c.journal.eventsOf id ++ [.failed (.handshake fault)] := by
  have hread : ({ c with reading := true } : Connection).channels.get? id = some ch := hch
  have hfailed : c.after (.frame (.headers s block endStream)) =
      { c with reading := true }.failHandshake id (.handshake fault) := by
    rw [after_headers_of_requestSent hr hch hsent, responseArrived, hread]
    dsimp only
    rw [hresponse]
  intro c'
  rw [show c' = _ from hfailed]
  exact ⟨get?_failHandshake_self hread ho _, eventsOf_failHandshake hread ho _⟩

end

/-! ## Both ends -/

/-- Of the terms that the server grants, the client reads the same. -/
theorem acceptExtensions_grant (hc : c.StatesTerms) (hd : d.StatesTerms)
    {granted : Option Deflate.Terms}
    (h : d.config.grantCompression (c.request path subprotocol).arrived.extensions = granted) :
    (∀ header, granted.map (·.responseHeader) = some header → isPlainText header = true) ∧
      c.acceptExtensions (granted.map (·.responseHeader)) = .ok granted := by
  have hoffer : (c.request path subprotocol).arrived.extensions =
      (c.config.compression.map (·.offerHeader)).filter isPlainText := rfl
  rw [hoffer, Config.grantCompression.eq_def] at h
  cases hown : d.config.compression with
  | none =>
    rw [hown] at h
    subst h
    exact ⟨nofun, rfl⟩
  | some own =>
    cases hwish : c.config.compression with
    | none =>
      rw [hown, hwish] at h
      subst h
      exact ⟨nofun, rfl⟩
    | some wish =>
      have hrange := hc wish hwish
      have hplain : isPlainText wish.offerHeader = true :=
        hrange.isPlainText_render fun _ => Deflate.Terms.states_offer
      rw [hown, hwish, Option.map_some, Option.filter_some, if_pos hplain] at h
      obtain rfl := (Deflate.Terms.negotiate_offerHeader own hrange).symm.trans h
      refine ⟨?_, ?_⟩
      · rintro _ ⟨rfl⟩
        exact ((hd own hown).grant hrange).isPlainText_render fun _ => Deflate.Terms.states_response
      · rw [Option.map_some, acceptExtensions, hwish]
        dsimp only
        rw [Deflate.Terms.accept_grant (hd own hown) hrange]

/-- A client that is answered on the terms of its own request completes its handshake with them. -/
theorem ofHeaders_verdict {selected extensions : Option String} {endStream : Bool}
    (h : d.config.verdict (c.request path subprotocol).arrived endStream = .ok selected)
    (hextensions : ∀ header, extensions = some header → isPlainText header = true) :
    Response.ofHeaders (Response.accepting selected extensions).toHeaders false subprotocol =
      .ok (Response.accepting selected extensions) := by
  refine Response.ofHeaders_accepting (fun own hown => ?_) hextensions
  subst hown
  obtain ⟨list, entry, hlist, hentry, hsame⟩ := Config.offered_of_verdict h
  have harrived : subprotocol.filter isPlainText = some list := hlist
  obtain ⟨rfl, hplain⟩ := Option.filter_eq_some_iff.mp harrived
  exact ⟨isPlainText_of_offered hentry hsame hplain, selects_of_offered hentry hsame⟩

/-- The connection `d'` holds the same channels as `d`, and `c'`, which has read the status that
was sent as the answer, has closed its channel for that reason. -/
structure Declined (status : Nat) (c c' : Connection) (id : ChannelId) (d d' : Connection) :
    Prop where
  isError : 400 ≤ status
  channels : d'.channels = d.channels ∧ d'.nextChannel = d.nextChannel ∧ d'.registry = d.registry
  closed : ∃ ch, c'.channels.get? id = some ch ∧ ch.closed = true
  cause : c'.journal.eventsOf id =
    c.journal.eventsOf id ++ [.failed (.handshake (.statusUnexpected status))]

/-- The channel of a request that was sent. -/
def requestedChannel (c : Connection) (path : String) (subprotocol : Option String) : Channel :=
  { c.askingChannel path subprotocol with stream := c.nextStream, handshake := .requestSent }

theorem get?_requesting (c : Connection) (path : String) (subprotocol : Option String) :
    (c.requesting path subprotocol).registry.get? c.nextStream = some (.active c.nextChannel) ∧
      (c.requesting path subprotocol).channels.get? c.nextChannel =
        some (c.requestedChannel path subprotocol) :=
  ⟨(Registry.get?_insert ..).trans (if_pos rfl), Table.get?_insert_self ..⟩

section

variable (hserver : d.config.role = .server) (hfree : d.registry.get? c.nextStream = none)
  (hd : d.Unrefused)
include hserver hfree hd

theorem agreed_of_verdict {selected : Option String} (hcterms : c.StatesTerms)
    (hdterms : d.StatesTerms)
    (h : d.config.verdict (c.request path subprotocol).arrived false = .ok selected) :
    let d' := d.after
      (.frame (.headers c.nextStream (c.request path subprotocol).toHeaders false))
    ∃ response ch ch',
      d'.journal.entries = d.journal.entries ++
        [.wire (some d.nextChannel) ⟨.headers c.nextStream response false, none⟩,
          .wire none ⟨.flush, none⟩,
          .event ⟨d.nextChannel, .opened c.nextStream ch'.path ch'.subprotocol⟩] ∧
      d'.nextChannel = d.nextChannel + 1 ∧
      d'.registry.get? c.nextStream = some (.active d.nextChannel) ∧
      d'.channels.get? d.nextChannel = some ch' ∧
      ((c.requesting path subprotocol).after
        (.frame (.headers c.nextStream response false))).channels.get? c.nextChannel = some ch ∧
      ch.Agrees c.nextStream ch' := by
  intro d'
  obtain ⟨granted, hgranted⟩ : ∃ granted,
      d.config.grantCompression (c.request path subprotocol).arrived.extensions = granted :=
    ⟨_, rfl⟩
  obtain ⟨hplain, haccept⟩ := acceptExtensions_grant hcterms hdterms hgranted
  obtain ⟨hr, hch⟩ := get?_requesting c path subprotocol
  have hunrefused : ({ d with reading := true } : Connection).Unrefused := hd
  have hanswered : d' = { d with reading := true }.accept c.nextStream
      (c.request path subprotocol).arrived.path selected granted := by
    change d.after _ = _
    rw [after_request hserver hfree, answerRequest]
    dsimp only
    rw [h, hgranted]
  have hheard := get?_after_accepting hr hch rfl rfl (ofHeaders_verdict h hplain) haccept
  rw [accept_of_unrefused hunrefused] at hanswered
  refine ⟨(Response.accepting selected (granted.map Deflate.Terms.responseHeader)).toHeaders,
    { c.requestedChannel path subprotocol with
      handshake := .complete
      subprotocol := selected
      compression := granted
      parked := .done
      unflushed := false },
    d.enrolledChannel c.nextStream (c.request path subprotocol).arrived.path selected granted, ?_⟩
  rw [hanswered]
  refine ⟨by simp [enrolledChannel, newChannel], rfl, (Registry.get?_insert ..).trans (if_pos rfl),
    Table.get?_insert_self .., hheard, ?_⟩
  exact
    { opened := ⟨rfl, rfl⟩
      stream := ⟨rfl, rfl⟩
      complete := ⟨rfl, handshake_enrolledChannel hserver _ _ _ _⟩
      subprotocol := rfl
      compression := rfl }

theorem declined_of_verdict
    (h : d.config.verdict (c.request path subprotocol).arrived false = .error status) :
    let response := (Response.refusing status).toHeaders
    let c' := c.requesting path subprotocol
    let d' := d.after (.frame (.headers c.nextStream (c.request path subprotocol).toHeaders false))
    d'.journal.entries = d.journal.entries ++
      [.wire none ⟨.headers c.nextStream response true, none⟩, .wire none ⟨.flush, none⟩] ∧
    Declined status c' (c'.after (.frame (.headers c.nextStream response true))) c.nextChannel
      d d' := by
  intro response c' d'
  obtain ⟨hr, hch⟩ := get?_requesting c path subprotocol
  have hstatus := Config.status_of_verdict h
  have hunrefused : ({ d with reading := true } : Connection).Unrefused := hd
  have hanswered : d' = { d with reading := true }.refuse c.nextStream status := by
    change d.after _ = _
    rw [after_request hserver hfree, answerRequest]
    dsimp only
    rw [h]
  obtain ⟨hclosed, hcause⟩ := closed_after_refusing hr hch rfl rfl
    (Response.ofHeaders_refusing (by omega : status ≠ 200) true subprotocol)
  rw [refuse_of_unrefused hunrefused] at hanswered
  rw [hanswered]
  exact ⟨by simp [response], hstatus, ⟨rfl, rfl, rfl⟩, hclosed, hcause⟩

end

/-- A client opens a channel when the peer's settings have arrived, so that its request goes out at
once; a server, on which the stream is free, answers; and the client reads the answer.  Neither
encoder refuses anything, and the compression that either prefers has windows that can be stated;
for the rest their configurations are arbitrary, and so are the texts that the client asks with.

Then either the server has made a channel, and both have one that is open on this stream with the
same subprotocol and the same terms of compression; or it has made none and has ended the stream
with the status of an error, and the client has closed its channel with this status as the cause. -/
theorem handshake_agrees (hopened : (c.openStream path subprotocol).1 = .ok id)
    (hsettings : c.peer.settingsReceived = true) (hserver : d.config.role = .server)
    (hfree : d.registry.get? c.nextStream = none) (hc : c.Unrefused) (hd : d.Unrefused)
    (hcterms : c.StatesTerms) (hdterms : d.StatesTerms) :
    let s := c.nextStream
    let block := (c.request path subprotocol).toHeaders
    let c' := c.after (.openStream path subprotocol)
    let d' := d.after (.frame (.headers s block false))
    c'.journal.entries = c.journal.entries ++
      [.wire (some id) ⟨.reserve s, none⟩, .wire (some id) ⟨.headers s block false, none⟩,
        .wire none ⟨.flush, none⟩] ∧
    ((∃ response ch ch',
        d'.journal.entries = d.journal.entries ++
          [.wire (some d.nextChannel) ⟨.headers s response false, none⟩,
            .wire none ⟨.flush, none⟩,
            .event ⟨d.nextChannel, .opened s ch'.path ch'.subprotocol⟩] ∧
        d'.nextChannel = d.nextChannel + 1 ∧
        d'.registry.get? s = some (.active d.nextChannel) ∧
        d'.channels.get? d.nextChannel = some ch' ∧
        (c'.after (.frame (.headers s response false))).channels.get? id = some ch ∧
        ch.Agrees s ch') ∨
      ∃ status,
        let response := (Response.refusing status).toHeaders
        d'.journal.entries = d.journal.entries ++
          [.wire none ⟨.headers s response true, none⟩, .wire none ⟨.flush, none⟩] ∧
        Declined status c' (c'.after (.frame (.headers s response true))) id d d') := by
  intro s block c' d'
  obtain ⟨hclient, rfl, hrequesting⟩ := openStream_of_unrefused hc hsettings hopened
  have hc' : c' = c.requesting path subprotocol := hrequesting
  refine ⟨by rw [hc']; simp [requesting, block, s], ?_⟩
  rw [hc']
  cases h : d.config.verdict (c.request path subprotocol).arrived false with
  | ok selected => exact .inl (agreed_of_verdict hserver hfree hd hcterms hdterms h)
  | error status => exact .inr ⟨status, declined_of_verdict hserver hfree hd h⟩

/-- The server selects its own spelling of the second name that the client asks for, and grants the
small windows that it prefers itself. -/
theorem chat_is_agreed_upon :
    let c := (fresh { compression := some {} } .willing).after
      (.frame (.settings { extendedConnect := some true }))
    let d := fresh { role := .server, subprotocols := ["chat"], compression := some .lowMemory }
      .willing
    let c' := c.after (.openStream "/room" (some "superchat, Chat"))
    let d' := d.after
      (.frame (.headers 3 (c.request "/room" (some "superchat, Chat")).toHeaders false))
    ∃ response ch ch',
      .wire (some 1) ⟨.headers 3 response false, none⟩ ∈ d'.journal.entries ∧
      d'.channels.get? 1 = some ch' ∧
      (c'.after (.frame (.headers 3 response false))).channels.get? 1 = some ch ∧
      ch.Agrees 3 ch' ∧ ch'.subprotocol = some "chat" ∧ ch'.compression = some .lowMemory := by
  intro c d c' d'
  have hterms : ∀ t ∈ c.config.compression, t.InRange := by
    rintro _ ⟨rfl⟩
    exact ⟨by decide, by decide, by decide, by decide⟩
  have hown : ∀ t ∈ d.config.compression, t.InRange := by
    rintro _ ⟨rfl⟩
    exact ⟨by decide, by decide, by decide, by decide⟩
  obtain ⟨-, hagree⟩ := handshake_agrees (c := c) (d := d) (by rfl :
    (c.openStream "/room" (some "superchat, Chat")).1 = .ok 1) rfl rfl rfl (fun _ _ => rfl)
      (fun _ _ => rfl) hterms hown
  have hstream : c.nextStream = 3 := by decide
  rw [hstream] at hagree
  have hmade : (d'.channels.get? 1).map (fun ch => (ch.subprotocol, ch.compression)) =
      some (some "chat", some .lowMemory) := by decide +kernel
  rcases hagree with ⟨response, ch, ch', hjournal, -, -, hch', hch, hagrees⟩ |
    ⟨status, -, hdeclined⟩
  · have hch' : d'.channels.get? 1 = some ch' := hch'
    rw [hch', Option.map_some] at hmade
    obtain ⟨hsubprotocol, hcompression⟩ := Prod.mk.inj (Option.some.inj hmade)
    have hsent : .wire (some 1) ⟨.headers 3 response false, none⟩ ∈ d'.journal.entries := by
      simp only [d']
      rw [hjournal]
      exact List.mem_append_right _ List.mem_cons_self
    exact ⟨response, ch, ch', hsent, hch', hch, hagrees, hsubprotocol, hcompression⟩
  · have hnone : d'.channels = .empty := hdeclined.channels.1
    rw [hnone] at hmade
    cases hmade

end Connection

end ChannelMux
