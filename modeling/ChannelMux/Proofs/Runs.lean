import ChannelMux.Connection.Call

/-!
# Runs that respect their surroundings

Some laws of a connection rely on two things that others see to: headers do not arrive on stream
zero, and the encoder reserves streams that are in use for nothing else.  `Orderly` says this of
one call and `OrderlyRun` of a run.  A call may reserve several streams, one for each request that
waited for the peer's settings, so the second condition is about the states in which it does so.
-/

namespace ChannelMux

/-- An encoder that refuses nothing and reserves an unused stream each time. -/
def Encoder.willing : Encoder where
  active _ := true
  writable _ := true
  nextStream log := 2 * log.length + 1
  fault _ _ := none

/-- An encoder that refuses data and nothing else. -/
def Encoder.full : Encoder :=
  { willing with
    fault := fun _ call =>
      match call with
      | .data .. => some (.stated "full")
      | _ => none }

/-- A client opens a conversation on stream 3, and the server accepts it. -/
def Call.opening : List Call :=
  [.frame (.settings { extendedConnect := some true }), .openStream "/chat" none,
    .frame (.headers 3 (.ofStatus 200) false)]

/-- After the conversation began the client writes, and the server ends its half with an item. -/
def Call.cutOff : List Call := opening ++ [.write 1 [1], .frame (.data 3 [2] 0 true)]

/-- The call may send requests: that of a new channel, or those that waited for the settings. -/
def Call.asks : Call → Bool
  | frame (.settings _) | openStream .. => true
  | _ => false

/-- The call is the arrival of headers on stream zero. -/
def Call.isHeadersOnZero : Call → Bool
  | frame (.headers stream ..) => stream = 0
  | _ => false

namespace Connection

/-- The states in which the requests of channels are decided one after another. -/
def decidingStates : List ChannelId → Connection → List Connection
  | [], _ => []
  | id :: ids, c => c :: decidingStates ids (c.decideDeferred id)

/-- The states in which a call reserves a stream, in their order. -/
def reservingStates (c : Connection) : Call → List Connection
  | .openStream path subprotocol =>
    if c.config.role = .client ∧ c.goingAway = none ∧ c.isActive ∧ c.peer.settingsReceived ∧
        c.peer.extendedConnect then
      [(c.addAsking path subprotocol).2]
    else []
  | .frame (.settings s) =>
    let c := { c with reading := true }.noteSettings s
    (decidingStates (c.openChannels.filter c.isAwaitingSettings) c).filter fun d =>
      d.peer.extendedConnect
  | _ => []

/-- The stream that the encoder would reserve next. -/
def nextStream (c : Connection) : StreamId := c.encoder.nextStream c.journal.wire

/-- Reserving a stream either fails or gives one that is not zero and not registered. -/
def ReservesFresh (c : Connection) : Prop :=
  c.encoder.fault c.journal.wire (.reserve c.nextStream) = none →
    c.nextStream ≠ 0 ∧ c.registry.get? c.nextStream = none

instance (c : Connection) : Decidable c.ReservesFresh := inferInstanceAs (Decidable (_ → _))

def Orderly (c : Connection) (k : Call) : Prop :=
  k.isHeadersOnZero = false ∧ ∀ d ∈ c.reservingStates k, d.ReservesFresh

instance (c : Connection) (k : Call) : Decidable (c.Orderly k) :=
  inferInstanceAs (Decidable (_ ∧ _))

def OrderlyRun : Connection → List Call → Prop
  | _, [] => True
  | c, k :: ks => c.Orderly k ∧ (c.after k).OrderlyRun ks

instance instDecidableOrderlyRun : (c : Connection) → (ks : List Call) → Decidable (c.OrderlyRun ks)
  | _, [] => inferInstanceAs (Decidable True)
  | c, k :: ks =>
    have := instDecidableOrderlyRun (c.after k) ks
    inferInstanceAs (Decidable (_ ∧ _))

/-! ## Less than orderly -/

/-- The part of `Orderly` that a connection of its role depends on: headers on stream zero matter
only to a server, which could open a conversation for them. -/
def Careful (c : Connection) (k : Call) : Prop :=
  (c.config.role = .server → k.isHeadersOnZero = false) ∧
    ∀ d ∈ c.reservingStates k, d.ReservesFresh

theorem Orderly.careful {c : Connection} {k : Call} (h : c.Orderly k) : c.Careful k :=
  ⟨fun _ => h.1, h.2⟩

def CarefulRun : Connection → List Call → Prop
  | _, [] => True
  | c, k :: ks => c.Careful k ∧ (c.after k).CarefulRun ks

theorem OrderlyRun.careful {c : Connection} {ks : List Call} (h : c.OrderlyRun ks) :
    c.CarefulRun ks := by
  induction ks generalizing c with
  | nil => trivial
  | cons k ks ih => exact ⟨h.1.careful, ih h.2⟩

theorem carefulRun_append {c : Connection} {ks ls : List Call} :
    c.CarefulRun (ks ++ ls) ↔ c.CarefulRun ks ∧ (c.run ks).CarefulRun ls := by
  induction ks generalizing c with
  | nil => exact ⟨fun h => ⟨trivial, h⟩, fun h => h.2⟩
  | cons k ks ih =>
    rw [List.cons_append, CarefulRun, CarefulRun, ih, and_assoc]
    rfl

/-! ## What arrives for a channel -/

/-- The call is the arrival of a response which accepts the conversation of the channel for which
the stream is registered. -/
def Answers (c : Connection) (k : Call) (id : ChannelId) (stream : StreamId) : Prop :=
  ∃ block endStream ch response compression,
    k = .frame (.headers stream block endStream) ∧
    c.registry.get? stream = some (.active id) ∧
    c.channels.get? id = some ch ∧ ch.handshake = .requestSent ∧
    Connect.Response.ofHeaders block endStream ch.requested = .ok response ∧
    c.acceptExtensions response.extensions = .ok compression

/-- The payload that a call brings for a channel: that of a DATA frame on a stream which is
registered for the channel, unless the frame breaks a rule. -/
def arriving (c : Connection) (id : ChannelId) : Call → List Bytes
  | .frame (.data stream payload padding _) =>
    if c.registry.get? stream = some (.active id) ∧
        ((c.channels.get? id).any fun ch => ch.dataViolation? padding = none) then
      [payload]
    else []
  | _ => []

/-- The payloads that the calls of a run bring for a channel, in their order. -/
def arrivals (id : ChannelId) : Connection → List Call → List Bytes
  | _, [] => []
  | c, k :: ks => c.arriving id k ++ arrivals id (c.after k) ks

theorem arrivals_append (c : Connection) (id : ChannelId) (ks ls : List Call) :
    arrivals id c (ks ++ ls) = arrivals id c ks ++ arrivals id (c.run ks) ls := by
  induction ks generalizing c with
  | nil => rfl
  | cons k ks ih =>
    rw [List.cons_append, arrivals, arrivals, ih, List.append_assoc]
    rfl

end Connection

end ChannelMux
