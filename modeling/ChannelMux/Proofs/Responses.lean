import ChannelMux.Proofs.Fields
import ChannelMux.Proofs.Openings
import ChannelMux.Proofs.StreamSteps

/-!
# Responses: what a client sends before it is answered

DATA belongs on a stream of which the conversation was accepted.  A client parks what is written
before the response has arrived, so that no payload is sent too early; and the empty frame that ends
our half is sent where the peer has ended its half, which it cannot do before it has answered.

Closing gracefully is the exception.  It ends our half of the stream without asking whether the
response has arrived, so a channel that still waits for it is closed with DATA on a stream that the
peer has not answered.
-/

namespace ChannelMux

/-- An open channel of a client: without its request it has no stream, without the response it has
received nothing, and where its handshake has ended the response has arrived. -/
structure Channel.Patient (ch : Channel) (answered : StreamId → Prop) : Prop where
  waiting : ch.handshake = .awaitingSettings → ch.stream = 0
  pending : ch.handshake.isPending = true → ch.inboundClosed = false
  decided : ch.handshake.isPending = false → answered ch.stream

theorem Channel.Patient.unmoved {ch ch' : Channel} {answered answered' : StreamId → Prop}
    (h : ch.Patient answered) (hsame : ch.Unmoved ch') (himp : ∀ s, answered s → answered' s) :
    ch'.Patient answered' where
  waiting ha := by
    rw [hsame.stream]
    exact h.waiting (hsame.handshake ▸ ha)
  pending hp := by
    rw [hsame.handshake] at hp
    rw [hsame.inboundClosed hp]
    exact h.pending hp
  decided hp := by
    rw [hsame.stream]
    exact himp _ (h.decided (hsame.handshake ▸ hp))

/-- Unless the peer has ended its half, DATA closes a channel only gracefully. -/
theorem Channel.graceful_of_closingFrame {ch : Channel} {kind : CloseKind} {active : Bool}
    (h : ch.closingFrame kind active = some .endStream) (hin : ch.inboundClosed = false) :
    kind = .graceful := by
  unfold closingFrame at h
  rw [hin] at h
  split at h
  · cases h
  · cases kind with
    | graceful => rfl
    | reset | remote => cases h

theorem Entry.bearer?_of_isLight {role : Role} {e : Entry} (h : e.isLight role = true) :
    e.bearer? = none := by
  cases e with
  | wire owner entry =>
    obtain ⟨call, fault⟩ := entry
    cases call with
    | data | reset => cases h
    | _ => rfl
  | event | delivered | closed => rfl

namespace Connection

variable {strict : Prop} {k : Cause} {c c₀ d : Connection} {id j : ChannelId} {ch ch' : Channel}
  {ks : List Call} {l : Call}

/-! ## Streams lead to their channels -/

/-- The channel for which a stream is registered has asked for this stream. -/
structure Homed (c : Connection) : Prop where
  known : ∀ id ch, c.channels.get? id = some ch → id < c.nextChannel
  numbered : ∀ s id, c.registry.get? s = some (.active id) → id < c.nextChannel
  home : ∀ s id ch, c.registry.get? s = some (.active id) → c.channels.get? id = some ch →
    ch.handshake ≠ .awaitingSettings ∧ ch.stream = s

namespace Homed

/-- Nothing was entered, and the channels are where they were. -/
theorem of_back (h : c.Homed) (hnext : c.nextChannel ≤ d.nextChannel)
    (hregistry : ∀ s id, d.registry.get? s = some (.active id) →
      c.registry.get? s = some (.active id))
    (hback : ∀ id ch', d.channels.get? id = some ch' → ∃ ch, c.channels.get? id = some ch ∧
      (ch.handshake ≠ .awaitingSettings → ch'.handshake ≠ .awaitingSettings) ∧
      ch'.stream = ch.stream) : d.Homed where
  known id ch' hch' := by
    obtain ⟨ch, hch, -⟩ := hback id ch' hch'
    exact Nat.lt_of_lt_of_le (h.known id ch hch) hnext
  numbered s id hs := Nat.lt_of_lt_of_le (h.numbered s id (hregistry s id hs)) hnext
  home s id ch' hs hch' := by
    obtain ⟨ch, hch, hasked, hstream⟩ := hback id ch' hch'
    obtain ⟨ha, hhome⟩ := h.home s id ch (hregistry s id hs) hch
    exact ⟨hasked ha, hstream.trans hhome⟩

theorem insert (h : c.Homed) (hch : c.channels.get? id = some ch)
    (hchannels : d.channels = c.channels.insert id ch') (hregistry : d.registry = c.registry)
    (hnext : d.nextChannel = c.nextChannel) (hstream : ch'.stream = ch.stream)
    (hasked : ch.handshake ≠ .awaitingSettings → ch'.handshake ≠ .awaitingSettings) : d.Homed := by
  refine h.of_back (Nat.le_of_eq hnext.symm) (fun _ _ hs => hregistry ▸ hs) fun j e he => ?_
  rw [hchannels] at he
  rcases Table.get?_insert_cases he with ⟨rfl, rfl⟩ | he
  · exact ⟨ch, hch, hasked, hstream⟩
  · exact ⟨e, he, fun ha => ha, rfl⟩

/-- A channel gets the stream that is entered for it; it had none before. -/
theorem entered (h : c.Homed) {stream : StreamId}
    (hchannels : d.channels = c.channels.insert id ch')
    (hregistry : d.registry = c.registry.insert stream id) (hid : id < d.nextChannel)
    (hnext : c.nextChannel ≤ d.nextChannel)
    (hnone : ∀ s, c.registry.get? s ≠ some (.active id)) (hstream : ch'.stream = stream)
    (hasked : ch'.handshake ≠ .awaitingSettings) : d.Homed := by
  have hcases {s : StreamId} {j : ChannelId} (hs : d.registry.get? s = some (.active j)) :
      (s = stream ∧ j = id) ∨ j ≠ id ∧ c.registry.get? s = some (.active j) := by
    rw [hregistry, Registry.get?_insert] at hs
    split at hs
    next heq => exact .inl ⟨heq, (Slot.active.inj (Option.some.inj hs)).symm⟩
    next => exact .inr ⟨fun heq => hnone s (heq ▸ hs), hs⟩
  constructor
  · intro j e he
    rw [hchannels] at he
    rcases Table.get?_insert_cases he with ⟨rfl, -⟩ | he
    · exact hid
    · exact Nat.lt_of_lt_of_le (h.known j e he) hnext
  · intro s j hs
    obtain ⟨-, rfl⟩ | ⟨-, hs⟩ := hcases hs
    · exact hid
    · exact Nat.lt_of_lt_of_le (h.numbered s j hs) hnext
  · intro s j e hs he
    rw [hchannels] at he
    obtain ⟨rfl, rfl⟩ | ⟨hj, hs⟩ := hcases hs
    · rw [Table.get?_insert_self] at he
      rw [← Option.some.inj he]
      exact ⟨hasked, hstream⟩
    · rw [Table.get?_insert_of_ne hj] at he
      exact h.home s j e hs he

theorem close (h : c.Homed) (id : ChannelId) (kind : CloseKind) : (c.close id kind).Homed := by
  rcases close_cases c id kind with ⟨-, heq⟩ | ⟨ch, hch, ho⟩
  · rw [heq]
    exact h
  · obtain ⟨_, _, hclose, -⟩ := close_exact hch ho kind
    rw [hclose]
    refine h.of_back (Nat.le_refl _) (fun s j hs => (get?_retired_eq_active.mp hs).1) ?_
    intro j e he
    rcases Table.get?_insert_cases he with ⟨rfl, rfl⟩ | he
    · exact ⟨ch, hch, fun _ => Handshake.asked_of_decided (Channel.isPending_shut ch kind), rfl⟩
    · exact ⟨e, he, fun ha => ha, rfl⟩

theorem streamStep (h : c.Homed) (hstep : StreamStep strict k c d) : d.Homed := by
  -- a channel that waits for the settings has no stream
  have hunasked {id : ChannelId} {ch : Channel} (hch : c.channels.get? id = some ch)
      (ha : ch.handshake = .awaitingSettings) (s : StreamId) :
      c.registry.get? s ≠ some (.active id) := fun hs => (h.home s id ch hs hch).1 ha
  have hunused (s : StreamId) : c.registry.get? s ≠ some (.active c.nextChannel) :=
    fun hs => Nat.lt_irrefl _ (h.numbered s _ hs)
  cases hstep with
  | calm hcalm =>
    refine h.of_back hcalm.nextChannel (fun s _ hs => (hcalm.registry s).symm.trans hs) ?_
    intro id ch' hch'
    obtain ⟨ch, hch, hsame⟩ := hcalm.channels.back hch'
    exact ⟨ch, hch, fun ha => hsame.handshake ▸ ha, hsame.stream⟩
  | asked path subprotocol =>
    rw [addAsking_eq]
    constructor
    · intro id e he
      rcases Table.get?_insert_cases he with ⟨rfl, -⟩ | he
      · exact Nat.lt_succ_self _
      · exact Nat.lt_succ_of_lt (h.known id e he)
    · exact fun s id hs => Nat.lt_succ_of_lt (h.numbered s id hs)
    · intro s id e hs he
      rcases Table.get?_insert_cases he with ⟨rfl, -⟩ | he
      · exact absurd hs (hunused s)
      · exact h.home s id e hs he
  | requested block hch ho ha =>
    exact h.entered rfl rfl (h.known _ _ hch) (Nat.le_refl _) (hunasked hch ha) rfl (by simp)
  | requestRefused block f ledger hch ho ha =>
    refine Homed.close ?_ _ _
    exact h.entered rfl rfl (h.known _ _ hch) (Nat.le_refl _) (hunasked hch ha) rfl
      (Handshake.asked_of_decided (Channel.isPending_giveUpParked _))
  | enrolled path subprotocol compression block hrole =>
    refine h.entered rfl rfl (Nat.lt_succ_self _) (Nat.le_succ _) hunused rfl ?_
    rw [handshake_enrolledChannel hrole]
    decide
  | answered subprotocol compression parked hch =>
    exact h.insert hch rfl rfl rfl rfl fun _ => by simp
  | ended kind ledger journal hch ho hout =>
    refine Homed.close ?_ _ _
    exact h.insert hch rfl rfl rfl hout.stream hout.handshake
  | tornDown tasks =>
    exact h.of_back (Nat.le_refl _) (fun _ _ hs => hs) fun j e he =>
      ⟨e, Table.get?_of_erase he, fun ha => ha, rfl⟩
  | cleared =>
    refine h.of_back (Nat.le_refl _) (fun s j hs => ?_) fun j e he => ⟨e, he, fun ha => ha, rfl⟩
    rw [show c.clearAll.registry = c.registry.clear from rfl, Registry.get?_clear] at hs
    cases hs
  | expired =>
    exact h.of_back (Nat.le_refl _)
      (fun _ _ hs => Registry.get?_removeClosed_eq_active.mp hs)
      fun j e he => ⟨e, he, fun ha => ha, rfl⟩
  | unreserved | sent | missed => exact ⟨h.known, h.numbered, h.home⟩

end Homed

/-! ## Answers -/

/-- The response that accepts a channel's conversation on the stream arrived in one of the calls,
and all entries that were made before it are among the given ones. -/
def AnsweredIn (c : Connection) (ks : List Call) (xs : List Entry) (id : ChannelId)
    (stream : StreamId) : Prop :=
  ∃ ls block rs, ks = ls ++ .frame (.headers stream block false) :: rs ∧
    block.pseudo.status = some 200 ∧
    (c.run ls).Answers (.frame (.headers stream block false)) id stream ∧
    (c.run ls).journal.entries <+: xs

/-- In one of the calls a channel that waits for its response on the stream is closed gracefully,
and nothing was done between the beginning of this call and these entries. -/
def LeavesUnanswered (c : Connection) (ks : List Call) (xs : List Entry) (id : ChannelId)
    (stream : StreamId) : Prop :=
  ∃ ls rs ch, ks = ls ++ .closeGracefully id :: rs ∧ (c.run ls).channels.get? id = some ch ∧
    ch.closed = false ∧ ch.handshake = .requestSent ∧ ch.stream = stream ∧
    (c.run ls).journal.entries = xs

/-- DATA is sent for channels that were answered, and an empty last frame where a channel is closed
gracefully before it is answered. -/
def DataAllowed (c : Connection) (ks : List Call) (xs : List Entry) (e : Entry) : Prop :=
  ∀ owner write stream payload endStream fault,
    e = .wire owner ⟨.data write stream payload endStream, fault⟩ →
    ∃ id, owner = some id ∧ (c.AnsweredIn ks xs id stream ∨
      payload = [] ∧ endStream = true ∧ c.LeavesUnanswered ks xs id stream)

theorem AnsweredIn.mono {xs ys : List Entry} {stream : StreamId}
    (h : c.AnsweredIn ks xs id stream) (hxs : xs <+: ys) : c.AnsweredIn ks ys id stream := by
  obtain ⟨ls, block, rs, hks, hstatus, hanswers, hle⟩ := h
  exact ⟨ls, block, rs, hks, hstatus, hanswers, hle.trans hxs⟩

theorem AnsweredIn.concat {xs : List Entry} {stream : StreamId}
    (h : c.AnsweredIn ks xs id stream) (k : Call) : c.AnsweredIn (ks ++ [k]) xs id stream := by
  obtain ⟨ls, block, rs, hks, hrest⟩ := h
  exact ⟨ls, block, rs ++ [k], by rw [hks, List.append_assoc, List.cons_append], hrest⟩

theorem DataAllowed.concat {xs : List Entry} {e : Entry} (h : c.DataAllowed ks xs e) (k : Call) :
    c.DataAllowed (ks ++ [k]) xs e := by
  intro owner write stream payload endStream fault he
  obtain ⟨id, howner, hanswered | ⟨hpayload, hend, ls, rs, ch, hks, hrest⟩⟩ :=
    h owner write stream payload endStream fault he
  · exact ⟨id, howner, .inl (hanswered.concat k)⟩
  · exact ⟨id, howner, .inr ⟨hpayload, hend, ls, rs ++ [k], ch,
      by rw [hks, List.append_assoc, List.cons_append], hrest⟩⟩

/-- Such a response has status 200. -/
theorem AnsweredIn.of_answers {xs : List Entry} {stream : StreamId}
    (h : (c.run ks).Answers l id stream) (hxs : (c.run ks).journal.entries <+: xs) :
    c.AnsweredIn (ks ++ [l]) xs id stream := by
  obtain ⟨block, endStream, ch, response, compression, rfl, hs, hch, hhand, hok, hterms⟩ := h
  obtain ⟨hstatus, rfl, -⟩ := Connect.Response.ofHeaders_eq_ok_iff.mp hok
  exact ⟨ks, block, [], rfl, hstatus,
    ⟨block, false, ch, response, compression, rfl, hs, hch, hhand, hok, hterms⟩, hxs⟩

theorem dataAllowed_of_bearer? {e : Entry} (h : e.bearer? = none) (c : Connection)
    (ks : List Call) (xs : List Entry) : c.DataAllowed ks xs e := by
  rintro owner write stream payload endStream fault rfl
  cases h

/-! ## What a client sends -/

/-- Every DATA frame so far was allowed, and so is the next one of every channel. -/
structure Answering (c₀ : Connection) (ks : List Call) (c : Connection) : Prop where
  client : c.config.role = .client
  homed : c.Homed
  frames : c.journal.Obeys (c₀.DataAllowed ks)
  patient : ∀ id ch, c.channels.get? id = some ch → ch.closed = false →
    ch.Patient (c₀.AnsweredIn ks c.journal.entries id)

namespace Answering

theorem of_back (h : Answering c₀ ks c) (hconfig : d.config = c.config) (hhomed : d.Homed)
    (hentries : c.journal.entries <+: d.journal.entries)
    (hframes : d.journal.Obeys (c₀.DataAllowed ks))
    (hback : ∀ id ch', d.channels.get? id = some ch' → ch'.closed = false →
      ch'.Patient (c₀.AnsweredIn ks d.journal.entries id) ∨
        ∃ ch, c.channels.get? id = some ch ∧ ch.Unmoved ch') : Answering c₀ ks d where
  client := by rw [hconfig]; exact h.client
  homed := hhomed
  frames := hframes
  patient id ch' hch' ho := by
    obtain hpatient | ⟨ch, hch, hsame⟩ := hback id ch' hch' ho
    · exact hpatient
    · exact (h.patient id ch hch (hsame.closed.symm.trans ho)).unmoved hsame
        fun _ hanswered => hanswered.mono hentries

/-- Entries that send nothing on a stream are allowed. -/
theorem quiet (h : Answering c₀ ks c) {journal : Journal}
    (hj : c.journal.Extends (fun e => e.bearer? = none) journal) :
    c.journal.entries <+: journal.entries ∧ journal.Obeys (c₀.DataAllowed ks) := by
  refine ⟨?_, h.frames.continued hj fun xs e he => dataAllowed_of_bearer? he _ _ _⟩
  obtain ⟨es, hes, -⟩ := hj
  exact ⟨es, hes.symm⟩

theorem of_quiet (h : Answering c₀ ks c)
    (hj : c.journal.Extends (fun e => e.bearer? = none) d.journal) (hconfig : d.config = c.config)
    (hhomed : d.Homed)
    (hback : ∀ id ch', d.channels.get? id = some ch' → ∃ ch, c.channels.get? id = some ch ∧
      ch.Unmoved ch') : Answering c₀ ks d := by
  obtain ⟨hentries, hframes⟩ := h.quiet hj
  exact h.of_back hconfig hhomed hentries hframes fun id ch' hch' _ => .inr (hback id ch' hch')

/-- What is known of one channel is all that has changed. -/
theorem insert (h : Answering c₀ ks c)
    (hj : c.journal.Extends (fun e => e.bearer? = none) d.journal)
    (hchannels : d.channels = c.channels.insert id ch') (hconfig : d.config = c.config)
    (hhomed : d.Homed) (hpatient : ch'.Patient (c₀.AnsweredIn ks d.journal.entries id)) :
    Answering c₀ ks d := by
  obtain ⟨hentries, hframes⟩ := h.quiet hj
  refine h.of_back hconfig hhomed hentries hframes fun j e he _ => ?_
  rw [hchannels] at he
  rcases Table.get?_insert_cases he with ⟨rfl, rfl⟩ | he
  · exact .inl hpatient
  · exact .inr ⟨e, he, .refl e⟩

/-- A channel is closed, and if that takes DATA, it is allowed. -/
theorem closed (h : Answering c₀ ks c) {kind : CloseKind}
    (hj : c.journal.Extends (fun e => e.bearer? = none) d.journal)
    (hchannels : d.channels = c.channels.insert id ch') (ho : ch'.closed = false)
    (hconfig : d.config = c.config) (hhomed : (d.close id kind).Homed)
    (hframe : ch'.closingFrame kind d.isActive = some .endStream →
      c₀.AnsweredIn ks d.journal.entries id ch'.stream ∨
        c₀.LeavesUnanswered ks d.journal.entries id ch'.stream) :
    Answering c₀ ks (d.close id kind) := by
  obtain ⟨hentries, hframes⟩ := h.quiet hj
  have hch' : d.channels.get? id = some ch' := by rw [hchannels, Table.get?_insert_self]
  obtain ⟨es, hes, hclosing⟩ := closing_close hch' ho kind
  obtain ⟨_, _, hclose, -⟩ := close_exact hch' ho kind
  refine h.of_back ((by rw [hclose] : (d.close id kind).config = d.config).trans hconfig) hhomed
    (hentries.trans ⟨_, hes.symm⟩) ?_ fun j e he hopen => ?_
  · cases hclosing with
    | silent => exact (hframes.push (dataAllowed_of_bearer? (e := .closed id) rfl _ _ _)).congr hes
    | @framed f fault hf =>
      have hsent : c₀.DataAllowed ks d.journal.entries
          (.wire (some id) ⟨f.call d.nextWrite ch'.stream, fault⟩) := by
        rintro owner write stream payload endStream fault' heq
        cases f with
        | cancel => cases heq
        | endStream =>
          cases heq
          exact ⟨id, rfl, (hframe hf).imp_right fun hleft => ⟨rfl, rfl, hleft⟩⟩
      have hflushed := (hframes.push hsent).push
        (dataAllowed_of_bearer? (e := .wire none ⟨.flush, none⟩) rfl _ _ _)
      refine (hflushed.push (dataAllowed_of_bearer? (e := .closed id) rfl _ _ _)).congr ?_
      rw [hes]
      simp only [Journal.push, List.append_assoc, List.cons_append, List.nil_append]
  · by_cases hj : j = id
    · subst hj
      rw [get?_close_self hch' ho, Option.some.injEq] at he
      rw [← he] at hopen
      cases hopen
    · rw [get?_close_of_ne hj, hchannels, Table.get?_insert_of_ne hj] at he
      exact .inr ⟨e, he, .refl e⟩

/-- An open channel is closed after something was done to it. -/
theorem ended (h : Answering c₀ (ks ++ [l]) c) {kind : CloseKind} {ledger : Ledger}
    {journal : Journal} (hch : c.channels.get? id = some ch) (ho : ch.closed = false)
    (hout : ch.Outgoing ch') (hj : c.journal.Extends (fun e => e.bearer? = none) journal)
    (hk : kind = .graceful →
      (⟨c₀.run ks, l⟩ : Cause) = ⟨c, .closeGracefully id⟩ ∧ ch' = ch ∧ journal = c.journal)
    (hhomed : ({ c with
      channels := c.channels.insert id ch', ledger := ledger, journal := journal }.close
        id kind).Homed) :
    Answering c₀ (ks ++ [l]) ({ c with
      channels := c.channels.insert id ch', ledger := ledger, journal := journal }.close
        id kind) := by
  obtain ⟨hentries, hframes⟩ := h.quiet hj
  have hpatient := h.patient id ch hch ho
  refine h.closed hj rfl hout.closed rfl hhomed fun hframe => ?_
  rw [hout.stream]
  cases hp : ch.handshake.isPending with
  | false => exact .inl ((hpatient.decided hp).mono hentries)
  | true =>
    have hin := hout.inboundClosed.trans (hpatient.pending hp)
    obtain ⟨hcause, rfl, rfl⟩ := hk (Channel.graceful_of_closingFrame hframe hin)
    obtain ⟨hconn, rfl⟩ := Cause.mk.inj hcause
    obtain ⟨hstream, -⟩ := Channel.closingFrame_eq_some hframe
    have hsent : ch'.handshake = .requestSent := by
      cases hhand : ch'.handshake with
      | requestSent => rfl
      | awaitingSettings => exact absurd (hpatient.waiting hhand) hstream
      | complete | failed => rw [hhand] at hp; cases hp
    exact .inr ⟨ks, [], ch', rfl, hconn ▸ hch, ho, hsent, rfl, by rw [hconn]⟩

/-- What a call does keeps this, provided that what was done before the call stays. -/
theorem streamStep (h : Answering c₀ (ks ++ [l]) c) (hstep : StreamStep False ⟨c₀.run ks, l⟩ c d)
    (hlater : (c₀.run ks).journal.entries <+: c.journal.entries) :
    Answering c₀ (ks ++ [l]) d := by
  have hhomed := h.homed.streamStep hstep
  cases hstep with
  | calm hcalm =>
    exact h.of_quiet (hcalm.journal.mono fun _ => Entry.bearer?_of_isLight) hcalm.config hhomed
      fun _ _ hch' => hcalm.channels.back hch'
  | asked path subprotocol hrole =>
    have hwaits : (c.newChannel path).handshake = .awaitingSettings := if_pos hrole
    rw [addAsking_eq] at hhomed ⊢
    refine h.insert (.refl _) rfl rfl hhomed ⟨fun _ => rfl, fun _ => rfl, fun hp => ?_⟩
    rw [hwaits] at hp
    cases hp
  | unreserved stream f =>
    exact h.of_quiet (Journal.extends_push _ rfl) rfl hhomed fun _ e he => ⟨e, he, .refl e⟩
  | requested block hch ho ha =>
    have hin := (h.patient _ _ hch ho).pending (by rw [ha]; rfl)
    exact h.insert ((Journal.extends_push _ (by rfl)).push (by rfl)) rfl rfl hhomed
      ⟨nofun, fun _ => hin, nofun⟩
  | requestRefused block f ledger hch ho ha =>
    have hin := (h.patient _ _ hch ho).pending (by rw [ha]; rfl)
    refine h.closed (((Journal.extends_push _ (by rfl)).push (by rfl)).push (by rfl)) rfl ho rfl
      hhomed fun hframe => ?_
    cases Channel.graceful_of_closingFrame hframe hin
  | enrolled path subprotocol compression block hrole =>
    exact absurd (h.client.symm.trans hrole) (by decide)
  | answered subprotocol compression parked hch ho hs hk =>
    obtain ⟨stream, hregistered, hanswers⟩ := hk
    have hanswered := AnsweredIn.of_answers hanswers hlater
    rw [← (h.homed.home stream _ _ hregistered hch).2] at hanswered
    exact h.insert (.refl _) rfl rfl hhomed ⟨nofun, nofun, fun _ => hanswered⟩
  | @sent id ch write payload fault hch ho hp =>
    have hallowed : c₀.DataAllowed (ks ++ [l]) c.journal.entries
        (.wire (some id) ⟨.data write ch.stream payload false, fault⟩) := by
      rintro owner write stream payload endStream fault heq
      cases heq
      exact ⟨id, rfl, .inl ((h.patient id ch hch ho).decided hp)⟩
    exact h.of_back rfl hhomed (List.prefix_append _ _) (h.frames.push hallowed)
      fun _ e he _ => .inr ⟨e, he, .refl e⟩
  | ended kind ledger journal hch ho hout hjournal hk =>
    exact h.ended hch ho hout (hjournal.mono fun _ => Entry.bearer?_of_isLight) hk hhomed
  | tornDown =>
    exact h.of_quiet (.refl _) rfl hhomed fun _ e he => ⟨e, Table.get?_of_erase he, .refl e⟩
  | cleared =>
    exact h.of_quiet (Journal.extends_push _ rfl) rfl hhomed fun _ e he => ⟨e, he, .refl e⟩
  | missed | expired => exact ⟨h.client, hhomed, h.frames, h.patient⟩

end Answering

/-! ## Runs -/

theorem answering_run {config : Config} {encoder : Encoder} (h : start config encoder = .ok c)
    (hrole : config.role = .client) (ks : List Call) : Answering c ks (c.run ks) := by
  induction ks using List.reverseRecOn with
  | nil =>
    obtain rfl := (start_eq h).1
    exact
      { client := hrole
        homed := ⟨fun _ _ hch => (nomatch hch), fun _ _ hs => (nomatch hs),
          fun _ _ _ hs => (nomatch hs)⟩
        frames := fun _ _ _ heq => absurd heq (by simp [fresh])
        patient := fun _ _ hch => (nomatch hch) }
  | append_singleton ks k ih =>
    rw [run_concat]
    have hbefore : Answering c (ks ++ [k]) (c.run ks) :=
      { ih with
        frames := fun xs e ys heq => (ih.frames xs e ys heq).concat k
        patient := fun id ch hch ho =>
          (ih.patient id ch hch ho).unmoved (.refl ch) fun _ hanswered => hanswered.concat k }
    have hall := (streamPath_after h ks k False.elim).induction
      (P := fun d => Answering c (ks ++ [k]) d ∧ (c.run ks).journal.entries <+: d.journal.entries)
      (fun _ _ hstep hd => ⟨hd.1.streamStep hstep hd.2, hd.2.trans hstep.entries⟩)
      ⟨hbefore, List.prefix_refl _⟩
    exact hall.1

/-- Whenever a client hands the encoder DATA, the payload of a write or an empty frame that ends the
stream, it is for a channel of which the response, with status 200, had arrived on this stream in
the same call or an earlier one and had accepted the conversation.  There is one exception: the
empty last frame of a channel that is closed gracefully before its response arrives, which is the
first thing that is done in the call that closes it. -/
theorem data_follows_response {config : Config} {encoder : Encoder} {c : Connection}
    (h : start config encoder = .ok c) (hrole : config.role = .client) (ks : List Call)
    {xs ys : List Entry} {owner : Option ChannelId} {write : WriteId} {stream : StreamId}
    {payload : Bytes} {endStream : Bool} {fault : Option WriteFault}
    (heq : (c.run ks).journal.entries =
      xs ++ .wire owner ⟨.data write stream payload endStream, fault⟩ :: ys) :
    ∃ id, owner = some id ∧ (c.AnsweredIn ks xs id stream ∨
      payload = [] ∧ endStream = true ∧ c.LeavesUnanswered ks xs id stream) :=
  (answering_run h hrole ks).frames xs _ ys heq _ _ _ _ _ _ rfl

/-- The first write of a conversation follows the response that accepted it. -/
theorem first_write_follows_response :
    ((fresh {} .willing).run (Call.opening ++ [.write 1 [7]])).journal.entries =
      ((fresh {} .willing).run Call.opening).journal.entries ++
        .wire (some 1) ⟨.data 1 3 [7] false, none⟩ :: [] ∧
    (fresh {} .willing).AnsweredIn (Call.opening ++ [.write 1 [7]])
      ((fresh {} .willing).run Call.opening).journal.entries 1 3 := by
  have heq : ((fresh {} .willing).run (Call.opening ++ [.write 1 [7]])).journal.entries =
      ((fresh {} .willing).run Call.opening).journal.entries ++
        .wire (some 1) ⟨.data 1 3 [7] false, none⟩ :: [] := by decide
  obtain ⟨id, howner, hanswered | ⟨hpayload, -⟩⟩ := data_follows_response
    (rfl : start {} .willing = .ok (fresh {} .willing)) rfl _ heq
  · obtain rfl := Option.some.inj howner
    exact ⟨heq, hanswered⟩
  · cases hpayload

/-- A channel that is closed gracefully before its response arrives sends DATA, and no response has
arrived in this run at all. -/
theorem graceful_close_sends_data_unanswered :
    let ks : List Call := [.frame (.settings { extendedConnect := some true }),
      .openStream "/chat" none, .closeGracefully 1]
    start {} .willing = .ok (fresh {} .willing) ∧
    .wire (some 1) ⟨.data 1 3 [] true, none⟩ ∈ ((fresh {} .willing).run ks).journal.entries ∧
    ∀ xs, ¬ (fresh {} .willing).AnsweredIn ks xs 1 3 := by
  intro ks
  refine ⟨rfl, by decide, ?_⟩
  rintro xs ⟨ls, block, rs, hks, -⟩
  have hmem : Call.frame (.headers 3 block false) ∈ ks := by rw [hks]; simp
  simp [ks] at hmem

end Connection

end ChannelMux
