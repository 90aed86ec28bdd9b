import ChannelMux.Proofs.Losses
import ChannelMux.Proofs.Passages
import ChannelMux.Proofs.StreamSteps

/-!
# Stream zero: the stream of the connection itself

Frames on stream zero concern the connection, and a channel that has no stream yet says that its
stream is zero.  Yet nothing keeps a channel from getting stream zero: a server accepts whatever
stream a conversation is asked for on, and a client takes whatever stream the encoder reserves.

Here it is shown that there are no other ways.  Once stream zero is registered the entry stays until
the connection is lost, since a channel without a stream has nothing to clean up; and as long as it
stays, no frame on stream zero is passed on but those that concern the connection as a whole.
-/

namespace ChannelMux

/-- The encoder has reserved stream zero for a channel. -/
def Entry.reservesZero : Entry → Bool
  | wire (some _) e => e = ⟨.reserve 0, none⟩
  | _ => false

namespace Entry

variable {e : Entry}

theorem eq_of_reservesZero (h : e.reservesZero = true) :
    ∃ id, e = .wire (some id) ⟨.reserve 0, none⟩ := by
  cases e with
  | wire owner entry =>
    cases owner with
    | none => cases h
    | some id =>
      obtain rfl := of_decide_eq_true h
      exact ⟨id, rfl⟩
  | _ => cases h

theorem reservesZero_of_isLight {role : Role} (h : e.isLight role = true) :
    e.reservesZero = false := by
  rw [Bool.eq_false_iff]
  intro hzero
  obtain ⟨id, rfl⟩ := eq_of_reservesZero hzero
  cases h

theorem reservesZero_of_isPlain (h : e.isPlain = true) : e.reservesZero = false := by
  rw [Bool.eq_false_iff]
  intro hzero
  obtain ⟨id, rfl⟩ := eq_of_reservesZero hzero
  cases h

end Entry

namespace Journal

variable {j j' : Journal} {P : Entry → Prop}

/-- How often stream zero was reserved for a channel. -/
def zeros (j : Journal) : Nat := j.entries.countP Entry.reservesZero

@[simp] theorem zeros_push (j : Journal) (e : Entry) :
    (j.push e).zeros = j.zeros + if e.reservesZero then 1 else 0 := by
  rw [zeros, zeros, entries_push, List.countP_append, List.countP_singleton]

theorem Extends.zeros_eq (h : j.Extends P j') (hP : ∀ e, P e → e.reservesZero = false) :
    j'.zeros = j.zeros := by
  obtain ⟨es, hes, hall⟩ := h
  have hnone : es.countP Entry.reservesZero = 0 :=
    List.countP_eq_zero.mpr fun e he => by rw [hP e (hall e he)]; decide
  rw [zeros, zeros, hes, List.countP_append, hnone, Nat.add_zero]

end Journal

namespace Connection

variable {strict : Prop} {k : Cause} {c c' d : Connection} {id : ChannelId} {ch : Channel}

/-- Stream zero is registered in a step exactly if it is reserved in it. -/
structure Watches (c d : Connection) : Prop where
  zeros : c.journal.zeros ≤ d.journal.zeros
  unclosed : d.registry.get? 0 ≠ some .closed
  registered : d.registry.get? 0 ≠ none ↔
    c.registry.get? 0 ≠ none ∨ c.journal.zeros < d.journal.zeros

namespace Watches

theorem of_same (hc : c.registry.get? 0 ≠ some .closed)
    (hregistry : d.registry.get? 0 = c.registry.get? 0)
    (hzeros : d.journal.zeros = c.journal.zeros) : Watches c d := by
  refine ⟨Nat.le_of_eq hzeros.symm, hregistry ▸ hc, ?_⟩
  rw [hregistry, hzeros]
  simp

theorem trans (h : Watches c c') (h' : Watches c' d) : Watches c d := by
  refine ⟨Nat.le_trans h.zeros h'.zeros, h'.unclosed, ?_⟩
  have hfirst := h.zeros
  have hsecond := h'.zeros
  rw [h'.registered, h.registered, or_assoc]
  refine or_congr_right ?_
  omega

/-- A channel gets a stream that was reserved for it. -/
theorem reserved (hc : c.registry.get? 0 ≠ some .closed) (stream : StreamId)
    (hregistry : d.registry = c.registry.insert stream id)
    (hjournal : ((c.journal.push (.wire (some id) ⟨.reserve stream, none⟩)).Extends
      (fun e => e.reservesZero = false) d.journal)) : Watches c d := by
  have hzeros := hjournal.zeros_eq fun _ he => he
  rw [Journal.zeros_push] at hzeros
  by_cases h0 : stream = 0
  · subst h0
    have htaken : d.registry.get? 0 = some (.active id) := by
      rw [hregistry, Registry.get?_insert, if_pos rfl]
    have hcounted : d.journal.zeros = c.journal.zeros + 1 := hzeros
    refine ⟨by omega, by rw [htaken]; nofun, ?_⟩
    rw [htaken, hcounted]
    simp
  · refine of_same hc ?_ (hzeros.trans ?_)
    · rw [hregistry, Registry.get?_insert, if_neg (Ne.symm h0)]
    · rw [if_neg]
      · rfl
      · simp [Entry.reservesZero, h0]

end Watches

theorem get?_retired_zero (r : Registry ChannelId) (stream : StreamId) (absorb : Bool) :
    (retired r stream absorb).get? 0 = r.get? 0 := by
  unfold retired
  split
  · rfl
  next h0 =>
    split
    · exact Registry.get?_markClosed_of_ne (Ne.symm h0)
    · rw [Registry.get?_remove, if_neg (Ne.symm h0)]

theorem watches_close (hc : c.registry.get? 0 ≠ some .closed) (id : ChannelId)
    (kind : CloseKind) : Watches c (c.close id kind) := by
  rcases close_cases c id kind with ⟨-, heq⟩ | ⟨ch, h, ho⟩
  · rw [heq]
    exact .of_same hc rfl rfl
  · obtain ⟨_, _, heq, -, hjournal⟩ := close_exact h ho kind
    rw [heq]
    exact .of_same hc (get?_retired_zero ..)
      (hjournal.zeros_eq fun e he => Entry.reservesZero_of_isPlain he.2)

/-- Stream zero stays registered and is registered if it is reserved, unless the call is one in
which a server could accept it, or the connection is lost. -/
theorem watches_streamStep (hc : c.registry.get? 0 ≠ some .closed) (h : StreamStep strict k c d)
    (hk : k.call.isHeadersOnZero = true → k.conn.registry.get? 0 ≠ none)
    (hlost : k.call ≠ .connectionLost) : Watches c d := by
  cases h with
  | calm h =>
    exact .of_same hc (h.registry 0)
      (h.journal.zeros_eq fun _ => Entry.reservesZero_of_isLight)
  | asked path subprotocol =>
    rw [addAsking_eq]
    exact .of_same hc rfl rfl
  | unreserved stream f =>
    refine .of_same hc rfl ?_
    change Journal.zeros (c.journal.push _) = _
    simp [Entry.reservesZero]
  | requested block =>
    exact .reserved hc _ rfl (Journal.extends_push _ rfl)
  | @requestRefused id ch stream block f ledger =>
    have htaken : Watches c { c with
        channels := c.channels.insert id
          ({ ch with stream := stream, cachedWeight := none }).giveUpParked
        registry := c.registry.insert stream id
        ledger := ledger
        journal := ((c.journal.push (.wire (some id) ⟨.reserve stream, none⟩)).push
          (.wire (some id) ⟨.headers stream block false, some f⟩)).push
            (.event ⟨id, .failed (.write f)⟩) } :=
      .reserved hc stream rfl ((Journal.extends_push _ (by rfl)).push (by rfl))
    exact htaken.trans (watches_close htaken.unclosed id .reset)
  | @enrolled stream path subprotocol compression block _ hfree _ hbegun hcall =>
    have h0 : stream ≠ 0 := by
      rintro rfl
      obtain ⟨block, endStream, hcall⟩ := hcall
      refine hk (by rw [hcall]; rfl) ?_
      rw [hbegun] at hfree
      exact hfree
    refine .of_same hc ?_ ?_
    · exact (Registry.get?_insert ..).trans (if_neg (Ne.symm h0))
    · change Journal.zeros (c.journal.push _) = _
      simp [Entry.reservesZero]
  | answered | tornDown | missed => exact .of_same hc rfl rfl
  | sent write payload fault =>
    refine .of_same hc rfl ?_
    change Journal.zeros (c.journal.push _) = _
    simp [Entry.reservesZero]
  | @ended id ch ch' kind ledger journal _ _ _ hjournal =>
    have htold : Watches c { c with
        channels := c.channels.insert id ch', ledger := ledger, journal := journal } :=
      .of_same hc rfl (hjournal.zeros_eq fun _ => Entry.reservesZero_of_isLight)
    exact htold.trans (watches_close htold.unclosed id kind)
  | cleared hcall => exact absurd hcall hlost
  | @expired stream now timers =>
    refine .of_same hc ?_ rfl
    change (c.registry.removeClosed stream).get? 0 = _
    rw [Registry.removeClosed]
    split
    next hclosed =>
      rw [Registry.get?_remove, if_neg]
      rintro rfl
      exact hc hclosed
    · rfl

theorem watches_streamPath (hc : c.registry.get? 0 ≠ some .closed) (h : StreamPath strict k c d)
    (hk : k.call.isHeadersOnZero = true → k.conn.registry.get? 0 ≠ none)
    (hlost : k.call ≠ .connectionLost) : Watches c d :=
  h.induction (fun _ _ hstep hd => hd.trans (watches_streamStep hd.unclosed hstep hk hlost))
    (.of_same hc rfl rfl)

/-! ## Calls -/

/-- Stream zero is taken in a call: a server accepts a conversation on it, or the encoder reserves
it for a channel. -/
def TakesZero (c : Connection) (k : Call) : Prop :=
  k.isHeadersOnZero = true ∧ c.stats.accepted < (c.after k).stats.accepted ∨
    c.journal.zeros < (c.after k).journal.zeros

/-- Headers on stream zero, where it is not registered yet. -/
structure Admits (c d : Connection) : Prop where
  zeros : d.journal.zeros = c.journal.zeros
  unclosed : d.registry.get? 0 ≠ some .closed
  registered : d.registry.get? 0 ≠ none ↔ c.stats.accepted < d.stats.accepted

theorem Admits.of_same (hfree : c.registry.get? 0 = none)
    (hregistry : d.registry.get? 0 = c.registry.get? 0)
    (hzeros : d.journal.zeros = c.journal.zeros) (haccepted : d.stats.accepted = c.stats.accepted) :
    Admits c d := by
  rw [hfree] at hregistry
  refine ⟨hzeros, by rw [hregistry]; nofun, ?_⟩
  rw [hregistry, haccepted]
  simp

theorem admits_accept (hfree : c.registry.get? 0 = none) (path : String)
    (subprotocol : Option String) (compression : Option Deflate.Terms) :
    Admits c (c.accept 0 path subprotocol compression) := by
  rw [accept_eq]
  split
  next f d heq =>
    obtain ⟨-, rfl⟩ := Prod.mk.inj heq
    refine .of_same hfree ?_ ?_ rfl
    · exact (Registry.get?_remove ..).trans ((if_pos rfl).trans hfree.symm)
    · change Journal.zeros (c.journal.push _) = _
      simp [Entry.reservesZero]
  next d heq =>
    obtain ⟨-, rfl⟩ := Prod.mk.inj heq
    have htaken : (c.registry.insert 0 c.nextChannel).get? 0 = some (.active c.nextChannel) :=
      (Registry.get?_insert ..).trans (if_pos rfl)
    refine ⟨?_, ?_, ?_⟩
    · change Journal.zeros (((c.journal.push _).push _).push _) = _
      simp [Entry.reservesZero]
    · change (c.registry.insert 0 c.nextChannel).get? 0 ≠ _
      rw [htaken]
      nofun
    · change (c.registry.insert 0 c.nextChannel).get? 0 ≠ _ ↔
        c.stats.accepted < c.stats.accepted + 1
      rw [htaken]
      simp

theorem admits_strayFrame (hfree : c.registry.get? 0 = none) (block : HeaderBlock)
    (endStream : Bool) : Admits c (c.strayFrame (.headers 0 block endStream)) := by
  have hforwarded (f : Frame) : Admits c (c.forward f) := by
    refine .of_same hfree rfl ?_ rfl
    change Journal.zeros (c.journal.push _) = _
    simp [Entry.reservesZero]
  rw [strayFrame.eq_def]
  split
  next heq =>
    obtain ⟨rfl, rfl, rfl⟩ := Frame.headers.inj heq
    split
    next r _ =>
      rw [answerRequest]
      split
      · refine .of_same hfree rfl ?_ rfl
        change Journal.zeros ((c.journal.push _).push _) = _
        simp [Entry.reservesZero]
      · exact admits_accept hfree ..
    · exact hforwarded _
  · exact hforwarded _

/-- If stream zero is free, headers on it register it exactly if a conversation is accepted. -/
theorem admits_headers (hfree : c.registry.get? 0 = none) (block : HeaderBlock)
    (endStream : Bool) : Admits c (c.after (.frame (.headers 0 block endStream))) := by
  change Admits c (c.frameArrived (.headers 0 block endStream))
  rw [frameArrived.eq_def]
  dsimp only [Frame.stream]
  rw [hfree]
  have hstray := admits_strayFrame (c := { c with reading := true }) hfree block endStream
  exact ⟨hstray.zeros, hstray.unclosed, hstray.registered⟩

theorem zeros_connectionLost (c : Connection) :
    c.connectionLost.journal.zeros = c.journal.zeros := by
  have hparting : c.journal.Extends (fun e => e.reservesZero = false) c.connectionLost.journal := by
    refine ⟨_, entries_connectionLost c, fun e he => ?_⟩
    rcases List.mem_append.mp he with he | he
    · obtain ⟨id, -, he⟩ := List.mem_flatMap.mp he
      rcases List.mem_cons.mp he with rfl | he
      · rfl
      · rw [List.mem_singleton.mp he]
        rfl
    · rw [List.mem_singleton.mp he]
      rfl
  exact hparting.zeros_eq fun _ he => he

/-- After a call stream zero is registered if it was taken in the call, or if it was registered
before and the connection is not lost. -/
theorem zero_after {config : Config} {encoder : Encoder} (h : start config encoder = .ok c)
    (ks : List Call) (hu : (c.run ks).registry.get? 0 ≠ some .closed) (k : Call) :
    ((c.run ks).after k).registry.get? 0 ≠ some .closed ∧
      (((c.run ks).after k).registry.get? 0 ≠ none ↔ (c.run ks).TakesZero k ∨
        k ≠ .connectionLost ∧ (c.run ks).registry.get? 0 ≠ none) := by
  have hpath := streamPath_after h ks k False.elim
  generalize c.run ks = d at hpath hu ⊢
  have hwatches (hk : k.isHeadersOnZero = true → d.registry.get? 0 ≠ none)
      (hlost : k ≠ .connectionLost) : Watches d (d.after k) := watches_streamPath hu hpath hk hlost
  by_cases hlost : k = .connectionLost
  · subst hlost
    have hnone : (d.after .connectionLost).registry.get? 0 = none := Registry.get?_clear ..
    have hzeros : (d.after .connectionLost).journal.zeros = d.journal.zeros :=
      zeros_connectionLost d
    rw [hnone, TakesZero, hzeros]
    simp [Call.isHeadersOnZero]
  by_cases hzero : k.isHeadersOnZero = true ∧ d.registry.get? 0 = none
  · obtain ⟨hheaders, hfree⟩ := hzero
    have hadmits : Admits d (d.after k) := by
      cases k with
      | frame f =>
        cases f with
        | headers stream block endStream =>
          obtain rfl : stream = 0 := of_decide_eq_true hheaders
          exact admits_headers hfree block endStream
        | _ => cases hheaders
      | _ => cases hheaders
    refine ⟨hadmits.unclosed, hadmits.registered.trans ?_⟩
    rw [TakesZero, hadmits.zeros, hfree]
    simp [hheaders]
  · have hregistered (hk : k.isHeadersOnZero = true) : d.registry.get? 0 ≠ none :=
      fun hfree => hzero ⟨hk, hfree⟩
    have hw := hwatches hregistered hlost
    refine ⟨hw.unclosed, hw.registered.trans ?_⟩
    rw [TakesZero, or_assoc]
    constructor
    · rintro (hbefore | htaken)
      · exact .inr (.inr ⟨hlost, hbefore⟩)
      · exact .inr (.inl htaken)
    · rintro (⟨hheaders, -⟩ | htaken | ⟨-, hbefore⟩)
      · exact .inl (hregistered hheaders)
      · exact .inr htaken
      · exact .inl hbefore

/-! ## Runs -/

theorem unclosed_run {config : Config} {encoder : Encoder} (h : start config encoder = .ok c)
    (ks : List Call) : (c.run ks).registry.get? 0 ≠ some .closed := by
  induction ks using List.reverseRecOn with
  | nil =>
    rw [(start_eq h).1]
    nofun
  | append_singleton ks k ih =>
    rw [run_concat]
    exact (zero_after h ks ih k).1

/-- Stream zero was taken in a run, and the connection was not lost since. -/
def TookZero (c : Connection) (ks : List Call) : Prop :=
  ∃ ls k rs, ks = ls ++ k :: rs ∧ (c.run ls).TakesZero k ∧ .connectionLost ∉ rs

theorem tookZero_concat (c : Connection) (ks : List Call) (k : Call) :
    c.TookZero (ks ++ [k]) ↔
      (c.run ks).TakesZero k ∨ k ≠ .connectionLost ∧ c.TookZero ks := by
  constructor
  · rintro ⟨ls, l, rs, heq, htakes, hnone⟩
    cases rs using List.reverseRecOn with
    | nil =>
      obtain ⟨rfl, hlast⟩ := List.append_inj' heq rfl
      obtain rfl := (List.cons.inj hlast).1
      exact .inl htakes
    | append_singleton rs r =>
      rw [← List.cons_append, ← List.append_assoc] at heq
      obtain ⟨rfl, hlast⟩ := List.append_inj' heq rfl
      obtain rfl := (List.cons.inj hlast).1
      rw [List.mem_append, not_or, List.mem_singleton] at hnone
      exact .inr ⟨Ne.symm hnone.2, ls, l, rs, rfl, htakes, hnone.1⟩
  · rintro (htakes | ⟨hlost, ls, l, rs, rfl, htakes, hnone⟩)
    · exact ⟨ks, k, [], rfl, htakes, List.not_mem_nil⟩
    · refine ⟨ls, l, rs ++ [k], List.append_assoc .., htakes, ?_⟩
      rw [List.mem_append, not_or, List.mem_singleton]
      exact ⟨hnone, Ne.symm hlost⟩

/-- What becomes of stream zero, the stream of the connection itself.

It is registered exactly if it was taken and the connection was not lost since: a server has
accepted a conversation that was asked for on it, or a client's encoder has reserved it.  Where no
headers arrive on it at a server and no stream is reserved that is zero or in use, it never is.
Frames on it other than those that concern the whole connection are passed on exactly if it is not
registered, unless they ask a server for a conversation. -/
theorem zero_is_registered_iff_taken {config : Config} {encoder : Encoder}
    (h : start config encoder = .ok c) (ks : List Call) :
    ((c.run ks).registry.get? 0 ≠ none ↔ c.TookZero ks) ∧
    (c.CarefulRun ks → (c.run ks).registry.get? 0 = none) ∧
    ∀ f : Frame, f.stream = 0 → f.isGeneral = false →
      ((c.run ks).after (.frame f)).journal.passedOn = (c.run ks).journal.passedOn ++
        if (c.run ks).registry.get? 0 = none ∧ (c.run ks).bootstraps f = false then [f] else [] := by
  refine ⟨?_, ?_, ?_⟩
  · induction ks using List.reverseRecOn with
    | nil =>
      rw [(start_eq h).1]
      refine ⟨fun hsome => absurd rfl hsome, ?_⟩
      rintro ⟨ls, k, rs, heq, -⟩
      cases ls <;> cases heq
    | append_singleton ks k ih =>
      rw [run_concat, (zero_after h ks (unclosed_run h ks) k).2, tookZero_concat, ih]
  · intro ho
    cases hzero : (c.run ks).registry.get? 0 with
    | none => rfl
    | some slot =>
      cases slot with
      | closed => exact absurd hzero (unclosed_run h ks)
      | active id =>
        obtain ⟨_, _, _, _, h0⟩ := ((registered_run h ho).active 0 id).mp hzero
        exact absurd rfl h0
  · intro f hstream hgeneral
    rw [(passesOn_after (tidy_run h ks) (.frame f)).passedOn, passing, passes, hstream, hgeneral]
    simp

/-- A client's conversation leaves stream zero alone, and frames on it are passed on. -/
theorem window_of_connection_is_passed_on :
    ((fresh {} .willing).run Call.opening).registry.get? 0 = none ∧
      (((fresh {} .willing).run Call.opening).after (.frame (.windowUpdate 0 1))).journal.passedOn =
        ((fresh {} .willing).run Call.opening).journal.passedOn ++ [.windowUpdate 0 1] := by
  obtain ⟨-, hfree, hframes⟩ := zero_is_registered_iff_taken
    (rfl : start {} .willing = .ok (fresh {} .willing)) Call.opening
  have hnone := hfree (by decide : (fresh {} .willing).OrderlyRun Call.opening).careful
  refine ⟨hnone, (hframes (.windowUpdate 0 1) rfl rfl).trans ?_⟩
  rw [hnone]
  rfl

/-- A server that is asked for a conversation on stream zero accepts it, and then keeps what the
peer says about the connection's window from the next listener. -/
theorem accepted_zero_keeps_window :
    let c := (fresh { role := .server } .willing).run
      [.frame (.headers 0 (Connect.Request.forPath "localhost" "/chat" none).toHeaders false)]
    c.registry.get? 0 = some (.active 1) ∧
      (c.after (.frame (.windowUpdate 0 1))).journal.passedOn = [] := by
  decide +kernel

end Connection

end ChannelMux
