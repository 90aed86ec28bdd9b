import ChannelMux.Parked
import ChannelMux.Proofs.Ledgers

/-!
# Settlements: parked writes are settled once

Writes are parked until they are all taken for sending or all failed.  A sequence of requests thus
falls into three parts: pushes, which are kept in their order (`serving_of_pushes`), the request
that settles the writes, and whatever comes too late and changes nothing (`serving_of_settled`).

A write is pushed together with its promise, so each promise ends in one place: with whoever takes
the writes, failed in the ledger, or back with whoever pushed it.
-/

namespace ChannelMux.Parked

variable {p : Parked} {l : Ledger} {qs : List Request}

namespace Request

/-- The write that a request brings. -/
def write? : Request → Option (Bytes × Ticket)
  | push payload ticket => some (payload, ticket)
  | take | fail _ => none

/-- Whether a request settles the writes, if they are not settled yet. -/
def settles : Request → Bool
  | push .. => false
  | take | fail _ => true

/-- The answer to a request that comes too late. -/
def late : Request → Answer
  | push payload ticket => .returned payload ticket
  | take => .taken none
  | fail _ => .failed none

end Request

/-- The writes that requests bring, in their order. -/
def brought (qs : List Request) : List (Bytes × Ticket) := qs.filterMap Request.write?

def payloadBytes (ws : List (Bytes × Ticket)) : Nat := (ws.map fun w => w.1.length).sum

/-- The answers to requests served in turn, and what is left behind. -/
def serving (p : Parked) (l : Ledger) : List Request → List Answer × Parked × Ledger
  | [] => ([], p, l)
  | q :: qs =>
    let (answer, p, l) := p.serve l q
    let (answers, p, l) := serving p l qs
    (answer :: answers, p, l)

theorem serving_cons {q : Request} {a : Answer} {p' : Parked} {l' : Ledger}
    (h : p.serve l q = (a, p', l')) (qs : List Request) :
    serving p l (q :: qs) = (a :: (serving p' l' qs).1, (serving p' l' qs).2) := by
  rw [serving, h]

theorem serving_append (p : Parked) (l : Ledger) (qs rs : List Request) :
    serving p l (qs ++ rs) =
      ((serving p l qs).1 ++ (serving (serving p l qs).2.1 (serving p l qs).2.2 rs).1,
        (serving (serving p l qs).2.1 (serving p l qs).2.2 rs).2) := by
  induction qs generalizing p l with
  | nil => rfl
  | cons q qs ih =>
    rw [List.cons_append, serving_cons rfl, serving_cons rfl, ih]
    rfl

/-! ## Before -/

theorem serve_push (h : p.settled = false) (l : Ledger) (payload : Bytes) (t : Ticket) :
    p.serve l (.push payload t) =
      (.parked,
        { p with writes := p.writes ++ [(payload, t)], bytes := p.bytes + payload.length }, l) := by
  simp [serve, push?, h]

theorem serving_of_pushes (h : p.settled = false) (l : Ledger)
    (hqs : ∀ q ∈ qs, q.settles = false) :
    serving p l qs =
      (qs.map fun _ => .parked,
        { p with
          writes := p.writes ++ brought qs
          bytes := p.bytes + payloadBytes (brought qs) }, l) := by
  -- over any unsettled writes, since each push leaves more of them for the rest
  induction qs generalizing p with
  | nil => simp [serving, brought, payloadBytes]
  | cons q qs ih =>
    have hrest : ∀ q ∈ qs, q.settles = false := fun q hq => hqs q (List.mem_cons_of_mem _ hq)
    cases q with
    | push payload t =>
      have hpushed : ({ p with
          writes := p.writes ++ [(payload, t)]
          bytes := p.bytes + payload.length } : Parked).settled = false := h
      rw [serving_cons (serve_push h l payload t), ih hpushed hrest]
      simp [brought, payloadBytes, Request.write?, Nat.add_assoc]
    | take | fail => cases hqs _ List.mem_cons_self

theorem length_brought (hqs : ∀ q ∈ qs, q.settles = false) : (brought qs).length = qs.length := by
  rw [brought, List.filterMap_length_eq_length]
  intro q hq
  cases q with
  | push => rfl
  | take | fail => cases hqs _ hq

/-! ## After -/

theorem serve_of_settled (h : p.settled = true) (l : Ledger) (q : Request) :
    p.serve l q = (q.late, p, l) := by
  cases q with
  | push payload t => simp [serve, push?, Request.late, h]
  | take => simp [serve, Parked.take, Request.late, h]
  | fail cause => simp [serve, giveUp, Request.late, Ledger.resolveAll, h]

theorem serving_of_settled (h : p.settled = true) (l : Ledger) (qs : List Request) :
    serving p l qs = (qs.map Request.late, p, l) := by
  induction qs with
  | nil => rfl
  | cons q qs ih => rw [serving_cons (serve_of_settled h l q), ih, List.map_cons]

/-! ## The whole -/

/-- Pushes, the first request that settles what they brought, and what comes too late. -/
theorem serving_of_first {ps : List Request} {q : Request} {a : Answer} {l' : Ledger}
    (hps : ∀ q ∈ ps, q.settles = false)
    (hq : serve ⟨brought ps, payloadBytes (brought ps), false⟩ l q = (a, done, l'))
    (rs : List Request) :
    serving {} l (ps ++ q :: rs) =
      (ps.map (fun _ => .parked) ++ a :: rs.map Request.late, done, l') := by
  have hbefore : serving {} l ps =
      (ps.map fun _ => .parked, ⟨brought ps, payloadBytes (brought ps), false⟩, l) := by
    rw [serving_of_pushes rfl l hps]
    simp
  rw [serving_append, hbefore, serving_cons hq, serving_of_settled rfl]

theorem promise?_giveUp {ws : List (Bytes × Ticket)}
    (hheld : ∀ w ∈ ws, l.promise? w.2 = some .held) (cause : Fault) (t : Ticket) :
    (l.resolveAll (ws.map Prod.snd) (.failed cause)).promise? t =
      if t ∈ ws.map Prod.snd then some (.kept (.failed cause)) else l.promise? t := by
  rw [Ledger.promise?_resolveAll]
  refine if_congr (and_iff_left_of_imp fun ht => ?_) rfl rfl
  obtain ⟨w, hw, rfl⟩ := List.mem_map.mp ht
  exact Ledger.isHeld_iff.mpr (hheld w hw)

/-- Writes whose promises are held are settled once, whatever is asked and in whatever order.  Until
then they are counted as they are pushed.  The first request that settles them either hands all of
them out, in the order of pushing and each with its ticket, or fails all their promises with the
given cause and tells how many they were.  From then on nothing is parked: a write that comes too
late is handed back with its ticket, other requests are answered with nothing, and no promise
changes. -/
theorem parked_writes_settle_once (l : Ledger) (qs : List Request)
    (hheld : ∀ w ∈ brought qs, l.promise? w.2 = some .held) :
    (∀ ps, ps <+: qs → (∀ q ∈ ps, q.settles = false) →
      ∃ p, serving {} l ps = (ps.map fun _ => .parked, p, l) ∧ p.settled = false ∧
        p.size = ps.length ∧ p.bytes = payloadBytes (brought ps)) ∧
    (∀ ps rs, qs = ps ++ .take :: rs → (∀ q ∈ ps, q.settles = false) →
      ∃ p, serving {} l qs =
          (ps.map (fun _ => .parked) ++ .taken (some (brought ps)) :: rs.map Request.late, p, l) ∧
        p.settled = true ∧ p.size = 0 ∧ p.bytes = 0) ∧
    ∀ ps cause rs, qs = ps ++ .fail cause :: rs → (∀ q ∈ ps, q.settles = false) →
      ∃ p l', serving {} l qs =
          (ps.map (fun _ => .parked) ++ .failed (some ps.length) :: rs.map Request.late, p, l') ∧
        p.settled = true ∧ p.size = 0 ∧ p.bytes = 0 ∧
        ∀ t, l'.promise? t =
          if t ∈ (brought ps).map Prod.snd then some (.kept (.failed cause)) else l.promise? t := by
  refine ⟨fun ps _ hps => ?_, fun ps rs hqs hps => ?_, fun ps cause rs hqs hps => ?_⟩
  · refine ⟨_, serving_of_pushes rfl l hps, rfl, ?_, ?_⟩
    · rw [size, List.nil_append, length_brought hps]
    · exact Nat.zero_add _
  · subst hqs
    exact ⟨done, serving_of_first hps rfl rs, rfl, rfl, rfl⟩
  · subst hqs
    have hheld' : ∀ w ∈ brought ps, l.promise? w.2 = some .held := by
      intro w hw
      apply hheld
      rw [brought, List.filterMap_append]
      exact List.mem_append_left _ hw
    have hfirst : serve ⟨brought ps, payloadBytes (brought ps), false⟩ l (.fail cause) =
        (.failed (some ps.length), done,
          l.resolveAll ((brought ps).map Prod.snd) (.failed cause)) := by
      simp [serve, giveUp, length_brought hps]
    exact ⟨done, _, serving_of_first hps hfirst rs, rfl, rfl, rfl, promise?_giveUp hheld' cause⟩

/-- Of three writes the last one comes too late: its promise is still held when it is handed back,
and the two others are not failed a second time. -/
theorem late_write_is_handed_back :
    let l := (((({} : Ledger).issue .held).2.issue .held).2.issue .held).2
    let qs : List Request := [.push [1] 0, .push [2, 3] 1, .fail (.handshake .timedOut),
      .push [4] 2, .take, .fail .channelClosed]
    (∀ w ∈ brought qs, l.promise? w.2 = some .held) ∧
      ∃ p l', serving {} l qs =
          ([.parked, .parked, .failed (some 2), .returned [4] 2, .taken none, .failed none], p,
            l') ∧
        p.size = 0 ∧ l'.promise? 0 = some (.kept (.failed (.handshake .timedOut))) ∧
        l'.promise? 1 = some (.kept (.failed (.handshake .timedOut))) ∧
        l'.promise? 2 = some .held := by
  intro l qs
  have hheld : ∀ w ∈ brought qs, l.promise? w.2 = some .held := by decide
  obtain ⟨p, l', hserving, -, hsize, -, hpromises⟩ :=
    (parked_writes_settle_once l qs hheld).2.2 [.push [1] 0, .push [2, 3] 1] (.handshake .timedOut)
      [.push [4] 2, .take, .fail .channelClosed] rfl (by decide)
  exact ⟨hheld, p, l', hserving, hsize, hpromises 0, hpromises 1, hpromises 2⟩

end ChannelMux.Parked
