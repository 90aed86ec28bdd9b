import ChannelMux.Proofs.Lives
import Mathlib.Data.List.Pairwise

/-!
# Lifecycles: opened, closed and torn down

A channel that is closed stays in the table until a task of its own takes it out, and only then is
the application told that it is gone.  So two things are kept from step to step.  Every closed
channel has its task, once, and the counters agree with the table (`Tallied`).  The reports about a
channel come in the order of its life, and the last ones come when it leaves (`Lived`).
-/

namespace ChannelMux

namespace Happening

/-- What a channel is told when it leaves. -/
def isFinal : Happening → Bool
  | inactive | unregistered => true
  | opened .. | read _ | readComplete | writability _ | remoteClosed _ | goAway .. => false
  | priorityApplied _ | peerPriority _ | handshakeCompleted .. | failed _ => false

theorem isFinal_of_isOrdinary {what : Happening} (h : what.isOrdinary = true) :
    what.isFinal = false := by
  cases what <;> first | rfl | cases h

/-- Whether one report about a channel may come before another, at whatever distance. -/
structure Precedes (a b : Happening) : Prop where
  first : ∀ stream path subprotocol, b ≠ .opened stream path subprotocol
  last : a ≠ .unregistered
  inactive : a = .inactive → b = .unregistered

theorem precedes_of_not_isFinal {a b : Happening} (ha : a.isFinal = false)
    (hb : ∀ stream path subprotocol, b ≠ .opened stream path subprotocol) : a.Precedes b where
  first := hb
  last := by rintro rfl; cases ha
  inactive := by rintro rfl; cases ha

theorem inactive_precedes_unregistered : Precedes .inactive .unregistered where
  first := by simp
  last := by simp
  inactive _ := rfl

/-- The last reports about a channel can follow any others. -/
theorem pairwise_leaving {whats : List Happening} (h : whats.Pairwise Precedes)
    (hfinal : ∀ what ∈ whats, what.isFinal = false) :
    (whats ++ [inactive, unregistered]).Pairwise Precedes := by
  refine List.pairwise_append.mpr
    ⟨h, List.pairwise_pair.mpr inactive_precedes_unregistered, fun a ha b hb => ?_⟩
  refine precedes_of_not_isFinal (hfinal a ha) ?_
  rintro _ _ _ rfl
  simp at hb

end Happening

/-! ## Histories of reports -/

/-- Where a channel is reported inactive, the very next report is that it is unregistered. -/
def Event.Paired (es : List Event) : Prop :=
  ∀ xs id ys, es = xs ++ ⟨id, .inactive⟩ :: ys → ∃ zs, ys = ⟨id, .unregistered⟩ :: zs

namespace Event.Paired

variable {es fs : List Event}

theorem append (h : Paired es) (h' : Paired fs) : Paired (es ++ fs) := by
  intro xs id ys heq
  obtain ⟨zs, -, hfs⟩ | ⟨zs, hes, rfl⟩ := mem_pieces heq
  · exact h' zs id ys hfs
  · obtain ⟨ws, rfl⟩ := h xs id zs hes
    exact ⟨ws ++ fs, rfl⟩

theorem of_not_isFinal (h : ∀ e ∈ es, e.what.isFinal = false) : Paired es := by
  rintro xs id ys rfl
  cases h _ (List.mem_append_right xs List.mem_cons_self)

theorem pair (id : ChannelId) : Paired [⟨id, .inactive⟩, ⟨id, .unregistered⟩] := by
  intro xs j ys heq
  match xs, heq with
  | [], heq =>
    obtain ⟨hj, rfl⟩ := List.cons.inj heq
    obtain rfl := (Event.mk.inj hj).1
    exact ⟨[], rfl⟩
  | [_], heq => cases heq
  | _ :: _ :: xs, heq =>
    obtain ⟨-, heq⟩ := List.cons.inj heq
    obtain ⟨-, heq⟩ := List.cons.inj heq
    exact absurd heq.symm (List.append_ne_nil_of_right_ne_nil _ (List.cons_ne_nil _ _))

end Event.Paired

/-- The reports of a list that are about one channel. -/
def Event.about (id : ChannelId) (es : List Event) : List Happening :=
  (es.filter fun e => e.channel = id).map Event.what

namespace Event

variable {id : ChannelId} {es fs : List Event} {what : Happening}

theorem mem_about : what ∈ about id es ↔ ⟨id, what⟩ ∈ es := by
  rw [about, List.mem_map]
  constructor
  · rintro ⟨e, he, rfl⟩
    obtain ⟨he, hid⟩ := List.mem_filter.mp he
    rwa [← of_decide_eq_true hid]
  · intro h
    exact ⟨_, List.mem_filter.mpr ⟨h, decide_eq_true rfl⟩, rfl⟩

theorem about_append : about id (es ++ fs) = about id es ++ about id fs := by
  rw [about, List.filter_append, List.map_append]
  rfl

theorem about_cons_self : about id (⟨id, what⟩ :: es) = what :: about id es := by
  simp [about]

theorem about_of_ne (h : ∀ e ∈ es, e.channel ≠ id) : about id es = [] := by
  rw [about, List.filter_eq_nil_iff.mpr fun e he => by simpa using h e he]
  rfl

end Event

namespace Journal

variable {j j' : Journal} {P : Entry → Prop} {es : List Event} {id : ChannelId}

/-- The reports among the new entries. -/
theorem Extends.events (h : j.Extends P j') :
    ∃ es, j'.events = j.events ++ es ∧ ∀ e ∈ es, P (.event e) := by
  obtain ⟨new, hnew, hP⟩ := h
  refine ⟨new.filterMap Entry.event?, ?_, fun e he => ?_⟩
  · rw [Journal.events, hnew, List.filterMap_append]
    rfl
  · obtain ⟨x, hx, heq⟩ := List.mem_filterMap.mp he
    cases x with
    | event => exact Option.some.inj heq ▸ hP _ hx
    | wire | delivered | closed => cases heq

theorem eventsOf_of_append (h : j'.events = j.events ++ es) (id : ChannelId) :
    j'.eventsOf id = j.eventsOf id ++ Event.about id es := by
  rw [eventsOf, h]
  exact Event.about_append

/-- The reports about a channel come in the order of its life. -/
structure InOrder (j : Journal) (id : ChannelId) : Prop where
  opened : ∀ xs ys stream path subprotocol,
    j.events = xs ++ ⟨id, .opened stream path subprotocol⟩ :: ys → ∀ e ∈ xs, e.channel ≠ id
  inactive : ∀ xs ys, j.events = xs ++ ⟨id, .inactive⟩ :: ys →
    ⟨id, .inactive⟩ ∉ xs ∧ ∃ zs, ys = ⟨id, .unregistered⟩ :: zs
  unregistered : ∀ xs ys, j.events = xs ++ ⟨id, .unregistered⟩ :: ys → ∀ e ∈ ys, e.channel ≠ id

theorem InOrder.of_pairwise (h : (j.eventsOf id).Pairwise Happening.Precedes)
    (hpaired : Event.Paired j.events) : j.InOrder id := by
  have hcut {xs ys : List Event} {what : Happening} (heq : j.events = xs ++ ⟨id, what⟩ :: ys) :
      (∀ a, ⟨id, a⟩ ∈ xs → a.Precedes what) ∧ ∀ b, ⟨id, b⟩ ∈ ys → what.Precedes b := by
    have hof : j.eventsOf id = Event.about id xs ++ what :: Event.about id ys := by
      rw [← Event.about_cons_self, ← Event.about_append, ← heq]
      rfl
    rw [hof] at h
    obtain ⟨-, hys, hxs⟩ := List.pairwise_append.mp h
    exact ⟨fun a ha => hxs a (Event.mem_about.mpr ha) what List.mem_cons_self,
      fun b hb => (List.pairwise_cons.mp hys).1 b (Event.mem_about.mpr hb)⟩
  refine ⟨fun xs ys stream path subprotocol heq e he hid => ?_, fun xs ys heq => ⟨fun hmem => ?_,
    hpaired xs id ys heq⟩, fun xs ys heq e he hid => ?_⟩
  · subst hid
    exact ((hcut heq).1 e.what he).first stream path subprotocol rfl
  · exact absurd (((hcut heq).1 _ hmem).inactive rfl) (by decide)
  · subst hid
    exact ((hcut heq).2 e.what he).last rfl

end Journal

/-- One for an open channel. -/
def Channel.openness (ch : Channel) : Nat := if ch.closed then 0 else 1

/-- What a task tells a channel that is there. -/
def Task.tells (id : ChannelId) : Task → List Happening
  | .reportWritability j on => if j = id then [.writability on] else []
  | .tearDown j => if j = id then [.inactive, .unregistered] else []

namespace Connection

variable {k : Cause} {c d : Connection} {id : ChannelId} {ch : Channel} {ks : List Call}
  {config : Config} {encoder : Encoder}

theorem total_openness (c : Connection) :
    c.channels.total Channel.openness = c.openChannels.length := by
  rw [Table.total, openChannels, List.length_map]
  induction c.channels.entries with
  | nil => rfl
  | cons e es ih =>
    cases hclosed : e.2.closed <;> simp [Channel.openness, hclosed] at ih ⊢ <;> omega

/-! ## Counting -/

/-- Every closed channel waits for its task, and the counters agree with the table. -/
structure Tallied (c : Connection) : Prop where
  coming : ∀ id, c.nextChannel ≤ id →
    c.channels.get? id = none ∧ c.tasks.count (.tearDown id) = 0
  doomed : ∀ id ch, c.channels.get? id = some ch →
    c.tasks.count (.tearDown id) = if ch.closed then 1 else 0
  balanced : c.stats.opened + c.stats.accepted =
    c.stats.closed + c.channels.total Channel.openness

namespace Tallied

theorem numbered (hc : c.Tallied) (h : c.channels.get? id = some ch) : id < c.nextChannel := by
  by_contra hge
  rw [(hc.coming id (Nat.le_of_not_lt hge)).1] at h
  cases h

theorem along (hc : c.Tallied) (h : Along c d) : d.Tallied where
  coming id hid := by
    obtain ⟨hnone, hzero⟩ := hc.coming id (Nat.le_trans h.nextChannel hid)
    refine ⟨Option.eq_none_iff_forall_ne_some.mpr fun ch' hch' => ?_, (h.tasks id).trans hzero⟩
    obtain ⟨ch, hch, -⟩ := h.channels.back hch'
    rw [hnone] at hch
    cases hch
  doomed id ch' hch' := by
    obtain ⟨ch, hch, habides⟩ := h.channels.back hch'
    rw [h.tasks, habides.closed]
    exact hc.doomed id ch hch
  balanced := by
    have htotal : d.channels.total Channel.openness = c.channels.total Channel.openness :=
      h.channels.total_eq fun _ _ habides => by
        rw [Channel.openness, Channel.openness, habides.closed]
    rw [h.opened, h.accepted, h.closed, htotal]
    exact hc.balanced

/-- An open channel has come, and is counted. -/
theorem made (hc : c.Tallied) (ch : Channel) (ho : ch.closed = false)
    (hchannels : d.channels = c.channels.insert c.nextChannel ch)
    (hnext : d.nextChannel = c.nextChannel + 1) (htasks : d.tasks = c.tasks)
    (hbegun : d.stats.opened + d.stats.accepted = c.stats.opened + c.stats.accepted + 1)
    (hended : d.stats.closed = c.stats.closed) : d.Tallied := by
  obtain ⟨hnone, hzero⟩ := hc.coming c.nextChannel (Nat.le_refl _)
  refine ⟨fun id hid => ?_, fun id e he => ?_, ?_⟩
  · have hlt : c.nextChannel < id := by rwa [hnext] at hid
    rw [hchannels, htasks, Table.get?_insert_of_ne (Nat.ne_of_gt hlt)]
    exact hc.coming id (Nat.le_of_lt hlt)
  · rw [hchannels] at he
    rw [htasks]
    rcases Table.get?_insert_cases he with ⟨rfl, rfl⟩ | he
    · rw [hzero, ho]
      rfl
    · exact hc.doomed id e he
  · have htotal := Table.total_insert Channel.openness c.channels c.nextChannel ch
    rw [Table.share_of_none _ hnone, Channel.openness, ho] at htotal
    have := hc.balanced
    rw [hbegun, hended, hchannels]
    simp at htotal
    omega

theorem close (hc : c.Tallied) (h : c.channels.get? id = some ch) (ho : ch.closed = false)
    (kind : CloseKind) : (c.close id kind).Tallied := by
  obtain ⟨_, _, heq, -⟩ := close_exact h ho kind
  rw [heq]
  refine ⟨fun j hj => ?_, fun j e he => ?_, ?_⟩
  · have hne : j ≠ id := fun hji => absurd (hc.numbered h) (by subst hji; exact Nat.not_lt.mpr hj)
    obtain ⟨hnone, hzero⟩ := hc.coming j hj
    refine ⟨(Table.get?_insert_of_ne hne ..).trans hnone, ?_⟩
    simp [hzero, hne.symm]
  · dsimp only at he
    by_cases hji : j = id
    · subst hji
      rw [Table.get?_insert_self] at he
      obtain rfl := Option.some.inj he
      simp [hc.doomed j ch h, ho, Channel.shut]
    · rw [Table.get?_insert_of_ne hji] at he
      simp [hc.doomed j e he, Ne.symm hji]
  · have htotal := Table.total_insert Channel.openness c.channels id (ch.shut kind)
    rw [Table.share_of_some _ h, Channel.openness, Channel.openness, ho] at htotal
    have := hc.balanced
    simp [Channel.shut] at htotal ⊢
    omega

/-- A task takes a closed channel out. -/
theorem tornDown (hc : c.Tallied) {tasks : List Task} (h : c.tasks = .tearDown id :: tasks) :
    ({ c with tasks := tasks }.runTask (.tearDown id)).Tallied := by
  have hcount (j : ChannelId) : c.tasks.count (.tearDown j) =
      tasks.count (.tearDown j) + if id = j then 1 else 0 := by
    rw [h, List.count_cons]
    simp
  have hcoming (j : ChannelId) (hj : c.nextChannel ≤ j) :
      c.channels.get? j = none ∧ tasks.count (.tearDown j) = 0 := by
    obtain ⟨hnone, hzero⟩ := hc.coming j hj
    rw [hcount] at hzero
    exact ⟨hnone, by omega⟩
  have hothers (j : ChannelId) (hj : j ≠ id) (e : Channel) (he : c.channels.get? j = some e) :
      tasks.count (.tearDown j) = if e.closed then 1 else 0 := by
    rw [← hc.doomed j e he, hcount, if_neg hj.symm]
    rfl
  rw [runTask]
  split
  next hthere =>
    obtain ⟨ch, hch⟩ := Option.isSome_iff_exists.mp hthere
    have hclosed : ch.closed = true := by
      have hone := hc.doomed id ch hch
      rw [hcount, if_pos rfl] at hone
      by_contra hopen
      rw [if_neg hopen] at hone
      omega
    refine ⟨fun j hj => ?_, fun j e he => ?_, ?_⟩
    · obtain ⟨hnone, hzero⟩ := hcoming j hj
      refine ⟨?_, hzero⟩
      refine (Table.get?_erase ..).trans ?_
      split
      · rfl
      · exact hnone
    · exact hothers j (Table.ne_of_get?_erase he) e (Table.get?_of_erase he)
    · have htotal := Table.total_erase Channel.openness c.channels id
      rw [Table.share_of_some _ hch, Channel.openness, hclosed] at htotal
      have := hc.balanced
      exact this.trans (congrArg _ htotal.symm)
  next habsent =>
    have hnone : c.channels.get? id = none := by
      rw [Bool.not_eq_true, Table.contains, Option.isSome_eq_false_iff,
        Option.isNone_iff_eq_none] at habsent
      exact habsent
    refine ⟨hcoming, fun j e he => hothers j ?_ e he, hc.balanced⟩
    rintro rfl
    rw [hnone] at he
    cases he

theorem lifeStep (hc : c.Tallied) (h : LifeStep k c d) : d.Tallied := by
  cases h with
  | along h => exact hc.along h
  | asked path subprotocol =>
    rw [addAsking_eq]
    exact hc.made { c.newChannel path with requested := subprotocol } rfl rfl rfl rfl
      (Nat.add_right_comm ..) rfl
  | admitted stream path subprotocol compression block =>
    exact hc.made (c.enrolledChannel stream path subprotocol compression) rfl rfl rfl rfl
      rfl rfl
  | confirmed => exact ⟨hc.coming, hc.doomed, hc.balanced⟩
  | closed kind h ho => exact hc.close h ho kind
  | tornDown h => exact hc.tornDown h

end Tallied

/-! ## Reporting -/

/-- What was reported of a channel fits the point of its life at which it is. -/
structure Lived (c : Connection) : Prop where
  unborn : ∀ id, c.nextChannel ≤ id → c.journal.eventsOf id = []
  present : ∀ id ch, c.channels.get? id = some ch →
    ∀ what ∈ c.journal.eventsOf id, what.isFinal = false
  ordered : ∀ id, (c.journal.eventsOf id).Pairwise Happening.Precedes
  paired : Event.Paired c.journal.events

namespace Lived

/-- Channels that are there have been told something on their way. -/
theorem told (hc : c.Lived) (hn : c.Tallied) (hnext : c.nextChannel ≤ d.nextChannel)
    (hback : ∀ id ch', d.channels.get? id = some ch' → ∃ ch, c.channels.get? id = some ch)
    {P : Entry → Prop} (hj : c.journal.Extends P d.journal)
    (hP : ∀ e, P (.event e) →
      e.what.isOrdinary = true ∧ ∃ ch, c.channels.get? e.channel = some ch) : d.Lived := by
  obtain ⟨es, hes, hall⟩ := hj.events
  have hnew (id : ChannelId) (what : Happening) (h : what ∈ Event.about id es) :
      what.isOrdinary = true ∧ ∃ ch, c.channels.get? id = some ch :=
    hP _ (hall _ (Event.mem_about.mp h))
  refine ⟨fun id hid => ?_, fun id ch' hch' what hwhat => ?_, fun id => ?_, ?_⟩
  · rw [Journal.eventsOf_of_append hes, hc.unborn id (Nat.le_trans hnext hid), List.nil_append]
    refine List.eq_nil_iff_forall_not_mem.mpr fun what hwhat => ?_
    obtain ⟨-, ch, hch⟩ := hnew id what hwhat
    exact absurd (hn.numbered hch) (Nat.not_lt.mpr (Nat.le_trans hnext hid))
  · obtain ⟨ch, hch⟩ := hback id ch' hch'
    rw [Journal.eventsOf_of_append hes] at hwhat
    rcases List.mem_append.mp hwhat with hold | hwhat
    · exact hc.present id ch hch what hold
    · exact Happening.isFinal_of_isOrdinary (hnew id what hwhat).1
  · have hfirst {b : Happening} (hb : b ∈ Event.about id es) (stream : StreamId) (path : String)
        (subprotocol : Option String) : b ≠ .opened stream path subprotocol := by
      rintro rfl
      cases (hnew id _ hb).1
    rw [Journal.eventsOf_of_append hes, List.pairwise_append]
    -- what is new is ordinary, and whoever hears it is there and has heard nothing final
    refine ⟨hc.ordered id, ?_, fun a ha b hb => ?_⟩
    · refine List.pairwise_of_forall_mem_list fun a ha b hb => ?_
      exact Happening.precedes_of_not_isFinal
        (Happening.isFinal_of_isOrdinary (hnew id a ha).1) (hfirst hb)
    · obtain ⟨-, ch, hch⟩ := hnew id b hb
      exact Happening.precedes_of_not_isFinal (hc.present id ch hch a ha) (hfirst hb)
  · rw [hes]
    exact hc.paired.append (Event.Paired.of_not_isFinal fun e he =>
      Happening.isFinal_of_isOrdinary (hP e (hall e he)).1)

/-- Nothing is reported. -/
theorem silent (hc : c.Lived) (hn : c.Tallied) (hnext : c.nextChannel ≤ d.nextChannel)
    (hback : ∀ id ch', d.channels.get? id = some ch' → ∃ ch, c.channels.get? id = some ch)
    (hj : c.journal.Extends (fun e => e.event? = none) d.journal) : d.Lived :=
  hc.told hn hnext hback hj fun _ he => (nomatch he)

/-- A channel has come, of which nothing is reported or that it was opened. -/
theorem made (hc : c.Lived) (ch : Channel)
    (hchannels : d.channels = c.channels.insert c.nextChannel ch)
    (hnext : d.nextChannel = c.nextChannel + 1) {first : List Happening}
    (hfirst : first = [] ∨ ∃ stream path subprotocol, first = [.opened stream path subprotocol])
    (hevents : d.journal.events = c.journal.events ++ first.map (Event.mk c.nextChannel)) :
    d.Lived := by
  have hfinal : ∀ what ∈ first, what.isFinal = false := by
    rcases hfirst with rfl | ⟨_, _, _, rfl⟩
    · simp
    · simp [Happening.isFinal]
  have hself : d.journal.eventsOf c.nextChannel = first := by
    rw [Journal.eventsOf_of_append hevents, hc.unborn _ (Nat.le_refl _)]
    rcases hfirst with rfl | ⟨_, _, _, rfl⟩
    · rfl
    · exact Event.about_cons_self
  have hothers {id : ChannelId} (hid : id ≠ c.nextChannel) :
      d.journal.eventsOf id = c.journal.eventsOf id := by
    rw [Journal.eventsOf_of_append hevents, Event.about_of_ne, List.append_nil]
    intro e he
    obtain ⟨what, -, rfl⟩ := List.mem_map.mp he
    exact hid.symm
  refine ⟨fun id hid => ?_, fun id e he => ?_, fun id => ?_, ?_⟩
  · have hlt : c.nextChannel < id := by rwa [hnext] at hid
    rw [hothers (Nat.ne_of_gt hlt)]
    exact hc.unborn id (Nat.le_of_lt hlt)
  · by_cases hid : id = c.nextChannel
    · rw [hid, hself]
      exact hfinal
    · rw [hothers hid]
      rw [hchannels, Table.get?_insert_of_ne hid] at he
      exact hc.present id e he
  · by_cases hid : id = c.nextChannel
    · rw [hid, hself]
      rcases hfirst with rfl | ⟨_, _, _, rfl⟩
      · exact .nil
      · exact List.pairwise_singleton _ _
    · rw [hothers hid]
      exact hc.ordered id
  · rw [hevents]
    refine hc.paired.append (Event.Paired.of_not_isFinal fun e he => ?_)
    obtain ⟨what, hwhat, rfl⟩ := List.mem_map.mp he
    exact hfinal what hwhat

theorem tornDown (hc : c.Lived) (hn : c.Tallied) (tasks : List Task) :
    ({ c with tasks := tasks }.runTask (.tearDown id)).Lived := by
  rw [runTask]
  split
  next hthere =>
    obtain ⟨ch, hch⟩ := Option.isSome_iff_exists.mp hthere
    have hevents : ((c.journal.push (.event ⟨id, .inactive⟩)).push
        (.event ⟨id, .unregistered⟩)).events =
          c.journal.events ++ [⟨id, .inactive⟩, ⟨id, .unregistered⟩] := by
      rw [Journal.events_push, Journal.events_push, List.append_assoc]
      rfl
    have hof := Journal.eventsOf_of_append hevents
    have hself : Event.about id [⟨id, .inactive⟩, ⟨id, .unregistered⟩] =
        [.inactive, .unregistered] := by
      rw [Event.about_cons_self, Event.about_cons_self]
      rfl
    have hothers {j : ChannelId} (hj : j ≠ id) :
        Event.about j [⟨id, .inactive⟩, ⟨id, .unregistered⟩] = [] :=
      Event.about_of_ne (by simp [hj.symm])
    refine ⟨fun j hj => ?_, fun j e he => ?_, fun j => ?_, ?_⟩
    · have hne : j ≠ id := by
        rintro rfl
        exact absurd (hn.numbered hch) (Nat.not_lt.mpr hj)
      refine (hof j).trans ?_
      rw [hothers hne, hc.unborn j hj]
      rfl
    · refine fun what hwhat => ?_
      have hold := (hof j).symm ▸ hwhat
      rw [hothers (Table.ne_of_get?_erase he), List.append_nil] at hold
      exact hc.present j e (Table.get?_of_erase he) what hold
    · refine (hof j).symm ▸ ?_
      by_cases hj : j = id
      · subst hj
        rw [hself]
        exact Happening.pairwise_leaving (hc.ordered j) (hc.present j ch hch)
      · rw [hothers hj, List.append_nil]
        exact hc.ordered j
    · exact hevents.symm ▸ hc.paired.append (.pair id)
  · exact hc.silent hn (Nat.le_refl _) (fun _ ch hch => ⟨ch, hch⟩) (.refl _)

theorem lifeStep (hc : c.Lived) (hn : c.Tallied) (h : LifeStep k c d) : d.Lived := by
  cases h with
  | along h =>
    refine hc.told hn h.nextChannel (fun id ch' hch' => ?_) h.journal fun e he => ⟨he.1, ?_⟩
    · obtain ⟨ch, hch, -⟩ := h.channels.back hch'
      exact ⟨ch, hch⟩
    · obtain ⟨ch, hch, -⟩ := he.2
      exact ⟨ch, hch⟩
  | asked path subprotocol =>
    rw [addAsking_eq]
    exact hc.made { c.newChannel path with requested := subprotocol } rfl rfl (.inl rfl)
      (List.append_nil _).symm
  | admitted stream path subprotocol compression block =>
    refine hc.made (c.enrolledChannel stream path subprotocol compression) rfl rfl
      (.inr ⟨stream, path, subprotocol, rfl⟩) ?_
    simp [Entry.event?]
  | @confirmed id ch subprotocol extensions h =>
    exact hc.told hn (Nat.le_refl _) (fun _ ch hch => ⟨ch, hch⟩)
      (P := fun e => e = .event ⟨id, .handshakeCompleted subprotocol extensions⟩)
      (Journal.extends_push _ rfl) (by rintro _ ⟨⟩; exact ⟨rfl, ch, h⟩)
  | @closed id ch kind h ho =>
    obtain ⟨es, hes, hclosing⟩ := closing_close h ho kind
    refine hc.silent hn (Nat.le_of_eq (nextChannel_close c id kind).symm) (fun j e he => ?_)
      ⟨_, hes, fun e he => ?_⟩
    · by_cases hj : j = id
      · exact ⟨ch, hj ▸ h⟩
      · rw [get?_close_of_ne hj] at he
        exact ⟨e, he⟩
    · cases hclosing with
      | silent => obtain rfl := List.mem_singleton.mp he; rfl
      | framed => simp at he; rcases he with rfl | rfl | rfl <;> rfl
  | tornDown => exact hc.tornDown hn _

end Lived

/-! ## Runs -/

/-- What every step keeps, every run keeps. -/
theorem lifePath_induction {P : Connection → Prop} (hstart : P (fresh config encoder))
    (hstep : ∀ k d e, LifeStep k d e → P d → P e) (h : start config encoder = .ok c)
    (ho : c.CarefulRun ks) : P (c.run ks) := by
  induction ks using List.reverseRecOn with
  | nil => exact (start_eq h).1 ▸ hstart
  | append_singleton ks k ih =>
    obtain ⟨hks, hk, -⟩ := carefulRun_append.mp ho
    rw [run_concat]
    exact (lifePath_after (tidy_run h ks) (registered_run h hks) hk).induction
      (fun d e => hstep _ d e) (ih hks)

theorem tallied_fresh (config : Config) (encoder : Encoder) : (fresh config encoder).Tallied where
  coming _ _ := ⟨rfl, rfl⟩
  doomed _ _ hch := nomatch hch
  balanced := by
    have hnone : (Table.empty : Table Channel).total Channel.openness = 0 :=
      Table.total_eq_zero fun _ _ hch => nomatch hch
    exact hnone.symm

theorem lived_fresh (config : Config) (encoder : Encoder) : (fresh config encoder).Lived where
  unborn _ _ := rfl
  present _ _ hch := nomatch hch
  ordered _ := .nil
  paired := .of_not_isFinal fun _ he => nomatch he

theorem tallied_run (h : start config encoder = .ok c) (ho : c.CarefulRun ks) :
    (c.run ks).Tallied :=
  lifePath_induction (tallied_fresh config encoder) (fun _ _ _ hstep hd => hd.lifeStep hstep) h ho

theorem lived_run (h : start config encoder = .ok c) (ho : c.CarefulRun ks) :
    (c.run ks).Lived := by
  have hboth : (c.run ks).Tallied ∧ (c.run ks).Lived :=
    lifePath_induction (P := fun d => d.Tallied ∧ d.Lived)
      ⟨tallied_fresh config encoder, lived_fresh config encoder⟩
      (fun _ _ _ hstep hd => ⟨hd.1.lifeStep hstep, hd.2.lifeStep hd.1 hstep⟩) h ho
  exact hboth.2

/-! ## Tasks -/

theorem tasks_foldl_runTask (ts : List Task) (c : Connection) :
    (ts.foldl runTask c).tasks = c.tasks := by
  induction ts generalizing c with
  | nil => rfl
  | cons t ts ih =>
    rw [List.foldl_cons, ih]
    cases t with
    | reportWritability | tearDown =>
      rw [runTask]
      split <;> rfl

theorem get?_runTask (c : Connection) (t : Task) (id : ChannelId) :
    (c.runTask t).channels.get? id = if t = .tearDown id then none else c.channels.get? id := by
  cases t with
  | reportWritability j on =>
    rw [if_neg (by simp), runTask]
    split <;> rfl
  | tearDown j =>
    rw [runTask]
    split
    · refine (Table.get?_erase ..).trans ?_
      simp [eq_comm]
    next habsent =>
      split
      next heq =>
        obtain rfl := Task.tearDown.inj heq
        simpa [Table.contains] using habsent
      · rfl

/-- Doing what was put off takes out the channels for which there is a task that does so. -/
theorem get?_foldl_runTask (ts : List Task) (c : Connection) (id : ChannelId) :
    (ts.foldl runTask c).channels.get? id =
      if .tearDown id ∈ ts then none else c.channels.get? id := by
  induction ts generalizing c with
  | nil => simp
  | cons t ts ih =>
    rw [List.foldl_cons, ih, get?_runTask]
    by_cases hmem : .tearDown id ∈ ts
    · simp [hmem]
    · by_cases heq : t = .tearDown id
      · simp [hmem, heq]
      · simp [hmem, heq, Ne.symm heq]

theorem get?_runTasks (c : Connection) (id : ChannelId) :
    c.runTasks.channels.get? id =
      if .tearDown id ∈ c.tasks then none else c.channels.get? id :=
  get?_foldl_runTask c.tasks { c with tasks := [] } id

theorem eventsOf_emit (c : Connection) (j : ChannelId) (what : Happening) (id : ChannelId) :
    (c.emit j what).journal.eventsOf id =
      c.journal.eventsOf id ++ if j = id then [what] else [] := by
  have hevents : (c.emit j what).journal.events = c.journal.events ++ [⟨j, what⟩] :=
    List.filterMap_append
  rw [Journal.eventsOf_of_append hevents]
  split
  next heq => rw [heq, Event.about_cons_self]; rfl
  next hne => rw [Event.about_of_ne fun e he => List.mem_singleton.mp he ▸ hne]

theorem eventsOf_runTask (c : Connection) (t : Task) (id : ChannelId) :
    (c.runTask t).journal.eventsOf id =
      c.journal.eventsOf id ++ if c.channels.contains id then t.tells id else [] := by
  cases t with
  | reportWritability j on | tearDown j =>
    rw [runTask, Task.tells]
    by_cases hj : j = id
    · subst hj
      split <;> simp [eventsOf_emit]
    · split <;> simp [eventsOf_emit, hj]

/-- A channel that is there is told the turns that wait, and in the end that it leaves if there is
a task that takes it out. -/
theorem eventsOf_foldl_runTask (ts : List Task) (c : Connection) (id : ChannelId) :
    ∃ turns : List Happening, (∀ what ∈ turns, ∃ on, what = .writability on) ∧
      (ts.foldl runTask c).journal.eventsOf id = c.journal.eventsOf id ++
        if c.channels.contains id then
          turns ++ if .tearDown id ∈ ts then [.inactive, .unregistered] else []
        else [] := by
  induction ts generalizing c with
  | nil => exact ⟨[], fun _ hmem => absurd hmem List.not_mem_nil, by simp⟩
  | cons t ts ih =>
    obtain ⟨turns, hturns, heq⟩ := ih (c.runTask t)
    have hthere : (c.runTask t).channels.contains id =
        if t = .tearDown id then false else c.channels.contains id := by
      rw [Table.contains, get?_runTask]
      split <;> rfl
    rw [eventsOf_runTask, hthere] at heq
    rw [List.foldl_cons, heq]
    cases t with
    | reportWritability j on =>
      refine ⟨(Task.reportWritability j on).tells id ++ turns, ?_, ?_⟩
      · intro what hmem
        rcases List.mem_append.mp hmem with hmem | hmem
        · rw [Task.tells] at hmem
          split at hmem
          · exact ⟨on, List.mem_singleton.mp hmem⟩
          · exact absurd hmem List.not_mem_nil
        · exact hturns what hmem
      · cases c.channels.contains id <;> simp
    | tearDown j =>
      by_cases hj : j = id
      · subst hj
        exact ⟨[], fun _ hmem => absurd hmem List.not_mem_nil, by simp [Task.tells]⟩
      · exact ⟨turns, hturns, by simp [Task.tells, hj, Ne.symm hj]⟩

/-- A channel that is there when everything put off has been done is open. -/
theorem Tallied.open_of_runTasks (hc : c.Tallied) (h : c.runTasks.channels.get? id = some ch) :
    ch.closed = false := by
  rw [get?_runTasks] at h
  split at h
  · cases h
  next hfree =>
    have hcount := hc.doomed id ch h
    rw [List.count_eq_zero.mpr hfree] at hcount
    by_contra hclosed
    rw [if_pos (Bool.not_eq_false _ ▸ hclosed)] at hcount
    exact absurd hcount (by decide)

/-! ## Lifecycles -/

/-- Between the calls of a run every closed channel that is still there has one task which takes it
out, and open channels have none; as many channels have begun as were closed or are open; and
everything that was put off can be done, after which all channels are open.  The reports about a
channel begin with that it was opened, if it was, and they end when it is inactive, with that it
is unregistered. -/
theorem channels_are_torn_down_once (h : start config encoder = .ok c) (ho : c.OrderlyRun ks) :
    (∀ id ch, (c.run ks).channels.get? id = some ch →
      (c.run ks).tasks.count (.tearDown id) = if ch.closed then 1 else 0) ∧
    (c.run ks).stats.opened + (c.run ks).stats.accepted =
      (c.run ks).stats.closed + (c.run ks).openChannels.length ∧
    ((c.run ks).after .runTasks).tasks = [] ∧
    (∀ id ch, ((c.run ks).after .runTasks).channels.get? id = some ch → ch.closed = false) ∧
    ∀ id, (c.run ks).journal.InOrder id := by
  have htallied := tallied_run h ho.careful
  have hlived := lived_run h ho.careful
  refine ⟨htallied.doomed, ?_, tasks_foldl_runTask _ _, fun id ch => htallied.open_of_runTasks,
    fun id => .of_pairwise (hlived.ordered id) hlived.paired⟩
  rw [← total_openness]
  exact htallied.balanced

/-- A channel that was accepted, closed and torn down. -/
theorem torn_down_channel_lived_once :
    ((fresh {} .willing).run (Call.opening ++ [.close 1, .runTasks])).journal.eventsOf 1 =
      [.handshakeCompleted none none, .inactive, .unregistered] ∧
    ((fresh {} .willing).run (Call.opening ++ [.close 1, .runTasks])).journal.InOrder 1 := by
  have hstart : start {} .willing = .ok (fresh {} .willing) := rfl
  have horderly : (fresh {} .willing).OrderlyRun (Call.opening ++ [.close 1, .runTasks]) := by
    decide
  obtain ⟨-, -, -, -, hinOrder⟩ := channels_are_torn_down_once hstart horderly
  exact ⟨by decide, hinOrder 1⟩

end Connection

end ChannelMux
