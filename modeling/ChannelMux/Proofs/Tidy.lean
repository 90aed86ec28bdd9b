import ChannelMux.Proofs.Reads
import ChannelMux.Proofs.RegistrySteps

/-!
# Tidy connections

What every reachable connection satisfies, whatever its surroundings do: channels bear numbers that
were given out, only closed channels are torn down, and a closed channel has no handshake to wait
for.
-/

namespace ChannelMux.Connection

variable {strict : Prop} {k : Call} {c c' : Connection} {id : ChannelId} {ch : Channel}

structure Tidy (c : Connection) : Prop where
  numbered : ∀ {id ch}, c.channels.get? id = some ch → id < c.nextChannel
  doomed : ∀ {id}, .tearDown id ∈ c.tasks →
    id < c.nextChannel ∧ ∀ ch, c.channels.get? id = some ch → ch.closed = true
  decided : ∀ {id ch}, c.channels.get? id = some ch → ch.closed = true →
    ch.handshake.isPending = false

namespace Tidy

/-- The next channel is not there yet. -/
theorem get?_nextChannel (hc : c.Tidy) : c.channels.get? c.nextChannel = none :=
  Option.eq_none_iff_forall_ne_some.mpr fun _ h => Nat.lt_irrefl _ (hc.numbered h)

/-- Channels that were there, closed if they were closed, and no more tasks that tear down. -/
theorem of_back (hc : c.Tidy) (hnext : c.nextChannel ≤ c'.nextChannel)
    (htasks : ∀ id, .tearDown id ∈ c'.tasks → .tearDown id ∈ c.tasks)
    (hback : ∀ id ch', c'.channels.get? id = some ch' → ∃ ch, c.channels.get? id = some ch ∧
      ch'.closed = ch.closed ∧ (ch'.handshake.isPending = true → ch.handshake.isPending = true)) :
    c'.Tidy where
  numbered h := by
    obtain ⟨ch, hch, -⟩ := hback _ _ h
    exact Nat.lt_of_lt_of_le (hc.numbered hch) hnext
  doomed h := by
    obtain ⟨hlt, hclosed⟩ := hc.doomed (htasks _ h)
    refine ⟨Nat.lt_of_lt_of_le hlt hnext, ?_⟩
    intro ch' h'
    obtain ⟨ch, hch, heq, -⟩ := hback _ _ h'
    rw [heq, hclosed ch hch]
  decided h hclosed := by
    obtain ⟨ch, hch, heq, hpend⟩ := hback _ _ h
    rw [heq] at hclosed
    apply Bool.eq_false_iff.mpr
    intro hp
    rw [hc.decided hch hclosed] at hpend
    exact Bool.false_ne_true (hpend hp)

theorem beside (hc : c.Tidy) (h : Beside c c') : c'.Tidy := by
  refine hc.of_back (Nat.le_of_eq h.nextChannel.symm) ?_ ?_
  · intro id ht
    rcases h.tasks _ ht with ht | ⟨_, _, heq⟩
    · exact ht
    · cases heq
  · intro id ch' hch'
    obtain ⟨ch, hch, hakin⟩ := h.channels.back hch'
    exact ⟨ch, hch, hakin.closed, hakin.pending⟩

theorem quiet (hc : c.Tidy) (h : Quiet c c') : c'.Tidy := by
  refine hc.of_back (Nat.le_of_eq h.nextChannel.symm) (fun id ht => h.tasks ▸ ht) ?_
  intro id ch' hch'
  obtain ⟨ch, hch, halike⟩ := h.channels.back hch'
  exact ⟨ch, hch, halike.closed, fun hp => halike.handshake ▸ hp⟩

/-- One channel has got a new value, and is torn down only if that is closed. -/
theorem of_insert (hc : c.Tidy) (ch' : Channel) (h : c'.channels = c.channels.insert id ch')
    (hnext : c.nextChannel ≤ c'.nextChannel) (hid : id < c'.nextChannel)
    (htasks : ∀ j, .tearDown j ∈ c'.tasks →
      j = id ∧ ch'.closed = true ∨ j ≠ id ∧ .tearDown j ∈ c.tasks)
    (hdecided : ch'.closed = true → ch'.handshake.isPending = false) : c'.Tidy where
  numbered hj := by
    rw [h] at hj
    rcases Table.get?_insert_cases hj with ⟨hji, rfl⟩ | hj
    · rw [hji]
      exact hid
    · exact Nat.lt_of_lt_of_le (hc.numbered hj) hnext
  doomed hj := by
    rw [h]
    simp only [Table.get?_insert]
    rcases htasks _ hj with ⟨rfl, hclosed⟩ | ⟨hji, hj⟩
    · rw [if_pos rfl]
      exact ⟨hid, fun d hd => by rw [← Option.some.inj hd, hclosed]⟩
    · rw [if_neg hji]
      exact ⟨Nat.lt_of_lt_of_le (hc.doomed hj).1 hnext, (hc.doomed hj).2⟩
  decided hj hclosed := by
    rw [h] at hj
    rcases Table.get?_insert_cases hj with ⟨-, rfl⟩ | hj
    · exact hdecided hclosed
    · exact hc.decided hj hclosed

theorem close (hc : c.Tidy) (id : ChannelId) (kind : CloseKind) : (c.close id kind).Tidy := by
  rcases close_cases c id kind with ⟨-, heq⟩ | ⟨ch, h, ho⟩
  · rw [heq]; exact hc
  · obtain ⟨_, _, _, _, heq, -⟩ := close_eq h ho kind
    rw [heq]
    refine hc.of_insert (ch.shut kind) rfl (Nat.le_refl _) (hc.numbered h) ?_
      fun _ => ch.isPending_shut kind
    intro j hj
    rw [List.mem_append, List.mem_singleton, Task.tearDown.injEq] at hj
    by_cases hji : j = id
    · exact .inl ⟨hji, rfl⟩
    · exact .inr ⟨hji, hj.resolve_right hji⟩

theorem readPath (hc : c.Tidy) (h : ReadPath c c') : c'.Tidy :=
  h.induction (fun _ _ hq hc => hc.quiet hq) (fun _ id hc => hc.close id .remote) hc

/-- A new value for a channel that is open. -/
theorem insert (hc : c.Tidy) (h : c.channels.get? id = some ch) (ch' : Channel)
    (ho : ch.closed = false) (ho' : ch'.closed = false) (registry : Registry ChannelId) :
    { c with channels := c.channels.insert id ch', registry := registry }.Tidy := by
  refine hc.of_insert ch' rfl (Nat.le_refl _) (hc.numbered h) ?_ ?_
  · intro j hj
    refine .inr ⟨?_, hj⟩
    rintro rfl
    exact Bool.false_ne_true (ho.symm.trans ((hc.doomed hj).2 ch h))
  · intro hclosed
    exact absurd (ho'.symm.trans hclosed) Bool.false_ne_true

theorem erase (hc : c.Tidy) (id : ChannelId) {tasks : List Task}
    (htasks : ∀ t ∈ tasks, t ∈ c.tasks) (registry : Registry ChannelId) :
    { c with channels := c.channels.erase id, tasks := tasks, registry := registry }.Tidy := by
  refine hc.of_back (Nat.le_refl _) (fun _ ht => htasks _ ht) ?_
  intro j ch' hj
  exact ⟨ch', Table.get?_of_erase hj, rfl, fun h => h⟩

theorem made (hc : c.Tidy) {ch : Channel} (ho : ch.closed = false) :
    { c with
      channels := c.channels.insert c.nextChannel ch
      nextChannel := c.nextChannel + 1 }.Tidy := by
  refine hc.of_insert ch rfl (Nat.le_succ _) (Nat.lt_succ_self _) ?_ ?_
  · intro j hj
    exact .inr ⟨Nat.ne_of_lt (hc.doomed hj).1, hj⟩
  · intro hclosed
    exact absurd (ho.symm.trans hclosed) Bool.false_ne_true

theorem registryStep (hc : c.Tidy) (h : RegistryStep strict c c') : c'.Tidy := by
  cases h with
  | beside h => exact hc.beside h
  | closed id kind => exact hc.close id kind
  | made path => exact hc.made rfl
  | assigned h ho _ _ _ => exact hc.insert h _ ho (by exact ho) _
  | forgotten _ _ _ _ => exact hc.erase _ (fun _ ht => ht) _
  | ended h ho _ _ => exact hc.insert h _ ho (by exact ho) c.registry
  | expired stream =>
    exact hc.of_back (Nat.le_refl _) (fun _ ht => ht) fun _ ch h => ⟨ch, h, rfl, fun hp => hp⟩
  | tornDown h => exact hc.erase _ (fun t ht => h ▸ List.mem_cons_of_mem _ ht) c.registry
  | cleared _ =>
    exact hc.of_back (Nat.le_refl _) (fun _ ht => ht) fun _ ch h => ⟨ch, h, rfl, fun hp => hp⟩
  | received item h _ =>
    exact (hc.quiet (.insert h _ (alike_receive _ item) _)).readPath (readPath_receive ..)
  | cycleEnded => exact hc.readPath (readPath_readCycleEnded c)
  | readBegun id => exact hc.readPath (readPath_beginRead c id)
  | autoReadSet id on => exact hc.readPath (readPath_setAutoRead c id on)

theorem registryPath (hc : c.Tidy) (h : RegistryPath strict c c') : c'.Tidy :=
  h.induction (fun _ _ hs hc => hc.registryStep hs) hc

theorem after (hc : c.Tidy) (k : Call) : (c.after k).Tidy :=
  hc.registryPath (registryPath_run c [k] (False.elim : False → _))

end Tidy

/-- A connection before its first call. -/
def fresh (config : Config) (encoder : Encoder) : Connection :=
  { config, encoder, batch := .ofCapacity config.batchCapacity }

theorem start_eq {config : Config} {encoder : Encoder} (h : start config encoder = .ok c) :
    c = fresh config encoder ∧ config.validate = .ok () := by
  rw [start] at h
  cases hv : config.validate with
  | error f => rw [hv] at h; cases h
  | ok u => rw [hv] at h; exact ⟨(Except.ok.inj h).symm, rfl⟩

theorem tidy_start {config : Config} {encoder : Encoder} (h : start config encoder = .ok c) :
    c.Tidy := by
  rw [(start_eq h).1]
  exact ⟨nofun, nofun, nofun⟩

theorem tidy_run {config : Config} {encoder : Encoder} (h : start config encoder = .ok c)
    (ks : List Call) : (c.run ks).Tidy :=
  (tidy_start h).registryPath (registryPath_run c ks (False.elim : False → _))

end ChannelMux.Connection
