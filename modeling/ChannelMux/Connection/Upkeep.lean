import ChannelMux.Connection.Handshaking

/-! # Upkeep

What happens to a connection apart from frames and calls: work that was put off, deadlines that
pass, room that becomes free, and the end of the connection.
-/

namespace ChannelMux.Connection

/-! ## Tasks -/

def runTask (c : Connection) : Task → Connection
  | .reportWritability id writable =>
    if c.channels.contains id then c.emit id (.writability writable) else c
  | .tearDown id =>
    if c.channels.contains id then
      { c with channels := c.channels.erase id }.emit id .inactive |>.emit id .unregistered
    else c

/-- Do everything that was put off. -/
def runTasks (c : Connection) : Connection := c.tasks.foldl runTask { c with tasks := [] }

/-! ## Deadlines -/

def fireTimer (c : Connection) : Timer → Connection
  | .registryRemoval stream => { c with registry := c.registry.removeClosed stream }
  | .handshakeTimeout id =>
    if (c.channels.get? id).any fun ch => !ch.closed && ch.handshake.isPending then
      c.failHandshake id (.handshake .timedOut)
    else c

/-- Fire timers that are due, at most as many as given. -/
def fireDue (now : Time) : Nat → Connection → Connection
  | 0, c => c
  | n + 1, c =>
    match c.timers.popDue now with
    | none => c
    | some (t, timers) => fireDue now n ({ c with timers := timers }.fireTimer t)

/-- Fire every timer that is due. One that fires may arm one other timer, and that one none, so
twice as many rounds as there are timers are enough. -/
def timePassed (c : Connection) (now : Time) : Connection :=
  fireDue now (2 * c.timers.entries.length) c

/-! ## Room -/

def recoverChannel (c : Connection) (id : ChannelId) : Connection :=
  match c.channels.get? id with
  | none => c
  | some ch =>
    let (ch, turns) := ch.recover c.config.lowWatermark
    let c := { c with channels := c.channels.insert id ch }
    if turns then c.reportWritable id else c

/-- The connection has become writable or has ceased to be. -/
def writabilityChanged (c : Connection) (writable : Bool) : Connection :=
  if writable then c.openChannels.foldl recoverChannel c else c

/-! ## The end -/

def loseChannel (c : Connection) (id : ChannelId) : Connection :=
  let c := c.failParked id .connectionClosed
  (c.emit id (.remoteClosed .connectionClosed)).close id .remote

/-- The connection is gone. -/
def connectionLost (c : Connection) : Connection :=
  let lost := c.inflight.entries.map fun e => e.2.ticket
  let c := { c with inflight := .empty }.resolveAll lost (.failed .connectionClosed)
  let c := c.openChannels.foldl loseChannel c
  { c with
    registry := c.registry.clear
    timers := {}
    batch := c.batch.clear
    reading := false }.tell none .inactive

end ChannelMux.Connection
