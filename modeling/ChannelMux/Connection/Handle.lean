import ChannelMux.Connection.Basic

/-! # Writability handles

A handle shows whether a channel is writable and may be kept for longer than the channel lives.
After the channel was torn down it goes on to show what it showed last.
-/

namespace ChannelMux

structure Handle where
  channel : ChannelId
  writable : Bool
deriving DecidableEq, Repr

namespace Connection

/-- Take a handle of a channel that has not been torn down. -/
def handle? (c : Connection) (id : ChannelId) : Option Handle :=
  (c.channels.get? id).map fun ch => ⟨id, ch.writable⟩

end Connection

/-- Bring a handle up to date. -/
def Handle.refresh (h : Handle) (c : Connection) : Handle := (c.handle? h.channel).getD h

end ChannelMux
