import ChannelMux.Connection.Call
import ChannelMux.Connection.Handle
import ChannelMux.Encoder.Plan
import ChannelMux.Proofs.Admission
import ChannelMux.Proofs.Agreement
import ChannelMux.Proofs.Asking
import ChannelMux.Proofs.Causes
import ChannelMux.Proofs.CorePaths
import ChannelMux.Proofs.Delivery
import ChannelMux.Proofs.Endings
import ChannelMux.Proofs.Farewells
import ChannelMux.Proofs.Fates
import ChannelMux.Proofs.Finishing
import ChannelMux.Proofs.Firings
import ChannelMux.Proofs.Flushes
import ChannelMux.Proofs.Grammar
import ChannelMux.Proofs.Holes
import ChannelMux.Proofs.Isolation
import ChannelMux.Proofs.Lifecycles
import ChannelMux.Proofs.Lines
import ChannelMux.Proofs.Lists
import ChannelMux.Proofs.Losses
import ChannelMux.Proofs.Maps
import ChannelMux.Proofs.Negotiation
import ChannelMux.Proofs.Nesting
import ChannelMux.Proofs.Openings
import ChannelMux.Proofs.Pacing
import ChannelMux.Proofs.Passages
import ChannelMux.Proofs.Pump
import ChannelMux.Proofs.Registration
import ChannelMux.Proofs.Responses
import ChannelMux.Proofs.Sentinels
import ChannelMux.Proofs.Settlements
import ChannelMux.Proofs.Silences
import ChannelMux.Proofs.Stalls
import ChannelMux.Proofs.StreamZero
import ChannelMux.Proofs.Turns
import ChannelMux.Proofs.Weights
