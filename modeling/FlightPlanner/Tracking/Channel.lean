import FlightPlanner.Tracking.Fix

/-!
# Channels of fixes

A channel holds the latest fix that was sent to it. A receiver remembers how much it has seen, and so notices a
change once, however many fixes were sent since; fixes in between are passed over. A closed channel still
shows its latest fix.
-/

namespace FlightPlanner.Tracking

/-- A channel. -/
structure Channel where
  /-- The latest fix, if any was sent. -/
  latest : Option Fix
  /-- How often something was sent. -/
  version : Nat
  /-- Whether something can still be sent. -/
  isOpen : Bool
deriving DecidableEq

namespace Channel

/-- A channel to which nothing was sent. -/
def fresh : Channel := ⟨none, 0, true⟩

/-- A channel to which one more value is sent; a closed one stays as it is. -/
def send (value : Option Fix) (channel : Channel) : Channel :=
  if channel.isOpen then { channel with latest := value, version := channel.version + 1 } else channel

/-- A channel to which nothing more can be sent. -/
def close (channel : Channel) : Channel := { channel with isOpen := false }

end Channel

/-- The channels there are, each known by its place. -/
abbrev Channels := List Channel

/-- One end of a channel, at which its fixes can be seen. -/
structure Receiver where
  /-- The place of the channel. -/
  channel : Nat
  /-- The version of the channel that was seen last. -/
  seen : Nat
deriving DecidableEq, Repr

namespace Receiver

/-- A receiver that takes what is there now as seen. -/
def subscribe (channels : Channels) (place : Nat) : Receiver :=
  ⟨place, ((channels[place]?).map Channel.version).getD 0⟩

/-- The channel of a receiver. -/
def channel? (receiver : Receiver) (channels : Channels) : Option Channel := channels[receiver.channel]?

/-- The fix that the channel shows. -/
def latest (receiver : Receiver) (channels : Channels) : Option Fix :=
  (receiver.channel? channels).bind Channel.latest

/-- Whether there is something that the receiver has not seen. -/
def hasUnseen (receiver : Receiver) (channels : Channels) : Bool :=
  match receiver.channel? channels with
  | some channel => channel.version ≠ receiver.seen
  | none => false

/-- Whether something can still be sent to the channel. -/
def isOpen (receiver : Receiver) (channels : Channels) : Bool :=
  match receiver.channel? channels with
  | some channel => channel.isOpen
  | none => false

/-- The receiver that has seen all there is. -/
def caughtUp (receiver : Receiver) (channels : Channels) : Receiver := subscribe channels receiver.channel

/-- A receiver that has seen all there is has nothing left to notice. -/
theorem hasUnseen_caughtUp (receiver : Receiver) (channels : Channels) :
    (receiver.caughtUp channels).hasUnseen channels = false := by
  unfold caughtUp subscribe hasUnseen channel?
  cases h : channels[receiver.channel]? <;> simp

end Receiver

end FlightPlanner.Tracking
