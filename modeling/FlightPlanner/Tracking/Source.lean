import FlightPlanner.Logging.Event
import FlightPlanner.Tracking.Channel

/-!
# Position sources

A source of fixes that is fed by hand. It can be started, stopped and started again, always with the one
channel that its first start opened; once it is cancelled, that channel is closed and the source stays as it
is. Fixes are accepted only while it is active.
-/

namespace FlightPlanner.Tracking

open Logging (Event)

/-- The stages in the life of a source. -/
inductive Stage where
  /-- It was never started. -/
  | idle
  /-- It accepts fixes. -/
  | active
  /-- It was stopped, and may be started again. -/
  | stopped
  /-- It was cancelled for good. -/
  | cancelled
deriving DecidableEq, Repr

/-- Why a source refuses to act. -/
inductive Refusal where
  /-- It is not active. -/
  | notActive
  /-- It was cancelled. -/
  | cancelled
deriving DecidableEq, Repr

/-- The wording of a refusal. -/
def Refusal.message : Refusal → String
  | .notActive => "Position source is not active"
  | .cancelled => "Position source was cancelled"

/-- A source of fixes. -/
structure Source where
  /-- The place of the channel it sends to, if it has one. -/
  sender : Option Nat
  /-- Its stage. -/
  stage : Stage
deriving DecidableEq, Repr

namespace Source

/-- A source that was never started. -/
def fresh : Source := ⟨none, .idle⟩

/-- Whether a source accepts fixes. -/
def isActive (source : Source) : Bool := source.stage = .active

/-- The channel that a source sends to, which is opened if it has none yet, and the channels there are then. -/
def senderAmong (source : Source) (channels : Channels) : Nat × Channels :=
  match source.sender with
  | some place => (place, channels)
  | none => (channels.length, channels ++ [.fresh])

/-- Starting a source gives a receiver for its fixes. -/
def start (source : Source) (channels : Channels) : Except Refusal (Receiver × Source × Channels) :=
  if source.stage = .cancelled then .error .cancelled
  else
    let (place, channels) := source.senderAmong channels
    .ok (.subscribe channels place, ⟨some place, .active⟩, channels)

/-- Stopping a source; one that is not active stays as it is. -/
def stop (source : Source) : Source :=
  if source.stage = .active then { source with stage := .stopped } else source

/-- Cancelling a source closes its channel. -/
def cancel (source : Source) (channels : Channels) : Source × Channels :=
  (⟨none, .cancelled⟩, match source.sender with
    | some place => channels.modify place Channel.close
    | none => channels)

/-- The channels once a source has sent a fix. -/
def push (source : Source) (fix : Fix) (channels : Channels) : Except Refusal Channels :=
  match source.stage, source.sender with
  | .active, some place => .ok (channels.modify place (Channel.send (some fix)))
  | .cancelled, _ => .error .cancelled
  | _, _ => .error .notActive

/-- What stopping a source tells. -/
def stopEvents (source : Source) : List Event := if source.stage = .active then [.trackingStopped] else []

end Source

end FlightPlanner.Tracking
