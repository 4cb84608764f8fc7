import FlightPlanner.Airport.Events
import FlightPlanner.Tracking.Channel

/-!
# Followers

A follower waits for fixes at a receiver and sends the airports nearest to each to a listener, through a queue
that holds only so many lists. It works in single steps: it notices a change, takes the latest fix, and sends
its list as soon as there is room. It ends when its channel is closed and shows nothing new, or when its
listener is gone.
-/

namespace FlightPlanner.Tracking

open Logging (Event)

/-- What a follower knows of the world: how to rank airports, and which airports there are. -/
structure Survey where
  /-- How airports are ranked. -/
  gauge : Gauge
  /-- The airports there are. -/
  airports : List Airport

/-- What a follower is about to do. -/
inductive Duty where
  /-- To wait for a change. -/
  | waiting
  /-- To take the latest fix, for it has noticed a change. -/
  | noticed
  /-- To send a list. -/
  | holding (list : List RankedAirport)
  /-- Nothing more. -/
  | finished
deriving DecidableEq

/-- A follower with its queue and its listener. -/
structure Follower where
  /-- Where it waits for fixes. -/
  receiver : Receiver
  /-- How many airports it lists. -/
  limit : Nat
  /-- How many lists the queue holds. -/
  capacity : Nat
  /-- What it is about to do. -/
  duty : Duty
  /-- The lists that were sent and not yet taken, the oldest first. -/
  queue : List (List RankedAirport)
  /-- Whether the listener is there. -/
  hasListener : Bool
deriving DecidableEq

namespace Follower

/-- A follower that has done nothing yet. -/
def fresh (receiver : Receiver) (limit capacity : Nat) : Follower :=
  ⟨receiver, limit, capacity, .waiting, [], true⟩

/-- Whether a follower has come to its end. -/
def isFinished (follower : Follower) : Bool := follower.duty = .finished

/-- Whether a follower waits for a change of the channel at a place. -/
def isWaitingAt (follower : Follower) (place : Nat) : Bool :=
  follower.duty = .waiting && follower.receiver.channel = place

/-- Whether a follower has a list that it could not send yet. -/
def isHolding (follower : Follower) : Bool :=
  match follower.duty with
  | .holding _ => true
  | _ => false

/-- A follower that takes the latest fix; where there is none, it waits again. -/
def take (survey : Survey) (channels : Channels) (follower : Follower) : Follower × List Event :=
  let receiver := follower.receiver.caughtUp channels
  match receiver.latest channels with
  | none => ({ follower with receiver, duty := .waiting }, [])
  | some fix =>
    let list := survey.gauge.nearest fix.coordinate survey.airports follower.limit
    ({ follower with receiver, duty := .holding list },
      rankingEvents fix.coordinate survey.airports follower.limit ++ [.fixFollowed fix.coordinate list.length])

/-- The next step of a follower and what it tells; nothing while it can do none. -/
def step? (survey : Survey) (channels : Channels) (follower : Follower) : Option (Follower × List Event) :=
  match follower.duty with
  | .waiting =>
    if follower.receiver.hasUnseen channels then
      some ({ follower with receiver := follower.receiver.caughtUp channels, duty := .noticed }, [])
    else if follower.receiver.isOpen channels then none
    else some ({ follower with duty := .finished }, [.channelClosed])
  | .noticed => some (follower.take survey channels)
  | .holding list =>
    if !follower.hasListener then some ({ follower with duty := .finished }, [.listenerGone])
    else if follower.queue.length < follower.capacity then
      some ({ follower with duty := .waiting, queue := follower.queue ++ [list] }, [])
    else none
  | .finished => none

/-- How many steps a follower can take at most before something else happens. -/
def work (channels : Channels) (follower : Follower) : Nat :=
  (if follower.receiver.hasUnseen channels then 4 else 0) +
    match follower.duty with
    | .waiting => 1
    | .noticed => 3
    | .holding _ => 2
    | .finished => 0

/-- Once a fix is taken there are at most two steps to do. -/
theorem work_take_le (survey : Survey) (channels : Channels) (follower : Follower) :
    (follower.take survey channels).1.work channels ≤ 2 := by
  unfold take work
  cases h : (follower.receiver.caughtUp channels).latest channels <;>
    simp [h, Receiver.hasUnseen_caughtUp]

/-- Every step leaves less work. -/
theorem work_step {survey : Survey} {channels : Channels} {follower next : Follower} {events : List Event}
    (h : follower.step? survey channels = some (next, events)) :
    next.work channels < follower.work channels := by
  unfold step? at h
  split at h
  · next hd =>
    split at h
    · next hu =>
      injection h with h
      injection h with h _
      subst h
      simp [work, hd, hu, Receiver.hasUnseen_caughtUp]
    · next hu =>
      split at h
      · contradiction
      · injection h with h
        injection h with h _
        subst h
        simp [work, hd, hu]
  · next hd =>
    injection h with h
    have ht := work_take_le survey channels follower
    rw [h] at ht
    simp only [work, hd] at ht ⊢
    omega
  · next hd =>
    split at h
    · injection h with h
      injection h with h _
      subst h
      simp [work, hd]
    · split at h
      · injection h with h
        injection h with h _
        subst h
        simp [work, hd]
      · contradiction
  · contradiction

/-- A follower after up to so many steps, and all that they tell. -/
def advance (survey : Survey) (channels : Channels) : (steps : Nat) → Follower → Follower × List Event
  | 0, follower => (follower, [])
  | steps + 1, follower =>
    match follower.step? survey channels with
    | none => (follower, [])
    | some (next, events) =>
      let (last, more) := advance survey channels steps next
      (last, events ++ more)

/-- A follower that has done all it can until something else happens, and all that this tells. -/
def settle (survey : Survey) (channels : Channels) (follower : Follower) : Follower × List Event :=
  follower.advance survey channels (follower.work channels)

/-- With enough steps nothing is left to do. -/
theorem step?_advance {survey : Survey} {channels : Channels} {steps : Nat} {follower : Follower}
    (h : follower.work channels ≤ steps) :
    (follower.advance survey channels steps).1.step? survey channels = none := by
  induction steps generalizing follower with
  | zero =>
    cases hs : follower.step? survey channels with
    | none => exact hs
    | some found =>
      obtain ⟨next, events⟩ := found
      have := work_step hs
      omega
  | succ steps ih =>
    cases hs : follower.step? survey channels with
    | none => simp [advance, hs]
    | some found =>
      obtain ⟨next, events⟩ := found
      have := work_step hs
      simpa [advance, hs] using ih (by omega)

/-- A follower that has settled can do nothing more. -/
theorem step?_settle (survey : Survey) (channels : Channels) (follower : Follower) :
    (follower.settle survey channels).1.step? survey channels = none :=
  step?_advance (Nat.le_refl _)

/-- What a listener finds. -/
inductive Delivery where
  /-- A list. -/
  | list (airports : List RankedAirport)
  /-- Nothing yet. -/
  | nothingYet
  /-- Nothing now and nothing later, for the follower has come to its end. -/
  | disconnected
deriving DecidableEq

/-- The listener takes the oldest list of the queue. -/
def receive (follower : Follower) : Follower × Delivery :=
  match follower.queue with
  | list :: rest => ({ follower with queue := rest }, .list list)
  | [] => (follower, if follower.isFinished then .disconnected else .nothingYet)

/-- The listener leaves, and the queue with it. -/
def hangUp (follower : Follower) : Follower := { follower with queue := [], hasListener := false }

end Follower

end FlightPlanner.Tracking
