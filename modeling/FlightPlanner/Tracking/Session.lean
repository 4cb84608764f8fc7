import FlightPlanner.Tracking.Follower
import FlightPlanner.Tracking.Source

/-!
# Tracking sessions

A source, channels of their own, receivers and followers together, and what can be done with them. Receivers,
followers and channels of their own are known by the order in which they came into being. A follower takes its
receiver for itself.

Followers work in turns. Each is called as soon as there is something for it to do: when it comes into being,
when the channel that it waits for changes, or when its listener makes room or leaves while it holds a list.
Those that are called work in the order of the calls, each as far as it can. They do not affect each other, so
that their order shows only in the order of what they tell.
-/

namespace FlightPlanner.Tracking

open Logging (Event)

/-- Everything that takes part in the tracking of positions. -/
structure Session where
  /-- All channels. -/
  channels : Channels
  /-- The source. -/
  source : Source
  /-- The places of the channels that do not belong to the source. -/
  ownChannels : List Nat
  /-- The receivers; nothing in place of those that were dropped or taken by a follower. -/
  receivers : List (Option Receiver)
  /-- The followers. -/
  followers : List Follower
  /-- The numbers of the followers that are called to work, in the order of the calls. -/
  called : List Nat
deriving DecidableEq

/-- What can be done in a session. -/
inductive Action where
  /-- To start the source. -/
  | start
  /-- To stop the source. -/
  | stop
  /-- To cancel the source. -/
  | cancel
  /-- To give the source a fix. -/
  | push (fix : Fix)
  /-- To open a channel that does not belong to the source. -/
  | openChannel
  /-- To send to such a channel. -/
  | send (channel : Nat) (value : Option Fix)
  /-- To close such a channel. -/
  | close (channel : Nat)
  /-- To make a second receiver that has seen what the first has seen. -/
  | clone (receiver : Nat)
  /-- To drop a receiver. -/
  | drop (receiver : Nat)
  /-- To look at a receiver without taking anything as seen. -/
  | peek (receiver : Nat)
  /-- To take what a receiver shows as seen. -/
  | take (receiver : Nat)
  /-- To let a follower take a receiver. -/
  | follow (receiver limit capacity : Nat)
  /-- To let all followers work until they can do nothing more. -/
  | settle
  /-- To let the listener of a follower take a list. -/
  | receive (follower : Nat)
  /-- To let the listener of a follower leave. -/
  | hangUp (follower : Nat)

/-- What a look at a receiver says of changes. -/
inductive News where
  /-- There is something that it has not seen. -/
  | unseen
  /-- There is nothing new. -/
  | nothing
  /-- Nothing more can be sent. -/
  | closed
deriving DecidableEq, Repr

/-- The answer to an action. -/
inductive Reply where
  /-- It is done. -/
  | done
  /-- It was refused. -/
  | refused (why : Refusal)
  /-- A receiver came into being. -/
  | receiver (number : Nat)
  /-- A follower came into being. -/
  | follower (number : Nat)
  /-- What a receiver shows, and whether it is new. -/
  | shown (value : Option Fix) (news : News)
  /-- What was taken as seen. -/
  | taken (value : Option Fix)
  /-- For each follower, whether it has come to its end. -/
  | settled (finished : List Bool)
  /-- What a listener found. -/
  | delivered (delivery : Follower.Delivery)
  /-- There is no receiver, follower or channel of the given number. -/
  | unknown
deriving DecidableEq

namespace Session

/-- A session in which nothing was done. -/
def fresh : Session := ⟨[], .fresh, [], [], [], []⟩

/-- The receiver of a number. -/
def receiver? (session : Session) (number : Nat) : Option Receiver := (session.receivers[number]?).join

/-- The answer to a new receiver, and the session with it. -/
def addReceiver (session : Session) (receiver : Receiver) : Session × Reply :=
  ({ session with receivers := session.receivers ++ [some receiver] }, .receiver session.receivers.length)

/-- The session with some more followers called to work; one that is called already keeps its turn. -/
def call (session : Session) (numbers : List Nat) : Session :=
  { session with called := session.called ++ numbers.filter fun number => !session.called.contains number }

/-- The numbers of the followers that wait for a change of the channel at a place. -/
def waitingAt (session : Session) (place : Nat) : List Nat :=
  (List.range session.followers.length).filter fun number =>
    (session.followers[number]?).any fun follower => follower.isWaitingAt place

/-- The numbers of the followers that wait for a change of the source's channel. -/
def waitingAtSource (session : Session) : List Nat := session.source.sender.elim [] session.waitingAt

/-- What a receiver says of changes. -/
def newsOf (channels : Channels) (receiver : Receiver) : News :=
  if !receiver.isOpen channels then .closed
  else if receiver.hasUnseen channels then .unseen
  else .nothing

/-- The session once its source was started. -/
def start (session : Session) : Session × Reply × List Event :=
  match session.source.start session.channels with
  | .error why => (session, .refused why, [])
  | .ok (receiver, source, channels) =>
    let (session, reply) := { session with source, channels }.addReceiver receiver
    (session, reply, [.trackingStarted])

/-- The session once its source was given a fix. -/
def push (session : Session) (fix : Fix) : Session × Reply × List Event :=
  match session.source.push fix session.channels with
  | .error why => (session, .refused why, [])
  | .ok channels => ({ session with channels }.call session.waitingAtSource, .done, [])

/-- The session once its source was cancelled. -/
def cancel (session : Session) : Session × Reply × List Event :=
  let (source, channels) := session.source.cancel session.channels
  ({ session with source, channels }.call session.waitingAtSource, .done, [.trackingCancelled])

/-- The session with one of its own channels changed. -/
def changeChannel (session : Session) (number : Nat) (change : Channel → Channel) :
    Session × Reply × List Event :=
  match session.ownChannels[number]? with
  | some place =>
    ({ session with channels := session.channels.modify place change }.call (session.waitingAt place), .done, [])
  | none => (session, .unknown, [])

/-- The session with one more channel of its own, and a receiver for it. -/
def openChannel (session : Session) : Session × Reply × List Event :=
  let place := session.channels.length
  let channels := session.channels ++ [.fresh]
  let (session, reply) := { session with
    channels, ownChannels := session.ownChannels ++ [place] }.addReceiver (.subscribe channels place)
  (session, reply, [])

/-- The session once a follower has taken a receiver. -/
def follow (session : Session) (number : Nat) (receiver : Receiver) (limit capacity : Nat) :
    Session × Reply × List Event :=
  let joined := { session with
    receivers := session.receivers.set number none
    followers := session.followers ++ [Follower.fresh receiver limit capacity] }
  (joined.call [session.followers.length], .follower session.followers.length, [])

/-- The session once all followers have done what they can. What they tell stands in the order of their
turns. -/
def settle (survey : Survey) (session : Session) : Session × Reply × List Event :=
  let settled := session.followers.map (Follower.settle survey session.channels)
  let followers := settled.map Prod.fst
  ({ session with followers, called := [] }, .settled (followers.map Follower.isFinished),
    session.called.flatMap fun number => ((settled[number]?).map Prod.snd).getD [])

/-- What an action does to a session with a receiver, if there is one of the given number. -/
def withReceiver (session : Session) (number : Nat)
    (change : Receiver → Session × Reply × List Event) : Session × Reply × List Event :=
  match session.receiver? number with
  | some receiver => change receiver
  | none => (session, .unknown, [])

/-- What a listener does to a session, if there is a follower of the given number. A follower that holds a list
is called, for it may now be able to go on. -/
def withFollower (session : Session) (number : Nat) (change : Follower → Follower × Reply) :
    Session × Reply × List Event :=
  match session.followers[number]? with
  | some follower =>
    let session := if follower.isHolding then session.call [number] else session
    let (follower, reply) := change follower
    ({ session with followers := session.followers.set number follower }, reply, [])
  | none => (session, .unknown, [])

/-- The session after an action, the answer to it and what it tells. -/
def act (survey : Survey) (session : Session) : Action → Session × Reply × List Event
  | .start => session.start
  | .stop => ({ session with source := session.source.stop }, .done, session.source.stopEvents)
  | .cancel => session.cancel
  | .push fix => session.push fix
  | .openChannel => session.openChannel
  | .send channel value => session.changeChannel channel (Channel.send value)
  | .close channel => session.changeChannel channel Channel.close
  | .clone number => session.withReceiver number fun receiver =>
    let (session, reply) := session.addReceiver receiver
    (session, reply, [])
  | .drop number => session.withReceiver number fun _ =>
    ({ session with receivers := session.receivers.set number none }, .done, [])
  | .peek number => session.withReceiver number fun receiver =>
    (session, .shown (receiver.latest session.channels) (newsOf session.channels receiver), [])
  | .take number => session.withReceiver number fun receiver =>
    ({ session with receivers := session.receivers.set number (some (receiver.caughtUp session.channels)) },
      .taken (receiver.latest session.channels), [])
  | .follow number limit capacity => session.withReceiver number fun receiver =>
    session.follow number receiver limit capacity
  | .settle => session.settle survey
  | .receive number => session.withFollower number fun follower =>
    let (follower, delivery) := follower.receive
    (follower, .delivered delivery)
  | .hangUp number => session.withFollower number fun follower => (follower.hangUp, .done)

end Session

end FlightPlanner.Tracking
