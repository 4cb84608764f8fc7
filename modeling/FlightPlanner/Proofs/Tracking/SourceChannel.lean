import FlightPlanner.Proofs.Tracking.Schedule

/-!
# The channel of a source

Of all that can happen in a session, only seven things concern its channels and its source. This module lists them,
and follows the channel of a source through a run: it belongs to nobody else, stays open until the source is
cancelled, and carries the fixes that the source accepts, each with a version of its own.
-/

namespace FlightPlanner.Tracking

open Logging (Event)

/-- A source that starts does so with the channel it has or with a new one, and returns a receiver for it. -/
theorem Source.start_eq_ok {source source' : Source} {channels channels' : Channels} {receiver : Receiver}
    (h : source.start channels = .ok (receiver, source', channels')) :
    source.stage ≠ .cancelled ∧ ∃ place, source.senderAmong channels = (place, channels') ∧
      source' = ⟨some place, .active⟩ ∧ receiver = .subscribe channels' place := by
  unfold Source.start at h
  split at h
  · contradiction
  · next hstage =>
    cases h
    exact ⟨hstage, _, rfl, rfl, rfl⟩

/-- A source that accepts a fix is active, and sends it to its channel. -/
theorem Source.push_eq_ok {source : Source} {channels channels' : Channels} {fix : Fix}
    (h : source.push fix channels = .ok channels') :
    source.stage = .active ∧ ∃ place, source.sender = some place ∧
      channels' = channels.modify place (Channel.send (some fix)) := by
  unfold Source.push at h
  split at h
  · next place hstage hsender =>
    cases h
    exact ⟨hstage, place, hsender, rfl⟩
  · contradiction
  · contradiction

namespace Session

/-- What an incident does to the channels and to the source of a session. -/
inductive Moves (session next : Session) : Incident → Prop where
  /-- Nothing. -/
  | still {incident : Incident} (accepted : incident.accepted? = none) (channels : next.channels = session.channels)
      (source : next.source = session.source) (own : next.ownChannels = session.ownChannels) :
      Moves session next incident
  /-- The source starts, with the channel it has or with a new one. -/
  | started {reply : Reply} {place : Nat} (stage : session.source.stage ≠ .cancelled)
      (channels : session.source.senderAmong session.channels = (place, next.channels))
      (source : next.source = ⟨some place, .active⟩) (own : next.ownChannels = session.ownChannels) :
      Moves session next (.answered .start reply)
  /-- The source stops. -/
  | stopped {reply : Reply} (channels : next.channels = session.channels) (source : next.source = session.source.stop)
      (own : next.ownChannels = session.ownChannels) : Moves session next (.answered .stop reply)
  /-- The source is cancelled. -/
  | cancelled {reply : Reply} (both : session.source.cancel session.channels = (next.source, next.channels))
      (own : next.ownChannels = session.ownChannels) : Moves session next (.answered .cancel reply)
  /-- The source accepts a fix. -/
  | accepted {fix : Fix} {place : Nat} (stage : session.source.stage = .active)
      (sender : session.source.sender = some place)
      (channels : next.channels = session.channels.modify place (Channel.send (some fix)))
      (source : next.source = session.source) (own : next.ownChannels = session.ownChannels) :
      Moves session next (.answered (.push fix) .done)
  /-- A channel is opened that does not belong to the source. -/
  | opened {reply : Reply} (channels : next.channels = session.channels ++ [.fresh])
      (source : next.source = session.source)
      (own : next.ownChannels = session.ownChannels ++ [session.channels.length]) :
      Moves session next (.answered .openChannel reply)
  /-- Such a channel changes. -/
  | changed {incident : Incident} {place : Nat} (accepted : incident.accepted? = none) (change : Channel → Channel)
      (mem : place ∈ session.ownChannels) (channels : next.channels = session.channels.modify place change)
      (source : next.source = session.source) (own : next.ownChannels = session.ownChannels) :
      Moves session next incident

variable {survey : Survey} {session next : Session} {incident : Incident}

/-- An action with a receiver leaves channels and source alone if it does so for every receiver there is. -/
theorem moves_withReceiver {number : Nat} {change : Receiver → Session × Reply × List Event} {reply : Reply}
    {events : List Event} (answer : session.withReceiver number change = (next, reply, events))
    (accepted : incident.accepted? = none)
    (still : ∀ receiver, (change receiver).1.channels = session.channels ∧ (change receiver).1.source = session.source ∧
      (change receiver).1.ownChannels = session.ownChannels) : Moves session next incident := by
  rcases withReceiver_cases answer with ⟨rfl, -⟩ | ⟨receiver, -, hchange⟩
  · exact .still accepted rfl rfl rfl
  · obtain ⟨hchannels, hsource, hown⟩ := still receiver
    rw [hchange] at hchannels hsource hown
    exact .still accepted hchannels hsource hown

/-- What a listener does leaves channels and source alone. -/
theorem moves_withFollower {number : Nat} {change : Follower → Follower × Reply} {reply : Reply}
    {events : List Event} (answer : session.withFollower number change = (next, reply, events))
    (accepted : incident.accepted? = none) : Moves session next incident := by
  rcases withFollower_cases answer with ⟨-, rfl, -⟩ | ⟨follower, called, -, rfl, -⟩
  · exact .still accepted rfl rfl rfl
  · exact .still accepted rfl rfl rfl

/-- What changes a channel that does not belong to the source does nothing else. -/
theorem moves_changeChannel {number : Nat} {change : Channel → Channel} {reply : Reply} {events : List Event}
    (answer : session.changeChannel number change = (next, reply, events)) (accepted : incident.accepted? = none) :
    Moves session next incident := by
  rcases changeChannel_cases answer with rfl | ⟨place, hplace, rfl⟩
  · exact .still accepted rfl rfl rfl
  · exact .changed accepted change hplace rfl rfl rfl

/-- Every step does one of these things. -/
theorem Step.moves (step : Step survey session incident next) : Moves session next incident := by
  cases step with
  | work found step => exact .still rfl rfl rfl rfl
  | @act action next reply events single answer =>
    cases action with
    | start =>
      rcases start_cases answer with ⟨rfl, -⟩ | ⟨receiver, source, channels, hstart, rfl, -⟩
      · exact .still rfl rfl rfl rfl
      · obtain ⟨hstage, place, hchannels, rfl, -⟩ := Source.start_eq_ok hstart
        exact .started hstage hchannels rfl rfl
    | stop =>
      cases answer
      exact .stopped rfl rfl rfl
    | cancel =>
      cases answer
      exact .cancelled rfl rfl
    | push fix =>
      rcases push_cases answer with ⟨rfl, why, rfl⟩ | ⟨channels, hpush, rfl, rfl⟩
      · exact .still rfl rfl rfl rfl
      · obtain ⟨hstage, place, hsender, rfl⟩ := Source.push_eq_ok hpush
        exact .accepted hstage hsender rfl rfl rfl
    | openChannel =>
      cases answer
      exact .opened rfl rfl rfl
    | send channel value => exact moves_changeChannel answer rfl
    | close channel => exact moves_changeChannel answer rfl
    | clone number => exact moves_withReceiver answer rfl fun _ => ⟨rfl, rfl, rfl⟩
    | drop number => exact moves_withReceiver answer rfl fun _ => ⟨rfl, rfl, rfl⟩
    | peek number => exact moves_withReceiver answer rfl fun _ => ⟨rfl, rfl, rfl⟩
    | take number => exact moves_withReceiver answer rfl fun _ => ⟨rfl, rfl, rfl⟩
    | follow number limit capacity => exact moves_withReceiver answer rfl fun _ => ⟨rfl, rfl, rfl⟩
    | settle => contradiction
    | receive number =>
      rw [act_receive] at answer
      exact moves_withFollower answer rfl
    | hangUp number =>
      rw [act_hangUp] at answer
      exact moves_withFollower answer rfl

/-- What holds of the channels and of the source at all times. -/
structure Sound (session : Session) : Prop where
  /-- The channels that do not belong to the source are there. -/
  own : ∀ place ∈ session.ownChannels, place < session.channels.length
  /-- The channel of the source is open and belongs to nobody else. -/
  sender : ∀ place, session.source.sender = some place →
    place ∉ session.ownChannels ∧ ∃ channel, session.channels[place]? = some channel ∧ channel.isOpen = true

/-- It holds where nothing was done. -/
theorem sound_fresh : fresh.Sound := by
  constructor <;> simp [fresh, Source.fresh]

/-- A channel that is there stays there when any one channel changes. -/
theorem getElem?_modify_of_some {channels : Channels} {place : Nat} {channel : Channel}
    (h : channels[place]? = some channel) (other : Nat) (change : Channel → Channel) :
    (channels.modify other change)[place]? = some (if other = place then change channel else channel) := by
  rw [List.getElem?_modify, h]
  rfl

/-- It keeps holding. -/
theorem Moves.sound (moves : Moves session next incident) (h : session.Sound) : next.Sound := by
  cases moves with
  | still accepted channels source own =>
    constructor
    · rw [own, channels]
      exact h.own
    · rw [own, channels, source]
      exact h.sender
  | @started reply place stage channels source own =>
    unfold Source.senderAmong at channels
    cases hsender : session.source.sender with
    | none =>
      rw [hsender] at channels
      obtain ⟨rfl, hchannels⟩ := Prod.mk.inj channels
      constructor
      · intro other hother
        have hlength := h.own other (own ▸ hother)
        rw [← hchannels, List.length_append]
        omega
      · intro other hother
        rw [source] at hother
        obtain rfl := Option.some.inj hother
        refine ⟨fun hmem => absurd (h.own _ (own ▸ hmem)) (Nat.lt_irrefl _), .fresh, ?_, rfl⟩
        rw [← hchannels, List.getElem?_concat_length]
    | some place =>
      rw [hsender] at channels
      obtain ⟨rfl, hchannels⟩ := Prod.mk.inj channels
      constructor
      · rw [own, ← hchannels]
        exact h.own
      · rw [own, ← hchannels, source, ← hsender]
        exact h.sender
  | stopped channels source own =>
    have hsender : next.source.sender = session.source.sender := by
      rw [source, Source.stop]
      split <;> rfl
    constructor
    · rw [own, channels]
      exact h.own
    · rw [own, channels, hsender]
      exact h.sender
  | cancelled both own =>
    obtain ⟨hsource, hchannels⟩ := Prod.mk.inj both
    constructor
    · have hlength : next.channels.length = session.channels.length := by
        rw [← hchannels]
        split
        · exact List.length_modify ..
        · rfl
      rw [own, hlength]
      exact h.own
    · rw [← hsource]
      exact fun _ hnone => nomatch hnone
  | @accepted fix place stage sender channels source own =>
    constructor
    · rw [own, channels, List.length_modify]
      exact h.own
    · intro other hother
      rw [source] at hother
      obtain ⟨hforeign, channel, hchannel, hopen⟩ := h.sender other hother
      rw [own, channels]
      refine ⟨hforeign, _, getElem?_modify_of_some hchannel _ _, ?_⟩
      split
      · rwa [Channel.send, if_pos hopen]
      · exact hopen
  | opened channels source own =>
    constructor
    · intro other hother
      rw [own, List.mem_append, List.mem_singleton] at hother
      rw [channels, List.length_append, List.length_singleton]
      rcases hother with hother | rfl
      · exact Nat.lt_succ_of_lt (h.own other hother)
      · exact Nat.lt_succ_self _
    · intro other hother
      rw [source] at hother
      obtain ⟨hforeign, channel, hchannel, hopen⟩ := h.sender other hother
      rw [channels]
      refine ⟨?_, channel, getElem?_append_of_some hchannel _, hopen⟩
      rw [own, List.mem_append, List.mem_singleton]
      rintro (hmem | rfl)
      · exact hforeign hmem
      · exact absurd (List.getElem?_eq_some_iff.mp hchannel).1 (Nat.lt_irrefl _)
  | @changed incident place accepted change mem channels source own =>
    constructor
    · rw [own, channels, List.length_modify]
      exact h.own
    · intro other hother
      rw [source] at hother
      obtain ⟨hforeign, channel, hchannel, hopen⟩ := h.sender other hother
      have hne : place ≠ other := fun heq => hforeign (heq ▸ mem)
      rw [own, channels]
      refine ⟨hforeign, _, getElem?_modify_of_some hchannel _ _, ?_⟩
      rwa [if_neg hne]

/-- What holds of the channel at a place while it is, or was, the one of the source: the source has no other one,
nobody else sends to it, and it has counted and shows the fixes accepted since it had a certain version. -/
structure Feeds (place version : Nat) (accepted : List Fix) (session : Session) : Prop where
  /-- The source sends to it, or is cancelled. -/
  sender : session.source.sender = some place ∨ session.source = ⟨none, .cancelled⟩
  /-- It belongs to nobody else. -/
  foreign : place ∉ session.ownChannels
  /-- It has one more version for each fix, shows the latest, and is closed once the source is cancelled. -/
  channel : ∃ channel, session.channels[place]? = some channel ∧ channel.version = version + accepted.length ∧
    (accepted ≠ [] → channel.latest = accepted.getLast?) ∧
    (session.source.stage = .cancelled → channel.isOpen = false)

/-- It keeps holding, with one more fix whenever the source accepts one. -/
theorem Moves.feeds {place version : Nat} {accepted : List Fix} (moves : Moves session next incident)
    (sound : session.Sound) (h : session.Feeds place version accepted) :
    next.Feeds place version (accepted ++ incident.accepted?.toList) := by
  obtain ⟨hsender, hforeign, channel, hchannel, hversion, hlatest, hclosed⟩ := h
  cases moves with
  | still none channels source own =>
    rw [none, Option.toList_none, List.append_nil]
    exact ⟨source ▸ hsender, own ▸ hforeign, channel, channels ▸ hchannel, hversion, hlatest, source ▸ hclosed⟩
  | started stage channels source own =>
    have hsome : session.source.sender = some place :=
      hsender.resolve_right fun hcancelled => stage (by rw [hcancelled])
    rw [Source.senderAmong, hsome] at channels
    obtain ⟨rfl, hchannels⟩ := Prod.mk.inj channels
    change next.Feeds place version (accepted ++ [])
    rw [List.append_nil]
    refine ⟨.inl (by rw [source]), own ▸ hforeign, channel, ?_, hversion, hlatest, fun hstage => ?_⟩
    · rw [← hchannels, hchannel]
    · rw [source] at hstage
      contradiction
  | stopped channels source own =>
    change next.Feeds place version (accepted ++ [])
    rw [List.append_nil]
    refine ⟨?_, own ▸ hforeign, channel, channels ▸ hchannel, hversion, hlatest, fun hstage => hclosed ?_⟩
    · rw [source, Source.stop]
      rcases hsender with hsome | hcancelled
      · exact .inl (by split <;> exact hsome)
      · exact .inr (by rw [hcancelled]; rfl)
    · rw [source, Source.stop] at hstage
      split at hstage
      · contradiction
      · exact hstage
  | cancelled both own =>
    obtain ⟨hsource, hchannels⟩ := Prod.mk.inj both
    change next.Feeds place version (accepted ++ [])
    rw [List.append_nil]
    refine ⟨.inr hsource.symm, own ▸ hforeign, ?_⟩
    rw [← hchannels]
    rcases hsender with hsome | hcancelled
    · rw [hsome]
      refine ⟨_, getElem?_modify_of_some hchannel _ _, ?_⟩
      rw [if_pos rfl]
      exact ⟨hversion, hlatest, fun _ => rfl⟩
    · rw [hcancelled]
      exact ⟨channel, hchannel, hversion, hlatest, fun _ => hclosed (by rw [hcancelled])⟩
  | @accepted fix other stage sender channels source own =>
    have hsome : session.source.sender = some place :=
      hsender.resolve_right fun hcancelled => by simp [hcancelled] at stage
    obtain rfl : other = place := Option.some.inj (sender.symm.trans hsome)
    have hopen : channel.isOpen = true := by
      obtain ⟨-, same, hsame, hopen⟩ := sound.sender other sender
      rwa [Option.some.inj (hchannel.symm.trans hsame)]
    refine ⟨source ▸ hsender, own ▸ hforeign, _, channels ▸ getElem?_modify_of_some hchannel _ _, ?_⟩
    rw [if_pos rfl, Channel.send, if_pos hopen]
    refine ⟨?_, fun _ => ?_, fun hstage => ?_⟩
    · rw [List.length_append]
      exact congrArg (· + 1) hversion
    · exact List.getLast?_concat.symm
    · rw [source, stage] at hstage
      contradiction
  | opened channels source own =>
    change next.Feeds place version (accepted ++ [])
    rw [List.append_nil]
    refine ⟨source ▸ hsender, ?_, channel, channels ▸ getElem?_append_of_some hchannel _, hversion, hlatest,
      source ▸ hclosed⟩
    rw [own, List.mem_append, List.mem_singleton]
    rintro (hmem | rfl)
    · exact hforeign hmem
    · exact absurd (List.getElem?_eq_some_iff.mp hchannel).1 (Nat.lt_irrefl _)
  | @changed incident other none change mem channels source own =>
    have hne : other ≠ place := fun heq => hforeign (heq ▸ mem)
    rw [none, Option.toList_none, List.append_nil]
    refine ⟨source ▸ hsender, own ▸ hforeign, channel, ?_, hversion, hlatest, source ▸ hclosed⟩
    rw [channels, getElem?_modify_of_some hchannel, if_neg hne]

/-- Once its source is cancelled, a session accepts no fixes and its source stays so. -/
theorem Moves.cancelled_for_good (moves : Moves session next incident) (stage : session.source.stage = .cancelled) :
    next.source.stage = .cancelled ∧ incident.accepted?.toList = [] := by
  cases moves with
  | still none channels source own => exact ⟨source ▸ stage, by rw [none, Option.toList_none]⟩
  | started stage' channels source own => exact absurd stage stage'
  | stopped channels source own =>
    refine ⟨?_, rfl⟩
    rw [source, Source.stop, if_neg (by simp [stage])]
    exact stage
  | cancelled both own =>
    obtain ⟨hsource, -⟩ := Prod.mk.inj both
    exact ⟨by rw [← hsource], rfl⟩
  | accepted stage' sender channels source own => exact absurd (stage.symm.trans stage') (by decide)
  | opened channels source own => exact ⟨source ▸ stage, rfl⟩
  | changed none change mem channels source own => exact ⟨source ▸ stage, by rw [none, Option.toList_none]⟩

/-- Every session that comes about is sound. -/
theorem Run.sound {first last : Session} {trace : Trace} (run : Run survey first trace last) (sound : first.Sound) :
    last.Sound := by
  induction run with
  | nil => exact sound
  | cons step _ ih => exact ih (step.moves.sound sound)

/-- A start that is answered with a receiver finds or opens the channel of the source, which from then on carries
the fixes that are accepted; the new receiver has seen what was sent before. -/
theorem Step.feeds_of_started {number : Nat} (step : Step survey session (.answered .start (.receiver number)) next)
    (sound : session.Sound) : ∃ place version, next.Feeds place version [] ∧
      next.receivers = session.receivers ++ [some ⟨place, version⟩] ∧ number = session.receivers.length ∧
      next.followers = session.followers := by
  have hsound := step.moves.sound sound
  cases step with
  | act single answer =>
    rcases start_cases answer with ⟨-, why, hrefused⟩ | ⟨receiver, source, channels, hstart, rfl, hreply⟩
    · contradiction
    · obtain ⟨-, place, -, rfl, rfl⟩ := Source.start_eq_ok hstart
      obtain ⟨hforeign, channel, hchannel, -⟩ := hsound.sender place rfl
      have hversion : Receiver.subscribe channels place = ⟨place, channel.version⟩ := by
        rw [Receiver.subscribe, show channels[place]? = some channel from hchannel]
        rfl
      refine ⟨place, channel.version, ⟨.inl rfl, hforeign, channel, hchannel, rfl, ?_⟩, ?_⟩
      · exact ⟨fun hne => absurd rfl hne, fun hstage => nomatch hstage⟩
      · exact ⟨by rw [hversion], Reply.receiver.inj hreply, rfl⟩

end Session

end FlightPlanner.Tracking
