import FlightPlanner.Tracking.Source

/-!
# Conversations with a source

A source is asked to start, to stop, to cancel and to take fixes, in any order and as often as one likes. This
module follows such a conversation from a source that was never started, among any channels that there are
already: it opens one channel at most, and every receiver that it ever returned shows the latest fix that it took.
-/

namespace FlightPlanner.Tracking

/-- What a source can be asked. -/
inductive Call where
  /-- To start. -/
  | start
  /-- To stop. -/
  | stop
  /-- To cancel. -/
  | cancel
  /-- To take a fix. -/
  | push (fix : Fix)

/-- What a source returns. -/
inductive Outcome where
  /-- A receiver for its fixes. -/
  | receiver (receiver : Receiver)
  /-- Nothing, for it did as it was asked. -/
  | done
  /-- An error. -/
  | refused (why : Refusal)

/-- What a source returns to a call, and the source and the channels after it. -/
def Source.perform (source : Source) (channels : Channels) : Call → Outcome × Source × Channels
  | .start =>
    match source.start channels with
    | .ok (receiver, source, channels) => (.receiver receiver, source, channels)
    | .error why => (.refused why, source, channels)
  | .stop => (.done, source.stop, channels)
  | .cancel => (.done, source.cancel channels)
  | .push fix =>
    match source.push fix channels with
    | .ok channels => (.done, source, channels)
    | .error why => (.refused why, source, channels)

/-- The fix that a call brought, if it was taken. -/
def Call.taken : Call → Outcome → Option Fix
  | .push fix, .done => some fix
  | _, _ => none

/-- The receiver that was returned, if there is one. -/
def Outcome.receiver? : Outcome → Option Receiver
  | .receiver new => some new
  | _ => none

/-- A source among channels, with all that it was asked so far and what it returned. -/
structure Conversation where
  /-- The source. -/
  source : Source
  /-- All channels, those that the source did not open first. -/
  channels : Channels
  /-- The calls with their outcomes, the oldest first. -/
  exchanges : List (Call × Outcome)

namespace Conversation

/-- A conversation that has not begun, among some channels. -/
def fresh (others : Channels) : Conversation := ⟨.fresh, others, []⟩

/-- What the source would return to a call, and the source and the channels after it. -/
def answer (conversation : Conversation) (call : Call) : Outcome × Source × Channels :=
  conversation.source.perform conversation.channels call

/-- The conversation after one more call. -/
def ask (conversation : Conversation) (call : Call) : Conversation :=
  let (outcome, source, channels) := conversation.answer call
  ⟨source, channels, conversation.exchanges ++ [(call, outcome)]⟩

/-- The conversation in which a fresh source was asked this and nothing else. -/
def asked (others : Channels) (calls : List Call) : Conversation := calls.foldl ask (fresh others)

/-- The fixes that the source took, the oldest first. -/
def taken (conversation : Conversation) : List Fix :=
  conversation.exchanges.filterMap fun (call, outcome) => call.taken outcome

/-- The receivers that the source returned, the oldest first. -/
def returned (conversation : Conversation) : List Receiver :=
  conversation.exchanges.filterMap fun (_, outcome) => outcome.receiver?

/-- The calls so far, the oldest first. -/
def calls (conversation : Conversation) : List Call := conversation.exchanges.map Prod.fst

/-- What a conversation tells of its source and of the channels. -/
structure Consistent (others : Channels) (conversation : Conversation) : Prop where
  /-- The source is cancelled once it was asked to cancel. -/
  cancelled : conversation.source.stage = .cancelled ↔ .cancel ∈ conversation.calls
  /-- The source has a sender while it is active or stopped, and that for the channel it opened. -/
  sender : conversation.source.sender =
    if conversation.source.stage = .active ∨ conversation.source.stage = .stopped then some others.length else none
  /-- A source that was never started returned nothing. -/
  idle : conversation.source.stage = .idle → conversation.returned = []
  /-- One that is active or stopped did return something. -/
  opened : conversation.source.stage = .active ∨ conversation.source.stage = .stopped → conversation.returned ≠ []
  /-- Without a receiver no fix was taken. -/
  untaken : conversation.returned = [] → conversation.taken = []
  /-- With the first receiver there is one more channel, which shows the latest fix, and no other one changes. -/
  channels : conversation.channels = others ++ if conversation.returned = [] then [] else
    [⟨conversation.taken.getLast?, conversation.taken.length, conversation.source.stage ≠ .cancelled⟩]
  /-- Every receiver is one of that channel. -/
  places : ∀ receiver ∈ conversation.returned, receiver.channel = others.length

/-- A fresh source is consistent with having been asked nothing. -/
theorem consistent_fresh (others : Channels) : (fresh others).Consistent others := by
  constructor <;> simp [fresh, Source.fresh, calls, taken, returned]

variable {others : Channels} {conversation : Conversation}

/-- The source after a call is the one of the answer. -/
@[simp]
theorem source_ask (call : Call) : (conversation.ask call).source = (conversation.answer call).2.1 := rfl

/-- The channels after a call are those of the answer. -/
@[simp]
theorem channels_ask (call : Call) : (conversation.ask call).channels = (conversation.answer call).2.2 := rfl

/-- A call is added to the calls so far. -/
@[simp]
theorem calls_ask (call : Call) : (conversation.ask call).calls = conversation.calls ++ [call] := by
  simp [ask, calls]

/-- A fix that is taken is added to those so far. -/
@[simp]
theorem taken_ask (call : Call) : (conversation.ask call).taken =
    conversation.taken ++ (call.taken (conversation.answer call).1).toList := by
  cases h : call.taken (conversation.answer call).1 <;> simp [ask, taken, h]

/-- A receiver that is returned is added to those so far. -/
@[simp]
theorem returned_ask (call : Call) : (conversation.ask call).returned =
    conversation.returned ++ (conversation.answer call).1.receiver?.toList := by
  cases h : (conversation.answer call).1.receiver? <;> simp [ask, returned, h]

/-- Changing the channel after some others changes that one only. -/
theorem modify_length_append (others : Channels) (channel : Channel) (change : Channel → Channel) :
    (others ++ [channel]).modify others.length change = others ++ [change channel] := by
  induction others with
  | nil => rfl
  | cons first rest ih =>
    rw [List.cons_append, List.length_cons, List.modify_succ_cons, ih, List.cons_append]

/-- While a source is active or stopped, it has a sender for the one channel that it opened. -/
theorem Consistent.of_opened (h : conversation.Consistent others)
    (hopened : conversation.source.stage = .active ∨ conversation.source.stage = .stopped) :
    conversation.source.sender = some others.length ∧ conversation.returned ≠ [] ∧
      conversation.channels = others ++ [⟨conversation.taken.getLast?, conversation.taken.length, true⟩] := by
  have hreturned := h.opened hopened
  refine ⟨?_, hreturned, ?_⟩
  · rw [h.sender, if_pos hopened]
  · rw [h.channels, if_neg hreturned]
    rcases hopened with hstage | hstage <;> simp [hstage]

/-- A call that changes nothing and brings nothing keeps a conversation consistent, except for the first one that
asks to cancel. -/
theorem Consistent.ask_of_unchanged (h : conversation.Consistent others) {call : Call} {outcome : Outcome}
    (hanswer : conversation.answer call = (outcome, conversation.source, conversation.channels))
    (htaken : call.taken outcome = none) (hreceiver : outcome.receiver? = none)
    (hcancel : call = .cancel → conversation.source.stage = .cancelled) :
    (conversation.ask call).Consistent others := by
  have hcalls : .cancel ∈ conversation.calls ++ [call] ↔ .cancel ∈ conversation.calls := by
    rw [List.mem_append, List.mem_singleton]
    exact or_iff_left_of_imp fun heq => h.cancelled.mp (hcancel heq.symm)
  constructor <;>
    simp only [source_ask, channels_ask, calls_ask, taken_ask, returned_ask, hanswer, htaken, hreceiver, hcalls,
      Option.toList_none, List.append_nil]
  · exact h.cancelled
  · exact h.sender
  · exact h.idle
  · exact h.opened
  · exact h.untaken
  · exact h.channels
  · exact h.places

/-- Asking for a start keeps a conversation consistent: the first one opens the channel, later ones use it. -/
theorem Consistent.ask_start (h : conversation.Consistent others) : (conversation.ask .start).Consistent others := by
  have hcancelled := h.cancelled
  by_cases hstage : conversation.source.stage = .cancelled
  · have hanswer : conversation.answer .start =
        (.refused .cancelled, conversation.source, conversation.channels) := by
      simp [answer, Source.perform, Source.start, hstage]
    exact h.ask_of_unchanged hanswer rfl rfl (fun heq => nomatch heq)
  · by_cases hidle : conversation.source.stage = .idle
    · have hreturned := h.idle hidle
      have htaken := h.untaken hreturned
      have hanswer : conversation.answer .start =
          (.receiver ⟨others.length, 0⟩, ⟨some others.length, .active⟩, others ++ [.fresh]) := by
        simp [answer, Source.perform, Source.start, Source.senderAmong, hidle, h.sender, h.channels, hreturned,
          Receiver.subscribe, Channel.fresh]
      constructor <;> simp_all [Outcome.receiver?, Call.taken, Channel.fresh]
    · have hopened : conversation.source.stage = .active ∨ conversation.source.stage = .stopped := by
        cases h : conversation.source.stage <;> simp_all
      obtain ⟨hsender, hreturned, hchannels⟩ := h.of_opened hopened
      have hanswer : conversation.answer .start = (.receiver ⟨others.length, conversation.taken.length⟩,
          ⟨some others.length, .active⟩, conversation.channels) := by
        simp [answer, Source.perform, Source.start, Source.senderAmong, hstage, hsender, hchannels,
          Receiver.subscribe]
      have hplaces := h.places
      constructor <;> simp_all [Outcome.receiver?, Call.taken]
      rintro receiver (hearlier | rfl)
      · exact hplaces receiver hearlier
      · rfl

/-- Asking to stop keeps a conversation consistent: only an active source stops. -/
theorem Consistent.ask_stop (h : conversation.Consistent others) : (conversation.ask .stop).Consistent others := by
  by_cases hstage : conversation.source.stage = .active
  · obtain ⟨hsender, hreturned, hchannels⟩ := h.of_opened (.inl hstage)
    have hanswer : conversation.answer .stop =
        (.done, ⟨some others.length, .stopped⟩, conversation.channels) := by
      simp [answer, Source.perform, Source.stop, hstage, hsender]
    have hcancelled := h.cancelled
    have hplaces := h.places
    constructor <;> simp_all [Outcome.receiver?, Call.taken]
  · have hanswer : conversation.answer .stop = (.done, conversation.source, conversation.channels) := by
      simp [answer, Source.perform, Source.stop, hstage]
    exact h.ask_of_unchanged hanswer rfl rfl (fun heq => nomatch heq)

/-- Asking to cancel keeps a conversation consistent: the channel is closed if there is one. -/
theorem Consistent.ask_cancel (h : conversation.Consistent others) : (conversation.ask .cancel).Consistent others := by
  by_cases hopened : conversation.source.stage = .active ∨ conversation.source.stage = .stopped
  · obtain ⟨hsender, hreturned, hchannels⟩ := h.of_opened hopened
    have hanswer : conversation.answer .cancel = (.done, ⟨none, .cancelled⟩,
        others ++ [⟨conversation.taken.getLast?, conversation.taken.length, false⟩]) := by
      simp [answer, Source.perform, Source.cancel, hsender, hchannels, modify_length_append, Channel.close]
    have hplaces := h.places
    constructor <;> simp_all [Outcome.receiver?, Call.taken]
  · have hanswer : conversation.answer .cancel = (.done, ⟨none, .cancelled⟩, conversation.channels) := by
      simp [answer, Source.perform, Source.cancel, h.sender, hopened]
    by_cases hstage : conversation.source.stage = .cancelled
    · have hsource : conversation.source = ⟨none, .cancelled⟩ := by
        rw [← hstage, ← (h.sender.trans (if_neg hopened))]
      rw [← hsource] at hanswer
      exact h.ask_of_unchanged hanswer rfl rfl (fun _ => hstage)
    · have hidle : conversation.source.stage = .idle := by
        cases h : conversation.source.stage <;> simp_all
      have hreturned := h.idle hidle
      have htaken := h.untaken hreturned
      have hchannels := h.channels
      constructor <;> simp_all [Outcome.receiver?, Call.taken]

/-- Asking to take a fix keeps a conversation consistent: only an active source takes it. -/
theorem Consistent.ask_push (h : conversation.Consistent others) (fix : Fix) :
    (conversation.ask (.push fix)).Consistent others := by
  by_cases hstage : conversation.source.stage = .active
  · obtain ⟨hsender, hreturned, hchannels⟩ := h.of_opened (.inl hstage)
    have hanswer : conversation.answer (.push fix) = (.done, conversation.source,
        others ++ [⟨some fix, conversation.taken.length + 1, true⟩]) := by
      simp [answer, Source.perform, Source.push, hstage, hsender, hchannels, modify_length_append, Channel.send]
    have hcancelled := h.cancelled
    have hplaces := h.places
    constructor <;> simp_all [Outcome.receiver?, Call.taken]
  · have hanswer : ∃ why, conversation.answer (.push fix) =
        (.refused why, conversation.source, conversation.channels) := by
      cases hstage' : conversation.source.stage <;> simp_all [answer, Source.perform, Source.push]
    obtain ⟨why, hanswer⟩ := hanswer
    exact h.ask_of_unchanged hanswer rfl rfl (fun heq => nomatch heq)

/-- Any call keeps a conversation consistent. -/
theorem Consistent.ask (h : conversation.Consistent others) (call : Call) :
    (conversation.ask call).Consistent others := by
  cases call with
  | start => exact h.ask_start
  | stop => exact h.ask_stop
  | cancel => exact h.ask_cancel
  | push fix => exact h.ask_push fix

/-- A conversation that began with a fresh source is consistent, whatever the source was asked. -/
theorem consistent_asked (others : Channels) (calls : List Call) : (asked others calls).Consistent others := by
  have hall : ∀ conversation : Conversation, conversation.Consistent others →
      (calls.foldl Conversation.ask conversation).Consistent others := by
    induction calls with
    | nil => exact fun _ h => h
    | cons call rest ih => exact fun conversation h => ih _ (h.ask call)
  exact hall _ (consistent_fresh others)

/-- The calls of a conversation are those that were made. -/
theorem calls_asked (others : Channels) (calls : List Call) : (asked others calls).calls = calls := by
  have hall : ∀ conversation : Conversation,
      (calls.foldl Conversation.ask conversation).calls = conversation.calls ++ calls := by
    induction calls with
    | nil => simp
    | cons call rest ih =>
      intro conversation
      rw [List.foldl_cons, ih, calls_ask, List.append_assoc]
      rfl
  exact hall _

/-- What a source returns to a fix depends on its stage only. -/
theorem Consistent.outcome_push (h : conversation.Consistent others) (fix : Fix) :
    (conversation.answer (.push fix)).1 = match conversation.source.stage with
      | .active => .done
      | .cancelled => .refused .cancelled
      | _ => .refused .notActive := by
  have hsender := h.sender
  cases hstage : conversation.source.stage <;> simp_all [answer, Source.perform, Source.push]

/-- A start is refused once the source is cancelled, and only then. -/
theorem outcome_start (conversation : Conversation) :
    (conversation.source.stage = .cancelled → (conversation.answer .start).1 = .refused .cancelled) ∧
      (conversation.source.stage ≠ .cancelled → ∃ receiver, (conversation.answer .start).1 = .receiver receiver) := by
  constructor
  · intro hstage
    simp [answer, Source.perform, Source.start, hstage]
  · intro hstage
    simp [answer, Source.perform, Source.start, hstage]

/-- A call that is refused changes neither the source nor any channel. -/
theorem answer_of_refused {call : Call} {why : Refusal} (h : (conversation.answer call).1 = .refused why) :
    (conversation.answer call).2 = (conversation.source, conversation.channels) := by
  unfold answer at h ⊢
  cases call with
  | start =>
    simp only [Source.perform] at h ⊢
    split at h
    · contradiction
    · rfl
  | stop => contradiction
  | cancel => contradiction
  | push fix =>
    simp only [Source.perform] at h ⊢
    split at h
    · contradiction
    · rfl

/-- A receiver that was returned shows the latest fix that was taken, on a channel that is open until the source is
cancelled. -/
theorem Consistent.shown (h : conversation.Consistent others) {receiver : Receiver}
    (hreceiver : receiver ∈ conversation.returned) :
    receiver.latest conversation.channels = conversation.taken.getLast? ∧
      (receiver.isOpen conversation.channels = true ↔ conversation.source.stage ≠ .cancelled) := by
  have hchannel : receiver.channel? conversation.channels =
      some ⟨conversation.taken.getLast?, conversation.taken.length, conversation.source.stage ≠ .cancelled⟩ := by
    rw [Receiver.channel?, h.places receiver hreceiver, h.channels, if_neg (List.ne_nil_of_mem hreceiver)]
    exact List.getElem?_concat_length
  constructor
  · rw [Receiver.latest, hchannel, Option.bind_some]
  · rw [Receiver.isOpen, hchannel]
    exact decide_eq_true_iff

/-- Whatever a fresh source is asked, among whatever channels: it has a sender exactly while it is active or stopped.
It is cancelled from the first call to cancel on, and then refuses to start and to take fixes for that reason. It
takes a fix exactly while it is active, and before and after refuses it as not active. A refusal changes nothing, and
stopping changes nothing but an active source. At most one channel is opened, and every receiver that was ever
returned shows the latest fix that was taken and is open until the call to cancel. -/
theorem asked_exact (others : Channels) (calls : List Call) :
    let conversation := asked others calls
    let source := conversation.source
    (source.sender.isSome ↔ source.stage = .active ∨ source.stage = .stopped) ∧
      (source.stage = .cancelled ↔ .cancel ∈ calls) ∧
      (.cancel ∈ calls → (conversation.answer .start).1 = .refused .cancelled ∧
        ∀ fix, (conversation.answer (.push fix)).1 = .refused .cancelled) ∧
      (.cancel ∉ calls → ∃ receiver, (conversation.answer .start).1 = .receiver receiver) ∧
      (∀ fix, ((conversation.answer (.push fix)).1 = .done ↔ source.stage = .active) ∧
        (source.stage = .idle ∨ source.stage = .stopped →
          (conversation.answer (.push fix)).1 = .refused .notActive)) ∧
      (∀ call why, (conversation.answer call).1 = .refused why →
        (conversation.answer call).2 = (source, conversation.channels)) ∧
      (conversation.answer .stop).2 =
        (if source.stage = .active then ⟨source.sender, .stopped⟩ else source, conversation.channels) ∧
      (∃ opened : Channels, opened.length ≤ 1 ∧ conversation.channels = others ++ opened) ∧
      ∀ receiver ∈ conversation.returned, receiver.channel = others.length ∧
        receiver.latest conversation.channels = conversation.taken.getLast? ∧
        (receiver.isOpen conversation.channels = true ↔ .cancel ∉ calls) := by
  intro conversation source
  have h : conversation.Consistent others := consistent_asked others calls
  have hcancelled : source.stage = .cancelled ↔ .cancel ∈ calls := by
    have hcalls : conversation.calls = calls := calls_asked others calls
    rw [← hcalls]
    exact h.cancelled
  have hpush := h.outcome_push
  refine ⟨?sender, hcancelled, ?refused, ?started, ?push, fun _ _ => answer_of_refused, ?stop, ?channels, ?receivers⟩
  case sender =>
    rw [h.sender]
    split
    · next hopened => exact ⟨fun _ => hopened, fun _ => rfl⟩
    · next hunopened => exact ⟨fun hsome => (nomatch hsome), fun hopened => absurd hopened hunopened⟩
  case refused =>
    intro hcancel
    have hstage := hcancelled.mpr hcancel
    refine ⟨(outcome_start conversation).1 hstage, fun fix => ?_⟩
    rw [hpush, hstage]
  case started =>
    intro hcancel
    exact (outcome_start conversation).2 (mt hcancelled.mp hcancel)
  case push =>
    intro fix
    rw [hpush]
    cases hstage : source.stage <;> simp_all
  case stop => rfl
  case channels => exact ⟨_, by split <;> simp, h.channels⟩
  case receivers =>
    intro receiver hreceiver
    obtain ⟨hlatest, hopen⟩ := h.shown hreceiver
    exact ⟨h.places receiver hreceiver, hlatest, hopen.trans (not_congr hcancelled)⟩

end Conversation

end FlightPlanner.Tracking
