import FlightPlanner.Proofs.Tracking.Schedule

/-!
# What a step does to one follower and to one receiver

Seen from one follower, a step of a session is a step of its own, something that its listener does, or nothing at
all. Seen from one receiver, it is that the receiver takes what is there as seen, that it goes away, or nothing.
-/

namespace FlightPlanner.Tracking

open Logging (Event)

/-- What a step of its own does to a follower. -/
inductive Follower.Works (survey : Survey) (channels : Channels) (follower : Follower) : Follower → Prop where
  /-- It notices that there is something it has not seen. -/
  | noticed (duty : follower.duty = .waiting) (unseen : follower.receiver.hasUnseen channels = true) :
      Works survey channels follower { follower with receiver := follower.receiver.caughtUp channels, duty := .noticed }
  /-- It ends, for there is nothing new and never will be. -/
  | closed (duty : follower.duty = .waiting) (unseen : follower.receiver.hasUnseen channels = false)
      (closed : follower.receiver.isOpen channels = false) :
      Works survey channels follower { follower with duty := .finished }
  /-- It finds no fix and waits again. -/
  | passed (duty : follower.duty = .noticed) (latest : follower.receiver.latest channels = none) :
      Works survey channels follower { follower with receiver := follower.receiver.caughtUp channels, duty := .waiting }
  /-- It takes the latest fix. -/
  | took {fix : Fix} (duty : follower.duty = .noticed) (latest : follower.receiver.latest channels = some fix) :
      Works survey channels follower
        { follower with
          receiver := follower.receiver.caughtUp channels
          duty := .holding (survey.gauge.nearest fix.coordinate survey.airports follower.limit) }
  /-- It ends, for its listener is gone. -/
  | abandoned {list : List RankedAirport} (duty : follower.duty = .holding list)
      (listener : follower.hasListener = false) : Works survey channels follower { follower with duty := .finished }
  /-- It sends the list that it holds. -/
  | sent {list : List RankedAirport} (duty : follower.duty = .holding list) (listener : follower.hasListener = true)
      (room : follower.queue.length < follower.capacity) :
      Works survey channels follower { follower with duty := .waiting, queue := follower.queue ++ [list] }

/-- Every step of a follower does one of these things. -/
theorem Follower.works_of_step? {survey : Survey} {channels : Channels} {follower next : Follower}
    {events : List Event} (step : follower.step? survey channels = some (next, events)) :
    follower.Works survey channels next := by
  unfold step? at step
  split at step
  · next hduty =>
    split at step
    · next hunseen =>
      cases step
      exact .noticed hduty hunseen
    · next hunseen =>
      split at step
      · contradiction
      · next hopen =>
        cases step
        exact .closed hduty (Bool.eq_false_iff.mpr hunseen) (Bool.eq_false_iff.mpr hopen)
  · next hduty =>
    have htake := Option.some.inj step
    have hsame : (follower.receiver.caughtUp channels).latest channels = follower.receiver.latest channels := rfl
    cases hlatest : follower.receiver.latest channels with
    | none =>
      simp only [take, hsame, hlatest] at htake
      cases htake
      exact .passed hduty hlatest
    | some fix =>
      simp only [take, hsame, hlatest] at htake
      cases htake
      exact .took hduty hlatest
  · next list hduty =>
    split at step
    · next hlistener =>
      cases step
      exact .abandoned hduty (by simpa using hlistener)
    · next hlistener =>
      split at step
      · next hroom =>
        cases step
        exact .sent hduty (by simpa using hlistener) hroom
      · contradiction
  · contradiction

/-- A follower that can take no step has ended, waits for something new on an open channel, or waits for room. -/
theorem Follower.cases_of_step?_eq_none {survey : Survey} {channels : Channels} {follower : Follower}
    (stuck : follower.step? survey channels = none) :
    follower.duty = .finished ∨
      (follower.receiver.hasUnseen channels = false ∧ follower.receiver.isOpen channels = true) ∨
      (follower.hasListener = true ∧ follower.capacity ≤ follower.queue.length) := by
  unfold step? at stuck
  split at stuck
  · split at stuck
    · contradiction
    · next hunseen =>
      split at stuck
      · next hopen => exact .inr (.inl ⟨Bool.eq_false_iff.mpr hunseen, hopen⟩)
      · contradiction
  · contradiction
  · split at stuck
    · contradiction
    · next hlistener =>
      split at stuck
      · contradiction
      · next hroom => exact .inr (.inr ⟨by simpa using hlistener, Nat.le_of_not_lt hroom⟩)
  · next hduty => exact .inl hduty

/-- What an incident does to the follower of a number. -/
inductive Follower.Turn (survey : Survey) (channels : Channels) (number : Nat) :
    Incident → Follower → Follower → Prop where
  /-- Nothing: it neither sends a list nor is one taken from it. -/
  | still {incident : Incident} {follower : Follower} (announced : incident.announced? number = none)
      (received : incident.received? number = none) : Turn survey channels number incident follower follower
  /-- It takes a step. -/
  | worked {follower next : Follower} (works : follower.Works survey channels next) :
      Turn survey channels number (.worked number follower.offered) follower next
  /-- Its listener takes a list. -/
  | received {follower : Follower} :
      Turn survey channels number (.answered (.receive number) (.delivered follower.receive.2)) follower
        follower.receive.1
  /-- Its listener leaves. -/
  | hungUp {follower : Follower} {reply : Reply} :
      Turn survey channels number (.answered (.hangUp number) reply) follower follower.hangUp

namespace Session

variable {survey : Survey} {session next : Session} {incident : Incident} {number : Nat}

/-- Replacing one follower leaves the others. -/
theorem getElem?_followers_set {followers : List Follower} {follower : Follower} (other : Nat) (changed : Follower)
    (found : followers[number]? = some follower) :
    (followers.set other changed)[number]? = some (if other = number then changed else follower) := by
  have hlength := (List.getElem?_eq_some_iff.mp found).1
  rw [List.getElem?_set]
  split
  · next heq => rw [if_pos (heq ▸ hlength)]
  · exact found

/-- What a listener does concerns its own follower only. -/
theorem turn_withFollower {other : Nat} {follower : Follower} {change : Follower → Follower × Reply} {reply : Reply}
    {events : List Event} (answer : session.withFollower other change = (next, reply, events))
    (found : session.followers[number]? = some follower) :
    next.followers[number]? = some (if other = number then (change follower).1 else follower) ∧
      (other = number → reply = (change follower).2) := by
  rcases withFollower_cases answer with ⟨hnone, rfl, -⟩ | ⟨follower', called, found', rfl, rfl⟩
  · have hne : other ≠ number := by
      rintro rfl
      rw [found] at hnone
      contradiction
    exact ⟨by rw [if_neg hne, found], fun heq => absurd heq hne⟩
  · change (session.followers.set other (change follower').1)[number]? = _ ∧ _
    rw [getElem?_followers_set _ _ found]
    by_cases heq : other = number
    · subst heq
      obtain rfl := Option.some.inj (found.symm.trans found')
      exact ⟨rfl, fun _ => rfl⟩
    · exact ⟨by rw [if_neg heq, if_neg heq], fun same => absurd same heq⟩

/-- An action with a receiver adds followers at most. -/
theorem followers_withReceiver {other : Nat} {change : Receiver → Session × Reply × List Event} {reply : Reply}
    {events : List Event} (answer : session.withReceiver other change = (next, reply, events))
    (kept : ∀ receiver, ∃ more, (change receiver).1.followers = session.followers ++ more) :
    ∃ more, next.followers = session.followers ++ more := by
  rcases withReceiver_cases answer with ⟨rfl, -⟩ | ⟨receiver, -, hchange⟩
  · exact ⟨[], (List.append_nil _).symm⟩
  · have hkept := kept receiver
    rwa [hchange] at hkept

/-- What changes a channel that does not belong to the source adds no followers. -/
theorem followers_changeChannel {other : Nat} {change : Channel → Channel} {reply : Reply} {events : List Event}
    (answer : session.changeChannel other change = (next, reply, events)) : next.followers = session.followers := by
  rcases changeChannel_cases answer with rfl | ⟨place, -, rfl⟩
  · rfl
  · rfl

/-- Only listeners change followers; all other actions add some at most. -/
theorem followers_of_act {action : Action} {reply : Reply} {events : List Event}
    (answer : session.act survey action = (next, reply, events)) (settle : action ≠ .settle)
    (receive : ∀ other, action ≠ .receive other) (hangUp : ∀ other, action ≠ .hangUp other) :
    ∃ more, next.followers = session.followers ++ more := by
  have hsame : session.followers = session.followers ++ [] := (List.append_nil _).symm
  cases action with
  | start =>
    rcases start_cases answer with ⟨rfl, -⟩ | ⟨receiver, source, channels, -, rfl, -⟩
    · exact ⟨[], hsame⟩
    · exact ⟨[], hsame⟩
  | push fix =>
    rcases push_cases answer with ⟨rfl, -⟩ | ⟨channels, -, rfl, -⟩
    · exact ⟨[], hsame⟩
    · exact ⟨[], hsame⟩
  | stop => cases answer; exact ⟨[], hsame⟩
  | cancel => cases answer; exact ⟨[], hsame⟩
  | openChannel => cases answer; exact ⟨[], hsame⟩
  | send other value => exact ⟨[], (followers_changeChannel answer).trans hsame⟩
  | close other => exact ⟨[], (followers_changeChannel answer).trans hsame⟩
  | clone other => exact followers_withReceiver answer fun _ => ⟨[], hsame⟩
  | drop other => exact followers_withReceiver answer fun _ => ⟨[], hsame⟩
  | peek other => exact followers_withReceiver answer fun _ => ⟨[], hsame⟩
  | take other => exact followers_withReceiver answer fun _ => ⟨[], hsame⟩
  | follow other limit capacity => exact followers_withReceiver answer fun _ => ⟨[_], rfl⟩
  | settle => exact absurd rfl settle
  | receive other => exact absurd rfl (receive other)
  | hangUp other => exact absurd rfl (hangUp other)

/-- What another listener takes is not taken from this follower. -/
theorem received?_of_ne {other : Nat} (h : other ≠ number) (reply : Reply) :
    (Incident.answered (.receive other) reply).received? number = none := by
  unfold Incident.received?
  split
  · next heq =>
    cases heq
    rw [if_neg h]
  · rfl

/-- Seen from one follower, a step is one of its turns. -/
theorem Step.turn {follower : Follower} (step : Step survey session incident next)
    (found : session.followers[number]? = some follower) :
    ∃ follower', next.followers[number]? = some follower' ∧
      Follower.Turn survey session.channels number incident follower follower' := by
  cases step with
  | @work other worker changed events found' step =>
    refine ⟨_, getElem?_followers_set other changed found, ?_⟩
    split
    · next heq =>
      subst heq
      obtain rfl := Option.some.inj (found.symm.trans found')
      exact .worked (Follower.works_of_step? step)
    · next hne => exact .still (if_neg hne) rfl
  | @act action next reply events single answer =>
    by_cases hreceive : ∃ other, action = .receive other
    · obtain ⟨other, rfl⟩ := hreceive
      rw [act_receive] at answer
      obtain ⟨hfound, hreply⟩ := turn_withFollower answer found
      refine ⟨_, hfound, ?_⟩
      split
      · next heq =>
        subst heq
        rw [hreply rfl]
        exact .received
      · next hne => exact .still rfl (received?_of_ne hne reply)
    · by_cases hhangUp : ∃ other, action = .hangUp other
      · obtain ⟨other, rfl⟩ := hhangUp
        rw [act_hangUp] at answer
        obtain ⟨hfound, -⟩ := turn_withFollower answer found
        refine ⟨_, hfound, ?_⟩
        split
        · next heq =>
          subst heq
          exact .hungUp
        · exact .still rfl rfl
      · obtain ⟨more, hmore⟩ := followers_of_act answer single (fun other h => hreceive ⟨other, h⟩)
          (fun other h => hhangUp ⟨other, h⟩)
        refine ⟨follower, ?_, .still rfl ?_⟩
        · rw [hmore]
          exact getElem?_append_of_some found more
        · unfold Incident.received?
          split
          · next heq =>
            cases heq
            exact absurd ⟨_, rfl⟩ hreceive
          · rfl

/-- A step leaves at least as many followers. -/
theorem Step.length_followers_le (step : Step survey session incident next) :
    session.followers.length ≤ next.followers.length := by
  refine Nat.le_of_not_lt fun hlast => ?_
  obtain ⟨follower, hfound, -⟩ := step.turn (List.getElem?_eq_getElem hlast)
  exact absurd (List.getElem?_eq_some_iff.mp hfound).1 (Nat.lt_irrefl _)

/-- A follower that is not there yet sends nothing, and nothing is taken from it. -/
theorem Step.quiet (step : Step survey session incident next) (absent : session.followers.length ≤ number) :
    incident.announced? number = none ∧ incident.received? number = none := by
  cases step with
  | @work other worker changed events found step =>
    have hpresent := (List.getElem?_eq_some_iff.mp found).1
    exact ⟨if_neg (by omega), rfl⟩
  | @act action next reply events single answer =>
    refine ⟨rfl, ?_⟩
    unfold Incident.received?
    split
    · next other list heq =>
      cases heq
      rw [act_receive] at answer
      rcases withFollower_cases answer with ⟨-, -, hreply⟩ | ⟨follower, called, found, -⟩
      · contradiction
      · have hpresent := (List.getElem?_eq_some_iff.mp found).1
        exact if_neg (by omega)
    · rfl

/-- Until a follower comes into being, it sends nothing, and nothing is taken from it. -/
theorem Run.quiet {first last : Session} {trace : Trace} (run : Run survey first trace last)
    (absent : last.followers.length ≤ number) :
    first.followers.length ≤ number ∧ trace.announced number = [] ∧ trace.received number = [] := by
  induction run with
  | nil => exact ⟨absent, rfl, rfl⟩
  | cons step rest ih =>
    obtain ⟨hlength, hannounced, hreceived⟩ := ih absent
    have habsent := Nat.le_trans step.length_followers_le hlength
    obtain ⟨hannounced', hreceived'⟩ := step.quiet habsent
    rw [Trace.announced_cons, Trace.received_cons, hannounced, hreceived, hannounced', hreceived']
    exact ⟨habsent, rfl, rfl⟩

/-- A receiver that is followed was there, and only the follower is new. -/
theorem Step.follow {receiver limit capacity : Nat}
    (step : Step survey session (.answered (.follow receiver limit capacity) (.follower number)) next) :
    number = session.followers.length ∧ ∃ held, session.receiver? receiver = some held ∧
      next.followers = session.followers ++ [.fresh held limit capacity] := by
  cases step with
  | act single answer =>
    rcases withReceiver_cases answer with ⟨-, hreply⟩ | ⟨held, hheld, hchange⟩
    · contradiction
    · cases hchange
      exact ⟨rfl, held, hheld, rfl⟩

/-- What becomes of the receiver of a number: it stays as it is or takes what is there as seen, if it does not go. -/
structure KeepsReceiver (session next : Session) (number : Nat) : Prop where
  /-- Its number is given to no other one. -/
  length : number < next.receivers.length
  /-- What is there afterwards was there before. -/
  receiver : ∀ receiver, next.receiver? number = some receiver →
    session.receiver? number = some receiver ∨
      ∃ earlier, session.receiver? number = some earlier ∧ receiver = earlier.caughtUp session.channels

/-- New receivers leave the others. -/
theorem keepsReceiver_of_append {more : List (Option Receiver)} (present : number < session.receivers.length)
    (h : next.receivers = session.receivers ++ more) : session.KeepsReceiver next number := by
  constructor
  · rw [h, List.length_append]
    omega
  · intro receiver hreceiver
    rw [receiver?, h, List.getElem?_append_left present] at hreceiver
    exact .inl hreceiver

/-- A receiver that goes, or that takes what is there as seen, leaves the others. -/
theorem keepsReceiver_of_set {other : Nat} {change : Option Receiver} (present : number < session.receivers.length)
    (h : next.receivers = session.receivers.set other change)
    (kept : ∀ receiver ∈ change, ∃ earlier, session.receiver? other = some earlier ∧
      receiver = earlier.caughtUp session.channels) : session.KeepsReceiver next number := by
  constructor
  · rwa [h, List.length_set]
  · intro receiver hreceiver
    rw [receiver?, h, List.getElem?_set] at hreceiver
    split at hreceiver
    · next heq =>
      subst heq
      rw [if_pos present] at hreceiver
      exact .inr (kept receiver hreceiver)
    · exact .inl hreceiver

/-- An action with a receiver keeps the receivers if it does so for the one that is there. -/
theorem keepsReceiver_withReceiver {other : Nat} {change : Receiver → Session × Reply × List Event}
    {reply : Reply} {events : List Event} (present : number < session.receivers.length)
    (answer : session.withReceiver other change = (next, reply, events))
    (kept : ∀ receiver, session.receiver? other = some receiver → session.KeepsReceiver (change receiver).1 number) :
    session.KeepsReceiver next number := by
  rcases withReceiver_cases answer with ⟨rfl, -⟩ | ⟨receiver, hreceiver, hchange⟩
  · exact keepsReceiver_of_append present (List.append_nil _).symm
  · have hkept := kept receiver hreceiver
    rwa [hchange] at hkept

/-- What a listener does keeps the receivers. -/
theorem keepsReceiver_withFollower {other : Nat} {change : Follower → Follower × Reply} {reply : Reply}
    {events : List Event} (present : number < session.receivers.length)
    (answer : session.withFollower other change = (next, reply, events)) : session.KeepsReceiver next number := by
  rcases withFollower_cases answer with ⟨-, rfl, -⟩ | ⟨follower, called, -, rfl, -⟩
  · exact keepsReceiver_of_append present (List.append_nil _).symm
  · exact keepsReceiver_of_append present (List.append_nil _).symm

/-- What changes a channel that does not belong to the source keeps the receivers. -/
theorem keepsReceiver_changeChannel {other : Nat} {change : Channel → Channel} {reply : Reply} {events : List Event}
    (present : number < session.receivers.length)
    (answer : session.changeChannel other change = (next, reply, events)) : session.KeepsReceiver next number := by
  rcases changeChannel_cases answer with rfl | ⟨place, -, rfl⟩
  · exact keepsReceiver_of_append present (List.append_nil _).symm
  · exact keepsReceiver_of_append present (List.append_nil _).symm

/-- Every step keeps the receivers. -/
theorem Step.keepsReceiver (step : Step survey session incident next) (present : number < session.receivers.length) :
    session.KeepsReceiver next number := by
  have hsame : session.receivers = session.receivers ++ [] := (List.append_nil _).symm
  cases step with
  | work found step => exact keepsReceiver_of_append present hsame
  | @act action next reply events single answer =>
    cases action with
    | start =>
      rcases start_cases answer with ⟨rfl, -⟩ | ⟨receiver, source, channels, -, rfl, -⟩
      · exact keepsReceiver_of_append present hsame
      · exact keepsReceiver_of_append present rfl
    | push fix =>
      rcases push_cases answer with ⟨rfl, -⟩ | ⟨channels, -, rfl, -⟩
      · exact keepsReceiver_of_append present hsame
      · exact keepsReceiver_of_append present hsame
    | stop => cases answer; exact keepsReceiver_of_append present hsame
    | cancel => cases answer; exact keepsReceiver_of_append present hsame
    | openChannel => cases answer; exact keepsReceiver_of_append present rfl
    | send other value => exact keepsReceiver_changeChannel present answer
    | close other => exact keepsReceiver_changeChannel present answer
    | clone other =>
      exact keepsReceiver_withReceiver present answer fun _ _ => keepsReceiver_of_append present rfl
    | drop other =>
      refine keepsReceiver_withReceiver present answer fun _ _ => keepsReceiver_of_set present rfl ?_
      exact fun _ hnone => nomatch hnone
    | peek other =>
      exact keepsReceiver_withReceiver present answer fun _ _ => keepsReceiver_of_append present hsame
    | take other =>
      refine keepsReceiver_withReceiver present answer fun earlier hearlier => keepsReceiver_of_set present rfl ?_
      intro receiver hreceiver
      exact ⟨earlier, hearlier, (Option.some.inj hreceiver).symm⟩
    | follow other limit capacity =>
      refine keepsReceiver_withReceiver present answer fun _ _ => keepsReceiver_of_set present rfl ?_
      exact fun _ hnone => nomatch hnone
    | settle => exact absurd rfl single
    | receive other =>
      rw [act_receive] at answer
      exact keepsReceiver_withFollower present answer
    | hangUp other =>
      rw [act_hangUp] at answer
      exact keepsReceiver_withFollower present answer

end Session

end FlightPlanner.Tracking
