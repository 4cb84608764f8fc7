import FlightPlanner.Tracking.Session

/-!
# Schedules of a tracking session

Whoever uses a session acts when he likes, and its followers work in single steps in between, each whenever it can.
A run is any such interleaving, together with the trace of what happened in it. The action that lets all followers
work until they can do nothing more is not part of it, for it amounts to a run of single steps itself.
-/

namespace FlightPlanner.Tracking

open Logging (Event)

/-- Something that happens in a session. -/
inductive Incident where
  /-- An action is taken and answered. -/
  | answered (action : Action) (reply : Reply)
  /-- A follower takes a step, and sends a list with it or not. -/
  | worked (follower : Nat) (sent : Option (List RankedAirport))

namespace Incident

/-- The fix that the source accepts. -/
def accepted? : Incident → Option Fix
  | .answered (.push fix) .done => some fix
  | _ => none

/-- The list that a follower sends. -/
def announced? (number : Nat) : Incident → Option (List RankedAirport)
  | .worked follower sent => if follower = number then sent else none
  | _ => none

/-- The list that the listener of a follower takes. -/
def received? (number : Nat) : Incident → Option (List RankedAirport)
  | .answered (.receive follower) (.delivered (.list list)) => if follower = number then some list else none
  | _ => none

end Incident

/-- What happened, the oldest first. -/
abbrev Trace := List Incident

/-- The fixes that the source accepted, in this order. -/
def Trace.accepted (trace : Trace) : List Fix := trace.filterMap Incident.accepted?

/-- The lists that a follower sent, in this order. -/
def Trace.announced (number : Nat) (trace : Trace) : List (List RankedAirport) :=
  trace.filterMap (Incident.announced? number)

/-- The lists that the listener of a follower took, in this order. -/
def Trace.received (number : Nat) (trace : Trace) : List (List RankedAirport) :=
  trace.filterMap (Incident.received? number)

namespace Trace

variable {number : Nat} {incident : Incident} {before after trace : Trace}

/-- The accepted fixes of a trace begin with that of its first incident. -/
theorem accepted_cons : Trace.accepted (incident :: trace) = incident.accepted?.toList ++ trace.accepted := by
  cases h : incident.accepted? <;> simp [accepted, h]

/-- The announced lists of a trace begin with that of its first incident. -/
theorem announced_cons :
    Trace.announced number (incident :: trace) = (incident.announced? number).toList ++ trace.announced number := by
  cases h : incident.announced? number <;> simp [announced, h]

/-- The received lists of a trace begin with that of its first incident. -/
theorem received_cons :
    Trace.received number (incident :: trace) = (incident.received? number).toList ++ trace.received number := by
  cases h : incident.received? number <;> simp [received, h]

/-- The announced lists of a joined trace are those of its parts. -/
theorem announced_append :
    Trace.announced number (before ++ after) = before.announced number ++ after.announced number :=
  List.filterMap_append

/-- The received lists of a joined trace are those of its parts. -/
theorem received_append :
    Trace.received number (before ++ after) = before.received number ++ after.received number :=
  List.filterMap_append

end Trace

/-- What is in a list stays in its place when the list grows. -/
theorem getElem?_append_of_some {α : Type} {list : List α} {place : Nat} {a : α} (h : list[place]? = some a)
    (more : List α) : (list ++ more)[place]? = some a := by
  rw [List.getElem?_append_left (List.getElem?_eq_some_iff.mp h).1, h]

/-- The list that a follower sends with its next step, if it can take one. -/
def Follower.offered (follower : Follower) : Option (List RankedAirport) :=
  match follower.duty with
  | .holding list => if follower.hasListener then some list else none
  | _ => none

namespace Session

section Answers

variable {session next : Session} {reply : Reply} {events : List Event}

/-- A start is refused and changes nothing, or the source starts and a receiver is added. -/
theorem start_cases (answer : session.start = (next, reply, events)) :
    next = session ∧ (∃ why, reply = .refused why) ∨
      ∃ receiver source channels, session.source.start session.channels = .ok (receiver, source, channels) ∧
        next = { session with source, channels, receivers := session.receivers ++ [some receiver] } ∧
        reply = .receiver session.receivers.length := by
  unfold start at answer
  split at answer
  · next why _ =>
    cases answer
    exact .inl ⟨rfl, why, rfl⟩
  · next receiver source channels hstart =>
    cases answer
    exact .inr ⟨receiver, source, channels, hstart, rfl, rfl⟩

/-- A fix is refused and changes nothing, or the source accepts it and followers are called. -/
theorem push_cases {fix : Fix} (answer : session.push fix = (next, reply, events)) :
    next = session ∧ (∃ why, reply = .refused why) ∨
      ∃ channels, session.source.push fix session.channels = .ok channels ∧
        next = { session with channels }.call session.waitingAtSource ∧ reply = .done := by
  unfold push at answer
  split at answer
  · next why _ =>
    cases answer
    exact .inl ⟨rfl, why, rfl⟩
  · next channels hpush =>
    cases answer
    exact .inr ⟨channels, hpush, rfl, rfl⟩

/-- A channel that does not belong to the source changes if there is one of the given number. -/
theorem changeChannel_cases {number : Nat} {change : Channel → Channel}
    (answer : session.changeChannel number change = (next, reply, events)) :
    next = session ∨ ∃ place ∈ session.ownChannels,
      next = { session with channels := session.channels.modify place change }.call (session.waitingAt place) := by
  unfold changeChannel at answer
  split at answer
  · next place hplace =>
    cases answer
    exact .inr ⟨place, List.mem_of_getElem? hplace, rfl⟩
  · cases answer
    exact .inl rfl

/-- An action with a receiver happens if there is one of the given number. -/
theorem withReceiver_cases {number : Nat} {change : Receiver → Session × Reply × List Event}
    (answer : session.withReceiver number change = (next, reply, events)) :
    next = session ∧ reply = .unknown ∨
      ∃ receiver, session.receiver? number = some receiver ∧ change receiver = (next, reply, events) := by
  unfold withReceiver at answer
  split at answer
  · next receiver hreceiver => exact .inr ⟨receiver, hreceiver, answer⟩
  · cases answer
    exact .inl ⟨rfl, rfl⟩

/-- What a listener does happens if there is a follower of the given number, and may call that follower. -/
theorem withFollower_cases {number : Nat} {change : Follower → Follower × Reply}
    (answer : session.withFollower number change = (next, reply, events)) :
    session.followers[number]? = none ∧ next = session ∧ reply = .unknown ∨
      ∃ follower called, session.followers[number]? = some follower ∧
        next = { session with followers := session.followers.set number (change follower).1, called } ∧
        reply = (change follower).2 := by
  unfold withFollower at answer
  split at answer
  · next follower hfollower =>
    refine .inr ⟨follower, next.called, hfollower, ?_, ?_⟩
    · cases hholding : follower.isHolding <;> cases answer <;> simp [hholding, call]
    · cases answer
      rfl
  · next hnone =>
    cases answer
    exact .inl ⟨hnone, rfl, rfl⟩

/-- A listener that takes a list does so at its follower. -/
theorem act_receive (survey : Survey) (session : Session) (number : Nat) :
    session.act survey (.receive number) =
      session.withFollower number fun follower => (follower.receive.1, .delivered follower.receive.2) :=
  rfl

/-- A listener that leaves does so at its follower. -/
theorem act_hangUp (survey : Survey) (session : Session) (number : Nat) :
    session.act survey (.hangUp number) = session.withFollower number fun follower => (follower.hangUp, .done) :=
  rfl

end Answers

/-- One thing that can happen next in a session. -/
inductive Step (survey : Survey) (session : Session) : Incident → Session → Prop where
  /-- An action is taken, other than to let all followers work. -/
  | act {action : Action} {next : Session} {reply : Reply} {events : List Event} (single : action ≠ .settle)
      (answer : session.act survey action = (next, reply, events)) : Step survey session (.answered action reply) next
  /-- A follower takes a step. -/
  | work {number : Nat} {follower next : Follower} {events : List Event}
      (found : session.followers[number]? = some follower)
      (step : follower.step? survey session.channels = some (next, events)) :
      Step survey session (.worked number follower.offered)
        { session with followers := session.followers.set number next }

/-- Any number of things that happen one after the other. -/
inductive Run (survey : Survey) : Session → Trace → Session → Prop where
  /-- Nothing happens. -/
  | nil {session : Session} : Run survey session [] session
  /-- One thing happens before all others. -/
  | cons {session next last : Session} {incident : Incident} {trace : Trace}
      (step : Step survey session incident next) (rest : Run survey next trace last) :
      Run survey session (incident :: trace) last

variable {survey : Survey} {first middle last : Session} {before after : Trace} {incident : Incident}

/-- Runs can be joined. -/
theorem Run.append (run : Run survey first before middle) (more : Run survey middle after last) :
    Run survey first (before ++ after) last := by
  induction run with
  | nil => exact more
  | cons step _ ih => exact .cons step (ih more)

/-- A run can be divided wherever its trace can. -/
theorem Run.divide (run : Run survey first (before ++ after) last) :
    ∃ middle, Run survey first before middle ∧ Run survey middle after last := by
  induction before generalizing first with
  | nil => exact ⟨first, .nil, run⟩
  | cons incident before ih =>
    cases run with
    | cons step rest =>
      obtain ⟨middle, hbefore, hafter⟩ := ih rest
      exact ⟨middle, .cons step hbefore, hafter⟩

/-- A run divides around each of its incidents. -/
theorem Run.divide_at (run : Run survey first (before ++ incident :: after) last) :
    ∃ early late, Run survey first before early ∧ Step survey early incident late ∧ Run survey late after last := by
  obtain ⟨early, hbefore, hrest⟩ := run.divide
  cases hrest with
  | cons step hafter => exact ⟨early, _, hbefore, step, hafter⟩

/-- A session is unchanged when a follower is replaced by itself. -/
theorem set_follower_self {session : Session} {number : Nat} {follower : Follower}
    (found : session.followers[number]? = some follower) :
    { session with followers := session.followers.set number follower } = session := by
  obtain ⟨hlength, rfl⟩ := List.getElem?_eq_some_iff.mp found
  rw [List.set_getElem_self]

/-- A follower that takes some steps does so in a run. -/
theorem exists_run_advance {session : Session} {number : Nat} {follower : Follower} (steps : Nat)
    (found : session.followers[number]? = some follower) :
    ∃ trace : Trace, Run survey session trace { session with
      followers := session.followers.set number (follower.advance survey session.channels steps).1 } ∧
      ∀ incident ∈ trace, ∃ sent, incident = .worked number sent := by
  induction steps generalizing session follower with
  | zero =>
    rw [Follower.advance, set_follower_self found]
    exact ⟨[], .nil, fun _ h => absurd h List.not_mem_nil⟩
  | succ steps ih =>
    cases hstep : follower.step? survey session.channels with
    | none =>
      rw [Follower.advance, hstep, set_follower_self found]
      exact ⟨[], .nil, fun _ h => absurd h List.not_mem_nil⟩
    | some result =>
      obtain ⟨next, events⟩ := result
      have hlength := (List.getElem?_eq_some_iff.mp found).1
      have hfound : (session.followers.set number next)[number]? = some next :=
        List.getElem?_set_self hlength
      obtain ⟨trace, hrun, hworked⟩ :=
        @ih { session with followers := session.followers.set number next } next hfound
      rw [List.set_set] at hrun
      rw [Follower.advance, hstep]
      refine ⟨_, .cons (.work found hstep) hrun, ?_⟩
      intro incident hincident
      rcases List.mem_cons.mp hincident with rfl | hrest
      · exact ⟨_, rfl⟩
      · exact hworked incident hrest

/-- Followers that work one after the other as far as they can do so in a run. -/
theorem exists_run_settleFollowers {session : Session} (done rest : List Follower)
    (followers : session.followers = done ++ rest) :
    ∃ trace : Trace, Run survey session trace { session with
      followers := done ++ rest.map fun follower => (follower.settle survey session.channels).1 } ∧
      ∀ incident ∈ trace, ∃ number sent, incident = .worked number sent := by
  induction rest generalizing session done with
  | nil => exact ⟨[], followers ▸ .nil, fun _ h => absurd h List.not_mem_nil⟩
  | cons follower rest ih =>
    have hfound : session.followers[done.length]? = some follower := by
      rw [followers, List.getElem?_append_right (Nat.le_refl _), Nat.sub_self]
      rfl
    obtain ⟨trace, hrun, hworked⟩ :=
      @exists_run_advance survey session _ _ (follower.work session.channels) hfound
    have hset : session.followers.set done.length (follower.settle survey session.channels).1 =
        done ++ [(follower.settle survey session.channels).1] ++ rest := by
      rw [followers, List.set_append_right _ _ (Nat.le_refl _), Nat.sub_self, List.set_cons_zero, List.append_assoc]
      rfl
    obtain ⟨trace', hrun', hworked'⟩ :=
      @ih { session with followers := session.followers.set done.length (follower.settle survey session.channels).1 }
        (done ++ [(follower.settle survey session.channels).1]) hset
    rw [List.map_cons, List.append_cons]
    refine ⟨trace ++ trace', hrun.append hrun', ?_⟩
    intro incident hincident
    rcases List.mem_append.mp hincident with hfirst | hrest
    · exact ⟨_, hworked incident hfirst⟩
    · exact hworked' incident hrest

/-- To let all followers work as far as they can, whatever their turns, amounts to a run of their single steps. -/
theorem exists_run_settle (survey : Survey) (session : Session) :
    ∃ trace : Trace, Run survey session trace { (session.settle survey).1 with called := session.called } ∧
      ∀ incident ∈ trace, ∃ number sent, incident = .worked number sent := by
  obtain ⟨trace, hrun, hworked⟩ := exists_run_settleFollowers [] session.followers rfl
  refine ⟨trace, ?_, hworked⟩
  rw [List.nil_append] at hrun
  have hfollowers : ((session.followers.map (Follower.settle survey session.channels)).map Prod.fst) =
      session.followers.map fun follower => (follower.settle survey session.channels).1 := by
    rw [List.map_map]
    rfl
  rw [settle, hfollowers]
  exact hrun

end Session

end FlightPlanner.Tracking
