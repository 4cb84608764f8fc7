import FlightPlanner.Proofs.Tracking.SourceChannel
import FlightPlanner.Proofs.Tracking.Turns

/-!
# What a follower announces

A follower is attached to a receiver that a start returned. Under every schedule of calls, of its own steps and of
what its listener does, it announces the nearest airports of some of the fixes that the source accepted after that
start, in the order in which they were accepted and none of them twice. The invariant relates the version that the
follower has seen, what the channel shows, and the lists that are sent or held.
-/

namespace FlightPlanner.Tracking

/-- The list that a follower with a limit makes of a fix. -/
def Survey.listFor (survey : Survey) (limit : Nat) (fix : Fix) : List RankedAirport :=
  survey.gauge.nearest fix.coordinate survey.airports limit

/-- What some channels show at a place: a channel that has counted the fixes accepted since it had a certain version
and shows the latest of them, and that is open or closed for good. -/
structure Carries (place version : Nat) (accepted : List Fix) (closed : Prop) (channels : Channels) : Prop where
  /-- There is such a channel. -/
  channel : ∃ channel, channels[place]? = some channel ∧ channel.version = version + accepted.length ∧
    (accepted ≠ [] → channel.latest = accepted.getLast?) ∧ (channel.isOpen = false ↔ closed)

/-- A receiver of the channel at a place that has seen at least one version of it and at most another one. -/
structure Receiver.Within (place least greatest : Nat) (receiver : Receiver) : Prop where
  /-- It is one of that channel. -/
  channel : receiver.channel = place
  /-- It has seen that much at least. -/
  least : least ≤ receiver.seen
  /-- It has seen that much at most. -/
  greatest : receiver.seen ≤ greatest

namespace Receiver

variable {place version : Nat} {accepted : List Fix} {closed : Prop} {channels : Channels} {receiver : Receiver}

/-- A receiver that takes what is there as seen has seen every accepted fix. -/
theorem caughtUp_eq (carries : Carries place version accepted closed channels) (channel : receiver.channel = place) :
    receiver.caughtUp channels = ⟨place, version + accepted.length⟩ := by
  obtain ⟨shown, hshown, hversion, -⟩ := carries.channel
  rw [caughtUp, subscribe, channel, hshown]
  exact congrArg (Receiver.mk place) hversion

/-- Whether a receiver has something new to see shows in its version. -/
theorem hasUnseen_iff (carries : Carries place version accepted closed channels)
    (channel : receiver.channel = place) :
    receiver.hasUnseen channels = true ↔ version + accepted.length ≠ receiver.seen := by
  obtain ⟨shown, hshown, hversion, -⟩ := carries.channel
  rw [hasUnseen, channel?, channel, hshown, ← hversion]
  exact decide_eq_true_iff

/-- A receiver without anything new has seen every accepted fix. -/
theorem seen_eq (carries : Carries place version accepted closed channels) (channel : receiver.channel = place)
    (unseen : receiver.hasUnseen channels = false) : receiver.seen = version + accepted.length := by
  refine Decidable.byContradiction fun hne => ?_
  rw [(hasUnseen_iff carries channel).mpr (Ne.symm hne)] at unseen
  contradiction

/-- A receiver shows the latest accepted fix, once there is one. -/
theorem latest_eq (carries : Carries place version accepted closed channels) (channel : receiver.channel = place)
    (some : accepted ≠ []) : receiver.latest channels = accepted.getLast? := by
  obtain ⟨shown, hshown, -, hlatest, -⟩ := carries.channel
  rw [latest, channel?, channel, hshown]
  exact hlatest some

/-- A receiver finds its channel closed exactly when that is so for good. -/
theorem isOpen_eq_false_iff (carries : Carries place version accepted closed channels)
    (channel : receiver.channel = place) : receiver.isOpen channels = false ↔ closed := by
  obtain ⟨shown, hshown, -, -, hclosed⟩ := carries.channel
  rw [isOpen, channel?, channel, hshown]
  exact hclosed

end Receiver

/-- What a follower is set to do. -/
structure Errand where
  /-- The place of the channel that it follows. -/
  place : Nat
  /-- The version of that channel when the receiver was returned. -/
  version : Nat
  /-- The version that was seen when the follower took the receiver. -/
  start : Nat
  /-- How many airports it lists. -/
  limit : Nat
  /-- The receiver was returned first. -/
  ordered : version ≤ start

namespace Follower

/-- The list that a follower holds and has not sent yet. -/
def held (follower : Follower) : List (List RankedAirport) :=
  match follower.duty with
  | .holding list => [list]
  | _ => []

/-- How the fixes that a follower took lie among those that were accepted. -/
structure Covers (errand : Errand) (accepted fixes : List Fix) (follower : Follower) : Prop where
  /-- They are some of those it has seen. -/
  seen : fixes.Sublist (accepted.take (follower.receiver.seen - errand.version))
  /-- The latest of these is still to be taken when a change was noticed. -/
  earlier : follower.duty = .noticed →
    fixes.Sublist (accepted.take (follower.receiver.seen - errand.version - 1))
  /-- Otherwise it was taken, unless it was lost with the listener. -/
  latest : follower.duty ≠ .noticed → errand.start < follower.receiver.seen →
    (follower.duty = .finished → follower.hasListener = true) →
    fixes.getLast? = (accepted.take (follower.receiver.seen - errand.version)).getLast?

/-- What holds of a follower on an errand, given the fixes that were accepted since its receiver was returned, the
lists that it announced and those that its listener received. -/
structure Follows (survey : Survey) (errand : Errand) (accepted : List Fix) (closed : Prop)
    (announced received : List (List RankedAirport)) (follower : Follower) : Prop where
  /-- It lists as many airports as it was told to. -/
  limit : follower.limit = errand.limit
  /-- It follows the channel it was told to, and never forgets what was seen. -/
  receiver : follower.receiver.Within errand.place errand.start (errand.version + accepted.length)
  /-- What it noticed is new. -/
  noticed : follower.duty = .noticed → errand.start < follower.receiver.seen
  /-- What it announced and what it holds are the lists of the fixes it took. -/
  fixes : ∃ fixes : List Fix, fixes.map (survey.listFor errand.limit) = announced ++ follower.held ∧
    follower.Covers errand accepted fixes
  /-- What was received, and then what is queued, was announced first. -/
  queue : (received ++ follower.queue) <+: announced
  /-- While there is a listener, that is all. -/
  complete : follower.hasListener = true → received ++ follower.queue = announced
  /-- It ends with a listener only when it has seen everything on a closed channel. -/
  finished : follower.duty = .finished → follower.hasListener = true →
    closed ∧ follower.receiver.seen = errand.version + accepted.length

variable {survey : Survey} {errand : Errand} {accepted : List Fix} {closed : Prop}
  {announced received : List (List RankedAirport)} {channels : Channels} {follower next : Follower}

/-- Taking the latest of some fixes goes on with earlier ones. -/
theorem sublist_concat_of_latest {fixes : List Fix} {fix : Fix}
    (h : fixes.Sublist (accepted.take (accepted.length - 1))) (latest : accepted.getLast? = some fix) :
    (fixes ++ [fix]).Sublist accepted := by
  obtain ⟨rest, rfl⟩ := List.getLast?_eq_some_iff.mp latest
  rw [List.length_append, List.length_singleton, Nat.add_sub_cancel, List.take_left] at h
  exact h.append (.refl _)

/-- Noticing a change keeps a follower on its errand: what it took lies before the latest fix. -/
theorem Follows.notice (h : Follows survey errand accepted closed announced received follower)
    (carries : Carries errand.place errand.version accepted closed channels) (duty : follower.duty = .waiting)
    (unseen : follower.receiver.hasUnseen channels = true) :
    Follows survey errand accepted closed announced received
      { follower with receiver := follower.receiver.caughtUp channels, duty := .noticed } := by
  obtain ⟨fixes, hmap, hcovers⟩ := h.fixes
  have hnew := (Receiver.hasUnseen_iff carries h.receiver.channel).mp unseen
  have hordered := errand.ordered
  have hleast := h.receiver.least
  have hgreatest := h.receiver.greatest
  have hbehind : follower.receiver.seen - errand.version ≤
      errand.version + accepted.length - errand.version - 1 := by omega
  have hearlier := hcovers.seen.trans (List.take_sublist_take_left hbehind)
  rw [Receiver.caughtUp_eq carries h.receiver.channel]
  constructor
  case limit => exact h.limit
  case receiver => exact ⟨rfl, Nat.le_trans hleast hgreatest, Nat.le_refl _⟩
  case noticed =>
    intro _
    change errand.start < errand.version + accepted.length
    omega
  case fixes =>
    refine ⟨fixes, by simpa [held, duty] using hmap, ?_, fun _ => hearlier, fun hne => absurd rfl hne⟩
    exact hearlier.trans (List.take_sublist_take_left (Nat.sub_le _ _))
  case queue => exact h.queue
  case complete => exact h.complete
  case finished => exact fun heq => nomatch heq

/-- Ending at a closed channel keeps a follower on its errand: there was nothing left to see. -/
theorem Follows.close (h : Follows survey errand accepted closed announced received follower)
    (carries : Carries errand.place errand.version accepted closed channels) (duty : follower.duty = .waiting)
    (unseen : follower.receiver.hasUnseen channels = false) (notOpen : follower.receiver.isOpen channels = false) :
    Follows survey errand accepted closed announced received { follower with duty := .finished } := by
  obtain ⟨fixes, hmap, hcovers⟩ := h.fixes
  have hseen := Receiver.seen_eq carries h.receiver.channel unseen
  constructor
  case limit => exact h.limit
  case receiver => exact h.receiver
  case noticed => exact fun heq => nomatch heq
  case fixes =>
    refine ⟨fixes, by simpa [held, duty] using hmap, hcovers.seen, fun heq => (nomatch heq), ?_⟩
    exact fun _ hnew _ => hcovers.latest (by simp [duty]) hnew (by simp [duty])
  case queue => exact h.queue
  case complete => exact h.complete
  case finished => exact fun _ _ => ⟨(Receiver.isOpen_eq_false_iff carries h.receiver.channel).mp notOpen, hseen⟩

/-- What a follower noticed was accepted. -/
theorem Follows.accepted_ne_nil (h : Follows survey errand accepted closed announced received follower)
    (duty : follower.duty = .noticed) : accepted ≠ [] := by
  have hnew := h.noticed duty
  have hordered := errand.ordered
  have hgreatest := h.receiver.greatest
  rintro rfl
  rw [List.length_nil] at hgreatest
  omega

/-- Taking the latest fix keeps a follower on its errand: it has taken that of all it has seen. -/
theorem Follows.take (h : Follows survey errand accepted closed announced received follower)
    (carries : Carries errand.place errand.version accepted closed channels) (duty : follower.duty = .noticed)
    {fix : Fix} (latest : follower.receiver.latest channels = some fix) :
    Follows survey errand accepted closed announced received
      { follower with
        receiver := follower.receiver.caughtUp channels
        duty := .holding (survey.gauge.nearest fix.coordinate survey.airports follower.limit) } := by
  obtain ⟨fixes, hmap, hcovers⟩ := h.fixes
  have hnew := h.noticed duty
  have hordered := errand.ordered
  have hgreatest := h.receiver.greatest
  have hlatest : accepted.getLast? = some fix :=
    (Receiver.latest_eq carries h.receiver.channel (h.accepted_ne_nil duty)).symm.trans latest
  have hbehind : follower.receiver.seen - errand.version - 1 ≤ accepted.length - 1 := by omega
  have htaken := sublist_concat_of_latest
    ((hcovers.earlier duty).trans (List.take_sublist_take_left hbehind)) hlatest
  have hall : accepted.take (errand.version + accepted.length - errand.version) = accepted :=
    List.take_of_length_le (by omega)
  rw [Receiver.caughtUp_eq carries h.receiver.channel]
  constructor
  case limit => exact h.limit
  case receiver => exact ⟨rfl, Nat.le_trans h.receiver.least hgreatest, Nat.le_refl _⟩
  case noticed => exact fun heq => nomatch heq
  case fixes =>
    refine ⟨fixes ++ [fix], ?_, ?_, fun heq => (nomatch heq), fun _ _ _ => ?_⟩
    · rw [List.map_append, hmap, h.limit]
      simp [held, duty, Survey.listFor]
    · rwa [hall]
    · rw [hall, List.getLast?_concat, hlatest]
  case queue => exact h.queue
  case complete => exact h.complete
  case finished => exact fun heq => nomatch heq

/-- Ending without a listener keeps a follower on its errand: the list that it held is lost. -/
theorem Follows.abandon (h : Follows survey errand accepted closed announced received follower)
    {list : List RankedAirport} (duty : follower.duty = .holding list) (listener : follower.hasListener = false) :
    Follows survey errand accepted closed announced received { follower with duty := .finished } := by
  obtain ⟨fixes, hmap, hcovers⟩ := h.fixes
  have hlost : (fixes.dropLast).map (survey.listFor errand.limit) = announced := by
    rw [List.map_dropLast, hmap, held, duty]
    exact List.dropLast_concat
  have hgone : (follower.hasListener = true) → False := by simp [listener]
  constructor
  case limit => exact h.limit
  case receiver => exact h.receiver
  case noticed => exact fun heq => nomatch heq
  case fixes =>
    refine ⟨fixes.dropLast, ?_, ?_, fun heq => (nomatch heq), fun _ _ hlistener => (hgone (hlistener rfl)).elim⟩
    · rw [hlost]
      exact (List.append_nil _).symm
    · exact (List.dropLast_sublist _).trans hcovers.seen
  case queue => exact h.queue
  case complete => exact h.complete
  case finished => exact fun _ hlistener => (hgone hlistener).elim

/-- Sending a list keeps a follower on its errand, with one more announcement. -/
theorem Follows.send (h : Follows survey errand accepted closed announced received follower)
    {list : List RankedAirport} (duty : follower.duty = .holding list) (listener : follower.hasListener = true) :
    Follows survey errand accepted closed (announced ++ [list]) received
      { follower with duty := .waiting, queue := follower.queue ++ [list] } := by
  obtain ⟨fixes, hmap, hcovers⟩ := h.fixes
  have hqueue : received ++ (follower.queue ++ [list]) = announced ++ [list] := by
    rw [← List.append_assoc, h.complete listener]
  constructor
  case limit => exact h.limit
  case receiver => exact h.receiver
  case noticed => exact fun heq => nomatch heq
  case fixes =>
    refine ⟨fixes, ?_, hcovers.seen, fun heq => (nomatch heq), ?_⟩
    · rw [hmap, held, duty]
      exact (List.append_nil _).symm
    · exact fun _ hnew _ => hcovers.latest (by simp [duty]) hnew (by simp [duty])
  case queue => exact hqueue ▸ List.prefix_refl _
  case complete => exact fun _ => hqueue
  case finished => exact fun heq => nomatch heq

/-- A step of its own keeps a follower on its errand, with one more announcement if it sends a list. -/
theorem Follows.works (h : Follows survey errand accepted closed announced received follower)
    (carries : Carries errand.place errand.version accepted closed channels)
    (works : follower.Works survey channels next) :
    Follows survey errand accepted closed (announced ++ follower.offered.toList) received next := by
  have hnone : follower.offered = none → announced ++ follower.offered.toList = announced := by
    intro hoffered
    rw [hoffered, Option.toList_none, List.append_nil]
  cases works with
  | noticed duty unseen =>
    rw [hnone (by simp [offered, duty])]
    exact h.notice carries duty unseen
  | closed duty unseen notOpen =>
    rw [hnone (by simp [offered, duty])]
    exact h.close carries duty unseen notOpen
  | passed duty latest =>
    have hsome := h.accepted_ne_nil duty
    rw [Receiver.latest_eq carries h.receiver.channel hsome] at latest
    exact absurd (List.getLast?_eq_none_iff.mp latest) hsome
  | took duty latest =>
    rw [hnone (by simp [offered, duty])]
    exact h.take carries duty latest
  | abandoned duty listener =>
    rw [hnone (by simp [offered, duty, listener])]
    exact h.abandon duty listener
  | @sent list duty listener room =>
    have hoffered : follower.offered = some list := by simp [offered, duty, listener]
    rw [hoffered]
    exact h.send duty listener

/-- Receiving a list keeps a follower on its errand. -/
theorem Follows.receive (h : Follows survey errand accepted closed announced received follower)
    {list : List RankedAirport} {rest : List (List RankedAirport)} (queue : follower.queue = list :: rest) :
    Follows survey errand accepted closed announced (received ++ [list]) { follower with queue := rest } := by
  have hqueue : received ++ [list] ++ rest = received ++ follower.queue := by
    rw [queue, List.append_assoc, List.singleton_append]
  constructor
  case limit => exact h.limit
  case receiver => exact h.receiver
  case noticed => exact h.noticed
  case fixes =>
    obtain ⟨fixes, hmap, hcovers⟩ := h.fixes
    exact ⟨fixes, hmap, hcovers.seen, hcovers.earlier, hcovers.latest⟩
  case queue => exact hqueue ▸ h.queue
  case complete => exact hqueue ▸ h.complete
  case finished => exact h.finished

/-- Hanging up keeps a follower on its errand: what is queued is lost. -/
theorem Follows.hangUp (h : Follows survey errand accepted closed announced received follower) :
    Follows survey errand accepted closed announced received follower.hangUp := by
  have hgone : follower.hangUp.hasListener = true → False := fun hlistener => nomatch hlistener
  constructor
  case limit => exact h.limit
  case receiver => exact h.receiver
  case noticed => exact h.noticed
  case fixes =>
    obtain ⟨fixes, hmap, hcovers⟩ := h.fixes
    refine ⟨fixes, hmap, hcovers.seen, hcovers.earlier, fun hduty hnew hlistener => ?_⟩
    exact hcovers.latest hduty hnew fun hfinished => (hgone (hlistener hfinished)).elim
  case queue =>
    rw [show follower.hangUp.queue = [] from rfl, List.append_nil]
    exact (List.prefix_append _ _).trans h.queue
  case complete => exact fun hlistener => (hgone hlistener).elim
  case finished => exact fun _ hlistener => (hgone hlistener).elim

/-- Whatever happens keeps a follower on its errand, with what it announces and what its listener receives. -/
theorem Follows.turn {number : Nat} {incident : Incident}
    (h : Follows survey errand accepted closed announced received follower)
    (carries : Carries errand.place errand.version accepted closed channels)
    (turn : follower.Turn survey channels number incident next) :
    Follows survey errand accepted closed (announced ++ (incident.announced? number).toList)
      (received ++ (incident.received? number).toList) next := by
  cases turn with
  | still hannounced hreceived =>
    rw [hannounced, hreceived, Option.toList_none, List.append_nil, List.append_nil]
    exact h
  | worked works =>
    rw [show (Incident.worked number follower.offered).announced? number = follower.offered from if_pos rfl,
      show (Incident.worked number follower.offered).received? number = none from rfl, Option.toList_none,
      List.append_nil]
    exact h.works carries works
  | received =>
    rw [show (Incident.answered _ _).announced? number = none from rfl, Option.toList_none, List.append_nil]
    unfold Follower.receive
    split
    · next list rest hqueue =>
      have hreceived : (Incident.answered (.receive number) (.delivered (.list list))).received? number = some list :=
        if_pos rfl
      rw [hreceived]
      exact h.receive hqueue
    · next hqueue =>
      have hnothing : ∀ delivery : Delivery, (∀ list, delivery ≠ .list list) →
          (Incident.answered (.receive number) (.delivered delivery)).received? number = none := by
        intro delivery hlist
        cases delivery with
        | list list => exact absurd rfl (hlist list)
        | nothingYet => rfl
        | disconnected => rfl
      rw [hnothing _ (by split <;> simp), Option.toList_none, List.append_nil]
      exact h
  | hungUp =>
    rw [show (Incident.answered _ _).announced? number = none from rfl,
      show (Incident.answered (.hangUp number) _).received? number = none from rfl, Option.toList_none,
      List.append_nil, List.append_nil]
    exact h.hangUp

/-- A follower stays on its errand when more fixes are accepted, which none are once its channel is closed. -/
theorem Follows.mono {more : List Fix} {closed' : Prop}
    (h : Follows survey errand accepted closed announced received follower)
    (hclosed : closed → closed' ∧ more = []) :
    Follows survey errand (accepted ++ more) closed' announced received follower := by
  have hgreatest := h.receiver.greatest
  have htake : ∀ count ≤ accepted.length, (accepted ++ more).take count = accepted.take count :=
    fun count hcount => List.take_append_of_le_length hcount
  constructor
  case limit => exact h.limit
  case receiver =>
    refine ⟨h.receiver.channel, h.receiver.least, ?_⟩
    rw [List.length_append]
    omega
  case noticed => exact h.noticed
  case fixes =>
    obtain ⟨fixes, hmap, hseen, hearlier, hlatest⟩ := h.fixes
    refine ⟨fixes, hmap, ?_, ?_, ?_⟩
    · rw [htake _ (by omega)]
      exact hseen
    · rw [htake _ (by omega)]
      exact hearlier
    · rw [htake _ (by omega)]
      exact hlatest
  case queue => exact h.queue
  case complete => exact h.complete
  case finished =>
    intro hduty hlistener
    obtain ⟨hclosed', hseen⟩ := h.finished hduty hlistener
    obtain ⟨hstill, rfl⟩ := hclosed hclosed'
    rw [List.append_nil]
    exact ⟨hstill, hseen⟩

/-- A follower that has done nothing yet is on its errand. -/
theorem follows_fresh {receiver : Receiver} {capacity : Nat} (start : receiver.seen = errand.start)
    (within : receiver.Within errand.place errand.start (errand.version + accepted.length)) :
    Follows survey errand accepted closed [] [] (fresh receiver errand.limit capacity) := by
  constructor
  case limit => rfl
  case receiver => exact within
  case noticed => exact fun heq => nomatch heq
  case fixes =>
    refine ⟨[], rfl, List.nil_sublist _, fun heq => (nomatch heq), fun _ hnew => ?_⟩
    exact absurd (start ▸ hnew) (Nat.lt_irrefl _)
  case queue => exact List.prefix_refl _
  case complete => exact fun _ => rfl
  case finished => exact fun heq => nomatch heq

/-- The announced lists are those of some of the accepted fixes. -/
theorem Follows.exists_fixes (h : Follows survey errand accepted closed announced received follower) :
    ∃ fixes : List Fix, fixes.Sublist accepted ∧ announced = fixes.map (survey.listFor errand.limit) := by
  obtain ⟨fixes, hmap, hcovers⟩ := h.fixes
  refine ⟨fixes.take announced.length, ?_, ?_⟩
  · exact (List.take_sublist _ _).trans (hcovers.seen.trans (List.take_sublist _ _))
  · rw [List.map_take, hmap, List.take_left]

/-- A follower that has seen everything and holds nothing announced the latest fix last, if it was accepted since the
follower took its receiver. -/
theorem Follows.announced_latest (h : Follows survey errand accepted closed announced received follower)
    (rest : follower.held = []) (duty : follower.duty ≠ .noticed)
    (listener : follower.duty = .finished → follower.hasListener = true)
    (all : follower.receiver.seen = errand.version + accepted.length) (new : errand.start < follower.receiver.seen)
    {fix : Fix} (latest : accepted.getLast? = some fix) :
    announced.getLast? = some (survey.listFor errand.limit fix) := by
  obtain ⟨fixes, hmap, hcovers⟩ := h.fixes
  have hfixes : fixes.getLast? = some fix := by
    rw [hcovers.latest duty new listener, List.take_of_length_le (by omega), latest]
  rw [rest, List.append_nil] at hmap
  rw [← hmap, List.getLast?_map, hfixes]
  rfl

end Follower

namespace Session

variable {survey : Survey} {first last session next : Session} {incident : Incident} {place version number : Nat}
  {accepted : List Fix} {errand : Errand} {announced received : List (List RankedAirport)} {trace : Trace}

/-- The channel of a source carries the accepted fixes, and is closed exactly when the source is cancelled. -/
theorem Feeds.carries (feeds : session.Feeds place version accepted) (sound : session.Sound) :
    Carries place version accepted (session.source.stage = .cancelled) session.channels := by
  obtain ⟨hsender, -, channel, hchannel, hversion, hlatest, hcancelled⟩ := feeds
  refine ⟨channel, hchannel, hversion, hlatest, fun hclosed => ?_, hcancelled⟩
  rcases hsender with hsender | hsource
  · obtain ⟨-, same, hsame, hopen⟩ := sound.sender place hsender
    rw [Option.some.inj (hchannel.symm.trans hsame), hopen] at hclosed
    contradiction
  · rw [hsource]

/-- What holds while a receiver that a start returned waits to be followed. -/
structure Subscribed (place version number : Nat) (accepted : List Fix) (session : Session) : Prop where
  /-- The session is sound. -/
  sound : session.Sound
  /-- The channel of the source carries the fixes accepted since the start. -/
  feeds : session.Feeds place version accepted
  /-- The number of the receiver is given to no other one. -/
  present : number < session.receivers.length
  /-- While it is there, the receiver has seen what was there at the start at least. -/
  receiver : ∀ receiver, session.receiver? number = some receiver →
    receiver.Within place version (version + accepted.length)

/-- It keeps holding. -/
theorem Subscribed.step (h : session.Subscribed place version number accepted)
    (step : Step survey session incident next) :
    next.Subscribed place version number (accepted ++ incident.accepted?.toList) := by
  have hkeeps := step.keepsReceiver h.present
  refine ⟨step.moves.sound h.sound, step.moves.feeds h.sound h.feeds, hkeeps.length, fun receiver hreceiver => ?_⟩
  rw [List.length_append]
  rcases hkeeps.receiver receiver hreceiver with hsame | ⟨earlier, hearlier, rfl⟩
  · obtain ⟨hchannel, hleast, hgreatest⟩ := h.receiver receiver hsame
    exact ⟨hchannel, hleast, by omega⟩
  · rw [Receiver.caughtUp_eq (h.feeds.carries h.sound) (h.receiver earlier hearlier).channel]
    exact ⟨rfl, Nat.le_add_right _ _, Nat.add_le_add_left (Nat.le_add_right _ _) _⟩

/-- It holds at the end of every run. -/
theorem Subscribed.run (h : first.Subscribed place version number accepted) (run : Run survey first trace last) :
    last.Subscribed place version number (accepted ++ trace.accepted) := by
  induction run generalizing accepted with
  | nil => exact (List.append_nil accepted).symm ▸ h
  | cons step rest ih =>
    rw [Trace.accepted_cons, ← List.append_assoc]
    exact ih (h.step step)

/-- What holds once a follower was set to its errand. -/
structure Employs (survey : Survey) (errand : Errand) (number : Nat) (accepted : List Fix)
    (announced received : List (List RankedAirport)) (session : Session) : Prop where
  /-- The session is sound. -/
  sound : session.Sound
  /-- The channel of the source carries the fixes accepted since the receiver was returned. -/
  feeds : session.Feeds errand.place errand.version accepted
  /-- The follower is on its errand. -/
  follower : ∃ follower, session.followers[number]? = some follower ∧
    follower.Follows survey errand accepted (session.source.stage = .cancelled) announced received

/-- It keeps holding. -/
theorem Employs.step (h : session.Employs survey errand number accepted announced received)
    (step : Step survey session incident next) :
    next.Employs survey errand number (accepted ++ incident.accepted?.toList)
      (announced ++ (incident.announced? number).toList) (received ++ (incident.received? number).toList) := by
  obtain ⟨follower, hfound, hfollows⟩ := h.follower
  obtain ⟨follower', hfound', hturn⟩ := step.turn hfound
  refine ⟨step.moves.sound h.sound, step.moves.feeds h.sound h.feeds, follower', hfound', ?_⟩
  exact (hfollows.turn (h.feeds.carries h.sound) hturn).mono step.moves.cancelled_for_good

/-- It holds at the end of every run. -/
theorem Employs.run (h : first.Employs survey errand number accepted announced received)
    (run : Run survey first trace last) :
    last.Employs survey errand number (accepted ++ trace.accepted) (announced ++ trace.announced number)
      (received ++ trace.received number) := by
  induction run generalizing accepted announced received with
  | nil =>
    simp only [Trace.accepted, Trace.announced, Trace.received, List.filterMap_nil, List.append_nil]
    exact h
  | cons step rest ih =>
    rw [Trace.accepted_cons, Trace.announced_cons, Trace.received_cons, ← List.append_assoc, ← List.append_assoc,
      ← List.append_assoc]
    exact ih (h.step step)

/-- A start that is answered with a receiver subscribes it. -/
theorem Step.subscribed (step : Step survey session (.answered .start (.receiver number)) next)
    (sound : session.Sound) : ∃ place version, next.Subscribed place version number [] := by
  obtain ⟨place, version, hfeeds, hreceivers, hnumber, -⟩ := step.feeds_of_started sound
  refine ⟨place, version, step.moves.sound sound, hfeeds, ?_, fun receiver hreceiver => ?_⟩
  · rw [hreceivers, hnumber, List.length_append, List.length_singleton]
    exact Nat.lt_succ_self _
  · rw [receiver?, hreceivers, hnumber, List.getElem?_concat_length] at hreceiver
    obtain rfl := Option.some.inj hreceiver
    exact ⟨rfl, Nat.le_refl _, Nat.le_add_right _ _⟩

/-- A follower that takes a subscribed receiver is set to its errand. -/
theorem Subscribed.employs {receiver limit capacity : Nat}
    (h : session.Subscribed place version receiver accepted)
    (step : Step survey session (.answered (.follow receiver limit capacity) (.follower number)) next) :
    ∃ start, ∃ ordered : version ≤ start, start ≤ version + accepted.length ∧
      next.Employs survey ⟨place, version, start, limit, ordered⟩ number accepted [] [] := by
  obtain ⟨hnumber, held, hheld, hfollowers⟩ := step.follow
  obtain ⟨hchannel, hleast, hgreatest⟩ := h.receiver held hheld
  have hfeeds : next.Feeds place version (accepted ++ []) := step.moves.feeds h.sound h.feeds
  rw [List.append_nil] at hfeeds
  refine ⟨held.seen, hleast, hgreatest, step.moves.sound h.sound, hfeeds, .fresh held limit capacity, ?_, ?_⟩
  · rw [hfollowers, hnumber, List.getElem?_concat_length]
  · exact Follower.follows_fresh rfl ⟨hchannel, Nat.le_refl _, hgreatest⟩

/-- Under every schedule of a session in which a start returned a receiver and a follower took it: the lists that the
follower announced are those of some of the fixes that the source accepted after that start, in the order in which it
accepted them and none of them twice. Its listener receives them in the order in which they were announced. Once the
source is cancelled, the follower goes on until it has ended, unless the queue of its listener is full. While the
listener is there, what it has not received is queued, the follower ends only once the source is cancelled, and
whenever the follower has ended or has nothing to notice, the latest fix that was accepted since it took the receiver
is the one it announced last. -/
theorem Run.announcements {before middle after : Trace} {receiver limit capacity : Nat}
    (run : Run survey fresh (before ++ .answered .start (.receiver receiver) :: middle ++
      .answered (.follow receiver limit capacity) (.follower number) :: after) last) :
    let trace := before ++ .answered .start (.receiver receiver) :: middle ++
      .answered (.follow receiver limit capacity) (.follower number) :: after
    let listFor := fun fix : Fix => survey.gauge.nearest fix.coordinate survey.airports limit
    (∃ fixes : List Fix, fixes.Sublist (middle.accepted ++ after.accepted) ∧
        Trace.announced number trace = fixes.map listFor) ∧
      Trace.received number trace <+: Trace.announced number trace ∧
      ∃ follower, last.followers[number]? = some follower ∧
        (last.source.stage = .cancelled → follower.step? survey last.channels = none →
          follower.duty = .finished ∨ follower.hasListener = true ∧ follower.capacity ≤ follower.queue.length) ∧
        (follower.hasListener = true →
          Trace.received number trace ++ follower.queue = Trace.announced number trace ∧
          (follower.duty = .finished → last.source.stage = .cancelled) ∧
          (follower.duty = .finished ∨
              follower.duty = .waiting ∧ follower.receiver.hasUnseen last.channels = false →
            ∀ fix, after.accepted.getLast? = some fix →
              (Trace.announced number trace).getLast? = some (listFor fix))) := by
  intro trace listFor
  obtain ⟨attached, employed, hearlier, hfollow, hafter⟩ := run.divide_at
  obtain ⟨begun, started, hbefore, hstart, hmiddle⟩ := hearlier.divide_at
  have hsound : begun.Sound := hbefore.sound sound_fresh
  obtain ⟨place, version, hsubscribed⟩ := hstart.subscribed hsound
  obtain ⟨version', hordered, hearly, hemploys⟩ := (hsubscribed.run hmiddle).employs hfollow
  -- Before the follower came into being, nothing was announced or received under its number.
  obtain ⟨-, hannounced, hreceived⟩ := hearlier.quiet (Nat.le_of_eq hfollow.follow.1.symm)
  have hannounced' : Trace.announced number trace = after.announced number := by
    rw [Trace.announced_append, hannounced, Trace.announced_cons]
    rfl
  have hreceived' : Trace.received number trace = after.received number := by
    rw [Trace.received_append, hreceived, Trace.received_cons]
    rfl
  obtain ⟨hlast, hfeeds, follower, hfound, hfollows⟩ := hemploys.run hafter
  rw [List.nil_append] at hfeeds hearly
  rw [List.nil_append, List.nil_append, List.nil_append] at hfollows
  rw [hannounced', hreceived']
  have hcarries := hfeeds.carries hlast
  refine ⟨hfollows.exists_fixes, ?received, follower, hfound, fun hcancelled hstuck => ?cancelled,
    fun hlistener => ?present⟩
  case received => exact (List.prefix_append _ _).trans hfollows.queue
  case cancelled =>
    have hclosed := (Receiver.isOpen_eq_false_iff hcarries hfollows.receiver.channel).mpr hcancelled
    rcases Follower.cases_of_step?_eq_none hstuck with hfinished | ⟨-, hopen⟩ | hfull
    · exact .inl hfinished
    · rw [hclosed] at hopen
      contradiction
    · exact .inr hfull
  case present =>
    refine ⟨hfollows.complete hlistener, fun hfinished => (hfollows.finished hfinished hlistener).1, ?_⟩
    intro hrest fix hfix
    have hall : follower.receiver.seen = version + (middle.accepted ++ after.accepted).length := by
      rcases hrest with hfinished | ⟨-, hunseen⟩
      · exact (hfollows.finished hfinished hlistener).2
      · exact Receiver.seen_eq hcarries hfollows.receiver.channel hunseen
    have hnew : version' < follower.receiver.seen := by
      have hsome : after.accepted ≠ [] := fun hnil => by simp [hnil] at hfix
      have hlength := List.length_pos_iff.mpr hsome
      rw [hall, List.length_append]
      omega
    have hlatest : (middle.accepted ++ after.accepted).getLast? = some fix := by
      rw [List.getLast?_append, hfix]
      rfl
    have hduty : follower.held = [] ∧ follower.duty ≠ .noticed := by
      rcases hrest with hduty | ⟨hduty, -⟩ <;> simp [Follower.held, hduty]
    exact hfollows.announced_latest hduty.1 hduty.2 (fun _ => hlistener) hall hnew hlatest

end Session

/-- A survey of two airports. -/
def Survey.islands : Survey :=
  ⟨.greatCircle .machine,
    [⟨"NULL", "Null Island", ⟨0, 0⟩, .airstrip⟩, ⟨"TMS", "Sao Tome", ⟨0.378175, 6.712153⟩, .major⟩]⟩

/-- A fix on the equator. -/
def Fix.onEquator (longitude : Float) : Fix := .taken .epoch ⟨0, longitude⟩

/-- The airport that is nearest to a fix on the equator. -/
def Survey.nearestTo (longitude : Float) : List RankedAirport := Survey.islands.listFor 1 (.onEquator longitude)

namespace Session

/-- A session with one follower on the channel that its source has opened. -/
def watched (channel : Channel) (source : Source) (follower : Follower) : Session :=
  ⟨[channel], source, [], [none], [follower], [0]⟩

/-- Two fixes are accepted before the follower works, so that it passes over the first of them; the list of the second
is received. While the follower holds the list of a third one the source is cancelled. The follower sends that list
and ends. -/
def cancelledTrace : Trace :=
  [.answered (.push (.onEquator 1)) .done, .answered (.push (.onEquator 2)) .done,
    .worked 0 none, .worked 0 none, .worked 0 (some (Survey.nearestTo 2)),
    .answered (.receive 0) (.delivered (.list (Survey.nearestTo 2))),
    .answered (.push (.onEquator 5)) .done, .worked 0 none, .worked 0 none,
    .answered .cancel .done, .worked 0 (some (Survey.nearestTo 5)), .worked 0 none]

/-- The follower of that session, by how much it has seen, what it is about to do and what is queued. -/
def cancelledFollower (seen : Nat) (duty : Duty) (queue : List (List RankedAirport)) : Follower :=
  ⟨⟨0, seen⟩, 1, 1, duty, queue, true⟩

/-- The session goes that way. -/
theorem run_cancelledTrace : Run .islands .fresh ([] ++ .answered .start (.receiver 0) :: [] ++
    .answered (.follow 0 1 1) (.follower 0) :: cancelledTrace)
      (watched ⟨some (.onEquator 5), 3, false⟩ ⟨none, .cancelled⟩
        (cancelledFollower 3 .finished [Survey.nearestTo 5])) := by
  let source : Source := ⟨some 0, .active⟩
  let follower := cancelledFollower
  let shown (longitude : Float) (version : Nat) : Channel := ⟨some (.onEquator longitude), version, true⟩
  let closed : Channel := ⟨some (.onEquator 5), 3, false⟩
  have hstart : Step .islands .fresh _ ⟨[.fresh], source, [], [some ⟨0, 0⟩], [], []⟩ :=
    @Step.act _ _ .start _ (.receiver 0) _ nofun rfl
  have hfollow : Step .islands ⟨[.fresh], source, [], [some ⟨0, 0⟩], [], []⟩ _
      (watched .fresh source (follower 0 .waiting [])) :=
    @Step.act _ _ (.follow 0 1 1) _ (.follower 0) _ nofun rfl
  have hpushFirst : Step .islands (watched .fresh source (follower 0 .waiting [])) _
      (watched (shown 1 1) source (follower 0 .waiting [])) :=
    @Step.act _ _ (.push (.onEquator 1)) _ .done _ nofun rfl
  have hpushSecond : Step .islands (watched (shown 1 1) source (follower 0 .waiting [])) _
      (watched (shown 2 2) source (follower 0 .waiting [])) :=
    @Step.act _ _ (.push (.onEquator 2)) _ .done _ nofun rfl
  have hnoticeSecond : Step .islands (watched (shown 2 2) source (follower 0 .waiting [])) (.worked 0 none)
      (watched (shown 2 2) source (follower 2 .noticed [])) :=
    @Step.work _ _ 0 (follower 0 .waiting []) (follower 2 .noticed []) _ rfl rfl
  have htakeSecond : Step .islands (watched (shown 2 2) source (follower 2 .noticed [])) (.worked 0 none)
      (watched (shown 2 2) source (follower 2 (.holding (Survey.nearestTo 2)) [])) :=
    @Step.work _ _ 0 (follower 2 .noticed []) (follower 2 (.holding (Survey.nearestTo 2)) []) _ rfl rfl
  have hsendSecond : Step .islands (watched (shown 2 2) source (follower 2 (.holding (Survey.nearestTo 2)) []))
      (.worked 0 (some (Survey.nearestTo 2)))
      (watched (shown 2 2) source (follower 2 .waiting [Survey.nearestTo 2])) :=
    @Step.work _ _ 0 (follower 2 (.holding (Survey.nearestTo 2)) []) (follower 2 .waiting [Survey.nearestTo 2]) _
      rfl rfl
  have hreceiveSecond : Step .islands (watched (shown 2 2) source (follower 2 .waiting [Survey.nearestTo 2])) _
      (watched (shown 2 2) source (follower 2 .waiting [])) :=
    @Step.act _ _ (.receive 0) _ (.delivered (.list (Survey.nearestTo 2))) _ nofun rfl
  have hpushThird : Step .islands (watched (shown 2 2) source (follower 2 .waiting [])) _
      (watched (shown 5 3) source (follower 2 .waiting [])) :=
    @Step.act _ _ (.push (.onEquator 5)) _ .done _ nofun rfl
  have hnoticeThird : Step .islands (watched (shown 5 3) source (follower 2 .waiting [])) (.worked 0 none)
      (watched (shown 5 3) source (follower 3 .noticed [])) :=
    @Step.work _ _ 0 (follower 2 .waiting []) (follower 3 .noticed []) _ rfl rfl
  have htakeThird : Step .islands (watched (shown 5 3) source (follower 3 .noticed [])) (.worked 0 none)
      (watched (shown 5 3) source (follower 3 (.holding (Survey.nearestTo 5)) [])) :=
    @Step.work _ _ 0 (follower 3 .noticed []) (follower 3 (.holding (Survey.nearestTo 5)) []) _ rfl rfl
  have hcancel : Step .islands (watched (shown 5 3) source (follower 3 (.holding (Survey.nearestTo 5)) [])) _
      (watched closed ⟨none, .cancelled⟩ (follower 3 (.holding (Survey.nearestTo 5)) [])) :=
    @Step.act _ _ .cancel _ .done _ nofun rfl
  have hsendThird : Step .islands
      (watched closed ⟨none, .cancelled⟩ (follower 3 (.holding (Survey.nearestTo 5)) []))
      (.worked 0 (some (Survey.nearestTo 5)))
      (watched closed ⟨none, .cancelled⟩ (follower 3 .waiting [Survey.nearestTo 5])) :=
    @Step.work _ _ 0 (follower 3 (.holding (Survey.nearestTo 5)) []) (follower 3 .waiting [Survey.nearestTo 5]) _
      rfl rfl
  have hfinish : Step .islands (watched closed ⟨none, .cancelled⟩ (follower 3 .waiting [Survey.nearestTo 5]))
      (.worked 0 none) (watched closed ⟨none, .cancelled⟩ (follower 3 .finished [Survey.nearestTo 5])) :=
    @Step.work _ _ 0 (follower 3 .waiting [Survey.nearestTo 5]) (follower 3 .finished [Survey.nearestTo 5]) _ rfl rfl
  exact .cons hstart (.cons hfollow (.cons hpushFirst (.cons hpushSecond (.cons hnoticeSecond (.cons htakeSecond
    (.cons hsendSecond (.cons hreceiveSecond (.cons hpushThird (.cons hnoticeThird (.cons htakeThird (.cons hcancel
      (.cons hsendThird (.cons hfinish .nil)))))))))))))

/-- Of three fixes the follower announces the lists of the last two; the first list is received and the other one
queued, and the follower has ended. -/
theorem Run.announcements_cancelled :
    (∃ fixes : List Fix, fixes.Sublist [.onEquator 1, .onEquator 2, .onEquator 5] ∧
      [Survey.nearestTo 2, Survey.nearestTo 5] = fixes.map (Survey.islands.listFor 1)) ∧
    [Survey.nearestTo 2] <+: [Survey.nearestTo 2, Survey.nearestTo 5] := by
  have hlaw := @Run.announcements .islands _ 0 [] [] cancelledTrace 0 1 1 run_cancelledTrace
  exact ⟨hlaw.1, hlaw.2.1⟩

end Session

end FlightPlanner.Tracking
