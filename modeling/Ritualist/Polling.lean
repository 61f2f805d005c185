import Ritualist.Occupancy
import Ritualist.Turns

/-!
# The driver polls in rounds

One loop sends a tick, then a claim, and awaits the claim's reply before it sends
anything else. Clients that keep to the operations of `WithScheduler` send neither. The
queue keeps their order, so the commands that the actor processes contain ticks and
claims in strict alternation, however many clients' commands and acknowledgements come
between them. A claim always follows a tick of its own, which makes what it reports as
fresh as the poll.

A claim reports an id at most once. So an activity runs at most once a poll,
dispatches and replacements included: in any stretch of an interleaving no id is
reported more often than ticks were processed, and once more for a claim whose tick
came before.
-/

namespace Ritualist

universe u
variable {T : Type u}

/-- The two commands of a poll. -/
inductive Poll where
  | tick
  | claim
  deriving DecidableEq, Repr

/-- The part a command has in a poll. -/
def Command.poll : Command T → Option Poll
  | .tick => some .tick
  | .claimDue => some .claim
  | _ => none

/-- The first commands of endless polls. -/
def Poll.rounds (count : Nat) : List Poll :=
  (List.range count).map fun place => if place % 2 = 0 then .tick else .claim

namespace Poll

/-- One command more. -/
theorem rounds_succ (count : Nat) :
    rounds (count + 1) = rounds count ++ [if count % 2 = 0 then Poll.tick else Poll.claim] := by
  rw [rounds, List.range_succ, List.map_append]
  rfl

/-- What was polled first is polled in rounds. -/
theorem rounds_prefix {first second : List Poll} {count : Nat}
    (whole : first ++ second = rounds count) : first = rounds first.length := by
  have bounded : first.length ≤ count := by
    have total := congrArg List.length whole
    simp [rounds] at total
    omega
  calc first = (first ++ second).take first.length := (List.take_left).symm
    _ = rounds first.length := by
      rw [whole, rounds, ← List.map_take, List.take_range, Nat.min_eq_left bounded]
      rfl

/-- Ticks and claims share rounds, and a tick comes first. -/
theorem rounds_count (count : Nat) :
    (rounds count).count .tick = (count + 1) / 2 ∧ (rounds count).count .claim = count / 2 := by
  induction count with
  | zero => exact ⟨rfl, rfl⟩
  | succ count inductionHypothesis =>
    obtain ⟨ticks, claims⟩ := inductionHypothesis
    rw [rounds_succ, List.count_append, List.count_append, ticks, claims]
    by_cases even : count % 2 = 0
    · simp [even]
      omega
    · simp [even]
      omega

end Poll

namespace World

/-- The polls of some commands. -/
def polls (commands : List (Command T)) : List Poll := commands.filterMap Command.poll

/-- Where a driver is that has sent so many commands of its polls. An aborted one may
have been anywhere. -/
def DriverAt (count : Nat) : DriverPoint T → Prop
  | .claiming => count % 2 = 1
  | .aborted => True
  | _ => count % 2 = 0

/-- No operation of `WithScheduler` polls. -/
theorem request_unpolled {request : Request T} {command : Command T}
    (accepted : request.command = .ok command) : command.poll = none := by
  obtain ⟨rfl, _⟩ := (request_sent_iff request command).mp accepted
  cases request <;> rfl

variable [DecidableEq T]

/-- What was processed and what is queued is polled in rounds, up to where the driver
is. -/
def Polled (processed : List (Input T)) (world : World T) : Prop :=
  ∃ count, polls (processed.map Input.command) ++ polls (world.queue.map Message.command) =
      Poll.rounds count ∧ DriverAt count world.driver

section Rounds

variable {bufferSize : Nat} {world : World T} {turn : Turn T} {processed : List (Input T)}

/-- A turn that processes nothing and queues nothing of a poll. -/
theorem polled_kept (polled : world.Polled processed) (idle : world.processedInput turn = none)
    (queue : polls ((world.perform turn).queue.map Message.command) =
      polls (world.queue.map Message.command))
    (driver : ∀ count, DriverAt count world.driver → DriverAt count (world.perform turn).driver) :
    (world.perform turn).Polled (processed ++ (world.processedInput turn).toList) := by
  obtain ⟨count, rounds, here⟩ := polled
  rw [idle, Option.toList_none, List.append_nil]
  exact ⟨count, by rw [queue, rounds], driver count here⟩

/-- A turn of the driver that sends the next command of its polls. -/
theorem polled_sends (polled : world.Polled processed) {command : Command T} {poll : Poll}
    {point : DriverPoint T} (idle : world.processedInput turn = none)
    (performed : world.perform turn = (world.enqueue (.plain command)).moveTo point)
    (polls : command.poll = some poll)
    (next : ∀ count, DriverAt count world.driver →
      poll = (if count % 2 = 0 then .tick else .claim) ∧ DriverAt (count + 1) point) :
    (world.perform turn).Polled (processed ++ (world.processedInput turn).toList) := by
  obtain ⟨count, rounds, here⟩ := polled
  obtain ⟨sent, there⟩ := next count here
  rw [idle, Option.toList_none, List.append_nil, performed]
  refine ⟨count + 1, ?_, there⟩
  rw [Poll.rounds_succ, ← rounds, ← sent, List.append_assoc]
  simp [World.polls, enqueue, moveTo, Message.command, polls]

/-- Every permitted turn keeps the rounds. -/
theorem polled_perform (polled : world.Polled processed)
    (permitted : world.permits bufferSize turn = true) :
    (world.perform turn).Polled (processed ++ (world.processedInput turn).toList) := by
  cases turn with
  | request request =>
    obtain ⟨command, accepted, _, performed⟩ := request_found permitted
    refine polled_kept polled rfl ?_ (performed ▸ fun _ => id)
    simp [performed, polls, enqueue, Message.command, request_unpolled accepted]
  | tick =>
    obtain ⟨selecting, _⟩ := of_decide_eq_true permitted
    refine polled_sends polled rfl rfl rfl fun count here => ?_
    rw [selecting] at here
    have even : count % 2 = 0 := here
    refine ⟨(if_pos even).symm, ?_⟩
    change (count + 1) % 2 = 1
    omega
  | claimDue =>
    obtain ⟨claiming, _⟩ := of_decide_eq_true permitted
    refine polled_sends polled rfl rfl rfl fun count here => ?_
    rw [claiming] at here
    have odd : count % 2 = 1 := here
    refine ⟨(if_neg (by omega)).symm, ?_⟩
    change (count + 1) % 2 = 0
    omega
  | collect =>
    obtain ⟨runs, replied, performed⟩ := collect_found permitted
    refine polled_kept polled rfl (performed ▸ rfl) fun count here => ?_
    rw [replied] at here
    rw [performed]
    exact here
  | spawn =>
    obtain ⟨run, rest, spawning, performed⟩ := spawn_found permitted
    refine polled_kept polled rfl (performed ▸ rfl) fun count here => ?_
    rw [spawning] at here
    rw [performed]
    exact here
  | resume =>
    have spawned : world.driver = .spawning [] := of_decide_eq_true permitted
    exact polled_kept polled rfl rfl fun count here => by rw [spawned] at here; exact here
  | drain =>
    obtain ⟨selecting, _⟩ := of_decide_eq_true permitted
    exact polled_kept polled rfl rfl fun count here => by rw [selecting] at here; exact here
  | stop =>
    obtain ⟨draining, _⟩ := of_decide_eq_true permitted
    exact polled_kept polled rfl rfl fun count here => by rw [draining] at here; exact here
  | expire =>
    have draining : world.driver = .draining := of_decide_eq_true permitted
    exact polled_kept polled rfl rfl fun count here => by rw [draining] at here; exact here
  | abort => exact polled_kept polled rfl rfl fun _ _ => trivial
  | deliver place =>
    obtain ⟨front, run, back, _, _, _, performed⟩ := deliver_found permitted
    exact polled_kept polled rfl (performed ▸ rfl) (performed ▸ fun _ => id)
  | refuse place =>
    obtain ⟨front, run, back, _, _, performed⟩ := refuse_found permitted
    exact polled_kept polled rfl (performed ▸ rfl) (performed ▸ fun _ => id)
  | receive =>
    obtain ⟨run, rest, _, performed⟩ := receive_found permitted
    exact polled_kept polled rfl (performed ▸ rfl) (performed ▸ fun _ => id)
  | finish place =>
    obtain ⟨front, run, ack, back, _, _, performed⟩ := finish_found permitted
    refine polled_kept polled rfl ?_ (performed ▸ fun _ => id)
    simp [performed, polls, enqueue, setTasks, Message.command, Command.poll]
  | cancel | dropTask place | acknowledge run ack | dropSender run | dropReceiver =>
    exact polled_kept polled rfl rfl fun _ => id
  | process readings =>
    obtain ⟨message, rest, first, performed⟩ := process_found permitted
    obtain ⟨count, rounds, here⟩ := polled
    have input : world.processedInput (.process readings) = some ⟨message.command, readings⟩ := by
      simp [processedInput, first]
    rw [performed, input]
    refine ⟨count, ?_, ?_⟩
    · rw [← rounds, first]
      simp only [polls, process, Option.toList_some, List.map_append, List.map_cons, List.map_nil,
        List.filterMap_append, List.append_assoc]
      rw [← List.filterMap_append]
      rfl
    · simp only [process]
      unfold DriverPoint.receive
      split
      case h_1 awaiting =>
        rw [awaiting] at here
        exact here
      case h_2 => exact here

end Rounds

/-- Every interleaving polls in rounds. -/
theorem polled_reached {bufferSize : Nat} {turns : List (Turn T)}
    (taken : Interleaving bufferSize turns) : (reached turns).Polled (history turns) := by
  induction turns using List.reverseRecOn with
  | nil => exact ⟨0, rfl, rfl⟩
  | append_singleton front turn inductionHypothesis =>
    obtain ⟨earlier, permitted⟩ := (interleaving_append front turn).mp taken
    rw [reached_append, history_append]
    exact polled_perform (inductionHypothesis earlier) permitted

/-- The part a turn has in the polls that are processed. -/
def polledIn (world : World T) (turn : Turn T) : List Poll :=
  polls ((world.processedInput turn).toList.map Input.command)

/-- The polls processed along some turns. -/
def processedPolls (turns : List (Turn T)) : List Poll := polls ((history turns).map Input.command)

/-- The polls processed with one turn more. -/
theorem processed_polls_append (front : List (Turn T)) (turn : Turn T) :
    processedPolls (front ++ [turn]) = processedPolls front ++ (reached front).polledIn turn := by
  rw [processedPolls, history_append, List.map_append, polls, List.filterMap_append]
  rfl

/-- Only the actor's turns report anything. -/
theorem perform_claimed (world : World T) (turn : Turn T)
    (other : ∀ readings, turn ≠ .process readings) :
    (world.perform turn).claimed = world.claimed := by
  cases turn with
  | process readings => exact absurd rfl (other readings)
  | request | collect | spawn | deliver | refuse | receive | finish =>
    simp only [perform]
    split <;> rfl
  | _ => rfl

/-- A turn reports an id at most once, and only by a claim. -/
theorem claimed_perform {bufferSize : Nat} {world : World T} {turn : Turn T}
    (keyed : world.actor.Keyed) (permitted : world.permits bufferSize turn = true) (id : T) :
    (world.perform turn).claimed.countP (fun run => decide (run.id = id)) ≤
      world.claimed.countP (fun run => decide (run.id = id)) +
        (world.polledIn turn).count .claim := by
  by_cases acts : ∃ readings, turn = .process readings
  · obtain ⟨readings, rfl⟩ := acts
    obtain ⟨message, rest, first, performed⟩ := process_found permitted
    have input : world.processedInput (.process readings) = some ⟨message.command, readings⟩ := by
      simp [processedInput, first]
    have once := List.nodup_iff_count_le_one.mp
      (SchedulerActor.claimed_nodup world.actor ⟨message.command, readings⟩ keyed) id
    rw [performed, process, polledIn, input, List.countP_append, issue_counts]
    refine Nat.add_le_add_left ?_ _
    by_cases claims : message.command = .claimDue
    · rw [claims] at once ⊢
      exact once
    · rw [SchedulerActor.claimed_eq_nil world.actor ⟨message.command, readings⟩ claims]
      exact Nat.zero_le _
  · rw [perform_claimed world turn fun readings same => acts ⟨readings, same⟩]
    exact Nat.le_add_right _ _

/-- Along a stretch of turns an id is reported at most once for every claim. -/
theorem claimed_within {bufferSize : Nat} (first second : List (Turn T))
    (taken : Interleaving bufferSize (first ++ second)) (id : T) :
    (reached (first ++ second)).claimed.countP (fun run => decide (run.id = id)) +
        (processedPolls first).count .claim ≤
      (reached first).claimed.countP (fun run => decide (run.id = id)) +
        (processedPolls (first ++ second)).count .claim := by
  induction second using List.reverseRecOn with
  | nil => simp
  | append_singleton middle turn inductionHypothesis =>
    rw [← List.append_assoc] at taken ⊢
    obtain ⟨earlier, permitted⟩ := (interleaving_append _ turn).mp taken
    obtain ⟨inputs, same⟩ := actor_run (reached_reachable earlier)
    have keyed : (reached (first ++ middle)).actor.Keyed := same ▸ SchedulerActor.keyed_run inputs
    have here := claimed_perform keyed permitted id
    have there := inductionHypothesis earlier
    rw [reached_append, processed_polls_append, List.count_append]
    omega

/-- No activity runs more often than the driver polls. In every interleaving the ticks
and claims that the actor processes alternate, from a tick on, whatever other commands
come between them. And in any stretch of it no id is reported more often than ticks
were processed, and once. -/
theorem runs_within_polls (bufferSize : Nat) (first second : List (Turn T))
    (taken : Interleaving bufferSize (first ++ second)) :
    processedPolls (first ++ second) = Poll.rounds (processedPolls (first ++ second)).length ∧
      ∀ id, (reached (first ++ second)).claimed.countP (fun run => decide (run.id = id)) +
          (processedPolls first).count .tick ≤
        (reached first).claimed.countP (fun run => decide (run.id = id)) +
          (processedPolls (first ++ second)).count .tick + 1 := by
  have earlier : Interleaving bufferSize first := ((Runs.along_append _ _ _).mp taken).1
  have inRounds : ∀ {turns : List (Turn T)}, Interleaving bufferSize turns →
      processedPolls turns = Poll.rounds (processedPolls turns).length := by
    intro turns interleaved
    obtain ⟨count, rounds, _⟩ := polled_reached interleaved
    exact Poll.rounds_prefix rounds
  refine ⟨inRounds taken, fun id => ?_⟩
  have within := claimed_within first second taken id
  have before := Poll.rounds_count (processedPolls first).length
  have after := Poll.rounds_count (processedPolls (first ++ second)).length
  rw [← inRounds earlier] at before
  rw [← inRounds taken] at after
  obtain ⟨ticksBefore, claimsBefore⟩ := before
  obtain ⟨ticksAfter, claimsAfter⟩ := after
  omega

/-- An interval activity is due at the first poll. -/
def pollOnce : List (Turn Nat) :=
  [.request (.register ⟨1, .fixedInterval 10⟩), .process fun _ => .least 0 0, .tick, .claimDue,
    .process fun _ => .least 10 10, .process fun _ => .least 10 10]

/-- It is dispatched while its run is under way, and polled again. -/
def pollAgain : List (Turn Nat) :=
  [.request (.dispatch 1), .collect, .spawn, .resume, .tick, .claimDue,
    .process fun _ => .least 11 11, .process fun _ => .least 11 11, .process fun _ => .least 11 11]

/-- The run of the first poll is the only one within the two polls. -/
theorem runs_within_polls_again :
    (reached pollOnce).claimed.map Run.id = [1] ∧
      (reached (pollOnce ++ pollAgain)).claimed.countP (fun run => decide (run.id = 1)) +
          (processedPolls pollOnce).count .tick ≤
        (reached pollOnce).claimed.countP (fun run => decide (run.id = 1)) +
          (processedPolls (pollOnce ++ pollAgain)).count .tick + 1 :=
  ⟨by decide, (runs_within_polls 4 pollOnce pollAgain (by decide)).2 1⟩

end World

end Ritualist
