import Ritualist.Responsiveness
import Ritualist.Timing

/-!
# How often an interval activity runs

An interval activity waits for its span between its runs. A wait may be short by what
had passed since a tick when it began, because the next tick counts that as well. But
time is counted once: what one wait has too much the tick before it did not count. And
ticks that come late do not make up for runs that were missed, since a claim takes
back all that is accumulated. So from any tick on, in every window of an interleaving,
an activity runs no more often than its interval goes into the window, and once.

The state of this is a bucket that holds one interval: `Paced`.
-/

namespace Ritualist

universe u
variable {T : Type u}

/-- Every target the schedule asks for is a span of at least `least`. -/
def ActivitySchedule.AtLeast (least : Duration) : ActivitySchedule → Prop
  | .fixedInterval duration => least ≤ duration
  | .randomInterval min max => least ≤ min ∧ min < max
  | .scheduled _ => False

/-- An activity that waits for at least `least`, now and after every run. -/
structure Patient (least : Duration) (activity : Activity T) : Prop where
  schedule : activity.spec.schedule.AtLeast least
  target : ∃ span, activity.activationTarget = .duration span ∧ least ≤ span

/-- A schedule yields what it asks for. -/
theorem at_least_target {least : Duration} {schedule : ActivitySchedule}
    (asks : schedule.AtLeast least) (rng : Rng) :
    ∃ span, ActivationTarget.fromSchedule rng schedule = .duration span ∧ least ≤ span := by
  cases schedule with
  | fixedInterval duration => exact ⟨duration, rfl, asks⟩
  | randomInterval min max => exact ⟨_, rfl, asks.1.trans (rng.within min max asks.2).1⟩
  | scheduled date => exact asks.elim

/-- No one-shot is patient. -/
theorem at_least_interval {least : Duration} {schedule : ActivitySchedule}
    (asks : schedule.AtLeast least) : schedule.isOneShot = false := by
  cases schedule with
  | scheduled date => exact asks.elim
  | _ => rfl

namespace SchedulerActor

variable [DecidableEq T]

/-- The input lets the id wait for at least `least`: it inserts it with no other schedule,
does not dispatch it, and snoozes no run of it for less. -/
def AsksFor (id : T) (least : Duration) (input : Input T) : Prop :=
  (∀ spec ∈ commandSpecs input.command, spec.id = id → spec.schedule.AtLeast least) ∧
    input.command ≠ .setImmediate id ∧
      ∀ span, input.command = .finish id (.snooze span) → least ≤ span

/-- An activity's entry and the time that runs of it are owed for, up to the present. The
bucket holds one span: what is accumulated beyond it is not owed. -/
structure Paced (id : T) (least : Duration) (owed now : Instant) (actor : SchedulerActor T) :
    Prop where
  bounded : owed ≤ now + least
  entry : actor.EntrySatisfies id fun activity => Patient least activity ∧
    owed + min activity.durationDelta least ≤ activity.lastTick + least ∧ activity.lastTick ≤ now

variable {id : T} {least : Duration} {actor : SchedulerActor T} {input : Input T}

/-- What is inserted is patient. -/
theorem AsksFor.fresh (asks : AsksFor id least input) {spec : ActivitySpec T}
    (inserted : actor.eventAt id input.command = .insert spec) :
    Patient least (Activity.new spec (input.readings id)) := by
  obtain ⟨member, same⟩ := event_insert actor id input.command spec inserted
  have schedule := asks.1 spec member same
  exact ⟨schedule, at_least_target schedule (input.readings id).rng⟩

/-- What is patient stays so. -/
theorem AsksFor.moved (asks : AsksFor id least input) {before after : Activity T}
    (move : (actor.eventAt id input.command).Moves (input.readings id) before after)
    (patient : Patient least before) : Patient least after := by
  obtain ⟨schedule, target⟩ := patient
  refine ⟨move.spec_eq ▸ schedule, ?_⟩
  generalize event : actor.eventAt id input.command = happened at move
  cases move with
  | setImmediate =>
    exact absurd ((event_set_immediate_iff actor id input.command).mp event) asks.2.1
  | finish _ ack remains =>
    cases ack with
    | snooze span =>
      rw [Activity.finish_snooze]
      exact ⟨span, rfl, asks.2.2 span ((event_finish_iff actor id input.command _).mp event)⟩
    | done =>
      rw [Activity.finish_done, at_least_interval schedule]
      exact at_least_target schedule (input.readings id).rng
  | tick _ survives => rwa [before.tick_target]
  | setEnabled _ enabled => rwa [Activity.set_enabled_eq]
  | claimDue =>
    rw [Activity.claim_eq]
    split <;> exact target
  | skip => exact target

/-- Time that passes goes into the bucket. -/
theorem owed_passing {owed delta lastTick now least : Nat}
    (full : owed + min delta least ≤ lastTick + least) (inTime : lastTick ≤ now) :
    owed + min (delta + (now - lastTick)) least ≤ now + least ∧
      owed + min delta least ≤ now + least := by
  omega

/-- A run takes one span out of the bucket, which holds no more. -/
theorem owed_run {owed delta lastTick span least : Nat}
    (full : owed + min delta least ≤ lastTick + least) (patient : least ≤ span)
    (reached : span ≤ delta) : owed + least ≤ lastTick + least := by
  omega

omit [DecidableEq T] in
/-- A move other than a claim that reports leaves as much in the bucket as time allows. -/
theorem paced_move {owed now : Instant} {before after : Activity T} {event : Event T}
    {reading : Reading} (move : event.Moves reading before after)
    (full : owed + min before.durationDelta least ≤ before.lastTick + least)
    (ticked : before.lastTick ≤ now) (inTime : now ≤ reading.now)
    (unclaimed : event = .claimDue → ¬ before.shouldRun reading = true) :
    owed + min after.durationDelta least ≤ after.lastTick + least ∧
      after.lastTick ≤ reading.now := by
  have late : before.lastTick ≤ reading.now := ticked.trans inTime
  have emptied : owed + min 0 least ≤ before.lastTick + least :=
    (Nat.add_le_add_left (min_le_min_right least (Nat.zero_le _)) owed).trans full
  cases move with
  | tick _ survives =>
    obtain ⟨counting, resting⟩ := owed_passing full late
    rw [Activity.tick_eq]
    refine ⟨?_, le_rfl⟩
    change owed + min (if before.state.isScheduled = true then _ else _) least ≤ reading.now + least
    split
    · exact counting
    · exact resting
  | setEnabled _ enabled => rw [Activity.set_enabled_eq]; exact ⟨full, late⟩
  | claimDue => rw [Activity.claim_eq, if_neg (unclaimed rfl)]; exact ⟨full, late⟩
  | setImmediate => rw [Activity.set_immediate_eq]; exact ⟨full, late⟩
  | finish _ ack remains =>
    cases ack with
    | snooze span => rw [Activity.finish_snooze]; exact ⟨emptied, late⟩
    | done =>
      rw [Activity.finish_done]
      split
      · exact ⟨full, late⟩
      · exact ⟨emptied, late⟩
  | skip => exact ⟨full, late⟩

/-- A command keeps the pace: every report is paid for with one span. -/
theorem paced_step {owed now : Instant} (keyed : actor.Keyed) (paced : Paced id least owed now actor)
    (inTime : now ≤ input.nowAt id) (asks : AsksFor id least input) :
    Paced id least (owed + (actor.claimed input).count id * least) (input.nowAt id)
      (actor.step input) := by
  obtain ⟨bounded, entry⟩ := paced
  have later : owed ≤ input.nowAt id + least := bounded.trans (Nat.add_le_add_right inTime least)
  by_cases reported : id ∈ actor.claimed input
  · have once := List.count_eq_one_of_mem (claimed_nodup actor input keyed) reported
    obtain ⟨claims, activity, present, due⟩ := (mem_claimed_iff keyed input).mp reported
    obtain ⟨patient, full, ticked⟩ := entry activity present
    obtain ⟨span, target, least_span⟩ := patient.target
    have reached : span ≤ activity.durationDelta := by
      simpa [Activity.isAtTarget, target] using ((activity.should_run_iff _).mp due).2
    have paid := owed_run full least_span reached
    have late : activity.lastTick ≤ input.nowAt id := ticked.trans inTime
    rw [once, Nat.one_mul]
    refine ⟨paid.trans (Nat.add_le_add_right late least), ?_⟩
    intro after found
    rw [lookup_step, present, (event_claim_due_iff _ _ _).mpr claims] at found
    obtain rfl : (activity.claimIfDue (input.readings id)).1 = after := Option.some.inj found
    rw [Activity.claim_eq, if_pos due]
    refine ⟨⟨patient.schedule, patient.target⟩, ?_, late⟩
    simpa using paid
  · rw [List.count_eq_zero_of_not_mem reported, Nat.zero_mul, Nat.add_zero]
    refine ⟨later, fun after found => ?_⟩
    rw [lookup_step] at found
    rcases Event.advance_some _ _ _ after found with ⟨spec, inserted, rfl⟩ | ⟨before, held, move⟩
    · refine ⟨asks.fresh inserted, ?_, le_rfl⟩
      change owed + min 0 least ≤ input.nowAt id + least
      simpa using later
    · obtain ⟨patient, full, ticked⟩ := entry before held
      exact ⟨asks.moved move patient, paced_move move full ticked inTime fun claims =>
        unclaimed_not_due keyed input held ((event_claim_due_iff _ _ _).mp claims) reported⟩

end SchedulerActor

namespace World

variable [DecidableEq T]

/-- A turn that processes nothing changes neither the actor nor the reports; any other
is a step of the actor, and reports what that claims. -/
theorem perform_processes (world : World T) (turn : Turn T) (id : T) :
    (world.processedInput turn = none ∧ (world.perform turn).actor = world.actor ∧
        (world.perform turn).reportsOf id = world.reportsOf id) ∨
      ∃ input, world.processedInput turn = some input ∧
        (world.perform turn).actor = world.actor.step input ∧
          (world.perform turn).reportsOf id =
            world.reportsOf id + (world.actor.claimed input).count id := by
  cases turn with
  | process readings =>
    cases queue : world.queue with
    | nil => exact Or.inl (by simp [processedInput, perform, processFirst, queue])
    | cons message rest =>
      have performed : world.perform (.process readings) = world.process message rest readings := by
        simp only [perform, processFirst, queue]
      rw [performed]
      refine Or.inr ⟨⟨message.command, readings⟩, by simp [processedInput, queue], rfl, ?_⟩
      rw [reportsOf, process, List.countP_append, issue_counts]
      rfl
  | request | collect | spawn | deliver | refuse | receive | finish =>
    refine Or.inl ⟨rfl, ?_⟩
    simp only [perform]
    split <;> exact ⟨rfl, rfl⟩
  | _ => exact Or.inl ⟨rfl, rfl, rfl⟩

/-- As long as all inputs ask for it, what is in the map is patient. -/
theorem patient_reached (id : T) (least : Duration) (turns : List (Turn T))
    (asks : ∀ input ∈ history turns, SchedulerActor.AsksFor id least input) :
    (reached turns).actor.EntrySatisfies id (Patient least) := by
  induction turns using List.reverseRecOn with
  | nil => exact SchedulerActor.empty_satisfies id _
  | append_singleton front turn inductionHypothesis =>
    rw [history_append] at asks
    have early := inductionHypothesis fun input member => asks input (List.mem_append_left _ member)
    rw [reached_append]
    rcases perform_processes (reached front) turn id with ⟨_, same, _⟩ | ⟨input, processes, stepped, _⟩
    · rw [same]
      exact early
    · have here := asks input (List.mem_append_right _ (by simp [processes]))
      rw [stepped]
      exact SchedulerActor.entry_step (fun spec inserted => here.fresh inserted)
        (fun before after _ move => here.moved move) early

/-- After a tick the bucket holds no more than one span. -/
theorem tick_paced {id : T} {least : Duration} {actor : SchedulerActor T} {tick : Input T}
    (patient : actor.EntrySatisfies id (Patient least)) (ticks : tick.command = .tick)
    (asks : SchedulerActor.AsksFor id least tick) :
    SchedulerActor.Paced id least (tick.nowAt id) (tick.nowAt id) (actor.step tick) := by
  refine ⟨Nat.le_add_right _ _, fun after found => ?_⟩
  rw [SchedulerActor.lookup_step, (SchedulerActor.event_tick_iff _ _ _).mpr ticks] at found
  rcases Event.advance_some _ _ _ after found with ⟨spec, inserted, _⟩ | ⟨before, held, move⟩
  · cases inserted
  · have now : after.lastTick = tick.nowAt id := move.last_tick_now
    have event := (SchedulerActor.event_tick_iff actor id tick.command).mpr ticks
    refine ⟨asks.moved (event ▸ move) (patient before held), ?_, now.le⟩
    rw [now]
    exact Nat.add_le_add_left (min_le_right _ _) _

/-- An interval activity runs no more often than its interval. Take any interleaving and
any tick that the actor processes in it, and let everything that the actor processes ask
the id to wait for at least `least`: it is inserted as an interval activity of at least
that, is not dispatched, and is not snoozed for less. If the clock does not go back and
shows `last` at most, then the reports of the id since the tick take no more time, one
`least` each, than has passed since the tick, and one `least`. Ticks that came late,
commands for the id and what other parties do in between change nothing of that. -/
theorem runs_within_interval (bufferSize : Nat) (first second : List (Turn T)) (turn : Turn T)
    (tick : Input T) (id : T) (least : Duration) (last : Instant)
    (taken : Interleaving bufferSize (first ++ [turn] ++ second))
    (processes : (reached first).processedInput turn = some tick) (ticks : tick.command = .tick)
    (clocked : SchedulerActor.Clocked id (history (first ++ [turn] ++ second)))
    (bounded : ∀ input ∈ history (first ++ [turn] ++ second), input.nowAt id ≤ last)
    (asks : ∀ input ∈ history (first ++ [turn] ++ second), SchedulerActor.AsksFor id least input) :
    ∃ reports, (reached (first ++ [turn] ++ second)).reportsOf id =
        (reached first).reportsOf id + reports ∧
      tick.nowAt id + reports * least ≤ last + least := by
  -- The induction is on the turns after the tick; the latest reading carries the bucket.
  have paced : ∃ reports, ∃ latest ∈ history (first ++ [turn] ++ second),
      (reached (first ++ [turn] ++ second)).reportsOf id =
        (reached first).reportsOf id + reports ∧
      SchedulerActor.Paced id least (tick.nowAt id + reports * least) (latest.nowAt id)
        (reached (first ++ [turn] ++ second)).actor := by
    clear bounded
    induction second using List.reverseRecOn with
    | nil =>
      rw [List.append_nil] at asks ⊢
      rw [history_append, processes] at asks ⊢
      have patient := patient_reached id least first fun input member =>
        asks input (List.mem_append_left _ member)
      refine ⟨0, tick, by simp, ?_⟩
      rw [reached_append]
      rcases perform_processes (reached first) turn id with
        ⟨idle, _⟩ | ⟨input, processed, stepped, reported⟩
      · rw [processes] at idle
        cases idle
      · obtain rfl : tick = input := Option.some.inj (processes.symm.trans processed)
        have silent := SchedulerActor.claimed_eq_nil (reached first).actor tick (by simp [ticks])
        rw [stepped, reported, silent, Nat.zero_mul]
        exact ⟨rfl, tick_paced patient ticks (asks tick (by simp))⟩
    | append_singleton middle next inductionHypothesis =>
      rw [← List.append_assoc] at taken clocked asks ⊢
      obtain ⟨earlier, _⟩ := (interleaving_append _ next).mp taken
      rw [history_append] at clocked asks ⊢
      obtain ⟨clockedEarlier, _, later⟩ := (Runs.clocked_append _ _).mp clocked
      obtain ⟨reports, latest, member, gained, paced⟩ := inductionHypothesis earlier clockedEarlier
        fun input member => asks input (List.mem_append_left _ member)
      rw [reached_append]
      rcases perform_processes (reached (first ++ [turn] ++ middle)) next id with
        ⟨_, same, silent⟩ | ⟨input, processed, stepped, reported⟩
      · refine ⟨reports, latest, List.mem_append_left _ member, ?_, ?_⟩
        · rw [silent, gained]
        · rw [same]
          exact paced
      · obtain ⟨inputs, run⟩ := actor_run (reached_reachable earlier)
        have keyed : (reached (first ++ [turn] ++ middle)).actor.Keyed :=
          run ▸ SchedulerActor.keyed_run inputs
        have here : input ∈ ((reached (first ++ [turn] ++ middle)).processedInput next).toList :=
          Option.mem_toList.mpr processed
        have goesOn := SchedulerActor.paced_step keyed paced (later latest member input here)
          (asks input (List.mem_append_right _ here))
        refine ⟨reports + ((reached (first ++ [turn] ++ middle)).actor.claimed input).count id, input,
          List.mem_append_right _ here, ?_, ?_⟩
        · rw [reported, gained, Nat.add_assoc]
        · rw [stepped, Nat.add_mul, ← Nat.add_assoc]
          exact goesOn
  obtain ⟨reports, latest, member, gained, owed⟩ := paced
  exact ⟨reports, gained, owed.bounded.trans (Nat.add_le_add_right (bounded latest member) least)⟩

/-- An interval of 10 is registered, and the driver ticks. -/
def ticked : List (Turn Nat) :=
  [.request (.register ⟨1, .fixedInterval 10⟩), .process fun _ => .least 0 0, .tick]

/-- The tick is processed at 12. -/
def tickedAt12 : Turn Nat := .process fun _ => .least 12 0

/-- The claim is processed at 15 and its run acknowledged, and the next poll at 19. -/
def polledTwice : List (Turn Nat) :=
  [.claimDue, .process fun _ => .least 15 0, .collect, .spawn, .resume, .deliver 0, .receive,
    .acknowledge ⟨1, 0, 1⟩ .done, .finish 0, .process fun _ => .least 16 0, .tick, .claimDue,
    .process fun _ => .least 19 0, .process fun _ => .least 19 0]

/-- From the tick at 12 on it runs once at most until 19. -/
theorem polled_twice_once : (reached (ticked ++ [tickedAt12] ++ polledTwice)).reportsOf 1 ≤ 1 := by
  have processed : history (ticked ++ [tickedAt12] ++ polledTwice) =
      [⟨.register ⟨1, .fixedInterval 10⟩, fun _ => .least 0 0⟩, ⟨.tick, fun _ => .least 12 0⟩,
        ⟨.claimDue, fun _ => .least 15 0⟩, ⟨.finish 1 .done, fun _ => .least 16 0⟩,
        ⟨.tick, fun _ => .least 19 0⟩, ⟨.claimDue, fun _ => .least 19 0⟩] := rfl
  obtain ⟨reports, gained, within⟩ := runs_within_interval 4 ticked polledTwice tickedAt12
    ⟨.tick, fun _ => .least 12 0⟩ 1 10 19 (by decide) rfl rfl
    (by rw [processed]; simp [SchedulerActor.Clocked, Input.nowAt, Reading.least])
    (by rw [processed]; simp [Input.nowAt, Reading.least])
    (by rw [processed]; simp [SchedulerActor.AsksFor, SchedulerActor.commandSpecs,
      ActivitySchedule.AtLeast])
  have before : (reached ticked).reportsOf 1 = 0 := rfl
  have counted : 12 + reports * 10 ≤ 19 + 10 := within
  rw [gained, before]
  omega

end World

end Ritualist
