import Mathlib.Order.MinMax
import Ritualist.SingleFlight

/-!
# How long an activity waits for a span

An activity that waits for a span accumulates the time between ticks. It is
claimed once the accumulated time reaches the span, so a wait is as long as it
should be exactly when nothing before its start is accumulated.

An insertion sets the tick instant to its own reading, and the wait it starts is
never short. An acknowledgement sets the accumulated time to zero but leaves the
tick instant where the last tick put it: the next tick counts from there. So a
wait that an acknowledgement starts can be short unless the acknowledgement is
read at the instant of the last tick, or the span is zero.
-/

namespace Ritualist

universe u
variable {T : Type u} [DecidableEq T]

omit [DecidableEq T] in
/-- What an id reads from the monotonic clock at an input. -/
def Input.nowAt (id : T) (input : Input T) : Instant := (input.readings id).now

omit [DecidableEq T] in
/-- What an id reads from the wall clock at an input. -/
def Input.wallAt (id : T) (input : Input T) : DateTime := (input.readings id).nowUtc

namespace SchedulerActor

omit [DecidableEq T] in
/-- The monotonic readings of an id never go back. -/
abbrev Clocked (id : T) (inputs : List (Input T)) : Prop :=
  Runs.Clocked (Input.nowAt id) inputs

omit [DecidableEq T] in
/-- The wall-clock readings of an id never go back. -/
abbrev WallClocked (id : T) (inputs : List (Input T)) : Prop :=
  @Runs.Clocked _ _ Int.instLinearOrder.toPreorder (Input.wallAt id) inputs

/-- The input neither dispatches nor acknowledges the id nor inserts it anew. -/
def Undisturbed (id : T) (actor : SchedulerActor T) (input : Input T) : Prop :=
  input.command ≠ .setImmediate id ∧ LeavesRun id actor input

instance undisturbedDecidable (id : T) (actor : SchedulerActor T) (input : Input T) :
    Decidable (Undisturbed id actor input) :=
  inferInstanceAs (Decidable (_ ∧ _))

/-- The input is no command for the id: it does not insert, acknowledge, dispatch,
enable or disable it. -/
def Aside (id : T) (actor : SchedulerActor T) (input : Input T) : Prop :=
  Undisturbed id actor input ∧ ∀ enabled, input.command ≠ .setEnabled id enabled

instance asideDecidable (id : T) (actor : SchedulerActor T) (input : Input T) :
    Decidable (Aside id actor input) :=
  inferInstanceAs (Decidable (_ ∧ _))

/-- No dispatch is undisturbed. -/
theorem Undisturbed.undispatched {id : T} {actor : SchedulerActor T} {input : Input T}
    (undisturbed : Undisturbed id actor input) :
    actor.eventAt id input.command ≠ .setImmediate :=
  fun event => undisturbed.1 ((event_set_immediate_iff actor id input.command).mp event)

/-- What neither inserts, dispatches nor acknowledges an id ticks its activity,
claims it, enables or disables it, or leaves it as it is. -/
theorem Undisturbed.moves {id : T} {actor : SchedulerActor T} {input : Input T}
    {before after : Activity T} (undisturbed : Undisturbed id actor input)
    (move : (actor.eventAt id input.command).Moves (input.readings id) before after) :
    (input.command = .tick ∧ (before.tick (input.readings id)).state ≠ .gc ∧
        after = before.tick (input.readings id)) ∨
      (input.command = .claimDue ∧ after = (before.claimIfDue (input.readings id)).1) ∨
      (∃ enabled, input.command = .setEnabled id enabled ∧ after = before.setEnabled enabled) ∨
      input.command ≠ .tick ∧ after = before := by
  generalize event : actor.eventAt id input.command = happened at move
  cases move with
  | tick _ survives =>
    exact Or.inl ⟨(event_tick_iff actor id input.command).mp event, survives, rfl⟩
  | setEnabled _ enabled =>
    have toggles := (event_set_enabled_iff actor id input.command enabled).mp event
    exact Or.inr (Or.inr (Or.inl ⟨enabled, toggles, rfl⟩))
  | claimDue => exact Or.inr (Or.inl ⟨(event_claim_due_iff actor id input.command).mp event, rfl⟩)
  | setImmediate => exact absurd event undisturbed.undispatched
  | finish _ ack remains => exact absurd event (undisturbed.2.unfinished ack)
  | skip =>
    refine Or.inr (Or.inr (Or.inr ⟨fun ticks => ?_, rfl⟩))
    rw [(event_tick_iff actor id input.command).mpr ticks] at event
    cases event

/-- What is no command for an id ticks its activity, claims it, or leaves it as it is. -/
theorem Aside.moves {id : T} {actor : SchedulerActor T} {input : Input T}
    {before after : Activity T} (aside : Aside id actor input)
    (move : (actor.eventAt id input.command).Moves (input.readings id) before after) :
    (input.command = .tick ∧ (before.tick (input.readings id)).state ≠ .gc ∧
        after = before.tick (input.readings id)) ∨
      (input.command = .claimDue ∧ after = (before.claimIfDue (input.readings id)).1) ∨
      input.command ≠ .tick ∧ after = before := by
  rcases aside.1.moves move with ticked | claimed | ⟨enabled, toggles, _⟩ | left
  · exact Or.inl ticked
  · exact Or.inr (Or.inl claimed)
  · exact absurd toggles (aside.2 enabled)
  · exact Or.inr (Or.inr left)

/-- No claim among the inputs reports the id before a moment. -/
def ClaimedFrom (id : T) (moment : Instant) (actor : SchedulerActor T)
    (inputs : List (Input T)) : Prop :=
  Runs.Along step (fun reached input => id ∈ reached.claimed input → moment ≤ input.nowAt id)
    actor inputs

instance claimedFromDecidable (id : T) (moment : Instant) (actor : SchedulerActor T)
    (inputs : List (Input T)) : Decidable (ClaimedFrom id moment actor inputs) :=
  inferInstanceAs (Decidable (Runs.Along _ _ _ _))

/-- After a history, every undisturbed continuation in time claims the id from a
moment on only. -/
def Waits (id : T) (moment : Instant) (history : List (Input T)) : Prop :=
  ∀ later, Clocked id (history ++ later) →
    Runs.Along step (Undisturbed id) (empty.run history) later →
      ClaimedFrom id moment (empty.run history) later

/-- The entry of an id waits for a span, and has accumulated no time from before
the start of the wait, up to the latest reading. -/
def Accumulates (id : T) (start : Instant) (span : Duration) (now : Instant)
    (actor : SchedulerActor T) : Prop :=
  actor.Keyed ∧ actor.EntrySatisfies id fun activity =>
    activity.activationTarget = .duration span ∧
      start + activity.durationDelta ≤ activity.lastTick ∧ activity.lastTick ≤ now

/-- No undisturbed input lets time from before the wait be accumulated. -/
theorem accumulates_step (id : T) (start : Instant) (span : Duration) (now : Instant)
    (actor : SchedulerActor T) (input : Input T)
    (waiting : Accumulates id start span now actor) (inTime : now ≤ input.nowAt id)
    (undisturbed : Undisturbed id actor input) :
    Accumulates id start span (input.nowAt id) (actor.step input) := by
  refine ⟨keyed_step input waiting.1, ?_⟩
  intro after present
  rw [lookup_step] at present
  rcases Event.advance_some _ _ _ after present with ⟨spec, inserted, rfl⟩ | ⟨before, held, move⟩
  · exact absurd ⟨spec, inserted⟩ undisturbed.2.1
  · obtain ⟨target, counted, ticked⟩ := waiting.2 before held
    have stillTicked : before.lastTick ≤ input.nowAt id := ticked.trans inTime
    have unfinished := undisturbed.2.unfinished
    exact ⟨(move.target_eq undisturbed.undispatched unfinished).trans target,
      move.accumulates start counted stillTicked⟩

/-- A claim of an entry that accumulated only the wait itself is not early. -/
theorem accumulates_claimed (id : T) (start : Instant) (span : Duration) (now : Instant)
    (actor : SchedulerActor T) (input : Input T)
    (waiting : Accumulates id start span now actor) (inTime : now ≤ input.nowAt id)
    (reported : id ∈ actor.claimed input) : start + span ≤ input.nowAt id := by
  obtain ⟨_, activity, present, due⟩ := (mem_claimed_iff waiting.1 input).mp reported
  obtain ⟨target, counted, ticked⟩ := waiting.2 activity present
  have reached := ((activity.should_run_iff _).mp due).2
  have elapsed : span ≤ activity.durationDelta := by
    simpa [Activity.isAtTarget, target] using reached
  calc start + span ≤ start + activity.durationDelta := Nat.add_le_add_left elapsed start
    _ ≤ activity.lastTick := counted
    _ ≤ input.nowAt id := ticked.trans inTime

/-- A wait that accumulates only itself is as long as its span. -/
theorem accumulates_waits (id : T) (start : Instant) (span : Duration)
    (history : List (Input T)) (input : Input T)
    (waiting : Accumulates id start span (input.nowAt id) (empty.run (history ++ [input]))) :
    Waits id (start + span) (history ++ [input]) := by
  intro later clocked undisturbed
  obtain ⟨_, laterClocked, inTime⟩ := (Runs.clocked_append _ _).mp clocked
  exact Runs.clocked_along (accumulates_step id start span)
    (fun now reached next kept nextInTime _ =>
      accumulates_claimed id start span now reached next kept nextInTime)
    waiting (fun next member => inTime input (List.mem_append_right _ List.mem_cons_self) next member)
    laterClocked undisturbed

/-- No claim is earlier than the latest reading. -/
theorem waits_from_latest (id : T) (history : List (Input T)) (input : Input T) :
    Waits id (input.nowAt id) (history ++ [input]) := by
  intro later clocked _
  obtain ⟨_, _, inTime⟩ := (Runs.clocked_append _ _).mp clocked
  apply Runs.along_of_forall
  intro next member reached _
  exact inTime input (List.mem_append_right _ List.mem_cons_self) next member

/-- In time, the tick instant of an entry is not after the latest reading. -/
theorem last_tick_le (id : T) (history : List (Input T)) (now : Instant)
    (inTime : ∀ input ∈ history, input.nowAt id ≤ now) :
    (empty.run history).EntrySatisfies id fun activity => activity.lastTick ≤ now := by
  have bounded : Runs.Along step (fun _ input => input.nowAt id ≤ now) empty history :=
    Runs.along_of_forall empty fun input member _ => inTime input member
  refine entry_run ?_ ?_ (empty_satisfies id fun activity => activity.lastTick ≤ now) bounded
  · intro reached input spec inserted _
    exact inserted
  · intro reached input before after notLater move ticked
    rcases move.last_tick with same | present
    · rw [same]; exact ticked
    · rw [present]; exact notLater

/-- An acknowledgement that leaves an activity waiting for a span: the snooze of
any activity, or the end of a run of an interval activity. -/
def Restarts (id : T) (history : List (Input T)) (input : Input T) (before : Activity T)
    (span : Duration) : Prop :=
  ∃ ack restarted, input.command = .finish id ack ∧
    (empty.run history).activities.lookup id = some before ∧
    (empty.run (history ++ [input])).activities.lookup id = some restarted ∧
    restarted.activationTarget = .duration span

/-- What an acknowledgement leaves: a waiting activity with no time accumulated,
whose tick instant has not moved. -/
theorem restarted_entry (id : T) (history : List (Input T)) (input : Input T)
    (before : Activity T) (span : Duration) (restarts : Restarts id history input before span) :
    ∃ restarted, (empty.run (history ++ [input])).activities.lookup id = some restarted ∧
      restarted.activationTarget = .duration span ∧ restarted.durationDelta = 0 ∧
      restarted.lastTick = before.lastTick ∧ restarted.state.isScheduled = true := by
  obtain ⟨ack, restarted, command, held, present, target⟩ := restarts
  refine ⟨restarted, present, target, ?_⟩
  rw [run_append, run_cons, run_nil, lookup_step, command, held] at present
  cases ack with
  | snooze period =>
    simp only [eventAt, if_pos, Event.advance, Activity.finish_snooze, Option.bind_some] at present
    obtain rfl := Option.some.inj present
    exact ⟨rfl, rfl, rfl⟩
  | done =>
    by_cases oneShot : before.spec.schedule.isOneShot = true
    · simp [eventAt, Event.advance, Activity.finish_done, oneShot] at present
    · simp only [eventAt, if_pos, Event.advance, Activity.finish_done, oneShot,
        Option.bind_some] at present
      obtain rfl := Option.some.inj present
      exact ⟨rfl, rfl, rfl⟩

/-- A tick and a claim at one moment. -/
def tickAndClaim (moment : Instant) : List (Input T) :=
  [⟨.tick, fun _ => .least moment 0⟩, ⟨.claimDue, fun _ => .least moment 0⟩]

/-- A restarted activity is claimed once its span has passed since the tick
instant, which the acknowledgement did not move. -/
theorem restarted_claimed (id : T) (history : List (Input T)) (input : Input T)
    (before : Activity T) (span : Duration) (restarts : Restarts id history input before span)
    (moment : Instant) (reached : before.lastTick + span ≤ moment) :
    id ∈ ((empty.run (history ++ [input])).step ⟨.tick, fun _ => .least moment 0⟩).claimed
      ⟨.claimDue, fun _ => .least moment 0⟩ := by
  obtain ⟨restarted, present, target, delta, lastTick, waiting⟩ :=
    restarted_entry id history input before span restarts
  have counts : restarted.tick (.least moment 0) =
      { restarted with lastTick := moment, durationDelta := moment - before.lastTick } := by
    rw [Activity.tick_waiting _ _ waiting, delta, lastTick, Nat.zero_add]
    rfl
  have ticked : ((empty.run (history ++ [input])).step
        ⟨.tick, fun _ => .least moment 0⟩).activities.lookup id =
      some { restarted with lastTick := moment, durationDelta := moment - before.lastTick } := by
    have survives : restarted.state ≠ .gc := by
      rintro collected
      rw [collected] at waiting
      cases waiting
    rw [lookup_step, present]
    simp [eventAt, Event.advance, counts, survives]
  have elapsed : span ≤ moment - before.lastTick := Nat.le_sub_of_add_le' reached
  refine (mem_claimed_iff (keyed_step _ (keyed_run _)) _).mpr ⟨rfl, _, ticked, ?_⟩
  exact (Activity.should_run_iff _ _).mpr
    ⟨waiting, by simpa [Activity.isAtTarget, target] using elapsed⟩

omit [DecidableEq T] in
/-- A tick and a claim that are not before the latest input continue a run in time. -/
theorem tick_and_claim_clocked (id : T) (history : List (Input T)) (input : Input T)
    (clocked : Clocked id (history ++ [input])) (moment : Instant)
    (latest : input.nowAt id ≤ moment) :
    Clocked id (history ++ [input] ++ tickAndClaim moment) := by
  obtain ⟨_, _, beforeInput⟩ := (Runs.clocked_append _ _).mp clocked
  refine (Runs.clocked_append _ _).mpr ⟨clocked, by simp [tickAndClaim, Input.nowAt], ?_⟩
  intro earlier member later laterMember
  have earlierBound : earlier.nowAt id ≤ input.nowAt id := by
    rcases List.mem_append.mp member with inHistory | isInput
    · exact beforeInput earlier inHistory input List.mem_cons_self
    · rw [List.mem_singleton.mp isInput]
  have laterMoment : later.nowAt id = moment := by
    simp only [tickAndClaim, List.mem_cons, List.not_mem_nil, or_false] at laterMember
    rcases laterMember with rfl | rfl <;> rfl
  rw [laterMoment]
  exact earlierBound.trans latest

/-- A wait that begins after the tick instant, for a span that is not zero, can
end early: the next tick counts the time since the tick instant as well. -/
theorem restarted_early (id : T) (history : List (Input T)) (input : Input T)
    (before : Activity T) (span : Duration) (restarts : Restarts id history input before span)
    (clocked : Clocked id (history ++ [input]))
    (waits : Waits id (input.nowAt id + span) (history ++ [input])) :
    before.lastTick = input.nowAt id ∨ span = 0 := by
  have bounded : before.lastTick ≤ input.nowAt id := by
    obtain ⟨_, _, _, held, _⟩ := restarts
    obtain ⟨_, _, inTime⟩ := (Runs.clocked_append _ _).mp clocked
    exact last_tick_le id history _
      (fun earlier member => inTime earlier member input List.mem_cons_self) before held
  -- the first moment at which the accumulated time reaches the span
  have notEarly : input.nowAt id + span ≤ max (input.nowAt id) (before.lastTick + span) := by
    have undisturbed : Runs.Along step (Undisturbed id) (empty.run (history ++ [input]))
        (tickAndClaim (max (input.nowAt id) (before.lastTick + span))) := by
      simp [tickAndClaim, Undisturbed, LeavesRun, inserts, eventAt, Acknowledges, acknowledged]
    have inTime := tick_and_claim_clocked id history input clocked
      (max (input.nowAt id) (before.lastTick + span)) (le_max_left _ _)
    exact (waits _ inTime undisturbed).2.1
      (restarted_claimed id history input before span restarts _ (le_max_right _ _))
  rcases le_max_iff.mp notEarly with spanZero | sameInstant
  · have noTime : input.nowAt id + span ≤ input.nowAt id + 0 := spanZero
    exact Or.inr (Nat.le_zero.mp (Nat.add_le_add_iff_left.mp noTime))
  · exact Or.inl (Nat.le_antisymm bounded (Nat.add_le_add_iff_right.mp sameInstant))

/-- A wait is as long as its span when an insertion begins it. When an
acknowledgement begins it, every claim after it is late enough exactly if the
acknowledgement is read at the instant of the last tick, or the span is zero. And
an absent id is never claimed.

The invariant is that the accumulated time is no more than the time between the
start of the wait and the tick instant, so that the start must not be after the
tick instant. If it is, a tick and a claim at the first moment that completes the
span are early. -/
theorem span_waited_iff (id : T) (history : List (Input T)) (input : Input T)
    (clocked : Clocked id (history ++ [input])) :
    (∀ inserted span, (empty.run history).inserts id input →
      (empty.run (history ++ [input])).activities.lookup id = some inserted →
      inserted.activationTarget = .duration span →
        Waits id (input.nowAt id + span) (history ++ [input])) ∧
    (∀ before span, Restarts id history input before span →
      (Waits id (input.nowAt id + span) (history ++ [input]) ↔
        before.lastTick = input.nowAt id ∨ span = 0)) ∧
    ((empty.run (history ++ [input])).activities.lookup id = none →
      ∀ moment, Waits id moment (history ++ [input])) := by
  have keyed : (empty.run (history ++ [input])).Keyed := keyed_run _
  refine ⟨?_, ?_, ?_⟩
  · intro inserted span ⟨spec, event⟩ present target
    refine accumulates_waits id _ span history input
      ⟨keyed, (entry_satisfies_iff present).mpr ?_⟩
    rw [run_append, run_cons, run_nil, lookup_step, event] at present
    obtain rfl : Activity.new spec (input.readings id) = inserted := Option.some.inj present
    exact ⟨target, le_rfl, le_rfl⟩
  · intro before span restarts
    refine ⟨restarted_early id history input before span restarts clocked, ?_⟩
    rintro (sameInstant | rfl)
    · obtain ⟨restarted, present, target, delta, lastTick, _⟩ :=
        restarted_entry id history input before span restarts
      refine accumulates_waits id _ span history input
        ⟨keyed, (entry_satisfies_iff present).mpr ⟨target, ?_, ?_⟩⟩
      · rw [delta, lastTick, sameInstant, Nat.add_zero]
      · rw [lastTick, sameInstant]
    · exact waits_from_latest id history input
  · intro absent moment
    refine accumulates_waits id moment 0 history input ⟨keyed, ?_⟩
    intro activity held
    rw [absent] at held
    cases held

/-- An activity with an interval of 100, claimed at the tick at 100. -/
def claimedAt100 : List (Input Nat) :=
  [⟨.register ⟨1, .fixedInterval 100⟩, fun _ => .least 0 0⟩,
    ⟨.tick, fun _ => .least 100 100⟩, ⟨.claimDue, fun _ => .least 100 100⟩]

/-- A snooze read at the instant of the last tick is waited for. -/
theorem span_waited_at_tick :
    Waits 1 150 (claimedAt100 ++ [⟨.finish 1 (.snooze 50), fun _ => .least 100 100⟩]) :=
  ((span_waited_iff 1 claimedAt100 ⟨.finish 1 (.snooze 50), fun _ => .least 100 100⟩
    (by decide)).2.1 _ 50 ⟨.snooze 50, _, rfl, rfl, rfl, rfl⟩).mpr (Or.inl (by decide))

/-- A snooze of 50 read at 140, after the tick at 100, is over at 150: the tick
at 150 counts the 40 that passed before it. -/
theorem snooze_claimed_early :
    ¬ Waits 1 190 (claimedAt100 ++ [⟨.finish 1 (.snooze 50), fun _ => .least 140 140⟩]) := by
  intro waits
  have claimed : ClaimedFrom 1 190
      (empty.run (claimedAt100 ++ [⟨.finish 1 (.snooze 50), fun _ => .least 140 140⟩]))
      (tickAndClaim 150) := waits _ (by decide) (by decide)
  exact absurd claimed (by decide)

end SchedulerActor

end Ritualist
