import Ritualist.Pausing
import Ritualist.Timing

/-!
# Resuming where a pause interrupted

Disabling wraps the state an activity is in, and enabling unwraps it. In between
ticks move the activity's tick instant and count nothing, claims pass over it,
and further disabling does not wrap it again. So an activity resumes as it was,
but for the tick instant, unless a tick collects it: which happens to one-shots
only, and only at their target.

Acknowledgements and dispatches that arrive during the pause are left out here;
`pause_exact` says what an acknowledgement does to it.
-/

namespace Ritualist

universe u
variable {T : Type u} [DecidableEq T]

namespace SchedulerActor

/-- The input is no command for the id but to disable it again. -/
def LeavesSuspended (id : T) (actor : SchedulerActor T) (input : Input T) : Prop :=
  Undisturbed id actor input ∧ input.command ≠ .setEnabled id true

instance leavesSuspendedDecidable (id : T) (actor : SchedulerActor T) (input : Input T) :
    Decidable (LeavesSuspended id actor input) :=
  inferInstanceAs (Decidable (_ ∧ _))

/-- No tick of the inputs collects the activity, were it disabled: it is not a
one-shot, or it waits for a date that no tick reaches. -/
def OutlastsTicks (id : T) (activity : Activity T) (inputs : List (Input T)) : Prop :=
  activity.spec.schedule.isOneShot = false ∨
    ∃ target, activity.activationTarget = .date target ∧
      ∀ input ∈ inputs, input.command = .tick → input.wallAt id < target

omit [DecidableEq T] in
/-- What outlasts some ticks outlasts each of them. -/
theorem OutlastsTicks.of_mem {id : T} {activity : Activity T} {inputs : List (Input T)}
    {input : Input T} (outlasts : OutlastsTicks id activity inputs) (member : input ∈ inputs) :
    OutlastsTicks id activity [input] := by
  rcases outlasts with interval | ⟨target, dated, ahead⟩
  · exact Or.inl interval
  · refine Or.inr ⟨target, dated, ?_⟩
    intro only single
    obtain rfl := List.mem_singleton.mp single
    exact ahead only member

/-- The activity under a pause, at a tick instant. -/
def suspended (activity : Activity T) (lastTick : Instant) : Activity T :=
  { activity with state := .disabled activity.state, lastTick := lastTick }

/-- The id holds the activity under a pause. -/
def Suspended (id : T) (activity : Activity T) (actor : SchedulerActor T) : Prop :=
  actor.Keyed ∧ ∃ lastTick, actor.activities.lookup id = some (suspended activity lastTick)

omit [DecidableEq T] in
/-- A suspended activity is not collected by a tick that it outlasts. -/
theorem suspended_uncollected (id : T) (activity : Activity T) (lastTick : Instant)
    (input : Input T) (ticks : input.command = .tick) (outlasts : OutlastsTicks id activity [input]) :
    (suspended activity lastTick).isCollectable (input.readings id) = false := by
  rcases outlasts with interval | ⟨target, dated, ahead⟩
  · simp [Activity.isCollectable, suspended, interval]
  · have early : (input.readings id).nowUtc < target := ahead input List.mem_cons_self ticks
    simp [Activity.isCollectable, Activity.isAtTarget, suspended, dated, early]

/-- A pause leaves an activity as it was under it, but for the tick instant. -/
theorem suspended_step (id : T) (activity : Activity T) (actor : SchedulerActor T) (input : Input T)
    (suspends : Suspended id activity actor) (leaves : LeavesSuspended id actor input)
    (outlasts : OutlastsTicks id activity [input]) :
    Suspended id activity (actor.step input) := by
  obtain ⟨keyed, lastTick, present⟩ := suspends
  refine ⟨keyed_step input keyed, ?_⟩
  rw [lookup_step, present]
  cases event : actor.eventAt id input.command with
  | insert spec => exact absurd ⟨spec, event⟩ leaves.1.2.1
  | tick =>
    have uncollected := suspended_uncollected id activity lastTick input
      ((event_tick_iff actor id input.command).mp event) outlasts
    refine ⟨input.nowAt id, ?_⟩
    simp only [Event.advance, Option.bind_some, Activity.tick_eq, uncollected]
    simp [suspended, ActivityState.isScheduled, Input.nowAt]
  | setEnabled enabled =>
    have again : enabled = false := by
      cases enabled with
      | true => exact absurd ((event_set_enabled_iff actor id _ true).mp event) leaves.2
      | false => rfl
    exact ⟨lastTick, by simp [Event.advance, Activity.set_enabled_eq, again, suspended,
      ActivityState.isDisabled]⟩
  | claimDue =>
    have passedOver : (suspended activity lastTick).shouldRun (input.readings id) = false :=
      Activity.should_run_disabled _ _ rfl
    exact ⟨lastTick, by simp [Event.advance, Activity.claim_eq, passedOver]⟩
  | setImmediate => exact absurd event leaves.1.undispatched
  | finish ack => exact absurd event (leaves.1.2.unfinished ack)
  | skip => exact ⟨lastTick, rfl⟩

/-- Disabling an enabled activity suspends it. -/
theorem disable_suspends (id : T) (activity : Activity T) (actor : SchedulerActor T)
    (pausing : T → Reading) (keyed : actor.Keyed)
    (present : actor.activities.lookup id = some activity)
    (enabled : activity.state.isDisabled = false) :
    Suspended id activity (actor.disable id pausing) := by
  refine ⟨keyed_step _ keyed, activity.lastTick, ?_⟩
  rw [disable, lookup_step, present]
  simp [eventAt, Event.advance, Activity.set_enabled_eq, enabled, suspended]

/-- Enabling a suspended activity restores it. -/
theorem enable_resumes (id : T) (activity : Activity T) (actor : SchedulerActor T)
    (resuming : T → Reading) (suspends : Suspended id activity actor) :
    ∃ lastTick, (actor.step ⟨.setEnabled id true, resuming⟩).activities.lookup id =
      some { activity with lastTick := lastTick } := by
  obtain ⟨_, lastTick, present⟩ := suspends
  refine ⟨lastTick, ?_⟩
  rw [lookup_step, present]
  simp [eventAt, Event.advance, Activity.set_enabled_eq, suspended, ActivityState.stripped]

/-- Disabling an enabled activity and enabling it later restores it, but for the
tick instant, and no claim reports it in between: for every interval activity,
and for every activity with a date that no tick in between reaches.

The invariant is that the entry is the activity with its state wrapped once. -/
theorem resumes_where_left (history : List (Input T)) (id : T) (activity : Activity T)
    (present : (empty.run history).activities.lookup id = some activity)
    (enabled : activity.state.isDisabled = false) (pausing resuming : T → Reading)
    (between : List (Input T))
    (leaves : Runs.Along step (LeavesSuspended id) ((empty.run history).disable id pausing) between)
    (outlasts : OutlastsTicks id activity between) :
    (∃ lastTick, ((((empty.run history).disable id pausing).run between).step
        ⟨.setEnabled id true, resuming⟩).activities.lookup id =
          some { activity with lastTick := lastTick }) ∧
      Runs.Along step (fun reached input => id ∉ reached.claimed input)
        ((empty.run history).disable id pausing) between := by
  have suspends := disable_suspends id activity _ pausing (keyed_run history) present enabled
  have outlastsEach : Runs.Along step (fun _ input => OutlastsTicks id activity [input])
      ((empty.run history).disable id pausing) between :=
    Runs.along_of_forall _ fun input member _ => outlasts.of_mem member
  have admitted := leaves.and outlastsEach
  constructor
  · exact enable_resumes id activity _ resuming (Runs.invariant_after
      (fun actor input suspends admitted => suspended_step id activity actor input suspends
        admitted.1 admitted.2) suspends admitted)
  · apply Runs.invariant_along _ _ suspends admitted
    · intro actor input suspends admitted
      exact suspended_step id activity actor input suspends admitted.1 admitted.2
    · rintro actor input ⟨keyed, lastTick, held⟩ _
      exact paused_not_claimed id actor input ⟨keyed, (entry_satisfies_iff held).mpr rfl⟩

/-- An activity snoozed for 50 at 110. -/
def snoozedAt110 : List (Input Nat) :=
  [⟨.register ⟨1, .fixedInterval 100⟩, fun _ => .least 0 0⟩,
    ⟨.tick, fun _ => .least 100 100⟩, ⟨.claimDue, fun _ => .least 100 100⟩,
    ⟨.finish 1 (.snooze 50), fun _ => .least 110 110⟩, ⟨.tick, fun _ => .least 120 120⟩]

/-- It is disabled twice over ticks and a claim, and is snoozed again after. -/
theorem snoozed_resumes :
    ∃ lastTick, ((((empty.run snoozedAt110).disable 1 fun _ => .least 121 121).run
        [⟨.tick, fun _ => .least 300 300⟩, ⟨.setEnabled 1 false, fun _ => .least 301 301⟩,
          ⟨.claimDue, fun _ => .least 302 302⟩]).step
        ⟨.setEnabled 1 true, fun _ => .least 303 303⟩).activities.lookup 1 =
      some (⟨⟨1, .fixedInterval 100⟩, .snoozed 50, 20, .duration 50, lastTick, some 110, 0⟩ :
        Activity Nat) :=
  (resumes_where_left snoozedAt110 1
    ⟨⟨1, .fixedInterval 100⟩, .snoozed 50, 20, .duration 50, 120, some 110, 0⟩ (by decide) rfl
    (fun _ => .least 121 121) (fun _ => .least 303 303) _ (by decide) (Or.inl rfl)).1

end SchedulerActor

end Ritualist
