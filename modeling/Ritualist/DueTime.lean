import Ritualist.Dispatching
import Ritualist.OneShots

/-!
# When an interval activity becomes due

An insertion sets the tick instant to its own reading, and each tick counts the
time since the last one. So what a waiting activity has accumulated since its
insertion is the time from the insertion to the latest tick, however many ticks
there were and however they were spaced: the differences telescope. The claim
compares this with the target, and a claim that finds it short changes nothing.

Time that no tick has counted yet is not part of it. An activity is due from the
first tick at or after the end of its interval, not from that moment itself.
-/

namespace Ritualist

universe u
variable {T : Type u} [DecidableEq T]

namespace SchedulerActor

/-- The reading of the latest tick among some inputs, or an earlier instant if
there is none. -/
def latestTick (id : T) : Instant → List (Input T) → Instant
  | latest, [] => latest
  | latest, input :: rest =>
    latestTick id (if input.command = .tick then input.nowAt id else latest) rest

/-- In time, what the ticks count adds up to the time until the latest of them. -/
theorem counted_telescopes (id : T) (start : Instant) (inputs : List (Input T))
    (started : ∀ input ∈ inputs, start ≤ input.nowAt id) (clocked : Clocked id inputs) :
    start + counted id start inputs = latestTick id start inputs := by
  induction inputs generalizing start with
  | nil => rfl
  | cons input rest inductionHypothesis =>
    obtain ⟨startedHere, startedRest⟩ := List.forall_mem_cons.mp started
    obtain ⟨restLater, restClocked⟩ := (Runs.clocked_cons input rest).mp clocked
    by_cases ticks : input.command = .tick
    · have tail := inductionHypothesis (input.nowAt id) restLater restClocked
      have elapsed : start + (input.nowAt id - start) = input.nowAt id :=
        Nat.add_sub_cancel' startedHere
      simp only [counted, latestTick, ticks, if_true, Instant.saturatingDurationSince]
      rw [← Nat.add_assoc, elapsed]
      exact tail
    · have tail := inductionHypothesis start startedRest restClocked
      simp only [counted, latestTick, ticks, if_false]
      exact tail

/-- An activity is inserted with a span as its target, so on an interval, and is
then left aside, in time, with no claim that reports it. -/
structure LeftToWait (id : T) (history : List (Input T)) (insertion : Input T)
    (spec : ActivitySpec T) (span : Duration) (before : List (Input T)) : Prop where
  inserted : (empty.run history).eventAt id insertion.command = .insert spec
  target : ActivationTarget.fromSchedule (insertion.readings id).rng spec.schedule = .duration span
  clocked : Clocked id (insertion :: before)
  aside : Runs.Along step (Aside id) (empty.run (history ++ [insertion])) before
  unreported : Runs.Along step (fun reached input => id ∉ reached.claimed input)
    (empty.run (history ++ [insertion])) before

/-- An insertion with a span as its target leaves an activity that waits for it. -/
theorem inserted_waiting (id : T) (actor : SchedulerActor T) (insertion : Input T)
    (spec : ActivitySpec T) (span : Duration) (keyed : actor.Keyed)
    (inserted : actor.eventAt id insertion.command = .insert spec)
    (target : ActivationTarget.fromSchedule (insertion.readings id).rng spec.schedule =
      .duration span) :
    Waiting id span (insertion.nowAt id) 0 (actor.step insertion) :=
  ⟨keyed_step insertion keyed, _, inserted_entry id actor insertion spec inserted, rfl, target, rfl,
    rfl⟩

/-- An interval activity is due exactly from its interval after its insertion on,
as the latest tick reads the clock: until its first claim it has accumulated just
the time from the insertion to that tick, and a claim reports it if and only if
that is its target or more. -/
theorem due_time_exact (id : T) (history : List (Input T)) (insertion : Input T)
    (spec : ActivitySpec T) (span : Duration) (before : List (Input T)) (claiming : T → Reading)
    (waits : LeftToWait id history insertion spec span before) :
    (∃ waiting,
        (empty.run (history ++ insertion :: before)).activities.lookup id = some waiting ∧
          insertion.nowAt id + waiting.durationDelta =
            latestTick id (insertion.nowAt id) before) ∧
      (id ∈ (empty.run (history ++ insertion :: before)).claimed ⟨.claimDue, claiming⟩ ↔
        insertion.nowAt id + span ≤ latestTick id (insertion.nowAt id) before) := by
  obtain ⟨inserted, target, clocked, aside, unreported⟩ := waits
  obtain ⟨started, restClocked⟩ := (Runs.clocked_cons insertion before).mp clocked
  have telescoped := counted_telescopes id (insertion.nowAt id) before started restClocked
  have waiting := inserted_waiting id _ insertion spec span (keyed_run history) inserted target
  rw [run_append, run_cons, run_nil] at aside unreported
  obtain ⟨latest, waited⟩ := waiting_run id span _ before _ 0 waiting (aside.and unreported)
  rw [Nat.zero_add] at waited
  rw [run_append, run_cons]
  constructor
  · obtain ⟨_, kept, held, _, _, _, accumulated⟩ := waited
    exact ⟨kept, held, by rw [accumulated]; exact telescoped⟩
  · rw [waiting_claimed_iff id span _ latest _ claiming waited, ← telescoped]
    exact (Nat.add_le_add_iff_left).symm

/-- An interval of 100 from 7 on, with claims that come too early, and ticks at 40,
106 and 107, is due at the last of these. -/
theorem due_at_107 :
    1 ∈ (empty.run ([] ++ ⟨.register ⟨1, .fixedInterval 100⟩, fun _ => .least 7 7⟩ ::
        [⟨.tick, fun _ => .least 40 40⟩, ⟨.claimDue, fun _ => .least 50 50⟩,
          ⟨.tick, fun _ => .least 106 106⟩, ⟨.claimDue, fun _ => .least 106 106⟩,
          ⟨.tick, fun _ => .least 107 107⟩])).claimed ⟨.claimDue, fun _ => .least 107 107⟩ :=
  (due_time_exact 1 [] ⟨.register ⟨1, .fixedInterval 100⟩, fun _ => .least 7 7⟩ _ 100
    [⟨.tick, fun _ => .least 40 40⟩, ⟨.claimDue, fun _ => .least 50 50⟩,
      ⟨.tick, fun _ => .least 106 106⟩, ⟨.claimDue, fun _ => .least 106 106⟩,
      ⟨.tick, fun _ => .least 107 107⟩] (fun _ => .least 107 107)
    ⟨rfl, rfl, by decide, by decide, by decide⟩).2.mpr (by decide)

end SchedulerActor

end Ritualist
