import Ritualist.Independence
import Ritualist.SingleFlight

/-!
# What a claim reports and starts

A claim walks the map once. It starts each due activity in place and collects its
id, so the reply and the map after it are made by one test of each entry with the
entry's own reading. The reply has no duplicates because each entry yields its
own key: an activity is stored under the id of its specification.

The order in which the hash map presents its entries is that of the walk, and the
reply's; which ids are in the reply does not depend on it, nor does the map. What
is reported stays unreported until it is acknowledged or inserted anew, whatever
the orders of the commands after it.
-/

namespace Ritualist

universe u
variable {T : Type u}

namespace Activity

/-- The activity waits, and its target is reached: the time accumulated is the
span, or the wall clock shows the date. -/
structure Due (activity : Activity T) (reading : Reading) : Prop where
  waiting : activity.state = .idle ∨ ∃ duration, activity.state = .snoozed duration
  reached : (∃ span, activity.activationTarget = .duration span ∧
      span ≤ activity.durationDelta) ∨
    ∃ date, activity.activationTarget = .date date ∧ date ≤ reading.nowUtc

/-- The source's test is that the activity is due. -/
theorem should_run_iff_due (activity : Activity T) (reading : Reading) :
    activity.shouldRun reading = true ↔ activity.Due reading := by
  have reachedIff : activity.isAtTarget reading = true ↔
      (∃ span, activity.activationTarget = .duration span ∧ span ≤ activity.durationDelta) ∨
        ∃ date, activity.activationTarget = .date date ∧ date ≤ reading.nowUtc := by
    unfold isAtTarget
    cases activity.activationTarget <;> simp
  rw [should_run_iff, ActivityState.scheduled_iff, reachedIff]
  constructor
  · rintro ⟨waiting, reached⟩
    exact ⟨waiting, reached⟩
  · rintro ⟨waiting, reached⟩
    exact ⟨waiting, reached⟩

end Activity

variable [DecidableEq T]

namespace SchedulerActor

/-- A claim with a reply and a map after it did exactly what it should: it reported
each due id once, started the activities it reported, and left everything else. -/
structure ClaimsExactly (actor : SchedulerActor T) (readings : T → Reading) (reply : List T)
    (after : SchedulerActor T) : Prop where
  once : reply.Nodup
  reported : ∀ id, id ∈ reply ↔
    ∃ activity, actor.activities.lookup id = some activity ∧ activity.Due (readings id)
  started : ∀ id activity, actor.activities.lookup id = some activity →
    activity.Due (readings id) →
      after.activities.lookup id = some { activity with state := .running, durationDelta := 0 }
  untouched : ∀ id activity, actor.activities.lookup id = some activity →
    ¬ activity.Due (readings id) → after.activities.lookup id = some activity
  keys : ∀ id, id ∈ after.activities ↔ id ∈ actor.activities

/-- A reply reports no id twice: each entry yields the key it is stored under. -/
theorem claimed_nodup (actor : SchedulerActor T) (input : Input T) (keyed : actor.Keyed) :
    (actor.claimed input).Nodup := by
  by_cases claims : input.command = .claimDue
  · obtain ⟨command, readings⟩ := input
    obtain rfl : command = .claimDue := claims
    change (Table.visit (fun id activity => activity.claimIfDue (readings id))
      actor.activities).2.Nodup
    apply Table.visit_nodup
    intro key activity result present reported
    obtain ⟨_, same⟩ := (activity.claim_reports_iff _ result).mp reported
    exact same.symm.trans (keyed key activity present)
  · simp [claimed_eq_nil actor input claims]

/-- The entry of an id after a claim, in whatever order. -/
theorem lookup_claim (actor : SchedulerActor T) (readings : T → Reading) (order : WalkOrder T)
    (id : T) :
    (actor.stepWalk ⟨⟨.claimDue, readings⟩, order⟩).activities.lookup id =
      (actor.activities.lookup id).map fun activity =>
        (activity.claimIfDue (readings id)).1 := by
  rw [lookup_walk]
  rfl

/-- A claim is exact in every map that keeps activities under their own ids. -/
theorem claim_exact_of_keyed (actor : SchedulerActor T) (readings : T → Reading)
    (order : WalkOrder T) (keyed : actor.Keyed) :
    ClaimsExactly actor readings (actor.claimedWalk ⟨⟨.claimDue, readings⟩, order⟩)
      (actor.stepWalk ⟨⟨.claimDue, readings⟩, order⟩) where
  once := claimed_nodup _ _ (reordered_keyed actor order keyed)
  reported id := by
    rw [claimed_walk_iff id actor _ keyed]
    simp [Activity.should_run_iff_due]
  started id activity present due := by
    rw [lookup_claim, present, Option.map_some, Activity.claim_eq,
      if_pos ((activity.should_run_iff_due _).mpr due)]
  untouched id activity present notDue := by
    have passed : ¬ activity.shouldRun (readings id) = true :=
      fun runs => notDue ((activity.should_run_iff_due _).mp runs)
    rw [lookup_claim, present, Option.map_some, Activity.claim_eq, if_neg passed]
  keys id := by
    rw [← AList.lookup_isSome, ← AList.lookup_isSome, lookup_claim, Option.isSome_map]

/-! ### Claims after a claim, in whatever orders -/

/-- A run in flight outlasts every command that neither acknowledges it nor inserts
its id anew, in whatever order the command meets the entries. -/
theorem in_flight_walk (id : T) (actor : SchedulerActor T) (walk : Walk T)
    (inFlight : InFlight id actor) (leaves : LeavesRun id actor walk.input) :
    InFlight id (actor.stepWalk walk) := by
  have flies : InFlight id (actor.reordered walk.order) := by
    refine ⟨reordered_keyed actor walk.order inFlight.1, ?_⟩
    intro activity present
    exact inFlight.2 activity ((reordered_lookup actor walk.order id).symm.trans present)
  apply in_flight_step id _ walk.input flies
  refine ⟨?_, leaves.2⟩
  rintro ⟨spec, inserted⟩
  exact leaves.1 ⟨spec, (event_reordered actor walk.order id _).symm.trans inserted⟩

/-- Commands in whatever orders keep activities under their own ids. -/
theorem keyed_walks (walks : List (Walk T)) : (walks.foldl stepWalk empty).Keyed :=
  @Runs.always_after _ _ stepWalk Keyed keyed_walk empty (keyed_run []) walks

/-- A claim is exact: in every reachable map, whatever each entry reads while it is
processed, and in whatever order the map presents its entries. And no claim after
it reports what it reported before an acknowledgement or a new insertion of that
id, whatever the readings and the orders then. -/
theorem claim_exact (history : List (Walk T)) (readings : T → Reading) (order : WalkOrder T) :
    ClaimsExactly (history.foldl stepWalk empty) readings
        ((history.foldl stepWalk empty).claimedWalk ⟨⟨.claimDue, readings⟩, order⟩)
        ((history.foldl stepWalk empty).stepWalk ⟨⟨.claimDue, readings⟩, order⟩) ∧
      ∀ id ∈ (history.foldl stepWalk empty).claimedWalk ⟨⟨.claimDue, readings⟩, order⟩,
        ∀ (between : List (Walk T)) (second : Walk T),
          Runs.Along stepWalk (fun reached walk => LeavesRun id reached walk.input)
            ((history.foldl stepWalk empty).stepWalk ⟨⟨.claimDue, readings⟩, order⟩) between →
          id ∉ (between.foldl stepWalk ((history.foldl stepWalk empty).stepWalk
            ⟨⟨.claimDue, readings⟩, order⟩)).claimedWalk second := by
  have keyed := keyed_walks history
  refine ⟨claim_exact_of_keyed _ readings order keyed, ?_⟩
  intro id reported between second leaves
  have flies : InFlight id ((history.foldl stepWalk empty).stepWalk
      ⟨⟨.claimDue, readings⟩, order⟩) :=
    claim_in_flight id _ readings (reordered_keyed _ order keyed) reported
  obtain ⟨stillKeyed, still⟩ := Runs.invariant_after (in_flight_walk id) flies leaves
  apply in_flight_not_claimed id _ second.input
  refine ⟨reordered_keyed _ second.order stillKeyed, ?_⟩
  intro activity present
  exact still activity ((reordered_lookup _ second.order id).symm.trans present)

/-- An interval activity and a reminder, both due at 100, and one that is not. -/
def threeAt100 : List (Walk Nat) :=
  [walkAt 0 (.register ⟨1, .fixedInterval 100⟩), walkAt 0 (.register ⟨2, .scheduled 100⟩),
    walkAt 0 (.register ⟨3, .fixedInterval 200⟩), walkAt 100 .tick]

/-- The reminder, claimed at 100, is not claimed again while it is paused, resumed
and dispatched, and the wall clock goes on. -/
theorem claimed_once_at_100 :
    2 ∉ (List.foldl stepWalk ((threeAt100.foldl stepWalk empty).stepWalk (walkAt 100 .claimDue))
      [walkAt 110 (.setEnabled 2 false), walkAt 120 (.setEnabled 2 true),
        walkAt 130 (.setImmediate 2), walkAt 140 .tick]).claimedWalk (walkAt 150 .claimDue) :=
  (claim_exact threeAt100 (fun _ => .least 100 100) .stored).2 2 (by decide) _ _ (by decide)

end SchedulerActor

end Ritualist
