import Ritualist.Library.Comparison
import Ritualist.Entries

/-!
# Activities do not disturb each other

A command that walks the map visits the entry of every id, and a command for one
id visits the map of all of them. Yet what happens at an id depends on that id's
own entry only: a batch registration apart, whose loop stops at any id present.
So the commands for other ids can be left out of a run without a difference at an
id, and commands for different ids can change places.

A hash map presents its entries in an order of its own, which may change with
every command. Here each command comes with the order in which its walk meets the
entries, and nothing below assumes anything about the orders.
-/

namespace Ritualist

universe u
variable {T : Type u} [DecidableEq T]

omit [DecidableEq T] in
/-- An order in which a hash map may present its entries. -/
structure WalkOrder (T : Type u) where
  reorder : Table T (Activity T) → Table T (Activity T)
  perm : ∀ table, (reorder table).entries.Perm table.entries

/-- The order in which the entries are stored. -/
def WalkOrder.stored : WalkOrder T := ⟨id, fun _ => List.Perm.refl _⟩

/-- An input, and the order in which the entries are met while it is processed. -/
structure Walk (T : Type u) where
  input : Input T
  order : WalkOrder T

namespace SchedulerActor

/-- The actor with its map in another order. -/
def reordered (actor : SchedulerActor T) (order : WalkOrder T) : SchedulerActor T :=
  ⟨order.reorder actor.activities⟩

/-- The actor after one command, processed in some order. -/
def stepWalk (actor : SchedulerActor T) (walk : Walk T) : SchedulerActor T :=
  (actor.reordered walk.order).step walk.input

/-- The ids a command's reply reports, processed in some order. -/
def claimedWalk (actor : SchedulerActor T) (walk : Walk T) : List T :=
  (actor.reordered walk.order).claimed walk.input

/-- Whether a claim's reply contains the id; nothing for other commands. -/
def repliesAt (id : T) (actor : SchedulerActor T) (walk : Walk T) : Option Bool :=
  if walk.input.command = .claimDue then some (decide (id ∈ actor.claimedWalk walk)) else none

/-- No entry depends on the order. -/
@[simp] theorem reordered_lookup (actor : SchedulerActor T) (order : WalkOrder T) (id : T) :
    (actor.reordered order).activities.lookup id = actor.activities.lookup id :=
  AList.perm_lookup (order.perm actor.activities)

/-- A reordered map keeps activities under their own ids. -/
theorem reordered_keyed (actor : SchedulerActor T) (order : WalkOrder T) (keyed : actor.Keyed) :
    (actor.reordered order).Keyed := by
  intro id activity present
  exact keyed id activity ((reordered_lookup actor order id).symm.trans present)

/-- What a batch registration inserts for an id depends on which ids are present,
not on their order. -/
theorem accepted_congr (id : T) (first second : List T) (specs : List (ActivitySpec T))
    (same : ∀ other, other ∈ first ↔ other ∈ second) :
    acceptedSpec id first specs = acceptedSpec id second specs := by
  induction specs generalizing first second with
  | nil => rfl
  | cons spec rest inductionHypothesis =>
    have tail := inductionHypothesis (spec.id :: first) (spec.id :: second) (by simp [same])
    simp only [acceptedSpec, same, tail]

/-- What a command does at an id does not depend on the order. -/
theorem event_reordered (actor : SchedulerActor T) (order : WalkOrder T) (id : T)
    (command : Command T) :
    (actor.reordered order).eventAt id command = actor.eventAt id command := by
  have samePresence : ∀ other, other ∈ (actor.reordered order).activities ↔
      other ∈ actor.activities := by
    intro other
    rw [← AList.lookup_isSome, ← AList.lookup_isSome, reordered_lookup]
  cases command with
  | register spec => simp only [eventAt, samePresence]
  | registerMany specs =>
    have sameSpec := accepted_congr id (actor.reordered order).activities.keys
      actor.activities.keys specs samePresence
    simp only [eventAt, sameSpec]
  | _ => rfl

/-- What a command does at an id depends on whether the id is present, and on
nothing else in the map: but for a batch registration. -/
theorem event_congr (id : T) (first second : SchedulerActor T) (command : Command T)
    (unbatched : ∀ specs, command ≠ .registerMany specs)
    (same : id ∈ first.activities ↔ id ∈ second.activities) :
    first.eventAt id command = second.eventAt id command := by
  cases command with
  | register spec =>
    by_cases here : spec.id = id
    · subst here
      simp [eventAt, same]
    · simp [eventAt, here]
  | registerMany specs => exact absurd rfl (unbatched specs)
  | _ => rfl

/-- Two actors with the same entry at an id, in whatever orders. -/
structure Agree (id : T) (first second : SchedulerActor T) : Prop where
  keyed : first.Keyed
  keyed' : second.Keyed
  entry : first.activities.lookup id = second.activities.lookup id

/-- An input at which nothing happens to the id, whatever the map. -/
def PassesBy (id : T) (input : Input T) : Prop :=
  ∀ actor : SchedulerActor T, actor.eventAt id input.command = .skip

/-- Two inputs at which the same happens to the id, with the same readings. -/
structure SameAt (id : T) (first second : Input T) : Prop where
  event : ∀ actor : SchedulerActor T, actor.eventAt id first.command = actor.eventAt id second.command
  reading : first.readings id = second.readings id

/-- An input is no batch registration, whose outcome at an id depends on others. -/
def Unbatched (input : Input T) : Prop := ∀ specs, input.command ≠ .registerMany specs

/-- A command in some order keeps activities under their own ids. -/
theorem keyed_walk (actor : SchedulerActor T) (walk : Walk T) (keyed : actor.Keyed) :
    (actor.stepWalk walk).Keyed :=
  keyed_step walk.input (reordered_keyed actor walk.order keyed)

/-- The entry after a command in some order. -/
theorem lookup_walk (id : T) (actor : SchedulerActor T) (walk : Walk T) :
    (actor.stepWalk walk).activities.lookup id =
      (actor.eventAt id walk.input.command).advance (walk.input.readings id)
        (actor.activities.lookup id) := by
  rw [stepWalk, lookup_step, reordered_lookup, event_reordered]

/-- What passes an id by leaves its entry as it is, and is no claim. -/
theorem passes_step (id : T) (actor : SchedulerActor T) (walk : Walk T)
    (passes : PassesBy id walk.input) :
    (actor.stepWalk walk).activities.lookup id = actor.activities.lookup id ∧
      repliesAt id actor walk = none := by
  constructor
  · rw [stepWalk, lookup_step, passes, reordered_lookup]
    rfl
  · have unclaimed : walk.input.command ≠ .claimDue := by
      intro claims
      have event := passes actor
      rw [(event_claim_due_iff actor id _).mpr claims] at event
      cases event
    simp [repliesAt, unclaimed]

/-- Whether an id is reported depends on its own entry and reading only. -/
theorem claimed_walk_iff (id : T) (actor : SchedulerActor T) (walk : Walk T) (keyed : actor.Keyed) :
    id ∈ actor.claimedWalk walk ↔ walk.input.command = .claimDue ∧
      ∃ activity, actor.activities.lookup id = some activity ∧
        activity.shouldRun (walk.input.readings id) = true := by
  rw [claimedWalk, mem_claimed_iff (reordered_keyed actor walk.order keyed), reordered_lookup]

/-- Agreeing actors agree after inputs at which the same happens to the id, and
reply the same about it. -/
theorem agree_step (id : T) (first second : SchedulerActor T) (walk walk' : Walk T)
    (agree : Agree id first second) (unbatched : Unbatched walk.input)
    (same : SameAt id walk.input walk'.input) :
    Agree id (first.stepWalk walk) (second.stepWalk walk') ∧
      repliesAt id first walk = repliesAt id second walk' := by
  obtain ⟨keyed, keyed', entry⟩ := agree
  have sameEvent : first.eventAt id walk.input.command =
      second.eventAt id walk'.input.command := by
    rw [← same.event]
    exact event_congr id first second walk.input.command unbatched
      (by rw [← AList.lookup_isSome, ← AList.lookup_isSome, entry])
  refine ⟨⟨keyed_walk first walk keyed, keyed_walk second walk' keyed', ?_⟩, ?_⟩
  · rw [lookup_walk, lookup_walk, sameEvent, entry, same.reading]
  · have sameClaims : walk.input.command = .claimDue ↔ walk'.input.command = .claimDue := by
      rw [← event_claim_due_iff first id, ← event_claim_due_iff first id, same.event]
    have sameReport : id ∈ first.claimedWalk walk ↔ id ∈ second.claimedWalk walk' := by
      rw [claimed_walk_iff id first walk keyed, claimed_walk_iff id second walk' keyed', sameClaims,
        entry, same.reading]
    simp only [repliesAt, sameClaims, sameReport]

/-- Runs aligned at an id leave the same entry there and reply the same about it. -/
theorem agree_run (id : T) (first second : SchedulerActor T) (walks others : List (Walk T))
    (agree : Agree id first second) (unbatched : ∀ walk ∈ walks, Unbatched walk.input)
    (aligned : Runs.Aligned (fun walk : Walk T => PassesBy id walk.input)
      (fun walk : Walk T => PassesBy id walk.input)
      (fun walk walk' : Walk T => SameAt id walk.input walk'.input) walks others) :
    (walks.foldl stepWalk first).activities.lookup id =
        (others.foldl stepWalk second).activities.lookup id ∧
      Runs.outputs stepWalk (repliesAt id) first walks =
        Runs.outputs stepWalk (repliesAt id) second others := by
  have single : Runs.Along stepWalk (fun _ walk => Unbatched walk.input) first walks :=
    Runs.along_of_forall first fun walk member _ => unbatched walk member
  have alone : ∀ state state' walk, Agree id state state' → PassesBy id walk.input →
      Agree id (state.stepWalk walk) state' ∧ repliesAt id state walk = none := by
    intro state state' walk agrees passes
    obtain ⟨kept, silent⟩ := passes_step id state walk passes
    exact ⟨⟨keyed_walk state walk agrees.keyed, agrees.keyed', kept.trans agrees.entry⟩, silent⟩
  have alone' : ∀ state state' walk, Agree id state state' → PassesBy id walk.input →
      Agree id state (state'.stepWalk walk) ∧ repliesAt id state' walk = none := by
    intro state state' walk agrees passes
    obtain ⟨kept, silent⟩ := passes_step id state' walk passes
    exact ⟨⟨agrees.keyed, keyed_walk state' walk agrees.keyed', agrees.entry.trans kept.symm⟩, silent⟩
  obtain ⟨final, sameReplies⟩ := Runs.compare alone alone' (agree_step id) aligned agree single
  exact ⟨final.entry, sameReplies⟩

/-! ### Leaving out the commands for other ids -/

/-- What is left of an input when the commands for other ids are left out: it is
dropped, or kept, and a batch reset keeps its specifications of the id. -/
def restrict (id : T) (input : Input T) : Option (Input T) :=
  match input.command with
  | .register spec => if spec.id = id then some input else none
  | .reset spec => if spec.id = id then some input else none
  | .resetMany specs =>
    some { input with command := .resetMany (specs.filter fun spec => decide (spec.id = id)) }
  | .setEnabled target _ => if target = id then some input else none
  | .setImmediate target => if target = id then some input else none
  | .finish target _ => if target = id then some input else none
  | .registerMany _ => some input
  | .tick => some input
  | .claimDue => some input
  | .snapshot => some input

/-- What is left out passes the id by. -/
theorem restrict_none (id : T) (input : Input T) (dropped : restrict id input = none) :
    PassesBy id input := by
  obtain ⟨command, readings⟩ := input
  intro actor
  cases command <;> simp_all [restrict, eventAt]

/-- An input does at every id what it does. -/
theorem same_at_self (id : T) (input : Input T) : SameAt id input input := ⟨fun _ => rfl, rfl⟩

/-- What is kept does the same at the id. -/
theorem restrict_some (id : T) (input kept : Input T) (restricted : restrict id input = some kept) :
    SameAt id input kept := by
  cases command : input.command with
  | resetMany specs =>
    simp only [restrict, command] at restricted
    obtain rfl := Option.some.inj restricted
    refine ⟨fun actor => ?_, rfl⟩
    have sameFind : (specs.filter fun spec => decide (spec.id = id)).reverse.find?
        (fun spec => decide (spec.id = id)) = specs.reverse.find? fun spec => decide (spec.id = id) := by
      rw [← List.filter_reverse, List.find?_filter]
      simp
    simp only [command, eventAt, sameFind]
  | _ =>
    have same : input = kept := by simp_all [restrict]
    rw [← same]
    exact same_at_self id input

/-! ### Exchanging commands for different ids -/

/-- The ids a command is for; nothing for a command about the whole map. -/
def targets : Command T → Option (List T)
  | .register spec => some [spec.id]
  | .reset spec => some [spec.id]
  | .resetMany specs => some (specs.map ActivitySpec.id)
  | .setEnabled id _ => some [id]
  | .setImmediate id => some [id]
  | .finish id _ => some [id]
  | .snapshot => some []
  | .registerMany _ => none
  | .tick => none
  | .claimDue => none

/-- The commands are for ids, and for none in common. -/
def DifferentIds (first second : Input T) : Prop :=
  ∃ ids ids', targets first.command = some ids ∧ targets second.command = some ids' ∧
    ∀ id ∈ ids, id ∉ ids'

/-- A command passes by the ids that it is not for. -/
theorem targets_pass (id : T) (input : Input T) (ids : List T)
    (addressed : targets input.command = some ids) (other : id ∉ ids) : PassesBy id input := by
  obtain ⟨command, readings⟩ := input
  intro actor
  cases command with
  | resetMany specs =>
    obtain rfl := Option.some.inj addressed
    have unfound : specs.reverse.find? (fun spec => decide (spec.id = id)) = none := by
      rw [List.find?_eq_none]
      intro spec member same
      exact other (List.mem_map.mpr ⟨spec, List.mem_reverse.mp member, by simpa using same⟩)
    simp only [eventAt, unfound]
  | registerMany specs => cases addressed
  | tick => cases addressed
  | claimDue => cases addressed
  | snapshot => rfl
  | _ =>
    obtain rfl := Option.some.inj addressed
    simp_all [eventAt, eq_comm]

/-- The entry of an id, and whether each claim reports it, are the same in a run
without batch registrations and in what is left of the run when the commands for
other ids are left out. And commands for different ids can change places in a run
without a difference at any id. Neither depends on the orders in which the map
presents its entries, in any of the runs.

What happens at an id is a function of its own entry, so that whatever passes it
by can be left out: `agree_step`. Of two commands for different ids, at least one
passes each id by. -/
theorem activities_independent :
    (∀ (id : T) (walks others : List (Walk T)), (∀ walk ∈ walks, Unbatched walk.input) →
        others.map Walk.input = (walks.map Walk.input).filterMap (restrict id) →
          (walks.foldl stepWalk empty).activities.lookup id =
              (others.foldl stepWalk empty).activities.lookup id ∧
            Runs.outputs stepWalk (repliesAt id) empty walks =
              Runs.outputs stepWalk (repliesAt id) empty others) ∧
      ∀ (walks others : List (Walk T)) (before after : List (Input T)) (first second : Input T),
        (∀ walk ∈ walks, Unbatched walk.input) → DifferentIds first second →
        walks.map Walk.input = before ++ first :: second :: after →
        others.map Walk.input = before ++ second :: first :: after → ∀ id : T,
          (walks.foldl stepWalk empty).activities.lookup id =
              (others.foldl stepWalk empty).activities.lookup id ∧
            Runs.outputs stepWalk (repliesAt id) empty walks =
              Runs.outputs stepWalk (repliesAt id) empty others := by
  have agree (id : T) : Agree id (empty : SchedulerActor T) empty :=
    ⟨keyed_run [], keyed_run [], rfl⟩
  constructor
  · intro id walks others unbatched restricted
    apply agree_run id empty empty walks others (agree id) unbatched
    apply Runs.aligned_of_map
    rw [restricted]
    exact Runs.aligned_filterMap (restrict id) _ (restrict_none id) (restrict_some id)
  · rintro walks others before after first second unbatched ⟨ids, ids', targets, targets', apart⟩
      inputs inputs' id
    apply agree_run id empty empty walks others (agree id) unbatched
    apply Runs.aligned_of_map
    rw [inputs, inputs']
    have rest : Runs.Aligned (PassesBy id) (PassesBy id) (SameAt id) after after :=
      Runs.aligned_self (same_at_self id) after
    apply (Runs.aligned_self (same_at_self id) before).append
    by_cases addressed : id ∈ ids
    · -- the second command passes by
      have passes := targets_pass id second ids' targets' (apart id addressed)
      exact .right second _ _ passes (.pair first first _ _ (same_at_self id first)
        (.left second _ _ passes rest))
    · have passes := targets_pass id first ids targets addressed
      exact .left first _ _ passes (.pair second second _ _ (same_at_self id second)
        (.right first _ _ passes rest))

omit [DecidableEq T] in
/-- A command at a moment, with the entries met as they are stored. -/
def walkAt (moment : Instant) (command : Command T) : Walk T :=
  ⟨⟨command, fun _ => .least moment moment⟩, .stored⟩

/-- Leaving out the commands for 2 makes no difference at 1. -/
theorem independent_of_other :
    (List.foldl stepWalk empty
        [walkAt 0 (.register ⟨1, .fixedInterval 10⟩), walkAt 0 (.register ⟨2, .fixedInterval 10⟩),
          walkAt 5 (.setEnabled 2 false), walkAt 10 .tick, walkAt 10 .claimDue]).activities.lookup 1 =
      (List.foldl stepWalk empty
        [walkAt 0 (.register ⟨1, .fixedInterval 10⟩), walkAt 10 .tick, walkAt 10 .claimDue]).activities.lookup 1 :=
  (activities_independent.1 1 _ _ (by simp [Unbatched, walkAt]) rfl).1

end SchedulerActor

end Ritualist
