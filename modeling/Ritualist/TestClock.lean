import Ritualist.Timing
import Ritualist.Translation

/-!
# The clock of tests

Tests drive the scheduler with a clock that is frozen until it is told to advance. It
must be a clock nevertheless: its views move together, and never back. `advance` moves
the monotonic view first. Then it may panic, at the conversion of the span or at the end
of the calendar, and the views are apart. But it panics with the lock held, and from
then on the lock panics whoever takes it: nobody sees them apart,
`views_move_together`.

A test of a ritual is a list of advances and of turns of the parties. Its clock keeps
what the laws of the scheduler ask of a clock, and what the test shows does not depend
on the instant and the date at which it is started, `tests_start_anywhere`.
-/

namespace Ritualist

universe u
variable {T : Type u}

/-- The last instant, the longest span of the calendar and its last date. -/
structure ClockRange where
  instants : Instant
  spans : Duration
  dates : DateTime

/-- Where an operation of the clock panics. -/
inductive ClockPanic where
  /-- `lock().unwrap()`, after a panic with the lock held. -/
  | poisoned
  /-- `s.mono += by`. -/
  | instantOverflow
  /-- `expect("duration in range")`. -/
  | durationInRange
  /-- `s.utc += ..`. -/
  | dateOverflow
  deriving DecidableEq, Repr

structure TestState where
  mono : Instant
  utc : DateTime
  deriving DecidableEq, Repr

/-- The state that all clones of a clock share, and whether its lock is poisoned. -/
structure TestClock where
  state : TestState
  poisoned : Bool
  deriving DecidableEq, Repr

/-- An operation on some clone. -/
inductive ClockCall where
  | advance (span : Duration)
  | now
  | nowUtc
  deriving DecidableEq, Repr

inductive ClockAnswer where
  | advanced
  | instant (now : Instant)
  | date (nowUtc : DateTime)
  deriving DecidableEq, Repr

namespace TestClock

/-- A clock frozen at a date; its monotonic view starts at the present instant. -/
def new (present : Instant) (start : DateTime) : TestClock := ⟨⟨present, start⟩, false⟩

/-- Move the monotonic view, then convert the span and move the date. -/
def advance (range : ClockRange) (clock : TestClock) (span : Duration) :
    TestClock × Except ClockPanic Unit :=
  if clock.poisoned then (clock, .error .poisoned)
  else if range.instants < clock.state.mono + span
  then ({ clock with poisoned := true }, .error .instantOverflow)
  else
    let moved : TestState := { clock.state with mono := clock.state.mono + span }
    if range.spans < span then (⟨moved, true⟩, .error .durationInRange)
    else if range.dates < moved.utc + span then (⟨moved, true⟩, .error .dateOverflow)
    else (⟨{ moved with utc := moved.utc + span }, false⟩, .ok ())

def now (clock : TestClock) : Except ClockPanic Instant :=
  if clock.poisoned then .error .poisoned else .ok clock.state.mono

def nowUtc (clock : TestClock) : Except ClockPanic DateTime :=
  if clock.poisoned then .error .poisoned else .ok clock.state.utc

/-- The clock after a call, and what the caller gets. -/
def call (range : ClockRange) (clock : TestClock) :
    ClockCall → TestClock × Except ClockPanic ClockAnswer
  | .advance span =>
    let (moved, result) := clock.advance range span
    (moved, result.map fun _ => .advanced)
  | .now => (clock, clock.now.map .instant)
  | .nowUtc => (clock, clock.nowUtc.map .date)

/-- The clock after some calls. -/
def after (range : ClockRange) (clock : TestClock) (calls : List ClockCall) : TestClock :=
  calls.foldl (fun clock call => (clock.call range call).1) clock

end TestClock

/-! ### What the clock shows -/

/-- How far a call asks to move the clock. -/
def ClockCall.span : ClockCall → Duration
  | .advance span => span
  | _ => 0

/-- Both views, moved by the same. -/
def TestState.moved (state : TestState) (span : Duration) : TestState :=
  ⟨state.mono + span, state.utc + span⟩

/-- An advance by some span ends within the range. -/
def TestState.Fits (range : ClockRange) (state : TestState) : ClockCall → Prop
  | .advance span =>
    state.mono + span ≤ range.instants ∧ span ≤ range.spans ∧ state.utc + span ≤ range.dates
  | _ => True

instance fitsDecidable (range : ClockRange) (state : TestState) (call : ClockCall) :
    Decidable (state.Fits range call) :=
  match call with
  | .advance _ => inferInstanceAs (Decidable (_ ∧ _))
  | .now => inferInstanceAs (Decidable True)
  | .nowUtc => inferInstanceAs (Decidable True)

/-- No advance among the calls leads out of the range. -/
abbrev TestState.Endures (range : ClockRange) (state : TestState) (calls : List ClockCall) : Prop :=
  Runs.Along (fun state call => state.moved call.span) (fun state call => state.Fits range call)
    state calls

/-- How far some calls move the clock together. -/
def elapsed (calls : List ClockCall) : Duration := (calls.map ClockCall.span).sum

@[simp] theorem moved_zero (state : TestState) : state.moved 0 = state := by
  simp [TestState.moved]

theorem moved_moved (state : TestState) (first second : Duration) :
    (state.moved first).moved second = state.moved (first + second) := by
  simp [TestState.moved, Nat.add_assoc, Int.add_assoc]

namespace TestClock

variable {range : ClockRange}

/-- A poisoned clock panics at every call, and stays as it is. -/
theorem call_poisoned {clock : TestClock} (poisoned : clock.poisoned = true) (call : ClockCall) :
    clock.call range call = (clock, .error .poisoned) := by
  cases call <;> simp [TestClock.call, advance, now, nowUtc, poisoned, Except.map]

/-- What a clock that is not poisoned shows, and tells whoever advances it. -/
def answer (state : TestState) : ClockCall → ClockAnswer
  | .advance _ => .advanced
  | .now => .instant state.mono
  | .nowUtc => .date state.utc

/-- A call that fits moves both views by the same. -/
theorem call_fits {state : TestState} {call : ClockCall} (fits : state.Fits range call) :
    TestClock.call range ⟨state, false⟩ call =
      (⟨state.moved call.span, false⟩, .ok (answer state call)) := by
  cases call with
  | advance span =>
    obtain ⟨instants, spans, dates⟩ := fits
    simp [TestClock.call, advance, Nat.not_lt.mpr instants, Nat.not_lt.mpr spans,
      Int.not_lt.mpr dates, TestState.moved, ClockCall.span, Except.map, answer]
  | now => simp [TestClock.call, now, ClockCall.span, Except.map, answer]
  | nowUtc => simp [TestClock.call, nowUtc, ClockCall.span, Except.map, answer]

/-- A call that does not fit panics and poisons the clock. -/
theorem call_unfit {state : TestState} {call : ClockCall} (unfit : ¬ state.Fits range call) :
    (TestClock.call range ⟨state, false⟩ call).1.poisoned = true ∧
      (TestClock.call range ⟨state, false⟩ call).2.isOk = false := by
  cases call with
  | advance span =>
    simp only [TestClock.call, advance, Bool.false_eq_true, if_false]
    split
    case isTrue => exact ⟨rfl, rfl⟩
    case isFalse instants =>
      split
      case isTrue => exact ⟨rfl, rfl⟩
      case isFalse spans =>
        split
        case isTrue => exact ⟨rfl, rfl⟩
        case isFalse dates =>
          exact absurd ⟨Nat.not_lt.mp instants, Nat.not_lt.mp spans, Int.not_lt.mp dates⟩ unfit
  | now | nowUtc => exact absurd trivial unfit

/-- A poisoned clock stays as it is. -/
theorem after_poisoned {clock : TestClock} (poisoned : clock.poisoned = true)
    (calls : List ClockCall) : clock.after range calls = clock := by
  induction calls with
  | nil => rfl
  | cons call rest inductionHypothesis =>
    rw [after, List.foldl_cons, call_poisoned poisoned]
    exact inductionHypothesis

/-- After some calls both views have moved by all they asked for, or an advance has led
out of the range and the clock is poisoned. -/
theorem after_calls (state : TestState) (calls : List ClockCall) :
    (state.Endures range calls →
        after range ⟨state, false⟩ calls = ⟨state.moved (elapsed calls), false⟩) ∧
      (¬ state.Endures range calls → (after range ⟨state, false⟩ calls).poisoned = true) := by
  induction calls generalizing state with
  | nil => exact ⟨fun _ => by simp [after, elapsed], fun unfit => absurd trivial unfit⟩
  | cons call rest inductionHypothesis =>
    rw [after, List.foldl_cons]
    by_cases fits : state.Fits range call
    · obtain ⟨endures, poisons⟩ := inductionHypothesis (state.moved call.span)
      rw [call_fits fits]
      refine ⟨fun all => ?_, fun notAll => poisons fun later => notAll ⟨fits, later⟩⟩
      rw [elapsed, List.map_cons, List.sum_cons, ← moved_moved]
      exact endures all.2
    · refine ⟨fun all => absurd all.1 fits, fun _ => ?_⟩
      have poisoned := (call_unfit fits).1
      rw [← after, after_poisoned poisoned]
      exact poisoned

/-- One call more fits exactly if those before do and it does. -/
theorem endures_append (state : TestState) (calls : List ClockCall) (call : ClockCall) :
    state.Endures range (calls ++ [call]) ↔
      state.Endures range calls ∧ (state.moved (elapsed calls)).Fits range call := by
  have moved : calls.foldl (fun state call => state.moved call.span) state =
      state.moved (elapsed calls) := by
    induction calls generalizing state with
    | nil => exact (moved_zero state).symm
    | cons first rest inductionHypothesis =>
      rw [List.foldl_cons, inductionHypothesis, moved_moved]
      rfl
  rw [TestState.Endures, Runs.along_append, moved]
  simp

/-- The views of a test clock move together. Take any calls to a clock and its clones,
in any order. Another call returns exactly if neither it nor any before it leads out of
the range. If it returns an instant or a date, that is the first one moved by all the
advances before, so that the views are never seen apart; and it moves the clock by what
it asks for. Once an advance has panicked, between the views or before, every call
panics. -/
theorem views_move_together (range : ClockRange) (present : Instant) (start : DateTime)
    (calls : List ClockCall) (call : ClockCall) :
    let clock := (new present start).after range calls
    ((clock.call range call).2.isOk = true ↔
        (TestState.mk present start).Endures range (calls ++ [call])) ∧
      (∀ answered, (clock.call range call).2 = .ok answered →
        answered = answer ⟨present + elapsed calls, start + elapsed calls⟩ call ∧
          (clock.call range call).1.state =
            ⟨present + elapsed calls + call.span, start + elapsed calls + call.span⟩) ∧
      (¬ (TestState.mk present start).Endures range calls →
        (clock.call range call).2 = .error .poisoned) := by
  intro clock
  obtain ⟨moves, poisons⟩ := @after_calls range ⟨present, start⟩ calls
  rw [endures_append]
  by_cases endures : (TestState.mk present start).Endures range calls
  · have here : clock = ⟨(TestState.mk present start).moved (elapsed calls), false⟩ :=
      moves endures
    rw [here]
    refine ⟨?_, ?_, fun notAll => absurd endures notAll⟩
    · by_cases fits : ((TestState.mk present start).moved (elapsed calls)).Fits range call
      · simp [call_fits fits, endures, fits, Except.isOk, Except.toBool]
      · simp [(call_unfit fits).2, fits]
    · intro answered returned
      have fits : ((TestState.mk present start).moved (elapsed calls)).Fits range call := by
        by_contra unfit
        have panicked := (call_unfit unfit).2
        rw [returned] at panicked
        cases panicked
      rw [call_fits fits] at returned ⊢
      exact ⟨(Except.ok.inj returned).symm, rfl⟩
  · have poisoned : clock.poisoned = true := poisons endures
    rw [call_poisoned poisoned call]
    refine ⟨?_, fun answered returned => (by cases returned), fun _ => rfl⟩
    simp [endures, Except.isOk, Except.toBool]

example : (new 0 0).advance ⟨100, 100, 5⟩ 7 = (⟨⟨7, 0⟩, true⟩, .error .dateOverflow) := rfl

end TestClock

/-! ### A test of a ritual -/

/-- One move of a test. -/
inductive TestMove (T : Type u) where
  | advance (span : Duration)
  | take (turn : Turn T)

/-- The dates a test names are moved with its start. -/
def TestMove.shifted (offset : Offset) : TestMove T → TestMove T
  | .advance span => .advance span
  | .take turn => .take (turn.shifted offset)

/-- The advances of a test. -/
def TestMove.advances (moves : List (TestMove T)) : List ClockCall :=
  moves.filterMap fun move =>
    match move with
    | .advance span => some (.advance span)
    | .take _ => none

/-- Every activity reads the test's clock. -/
def Turn.under (state : TestState) : Turn T → Turn T
  | .process readings => .process fun id => ⟨state.mono, state.utc, (readings id).rng⟩
  | turn => turn

/-- The turns of a test, up to the first advance that panics. -/
def rehearse (range : ClockRange) : TestClock → List (TestMove T) → List (Turn T)
  | _, [] => []
  | clock, .advance span :: rest =>
    match clock.advance range span with
    | (moved, .ok ()) => rehearse range moved rest
    | (_, .error _) => []
  | clock, .take turn :: rest => turn.under clock.state :: rehearse range clock rest

/-- A turn of a moved test reads the moved clock. -/
theorem under_shifted (offset : Offset) (state : TestState) (turn : Turn T) :
    (turn.shifted offset).under ⟨state.mono + offset.mono, state.utc + offset.utc⟩ =
      (turn.under state).shifted offset := by
  cases turn <;> rfl

variable {range : ClockRange}

/-- An advance that fits returns, and moves both views. -/
theorem advance_fits {state : TestState} {span : Duration}
    (fits : state.Fits range (.advance span)) :
    TestClock.advance range ⟨state, false⟩ span = (⟨state.moved span, false⟩, .ok ()) := by
  obtain ⟨instants, spans, dates⟩ := fits
  simp [TestClock.advance, Nat.not_lt.mpr instants, Nat.not_lt.mpr spans, Int.not_lt.mpr dates,
    TestState.moved]

/-- An advance that panics ends the test. -/
theorem advance_returns {state : TestState} {span : Duration} {moved : TestClock}
    (returns : TestClock.advance range ⟨state, false⟩ span = (moved, .ok ())) :
    moved = ⟨state.moved span, false⟩ := by
  by_cases fits : state.Fits range (.advance span)
  · rw [advance_fits fits] at returns
    exact (congrArg Prod.fst returns).symm
  · have panicked := (TestClock.call_unfit fits).2
    simp only [TestClock.call, returns] at panicked
    cases panicked

/-- A test whose advances stay in range, started elsewhere, takes the moved turns. -/
theorem rehearse_shifted (offset : Offset) (state : TestState) (moves : List (TestMove T))
    (here : state.Endures range (TestMove.advances moves))
    (there : (TestState.mk (state.mono + offset.mono) (state.utc + offset.utc)).Endures range
      (TestMove.advances moves)) :
    rehearse range ⟨⟨state.mono + offset.mono, state.utc + offset.utc⟩, false⟩
        (moves.map (TestMove.shifted offset)) =
      (rehearse range ⟨state, false⟩ moves).map (Turn.shifted offset) := by
  induction moves generalizing state with
  | nil => rfl
  | cons move rest inductionHypothesis =>
    cases move with
    | take turn =>
      rw [List.map_cons, TestMove.shifted, rehearse, rehearse, List.map_cons, under_shifted,
        inductionHypothesis state here there]
    | advance span =>
      have moved : (TestState.mk (state.mono + offset.mono) (state.utc + offset.utc)).moved span =
          ⟨(state.moved span).mono + offset.mono, (state.moved span).utc + offset.utc⟩ := by
        simp [TestState.moved, Nat.add_right_comm, Int.add_right_comm]
      obtain ⟨fits, later⟩ := here
      obtain ⟨fitsThere, laterThere⟩ := there
      rw [List.map_cons, TestMove.shifted, rehearse, rehearse, advance_fits fits,
        advance_fits fitsThere, moved]
      refine inductionHypothesis (state.moved span) later ?_
      rw [← moved]
      exact laterThere

namespace World

variable [DecidableEq T]

omit [DecidableEq T] in
/-- The input that is processed in a turn of a test reads the test's clock. -/
theorem processed_under {world : World T} {state : TestState} {turn : Turn T} {input : Input T}
    (processes : world.processedInput (turn.under state) = some input) (id : T) :
    input.nowAt id = state.mono ∧ input.wallAt id = state.utc := by
  cases turn with
  | process readings =>
    obtain ⟨message, _, rfl⟩ := Option.map_eq_some_iff.mp processes
    exact ⟨rfl, rfl⟩
  | _ => cases processes

/-- Everything a test processes from some state of its clock on. -/
def rehearsed (range : ClockRange) (world : World T) (state : TestState)
    (moves : List (TestMove T)) : List (Input T) :=
  Runs.outputs perform processedInput world (rehearse range ⟨state, false⟩ moves)

/-- What is processed in a test is read from its clock, which does not go back. -/
theorem rehearsed_clocked (id : T) (moves : List (TestMove T)) (world : World T)
    (state : TestState) :
    (∀ input ∈ rehearsed range world state moves,
        state.mono ≤ input.nowAt id ∧ state.utc ≤ input.wallAt id) ∧
      SchedulerActor.Clocked id (rehearsed range world state moves) ∧
        SchedulerActor.WallClocked id (rehearsed range world state moves) := by
  induction moves generalizing world state with
  | nil => exact ⟨by simp [rehearsed, rehearse, Runs.outputs], .nil, .nil⟩
  | cons move rest inductionHypothesis =>
    cases move with
    | advance span =>
      cases returned : TestClock.advance range ⟨state, false⟩ span with
      | mk moved result =>
        cases result with
        | error panic =>
          have ended : rehearsed range world state (.advance span :: rest) = [] := by
            simp only [rehearsed, rehearse, returned, Runs.outputs]
          rw [ended]
          exact ⟨by simp, .nil, .nil⟩
        | ok =>
          obtain rfl := advance_returns returned
          have goesOn : rehearsed range world state (.advance span :: rest) =
              rehearsed range world (state.moved span) rest := by
            simp only [rehearsed, rehearse, returned]
          obtain ⟨bounded, inOrder⟩ := inductionHypothesis world (state.moved span)
          rw [goesOn]
          refine ⟨fun input member => ?_, inOrder⟩
          obtain ⟨later, laterDate⟩ := bounded input member
          exact ⟨Nat.le_of_add_right_le later,
            (Int.le_add_of_nonneg_right (Int.natCast_nonneg span)).trans laterDate⟩
    | take turn =>
      have first : rehearsed range world state (.take turn :: rest) =
          (world.processedInput (turn.under state)).toList ++
            rehearsed range (world.perform (turn.under state)) state rest := rfl
      obtain ⟨bounded, inOrder, wallInOrder⟩ :=
        inductionHypothesis (world.perform (turn.under state)) state
      have reads : ∀ input ∈ (world.processedInput (turn.under state)).toList,
          input.nowAt id = state.mono ∧ input.wallAt id = state.utc := fun input member =>
        processed_under (Option.mem_toList.mp member) id
      have alone : (world.processedInput (turn.under state)).toList.length ≤ 1 := by
        cases world.processedInput (turn.under state) <;> simp
      rw [first]
      refine ⟨fun input member => ?_, ?_, ?_⟩
      · rcases List.mem_append.mp member with now | later
        · obtain ⟨instant, date⟩ := reads input now
          exact ⟨instant.ge, date.ge⟩
        · exact bounded input later
      · refine (Runs.clocked_append _ _).mpr ⟨?_, inOrder, fun earlier now input later => ?_⟩
        · cases world.processedInput (turn.under state) <;> simp
        · rw [(reads earlier now).1]
          exact (bounded input later).1
      · refine (Runs.clocked_append _ _).mpr ⟨?_, wallInOrder, fun earlier now input later => ?_⟩
        · cases world.processedInput (turn.under state) <;> simp
        · rw [(reads earlier now).2]
          exact (bounded input later).2

/-- A test may start at any time. Take a test whose advances stay in range, and start it
at another instant and another date, from which they stay in range as well, with the
dates that it names moved along. It is an interleaving then exactly if it was one, and
the world it ends in is the same but for the instants and dates it holds: the same runs
are claimed, delivered and finished. And what the actor processes in any test, whether it
stays in range or not, is read from clocks that never go back, for every id, as the laws
of the scheduler ask. -/
theorem tests_start_anywhere (bufferSize : Nat) (range : ClockRange) (offset : Offset)
    (present : Instant) (start : DateTime) (moves : List (TestMove T)) :
    let turns := rehearse range (.new present start) moves
    let moved := rehearse range (.new (present + offset.mono) (start + offset.utc))
      (moves.map (TestMove.shifted offset))
    ((TestState.mk present start).Endures range (TestMove.advances moves) →
        (TestState.mk (present + offset.mono) (start + offset.utc)).Endures range
          (TestMove.advances moves) →
        (Interleaving bufferSize moved ↔ Interleaving bufferSize turns) ∧
          reached moved = (reached turns).shifted offset) ∧
      ∀ id, SchedulerActor.Clocked id (history turns) ∧
        SchedulerActor.WallClocked id (history turns) := by
  intro turns moved
  constructor
  · intro here there
    have same : moved = turns.map (Turn.shifted offset) :=
      rehearse_shifted offset ⟨present, start⟩ moves here there
    rw [same]
    exact ⟨interleaving_shifted bufferSize offset turns, reached_shifted offset turns⟩
  · exact fun id => (rehearsed_clocked id moves initial ⟨present, start⟩).2

/-- A reminder 7 after the start of the test. -/
def reminder : List (TestMove Nat) :=
  [.take (.request (.register ⟨1, .scheduled 7⟩)), .take (.process fun _ => .least 0 0),
    .advance 7, .take .tick, .take .claimDue, .take (.process fun _ => .least 0 0),
    .take (.process fun _ => .least 0 0)]

/-- Whether its test starts at 0 or at 50, it is claimed. -/
theorem reminder_starts_anywhere :
    (reached (rehearse ⟨100, 100, 100⟩ (.new 0 0) reminder)).claimed.map Run.id = [1] ∧
      (reached (rehearse ⟨100, 100, 100⟩ (.new 3 50)
        (reminder.map (TestMove.shifted ⟨3, 50⟩)))).claimed.map Run.id = [1] := by
  obtain ⟨anywhere, _⟩ := tests_start_anywhere 4 ⟨100, 100, 100⟩ ⟨3, 50⟩ 0 0 reminder
  obtain ⟨_, same⟩ := anywhere (by decide) (by decide)
  have claimed : (reached (rehearse ⟨100, 100, 100⟩ (.new 0 0) reminder)).claimed.map Run.id =
    [1] := by decide
  refine ⟨claimed, ?_⟩
  have moved := congrArg (fun world => world.claimed.map Run.id) same
  exact moved.trans claimed

end World

end Ritualist
