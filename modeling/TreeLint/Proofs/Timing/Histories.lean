import Mathlib.Algebra.GroupWithZero.Nat
import TreeLint.Timing.Timed

/-! Histories of an inspection whose runs may be timed. A history falls into stretches between the
changes of the inspection. Main result: each stretch asks once, at its first run, times all of its
runs or none as the answer says, and every pass comes to what it comes to without timing.
-/

namespace TreeLint

namespace TimingMode

def isOn : TimingMode → Bool
  | .always => true
  | .never => false
  | .switched isOn => isOn

/-- The mode with the switch turned, if it has one. -/
def turn (isOn : Bool) : TimingMode → TimingMode
  | .switched _ => .switched isOn
  | mode => mode

end TimingMode

namespace Timekeeper

theorem turn_eq (keeper : Timekeeper) (isOn : Bool)
    : keeper.turn isOn = { keeper with mode := keeper.mode.turn isOn } := by
  obtain ⟨mode, lookups, samples⟩ := keeper
  cases mode <;> rfl

theorem ask_eq (keeper : Timekeeper)
    : keeper.ask = (keeper.mode.isOn, { keeper with lookups := keeper.lookups + 1 }) := by
  obtain ⟨mode, lookups, samples⟩ := keeper
  cases mode <;> rfl

end Timekeeper

namespace Timed

-----------------------------------------------------------------------------------------
-- Histories
-----------------------------------------------------------------------------------------

/-- A pass that is run: what it runs on, the flag that may stop it, and the time that it takes. -/
structure Pass where
  context : PassContext
  flag : Option CancelFlag
  elapsed : Duration

/-- What happens while the inspection stays as it is. -/
inductive Call where
  | run (pass : Pass)
  /-- Somebody turns the switch that decides whether runs are timed. -/
  | turn (isOn : Bool)

inductive Event (ι : Type) where
  | call (call : Call)
  | change (f : ι → ι)

/-- What a run leaves behind: how often the keeper was asked, the samples that were taken, and what
the pass came to, its breakdown included.
-/
structure RunRecord where
  asked : Nat
  taken : List Sample
  state : PassState

/-- A wrapped inspection with its keeper, and the records of the runs so far. -/
structure Watch (ι : Type) where
  timed : Timed ι
  keeper : Timekeeper
  records : List RunRecord := []

variable {ι : Type}

/-- The record of a run of an inspection: a sample under its name if runs are timed, and what the
pass comes to by itself.
-/
def RunRecord.ofPass [Inspection ι] (inspection : ι) (isOn : Bool) (asked : Nat) (pass : Pass)
    : RunRecord where
  asked
  taken :=
    if isOn then [⟨(Inspection.profile inspection).displayName, pass.elapsed⟩] else []
  state := Inspection.inspectScope inspection pass.context pass.flag

namespace Watch

/-- The watch with one more run accounted for, and with the decision that it was made under. -/
def add (watch : Watch ι) (isOn : Bool) (record : RunRecord) : Watch ι where
  timed := { watch.timed with resolved := some isOn }
  keeper :=
    { watch.keeper with
      lookups := watch.keeper.lookups + record.asked
      samples := watch.keeper.samples ++ record.taken }
  records := watch.records ++ [record]

variable [Inspection ι]

def call (watch : Watch ι) : Call → Watch ι
  | .run pass =>
      let (state, timed, keeper) :=
        watch.timed.run pass.context pass.flag watch.keeper pass.elapsed
      let record :=
        { asked := keeper.lookups - watch.keeper.lookups
          taken := keeper.samples.drop watch.keeper.samples.length
          state }
      { timed, keeper, records := watch.records ++ [record] }
  | .turn isOn => { watch with keeper := watch.keeper.turn isOn }

def step (watch : Watch ι) : Event ι → Watch ι
  | .call call => watch.call call
  | .change f => { watch with timed := watch.timed.change f }

/-- What a history leaves, event by event. -/
def after (watch : Watch ι) (history : List (Event ι)) : Watch ι :=
  history.foldl step watch

/-- A run asks if it is not decided yet whether runs are timed. -/
theorem call_run (watch : Watch ι) (pass : Pass)
    : watch.call (.run pass)
      = watch.add (watch.timed.resolved.getD watch.keeper.mode.isOn)
          (.ofPass watch.timed.inspection (watch.timed.resolved.getD watch.keeper.mode.isOn)
            (if watch.timed.resolved.isNone then 1 else 0) pass) := by
  obtain ⟨⟨inspection, resolved⟩, ⟨mode, lookups, samples⟩, records⟩ := watch
  cases resolved with
  | none =>
      cases on : mode.isOn <;>
        simp [call, add, RunRecord.ofPass, run, resolve, Timekeeper.ask_eq, Timekeeper.record, on]
  | some isOn =>
      cases isOn <;> simp [call, add, RunRecord.ofPass, run, resolve, Timekeeper.record]

end Watch

-----------------------------------------------------------------------------------------
-- Stretches
-----------------------------------------------------------------------------------------

/-- A part of a history in which the inspection stays as it is, with the mode at its beginning. -/
structure Stretch (ι : Type) where
  inspection : ι
  mode : TimingMode
  calls : List Call := []

/-- The mode after some calls. -/
def modeAfter (mode : TimingMode) : List Call → TimingMode
  | [] => mode
  | .run _ :: rest => modeAfter mode rest
  | .turn isOn :: rest => modeAfter (mode.turn isOn) rest

/-- Whether timing is on when the first of some calls that is a run comes, if any is one. -/
def answer? (mode : TimingMode) : List Call → Option Bool
  | [] => none
  | .run _ :: _ => some mode.isOn
  | .turn isOn :: rest => answer? (mode.turn isOn) rest

def passes : List Call → List Pass
  | [] => []
  | .run pass :: rest => pass :: passes rest
  | .turn _ :: rest => passes rest

namespace Stretch

def answer? (stretch : Stretch ι) : Option Bool :=
  Timed.answer? stretch.mode stretch.calls

/-- The stretch with one more call. -/
def grow (stretch : Stretch ι) (call : Call) : Stretch ι :=
  { stretch with calls := stretch.calls ++ [call] }

/-- The stretch that begins when the inspection is changed. -/
def next (stretch : Stretch ι) (f : ι → ι) : Stretch ι :=
  { inspection := f stretch.inspection, mode := modeAfter stretch.mode stretch.calls }

/-- The stretches of a history that goes on from the given one. -/
def cut (stretch : Stretch ι) : List (Event ι) → List (Stretch ι)
  | [] => [stretch]
  | .call call :: rest => (stretch.grow call).cut rest
  | .change f :: rest => stretch :: (stretch.next f).cut rest

variable [Inspection ι]

def record (stretch : Stretch ι) (asked : Nat) (pass : Pass) : RunRecord :=
  .ofPass stretch.inspection (stretch.answer?.getD false) asked pass

/-- The records of the runs of a stretch. The keeper is asked at the first of them and no more. -/
def records (stretch : Stretch ι) : List RunRecord :=
  match passes stretch.calls with
  | [] => []
  | first :: rest => stretch.record 1 first :: rest.map (stretch.record 0)

end Stretch

theorem modeAfter_append (mode : TimingMode) (earlier later : List Call)
    : modeAfter mode (earlier ++ later) = modeAfter (modeAfter mode earlier) later := by
  induction earlier generalizing mode with
  | nil => rfl
  | cons call rest ih => cases call <;> exact ih _

theorem passes_append (earlier later : List Call)
    : passes (earlier ++ later) = passes earlier ++ passes later := by
  induction earlier with
  | nil => rfl
  | cons call rest ih => cases call <;> simp [passes, ih]

/-- The first run decides, so later calls matter only where there is none before them. -/
theorem answer?_append (mode : TimingMode) (earlier later : List Call)
    : answer? mode (earlier ++ later)
      = (answer? mode earlier).or (answer? (modeAfter mode earlier) later) := by
  induction earlier generalizing mode with
  | nil => rfl
  | cons call rest ih =>
      cases call with
      | run pass => rfl
      | turn isOn => exact ih _

/-- There is an answer exactly if there is a run. -/
theorem isNone_answer? (mode : TimingMode) (calls : List Call)
    : (answer? mode calls).isNone = (passes calls).isEmpty := by
  induction calls generalizing mode with
  | nil => rfl
  | cons call rest ih =>
      cases call with
      | run pass => rfl
      | turn isOn => exact ih _

namespace Stretch

variable [Inspection ι]

/-- A call that leaves the answer as it is leaves the record of every pass as it is. -/
theorem record_grow {stretch : Stretch ι} {call : Call}
    (same : (stretch.grow call).answer? = stretch.answer?)
    : (stretch.grow call).record = stretch.record := by
  funext asked pass
  rw [record, same]
  rfl

/-- A turn of the switch changes no record of its stretch. -/
theorem records_grow_turn (stretch : Stretch ι) (isOn : Bool)
    : (stretch.grow (.turn isOn)).answer? = stretch.answer?
      ∧ (stretch.grow (.turn isOn)).records = stretch.records := by
  have same : (stretch.grow (.turn isOn)).answer? = stretch.answer? := by
    rw [answer?, grow, answer?_append, Timed.answer?, Timed.answer?, Option.or_none]
    rfl
  refine ⟨same, ?_⟩
  rw [records, records, record_grow same, grow, passes_append, passes, passes, List.append_nil]

/-- One more run has one more record behind the others. It asks exactly if it is the first one. -/
theorem records_grow_run (stretch : Stretch ι) (pass : Pass)
    : (stretch.grow (.run pass)).answer?
        = some (stretch.answer?.getD (modeAfter stretch.mode stretch.calls).isOn)
      ∧ (stretch.grow (.run pass)).records
        = stretch.records
          ++ [(stretch.grow (.run pass)).record
            (if stretch.answer?.isNone then 1 else 0) pass] := by
  have answer : (stretch.grow (.run pass)).answer?
      = some (stretch.answer?.getD (modeAfter stretch.mode stretch.calls).isOn) := by
    rw [answer?, grow, answer?_append, Timed.answer?, Option.or_some]
    rfl
  refine ⟨answer, ?_⟩
  have among : passes (stretch.grow (.run pass)).calls = passes stretch.calls ++ [pass] := by
    rw [grow, passes_append, passes, passes]
  have first := isNone_answer? stretch.mode stretch.calls
  rw [records, records, among]
  cases before : passes stretch.calls with
  | nil =>
      rw [before] at first
      simp [answer?, first]
  | cons earlier rest =>
      rw [before] at first
      cases decided : stretch.answer? with
      | none =>
          rw [answer?] at decided
          rw [decided] at first
          cases first
      | some isOn =>
          have same : (stretch.grow (.run pass)).answer? = stretch.answer? := by
            rw [answer, decided, Option.getD_some]
          simp [record_grow same]

end Stretch

-----------------------------------------------------------------------------------------
-- Histories and their stretches
-----------------------------------------------------------------------------------------

variable [Inspection ι]

/-- Where a wrapped inspection stands in a history: behind the stretches that are done, in a stretch
that goes on. The keeper has the lookups and samples of all runs beside those of its beginning.
-/
structure Watch.StandsIn (watch : Watch ι) (keeper : Timekeeper) (done : List (Stretch ι))
    (stretch : Stretch ι)
    : Prop where
  inspection : watch.timed.inspection = stretch.inspection
  resolved : watch.timed.resolved = stretch.answer?
  mode : watch.keeper.mode = modeAfter stretch.mode stretch.calls
  records : watch.records = (done ++ [stretch]).flatMap Stretch.records
  lookups : watch.keeper.lookups = keeper.lookups + (watch.records.map (·.asked)).sum
  samples : watch.keeper.samples = keeper.samples ++ watch.records.flatMap (·.taken)

namespace Watch.StandsIn

variable {watch : Watch ι} {keeper : Timekeeper} {done : List (Stretch ι)} {stretch : Stretch ι}

/-- A call belongs to the stretch that goes on. -/
theorem call (stands : watch.StandsIn keeper done stretch) (call : Call)
    : (watch.call call).StandsIn keeper done (stretch.grow call) := by
  obtain ⟨inspection, resolved, mode, records, lookups, samples⟩ := stands
  cases call with
  | turn isOn =>
      obtain ⟨answer, same⟩ := stretch.records_grow_turn isOn
      have turned : watch.call (.turn isOn)
          = { watch with keeper := { watch.keeper with mode := watch.keeper.mode.turn isOn } } :=
        congrArg (fun keeper => { watch with keeper }) (watch.keeper.turn_eq isOn)
      rw [turned]
      refine ⟨inspection, resolved.trans answer.symm, ?_, ?_, lookups, samples⟩
      · rw [Stretch.grow, modeAfter_append, ← mode]
        rfl
      · rw [records, List.flatMap_append, List.flatMap_append, List.flatMap_singleton,
          List.flatMap_singleton, same]
  | run pass =>
      obtain ⟨answer, more⟩ := stretch.records_grow_run pass
      have ran : watch.call (.run pass)
          = watch.add ((stretch.grow (.run pass)).answer?.getD false)
              ((stretch.grow (.run pass)).record
                (if stretch.answer?.isNone then 1 else 0) pass) := by
        rw [Watch.call_run, inspection, resolved, mode, Stretch.record, answer]
        rfl
      rw [ran]
      refine ⟨inspection, ?_, ?_, ?_, ?_, ?_⟩
      · rw [answer]
        rfl
      · rw [Stretch.grow, modeAfter_append]
        exact mode
      · simp [Watch.add, records, more]
      · simp [Watch.add, lookups, Nat.add_assoc]
      · simp [Watch.add, samples]

/-- A change of the inspection ends the stretch and begins another one. -/
theorem change (stands : watch.StandsIn keeper done stretch) (f : ι → ι)
    : (watch.step (.change f)).StandsIn keeper (done ++ [stretch]) (stretch.next f) where
  inspection := congrArg f stands.inspection
  resolved := rfl
  mode := stands.mode
  records := by
    rw [List.flatMap_append, ← stands.records]
    exact (List.append_nil _).symm
  lookups := stands.lookups
  samples := stands.samples

/-- Where the history goes on, the records are those of the stretches that it falls into, by
induction on the rest of the history.
-/
theorem after (stands : watch.StandsIn keeper done stretch) (history : List (Event ι))
    : (watch.after history).records = (done ++ stretch.cut history).flatMap Stretch.records
      ∧ (watch.after history).keeper.lookups
        = keeper.lookups + ((watch.after history).records.map (·.asked)).sum
      ∧ (watch.after history).keeper.samples
        = keeper.samples ++ (watch.after history).records.flatMap (·.taken) := by
  induction history generalizing watch done stretch with
  | nil => exact ⟨stands.records, stands.lookups, stands.samples⟩
  | cons event rest ih =>
      cases event with
      | call call => exact ih (stands.call call)
      | change f =>
          rw [Stretch.cut, List.append_cons]
          exact ih (stands.change f)

end Watch.StandsIn

/-- A stretch with a run asks once, and one without does not ask. -/
theorem Stretch.sum_asked (stretch : Stretch ι)
    : (stretch.records.map (·.asked)).sum = if (passes stretch.calls).isEmpty then 0 else 1 := by
  rw [Stretch.records]
  cases passes stretch.calls <;>
    simp [Stretch.record, RunRecord.ofPass, Function.comp_def, List.map_const']

theorem sum_asked (stretches : List (Stretch ι))
    : ((stretches.flatMap Stretch.records).map (·.asked)).sum
      = stretches.countP fun stretch => !(passes stretch.calls).isEmpty := by
  induction stretches with
  | nil => rfl
  | cons stretch rest ih =>
      rw [List.flatMap_cons, List.map_append, List.sum_append, stretch.sum_asked, ih,
        List.countP_cons, Nat.add_comm]
      cases (passes stretch.calls).isEmpty <;> rfl

/-- Whatever happens to a wrapped inspection, its runs leave the records of the stretches that its
history falls into: in each of them the keeper is asked once, at the first run, if there is one, and
a run takes one sample or none as the answer was and comes to what the pass comes to by itself. The
keeper holds the lookups and samples of the runs and no others.
-/
theorem after_recorded (inspection : ι) (keeper : Timekeeper) (history : List (Event ι))
    : let stretches := Stretch.cut { inspection, mode := keeper.mode } history
      let left := Watch.after { timed := { inspection }, keeper } history
      left.records = stretches.flatMap Stretch.records
      ∧ left.keeper.lookups
        = keeper.lookups + stretches.countP (fun stretch => !(passes stretch.calls).isEmpty)
      ∧ left.keeper.samples = keeper.samples ++ left.records.flatMap (·.taken) := by
  have start : Watch.StandsIn { timed := { inspection }, keeper } keeper []
      { inspection, mode := keeper.mode } :=
    ⟨rfl, rfl, rfl, rfl, rfl, (List.append_nil _).symm⟩
  obtain ⟨records, lookups, samples⟩ := start.after history
  rw [List.nil_append] at records
  refine ⟨records, ?_, samples⟩
  rw [lookups, records, sum_asked]

/-- The switch is turned on between two runs and counts only after the next change. -/
example (inspection : ι) (pass : Pass)
    : let history : List (Event ι) :=
        [.call (.run pass), .call (.turn true), .call (.run pass), .change id, .call (.run pass)]
      (Watch.after { timed := { inspection }, keeper := { mode := .switched false } }
          history).records.map (fun record => (record.asked, record.taken.length))
        = [(1, 0), (0, 0), (1, 1)] :=
  rfl

end Timed

end TreeLint
