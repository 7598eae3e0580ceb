import Mathlib.Data.List.Nodup
import Mathlib.Logic.Function.Basic
import TreeLint.Restorable

/-! Values that are entered for a while, with guards that are given up newest first. There is one
value for all of its clones, while each guard knows another value of before, and writes without a
guard come in between. Main result: a guard brings back all that was before it was taken, be it that
the work under it is done or that it breaks off, and when all guards are given up, the value is the
last one that was set while there was none.
-/

namespace TreeLint.Restorable

variable {α : Type} {cell next last : Restorable α} {name : String} {guard : Guard α}
  {older : List (String × Guard α)}

-----------------------------------------------------------------------------------------
-- Histories
-----------------------------------------------------------------------------------------

/-- What happens to a value. -/
inductive Action (α : Type) where
  | set (value : α)
  | enter (name : String) (value : α)
  | leave (name : String)
  /-- A value is entered for work that breaks off at once. -/
  | attempt (value : α)
  deriving DecidableEq

def step (cell : Restorable α) : Action α → Restorable α
  | .set value => cell.set value
  | .enter name value => cell.enter name value
  | .leave name => cell.leave name
  | .attempt value => cell.attempt value

/-- What a history leaves, action by action. -/
def after (cell : Restorable α) (history : List (Action α)) : Restorable α :=
  history.foldl step cell

/-- The names under which guards are held, newest first. -/
def held (cell : Restorable α) : List String :=
  cell.guards.map (·.1)

/-- The work under a guard breaks off. The guards taken since are given up, newest first, and then
the guard itself.
-/
def breakOff (cell : Restorable α) (name : String) : Restorable α :=
  (cell.held.takeWhile (· != name) ++ [name]).foldl leave cell

/-- The names held after an action, newest first, from those held before. Only the newest guard is
given up. A guard is taken under a name that is not in use, as it would take the place of another one
there.
-/
def stillHeld? (names : List String) : Action α → Option (List String)
  | .set _ | .attempt _ => some names
  | .enter name _ => if name ∈ names then none else some (name :: names)
  | .leave name => if names.head? = some name then some names.tail else none

/-- Each guard is given up before those that were taken earlier. -/
def WellNested (history : List (Action α)) : Prop :=
  (history.foldlM stillHeld? []).isSome

/-- The history is well nested, and each guard is given up. -/
def Balanced (history : List (Action α)) : Prop :=
  history.foldlM stillHeld? [] = some []

instance (history : List (Action α)) : Decidable (WellNested history) :=
  inferInstanceAs (Decidable (_ = true))

instance (history : List (Action α)) : Decidable (Balanced history) :=
  inferInstanceAs (Decidable (_ = _))

/-- The values that are set while no guard is held, with the number of those held at first. -/
def setOutside : Nat → List (Action α) → List α
  | _, [] => []
  | 0, .set value :: rest => value :: setOutside 0 rest
  | count + 1, .set _ :: rest => setOutside (count + 1) rest
  | count, .enter _ _ :: rest => setOutside (count + 1) rest
  | count, .leave _ :: rest => setOutside (count - 1) rest
  | count, .attempt _ :: rest => setOutside count rest

theorem after_append (cell : Restorable α) (earlier later : List (Action α))
    : cell.after (earlier ++ later) = (cell.after earlier).after later :=
  List.foldl_append

-----------------------------------------------------------------------------------------
-- One action
-----------------------------------------------------------------------------------------

/-- What an action does that comes in its turn. -/
inductive Nests (cell : Restorable α) : Action α → Restorable α → Prop where
  | set (value : α) : cell.Nests (.set value) { cell with value }
  | enter {name : String} (value : α) (fresh : name ∉ cell.held)
    : cell.Nests (.enter name value)
        { value, guards := (name, { previous := cell.value }) :: cell.guards }
  | leave {name : String} {guard : Guard α} {older : List (String × Guard α)}
    (newest : cell.guards = (name, guard) :: older)
    : cell.Nests (.leave name) { value := guard.previous, guards := older }
  | attempt (value : α) : cell.Nests (.attempt value) cell

theorem leave_of_not_held (absent : name ∉ cell.held) : cell.leave name = cell := by
  have none : cell.guards.lookup name = none := by
    rw [List.lookup_eq_none_iff]
    intro entry member
    simpa using (ne_of_mem_of_not_mem (List.mem_map_of_mem member) absent).symm
  rw [leave, none]

theorem enter_of_not_held (fresh : name ∉ cell.held) (value : α)
    : cell.enter name value
      = { value, guards := (name, { previous := cell.value }) :: cell.guards } := by
  have unused : name ∉ (cell.set value).held := fresh
  rw [enter, leave_of_not_held unused]
  rfl

theorem leave_of_newest (distinct : cell.held.Nodup) (newest : cell.guards = (name, guard) :: older)
    : cell.leave name = { value := guard.previous, guards := older } := by
  rw [held, newest, List.map_cons, List.nodup_cons] at distinct
  have others : older.filter (·.1 != name) = older := by
    refine List.filter_eq_self.mpr fun entry member => ?_
    simpa using ne_of_mem_of_not_mem (List.mem_map_of_mem member) distinct.1
  simp [leave, newest, restore, set, others]

/-- An action that keeps guards in order comes in its turn. -/
theorem nests_step (distinct : cell.held.Nodup) {action : Action α} {names : List String}
    (allowed : stillHeld? cell.held action = some names)
    : cell.Nests action (cell.step action) ∧ (cell.step action).held = names := by
  cases action with
  | set value => exact ⟨.set value, Option.some.inj allowed⟩
  | enter name value =>
      rw [stillHeld?] at allowed
      split at allowed
      · cases allowed
      · next fresh =>
          cases allowed
          rw [step, enter_of_not_held fresh]
          exact ⟨.enter value fresh, rfl⟩
  | leave name =>
      rw [stillHeld?] at allowed
      split at allowed
      · next isNewest =>
          cases allowed
          cases guards : cell.guards with
          | nil => simp [held, guards] at isNewest
          | cons entry older =>
              obtain ⟨entryName, guard⟩ := entry
              obtain rfl : entryName = name := by simpa [held, guards] using isNewest
              rw [step, leave_of_newest distinct guards]
              exact ⟨.leave guards, by rw [held, held, guards]; rfl⟩
      · cases allowed
  | attempt value => exact ⟨.attempt value, Option.some.inj allowed⟩

theorem Nests.distinct {action : Action α} (nests : cell.Nests action next)
    (distinct : cell.held.Nodup)
    : next.held.Nodup := by
  cases nests with
  | set value => exact distinct
  | enter value fresh => exact List.nodup_cons.mpr ⟨fresh, distinct⟩
  | leave newest =>
      rw [held, newest] at distinct
      exact (List.nodup_cons.mp distinct).2
  | attempt value => exact distinct

/-- A guard, with those that were taken earlier, is held until it is given up. -/
theorem Nests.keepsGuard {action : Action α} (nests : cell.Nests action next)
    (other : action ≠ .leave name) (isHeld : (name, guard) :: older <:+ cell.guards)
    : (name, guard) :: older <:+ next.guards := by
  cases nests with
  | set value => exact isHeld
  | enter value fresh => exact isHeld.trans (List.suffix_cons _ _)
  | leave newest =>
      rw [newest, List.suffix_cons_iff] at isHeld
      rcases isHeld with same | isHeld
      · cases same
        exact absurd rfl other
      · exact isHeld
  | attempt value => exact isHeld

/-- The value that is left when all guards are given up: that of before the oldest one was taken. -/
def settled (cell : Restorable α) : α :=
  (cell.guards.getLast?.map (·.2.previous)).getD cell.value

/-- Only what is set outside all guards changes the value that is left. -/
theorem Nests.settled_eq {action : Action α} (nests : cell.Nests action next)
    (rest : List (Action α))
    : (setOutside cell.guards.length (action :: rest)).getLast?.getD cell.settled
      = (setOutside next.guards.length rest).getLast?.getD next.settled := by
  -- With no guard before the action, or none after it, the value itself is what is left.
  cases nests with
  | set value =>
      cases guards : cell.guards with
      | nil => simp [setOutside, settled, guards, List.getLast?_cons]
      | cons entry older => simp [setOutside, settled, guards, List.getLast?_cons]
  | enter value fresh =>
      cases guards : cell.guards with
      | nil => simp [setOutside, settled, guards]
      | cons entry older => simp [setOutside, settled, guards, List.getLast?_cons]
  | @leave name guard older newest =>
      cases older with
      | nil => simp [setOutside, settled, newest]
      | cons entry older => simp [setOutside, settled, newest, List.getLast?_cons]
  | attempt value => rw [setOutside]

-----------------------------------------------------------------------------------------
-- Well-nested histories
-----------------------------------------------------------------------------------------

/-- Actions one after the other, each of them in its turn. -/
inductive Runs : Restorable α → List (Action α) → Restorable α → Prop where
  | done {cell : Restorable α} : Runs cell [] cell
  | step {cell next last : Restorable α} {action : Action α} {rest : List (Action α)}
    (first : cell.Nests action next) (runs : Runs next rest last)
    : Runs cell (action :: rest) last

/-- In a history that keeps guards in order, each action comes in its turn, by induction on it. -/
theorem runs_after (cell : Restorable α) {history : List (Action α)} {names : List String}
    (distinct : cell.held.Nodup) (allowed : history.foldlM stillHeld? cell.held = some names)
    : Runs cell history (cell.after history) ∧ (cell.after history).held = names := by
  induction history generalizing cell with
  | nil => exact ⟨.done, Option.some.inj allowed⟩
  | cons action rest ih =>
      rw [List.foldlM_cons] at allowed
      obtain ⟨middle, first, allowed⟩ := Option.bind_eq_some_iff.mp allowed
      obtain ⟨nests, rfl⟩ := nests_step distinct first
      obtain ⟨runs, isHeld⟩ := ih _ (nests.distinct distinct) allowed
      exact ⟨.step nests runs, isHeld⟩

namespace Runs

variable {history : List (Action α)}

theorem distinct (runs : Runs cell history last) (distinct : cell.held.Nodup)
    : last.held.Nodup := by
  induction runs with
  | done => exact distinct
  | step first _ ih => exact ih (first.distinct distinct)

theorem keepsGuard (runs : Runs cell history last) (untouched : .leave name ∉ history)
    (isHeld : (name, guard) :: older <:+ cell.guards)
    : (name, guard) :: older <:+ last.guards := by
  induction runs with
  | done => exact isHeld
  | step first _ ih =>
      rw [List.mem_cons, not_or] at untouched
      exact ih untouched.2 (first.keepsGuard (Ne.symm untouched.1) isHeld)

theorem settled_eq (runs : Runs cell history last)
    : last.settled = (setOutside cell.guards.length history).getLast?.getD cell.settled := by
  induction runs with
  | done => rfl
  | step first _ ih => rw [first.settled_eq, ih]

end Runs

/-- What is left where each guard is given up in its turn. -/
theorem after_balanced (initial : α) {history : List (Action α)} (balanced : Balanced history)
    : after { value := initial } history
      = { value := (setOutside 0 history).getLast?.getD initial } := by
  obtain ⟨runs, names⟩ := runs_after { value := initial } List.nodup_nil balanced
  have none : (after { value := initial } history).guards = [] := List.map_eq_nil_iff.mp names
  have settles := runs.settled_eq
  rw [settled, none] at settles
  exact congrArg₂ Restorable.mk settles none

-----------------------------------------------------------------------------------------
-- Work under a guard
-----------------------------------------------------------------------------------------

theorem leave_eq_breakOff (isNewest : cell.held.head? = some name)
    : cell.leave name = cell.breakOff name := by
  obtain ⟨others, names⟩ := List.head?_eq_some_iff.mp isNewest
  rw [breakOff, names, List.takeWhile_cons_of_neg (by simp)]
  rfl

/-- Where work under a guard breaks off, the value of before and the older guards are left. By
induction on the guards that were taken since.
-/
theorem breakOff_of_held (distinct : cell.held.Nodup)
    (isHeld : (name, guard) :: older <:+ cell.guards)
    : cell.breakOff name = { value := guard.previous, guards := older } := by
  obtain ⟨newer, guards⟩ := isHeld
  have names : cell.held = newer.map (·.1) ++ name :: older.map (·.1) := by
    rw [held, ← guards, List.map_append, List.map_cons]
  have apart : ∀ other ∈ newer.map (·.1), (other != name) = true := by
    intro other member
    rw [names] at distinct
    have outside := List.disjoint_of_nodup_append distinct member
    simpa using (ne_of_mem_of_not_mem List.mem_cons_self outside).symm
  rw [breakOff, names, List.takeWhile_append_of_pos apart, List.takeWhile_cons_of_neg (by simp),
    List.append_nil]
  clear names apart
  induction newer generalizing cell with
  | nil => exact leave_of_newest distinct guards.symm
  | cons entry newer ih =>
      rw [List.map_cons, List.cons_append, List.foldl_cons, leave_of_newest distinct guards.symm]
      refine ih ?_ rfl
      rw [held, ← guards] at distinct
      exact (List.nodup_cons.mp distinct).2

/-- The guard is held until then, with those of before below it and the value of before in it. -/
theorem breakOff_after_enter {value : α} {inside : List (Action α)} {names : List String}
    (distinct : cell.held.Nodup)
    (allowed : (.enter name value :: inside).foldlM stillHeld? cell.held = some names)
    (untouched : .leave name ∉ inside)
    : (cell.after (.enter name value :: inside)).breakOff name = cell := by
  obtain ⟨runs, _⟩ := runs_after _ distinct allowed
  have lastDistinct := runs.distinct distinct
  cases runs with
  | step first runs =>
      cases first with
      | enter _ fresh =>
          exact breakOff_of_held lastDistinct (runs.keepsGuard untouched List.suffix_rfl)

/-- However the work under a guard ends, all is as it was before the guard was taken. -/
theorem after_enter (initial : α) {earlier inside rest : List (Action α)} {value : α}
    (nested : WellNested (earlier ++ (.enter name value :: inside) ++ rest))
    (untouched : .leave name ∉ inside)
    : let before := after { value := initial } earlier
      let opened := before.after (.enter name value :: inside)
      opened.breakOff name = before
      ∧ (rest.head? = some (.leave name) → opened.leave name = before) := by
  intro before opened
  obtain ⟨final, isFinal⟩ := Option.isSome_iff_exists.mp nested
  rw [List.foldlM_append, List.foldlM_append] at isFinal
  obtain ⟨names, allowed, ends⟩ := Option.bind_eq_some_iff.mp isFinal
  obtain ⟨_, early, allowed⟩ := Option.bind_eq_some_iff.mp allowed
  obtain ⟨runs, rfl⟩ := runs_after { value := initial } List.nodup_nil early
  have distinct : before.held.Nodup := runs.distinct List.nodup_nil
  have broken : opened.breakOff name = before := breakOff_after_enter distinct allowed untouched
  refine ⟨broken, fun isNext => ?_⟩
  obtain ⟨later, rfl⟩ := List.head?_eq_some_iff.mp isNext
  -- The guard is given up next, so it is the newest one.
  have isNewest : names.head? = some name := by
    by_contra other
    simp [stillHeld?, other] at ends
  have names : opened.held = names := (runs_after _ distinct allowed).2
  rw [leave_eq_breakOff (names ▸ isNewest), broken]

-----------------------------------------------------------------------------------------
-- Clones
-----------------------------------------------------------------------------------------

variable {ι κ : Type} [DecidableEq κ] {leads : ι → κ} {place : κ}

/-- What is done through a clone is done to the value at the place that the clone leads to. -/
def stepAt (leads : ι → κ) (memory : κ → Restorable α) (event : ι × Action α)
    : κ → Restorable α :=
  Function.update memory (leads event.1) ((memory (leads event.1)).step event.2)

/-- What is left at the places of some values after actions, each of them through some clone. -/
def afterAll (leads : ι → κ) (memory : κ → Restorable α) (events : List (ι × Action α))
    : κ → Restorable α :=
  events.foldl (stepAt leads) memory

/-- What happens to the value at a place, through whichever of its clones. -/
def historyAt (leads : ι → κ) (place : κ) (events : List (ι × Action α)) : List (Action α) :=
  (events.filter (leads ·.1 = place)).map (·.2)

theorem historyAt_append (earlier later : List (ι × Action α))
    : historyAt leads place (earlier ++ later)
      = historyAt leads place earlier ++ historyAt leads place later := by
  rw [historyAt, List.filter_append, List.map_append]
  rfl

theorem historyAt_cons {clone : ι} (here : leads clone = place) (action : Action α)
    (rest : List (ι × Action α))
    : historyAt leads place ((clone, action) :: rest) = action :: historyAt leads place rest := by
  rw [historyAt, List.filter_cons_of_pos (by simpa using here), List.map_cons]
  rfl

/-- The value at a place is as its own history leaves it, by induction on what is done. -/
theorem afterAll_apply (memory : κ → Restorable α) (events : List (ι × Action α))
    : afterAll leads memory events place
      = (memory place).after (historyAt leads place events) := by
  induction events generalizing memory with
  | nil => rfl
  | cons event rest ih =>
      have first : afterAll leads memory (event :: rest) place
          = (stepAt leads memory event place).after (historyAt leads place rest) := ih _
      rw [first, stepAt]
      by_cases here : leads event.1 = place
      · rw [historyAt_cons here, here, Function.update_self]
        rfl
      · rw [Function.update_of_ne (Ne.symm here), historyAt, historyAt,
          List.filter_cons_of_neg (by simpa using here)]

/-- A value is shared by clones, and other values by others. If its guards are given up newest first,
each of them brings back all that was before it was taken, be it given up in the end or because the
work under it breaks off. When all are given up, the value is the last one that was set while there
was no guard, or else the first one.
-/
theorem restores_nested (leads : ι → κ) (initial : κ → α) (events : List (ι × Action α))
    (place : κ) (nested : WellNested (historyAt leads place events))
    : let left (events : List (ι × Action α)) : Restorable α :=
        afterAll leads (fun place => { value := initial place }) events place
      (∀ earlier clone name value inside rest,
        events = earlier ++ ((clone, .enter name value) :: inside) ++ rest
        → leads clone = place
        → .leave name ∉ historyAt leads place inside
        → let opened := earlier ++ ((clone, .enter name value) :: inside)
          (left opened).breakOff name = left earlier
          ∧ ∀ other later,
              rest = (other, .leave name) :: later
              → leads other = place
              → left (opened ++ [(other, .leave name)]) = left earlier)
      ∧ (Balanced (historyAt leads place events) →
          left events
            = {
                value :=
                  (setOutside 0 (historyAt leads place events)).getLast?.getD (initial place)
              }) := by
  intro left
  have isLeft (events : List (ι × Action α))
      : left events = after { value := initial place } (historyAt leads place events) :=
    afterAll_apply _ events
  constructor
  · rintro earlier clone name value inside rest rfl here untouched opened
    rw [historyAt_append, historyAt_append, historyAt_cons here] at nested
    obtain ⟨broken, ended⟩ := after_enter (initial place) nested untouched
    have isOpened : left opened
        = (left earlier).after (.enter name value :: historyAt leads place inside) := by
      rw [isLeft, isLeft, historyAt_append, historyAt_cons here, after_append]
    rw [isOpened, isLeft]
    refine ⟨broken, ?_⟩
    rintro other later rfl there
    have isEnded : left (opened ++ [(other, .leave name)]) = (left opened).leave name := by
      rw [isLeft, isLeft, historyAt_append, historyAt_cons there, after_append]
      rfl
    rw [isEnded, isOpened, isLeft]
    exact ended (by rw [historyAt_cons there, List.head?_cons])
  · intro balanced
    rw [isLeft, after_balanced (initial place) balanced]

/-- Guards that are given up in the order they were taken bring back what was entered meanwhile. -/
example
    : let history : List (Action Nat) :=
        [.enter "outer" 1, .enter "inner" 2, .leave "outer", .leave "inner"]
      ¬WellNested history ∧ (after { value := 0 } history).value = 1 := by
  decide

/-- The first two clones are of one value, the third one is of another. -/
def cloneOf (clone : Fin 3) : Bool :=
  clone != 2

/-- The first value is entered twice through its two clones, while the guards of the other one are
given up out of turn.
-/
theorem twoClones_restored
    : let earlier : List (Fin 3 × Action Nat) :=
        [(0, .set 1), (1, .enter "outer" 2), (2, .enter "outer" 7), (0, .set 3)]
      let inside : List (Fin 3 × Action Nat) :=
        [(2, .enter "inner" 8), (1, .attempt 9), (1, .set 5), (2, .leave "outer")]
      let opened := earlier ++ ((0, .enter "inner" 4) :: inside)
      let events := opened ++ [(1, .leave "inner"), (0, .leave "outer")]
      let left (events : List (Fin 3 × Action Nat)) : Restorable Nat :=
        afterAll cloneOf (fun _ => { value := 0 }) events true
      WellNested (historyAt cloneOf true events)
      ∧ ¬WellNested (historyAt cloneOf false events)
      ∧ (left opened).value = 5
      ∧ (left opened).breakOff "inner" = left earlier
      ∧ left (opened ++ [(1, .leave "inner")]) = left earlier
      ∧ left events = { value := 1 } := by
  intro earlier inside opened events left
  have nested : WellNested (historyAt cloneOf true events) := by decide +kernel
  obtain ⟨scopes, ends⟩ := restores_nested cloneOf (fun _ => 0) events true nested
  obtain ⟨broken, ended⟩ :=
    scopes earlier 0 "inner" 4 inside [(1, .leave "inner"), (0, .leave "outer")] rfl rfl
      (by decide +kernel)
  exact ⟨nested, by decide +kernel, by decide +kernel, broken, ended 1 _ rfl rfl,
    ends (by decide +kernel)⟩

end TreeLint.Restorable
