import TreeLint.Proofs.Suite.Cancellation

/-! Suites that are configured again and again. A configuration sets every option of a rule anew.
Runs leave behind only whether the rules are timed, and no result depends on that. Main result:
whatever settings a suite had and whatever it ran over, it is as one that is put together with the
last settings, and gives the same results.
-/

namespace TreeLint

-----------------------------------------------------------------------------------------
-- Inspections
-----------------------------------------------------------------------------------------

namespace Threshold

/-- The limit before is not asked for. -/
theorem configure_set (threshold : Threshold) (limit : Nat) (option : Option Toml.Value)
    : (threshold.set limit).configure option = threshold.configure option := by
  unfold configure
  split <;> rfl

/-- A configuration changes nothing but the limit. -/
theorem configure_eq_set (threshold : Threshold) (option : Option Toml.Value)
    : threshold.configure option = threshold.set (threshold.configure option).limit := by
  unfold configure
  split <;> rfl

theorem configure_configure (threshold : Threshold) (earlier later : Option Toml.Value)
    : (threshold.configure earlier).configure later = threshold.configure later := by
  rw [configure_eq_set threshold earlier, configure_set]

/-- A negative limit brings back the default, not the limit before. -/
example
    : ((ofDefault 1).configure (some (.integer 5))).configure (some (.integer (-3)))
      = ofDefault 1 :=
  rfl

end Threshold

/-- Configuring an inspection leaves nothing of the configurations before, and it does not touch
what settings find the inspection by.
-/
structure Inspection.Forgetful (ι : Type) [Inspection ι] : Prop where
  configure_configure (inspection : ι) (earlier later : Section)
    : configure (configure inspection earlier) later = configure inspection later
  shortName (inspection : ι) (part : Section)
    : (profile (configure inspection part)).shortName = (profile inspection).shortName
  id (inspection : ι) (part : Section)
    : (profile (configure inspection part)).id = (profile inspection).id
  enabledByDefault (inspection : ι) (part : Section)
    : (profile (configure inspection part)).enabledByDefault
      = (profile inspection).enabledByDefault

namespace Rule

/-- A rule takes each of its options from the section, where one that is missing, malformed or of
another type stands for the default.
-/
theorem configure_configure (rule : Rule) (earlier later : Section)
    : (rule.configure earlier).configure later = rule.configure later := by
  cases rule with
  | anonymousClassMethodCount limit =>
      exact congrArg Rule.anonymousClassMethodCount (limit.configure_configure _ _)
  | multipleReturnPointsPerMethod limit =>
      exact congrArg Rule.multipleReturnPointsPerMethod (limit.configure_configure _ _)
  | _ => rfl

/-- A configuration changes nothing of the profile but the limit. -/
theorem profile_configure (rule : Rule) (part : Section)
    : (rule.configure part).profile
      = { rule.profile with metric := (rule.configure part).profile.metric } := by
  cases rule <;> rfl

theorem forgetful : Inspection.Forgetful Rule where
  configure_configure := configure_configure
  shortName rule part := (congrArg Profile.shortName (rule.profile_configure part)).trans rfl
  id rule part := (congrArg Profile.id (rule.profile_configure part)).trans rfl
  enabledByDefault rule part :=
    (congrArg Profile.enabledByDefault (rule.profile_configure part)).trans rfl

end Rule

-----------------------------------------------------------------------------------------
-- Configurations
-----------------------------------------------------------------------------------------

/-- The entry as if it had never run. -/
def SuiteEntry.fresh {ι : Type} (entry : SuiteEntry ι) : SuiteEntry ι :=
  { entry with timed := { inspection := entry.timed.inspection } }

namespace Suite

variable {ι : Type} [Inspection ι]

/-- The suite as if it had never run. -/
def fresh (suite : Suite ι) : Suite ι :=
  { suite with entries := suite.entries.map SuiteEntry.fresh }

/-- A configuration makes an entry one that has not run, whether it had run before or not. -/
theorem reconfigure_fresh (suite : Suite ι) (settings : Settings)
    : suite.fresh.reconfigure settings = suite.reconfigure settings := by
  rw [reconfigure, reconfigure, fresh, List.map_map]
  rfl

theorem fresh_reconfigure (suite : Suite ι) (settings : Settings)
    : (suite.reconfigure settings).fresh = suite.reconfigure settings := by
  rw [fresh, reconfigure, List.map_map]
  rfl

/-- Whether an inspection runs does not depend on how it is configured. -/
theorem decides_configure (forgetful : Inspection.Forgetful ι) (suite : Suite ι)
    (settings : Settings) (inspection : ι) (part : Section)
    : suite.decides settings (Inspection.profile (Inspection.configure inspection part))
      = suite.decides settings (Inspection.profile inspection) := by
  have answers : (Inspection.profile (Inspection.configure inspection part)).answersTo
      = (Inspection.profile inspection).answersTo := by
    funext name
    simp only [Profile.answersTo, forgetful.shortName, forgetful.id]
  simp only [decides, answers, forgetful.shortName, forgetful.id, forgetful.enabledByDefault]

/-- What an entry was configured with before does not matter. -/
theorem reconfigureEntry_reconfigureEntry (forgetful : Inspection.Forgetful ι) (suite : Suite ι)
    (earlier later : Settings) (entry : SuiteEntry ι)
    : suite.reconfigureEntry later (suite.reconfigureEntry earlier entry)
      = suite.reconfigureEntry later entry := by
  simp only [reconfigureEntry, Timed.change, decides_configure forgetful,
    forgetful.configure_configure, forgetful.shortName, forgetful.id]

/-- Two configurations come to the second one. -/
theorem reconfigure_reconfigure (forgetful : Inspection.Forgetful ι) (suite : Suite ι)
    (earlier later : Settings)
    : (suite.reconfigure earlier).reconfigure later = suite.reconfigure later := by
  have each : ∀ entry,
      (suite.reconfigure earlier).reconfigureEntry later (suite.reconfigureEntry earlier entry)
        = suite.reconfigureEntry later entry :=
    suite.reconfigureEntry_reconfigureEntry forgetful earlier later
  simp only [reconfigure, List.map_map] at each ⊢
  exact congrArg (fun entries => { suite with entries })
    (List.map_congr_left fun entry _ => each entry)

-----------------------------------------------------------------------------------------
-- Runs
-----------------------------------------------------------------------------------------

/-- Two runs agree so far and will be told alike whether to stop, whatever their keepers hold. -/
structure Run.Alike (first second : Run) : Prop where
  result : first.result = second.result
  flag : first.session.flag = second.session.flag

namespace Run.Alike

variable {first second : Run}

theorem checkFlag (alike : first.Alike second) : first.checkFlag.Alike second.checkFlag := by
  obtain ⟨result, flag, keeper⟩ := first
  obtain ⟨_, _, other⟩ := second
  obtain ⟨rfl, rfl⟩ := alike
  exact ⟨rfl, rfl⟩

theorem addPass (alike : first.Alike second) (profile : Profile) (scope : Scope)
    (state : PassState) (keeper other : Timekeeper)
    : (first.addPass profile scope state keeper).Alike
        (second.addPass profile scope state other) where
  result := by
    rw [Run.addPass, Run.addPass, alike.result]
  flag := by
    rw [Run.addPass, Run.addPass, alike.flag]

/-- The look at the flag after the last pass. -/
theorem ended (alike : first.Alike second)
    : (if first.result.cancelled then first else first.checkFlag).Alike
        (if second.result.cancelled then second else second.checkFlag) := by
  rw [← alike.result]
  split
  · exact alike
  · exact alike.checkFlag

end Run.Alike

/-- The passes of an entry, by induction on the scopes: whether it is decided that they are timed
makes no difference.
-/
theorem runScopes_fresh (suite : Suite ι) (tree : Tree) (clock other : Nat → Duration)
    {entry : SuiteEntry ι} (scopes : List Scope) {timed copy : Timed ι} {first second : Run}
    (same : timed.inspection = entry.timed.inspection)
    (copied : copy.inspection = entry.timed.inspection) (alike : first.Alike second)
    : (suite.runScopes tree clock entry.severity scopes timed first).2.Alike
        (suite.fresh.runScopes tree other entry.severity scopes copy second).2 := by
  induction scopes generalizing timed copy first second with
  | nil => exact alike
  | cons scope rest ih =>
      have asked := alike.checkFlag
      have options : suite.fresh.optionsFor entry = suite.optionsFor entry := rfl
      rcases runScopes_step suite tree clock first same with
        ⟨stops, step⟩ | ⟨goes, next, keeper, nextSame, step⟩ <;>
      rcases runScopes_step suite.fresh tree other second copied with
        ⟨otherStops, otherStep⟩ | ⟨otherGoes, otherNext, otherKeeper, otherSame, otherStep⟩
      · rw [step, otherStep]
        exact asked
      · exact absurd (stops.symm.trans (asked.result ▸ otherGoes)) (by simp)
      · exact absurd (goes.symm.trans (asked.result ▸ otherStops)) (by simp)
      · rw [step, otherStep, options, asked.flag]
        exact ih nextSame otherSame (asked.addPass _ _ _ _ _)

/-- Running over scopes does not change the inspection. -/
theorem runScopes_inspection (suite : Suite ι) (tree : Tree) (clock : Nat → Duration)
    (entry : SuiteEntry ι) (scopes : List Scope) {timed : Timed ι} (run : Run)
    (same : timed.inspection = entry.timed.inspection)
    : (suite.runScopes tree clock entry.severity scopes timed run).1.inspection
      = entry.timed.inspection := by
  induction scopes generalizing timed run with
  | nil => exact same
  | cons scope rest ih =>
      rcases runScopes_step suite tree clock run same with
        ⟨_, step⟩ | ⟨_, next, keeper, nextSame, step⟩ <;> rw [step]
      · exact same
      · exact ih _ nextSame

/-- The entries, by induction on them: those that have run before do as those that have not. -/
theorem runEntries_fresh (suite : Suite ι) (tree : Tree) (clock other : Nat → Duration)
    (entries : List (SuiteEntry ι)) {first second : Run} (alike : first.Alike second)
    : (suite.runEntries tree clock entries first).2.Alike
        (suite.fresh.runEntries tree other (entries.map SuiteEntry.fresh) second).2 := by
  induction entries generalizing first second with
  | nil => exact alike
  | cons entry rest ih =>
      have enabled : entry.fresh.enabled = entry.enabled := rfl
      rw [List.map_cons, runEntries, runEntries, ← alike.result, enabled]
      split
      · exact ih (suite.runScopes_fresh tree clock other _ rfl rfl alike)
      · exact ih alike

/-- A run leaves the entries as they are, but for what is decided about timing. -/
theorem runEntries_entries (suite : Suite ι) (tree : Tree) (clock : Nat → Duration)
    (entries : List (SuiteEntry ι)) (run : Run)
    : (suite.runEntries tree clock entries run).1.map SuiteEntry.fresh
      = entries.map SuiteEntry.fresh := by
  induction entries generalizing run with
  | nil => rfl
  | cons entry rest ih =>
      rw [runEntries]
      split
      · have same (scopes : List Scope)
            : (suite.runScopes tree clock entry.severity scopes entry.timed run).1.inspection
              = entry.timed.inspection :=
          suite.runScopes_inspection tree clock entry scopes run rfl
        simp only [List.map_cons, ih, SuiteEntry.fresh, same]
      · simp only [List.map_cons, ih]

theorem fresh_analyze (suite : Suite ι) (tree : Tree) (session : Session)
    (clock : Nat → Duration)
    : (suite.analyze tree session clock).2.1.fresh = suite.fresh :=
  congrArg (fun entries => { suite with entries })
    (suite.runEntries_entries tree clock suite.entries { session })

/-- The result of a run does not depend on what the suite ran over before. -/
theorem analyze_fresh (suite : Suite ι) (tree : Tree) (session : Session)
    (clock : Nat → Duration)
    : (suite.fresh.analyze tree session clock).1 = (suite.analyze tree session clock).1 := by
  have start : Run.Alike { session } { session } := ⟨rfl, rfl⟩
  have ran := suite.runEntries_fresh tree clock clock suite.entries start
  exact congrArg (fun result => { result with filesChecked := 1 }) ran.ended.result.symm

-----------------------------------------------------------------------------------------
-- Histories
-----------------------------------------------------------------------------------------

/-- What happens to a suite. -/
inductive Event where
  | configured (settings : Settings)
  | analyzed (tree : Tree) (session : Session) (clock : Nat → Duration)

/-- The suite that a history leaves. -/
def after (suite : Suite ι) : List Event → Suite ι
  | [] => suite
  | .configured settings :: rest => (suite.reconfigure settings).after rest
  | .analyzed tree session clock :: rest => (suite.analyze tree session clock).2.1.after rest

/-- The settings of the last configuration in a history, or else those before it. -/
def lastSettings (first : Settings) : List Event → Settings
  | [] => first
  | .configured settings :: rest => lastSettings settings rest
  | .analyzed _ _ _ :: rest => lastSettings first rest

/-- A suite that was configured and then had a history is as if it had been configured once, by
induction on the history: each event keeps it so.
-/
theorem fresh_after (forgetful : Inspection.Forgetful ι) {base suite : Suite ι}
    {settings : Settings} (made : suite.fresh = base.reconfigure settings)
    (history : List Event)
    : (suite.after history).fresh = base.reconfigure (lastSettings settings history) := by
  induction history generalizing suite settings with
  | nil => exact made
  | cons event rest ih =>
      cases event with
      | configured later =>
          refine ih ?_
          rw [fresh_reconfigure, ← reconfigure_fresh, made,
            base.reconfigure_reconfigure forgetful]
      | analyzed tree session clock => exact ih ((suite.fresh_analyze ..).trans made)

/-- A suite with its inspections as they were prepared, before its first configuration. -/
def prepared (inspections : List ι) (interactive enablesAll : Bool) (only : Option (List String))
    : Suite ι where
  entries := inspections.map fun inspection => { timed := { inspection } }
  interactive
  enablesAll
  only

/-- Whether a suite can be put together does not depend on the settings. -/
theorem build_eq (inspections : List ι) (interactive enablesAll : Bool)
    (only : Option (List String)) (settings : Settings)
    : build inspections { settings, interactive := some interactive, enablesAll, only }
      = match error? (inspections.map Inspection.profile) (only.getD []) with
        | some error => .error error
        | none => .ok ((prepared inspections interactive enablesAll only).reconfigure settings) :=
  rfl

/-- Put together a suite of rules, prepared in any way, with some settings, and then configure it
and run it as often as you like. It is the suite that is put together with the last settings: the
same rules are enabled, and severities, limits and options are the same. It gives the same result on
every tree. All that its past can change is what is decided about timing. Where the one suite cannot
be put together, the other cannot either.
-/
theorem after_eq_build (rules : List Rule) (interactive enablesAll : Bool)
    (only : Option (List String)) (first : Settings) (history : List Event)
    : let made (settings : Settings) :=
        build rules { settings, interactive := some interactive, enablesAll, only }
      (made first).map (fun suite => (suite.after history).fresh)
        = made (lastSettings first history)
      ∧ ∀ (tree : Tree) (session : Session) (clock : Nat → Duration),
        (made first).map (fun suite => ((suite.after history).analyze tree session clock).1)
          = (made (lastSettings first history)).map
              fun suite => (suite.analyze tree session clock).1 := by
  dsimp only
  rw [build_eq, build_eq]
  cases error? (rules.map Inspection.profile) (only.getD []) with
  | some error => simp [Except.map]
  | none =>
      let base := prepared rules interactive enablesAll only
      have same := fresh_after Rule.forgetful (base.fresh_reconfigure first) history
      have results (tree : Tree) (session : Session) (clock : Nat → Duration)
          : (((base.reconfigure first).after history).analyze tree session clock).1
            = ((base.reconfigure (lastSettings first history)).analyze tree session clock).1 := by
        rw [← analyze_fresh, same]
      exact ⟨congrArg Except.ok same,
        fun tree session clock => congrArg Except.ok (results tree session clock)⟩

end Suite

end TreeLint
