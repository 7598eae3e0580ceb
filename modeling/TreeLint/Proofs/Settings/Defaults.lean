import TreeLint.Settings.Encoding

/-! What a document leaves out. Without its table, a setting is at its default; in a table without
the key, it is what the reader of the table takes for it. These are the same except for the patterns
of paths to exclude: a table without them has none. Main result: a setting that is not given is at
its default unless it is these patterns and their table is there.
-/

namespace TreeLint

open Toml

/-- A setting of the analysis or of timing. -/
inductive Setting where
  | interactive
  | exclude
  | respectIgnoreFiles
  | parallelism
  | timing

namespace Setting

def Outcome : Setting → Type
  | .interactive | .respectIgnoreFiles | .timing => Bool
  | .exclude => List String
  | .parallelism => Option Nat

def get (settings : Settings) : (setting : Setting) → setting.Outcome
  | .interactive => settings.analysis.interactive
  | .exclude => settings.analysis.exclude
  | .respectIgnoreFiles => settings.analysis.respectIgnoreFiles
  | .parallelism => settings.analysis.parallelism
  | .timing => settings.timing.enabled

/-- The name of the table that the setting is in. -/
def table : Setting → String
  | .interactive | .exclude | .respectIgnoreFiles | .parallelism => "analyzer"
  | .timing => "telemetry"

/-- The keys of that table, in their order. -/
def keys : Setting → List String
  | .interactive | .exclude | .respectIgnoreFiles | .parallelism =>
      ["interactive", "exclude", "respect_gitignore", "parallelism"]
  | .timing => ["enabled"]

def key : Setting → String
  | .interactive => "interactive"
  | .exclude => "exclude"
  | .respectIgnoreFiles => "respect_gitignore"
  | .parallelism => "parallelism"
  | .timing => "enabled"

/-- What a document gives for a setting. -/
def given? (setting : Setting) (entries : List (String × Value)) : Option Value := do
  let fields ← (← entries.lookup setting.table).fields? setting.keys
  fields.lookup setting.key

/-- What a setting is in a table without its key. -/
def inTable : (setting : Setting) → setting.Outcome
  | .interactive => false
  | .exclude => []
  | .respectIgnoreFiles => true
  | .parallelism => none
  | .timing => false

/-- Of all settings, the patterns alone differ from their default in a table without their key. -/
theorem inTable_eq_get_default_iff (setting : Setting)
    : setting.inTable = setting.get { } ↔ setting ≠ .exclude := by
  cases setting with
  | exclude => exact iff_of_false (fun same => nomatch same) (fun other => other rfl)
  | interactive | respectIgnoreFiles | parallelism | timing => exact iff_of_true rfl nofun

end Setting

-----------------------------------------------------------------------------------------
-- Tables are read key by key
-----------------------------------------------------------------------------------------

variable {value : Value} {entries : List (String × Value)}

theorem AnalysisSettings.ofValue?_eq_some {settings : AnalysisSettings}
    (isRead : ofValue? value = some settings)
    : ∃ fields,
        value.fields? ["interactive", "exclude", "respect_gitignore", "parallelism"] = some fields
        ∧ Value.orDefault? false Value.boolean? (fields.lookup "interactive")
          = some settings.interactive
        ∧ Value.orDefault? [] Value.texts? (fields.lookup "exclude") = some settings.exclude
        ∧ Value.orDefault? true Value.boolean? (fields.lookup "respect_gitignore")
          = some settings.respectIgnoreFiles
        ∧ Value.orDefault? none (Value.natural? · |>.map some) (fields.lookup "parallelism")
          = some settings.parallelism := by
  simp only [ofValue?, Option.bind_eq_bind, Option.bind_eq_some_iff, Option.pure_def,
    Option.some.injEq] at isRead
  obtain ⟨fields, isRecord, _, interactive, _, exclude, _, ignore, _, parallelism, rfl⟩ :=
    isRead
  exact ⟨fields, isRecord, interactive, exclude, ignore, parallelism⟩

theorem TimingSettings.ofValue?_eq_some {settings : TimingSettings}
    (isRead : ofValue? value = some settings)
    : ∃ fields,
        value.fields? ["enabled"] = some fields
        ∧ Value.orDefault? false Value.boolean? (fields.lookup "enabled")
          = some settings.enabled := by
  simp only [ofValue?, Option.bind_eq_bind, Option.bind_eq_some_iff, Option.pure_def,
    Option.some.injEq] at isRead
  obtain ⟨fields, isRecord, _, enabled, rfl⟩ := isRead
  exact ⟨fields, isRecord, enabled⟩

theorem Settings.ofEntries?_eq_some {settings : Settings}
    (isRead : ofEntries? entries = some settings)
    : Value.orDefault? { } AnalysisSettings.ofValue? (entries.lookup "analyzer")
        = some settings.analysis
      ∧ Value.orDefault? { } TimingSettings.ofValue? (entries.lookup "telemetry")
        = some settings.timing := by
  simp only [ofEntries?, Option.bind_eq_bind, Option.bind_eq_some_iff, Option.pure_def,
    Option.some.injEq] at isRead
  obtain ⟨_, analysis, _, timing, _, _, rfl⟩ := isRead
  exact ⟨analysis, timing⟩

namespace Setting

variable {setting : Setting} {settings : Settings}

/-- Without the table of a setting, the setting is at its default. -/
theorem get_of_no_table (isRead : Settings.ofEntries? entries = some settings)
    (absent : entries.lookup setting.table = none)
    : setting.get settings = setting.get { } := by
  obtain ⟨analysis, timing⟩ := Settings.ofEntries?_eq_some isRead
  cases setting with
  | timing =>
      rw [table] at absent
      rw [absent, Value.orDefault?, Option.some.injEq] at timing
      exact congrArg TimingSettings.enabled timing.symm
  | interactive | exclude | respectIgnoreFiles | parallelism =>
      rw [table] at absent
      rw [absent, Value.orDefault?, Option.some.injEq] at analysis
      simp only [get, ← analysis]
      rfl

theorem eq_default_of_missing {read : Value → Option α} {default outcome : α}
    {found : Option Value} (isRead : Value.orDefault? default read found = some outcome)
    (missing : found = none)
    : outcome = default := by
  rw [missing] at isRead
  exact (Option.some.inj isRead).symm

/-- A setting that its table leaves out is what the reader of the table takes for it. -/
theorem get_of_table (isRead : Settings.ofEntries? entries = some settings)
    (notGiven : setting.given? entries = none) (present : entries.lookup setting.table = some value)
    : setting.get settings = setting.inTable := by
  obtain ⟨analysis, timing⟩ := Settings.ofEntries?_eq_some isRead
  have missing {fields : List (String × Value)}
      (isRecord : value.fields? setting.keys = some fields)
      : fields.lookup setting.key = none := by
    simpa [given?, present, isRecord] using notGiven
  have analyzed (present : entries.lookup "analyzer" = some value) :=
    AnalysisSettings.ofValue?_eq_some (present ▸ analysis)
  cases setting with
  | interactive =>
      obtain ⟨_, isRecord, interactive, _⟩ := analyzed present
      exact eq_default_of_missing interactive (missing isRecord)
  | exclude =>
      obtain ⟨_, isRecord, _, exclude, _⟩ := analyzed present
      exact eq_default_of_missing exclude (missing isRecord)
  | respectIgnoreFiles =>
      obtain ⟨_, isRecord, _, _, ignore, _⟩ := analyzed present
      exact eq_default_of_missing ignore (missing isRecord)
  | parallelism =>
      obtain ⟨_, isRecord, _, _, _, parallelism⟩ := analyzed present
      exact eq_default_of_missing parallelism (missing isRecord)
  | timing =>
      have timed (present : entries.lookup "telemetry" = some value) :=
        TimingSettings.ofValue?_eq_some (present ▸ timing)
      obtain ⟨_, isRecord, enabled⟩ := timed present
      exact eq_default_of_missing enabled (missing isRecord)

end Setting

/-- A setting that an accepted document does not give is at its default, unless it is the patterns
of paths and the table of the analysis is there: then there are no patterns.
-/
theorem Settings.read?_of_not_given {text : String} {settings : Settings}
    (isRead : read? text = some settings)
    : ∃ entries,
        Toml.read? text = some entries
        ∧ ∀ setting : Setting,
          setting.given? entries = none
          → setting.get settings
              = (if (entries.lookup setting.table).isSome then setting.inTable
                else setting.get { })
            ∧ (setting.get settings = setting.get { }
              ↔ (setting = .exclude → entries.lookup "analyzer" = none)) := by
  obtain ⟨entries, isDocument, isRead⟩ := Option.bind_eq_some_iff.mp isRead
  refine ⟨entries, isDocument, fun setting notGiven => ?_⟩
  cases present : entries.lookup setting.table with
  | none =>
      have default := Setting.get_of_no_table isRead present
      refine ⟨default, iff_of_true default fun patterns => ?_⟩
      subst patterns
      exact present
  | some value =>
      have read := Setting.get_of_table isRead notGiven present
      refine ⟨read, ?_⟩
      rw [read, Setting.inTable_eq_get_default_iff]
      refine ⟨fun other patterns => absurd patterns other, fun absent patterns => ?_⟩
      subst patterns
      exact Option.some_ne_none value (present.symm.trans (absent rfl))

/-- A document that gives nothing but that fixes for interactive use are offered. -/
def interactiveOnly : String :=
  "[analyzer]\ninteractive = true\n"

theorem interactiveOnly_analysis
    : (Settings.read? interactiveOnly).map (·.analysis)
      = some { interactive := true, exclude := [] } := by
  decide +kernel

/-- The table of the analysis is there, without the patterns and the number of files at once. -/
theorem interactiveOnly_entries
    : ∃ entries,
        Toml.read? interactiveOnly = some entries
        ∧ (entries.lookup Setting.exclude.table).isSome
        ∧ Setting.exclude.given? entries = none
        ∧ Setting.parallelism.given? entries = none := by
  have looked
      : (Toml.read? interactiveOnly).map (fun entries =>
          (entries.lookup Setting.exclude.table).isSome
            && (Setting.exclude.given? entries).isNone
            && (Setting.parallelism.given? entries).isNone)
        = some true := by
    decide +kernel
  obtain ⟨entries, isDocument, found⟩ := Option.map_eq_some_iff.mp looked
  simp only [Bool.and_eq_true, Option.isNone_iff_eq_none, and_assoc] at found
  exact ⟨entries, isDocument, found⟩

/-- Offering the fixes takes the patterns of paths away. -/
theorem interactiveOnly_drops
    : ∃ settings entries,
        Settings.read? interactiveOnly = some settings
        ∧ Toml.read? interactiveOnly = some entries
        ∧ Setting.exclude.given? entries = none
        ∧ Setting.exclude.get settings ≠ Setting.exclude.get { } := by
  obtain ⟨settings, isRead, analysis⟩ := Option.map_eq_some_iff.mp interactiveOnly_analysis
  obtain ⟨entries, isDocument, _, notGiven, _⟩ := interactiveOnly_entries
  refine ⟨settings, entries, isRead, isDocument, notGiven, ?_⟩
  rw [Setting.get, analysis]
  exact nofun

/-- The number of files at once is at its default, and there are no patterns. -/
theorem interactiveOnly_notGiven
    : ∃ settings,
        Settings.read? interactiveOnly = some settings
        ∧ settings.analysis.parallelism = none
        ∧ settings.analysis.exclude = [] := by
  obtain ⟨settings, isRead, _⟩ := Option.map_eq_some_iff.mp interactiveOnly_analysis
  obtain ⟨entries, isDocument, present, patterns, files⟩ := interactiveOnly_entries
  obtain ⟨others, isSame, notGiven⟩ := Settings.read?_of_not_given isRead
  obtain rfl := Option.some.inj (isDocument.symm.trans isSame)
  exact ⟨settings, isRead, (notGiven .parallelism files).2.mpr nofun,
    (notGiven .exclude patterns).1.trans (if_pos present)⟩

end TreeLint
