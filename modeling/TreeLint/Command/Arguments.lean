import TreeLint.Text.Basic

/-!
The arguments of the command line. Options may stand before and after the operands; those of the
whole program may stand before and after the name of the command, and behind it they win.
-/

namespace TreeLint.Command

/-! ## Options -/

/-- Why arguments do not ask for a command. -/
inductive Halt where
  /-- The arguments are not understood. -/
  | misuse
  | help
  | version
  deriving DecidableEq, Repr, Inhabited

inductive OptionKind where
  | switch
  | text
  | path
  | texts
  /-- Nothing, and neither does anything else count. -/
  | halt (reason : Halt)
  deriving DecidableEq, Repr, Inhabited

structure OptionSpec where
  name : String
  letter : Option Char := none
  kind : OptionKind := .switch
  deriving DecidableEq, Repr, Inhabited

structure Given where
  options : List (String × String) := []
  operands : List String := []
  deriving DecidableEq, Repr, Inhabited

namespace Given

def has (given : Given) (name : String) : Bool :=
  (given.options.lookup name).isSome

def value? (given : Given) (name : String) : Option String :=
  given.options.lookup name

/-- The values of an option that may be repeated. -/
def values (given : Given) (name : String) : List String :=
  (given.options.filter (·.1 == name)).map (·.2)

def add (given : Given) (spec : OptionSpec) (value : String) : Except Halt Given :=
  match spec.kind with
  | .halt reason => .error reason
  | kind =>
      if (given.has spec.name && kind != .texts) || (kind = .path && value.isEmpty) then
        .error .misuse
      else
        .ok { given with options := given.options ++ [(spec.name, value)] }

end Given

def isOption (argument : String) : Bool :=
  argument.startsWith "-" && argument != "-"

def OptionKind.takesValue : OptionKind → Bool
  | .text | .path | .texts => true
  | .switch | .halt _ => false

/-- Takes an option with its value: the attached one, or else the next argument. -/
def takeOption (spec : OptionSpec) (attached : Option String) (rest : List String)
    (given : Given)
    : Except Halt (Given × List String) :=
  match spec.kind.takesValue, attached, rest with
  | true, some value, _ => return (← given.add spec value, rest)
  | true, none, value :: rest =>
      if isOption value then throw .misuse else return (← given.add spec value, rest)
  | true, none, [] => throw .misuse
  | false, some _, _ => throw .misuse
  | false, none, _ => return (← given.add spec "", rest)

/-- The value written behind the letter of an option. -/
def attachedTo? : List Char → Option String
  | [] => none
  | '=' :: value => some (String.ofList value)
  | value => some (String.ofList value)

/-- Takes options given by their letters. Behind a letter that needs a value stands the value. -/
def takeLetters (specs : List OptionSpec)
    : List Char → List String → Given → Except Halt (Given × List String)
  | [], rest, given => .ok (given, rest)
  | letter :: letters, rest, given =>
      match specs.find? (·.letter == some letter) with
      | none => .error .misuse
      | some spec =>
          if spec.kind.takesValue then
            takeOption spec (attachedTo? letters) rest given
          else do
            takeLetters specs letters rest (← given.add spec "")

/-- Takes an option given by its name, with the value behind a sign of equality. -/
def takeNamed (specs : List OptionSpec) (argument : List Char) (rest : List String)
    (given : Given)
    : Except Halt (Given × List String) :=
  let name := String.ofList (argument.takeWhile (· != '='))
  let attached :=
    match argument.dropWhile (· != '=') with
    | [] => none
    | _ :: value => some (String.ofList value)
  match specs.find? (·.name == name) with
  | none => .error .misuse
  | some spec => takeOption spec attached rest given

/-- Takes arguments, with a bound on their number, and gives back those from the first operand on if
this ends the options.
-/
def takeArguments (specs : List OptionSpec) (untilOperand : Bool)
    : Nat → List String → Given → Except Halt (Given × List String)
  | _, [], given => .ok (given, [])
  | 0, rest, given => .ok (given, rest)
  | bound + 1, argument :: rest, given =>
      match argument.toList with
      | ['-', '-'] => .ok ({ given with operands := given.operands ++ rest }, [])
      | '-' :: '-' :: name => do
          let (given, rest) ← takeNamed specs name rest given
          takeArguments specs untilOperand bound rest given
      | '-' :: letter :: letters => do
          let (given, rest) ← takeLetters specs (letter :: letters) rest given
          takeArguments specs untilOperand bound rest given
      | _ =>
          if untilOperand then
            .ok (given, argument :: rest)
          else
            takeArguments specs untilOperand bound rest
              { given with operands := given.operands ++ [argument] }

/-! ## Commands -/

inductive OutputFormat where
  | text
  | pretty
  | json
  | compact
  deriving DecidableEq, Repr, Inhabited

def OutputFormat.ofName? : String → Option OutputFormat
  | "text" => some .text
  | "pretty" => some .pretty
  | "json" => some .json
  | "compact" => some .compact
  | _ => none

structure CheckOptions where
  /-- A tree file, or a directory of them. -/
  path : String := "."
  format : OutputFormat := .text
  rules : Option (List String) := none
  /-- Every rule runs unless the settings turn it off. -/
  all : Bool := false
  interactive : Bool := false
  /-- Patterns of paths that are left out, beside those of the settings. -/
  exclude : List String := []
  deriving DecidableEq, Repr, Inhabited

structure FixOptions where
  file : String
  /-- The names of the only rules whose fixes are applied. -/
  rules : Option (List String) := none
  /-- The file for the fixed tree, in the place of the one that was read. -/
  output : Option String := none
  deriving DecidableEq, Repr, Inhabited

inductive Task where
  | check (options : CheckOptions)
  | fix (options : FixOptions)
  | listRules
  /-- Writes a file of settings to start from. -/
  | init (force : Bool)
  deriving DecidableEq, Repr, Inhabited

/-- A task and where its settings are said to be. -/
structure Invocation where
  task : Task
  settingsPath : Option String := none
  deriving DecidableEq, Repr, Inhabited

def globalOptions : List OptionSpec :=
  [{ name := "verbose", letter := some 'v' },
    { name := "config", letter := some 'c', kind := .path },
    { name := "help", letter := some 'h', kind := .halt .help }]

/-- The options in front of the name of a command. -/
def programOptions : List OptionSpec :=
  globalOptions ++ [{ name := "version", letter := some 'V', kind := .halt .version }]

def checkSpecs : List OptionSpec :=
  globalOptions
    ++ [{ name := "format", letter := some 'f', kind := .text },
      { name := "rules", kind := .text },
      { name := "all" },
      { name := "interactive" },
      { name := "telemetry" },
      { name := "exclude", letter := some 'e', kind := .texts }]

def fixSpecs : List OptionSpec :=
  globalOptions
    ++ [{ name := "rules", kind := .text },
      { name := "output", letter := some 'o', kind := .path }]

def initSpecs : List OptionSpec :=
  globalOptions ++ [{ name := "force" }]

def splitNames (names : String) : List String :=
  ((names.toList.splitOnP (· == ',')).map fun name =>
    String.ofList (Text.dropBlanks name)).filter (!·.isEmpty)

def operand? (given : Given) : Except Halt (Option String) :=
  match given.operands with
  | [] => .ok none
  | [operand] => if operand.isEmpty then .error .misuse else .ok (some operand)
  | _ => .error .misuse

def checkTask (given : Given) : Except Halt Task := do
  if given.has "all" && given.has "rules" then throw .misuse
  match OutputFormat.ofName? ((given.value? "format").getD "text") with
  | none => throw .misuse
  | some format =>
      return .check
        { path := (← operand? given).getD "."
          format
          rules := (given.value? "rules").map splitNames
          all := given.has "all"
          interactive := given.has "interactive"
          exclude := given.values "exclude" }

def fixTask (given : Given) : Except Halt Task := do
  match ← operand? given with
  | none => throw .misuse
  | some file =>
      return .fix
        { file
          rules := (given.value? "rules").map splitNames
          output := given.value? "output" }

def bareTask (task : Task) (given : Given) : Except Halt Task := do
  if given.operands.isEmpty then return task else throw .misuse

def commandNamed? : String → Option (List OptionSpec × (Given → Except Halt Task))
  | "check" => some (checkSpecs, checkTask)
  | "fix" => some (fixSpecs, fixTask)
  | "list-rules" => some (globalOptions, bareTask .listRules)
  | "init" => some (initSpecs, fun given => bareTask (.init (given.has "force")) given)
  | _ => none

def readArguments (arguments : List String) : Except Halt Invocation := do
  let (above, rest) ← takeArguments programOptions true arguments.length arguments { }
  match rest with
  | "help" :: _ => throw .help
  | name :: rest =>
      match commandNamed? name with
      | none => throw .misuse
      | some (specs, task) =>
          let (given, _) ← takeArguments specs false rest.length rest { }
          return { task := ← task given
                   settingsPath := (given.value? "config").or (above.value? "config") }
  | [] => throw .misuse

end TreeLint.Command
