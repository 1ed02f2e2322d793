import ModuleBundler.CommandLine.Grammar
import ModuleBundler.Text.Similarity

/-!
# The command line: reading the arguments

The words are read left to right within a command. A word that names a command that may follow
enters it, the rest of the words being its own, unless an option is waiting for its value; `help`
instead prints the help of the commands named after it. After `--` no word is an option, a
command or an option's value, so every later word is out of place. `--name` and `--name=value`
give an option by name, `-abc` gives options by letter. An option that takes a value and has
none attached takes the next word, whatever it looks like, unless that word is `--` or gives
another option; an option is only checked, against being given twice or without a value, when
the next option is given or the command's words end.

A mistake stops the reading. Its report names the word or option at fault, a hint when a name
is close to a known one, the usage line, and where to find more. After the words, the
environment supplies options that were not given, and then required options and a missing
command are reported. The shared options given on both sides of the command take the command's
value, unless only the program's came from the command line.
-/

namespace ModuleBundler

namespace CommandLine

/-- Where an option's value came from. -/
inductive Source where
  | environment
  | commandLine
  deriving DecidableEq, Repr, Inhabited

/-- An option as given: where from, its values, and how many times. -/
structure Given where
  option : OptionSpec
  source : Source
  values : List String
  count : Nat
  deriving Inhabited

/-- A hint that follows a mistake. -/
inductive Tip where
  /-- An option of a similar name exists here. -/
  | similarOption (display : String)
  /-- The option belongs to a command named later. -/
  | optionOfCommand (command option : String)
  /-- Commands of similar names exist, least similar first. -/
  | similarCommands (names : List String)
  /-- The word names a command, but it follows `--`. -/
  | commandAfterEscape (name : String)
  deriving Repr, Inhabited

/-- The text of a hint. -/
def Tip.text : Tip → String
  | .similarOption d => "a similar argument exists: '" ++ d ++ "'"
  | .optionOfCommand c o => "'" ++ c ++ " " ++ o ++ "' exists"
  | .similarCommands [n] => "a similar subcommand exists: '" ++ n ++ "'"
  | .similarCommands ns => "some similar subcommands exist: " ++ ", ".intercalate (ns.map fun n => "'" ++ n ++ "'")
  | .commandAfterEscape n => "subcommand '" ++ n ++ "' exists; to use it, remove the '--' before it"

/-- A mistake in the arguments. -/
inductive UsageError where
  | unexpectedArgument (word : String) (tip : Option Tip)
  | unknownCommand (name : String) (tip : Option Tip)
  | missingValue (option : String)
  | repeatedOption (option : String)
  | unexpectedValue (value option : String)
  | missingRequired (options : List String)
  | missingCommand (program : String) (commands : List String)
  deriving Repr, Inhabited

namespace UsageError

/-- The first line or lines of the report. -/
def headline : UsageError → String
  | .unexpectedArgument w _ => "unexpected argument '" ++ w ++ "' found"
  | .unknownCommand n _ => "unrecognized subcommand '" ++ n ++ "'"
  | .missingValue o => "a value is required for '" ++ o ++ "' but none was supplied"
  | .repeatedOption o => "the argument '" ++ o ++ "' cannot be used multiple times"
  | .unexpectedValue v o => "unexpected value '" ++ v ++ "' for '" ++ o ++ "' found; no more were expected"
  | .missingRequired os => "the following required arguments were not provided:" ++ String.join (os.map ("\n  " ++ ·))
  | .missingCommand p cs =>
    "'" ++ p ++ "' requires a subcommand but one was not provided\n  [subcommands: " ++ ", ".intercalate cs ++ "]"

/-- The hint of the report. -/
def tip? : UsageError → Option Tip
  | .unexpectedArgument _ t => t
  | .unknownCommand _ t => t
  | _ => none

end UsageError

/-- A mistake as reported: the error, the usage line if one is shown, and whether the command
can point to its `--help`. -/
structure Mistake where
  error : UsageError
  usage : Option String
  helpHint : Bool
  deriving Inhabited

/-- The report of a mistake. -/
def Mistake.text (m : Mistake) : String :=
  let tip := match m.error.tip? with
    | some t => "\n\n  tip: " ++ t.text
    | none => ""
  let usage := match m.usage with
    | some u => "\n\nUsage: " ++ u
    | none => ""
  "error: " ++ m.error.headline ++ tip ++ usage ++
    (if m.helpHint then "\n\nFor more information, try '--help'.\n" else "\n")

/-- Why reading the arguments stopped before a task was known. -/
inductive Stop where
  /-- Help was asked for. -/
  | help (c : Command)
  /-- The version was asked for. -/
  | version
  /-- Nothing at all was given. -/
  | nothingGiven
  | mistake (m : Mistake)
  deriving Inhabited

/-- What the reader knows within one command. -/
structure Level where
  command : Command
  /-- The options given, in the order first given. -/
  given : List Given
  /-- An option still taking its value, with the values it has. -/
  pending : Option (OptionSpec × List String)
  /-- Whether the next word is the pending option's value. -/
  awaitsValue : Bool
  /-- Whether `--` was seen. -/
  escaped : Bool
  deriving Inhabited

namespace Level

/-- A command with nothing given yet. -/
def start (c : Command) : Level := ⟨c, [], none, false, false⟩

/-- The option of a long name as given. -/
def givenOf? (l : Level) (long : String) : Option Given := l.given.find? (·.option.long == long)

/-- The options given. -/
def givenOptions (l : Level) : List OptionSpec := l.given.map (·.option)

/-- A mistake within this command. -/
def mistake (l : Level) (e : UsageError) (usage : Option String) : Stop :=
  .mistake ⟨e, usage, l.command.hasHelpOption⟩

/-- Count an occurrence of an option and keep its values. -/
def record (l : Level) (o : OptionSpec) (source : Source) (values : List String) : Level :=
  if l.given.any (·.option.long == o.long) then
    { l with given := l.given.map fun g =>
        if g.option.long == o.long then { g with values := g.values ++ values, count := g.count + 1 } else g }
  else { l with given := l.given ++ [⟨o, source, values, 1⟩] }

/-- Take an occurrence of an option, nothing being pending: check it and record it. -/
def acceptNow (l : Level) (o : OptionSpec) (source : Source) (values : List String) : Except Stop Level :=
  let present := (l.givenOf? o.long).isSome
  let repeated := l.mistake (.repeatedOption o.display) (some l.command.usage)
  let missing := l.mistake (.missingValue o.display) none
  match o.kind with
  | .help => .error (.help l.command)
  | .version => .error .version
  | .flag => if present then .error repeated else .ok (l.record o source values)
  | .counter => .ok (l.record o source values)
  | .single _ =>
    if source = .commandLine && values.isEmpty then .error missing
    else if present then .error repeated
    else if o.isPath && values.any (·.isEmpty) then .error missing
    else .ok (l.record o source values)
  | .repeated _ =>
    if source = .commandLine && values.isEmpty then .error missing
    else if o.isPath && values.any (·.isEmpty) then .error missing
    else .ok (l.record o source values)

/-- Take the pending option with the values it has. -/
def settle (l : Level) : Except Stop Level :=
  match l.pending with
  | none => .ok l
  | some (o, values) => { l with pending := none }.acceptNow o .commandLine values

/-- Take the pending option if it is sound, and drop it otherwise. -/
def settleQuietly (l : Level) : Level :=
  match l.settle with
  | .ok l' => l'
  | .error _ => { l with pending := none }

/-- Take an occurrence of an option after the pending one. -/
def accept (l : Level) (o : OptionSpec) (source : Source) (values : List String) : Except Stop Level := do
  let l ← l.settle
  l.acceptNow o source values

/-- An option name that is not known here: suggest a similar one, or the command after it in
`rest` that knows a similar one. -/
def unknownLong (l : Level) (name : String) (rest : List String) : Stop :=
  let word := "--" ++ name
  match (Text.similarNames name (l.command.options.map (·.long))).getLast? with
  | some best =>
    let used := match l.command.findLong? best with
      | some o => if (l.givenOf? best).isSome then l.givenOptions else l.givenOptions ++ [o]
      | none => l.givenOptions
    l.mistake (.unexpectedArgument word (some (.similarOption ("--" ++ best))))
      (some (l.command.usageGiven used))
  | none =>
    let candidates := l.command.subcommands.filterMap fun sub =>
      match (Text.similarNames name (sub.options.map (·.long))).getLast?, rest.idxOf? sub.name with
      | some best, some pos => some (pos, Tip.optionOfCommand sub.name ("--" ++ best))
      | _, _ => none
    let nearest := candidates.foldl (fun (acc : Option (Nat × Tip)) c =>
      match acc with
      | some a => if c.1 < a.1 then some c else some a
      | none => some c) none
    l.mistake (.unexpectedArgument word (nearest.map (·.2))) (some (l.command.usageGiven l.givenOptions))

/-- A word that is neither an option nor a value. -/
def strayWord (l : Level) (w : String) : Stop :=
  let c := l.command
  if l.escaped && (c.subcommandNamed? w).isSome then
    l.mistake (.unexpectedArgument w (some (.commandAfterEscape w))) (some c.usage)
  else if c.subcommands.isEmpty then l.mistake (.unexpectedArgument w none) (some c.usage)
  else
    match Text.similarNames w (c.subcommands.map (·.name)) with
    | [] => l.mistake (.unknownCommand w none) (some c.usage)
    | names => l.mistake (.unknownCommand w (some (.similarCommands names))) (some c.usage)

/-- A word `--name` or `--name=value`; `rest` are the words after it. -/
def longWord (l : Level) (w : String) (rest : List String) : Except Stop Level :=
  let body := w.toList.drop 2
  let name := String.ofList (body.takeWhile (· != '='))
  let value := if body.contains '=' then some (String.ofList ((body.dropWhile (· != '=')).drop 1)) else none
  match l.command.findLong? name with
  | some o =>
    if o.takesValue then
      match value with
      | some v => do
        let l ← l.accept o .commandLine [v]
        return { l with awaitsValue := false }
      | none => do
        let l ← l.settle
        return { l with pending := some (o, []), awaitsValue := true }
    else
      match value with
      | some v =>
        let used := (l.givenOptions.filter (!·.required)) ++ [o]
        .error (l.mistake (.unexpectedValue v o.display) (some (l.command.usageGiven used)))
      | none => do
        let l ← l.accept o .commandLine []
        return { l with awaitsValue := false }
  | none => .error (l.settleQuietly.unknownLong name rest)

/-- A word `-abc`: options by letter, each taken in turn. -/
def letterWord (l : Level) (w : String) : Except Stop Level := do
  let l ← (w.toList.drop 1).foldlM (fun (l : Level) c =>
    match l.command.findLetter? c with
    | some o => l.accept o .commandLine []
    | none =>
      let l := l.settleQuietly
      .error (l.mistake (.unexpectedArgument ("-" ++ c.toString) none) (some l.command.usage))) l
  return { l with awaitsValue := false }

/-- A value for the pending option. -/
def pushValue (l : Level) (w : String) : Level :=
  match l.pending with
  | some (o, values) => { l with pending := some (o, values ++ [w]), awaitsValue := false }
  | none => { l with awaitsValue := false }

/-- The options the environment supplies, for those not given. -/
def addEnvironment (env : String → Option String) (l : Level) : Except Stop Level :=
  l.command.options.foldlM (fun (l : Level) o =>
    match o.env with
    | some var =>
      match env var with
      | some v => if (l.givenOf? o.long).isSome then .ok l else l.accept o .environment [v]
      | none => .ok l
    | none => .ok l) l

/-- The required options not given, as a mistake. -/
def checkRequired (l : Level) : Except Stop Level :=
  let missing := l.command.requiredOptions.filter fun o => (l.givenOf? o.long).isNone
  if missing.isEmpty then .ok l
  else .error (l.mistake (.missingRequired (missing.map OptionSpec.display))
    (some (l.command.usageGiven (l.givenOptions ++ missing))))

end Level

/-- Where reading one command's words ended: at their end, or at a command to enter with the
words after its name. -/
inductive Reached where
  | finished (l : Level)
  | entered (l : Level) (sub : Command) (rest : List String)

/-- The command whose help `help` prints: the one the names lead to from `c`. -/
def helpTarget (c : Command) : List String → Except Stop Command
  | [] => .ok c
  | n :: rest =>
    match c.subcommandNamed? n with
    | some s => helpTarget s rest
    | none => .error (.mistake ⟨.unknownCommand n none, some c.usage, c.hasHelpOption⟩)

/-- Read the words of a command. -/
def readWords : Level → List String → Except Stop Reached
  | l, [] => .ok (.finished l)
  | l, w :: rest =>
    match (if l.escaped || l.awaitsValue then none else l.command.subcommandNamed? w) with
    | some .help => do .error (.help (← helpTarget l.command rest))
    | some sub => .ok (.entered l sub rest)
    | none =>
      if !l.escaped && w = "--" then readWords { l with escaped := true } rest
      else if !l.escaped && w.startsWith "--" then do readWords (← l.longWord w rest) rest
      else if !l.escaped && w.startsWith "-" && w != "-" then do readWords (← l.letterWord w) rest
      else if l.awaitsValue && !l.escaped then readWords (l.pushValue w) rest
      else .error (l.settleQuietly.strayWord w)

/-- What `bundle` is asked for. -/
structure BundleRequest where
  entry : String
  platform : Option String
  dev : Bool
  minify : Bool
  unbundle : Bool
  runBeforeMain : List String
  runModule : Bool
  inlineSourceMap : Bool
  prepack : Bool
  out : Option String
  sourceMapOut : Option String
  deriving Repr, Inhabited

/-- What a run does. -/
inductive Task where
  /-- Build a bundle, or a prepacked bundle. -/
  | bundle (r : BundleRequest)
  /-- List the files an entry depends on. -/
  | deps (entry : String) (platform : Option String) (dev : Bool)
  /-- Keep the graph live until interrupted. -/
  | watch
  deriving Repr, Inhabited

/-- A run as the arguments ask for it. -/
structure Invocation where
  json : Bool
  cwd : Option String
  roots : List String
  config : Option String
  cacheDir : Option String
  resetCache : Bool
  blacklist : List String
  task : Task
  deriving Repr, Inhabited

/-- A shared option as given on either side of the command: the command's, unless only the
program's came from the command line. -/
def pickShared (program command : Level) (long : String) : Option Given :=
  match program.givenOf? long, command.givenOf? long with
  | some p, some c => if p.source = .commandLine && c.source = .environment then some p else some c
  | some p, none => some p
  | none, c => c

/-- The task of a command from the options given to it. -/
def taskOf (c : Command) (l : Level) : Task :=
  let value (long : String) : Option String := (l.givenOf? long).bind (·.values.head?)
  let flag (long : String) : Bool := (l.givenOf? long).isSome
  let values (long : String) : List String := ((l.givenOf? long).map (·.values)).getD []
  match c with
  | .bundle => .bundle {
      entry := (value "entry").getD ""
      platform := value "platform"
      dev := flag "dev"
      minify := flag "minify"
      unbundle := flag "unbundle"
      runBeforeMain := values "run-before-main"
      runModule := !flag "no-run-module"
      inlineSourceMap := flag "inline-source-map"
      prepack := flag "prepack"
      out := value "out"
      sourceMapOut := value "sourcemap-out" }
  | .deps => .deps ((value "entry").getD "") (value "platform") (flag "dev")
  | _ => .watch

/-- Read the arguments of a run, with the environment it sees. -/
def parseArguments (env : String → Option String) (args : List String) : Except Stop Invocation := do
  match ← readWords (Level.start .main) args with
  | .finished l =>
    let l ← l.settle
    let l ← l.addEnvironment env
    if l.given.isEmpty then .error .nothingGiven
    else .error (l.mistake (.missingCommand "haste" (Command.main.subcommands.map (·.name)))
      (some Command.main.usage))
  | .entered l sub rest =>
    let inner ← match ← readWords (Level.start sub) rest with
      | .finished s => pure s
      | .entered s _ _ => pure s
    let inner ← inner.settle
    let inner ← inner.addEnvironment env
    let inner ← inner.checkRequired
    let l ← l.settle
    let l ← l.addEnvironment env
    let value (long : String) : Option String := (pickShared l inner long).bind (·.values.head?)
    let values (long : String) : List String := ((pickShared l inner long).map (·.values)).getD []
    return {
      json := (pickShared l inner "json").isSome
      cwd := value "cwd"
      roots := values "root"
      config := value "config"
      cacheDir := value "cache-dir"
      resetCache := (pickShared l inner "reset-cache").isSome
      blacklist := values "blacklist"
      task := taskOf sub inner }

/-- What a stop prints and the status it ends with: standard output, standard error, status. -/
def Stop.render (env : String → Option String) : Stop → String × String × Nat
  | .help c => (c.helpText env, "", 0)
  | .version => (versionText, "", 0)
  | .nothingGiven => ("", Command.main.helpText env, 2)
  | .mistake m => ("", m.text, 2)

end CommandLine

end ModuleBundler
