/-!
# The command line: its grammar

The program is run as `haste [OPTIONS] <COMMAND>`. The commands are `bundle`, `deps`, `watch`
and `help`; the options before the command belong to the program, those after it to the
command, and the shared options (verbosity, output format, working directory, roots,
configuration, cache directory and blacklist) are accepted in both places.

Each option has a long name, perhaps a letter, and a kind: a flag given at most once, a counter,
an option with one value given at most once, one with a value per occurrence, or one that prints
the help or the version. Path values cannot be empty. The cache directory may come from the
environment variable `HASTE_CACHE_DIR`.

Help lists the commands, then the options, each ordered by its rank and then by its letter or
its name, the descriptions aligned two columns after the widest option. A usage line names the
command, `[OPTIONS]` when it has optional options, its required options and `<COMMAND>` when a
command must follow; a usage line fitted to what was given replaces `[OPTIONS]` by the options
that were given.
-/

namespace ModuleBundler

namespace CommandLine

/-- How an option takes its occurrences and values. -/
inductive OptionKind where
  /-- Present or absent, given at most once. -/
  | flag
  /-- Counted each time it is given. -/
  | counter
  /-- One value, given at most once. -/
  | single (valueName : String)
  /-- One value each time it is given, all of them kept. -/
  | repeated (valueName : String)
  /-- Print the help of the command. -/
  | help
  /-- Print the version of the program. -/
  | version
  deriving DecidableEq, Repr, Inhabited

/-- An option of a command. -/
structure OptionSpec where
  long : String
  letter : Option Char
  kind : OptionKind
  about : String
  /-- Help lists options by rank first. -/
  rank : Nat
  required : Bool
  /-- The environment variable that supplies the value when the option is not given. -/
  env : Option String
  /-- Whether the value names a path, which cannot be empty. -/
  isPath : Bool
  /-- Whether the program and every command accept it. -/
  shared : Bool
  deriving Repr, Inhabited

namespace OptionSpec

/-- Whether the option takes a value. -/
def takesValue (o : OptionSpec) : Bool :=
  match o.kind with
  | .single _ | .repeated _ => true
  | _ => false

/-- How the option is written in usage lines and messages: `--entry <FILE>`, `--verbose...`. -/
def display (o : OptionSpec) : String :=
  "--" ++ o.long ++
    match o.kind with
    | .single v | .repeated v => " <" ++ v ++ ">"
    | .counter => "..."
    | _ => ""

/-- The second key of the help order: the lowercased letter followed by `0` for a lowercase
letter and `1` otherwise, or the long name. -/
def sortKey (o : OptionSpec) : String :=
  match o.letter with
  | some c => c.toLower.toString ++ (if c.isLower then "0" else "1")
  | none => o.long

/-- An option with no letter, no environment variable, not required and not shared. -/
def plain (long : String) (kind : OptionKind) (about : String) (rank : Nat) : OptionSpec :=
  ⟨long, none, kind, about, rank, false, none, false, false⟩

end OptionSpec

/-- The options shared by the program and every command. -/
def sharedOptions : List OptionSpec := [
  ⟨"verbose", some 'v', .counter, "Increase logging verbosity (-v for DEBUG, -vv for TRACE)", 0, false,
    none, false, true⟩,
  ⟨"json", none, .flag, "Emit JSON formatted output (stable, machine-readable)", 1, false, none, false, true⟩,
  ⟨"cwd", none, .single "PATH", "Override the working directory", 2, false, none, true, true⟩,
  ⟨"root", none, .repeated "PATH",
    "Project root to crawl and watch (repeatable; defaults to the working directory)", 3, false, none, true, true⟩,
  ⟨"config", none, .single "PATH", "Path to haste.json (defaults to the one in the first root, if any)", 4,
    false, none, true, true⟩,
  ⟨"cache-dir", none, .single "PATH", "Persist the content cache in this directory", 5, false,
    some "HASTE_CACHE_DIR", true, true⟩,
  ⟨"reset-cache", none, .flag, "Ignore any persisted cache", 6, false, none, false, true⟩,
  ⟨"blacklist", none, .repeated "REGEX", "Exclude paths matching this regex (repeatable)", 7, false, none,
    false, true⟩]

/-- The option that prints help; it is listed last. -/
def helpOption : OptionSpec := ⟨"help", some 'h', .help, "Print help", 999, false, none, false, false⟩

/-- The option that prints the version; the program alone has it. -/
def versionOption : OptionSpec := ⟨"version", some 'V', .version, "Print version", 999, false, none, false, false⟩

/-- The entry file of `bundle` and `deps`. -/
def entryOption : OptionSpec :=
  ⟨"entry", none, .single "FILE", "Entry file, relative to a project root", 0, true, none, true, false⟩

/-- The target platform of `bundle` and `deps`. -/
def platformOption : OptionSpec :=
  .plain "platform" (.single "PLATFORM") "Target platform (inferred from the entry name when omitted)" 1

/-- The options of `bundle` alone. -/
def bundleOptions : List OptionSpec := [
  entryOption, platformOption,
  .plain "dev" .flag "Development bundle" 2,
  .plain "minify" .flag "Passed through to the transformer" 3,
  .plain "unbundle" .flag "Use the unbundle module system" 4,
  .plain "run-before-main" (.repeated "ID") "Module ids to require before the main module (repeatable)" 5,
  .plain "no-run-module" .flag "Do not append the main module invocation" 6,
  .plain "inline-source-map" .flag "Append the source map as a data URL" 7,
  .plain "prepack" .flag "Emit a prepacked bundle (JSON) instead of a script" 8,
  { OptionSpec.plain "out" (.single "FILE") "Write the bundle here instead of stdout" 9 with isPath := true },
  { OptionSpec.plain "sourcemap-out" (.single "FILE") "Write the indexed source map here" 10 with isPath := true }]

/-- The options of `deps` alone. -/
def depsOptions : List OptionSpec :=
  [entryOption, platformOption, .plain "dev" .flag "Resolve for a development bundle" 2]

/-- The program and its commands. -/
inductive Command where
  /-- The program itself, before a command is named. -/
  | main
  | bundle
  | deps
  | watch
  /-- The command that prints the help of the program or of a command. -/
  | help
  deriving DecidableEq, Repr, Inhabited

namespace Command

/-- The name a command is invoked by. -/
def name : Command → String
  | .main => "haste"
  | .bundle => "bundle"
  | .deps => "deps"
  | .watch => "watch"
  | .help => "help"

/-- The name usage lines start with. -/
def usageName (c : Command) : String :=
  if c = .main then "haste" else "haste " ++ c.name

/-- What the command does. -/
def about : Command → String
  | .main => "Module resolver and bundler for haste-style JavaScript projects"
  | .bundle => "Build a bundle for an entry file"
  | .deps => "List the ordered dependency paths of an entry file"
  | .watch => "Watch the project roots and keep the graph up to date"
  | .help => "Print this message or the help of the given subcommand(s)"

/-- The options of a command, in the order they are looked up. -/
def options : Command → List OptionSpec
  | .main => sharedOptions ++ [helpOption, versionOption]
  | .bundle => bundleOptions ++ sharedOptions ++ [helpOption]
  | .deps => depsOptions ++ sharedOptions ++ [helpOption]
  | .watch => sharedOptions ++ [helpOption]
  | .help => []

/-- The commands that may follow. -/
def subcommands : Command → List Command
  | .main => [.bundle, .deps, .watch, .help]
  | _ => []

/-- The command that may follow under a name. -/
def subcommandNamed? (c : Command) (n : String) : Option Command :=
  c.subcommands.find? (·.name == n)

/-- The option of a long name. -/
def findLong? (c : Command) (long : String) : Option OptionSpec :=
  c.options.find? (·.long == long)

/-- The option of a letter. -/
def findLetter? (c : Command) (letter : Char) : Option OptionSpec :=
  c.options.find? (·.letter == some letter)

/-- Whether the command can print its own help through `--help`. -/
def hasHelpOption (c : Command) : Bool := c.options.any (·.kind == .help)

/-- The required options. -/
def requiredOptions (c : Command) : List OptionSpec := c.options.filter (·.required)

/-- Whether usage lines mention `[OPTIONS]`: some option other than help and version is optional. -/
def hasOptionalOptions (c : Command) : Bool :=
  c.options.any fun o => !o.required && o.kind != .help && o.kind != .version

/-- The displays of options, each once, in order. -/
def displays (os : List OptionSpec) : List String :=
  (os.map OptionSpec.display).foldl (fun acc d => if acc.contains d then acc else acc ++ [d]) []

/-- The usage line shown in help and after most mistakes. -/
def usage (c : Command) : String :=
  if c = .help then "haste help [COMMAND]..."
  else
    " ".intercalate ([c.usageName] ++ (if c.hasOptionalOptions then ["[OPTIONS]"] else [])
      ++ displays c.requiredOptions ++ (if c.subcommands.isEmpty then [] else ["<COMMAND>"]))

/-- The usage line fitted to the options given: the required ones, then those given. With none
given it is the plain usage line. -/
def usageGiven (c : Command) (given : List OptionSpec) : String :=
  if given.isEmpty || c = .help then c.usage
  else
    " ".intercalate ([c.usageName] ++ displays (c.requiredOptions ++ given)
      ++ (if c.subcommands.isEmpty then [] else ["<COMMAND>"]))

/-- A text padded with blanks to a width. -/
def padRight (s : String) (width : Nat) : String :=
  s ++ String.ofList (List.replicate (width - s.length) ' ')

/-- The help line of an option, its description starting at `column` after the option. -/
def optionLine (env : String → Option String) (column : Nat) (o : OptionSpec) : String :=
  let lead := match o.letter with
    | some c => "  -" ++ c.toString ++ ", "
    | none => "      "
  let envNote := match o.env with
    | some var => " [env: " ++ var ++ "=" ++ (env var).getD "" ++ "]"
    | none => ""
  lead ++ padRight o.display column ++ o.about ++ envNote

/-- The options in help order: by rank, then by letter or name; otherwise as declared. -/
def helpOrder (os : List OptionSpec) : List OptionSpec :=
  os.mergeSort fun a b => a.rank < b.rank || (a.rank == b.rank && decide (a.sortKey ≤ b.sortKey))

/-- The sections of a command's help: commands, arguments and options. -/
def helpSections (c : Command) (env : String → Option String) : List String :=
  let commands :=
    if c.subcommands.isEmpty then []
    else
      let width := (c.subcommands.map (·.name.length)).foldl max 0 + 2
      ["Commands:\n" ++ "\n".intercalate (c.subcommands.map fun s => "  " ++ padRight s.name width ++ s.about)]
  let arguments :=
    if c = .help then ["Arguments:\n  [COMMAND]...  Print help for the subcommand(s)"] else []
  let options :=
    if c.options.isEmpty then []
    else
      let width := (c.options.map (·.display.length)).foldl max 0 + 2
      ["Options:\n" ++ "\n".intercalate ((helpOrder c.options).map (optionLine env width))]
  commands ++ arguments ++ options

/-- The help of a command, as printed. -/
def helpText (c : Command) (env : String → Option String) : String :=
  c.about ++ "\n\nUsage: " ++ c.usage ++ "\n\n" ++ "\n\n".intercalate (c.helpSections env) ++ "\n"

end Command

/-- The version line. -/
def versionText : String := "haste 0.2.0\n"

end CommandLine

end ModuleBundler
