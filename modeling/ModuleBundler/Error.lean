import ModuleBundler.Path.Basic
import ModuleBundler.Text.Printable

/-!
# Errors

Every failure the engine reports, with its display text, its kind (the taxonomy a serving
layer shows), and the payload safe to hand to a client: internal failures only expose a
generic description there.

Paths display as their text; a list of paths displays as a bracketed, comma-separated list of
quoted paths.
-/

namespace ModuleBundler

/-- What an operating-system call reports. -/
inductive IoError where
  | notFound
  | isADirectory
  | notADirectory
  | alreadyExists
  | invalidUtf8
  deriving DecidableEq, Repr, Inhabited

namespace IoError

/-- The display text, with the system's error number. -/
def message : IoError → String
  | .notFound => "No such file or directory (os error 2)"
  | .isADirectory => "Is a directory (os error 21)"
  | .notADirectory => "Not a directory (os error 20)"
  | .alreadyExists => "File exists (os error 17)"
  | .invalidUtf8 => "stream did not contain valid UTF-8"

end IoError

/-- A lookup in the virtual file system that failed. -/
inductive VfsError where
  | notInRoots (path : Path)
  | notFound (path : Path)
  | notAFile (path : Path)
  | notADirectory (path : Path)
  | rootMissing (path : Path)
  | io (path : Path) (cause : IoError)
  deriving Inhabited

namespace VfsError

/-- The display text. -/
def message : VfsError → String
  | .notInRoots p => s!"File {p} not found in any of the roots"
  | .notFound p => s!"Unable to find file with path: {p}"
  | .notAFile p => s!"Expected {p} to be a file"
  | .notADirectory p => s!"Expected {p} to be a directory"
  | .rootMissing p => s!"Root {p} does not exist"
  | .io p e => s!"IO error on {p}: " ++ e.message

/-- The name of the case. -/
def variant : VfsError → String
  | .notInRoots _ => "NotInRoots"
  | .notFound _ => "NotFound"
  | .notAFile _ => "NotAFile"
  | .notADirectory _ => "NotADirectory"
  | .rootMissing _ => "RootMissing"
  | .io _ _ => "Io"

end VfsError

/-- A failure the transformer reports for one file, located when it can be. -/
structure TransformError where
  path : Path
  line : Option Nat
  column : Option Nat
  description : String
  deriving Inhabited

/-- The display text. -/
def TransformError.message (e : TransformError) : String :=
  let at_ := match e.line with
    | some l => ":" ++ toString l
    | none => ""
  "TransformError: " ++ e.path.toString ++ at_ ++ ": " ++ e.description

/-- One character of a text quoted for debugging: the usual backslash escapes and a `\u{hex}`
escape for a character that is not printable or extends a grapheme. A single quote stays as it
is. -/
def debugChar (c : Char) : String :=
  if c = '"' then "\\\"" else if c = '\\' then "\\\\"
  else if c = '\n' then "\\n" else if c = '\r' then "\\r" else if c = '\t' then "\\t"
  else if c.toNat = 0 then "\\0"
  else if Text.isEscaped c then "\\u\x7b" ++ String.ofList (Nat.toDigits 16 c.toNat) ++ "\x7d"
  else c.toString

/-- A text quoted the way a debugging listing quotes a string. -/
def debugQuote (s : String) : String :=
  "\"" ++ String.join (s.toList.map debugChar) ++ "\""

/-- A path quoted the way a debugging listing quotes a path: as its text. -/
def debugPath (p : Path) : String := debugQuote p.toString

/-- Paths listed in brackets, each quoted. -/
def debugPaths (ps : List Path) : String :=
  "[" ++ ", ".intercalate (ps.map debugPath) ++ "]"

/-- Every failure of the engine. -/
inductive Error where
  /-- No resolution stage produced a module for a specifier. -/
  | unableToResolve (origin : Path) (name : String) (platform : Option String)
  /-- An entry file lies in none of the project roots. -/
  | notFound (entry : String) (roots : List Path)
  | transform (e : TransformError)
  /-- Two files claim one global name on one platform. -/
  | namingCollision (name : String) (platform : Option String) (path existing : Path)
  | unrecognizedPlatform (platform : String)
  | aborted
  | vfs (e : VfsError)
  | io (e : IoError)
  | configRead (path : String) (cause : IoError)
  | configParse (path : String) (message : String)
  | pattern (pattern message : String)
  | watch (message : String)
  | internal (message : String)
  deriving Inhabited

namespace Error

/-- ` for platform `p`` when a platform is set. -/
def platformSuffix : Option String → String
  | some p => " for platform `" ++ p ++ "`"
  | none => ""

/-- The display text. -/
def message : Error → String
  | .unableToResolve o n p => "Unable to resolve module `" ++ n ++ "` from `" ++ o.toString ++ "`" ++ platformSuffix p
  | .notFound e roots => s!"Cannot find entry file {e} in any of the roots: " ++ debugPaths roots
  | .transform e => e.message
  | .namingCollision n p path existing =>
    s!"Naming collision detected: {path} collides with {existing} (name `" ++ n ++ "`" ++ platformSuffix p ++ ")"
  | .unrecognizedPlatform p => "Unrecognized platform: " ++ p
  | .aborted => "Bundle build was aborted"
  | .vfs e => e.message
  | .io e => "IO error: " ++ e.message
  | .configRead p e => "Failed to read config at " ++ p ++ ": " ++ e.message
  | .configParse p m => "Failed to parse config at " ++ p ++ ": " ++ m
  | .pattern p m => "Invalid pattern `" ++ p ++ "`: " ++ m
  | .watch m => "Watcher failed: " ++ m
  | .internal m => "Internal error: " ++ m

/-- The kind a serving layer reports. -/
def kind : Error → String
  | .unableToResolve .. => "UnableToResolveError"
  | .notFound .. => "NotFoundError"
  | .transform _ => "TransformError"
  | .namingCollision .. => "NamingCollisionError"
  | .unrecognizedPlatform _ => "UnrecognizedPlatformError"
  | .aborted => "AbortedError"
  | _ => "InternalError"

/-- The name of the case; a file-system failure is qualified by its own case. -/
def variant : Error → String
  | .unableToResolve .. => "UnableToResolve"
  | .notFound .. => "NotFound"
  | .transform _ => "Transform"
  | .namingCollision .. => "NamingCollision"
  | .unrecognizedPlatform _ => "UnrecognizedPlatform"
  | .aborted => "Aborted"
  | .vfs e => "Vfs." ++ e.variant
  | .io _ => "Io"
  | .configRead .. => "ConfigRead"
  | .configParse .. => "ConfigParse"
  | .pattern .. => "Pattern"
  | .watch _ => "Watch"
  | .internal _ => "Internal"

/-- Whether a specifier failed to resolve. -/
def isUnableToResolve : Error → Bool
  | .unableToResolve .. => true
  | _ => false

/-- The failure of the operating system behind an error, when there is one. -/
def ioCause? : Error → Option IoError
  | .io e => some e
  | .configRead _ e => some e
  | .vfs (.io _ e) => some e
  | _ => none

/-- The texts of the failures beneath an error, outermost first: the operating system's failure,
or the reader's complaint about an unreadable configuration. -/
def causes (e : Error) : List String :=
  match e, e.ioCause? with
  | .configParse _ m, _ => [m]
  | _, some failure => [failure.message]
  | _, none => []

end Error

/-- What a client is shown about an error. -/
structure ErrorPayload where
  kind : String
  description : String
  filename : Option String
  lineNumber : Option Nat

/-- The description shown for every internal failure. -/
def genericDescription : String := "An internal error occurred while building the bundle"

/-- The payload of an error: located for the errors a user can fix, generic otherwise. -/
def Error.payload (e : Error) : ErrorPayload :=
  match e with
  | .unableToResolve o _ _ => ⟨e.kind, e.message, some o.toString, none⟩
  | .notFound entry _ => ⟨e.kind, e.message, some entry, none⟩
  | .transform t => ⟨e.kind, t.description, some t.path.toString, t.line⟩
  | .namingCollision _ _ p _ => ⟨e.kind, e.message, some p.toString, none⟩
  | .unrecognizedPlatform _ => ⟨e.kind, e.message, none, none⟩
  | .aborted => ⟨e.kind, e.message, none, none⟩
  | _ => ⟨e.kind, genericDescription, none, none⟩

end ModuleBundler
