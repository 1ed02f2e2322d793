import ModuleBundler.Regex.Search
import ModuleBundler.Path.Basic

/-!
# Ignore rules

The paths the crawler skips and the change processor drops. A rule is a regular expression
searched anywhere in a path's text, backslashes read as `/`. A scoped rule is matched against the path
relative to the first of its roots that contains it, or against the whole path when none does.
-/

namespace ModuleBundler

/-- Patterns over whole paths, and patterns over paths relative to some roots. -/
structure IgnoreRules where
  patterns : List Regex
  relative : List (Regex × List Path)

namespace IgnoreRules

/-- No rule at all. -/
def none : IgnoreRules := ⟨[], []⟩

/-- Compile blacklist patterns; the first that does not compile is reported with the reason. -/
def fromPatterns (ps : List String) : Except (String × String) IgnoreRules :=
  (ps.mapM fun p =>
    match Regex.compile p with
    | .ok re => Except.ok re
    | .error e => Except.error (p, e.message)).map fun res => ⟨res, []⟩

/-- Add a rule matched relative to `roots`. -/
def withScoped (r : IgnoreRules) (re : Regex) (roots : List Path) : IgnoreRules :=
  { r with relative := r.relative ++ [(re, roots)] }

/-- A path's text as patterns see it: every backslash a `/`. -/
def slashed (text : String) : String := String.ofList (text.toList.map fun c => if c = '\\' then '/' else c)

/-- Whether a path, written as `text`, is ignored. A scoped rule sees the text after the root as
it is written there. -/
def isIgnoredText (r : IgnoreRules) (text : String) : Bool :=
  if r.patterns.isEmpty && r.relative.isEmpty then false
  else if r.patterns.any (·.isMatch (slashed text)) then true
  else r.relative.any fun (re, roots) =>
    let rel := (roots.findSome? fun root => Path.stripPrefixText? text root).getD text
    re.isMatch (slashed rel)

/-- Whether a path is ignored. -/
def isIgnored (r : IgnoreRules) (path : Path) : Bool := r.isIgnoredText path.toString

end IgnoreRules

end ModuleBundler
