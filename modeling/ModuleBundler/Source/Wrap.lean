import ModuleBundler.Text.Split
import ModuleBundler.Regex.Search
import ModuleBundler.Json.Print

/-!
# Wrapping modules

Every module of a bundle is registered with `__d(name, factory)`, its code indented two blanks
inside a factory function taking `global, require, module, exports`; a hot update is
registered with `__accept` in the same shape. Polyfills run once in the global scope instead.

Before wrapping, the static specifiers of a module's `import`, `export ... from` and `require`
are rewritten to the names of the modules they resolved to. The three rewriting patterns work
on ASCII word boundaries and blanks; a specifier with no resolved name is left as it is.
-/

namespace ModuleBundler

namespace Wrap

/-- The parameters of a module's factory function. -/
def moduleArgs : String := "global, require, module, exports"

/-- The patterns of a static `import`, an `export ... from` and a `require` call. Group 3 is the
specifier; groups 1, 2 and 4 are the text around it. -/
def specifierPatterns : List String :=
  [ "(\\bimport\\s+(?:[^'\"]+\\s+from\\s+)??)(['\"])([^'\"]+)(['\"])",
    "(\\bexport\\s+(?:[^'\"]+\\s+from\\s+)??)(['\"])([^'\"]+)(['\"])",
    "(\\brequire\\s*?\\(\\s*?)(['\"])([^'\"]+)(['\"]\\s*?\\))" ]

/-- The compiled specifier patterns. -/
def specifierRegexes : List Regex :=
  specifierPatterns.filterMap fun p =>
    match Regex.compile p with
    | .ok re => some re
    | .error _ => none

/-- Rewrite every specifier found in `resolved` to its module name. -/
def resolveRequires (code : String) (resolved : List (String × String)) : String :=
  if resolved.isEmpty then code
  else
    specifierRegexes.foldl (fun code re =>
      re.replaceAll code fun g =>
        match (g 3).bind (List.lookup · resolved) with
        | some id => (g 1).getD "" ++ (g 2).getD "" ++ id ++ (g 4).getD ""
        | none => (g 0).getD "") code

/-- Every line indented by two blanks. -/
def indent (code : String) : String :=
  "\n".intercalate ((Text.splitOnChar code '\n').map ("  " ++ ·))

/-- Wrap a module in its registration call. -/
def defineModule (name code : String) : String :=
  "__d(" ++ Json.quote name ++ ", function(" ++ moduleArgs ++ ") \x7b\n" ++ indent code ++ "\n\x7d);"

/-- Wrap a hot-update patch for one module. -/
def acceptModule (name code : String) : String :=
  "__accept(" ++ Json.quote name ++ ", function(" ++ moduleArgs ++ ") \x7b\n" ++ indent code ++ "\n\x7d);"

/-- Run a polyfill in the global scope. -/
def wrapPolyfill (code : String) : String :=
  "(function(global) \x7b\n" ++ code ++
    "\n\x7d)(typeof global !== 'undefined' ? global : typeof self !== 'undefined' ? self : this);"

/-- The statement running a registered module. -/
def requireCall (id : String) : String := ";require(" ++ Json.quote id ++ ");"

/-- Lines `defineModule` puts above a module's first line. -/
def headerLines : Nat := 1

end Wrap

end ModuleBundler
