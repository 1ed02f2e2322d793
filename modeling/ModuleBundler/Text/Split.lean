/-!
# Cutting text at a character, and sorting stably

Paths, extensions, version numbers and source lines are cut at one separator character; file
names, paths and name slots are sorted with ties kept in the order they came in. Both are
written by recursion on the list itself, so that a result on a given input also follows by
evaluation.
-/

namespace ModuleBundler

namespace Text

/-- The pieces of `cs` between occurrences of `sep`, behind the pieces already cut (`done`, the
last one first) and the piece being read (`cur`, backwards). -/
def splitCharsAux (sep : Char) : List Char → List Char → List (List Char) → List (List Char)
  | [], cur, done => (cur.reverse :: done).reverse
  | c :: cs, cur, done =>
    if c = sep then splitCharsAux sep cs [] (cur.reverse :: done)
    else splitCharsAux sep cs (c :: cur) done

/-- The text between occurrences of `sep`: one piece more than there are separators, the empty
ones included. -/
def splitOnChar (s : String) (sep : Char) : List String :=
  (splitCharsAux sep s.toList [] []).map String.ofList

/-- Put `x` in front of the first element it may precede. -/
def insertBy {α : Type} (le : α → α → Bool) (x : α) : List α → List α
  | [] => [x]
  | y :: ys => if le x y then x :: y :: ys else y :: insertBy le x ys

/-- The list sorted by `le`, elements that tie kept in their order. -/
def sortBy {α : Type} (xs : List α) (le : α → α → Bool) : List α :=
  xs.foldr (insertBy le) []

end Text

end ModuleBundler
