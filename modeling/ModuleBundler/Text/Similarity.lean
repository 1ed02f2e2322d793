import ModuleBundler.Number.Binary

/-!
# Similarity of words

The Jaro similarity of two texts, character by character. A character of the first text
matches the first unclaimed equal character of the second within a window of
`max(|a|, |b|) / 2 - 1` positions either side; `m` characters match. Walking the matched
characters of both texts in order, each pair that differs is half a transposition; `t` is the
number of whole transpositions. The similarity is `(m/|a| + m/|b| + (m - t)/m) / 3`, computed in
doubles in that order; two empty texts are alike and an empty text is unlike any other.

A word counts as similar to another when the similarity exceeds 0.7; that is how a mistyped
name is matched with the names it may stand for.
-/

namespace ModuleBundler

namespace Text

/-- Claim, for each character of `a` in turn, the first unclaimed equal character of `b` within
`window` positions of it. The characters of `a` that found one, and the claimed positions of
`b`. -/
def jaroClaims (a b : Array Char) (window : Nat) : List Char × Array Bool :=
  let step := fun (acc : List Char × Array Bool) (ic : Nat × Char) =>
    let (i, c) := ic
    let (found, claimed) := acc
    let lo := i - window
    let hi := min b.size (i + window + 1)
    match (List.range' lo (hi - lo)).find? fun j => b[j]? == some c && !(claimed.getD j true) with
    | some j => (found ++ [c], claimed.setIfInBounds j true)
    | none => (found, claimed)
  (a.toList.zipIdx.map fun (c, i) => (i, c)).foldl step ([], Array.replicate b.size false)

/-- The number of positions at which two lists differ, up to the shorter one's length. -/
def mismatches : List Char → List Char → Nat
  | x :: xs, y :: ys => (if x = y then 0 else 1) + mismatches xs ys
  | _, _ => 0

/-- The Jaro similarity of two texts. -/
def jaro (a b : String) : Double :=
  let xs := a.toList.toArray
  let ys := b.toList.toArray
  if xs.size = 0 && ys.size = 0 then Double.ofNat 1
  else if xs.size = 0 || ys.size = 0 then Double.ofNat 0
  else
    let window := max xs.size ys.size / 2 - 1
    let (found, claimed) := jaroClaims xs ys window
    let m := found.length
    if m = 0 then Double.ofNat 0
    else
      let claimedChars := (ys.toList.zip claimed.toList).filterMap fun (c, f) => if f then some c else none
      let t := mismatches found claimedChars / 2
      let q (n d : Nat) : Double := Double.div (Double.ofNat n) (Double.ofNat d)
      Double.div (Double.add (Double.add (q m xs.size) (q m ys.size)) (q (m - t) m)) (Double.ofNat 3)

/-- The least similarity, not itself enough, at which a word is taken for another. -/
def similarityThreshold : Double := BinaryFloat.ofDecimal false 7 (-1)

/-- Whether `word` is close enough to `name` to be suggested for it. -/
def isSimilar (word name : String) : Bool := Double.lt similarityThreshold (jaro word name)

/-- The names similar to a word, least similar first; of equally similar names the earlier one
comes first. -/
def similarNames (word : String) (names : List String) : List String :=
  let scored := (names.map fun n => (jaro word n, n)).filter fun (s, _) => Double.lt similarityThreshold s
  (scored.mergeSort fun x y => !Double.lt y.1 x.1).map (·.2)

end Text

end ModuleBundler
