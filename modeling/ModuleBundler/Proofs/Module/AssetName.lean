import ModuleBundler.Module.Naming
import ModuleBundler.Proofs.Path

/-!
# Asset file names read back

An asset's file name is written `name[@<scale>x][.<platform>].<type>`, and reading it gives back
the name, the type, the platform and the density it was written with (`parse_assetFileName`).
Reading cuts from the right: the type after the last dot, the platform as the second-to-last
dot-separated part when it is a configured one, and the density after the last `@`. So the
written parts read back when they cannot be cut elsewhere: the type and the platform hold no dot,
a name with no density does not itself end in `@<number>x`, and a name with no platform does not
end in a dot-separated part that is a configured platform.

Each cut has its lemma: `splitExtension_append` for the type, `platformExtension_of_fileName`
and `platformExtension_of_fileName_unplatformed` for the platform, and `splitScale_scaledName`
for the density, which rests on `splitScale_append` (a density is read where one is written) and
`splitScale_eq_some` (one is read only where one is written).
-/

namespace ModuleBundler

namespace Text

/-- Cutting at a separator that joins two texts cuts each of them. -/
theorem splitOnChar_append_sep (a b : String) (sep : Char) :
    splitOnChar (a ++ String.singleton sep ++ b) sep = splitOnChar a sep ++ splitOnChar b sep := by
  simp [splitOnChar_eq_splitOn, List.splitOn_append_cons_self]

theorem splitOnChar_append_dot {a b : String} (hb : '.' ∉ b.toList) :
    splitOnChar (a ++ "." ++ b) '.' = splitOnChar a '.' ++ [b] := by
  rw [show "." = String.singleton '.' from rfl, splitOnChar_append_sep, splitOnChar_of_not_mem hb]

/-- The pieces of a text, joined by the separator, give the text back. -/
theorem intercalate_splitOnChar (s : String) (sep : Char) :
    (String.singleton sep).intercalate (splitOnChar s sep) = s := by
  rw [← String.toList_inj, String.toList_intercalate, splitOnChar_eq_splitOn]
  simp [List.intercalate_splitOn]

theorem splitOnChar_ne_nil (s : String) (sep : Char) : splitOnChar s sep ≠ [] := by
  simp [splitOnChar_eq_splitOn, List.splitOn_ne_nil]

end Text

/-! ## The type -/

theorem Path.fileName?_push_plain (p : Path) {n : String} (hn : Component.Plain n) :
    (p.push n).fileName? = some n := by
  by_cases hp : p.components = []
  · simp [push, join, ofString_plain hn, isAbsolute, isEmpty, hp, fileName?]
  · rw [Path.push_plain hp hn, Path.fileName?_child]

/-- A name ends in the extension after its last dot, when something stands before that dot. -/
theorem Path.splitExtension_append {stem ext : String} (hstem : stem ≠ "")
    (hext : '.' ∉ ext.toList) : Path.splitExtension (stem ++ "." ++ ext) = (stem, some ext) := by
  have hjoin : ".".intercalate (Text.splitOnChar stem '.') = stem :=
    Text.intercalate_splitOnChar stem '.'
  have hne := Text.splitOnChar_ne_nil stem '.'
  have hpos := List.length_pos_iff.2 hne
  simp only [Path.splitExtension, Text.splitOnChar_append_dot hext, List.dropLast_concat,
    List.getLast?_concat, hjoin]
  simp [hstem]
  omega

/-! ## The platform -/

section Platform

variable {p : Path} {ps : List String}

/-- A file name whose second-to-last part is a configured platform names that platform. -/
theorem platformExtension_of_fileName {stem q ext : String}
    (h : p.fileName? = some (stem ++ "." ++ q ++ "." ++ ext)) (hq : '.' ∉ q.toList)
    (hext : '.' ∉ ext.toList) : platformExtension p ps = ps.find? (· = q) := by
  have hparts : Text.splitOnChar (stem ++ "." ++ q ++ "." ++ ext) '.' =
      Text.splitOnChar stem '.' ++ [q, ext] := by
    rw [Text.splitOnChar_append_dot hext, Text.splitOnChar_append_dot hq]
    simp
  have hne := List.length_pos_iff.2 (Text.splitOnChar_ne_nil stem '.')
  have hlen : ¬ (Text.splitOnChar stem '.' ++ [q, ext]).length < 3 := by simp; omega
  simp only [platformExtension, h, Option.bind_some, hparts, hlen, if_false]
  congr
  simp [List.getD_eq_getElem?_getD, show
    (Text.splitOnChar stem '.').length + 2 - 2 = (Text.splitOnChar stem '.').length by omega]

/-- A file name whose second-to-last part is no configured platform names none. -/
theorem platformExtension_of_fileName_unplatformed {stem ext : String}
    (h : p.fileName? = some (stem ++ "." ++ ext)) (hext : '.' ∉ ext.toList)
    (hlast : ∀ seg ∈ (Text.splitOnChar stem '.').getLast?, seg ∉ ps) :
    platformExtension p ps = none := by
  simp only [platformExtension, h, Option.bind_some, Text.splitOnChar_append_dot hext]
  split
  · rfl
  · next hlen =>
    generalize Text.splitOnChar stem '.' = S at hlast hlen
    have hpos : 1 < (S ++ [ext]).length - 1 := by simp at hlen ⊢; omega
    -- the candidate is the last part before the extension
    have hcand : (S ++ [ext]).getD ((S ++ [ext]).length - 2) "" ∈ S.getLast? := by
      have hi : S.length - 1 < S.length := by simp at hpos; omega
      rw [List.getLast?_eq_getElem?, List.getD_eq_getElem?_getD,
        show (S ++ [ext]).length - 2 = S.length - 1 by simp, List.getElem?_append_left hi,
        List.getElem?_eq_getElem hi]
      simp
    rw [List.find?_eq_none]
    intro x hx heq
    have hx' := of_decide_eq_true heq
    subst hx'
    exact hlast _ hcand hx

end Platform

/-! ## The density -/

theorem String.endsWith_iff_suffix {s suffix : String} :
    s.endsWith suffix = true ↔ suffix.toList <:+ s.toList := by
  rw [String.endsWith_eq_endsWith_toSlice, String.Slice.endsWith_string_iff]
  simp

@[simp] theorem stripSuffix?_append (a b : String) : stripSuffix? (a ++ b) b = some a := by
  have hends : (a ++ b).endsWith b = true :=
    String.endsWith_iff_suffix.2 (by simp [List.suffix_append])
  simp [stripSuffix?, hends, ← String.length_toList]

theorem eq_append_of_stripSuffix? {s suffix r : String} (h : stripSuffix? s suffix = some r) :
    s = r ++ suffix := by
  unfold stripSuffix? at h
  split at h
  · next hends =>
    obtain ⟨t, ht⟩ := List.suffix_iff_exists_append_eq.1 (String.endsWith_iff_suffix.1 hends)
    cases h
    rw [← String.toList_inj, String.toList_append, String.toList_ofList, ← ht]
    simp [← String.length_toList, ← ht]
  · cases h

/-- A density number is made of digits and points. -/
theorem isDigit_or_dot_of_isScaleNumber {w : String} (hw : isScaleNumber w = true) {c : Char}
    (hc : c ∈ w.toList) : c.isDigit = true ∨ c = '.' := by
  simp only [isScaleNumber, Bool.and_eq_true, List.all_eq_true] at hw
  simpa using hw.1.1 c hc

theorem not_at_of_isScaleNumber {w : String} (hw : isScaleNumber w = true) : '@' ∉ w.toList :=
  fun hat => by rcases isDigit_or_dot_of_isScaleNumber hw hat with h | h <;> revert h <;> decide

theorem not_slash_of_isScaleNumber {w : String} (hw : isScaleNumber w = true) :
    '/' ∉ w.toList :=
  fun hat => by rcases isDigit_or_dot_of_isScaleNumber hw hat with h | h <;> revert h <;> decide

/-- A stem written `bare@<n>x`, with `n` a density number, reads as `bare` at density `n`. -/
theorem splitScale_append {bare w : String} (hw : isScaleNumber w = true) :
    splitScale (bare ++ "@" ++ w ++ "x") = some (bare, scaleValue w) := by
  have hcs : (bare ++ "@" ++ w ++ "x").toList = bare.toList ++ '@' :: (w.toList ++ ['x']) := by
    simp
  -- the last `@` is the one before the density: none stands in `w` or in the `x`
  have hidx : (bare.toList ++ '@' :: (w.toList ++ ['x'])).reverse.findIdx? (· = '@') =
      some (w.toList.length + 1) := by
    have hnone : (w.toList ++ ['x']).reverse.findIdx? (· = '@') = none := by
      rw [List.findIdx?_eq_none_iff]
      intro c hc
      simp only [List.reverse_append, List.reverse_cons, List.reverse_nil, List.nil_append,
        List.singleton_append, List.mem_cons, List.mem_reverse] at hc
      rcases hc with rfl | hc
      · decide
      · rw [decide_eq_false_iff_not]
        rintro rfl
        exact not_at_of_isScaleNumber hw hc
    rw [List.reverse_append, List.reverse_cons, List.append_assoc, List.findIdx?_append, hnone]
    simp [List.findIdx?_cons]
  have hat : (bare.toList ++ '@' :: (w.toList ++ ['x'])).length - 1 - (w.toList.length + 1) =
      bare.toList.length := by simp
  have hscale : String.ofList (w.toList ++ ['x']) = w ++ "x" := by
    rw [← String.toList_inj]; simp
  unfold splitScale
  simp only [hcs, hidx, hat]
  simp [hscale, hw]

/-- A stem reads with a density only where it is written `bare@<n>x`. -/
theorem splitScale_eq_some {stem bare : String} {r : Single}
    (h : splitScale stem = some (bare, r)) :
    ∃ w, stem = bare ++ "@" ++ w ++ "x" ∧ isScaleNumber w = true ∧ r = scaleValue w := by
  unfold splitScale at h
  dsimp only at h
  split at h
  · cases h
  · next k hk =>
    obtain ⟨hlt, hatk, -⟩ := List.findIdx?_eq_some_iff_getElem.1 hk
    split at h
    · next number hnum =>
      split at h
      · next hw =>
        cases h
        refine ⟨number, ?_, hw, rfl⟩
        have hdrop := congrArg String.toList (eq_append_of_stripSuffix? hnum)
        -- the `@` found from the end stands at `length - 1 - k`
        have hi : stem.toList.length - 1 - k < stem.toList.length := by simp at hlt; omega
        have hat : stem.toList[stem.toList.length - 1 - k] = '@' := by
          rw [← List.getElem_reverse hlt]
          simpa using hatk
        simp only [String.toList_append, String.toList_ofList] at hdrop
        rw [← String.toList_inj]
        conv_lhs => rw [← List.take_append_drop (stem.toList.length - 1 - k) stem.toList,
          List.drop_eq_getElem_cons hi, hat, hdrop]
        simp
      · cases h
    · cases h

/-! ## Whole names -/

/-- A name followed by its density, when it has one: `name@<scale>x`. -/
def scaledName (name : String) (scale : Option String) : String :=
  name ++ scale.elim "" fun s => "@" ++ s ++ "x"

@[simp] theorem scaledName_none (name : String) : scaledName name none = name := by
  simp [scaledName]

/-- The file name of an asset: `name[@<scale>x][.<platform>].<type>`. -/
def assetFileName (name : String) (scale platform : Option String) (type : String) : String :=
  scaledName name scale ++ platform.elim "" (fun q => "." ++ q) ++ "." ++ type

theorem splitScale_scaledName {name : String} {scale : Option String}
    (hscale : ∀ s ∈ scale, isScaleNumber s = true)
    (hname : scale = none → ∀ a w, name = a ++ "@" ++ w ++ "x" → isScaleNumber w = false) :
    splitScale (scaledName name scale) = scale.map fun s => (name, scaleValue s) := by
  cases scale with
  | none =>
    cases hs : splitScale name with
    | none => simp [hs]
    | some br =>
      obtain ⟨w, hstem, hw, -⟩ := splitScale_eq_some hs
      simp [hname rfl _ _ hstem] at hw
  | some s =>
    simp only [scaledName, Option.elim, Option.map_some]
    rw [← String.append_assoc, ← String.append_assoc, splitScale_append (hscale s rfl)]

/-- An asset's file name is one plain path component: it holds a dot, so it is neither empty nor
`.` or `..`, and none of its parts holds a `/`. -/
theorem assetFileName_plain {name type : String} {scale platform : Option String}
    (hname : name ≠ "") (hname_slash : '/' ∉ name.toList) (htype : type ≠ "")
    (htype_slash : '/' ∉ type.toList) (hscale : ∀ s ∈ scale, isScaleNumber s = true)
    (hplatform : ∀ q ∈ platform, '/' ∉ q.toList) :
    Component.Plain (assetFileName name scale platform type) := by
  have hlen : 3 ≤ (assetFileName name scale platform type).toList.length := by
    have hn := List.length_pos_iff.2 (by simpa using hname : name.toList ≠ [])
    have ht := List.length_pos_iff.2 (by simpa using htype : type.toList ≠ [])
    cases scale <;> cases platform <;> simp [assetFileName, scaledName] <;> omega
  refine ⟨?_, ?_, ?_, ?_⟩
  · rintro h; simp [h] at hlen
  · rintro h; simp [h] at hlen
  · rintro h; simp [h] at hlen
  · cases scale <;> cases platform <;>
      simp_all [assetFileName, scaledName, not_slash_of_isScaleNumber]

theorem find?_eq_self {l : List String} {q : String} (hq : q ∈ l) :
    l.find? (· = q) = some q := by
  cases hfind : l.find? (· = q) with
  | none =>
    rw [List.find?_eq_none] at hfind
    exact absurd (hfind q hq) (by simp)
  | some x =>
    have hx := List.find?_some hfind
    simp only [decide_eq_true_eq] at hx
    rw [hx]

/-- An asset's file name reads back as the name, density, platform and type it is written with,
in any directory. The type and the platform hold no dot; a name with no density does not end in
`@<n>x` with `n` a density number, and a name with no platform does not end in a dot-separated
part that is a configured platform, density included. -/
theorem parse_assetFileName (dir : Path) (platforms : List String) {name type : String}
    {scale platform : Option String} (hname : name ≠ "") (hname_slash : '/' ∉ name.toList)
    (hname_scale : scale = none →
      ∀ a w, name = a ++ "@" ++ w ++ "x" → isScaleNumber w = false)
    (htype : type ≠ "") (htype_dot : '.' ∉ type.toList) (htype_slash : '/' ∉ type.toList)
    (hscale : ∀ s ∈ scale, isScaleNumber s = true)
    (hplatform : ∀ q ∈ platform, q ∈ platforms ∧ '.' ∉ q.toList ∧ '/' ∉ q.toList)
    (hbare : platform = none →
      ∀ seg ∈ (Text.splitOnChar (scaledName name scale) '.').getLast?, seg ∉ platforms) :
    AssetName.parse (dir.push (assetFileName name scale platform type)) platforms =
      ⟨scale.elim (BinaryFloat.ofDecimal false 1 0) scaleValue, name, type, platform⟩ := by
  have hfile := Path.fileName?_push_plain dir (assetFileName_plain hname hname_slash htype
    htype_slash hscale fun q hq => (hplatform q hq).2.2)
  have hstem : scaledName name scale ++ platform.elim "" (fun q => "." ++ q) ≠ "" := by
    simp [scaledName, hname]
  have hext : (dir.push (assetFileName name scale platform type)).extension? = some type := by
    rw [Path.extension?, hfile, Option.bind_some, assetFileName,
      Path.splitExtension_append hstem htype_dot]
  have hplat : platformExtension (dir.push (assetFileName name scale platform type)) platforms =
      platform := by
    cases platform with
    | none =>
      exact platformExtension_of_fileName_unplatformed (by simpa [assetFileName] using hfile)
        htype_dot (hbare rfl)
    | some q =>
      obtain ⟨hq, hqdot, -⟩ := hplatform q rfl
      rw [platformExtension_of_fileName (by simpa [assetFileName, String.append_assoc] using hfile)
        hqdot htype_dot, find?_eq_self hq]
  have htypecut : stripSuffix? (assetFileName name scale platform type) ("." ++ type) =
      some (scaledName name scale ++ platform.elim "" (fun q => "." ++ q)) := by
    rw [assetFileName, String.append_assoc, stripSuffix?_append]
  unfold AssetName.parse
  simp only [hfile, hext, hplat, Option.getD_some, htypecut]
  -- what is left of the name once the platform is cut is the name with its density
  cases platform with
  | none =>
    simp only [Option.elim, String.append_empty, splitScale_scaledName hscale hname_scale]
    cases scale <;> simp
  | some q =>
    simp only [Option.elim, stripSuffix?_append, Option.getD_some,
      splitScale_scaledName hscale hname_scale]
    cases scale <;> simp

/-- `my.icon@1.5x.png` under `/img` reads as `my.icon` at density 1.5 on no platform, with `ios`
configured. -/
theorem parse_dotted_icon_at_one_and_a_half :
    AssetName.parse ((Path.ofString "/img").push (assetFileName "my.icon" (some "1.5") none "png"))
        ["ios"] = ⟨scaleValue "1.5", "my.icon", "png", none⟩ :=
  parse_assetFileName (Path.ofString "/img") ["ios"] (by decide) (by decide) (fun h => nomatch h)
    (by decide) (by decide) (by decide)
    (by simp only [Option.mem_def, Option.some.injEq, forall_eq']; decide +kernel)
    (fun q hq => nomatch hq) (fun _ => by decide +kernel)

/-- The parts are cut elsewhere when the conditions fail: a configured platform `a.b` with a dot
is not read from `n.a.b.png`, and with `b@2x` configured, `a.b@2x.png` reads as the name `a` on
that platform at density 1. -/
theorem assetName_cut_elsewhere :
    (AssetName.parse ((Path.ofString "/x").push (assetFileName "n" none (some "a.b") "png"))
        ["a.b"]).platform = none ∧
      (AssetName.parse ((Path.ofString "/x").push (assetFileName "a.b" (some "2") none "png"))
        ["b@2x"]).name = "a" := by
  decide +kernel

end ModuleBundler
