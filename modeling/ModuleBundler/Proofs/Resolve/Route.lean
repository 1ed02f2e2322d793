import ModuleBundler.Proofs.Resolve.Stability
import ModuleBundler.Proofs.Module.AssetName
import ModuleBundler.Proofs.Registry.HasteBuild

/-!
# The route a resolution takes

Resolution reads the engine through a few views: whether the mirror has a file or a directory,
the nearest package file above a path, the children of a directory that match a pattern, the
slots of the global name index, and the package read at a `package.json` path. Two states on the
same route (`Engine.SameRoute`) agree on all of them: their mirrors have the same tree, in
whatever order they keep their nodes, and no detached root (`Vfs.SameTree`); their indexes have
the same slots, every package slot naming a `package.json` file (`HasteMap.Typed`); and they read
the same package at every `package.json` path.

What resolution answers is a module the registry keeps at a path, or for a name when the
dependency is suppressed (`Registry.nullOf`). `Engine.Covers σ e e'` says that `e'` finds every
module `e` finds, renamed by `σ`: the identity while a query creates modules, and the map from a
changed module to its replacement across a change event.
-/

namespace ModuleBundler

open EngineM

namespace Vfs

variable {v w u : Vfs}

/-- Two mirrors with the same roots and detached roots, the same directory nodes, and files at the
same paths, in whatever order they keep their nodes. -/
structure SameTree (v w : Vfs) : Prop where
  roots : w.roots = v.roots
  detached : w.detached = v.detached
  dir : ∀ q cs, w.node? q = some (.dir cs) ↔ v.node? q = some (.dir cs)
  file : ∀ q, (∃ d, w.node? q = some (.file d)) ↔ ∃ d, v.node? q = some (.file d)

namespace SameTree

theorem refl (v : Vfs) : SameTree v v := ⟨rfl, rfl, fun _ _ => Iff.rfl, fun _ => Iff.rfl⟩

theorem trans (h₁ : SameTree u v) (h₂ : SameTree v w) : SameTree u w :=
  ⟨h₂.roots.trans h₁.roots, h₂.detached.trans h₁.detached,
    fun q cs => (h₂.dir q cs).trans (h₁.dir q cs), fun q => (h₂.file q).trans (h₁.file q)⟩

variable (h : SameTree v w) (hv : v.detached = [])
include h hv

theorem isDetached (q : Path) : w.isDetached q = false ∧ v.isDetached q = false := by
  simp [Vfs.isDetached, h.detached, hv]

/-- With no detached root, whether the mirror knows a file depends on its tree only, and not on
the disk. -/
theorem fileExists (D D' : Disk) (q : Path) : w.fileExists D' q = v.fileExists D q := by
  have hatt : w.attachedRoot? q.normalize = v.attachedRoot? q.normalize := by
    simp only [attachedRoot?, h.roots]
  obtain ⟨hw, hv'⟩ := h.isDetached hv q.normalize
  unfold Vfs.fileExists
  dsimp only
  rw [hatt, hw, hv']
  split
  · cases hq : v.node? q.normalize with
    | none =>
      cases hw : w.node? q.normalize with
      | none => rfl
      | some x =>
        cases x with
        | dir cs => simp [(h.dir _ cs).1 hw] at hq
        | file d => obtain ⟨d', hd'⟩ := (h.file _).1 ⟨d, hw⟩; simp [hd'] at hq
    | some x =>
      cases x with
      | dir cs => rw [(h.dir _ cs).2 hq]
      | file d =>
        obtain ⟨d', hd'⟩ := (h.file _).2 ⟨d, hq⟩
        rw [hd']
  · rfl

theorem dirExists (D D' : Disk) (q : Path) : w.dirExists D' q = v.dirExists D q := by
  have hatt : w.attachedRoot? q.normalize = v.attachedRoot? q.normalize := by
    simp only [attachedRoot?, h.roots]
  obtain ⟨hw, hv'⟩ := h.isDetached hv q.normalize
  unfold Vfs.dirExists
  dsimp only
  rw [hatt, hw, hv']
  split
  · cases hq : v.node? q.normalize with
    | none =>
      cases hw : w.node? q.normalize with
      | none => rfl
      | some x =>
        cases x with
        | dir cs => simp [(h.dir _ cs).1 hw] at hq
        | file d => rfl
    | some x =>
      cases x with
      | dir cs => rw [(h.dir _ cs).2 hq]
      | file d =>
        obtain ⟨d', hd'⟩ := (h.file _).2 ⟨d, hq⟩
        rw [hd']
  · rfl

theorem closest (D D' : Disk) (q : Path) (n : String) : w.closest D' q n = v.closest D q n := by
  simp only [Vfs.closest]
  generalize q.normalize.components.length + 1 = fuel
  generalize q.normalize.parent? = start
  induction fuel generalizing start with
  | zero => rfl
  | succ k ih =>
    cases start with
    | none => rfl
    | some c =>
      have hatt : w.attachedRoot? c = v.attachedRoot? c := by simp only [attachedRoot?, h.roots]
      obtain ⟨hw, hv'⟩ := h.isDetached hv c
      simp only [Vfs.closest.go, h.fileExists hv D D', hatt, hw, hv']
      split
      · rfl
      · split
        · rfl
        · exact ih _

end SameTree

theorem SameTree.childrenMatching (h : SameTree v w) (dir : Path) (re : Regex) :
    w.childrenMatching dir re = v.childrenMatching dir re := by
  have hatt : w.attachedRoot? dir.normalize = v.attachedRoot? dir.normalize := by
    simp only [attachedRoot?, h.roots]
  unfold Vfs.childrenMatching
  dsimp only
  cases hv : v.node? dir.normalize with
  | none =>
    cases hw : w.node? dir.normalize with
    | none => rw [hatt]
    | some x =>
      cases x with
      | dir cs => simp [(h.dir _ cs).1 hw] at hv
      | file d =>
        obtain ⟨d', hd'⟩ := (h.file _).1 ⟨d, hw⟩
        simp [hd'] at hv
  | some x =>
    cases x with
    | dir cs => rw [(h.dir _ cs).2 hv]
    | file d =>
      obtain ⟨d', hd'⟩ := (h.file _).2 ⟨d, hv⟩
      rw [hd']

theorem SameShape.sameTree (h : SameShape v w) : SameTree v w :=
  ⟨h.roots, h.detached, h.dir, h.file⟩

end Vfs

namespace AssetIndex

/-- With no detached root, the file backing an asset is found through the mirror's tree only. -/
theorem resolve_sameTree (ai : AssetIndex) {v w : Vfs} (h : Vfs.SameTree v w)
    (hv : v.detached = []) (D D' : Disk) (fromDir : Path) (name : String)
    (platform : Option String) :
    ai.resolve w D' fromDir name platform = ai.resolve v D fromDir name platform := by
  have hf : w.fileExists D' = v.fileExists D := funext (h.fileExists hv D D')
  simp only [resolve, variants, hf, h.childrenMatching]

end AssetIndex


/-! ## Package files -/

namespace Text

/-- The last piece of a text whose last separator is followed by `ds` is `ds`. -/
theorem getLast?_splitCharsAux {sep : Char} {ds : List Char} (hds : sep ∉ ds) :
    ∀ (cs cur : List Char) (done : List (List Char)),
      (splitCharsAux sep (cs ++ sep :: ds) cur done).getLast? = some ds
  | [], cur, done => by
    rw [List.nil_append, splitCharsAux, if_pos rfl, splitCharsAux_of_not_mem hds]
    simp
  | c :: cs, cur, done => by
    rw [List.cons_append, splitCharsAux]
    split
    · exact getLast?_splitCharsAux hds cs [] _
    · exact getLast?_splitCharsAux hds cs _ done

end Text

namespace Path

theorem fileName?_normalize {p : Path} {n : String} (h : p.fileName? = some n) :
    p.normalize.fileName? = some n := by
  unfold fileName? at h
  split at h
  · rename_i hs
    cases h
    obtain ⟨cs, hcs⟩ := List.getLast?_eq_some_iff.1 hs
    have hout : p.components.foldl normalize.step [] =
        p.components.dropLast.foldl normalize.step [] ++ [.name n] := by
      rw [hcs, List.dropLast_concat, List.foldl_append]
      rfl
    simp [normalize, hout, fileName?]
  · cases h

/-- A path read from a text ending in a separator and a plain name ends in that name. -/
theorem fileName?_ofString_sep {s n : String} (t : String) (hn : Component.Plain n)
    (h : s.toList = t.toList ++ '/' :: n.toList) : (ofString s).fileName? = some n := by
  obtain ⟨hne, hdot, hdots, hslash⟩ := hn
  have hlast : (Text.splitOnChar s '/').getLast? = some n := by
    simp only [Text.splitOnChar, h, List.getLast?_map, Text.getLast?_splitCharsAux hslash,
      Option.map_some, String.ofList_toList]
  obtain ⟨front, hfront⟩ := List.getLast?_eq_some_iff.1 hlast
  have hpieces : (pieces s).getLast? = some n := by
    simp [pieces, hfront, hne, hdot]
  have hnamed : ((pieces s).map Component.ofPiece).getLast? = some (.name n) := by
    simp [List.getLast?_map, hpieces, Component.ofPiece, hdots]
  obtain ⟨named, hnm⟩ := List.getLast?_eq_some_iff.1 hnamed
  -- whatever the text starts with, the last component is the name
  have hcomp : (ofString s).components.getLast? = some (.name n) := by
    unfold ofString
    dsimp only
    rw [hnm]
    split
    · rw [← List.cons_append, List.getLast?_concat]
    · split
      · rw [← List.cons_append, List.getLast?_concat]
      · exact List.getLast?_concat
  simp [fileName?, hcomp]

/-- A plain name joined to the text of a directory is the last component of the path read
back. -/
theorem fileName?_joinText (dir : String) {n : String} (hn : Component.Plain n) :
    (ofString (joinText dir n)).fileName? = some n := by
  have hstart : n.startsWith "/" = false :=
    @not_startsWith_of_not_mem n "/" hn.2.2.2 (by decide)
  unfold joinText
  rw [hstart, if_neg Bool.false_ne_true]
  split
  · rename_i hshort
    by_cases hempty : dir.isEmpty = true
    · rw [String.isEmpty_iff.1 hempty, String.empty_append, ofString_plain hn]
      rfl
    · have hends : dir.endsWith "/" = true := by simpa [hempty] using hshort
      obtain ⟨t, ht⟩ := List.suffix_iff_exists_append_eq.1 (String.endsWith_iff_suffix.1 hends)
      refine fileName?_ofString_sep (String.ofList t) hn ?_
      simp [← ht]
  · exact fileName?_ofString_sep dir hn (by simp)

/-- The package file of a directory, named by text, is a `package.json` path. -/
theorem fileName?_manifest (dir : String) :
    (ofString (joinText dir "package.json")).normalize.fileName? = some "package.json" :=
  fileName?_normalize (fileName?_joinText dir (by decide))

/-- A plain name pushed onto a path is its last component. -/
theorem fileName?_push (base : Path) {n : String} (hn : Component.Plain n) :
    (base.push n).fileName? = some n := by
  unfold push join
  rw [ofString_plain hn]
  by_cases hb : base.isEmpty = true
  · simp [isAbsolute, hb, fileName?]
  · simp [isAbsolute, hb, fileName?, List.getLast?_append]

/-- What a search upwards for a `package.json` finds is a `package.json` path. -/
theorem fileName?_closest {v : Vfs} {D : Disk} {p q : Path}
    (h : v.closest D p "package.json" = some q) : q.normalize.fileName? = some "package.json" := by
  -- every candidate the search tries is a directory with the name pushed on
  have hgo : ∀ k (o : Option Path), Vfs.closest.go v D "package.json" k o = some q →
      ∃ d : Path, q = d.push "package.json" := by
    intro k
    induction k with
    | zero => intro o ho; simp [Vfs.closest.go] at ho
    | succ k ih =>
      intro o ho
      cases o with
      | none => simp [Vfs.closest.go] at ho
      | some d =>
        simp only [Vfs.closest.go] at ho
        split at ho
        · exact ⟨d, (Option.some.inj ho).symm⟩
        · split at ho
          · cases ho
          · exact ih _ ho
  obtain ⟨d, rfl⟩ := hgo _ _ h
  exact fileName?_normalize (fileName?_push d (by decide))

end Path


/-! ## Package entries and null modules -/

namespace HasteMap

variable {h h' : HasteMap}

/-- Every package entry of the index names a `package.json` file. -/
def Typed (h : HasteMap) : Prop :=
  ∀ n pl q, h.slot n pl = some (.package q) → q.fileName? = some "package.json"

theorem Typed.get? (ht : h.Typed) {n : String} {pl : Option String} {q : Path}
    (hq : h.get? n pl = some (.package q)) : q.fileName? = some "package.json" := by
  cases pl with
  | none =>
    rw [get?_none_eq_slot] at hq
    exact ht _ _ _ hq
  | some p =>
    rw [get?_some_eq_or, Option.or_eq_some_iff] at hq
    rcases hq with hq | ⟨-, hq⟩
    · exact ht _ _ _ hq
    · exact ht _ _ _ hq

/-- What an index answers is a function of its slots. -/
theorem get?_congr (hs : ∀ n pl, h'.slot n pl = h.slot n pl) (n : String) (pl : Option String) :
    h'.get? n pl = h.get? n pl := by
  cases pl with
  | none => rw [get?_none_eq_slot, get?_none_eq_slot, hs]
  | some p => rw [get?_some_eq_or, get?_some_eq_or, hs, hs]

theorem Typed.congr (ht : h.Typed) (hs : ∀ n pl, h'.slot n pl = h.slot n pl) : h'.Typed :=
  fun n pl q hq => ht n pl q (hs n pl ▸ hq)

end HasteMap

namespace Registry

/-- The live null module of a name. -/
def nullOf (r : Registry) (name : String) : Option Nat :=
  (r.nulls.lookup name).bind fun id => (r.live? id).map fun _ => id

end Registry

namespace Engine

variable {e e₀ e₁ e₂ e' : Engine} {σ : Nat → Nat}

/-! ## Covering the modules a state finds -/

/-- Every module `e` finds, the live module of a path or the null module of a name, `e'` finds
there too, renamed by `σ`. -/
structure Covers (σ : Nat → Nat) (e e' : Engine) : Prop where
  atPath : ∀ q i, e.registry.atPath? q = some i → e'.registry.atPath? q = some (σ i)
  nulls : ∀ n i, e.registry.nullOf n = some i → e'.registry.nullOf n = some (σ i)

namespace Covers

theorem refl (e : Engine) : Covers id e e := ⟨fun _ _ h => h, fun _ _ h => h⟩

theorem trans_left (h₁ : Covers id e₀ e₁) (h₂ : Covers σ e₁ e₂) : Covers σ e₀ e₂ :=
  ⟨fun q i h => h₂.atPath q i (h₁.atPath q i h), fun n i h => h₂.nulls n i (h₁.nulls n i h)⟩

theorem trans_right (h₁ : Covers σ e₀ e₁) (h₂ : Covers id e₁ e₂) : Covers σ e₀ e₂ :=
  ⟨fun q i h => h₂.atPath q _ (h₁.atPath q i h), fun n i h => h₂.nulls n _ (h₁.nulls n i h)⟩

/-- A registry with the same modules, paths and null names finds the same modules. -/
theorem of_registry (hs : e'.registry.store = e.registry.store)
    (hb : e'.registry.byPath = e.registry.byPath) (hn : e'.registry.nulls = e.registry.nulls) :
    Covers id e e' := by
  have hlive : ∀ i, e'.registry.live? i = e.registry.live? i := fun i => by
    simp only [Registry.live?, Registry.record?, hs]
  refine ⟨fun q i h => ?_, fun n i h => ?_⟩
  · simpa only [Registry.atPath?, hb, hlive, id] using h
  · simpa only [Registry.nullOf, hn, hlive, id] using h

end Covers

/-! ## States on the same route -/

/-- Two states in which resolution takes the same route: mirrors of one tree, without detached
roots, the same slots in the global name index, and the same package at every `package.json`
path; the first state's index takes only `package.json` files for packages. -/
structure SameRoute (e₁ e₂ : Engine) : Prop where
  tree : Vfs.SameTree e₁.vfs e₂.vfs
  detached : e₂.vfs.detached = []
  haste : ∀ n pl, e₂.haste.slot n pl = e₁.haste.slot n pl
  packages : ∀ q, q.fileName? = some "package.json" → e₂.packageView q = e₁.packageView q
  typed : e₁.haste.Typed

namespace SameRoute

variable (h : SameRoute e₁ e₂)
include h

theorem detached₁ : e₁.vfs.detached = [] := h.tree.detached.symm.trans h.detached

theorem fileExists (q : Path) : e₂.vfs.fileExists e₂.disk q = e₁.vfs.fileExists e₁.disk q :=
  h.tree.fileExists h.detached₁ _ _ q

theorem dirExists (q : Path) : e₂.vfs.dirExists e₂.disk q = e₁.vfs.dirExists e₁.disk q :=
  h.tree.dirExists h.detached₁ _ _ q

theorem closest (q : Path) (n : String) :
    e₂.vfs.closest e₂.disk q n = e₁.vfs.closest e₁.disk q n :=
  h.tree.closest h.detached₁ _ _ q n

theorem get? (n : String) (pl : Option String) : e₂.haste.get? n pl = e₁.haste.get? n pl :=
  HasteMap.get?_congr h.haste n pl

theorem fileView (req : Request) (path : String) : req.fileView e₂ path = req.fileView e₁ path := by
  simp only [Request.fileView, h.fileExists]

theorem assets (ai : AssetIndex) (fromDir : Path) (name : String) (platform : Option String) :
    ai.resolve e₂.vfs e₂.disk fromDir name platform = ai.resolve e₁.vfs e₁.disk fromDir name platform :=
  ai.resolve_sameTree h.tree h.detached₁ _ _ fromDir name platform

/-- The route is kept when each side moves on without changing what resolution sees. -/
theorem congr (h₁ : e₁.SameSight e₁') (h₂ : e₂.SameSight e₂') : SameRoute e₁' e₂' where
  tree := h₁.shape.symm.sameTree.trans (h.tree.trans h₂.shape.sameTree)
  detached := h₂.shape.detached.trans h.detached
  haste n pl := by rw [h₂.haste, h₁.haste, h.haste]
  packages q hq := by rw [h₂.packageView, h₁.packageView, h.packages q hq]
  typed := h₁.haste ▸ h.typed

end SameRoute

end Engine

end ModuleBundler
