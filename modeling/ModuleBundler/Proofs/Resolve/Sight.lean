import ModuleBundler.Proofs.Resolve.MainChain

/-!
# What resolution reads

Resolving a name reads the engine through a few views only: the disk, the global name index, the
shape of the mirror, what reading a file gives and the package seen at a path. Modules are found
or created along the way, but which module a stage finds never decides whether the resolution
succeeds. `Engine.SameSight` relates two states with the same views.

`Twin x y R` says that `x` and `y`, run from two states with the same views, fail with the same
error or answer values related by `R`, and leave two states with the same views again. Twins
compose as the operations do (`Twin.bind`, `Twin.ite`, `Twin.findSomeM?`), in the manner of a
binary logical relation, so each stage of resolution is a twin of itself, up to a whole
resolution without the memo (`twin_resolveUncached`): whether it succeeds, and the error it fails
with, depend on the views alone.
-/

namespace ModuleBundler

open EngineM

namespace Vfs

variable {v w : Vfs}

theorem SameShape.symm (h : SameShape v w) : SameShape w v :=
  ⟨h.roots.symm, h.detached.symm, h.ignore.symm, h.extensions.symm, h.keys.symm,
    fun q cs => (h.dir q cs).symm, fun q => (h.file q).symm⟩

/-- Listing the children of a directory depends on the mirror's shape only. -/
theorem SameShape.childrenMatching (h : SameShape v w) (dir : Path) (re : Regex) :
    w.childrenMatching dir re = v.childrenMatching dir re := by
  have hatt : w.attachedRoot? dir.normalize = v.attachedRoot? dir.normalize := by
    simp only [attachedRoot?, h.roots]
  unfold Vfs.childrenMatching
  dsimp only
  cases hv : v.node? dir.normalize with
  | none =>
    cases hw : w.node? dir.normalize with
    | none => rw [hatt]
    | some x =>
      cases x with
      | dir cs => simp [(h.dir _ cs).1 hw] at hv
      | file d =>
        obtain ⟨d', hd'⟩ := (h.file _).1 ⟨d, hw⟩
        simp [hd'] at hv
  | some x =>
    cases x with
    | dir cs => rw [(h.dir _ cs).2 hv]
    | file d =>
      obtain ⟨d', hd'⟩ := (h.file _).2 ⟨d, hv⟩
      rw [hd']

end Vfs

namespace AssetIndex

variable {v w : Vfs}

/-- The variants of an asset are found through the mirror's shape only. -/
theorem variants_congr (ai : AssetIndex) (h : Vfs.SameShape v w) (disk : Disk) (path : Path)
    (platform : Option String) :
    ai.variants w disk path platform = ai.variants v disk path platform := by
  have hf : w.fileExists disk = v.fileExists disk := funext fun q => h.fileExists q
  simp only [variants, h.childrenMatching, hf]

/-- So is the file backing an asset. -/
theorem resolve_congr (ai : AssetIndex) (h : Vfs.SameShape v w) (disk : Disk) (fromDir : Path)
    (name : String) (platform : Option String) :
    ai.resolve w disk fromDir name platform = ai.resolve v disk fromDir name platform := by
  simp only [resolve, h.fileExists, ai.variants_congr h]

end AssetIndex

namespace Engine

variable {e e' e'' : Engine}

/-- Two states in which resolution sees the same: one disk and one global name index, mirrors of
one shape, and the same file contents and packages. The index's error flag, which resolution does
not read, is the same too: what decides the next change's update of the index is kept. -/
structure SameSight (e e' : Engine) : Prop where
  disk : e'.disk = e.disk
  haste : e'.haste = e.haste
  shape : Vfs.SameShape e.vfs e'.vfs
  readView : ∀ q, e'.readView q = e.readView q
  packageView : ∀ q, e'.packageView q = e.packageView q
  hasteError : e'.hasteError = e.hasteError

namespace SameSight

theorem refl (e : Engine) : SameSight e e := ⟨rfl, rfl, .refl _, fun _ => rfl, fun _ => rfl, rfl⟩

theorem symm (h : SameSight e e') : SameSight e' e :=
  ⟨h.disk.symm, h.haste.symm, h.shape.symm, fun q => (h.readView q).symm,
    fun q => (h.packageView q).symm, h.hasteError.symm⟩

theorem trans (h₁ : SameSight e e') (h₂ : SameSight e' e'') : SameSight e e'' :=
  ⟨h₂.disk.trans h₁.disk, h₂.haste.trans h₁.haste, h₁.shape.trans h₂.shape,
    fun q => (h₂.readView q).trans (h₁.readView q),
    fun q => (h₂.packageView q).trans (h₁.packageView q), h₂.hasteError.trans h₁.hasteError⟩

variable (h : SameSight e e')
include h

theorem fileExists (q : Path) : e'.vfs.fileExists e'.disk q = e.vfs.fileExists e.disk q := by
  rw [h.disk, h.shape.fileExists]

theorem dirExists (q : Path) : e'.vfs.dirExists e'.disk q = e.vfs.dirExists e.disk q := by
  rw [h.disk, h.shape.dirExists]

theorem closest (q : Path) (n : String) :
    e'.vfs.closest e'.disk q n = e.vfs.closest e.disk q n := by
  rw [h.disk, h.shape.closest]

theorem fileView (req : Request) (path : String) : req.fileView e' path = req.fileView e path := by
  simp only [Request.fileView, h.fileExists]

end SameSight

theorem Keeps.sameSight (h : Keeps e e') : SameSight e e' :=
  ⟨h.disk, h.haste, h.shape, h.readView, h.packageView, h.hasteError⟩

/-- A registry with the same packages changes nothing resolution sees. -/
theorem sameSight_registry (r : Registry) (h : r.packages = e.registry.packages) :
    SameSight e { e with registry := r } :=
  ⟨rfl, rfl, .refl _, fun _ => rfl, fun q => by simp only [packageView, h]; rfl, rfl⟩

end Engine

/-! ## Twins -/

/-- Two outcomes agree: the same error, or answers related by `R`. -/
def Agree {α β : Type} (R : α → β → Prop) : Except Error α → Except Error β → Prop
  | .ok a, .ok b => R a b
  | .error x, .error y => x = y
  | _, _ => False

theorem agree_refl {α : Type} {R : α → α → Prop} (hR : ∀ a, R a a) :
    ∀ r : Except Error α, Agree R r r
  | .ok a => hR a
  | .error _ => rfl

theorem Agree.eq {α : Type} : ∀ {r₁ r₂ : Except Error α}, Agree Eq r₁ r₂ → r₁ = r₂
  | .ok _, .ok _, h => congrArg Except.ok h
  | .error _, .error _, h => congrArg Except.error h
  | .ok _, .error _, h => h.elim
  | .error _, .ok _, h => h.elim

/-- Two answers that both find something or both find nothing. -/
def BothFound {α β : Type} (a : Option α) (b : Option β) : Prop := a.isSome = b.isSome

theorem bothFound_none {α β : Type} : BothFound (none : Option α) (none : Option β) := rfl

theorem bothFound_some {α β : Type} (a : α) (b : β) : BothFound (some a) (some b) := rfl

/-- Run from two states with the same views, `x` and `y` fail alike or answer values related by
`R`, and leave two states with the same views. -/
def Twin {α β : Type} (x : EngineM α) (y : EngineM β) (R : α → β → Prop) : Prop :=
  ∀ c e₁ e₂, e₁.SameSight e₂ →
    Agree R (run x c e₁).1 (run y c e₂).1 ∧ (run x c e₁).2.SameSight (run y c e₂).2

namespace Twin

variable {α β γ δ : Type} {R : α → β → Prop}

theorem pure {a : α} {b : β} (h : R a b) : Twin (Pure.pure a : EngineM α) (Pure.pure b) R :=
  fun _ _ _ hs => ⟨h, hs⟩

theorem fail (err : Error) : Twin (EngineM.fail err : EngineM α) (EngineM.fail err : EngineM β) R :=
  fun _ _ _ hs => ⟨rfl, hs⟩

theorem read : Twin (MonadReader.read : EngineM Context) MonadReader.read Eq :=
  fun _ _ _ hs => ⟨rfl, hs⟩

theorem mono {x : EngineM α} {y : EngineM β} {S : α → β → Prop} (h : Twin x y R)
    (hRS : ∀ a b, R a b → S a b) : Twin x y S := by
  intro c e₁ e₂ hs
  obtain ⟨hagree, hs'⟩ := h c e₁ e₂ hs
  refine ⟨?_, hs'⟩
  revert hagree
  rcases run x c e₁ with ⟨_ | a, _⟩ <;> rcases run y c e₂ with ⟨_ | b, _⟩ <;>
    first | exact id | exact fun h => h.elim | exact hRS a b

/-- Sequencing: twins followed by twins of related answers. -/
theorem bind {x : EngineM α} {y : EngineM β} {f : α → EngineM γ} {g : β → EngineM δ}
    {S : γ → δ → Prop} (hxy : Twin x y R) (hfg : ∀ a b, R a b → Twin (f a) (g b) S) :
    Twin (x >>= f) (y >>= g) S := by
  intro c e₁ e₂ hs
  obtain ⟨hagree, hs'⟩ := hxy c e₁ e₂ hs
  rw [run_bind, run_bind]
  revert hagree hs'
  rcases run x c e₁ with ⟨_ | a, e₁'⟩ <;> rcases run y c e₂ with ⟨_ | b, e₂'⟩
  · exact fun hagree hs' => ⟨hagree, hs'⟩
  · exact fun hagree _ => hagree.elim
  · exact fun hagree _ => hagree.elim
  · exact fun hagree hs' => hfg a b hagree c e₁' e₂' hs'

/-- An operation that reads the state goes on alike from two states with the same views. -/
theorem get_bind {f : Engine → EngineM α} {g : Engine → EngineM β}
    (hfg : ∀ e₁ e₂, e₁.SameSight e₂ → Twin (f e₁) (g e₂) R) :
    Twin (MonadState.get >>= f) (MonadState.get >>= g) R := by
  intro c e₁ e₂ hs
  simp only [run_bind, run_get]
  exact hfg e₁ e₂ hs c e₁ e₂ hs

theorem ite {p : Prop} [Decidable p] {x x' : EngineM α} {y y' : EngineM β} (h₁ : p → Twin x y R)
    (h₂ : ¬p → Twin x' y' R) : Twin (if p then x else x') (if p then y else y') R := by
  by_cases hp : p
  · simpa only [if_pos hp] using h₁ hp
  · simpa only [if_neg hp] using h₂ hp

/-- An operation whose outcome is a function of the views and that keeps the views is a twin of
itself. -/
theorem of_run {x : EngineM α} {R : α → α → Prop} (f : Context → Engine → Except Error α)
    (hrun : ∀ (c : Context) (e : Engine), (run x c e).1 = f c e ∧ e.SameSight (run x c e).2)
    (hf : ∀ c e₁ e₂, e₁.SameSight e₂ → Agree R (f c e₁) (f c e₂)) : Twin x x R := by
  intro c e₁ e₂ hs
  obtain ⟨h₁, hs₁⟩ := hrun c e₁
  obtain ⟨h₂, hs₂⟩ := hrun c e₂
  exact ⟨h₁ ▸ h₂ ▸ hf c e₁ e₂ hs, hs₁.symm.trans (hs.trans hs₂)⟩

/-- An operation that always answers and keeps the views is a twin of itself, whatever it
answers. -/
theorem of_ok {x : EngineM α} (hok : ∀ c e, ∃ a, (run x c e).1 = .ok a)
    (hstay : ∀ (c : Context) (e : Engine), e.SameSight (run x c e).2) : Twin x x fun _ _ => True := by
  intro c e₁ e₂ hs
  obtain ⟨a, ha⟩ := hok c e₁
  obtain ⟨b, hb⟩ := hok c e₂
  refine ⟨?_, (hstay c e₁).symm.trans (hs.trans (hstay c e₂))⟩
  rw [ha, hb]
  trivial

/-- A search through a list stops at the same element on both sides. -/
theorem findSomeM? {f : γ → EngineM (Option α)} {g : γ → EngineM (Option β)}
    {R : Option α → Option β → Prop} (hR : ∀ a b, R a b → a.isSome = b.isSome)
    (hnone : R none none) (hf : ∀ x, Twin (f x) (g x) R) :
    ∀ l : List γ, Twin (l.findSomeM? f) (l.findSomeM? g) R
  | [] => pure hnone
  | x :: l => by
    rw [List.findSomeM?_cons, List.findSomeM?_cons]
    refine bind (hf x) fun a b hab => ?_
    cases a with
    | some a =>
      cases b with
      | some b => exact pure hab
      | none => exact absurd (hR _ _ hab) (by simp)
    | none =>
      cases b with
      | some b => exact absurd (hR _ _ hab) (by simp)
      | none => exact findSomeM? hR hnone hf l

/-- A stage of a search: what it finds ends the search on both sides, and when it finds nothing
the next stage runs on both sides. -/
theorem bind_found {x : EngineM (Option α)} {f : Option α → EngineM β} {S : β → β → Prop}
    (hx : Twin x x BothFound) (hsome : ∀ a b, Twin (f (some a)) (f (some b)) S)
    (hnone : Twin (f none) (f none) S) : Twin (x >>= f) (x >>= f) S := by
  refine bind hx fun a b hab => ?_
  cases a <;> cases b
  · exact hnone
  · exact absurd hab (by simp [BothFound])
  · exact absurd hab (by simp [BothFound])
  · exact hsome _ _

end Twin

/-! ## The stages of resolution -/

variable {c : Context} {e : Engine}

theorem twin_fileExists (p : Path) : Twin (fileExists p) (fileExists p) Eq :=
  .of_run (fun _ e => .ok (e.vfs.fileExists e.disk p)) (fun _ e => ⟨rfl, .refl e⟩)
    fun _ _ _ hs => (hs.fileExists p).symm

theorem twin_dirExists (p : Path) : Twin (dirExists p) (dirExists p) Eq :=
  .of_run (fun _ e => .ok (e.vfs.dirExists e.disk p)) (fun _ e => ⟨rfl, .refl e⟩)
    fun _ _ _ hs => (hs.dirExists p).symm

theorem twin_getPackage (p : Path) : Twin (getPackage p) (getPackage p) Eq := by
  refine .of_run (fun _ e => .ok (e.packageView p.normalize)) (fun c e => ?_)
    fun _ _ _ hs => (hs.packageView _).symm
  obtain ⟨e', hF, hrun⟩ := Engine.run_getPackage (c := c) (e := e) p
  rw [hrun]
  exact ⟨rfl, hF.keeps.sameSight⟩

/-- Finding or creating the module of a path changes nothing resolution sees. -/
theorem run_getOrInsert_sight (p : Path) (kind : Path → ModuleKind) :
    e.SameSight (run (getOrInsert p kind) c e).2 := by
  unfold getOrInsert
  cases h : e.registry.atPath? p.normalize with
  | some id =>
    simp only [run_bind, run_get, h, run_pure]
    exact .refl e
  | none =>
    simp only [run_bind, run_get, h, modifyRegistry, run_modify, run_pure]
    exact Engine.sameSight_registry _ rfl

theorem twin_getOrInsert (p : Path) (kind : Path → ModuleKind) :
    Twin (getOrInsert p kind) (getOrInsert p kind) fun _ _ => True :=
  .of_ok (fun c e => by
      obtain ⟨id, r, hrun, -⟩ := Engine.run_getOrInsert (c := c) (e := e) p kind
      exact ⟨id, by rw [hrun]⟩)
    fun _ _ => run_getOrInsert_sight p kind

theorem twin_getModule (p : Path) : Twin (getModule p) (getModule p) fun _ _ => True :=
  twin_getOrInsert p _

theorem twin_getAssetModule (p : Path) :
    Twin (getAssetModule p) (getAssetModule p) fun _ _ => True :=
  .bind .read fun c₁ c₂ hc => by
    subst hc
    exact twin_getOrInsert p _

theorem twin_getNullModule (name : String) :
    Twin (getNullModule name) (getNullModule name) fun _ _ => True := by
  refine .of_ok (fun c e => ?_) fun c e => ?_
  · unfold getNullModule
    simp only [run_bind, run_get]
    split
    · exact ⟨_, rfl⟩
    · exact ⟨_, rfl⟩
  · unfold getNullModule
    simp only [run_bind, run_get]
    split
    · exact .refl e
    · simp only [modifyRegistry]
      exact Engine.sameSight_registry _ rfl

theorem twin_isAssetName (name : String) : Twin (isAssetName name) (isAssetName name) Eq :=
  .bind .read fun c₁ c₂ hc => by
    subst hc
    exact .pure rfl

theorem twin_moduleForFile (f : String) :
    Twin (moduleForFile f) (moduleForFile f) fun _ _ => True :=
  .bind (twin_isAssetName _) fun a b hab => by
    subst hab
    exact .ite (fun _ => twin_getAssetModule _) (fun _ => twin_getModule _)

theorem twin_closest (p : Path) (name : String) : Twin (closest p name) (closest p name) Eq :=
  .of_run (fun _ e => .ok (e.vfs.closest e.disk p name)) (fun _ e => ⟨rfl, .refl e⟩)
    fun _ _ _ hs => (hs.closest p name).symm

theorem twin_packageFor (m : Module) : Twin (packageFor m) (packageFor m) Eq := by
  unfold packageFor
  -- source and asset modules look for the nearest package file; other modules have none
  split
  all_goals first
    | exact .pure rfl
    | refine .bind (twin_closest _ _) fun a b hab => ?_
      subst hab
      split
      · exact .bind (twin_getPackage _) fun a b hab => .pure (congrArg some hab)
      · exact .pure rfl

namespace Request

variable (req : Request)

theorem twin_loadAsFile (path : String) :
    Twin (req.loadAsFile path) (req.loadAsFile path) Eq :=
  .of_run (fun _ e => .ok (req.fileView e path))
    (fun c e => ⟨by rw [req.run_loadAsFile], by rw [req.run_loadAsFile]; exact .refl e⟩)
    fun _ _ _ hs => (hs.fileView req path).symm

theorem twin_loadAsDir : ∀ (fuel : Nat) (dir : String),
    Twin (req.loadAsDir fuel dir) (req.loadAsDir fuel dir) Eq
  | 0, _ => .fail _
  | fuel + 1, dir => by
    unfold loadAsDir
    have hindex := twin_loadAsFile req (joinText dir "index")
    refine .bind (twin_dirExists _) fun a b hab => ?_
    subst hab
    refine .ite (fun _ => .pure rfl) fun _ => .bind (twin_fileExists _) fun a b hab => ?_
    subst hab
    refine .ite (fun _ => ?_) fun _ => hindex
    refine .bind (twin_getPackage _) fun pkg pkg' hpkg => ?_
    subst hpkg
    refine .ite (fun _ => ?_) fun _ => hindex
    -- the package's main as a file, then as a directory, then the directory's index
    refine .bind (twin_loadAsFile req _) fun r r' hr => ?_
    subst hr
    split
    · exact .pure rfl
    · refine .bind (twin_loadAsDir fuel _) fun r r' hr => ?_
      subst hr
      split
      · exact .pure rfl
      · exact hindex

theorem twin_dirFuel : Twin dirFuel dirFuel Eq := by
  refine .of_run (fun _ e => .ok (e.vfs.nodes.length + e.disk.entries.length + 1 + Nat.pow 2 64))
    (fun c e => ⟨by rw [run_dirFuel], by rw [run_dirFuel]; exact .refl e⟩)
    fun _ e₁ e₂ hs => ?_
  have hlen : e₂.vfs.nodes.length = e₁.vfs.nodes.length := by
    simpa using congrArg List.length hs.shape.keys
  show _ = _
  rw [hlen, hs.disk]

theorem twin_loadFileOrDir (path : String) :
    Twin (req.loadFileOrDir path) (req.loadFileOrDir path) BothFound := by
  unfold loadFileOrDir
  refine .bind (twin_loadAsFile req _) fun f f' hf => ?_
  subst hf
  extract_lets jp
  -- what is found, as a file or as a directory, becomes a module
  have hjp : ∀ file, Twin (jp file) (jp file) BothFound := by
    intro file
    dsimp only [jp]
    split
    · exact .bind (twin_moduleForFile _) fun _ _ _ => .pure (bothFound_some _ _)
    · exact .pure bothFound_none
  split
  · refine .bind (.pure (R := Eq) rfl) fun a b hab => ?_
    subst hab
    exact hjp a
  · refine .bind twin_dirFuel fun n n' hn => ?_
    subst hn
    refine .bind (twin_loadAsDir req _ _) fun a b hab => ?_
    subst hab
    exact hjp a

theorem twin_resolveHaste (name : String) :
    Twin (req.resolveHaste name) (req.resolveHaste name) BothFound := by
  unfold resolveHaste
  refine .ite (fun _ => .pure bothFound_none) fun _ => .get_bind fun e₁ e₂ hs => ?_
  simp only [hs.haste]
  split
  · exact .bind (twin_getModule _) fun _ _ _ => .pure (bothFound_some _ _)
  · exact .bind (twin_getPackage _) fun a b hab => hab ▸ twin_loadFileOrDir req _
  · split
    · exact twin_loadFileOrDir req _
    · exact .pure bothFound_none

theorem twin_resolvePath (m : Module) (name : String) :
    Twin (req.resolvePath m name) (req.resolvePath m name) BothFound :=
  .ite (fun _ => .pure bothFound_none) fun _ => twin_loadFileOrDir req _

theorem twin_resolveNodeModules (m : Module) (name : String) :
    Twin (req.resolveNodeModules m name) (req.resolveNodeModules m name) BothFound :=
  .ite (fun _ => .pure bothFound_none) fun _ =>
    .findSomeM? (fun _ _ h => h) bothFound_none
      (fun _ => .ite (fun _ => .pure bothFound_none) fun _ => twin_loadFileOrDir req _) _

theorem twin_resolveBuiltin (name : String) :
    Twin (resolveBuiltin name) (resolveBuiltin name) BothFound :=
  .ite (fun _ => .bind (twin_getNullModule _) fun _ _ _ => .pure (bothFound_some _ _))
    fun _ => .pure bothFound_none

/-- A resolution without the memo succeeds from two states with the same views alike, and fails
alike with the same error. -/
theorem twin_resolveUncached (m : Module) (name : String) :
    Twin (req.resolveUncached m name) (req.resolveUncached m name) fun _ _ => True := by
  unfold resolveUncached
  refine .bind .read fun ctx ctx' hctx => ?_
  subst hctx
  refine .bind (twin_isAssetName _) fun a b hab => ?_
  subst hab
  extract_lets name' strategies redirected lookup afterAsset
  -- the four strategies in order, the first that finds a module winning
  have hstrategies : ∀ u n, Twin (strategies u n) (strategies u n) fun _ _ => True := by
    intro u n
    dsimp only [strategies]
    refine .bind_found (twin_resolveHaste req _) (fun _ _ => .pure trivial) ?_
    refine .bind_found (twin_resolvePath req m _) (fun _ _ => .pure trivial) ?_
    refine .bind_found (twin_resolveNodeModules req m _) (fun _ _ => .pure trivial) ?_
    exact .bind_found (twin_resolveBuiltin _) (fun _ _ => .pure trivial) (.fail _)
  -- after the project-wide redirects
  have hredirected : ∀ u n, Twin (redirected u n) (redirected u n) fun _ _ => True := by
    intro u n
    dsimp only [redirected]
    split
    · exact twin_getNullModule _
    · exact hstrategies () _
    · exact hstrategies () _
  -- after the requiring package's replacement map
  have hafterAsset : ∀ u, Twin (afterAsset u) (afterAsset u) fun _ _ => True := by
    intro u
    dsimp only [afterAsset]
    refine .bind (twin_packageFor m) fun pkg pkg' hpkg => ?_
    subst hpkg
    split
    · split
      · exact twin_getNullModule _
      · exact hredirected () _
      · exact hredirected () _
    · exact hredirected () _
  refine .ite (fun _ => .get_bind fun e₁ e₂ hs => ?_) fun _ => hafterAsset ()
  rw [ctx.assets.resolve_congr hs.shape, hs.disk]
  split
  · exact twin_getAssetModule _
  · exact hafterAsset ()

end Request

end ModuleBundler
