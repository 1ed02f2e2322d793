import ModuleBundler.Proofs.Resolve.Route

/-!
# Replaying a resolution

A resolution run from one state and repeated from a second state on the same route, where the
second state already finds every module the first run found, renamed, answers the same module
renamed and creates none (`Request.replays_resolveUncached`). `Replays σ x y R` is that relation
between two operations. It is built up as the resolver is: a view is read alike
(`Replays.of_view`), a module is found where the second state keeps it
(`replays_getOrInsert`, `replays_getNullModule`), a package is read alike at a `package.json`
path (`replays_getPackage`), and a sequence replays when, before its second part runs, the
modules its first part found are found in the second state: either the first part found nothing
new (`Settles`), or the second part changes nothing (`Stays`).

A directory search takes its fuel from the size of the state it runs in, so the two runs of a
load search with different fuel. Past the end of the chain of package mains fuel changes nothing
(`Request.run_loadAsDir_of_le`), and with no detached root the chain ends within the size of the
mirror, so both runs answer alike (`Request.replays_loadAsDir_dirFuel`).
-/

namespace ModuleBundler

open EngineM

/-! ## Replaying a run -/

/-- Run from two states on the same route, where the second finds every module the first finds,
renamed by `σ`, both before the run of `x` and after it, `y` repeats an answer of `x`: it answers
a value related by `R`, finds the modules it needs where they are and creates none, and the two
runs end on the same route. -/
def Replays {α β : Type} (σ : Nat → Nat) (x : EngineM α) (y : EngineM β) (R : α → β → Prop) :
    Prop :=
  ∀ c e₁ e₂ a e₁', e₁.SameRoute e₂ → Engine.Covers σ e₁ e₂ → run x c e₁ = (.ok a, e₁') →
    Engine.Covers σ e₁' e₂ →
    ∃ b e₂', run y c e₂ = (.ok b, e₂') ∧ R a b ∧ e₁'.SameRoute e₂' ∧ Engine.Covers id e₂ e₂' ∧
      Engine.Covers id e₂' e₂

/-- A run of `x` answering `a` finds no module it did not find before. -/
def Settles {α : Type} (x : EngineM α) (a : α) : Prop :=
  ∀ c e e', run x c e = (.ok a, e') → Engine.Covers id e' e

/-- A run of `x` that answers leaves the state as it was. -/
def Stays {α : Type} (x : EngineM α) : Prop :=
  ∀ c e a e', run x c e = (.ok a, e') → e' = e

theorem Stays.pure {α : Type} (a : α) : Stays (Pure.pure a : EngineM α) := by
  intro c e b e' h
  cases h
  rfl

theorem Stays.settles {α : Type} {x : EngineM α} (h : Stays x) (a : α) : Settles x a :=
  fun c e e' hr => h c e a e' hr ▸ .refl e

namespace Replays

variable {α β γ δ : Type} {σ : Nat → Nat} {R : α → β → Prop}

theorem pure {a : α} {b : β} (h : R a b) : Replays σ (Pure.pure a : EngineM α) (Pure.pure b) R := by
  intro c e₁ e₂ a' e₁' hS _ hrun _
  cases hrun
  exact ⟨b, e₂, rfl, h, hS, .refl _, .refl _⟩

theorem fail (err : Error) :
    Replays σ (EngineM.fail err : EngineM α) (EngineM.fail err : EngineM β) R := by
  intro c e₁ e₂ a e₁' _ _ hrun
  cases hrun

theorem read : Replays σ (MonadReader.read : EngineM Context) MonadReader.read Eq := by
  intro c e₁ e₂ a e₁' hS _ hrun _
  cases hrun
  exact ⟨c, e₂, rfl, rfl, hS, .refl _, .refl _⟩

/-- An operation that reads the state goes on alike from two states on the same route. -/
theorem get_bind {f : Engine → EngineM α} {g : Engine → EngineM β}
    (hfg : ∀ e₁ e₂, e₁.SameRoute e₂ → Replays σ (f e₁) (g e₂) R) :
    Replays σ (MonadState.get >>= f) (MonadState.get >>= g) R := by
  intro c e₁ e₂ a e₁' hS hC₀ hrun hC
  simp only [run_bind, run_get] at hrun ⊢
  exact hfg e₁ e₂ hS c e₁ e₂ a e₁' hS hC₀ hrun hC

theorem ite {p : Prop} [Decidable p] {x x' : EngineM α} {y y' : EngineM β}
    (h₁ : p → Replays σ x y R) (h₂ : ¬p → Replays σ x' y' R) :
    Replays σ (if p then x else x') (if p then y else y') R := by
  by_cases hp : p
  · simpa only [if_pos hp] using h₁ hp
  · simpa only [if_neg hp] using h₂ hp

/-- Sequencing. Before the second part runs, the first part's modules must be known to the second
state: either the first part's run found nothing new, or the second part's run changes nothing,
so that what the whole run leaves covers the first part's. -/
theorem bind {x : EngineM α} {y : EngineM β} {f : α → EngineM γ} {g : β → EngineM δ}
    {S : γ → δ → Prop} (hxy : Replays σ x y R) (hfg : ∀ a b, R a b → Replays σ (f a) (g b) S)
    (hstep : ∀ a, Settles x a ∨ Stays (f a)) : Replays σ (x >>= f) (y >>= g) S := by
  intro c e₁ e₂ b e₁' hS hC₀ hrun hC
  obtain ⟨a, e₁m, hx, hf⟩ := run_bind_eq_ok hrun
  -- what the first part leaves is covered, before the second part runs
  have hCm : Engine.Covers σ e₁m e₂ := by
    rcases hstep a with hs | hst
    · exact (hs c e₁ e₁m hx).trans_left hC₀
    · rw [← hst c e₁m b e₁' hf]
      exact hC
  obtain ⟨a', e₂m, hy, hR, hSm, hC₂, hC₂'⟩ := hxy c e₁ e₂ a e₁m hS hC₀ hx hCm
  obtain ⟨b', e₂', hg, hS', hSf, hD, hD'⟩ :=
    hfg a a' hR c e₁m e₂m b e₁' hSm (hCm.trans_right hC₂) hf (hC.trans_right hC₂)
  refine ⟨b', e₂', ?_, hS', hSf, hC₂.trans_left hD, hD'.trans_left hC₂'⟩
  rw [run_bind, hy]
  exact hg

/-- A first part whose every run finds nothing new. -/
theorem bind_settled {x : EngineM α} {y : EngineM β} {f : α → EngineM γ} {g : β → EngineM δ}
    {S : γ → δ → Prop} (hxy : Replays σ x y R) (hs : ∀ a, Settles x a)
    (hfg : ∀ a b, R a b → Replays σ (f a) (g b) S) : Replays σ (x >>= f) (y >>= g) S :=
  bind hxy hfg fun a => .inl (hs a)

/-- A first part followed by answering. -/
theorem bind_pure {x : EngineM α} {y : EngineM β} {k : α → γ} {l : β → δ} {S : γ → δ → Prop}
    (hxy : Replays σ x y R) (hkl : ∀ a b, R a b → S (k a) (l b)) :
    Replays σ (x >>= fun a => Pure.pure (k a)) (y >>= fun b => Pure.pure (l b)) S :=
  bind hxy (fun a b hab => pure (hkl a b hab)) fun _ => .inr (Stays.pure _)

/-- A search through a list stops at the same element on both sides; a step that finds nothing
finds no module either. -/
theorem findSomeM? {f : γ → EngineM (Option α)} {g : γ → EngineM (Option β)}
    {R : Option α → Option β → Prop} (hR : ∀ a b, R a b → a.isSome = b.isSome)
    (hnone : R none none) (hf : ∀ x, Replays σ (f x) (g x) R) (hs : ∀ x, Settles (f x) none) :
    ∀ l : List γ, Replays σ (l.findSomeM? f) (l.findSomeM? g) R
  | [] => pure hnone
  | x :: l => by
    rw [List.findSomeM?_cons, List.findSomeM?_cons]
    refine bind (hf x) (fun a b hab => ?_) fun a => ?_
    · cases a with
      | some a =>
        cases b with
        | some b => exact pure hab
        | none => exact absurd (hR _ _ hab) (by simp)
      | none =>
        cases b with
        | some b => exact absurd (hR _ _ hab) (by simp)
        | none => exact findSomeM? hR hnone hf hs l
    · cases a with
      | some a => exact .inr (Stays.pure _)
      | none => exact .inl (hs x)

end Replays


/-! ## Runs that find nothing new -/

/-- Whatever a run of `x` answers, it finds no module it did not find before. -/
def Reads {α : Type} (x : EngineM α) : Prop := ∀ a, Settles x a

namespace Reads

variable {α β : Type}

theorem of_stays {x : EngineM α} (h : Stays x) : Reads x := h.settles

theorem bind {x : EngineM α} {f : α → EngineM β} (hx : Reads x) (hf : ∀ a, Reads (f a)) :
    Reads (x >>= f) := by
  intro b c e e' hrun
  obtain ⟨a, em, hxr, hfr⟩ := run_bind_eq_ok hrun
  exact (hf a b c em e' hfr).trans_left (hx a c e em hxr)

theorem ite {p : Prop} [Decidable p] {x y : EngineM α} (hx : Reads x) (hy : Reads y) :
    Reads (if p then x else y) := by
  by_cases hp : p
  · simpa only [if_pos hp] using hx
  · simpa only [if_neg hp] using hy

theorem fail (err : Error) : Reads (EngineM.fail err : EngineM α) := by
  intro a c e e' h
  cases h

end Reads

/-- An answer of `x` only a run finding nothing new gives. -/
theorem Settles.bind {α β : Type} {x : EngineM α} {f : α → EngineM β} {b : β} (hx : Reads x)
    (hf : ∀ a, Settles (f a) b) : Settles (x >>= f) b := by
  intro c e e' hrun
  obtain ⟨a, em, hxr, hfr⟩ := run_bind_eq_ok hrun
  exact (hf a c em e' hfr).trans_left (hx a c e em hxr)

/-- A run ending by answering `some` never answers `none`. -/
theorem Settles.bind_some {α β : Type} {x : EngineM α} {k : α → β} :
    Settles (x >>= fun a => Pure.pure (some (k a))) none := by
  intro c e e' hrun
  obtain ⟨a, em, -, hfr⟩ := run_bind_eq_ok hrun
  cases hfr

theorem Settles.ite {α : Type} {p : Prop} [Decidable p] {x y : EngineM α} {a : α}
    (hx : Settles x a) (hy : Settles y a) : Settles (if p then x else y) a := by
  by_cases hp : p
  · simpa only [if_pos hp] using hx
  · simpa only [if_neg hp] using hy

/-- A search through a list that finds nothing ran every step to nothing. -/
theorem Settles.findSomeM?_none {α β : Type} {f : α → EngineM (Option β)}
    (hs : ∀ x, Settles (f x) none) : ∀ l : List α, Settles (l.findSomeM? f) none
  | [] => (Stays.pure _).settles _
  | x :: l => by
    rw [List.findSomeM?_cons]
    intro c e e' hrun
    obtain ⟨r, em, hx, hrest⟩ := run_bind_eq_ok hrun
    cases r with
    | some b => cases hrest
    | none => exact (Settles.findSomeM?_none hs l c em e' hrest).trans_left (hs x c e em hx)

namespace Replays

/-- A stage of a search that finds modules: what it finds ends the search on both sides, renamed,
and when it finds nothing, having found no module, the next stage runs on both sides. -/
theorem bind_found {α β : Type} {σ : Nat → Nat} {S : α → β → Prop} {x y : EngineM (Option Nat)}
    {f : Option Nat → EngineM α} {g : Option Nat → EngineM β}
    (hxy : Replays σ x y fun a b => b = a.map σ) (hs : Settles x none)
    (hsome : ∀ a, Replays σ (f (some a)) (g (some (σ a))) S) (hstay : ∀ a, Stays (f (some a)))
    (hnone : Replays σ (f none) (g none) S) : Replays σ (x >>= f) (y >>= g) S := by
  refine bind hxy (fun a b hab => ?_) fun a => ?_
  · subst hab
    cases a with
    | some a => exact hsome a
    | none => exact hnone
  · cases a with
    | some a => exact .inr (hstay a)
    | none => exact .inl hs

end Replays

theorem Stays.get : Stays (MonadState.get : EngineM Engine) := by
  intro c e a e' h
  cases h
  rfl

theorem Stays.read : Stays (MonadReader.read : EngineM Context) := by
  intro c e a e' h
  cases h
  rfl

/-! ## Reading the views -/

namespace Replays

variable {α : Type} {σ : Nat → Nat}

/-- An operation answering a view on which two states on the same route agree, and changing
nothing. -/
theorem of_view {x : EngineM α} (v : Context → Engine → α) (hx : ∀ c e, run x c e = (.ok (v c e), e))
    (hv : ∀ c e₁ e₂, e₁.SameRoute e₂ → v c e₂ = v c e₁) : Replays σ x x Eq := by
  intro c e₁ e₂ a e₁' hS _ hrun _
  rw [hx] at hrun
  cases hrun
  exact ⟨v c e₂, e₂, hx c e₂, (hv c e₁ e₂ hS).symm, hS, .refl _, .refl _⟩

/-- A view read first, and a part that depends on what it reads. -/
theorem view_bind {β γ : Type} {S : β → γ → Prop} {x : EngineM α} (v : Context → Engine → α)
    (hx : ∀ c e, run x c e = (.ok (v c e), e)) (hv : ∀ c e₁ e₂, e₁.SameRoute e₂ → v c e₂ = v c e₁)
    {f : α → EngineM β} {g : α → EngineM γ} (hfg : ∀ c e, Replays σ (f (v c e)) (g (v c e)) S) :
    Replays σ (x >>= f) (x >>= g) S := by
  intro c e₁ e₂ b e₁' hS hC₀ hrun hC
  rw [run_bind, hx] at hrun
  rw [run_bind, hx, hv c e₁ e₂ hS]
  exact hfg c e₁ c e₁ e₂ b e₁' hS hC₀ hrun hC

end Replays

theorem stays_of_view {α : Type} {x : EngineM α} (v : Context → Engine → α)
    (hx : ∀ c e, run x c e = (.ok (v c e), e)) : Stays x := by
  intro c e a e' h
  rw [hx] at h
  cases h
  rfl

section Views

variable {σ : Nat → Nat}

theorem replays_fileExists (p : Path) : Replays σ (fileExists p) (fileExists p) Eq :=
  .of_view (fun _ e => e.vfs.fileExists e.disk p) (fun _ _ => rfl) fun _ _ _ hS => hS.fileExists p

theorem replays_dirExists (p : Path) : Replays σ (dirExists p) (dirExists p) Eq :=
  .of_view (fun _ e => e.vfs.dirExists e.disk p) (fun _ _ => rfl) fun _ _ _ hS => hS.dirExists p

theorem replays_closest (p : Path) (n : String) : Replays σ (closest p n) (closest p n) Eq :=
  .of_view (fun _ e => e.vfs.closest e.disk p n) (fun _ _ => rfl) fun _ _ _ hS => hS.closest p n

theorem replays_isAssetName (name : String) :
    Replays σ (isAssetName name) (isAssetName name) Eq :=
  .of_view (fun c e => (run (isAssetName name) c e).1.toOption.getD false) (fun _ _ => rfl)
    fun _ _ _ _ => rfl

theorem reads_fileExists (p : Path) : Reads (fileExists p) :=
  .of_stays (stays_of_view (fun _ e => e.vfs.fileExists e.disk p) fun _ _ => rfl)

theorem reads_dirExists (p : Path) : Reads (dirExists p) :=
  .of_stays (stays_of_view (fun _ e => e.vfs.dirExists e.disk p) fun _ _ => rfl)

theorem reads_closest (p : Path) (n : String) : Reads (closest p n) :=
  .of_stays (stays_of_view (fun _ e => e.vfs.closest e.disk p n) fun _ _ => rfl)

theorem reads_isAssetName (name : String) : Reads (isAssetName name) :=
  .bind (.of_stays Stays.read) fun _ => .of_stays (Stays.pure _)

end Views


/-! ## Finding modules -/

namespace Engine

variable {c : Context} {e : Engine}

/-- The null module of a name, found or created, is the one the registry then keeps for the
name; nothing but the registry's modules and null names changes. -/
theorem run_getNullModule (name : String) :
    ∃ i r, run (getNullModule name) c e = (.ok i, { e with registry := r }) ∧
      r.nullOf name = some i ∧ r.packages = e.registry.packages := by
  unfold getNullModule
  simp only [run_bind, run_get]
  split
  · rename_i i hi
    exact ⟨i, e.registry, rfl, hi, rfl⟩
  · simp only [modifyRegistry, run_bind, run_modify, run_pure]
    refine ⟨_, _, rfl, ?_, rfl⟩
    simp [Registry.nullOf, Registry.insert, Registry.live?, Registry.record?]

theorem run_getNullModule_of_nullOf {name : String} {i : Nat}
    (h : e.registry.nullOf name = some i) : run (getNullModule name) c e = (.ok i, e) := by
  unfold Registry.nullOf at h
  simp [getNullModule, h]

theorem run_getOrInsert_of_found {p : Path} {kind : Path → ModuleKind} {i : Nat}
    (h : e.registry.atPath? p.normalize = some i) : run (getOrInsert p kind) c e = (.ok i, e) := by
  simp [getOrInsert, h]

end Engine

section Modules

variable {σ : Nat → Nat}

theorem replays_getOrInsert (p : Path) (kind : Path → ModuleKind) :
    Replays σ (getOrInsert p kind) (getOrInsert p kind) fun a b => b = σ a := by
  intro c e₁ e₂ a e₁' hS _ hrun hC
  obtain ⟨i, r, hr, hat⟩ := Engine.run_getOrInsert (c := c) (e := e₁) p kind
  have hsight := run_getOrInsert_sight (c := c) (e := e₁) p kind
  rw [hr] at hrun hsight
  cases hrun
  exact ⟨σ a, e₂, Engine.run_getOrInsert_of_found (hC.atPath _ _ hat), rfl,
    hS.congr hsight (.refl e₂), .refl _, .refl _⟩

theorem replays_getModule (p : Path) :
    Replays σ (getModule p) (getModule p) fun a b => b = σ a :=
  replays_getOrInsert p _

theorem replays_getAssetModule (p : Path) :
    Replays σ (getAssetModule p) (getAssetModule p) fun a b => b = σ a := by
  unfold getAssetModule
  refine Replays.bind_settled .read (Reads.of_stays Stays.read) ?_
  · intro c₁ c₂ hc
    subst hc
    exact replays_getOrInsert p _

theorem replays_moduleForFile (f : String) :
    Replays σ (moduleForFile f) (moduleForFile f) fun a b => b = σ a := by
  unfold moduleForFile
  refine Replays.bind_settled (replays_isAssetName f) ?_ fun a b hab => ?_
  · exact Reads.of_stays (stays_of_view _ fun _ _ => rfl)
  · subst hab
    exact .ite (fun _ => replays_getAssetModule _) fun _ => replays_getModule _

theorem replays_getNullModule (name : String) :
    Replays σ (getNullModule name) (getNullModule name) fun a b => b = σ a := by
  intro c e₁ e₂ a e₁' hS _ hrun hC
  obtain ⟨i, r, hr, hnull, hpk⟩ := Engine.run_getNullModule (c := c) (e := e₁) name
  rw [hr] at hrun
  cases hrun
  exact ⟨σ a, e₂, Engine.run_getNullModule_of_nullOf (hC.nulls _ _ hnull), rfl,
    hS.congr (Engine.sameSight_registry r hpk) (.refl e₂), .refl _, .refl _⟩

end Modules


/-! ## Packages and directories -/

section Directories

variable {σ : Nat → Nat}

/-- Reading a package file finds no module. -/
theorem reads_getPackage (p : Path) : Reads (getPackage p) := by
  intro a c e e' hrun
  obtain ⟨pk, hpk⟩ := run_getPackage_registry (c := c) (e := e) p
  rw [hrun] at hpk
  exact Engine.Covers.of_registry (by rw [hpk]) (by rw [hpk]) (by rw [hpk])

/-- The package at a `package.json` path reads alike from two states on the same route. -/
theorem replays_getPackage {p : Path} (hp : p.normalize.fileName? = some "package.json") :
    Replays σ (getPackage p) (getPackage p) Eq := by
  intro c e₁ e₂ a e₁' hS _ hrun _
  obtain ⟨f₁, hF₁, hr₁⟩ := Engine.run_getPackage (c := c) (e := e₁) p
  obtain ⟨f₂, hF₂, hr₂⟩ := Engine.run_getPackage (c := c) (e := e₂) p
  rw [hr₁] at hrun
  cases hrun
  refine ⟨_, f₂, hr₂, (hS.packages _ hp).symm, hS.congr hF₁.keeps.sameSight hF₂.keeps.sameSight,
    ?_, ?_⟩
  · obtain ⟨pk, hpk⟩ := run_getPackage_registry (c := c) (e := e₂) p
    rw [hr₂] at hpk
    exact Engine.Covers.of_registry (by rw [hpk]) (by rw [hpk]) (by rw [hpk])
  · exact reads_getPackage p _ c e₂ f₂ hr₂

namespace Request

variable (req : Request)

theorem stays_loadAsFile (path : String) : Stays (req.loadAsFile path) :=
  stays_of_view (fun _ e => req.fileView e path) fun _ _ => req.run_loadAsFile path

theorem replays_loadAsFile (path : String) :
    Replays σ (req.loadAsFile path) (req.loadAsFile path) Eq :=
  .of_view (fun _ e => req.fileView e path) (fun _ _ => req.run_loadAsFile path)
    fun _ _ _ hS => hS.fileView req path

theorem reads_loadAsDir : ∀ (fuel : Nat) (dir : String), Reads (req.loadAsDir fuel dir)
  | 0, _ => .fail _
  | fuel + 1, dir => by
    unfold loadAsDir
    have hindex := Reads.of_stays (req.stays_loadAsFile (joinText dir "index"))
    refine .bind (reads_dirExists _) fun _ => .ite (.of_stays (Stays.pure _)) ?_
    refine .bind (reads_fileExists _) fun _ => .ite ?_ hindex
    refine .bind (reads_getPackage _) fun pkg => .ite ?_ hindex
    refine .bind (.of_stays (req.stays_loadAsFile _)) fun r => ?_
    split
    · exact .of_stays (Stays.pure _)
    · refine .bind (reads_loadAsDir fuel _) fun r => ?_
      split
      · exact .of_stays (Stays.pure _)
      · exact hindex

/-- A directory search with the same fuel answers alike from two states on the same route. -/
theorem replays_loadAsDir : ∀ (fuel : Nat) (dir : String),
    Replays σ (req.loadAsDir fuel dir) (req.loadAsDir fuel dir) Eq
  | 0, _ => .fail _
  | fuel + 1, dir => by
    unfold loadAsDir
    have hindex := req.replays_loadAsFile (σ := σ) (joinText dir "index")
    refine .bind_settled (replays_dirExists _) (reads_dirExists _) fun a b hab => ?_
    subst hab
    refine .ite (fun _ => .pure rfl) fun _ => ?_
    refine .bind_settled (replays_fileExists _) (reads_fileExists _) fun a b hab => ?_
    subst hab
    refine .ite (fun _ => ?_) fun _ => hindex
    refine .bind_settled (replays_getPackage (Path.fileName?_manifest dir)) (reads_getPackage _)
      fun pkg pkg' hpkg => ?_
    subst hpkg
    refine .ite (fun _ => ?_) fun _ => hindex
    -- the package's main as a file, then as a directory, then the directory's index
    refine .bind_settled (req.replays_loadAsFile _) (Reads.of_stays (req.stays_loadAsFile _))
      fun r r' hr => ?_
    subst hr
    split
    · exact .pure rfl
    · refine .bind_settled (replays_loadAsDir fuel _) (req.reads_loadAsDir fuel _)
        fun r r' hr => ?_
      subst hr
      split
      · exact .pure rfl
      · exact hindex

end Request

end Directories


/-! ## The fuel of a directory search -/

namespace Request

variable {req : Request} {c : Context}

/-- Fuel past the end of the chain of `main` directories changes nothing: the search answers as
it does with just enough. -/
theorem run_loadAsDir_of_le : ∀ {n m : Nat} {dir : String} {e : Engine},
    req.chainEnds e n dir = true → n ≤ m →
    run (req.loadAsDir n dir) c e = run (req.loadAsDir m dir) c e
  | 0, _, _, _, h, _ => by simp [chainEnds] at h
  | _ + 1, 0, _, _, _, hnm => by omega
  | n + 1, m + 1, dir, e, h, hnm => by
    unfold loadAsDir
    cases hd : e.vfs.dirExists e.disk (Path.ofString dir) with
    | false => simp [dirExists, hd]
    | true =>
      cases hm : e.vfs.fileExists e.disk (Path.ofString (joinText dir "package.json")) with
      | false => simp [dirExists, fileExists, hd, hm]
      | true =>
        obtain ⟨e₁, hF₁, hpkg⟩ :=
          Engine.run_getPackage (c := c) (e := e) (Path.ofString (joinText dir "package.json"))
        simp only [run_bind, run_pure, dirExists, fileExists, run_get, hd, hm, Bool.not_true,
          Bool.false_eq_true, if_false, if_true, hpkg]
        generalize hmain : (e.packageView (Path.ofString (joinText dir "package.json")).normalize).main
          = main
        cases hne : (main != Path.ofString dir) with
        | false => simp
        | true =>
          have hfile := req.run_loadAsFile (c := c) (e := e₁) main.toString
          rw [fileView_congr hF₁.keeps] at hfile
          cases hf : req.fileView e main.toString with
          | some f => simp [hfile, hf]
          | none =>
            -- the chain moves on to the main, with one link less
            have hs : req.mainStep e dir = some main.toString := by
              simp [mainStep, hd, hm, hmain, hne, hf]
            have hends : req.chainEnds e₁ n main.toString = true := by
              simpa [chainEnds, hs, chainEnds_congr hF₁.keeps] using h
            simp only [if_true, run_bind, hfile, hf, run_loadAsDir_of_le hends (by omega : n ≤ m)]

/-- With no detached roots, a directory search that answers within some fuel answers the same
with any fuel past the mirror's size. -/
theorem run_loadAsDir_of_nodes_lt {e e' : Engine} {dir : String} {g : Option String} {n m : Nat}
    (hdet : e.vfs.detached = []) (hm : e.vfs.nodes.length < m)
    (h : run (req.loadAsDir n dir) c e = (.ok g, e')) :
    run (req.loadAsDir m dir) c e = (.ok g, e') := by
  have hn : req.chainEnds e n dir = true :=
    ((directory_search_returns_iff_chain_ends n dir).1).1 ⟨g, by rw [h]⟩
  have hm' := chainEnds_of_nodes_lt hdet hm hn
  rcases le_total n m with hle | hle
  · rw [← run_loadAsDir_of_le hn hle, h]
  · rw [run_loadAsDir_of_le hm' hle, h]

end Request

section Loads

variable {σ : Nat → Nat}

namespace Request

theorem stays_dirFuel : Stays dirFuel :=
  stays_of_view _ fun _ _ => run_dirFuel

variable (req : Request)

/-- The directory search with the fuel each state gives answers alike from two states on the same
route: past the end of a chain, fuel changes nothing. -/
theorem replays_loadAsDir_dirFuel (dir : String) :
    Replays σ (dirFuel >>= fun n => req.loadAsDir n dir)
      (dirFuel >>= fun n => req.loadAsDir n dir) Eq := by
  intro c e₁ e₂ a e₁' hS hC₀ hrun hC
  simp only [run_bind, run_dirFuel] at hrun ⊢
  obtain ⟨b, e₂', hy, rfl, hS', hD, hD'⟩ :=
    req.replays_loadAsDir _ dir c e₁ e₂ a e₁' hS hC₀ hrun hC
  exact ⟨a, e₂', run_loadAsDir_of_nodes_lt hS.detached (by omega) hy, rfl, hS', hD, hD'⟩

theorem reads_loadAsDir_dirFuel (dir : String) :
    Reads (dirFuel >>= fun n => req.loadAsDir n dir) :=
  .bind (.of_stays stays_dirFuel) fun n => req.reads_loadAsDir n dir

/-- The module a path stands for is found alike from two states on the same route, renamed. -/
theorem replays_loadFileOrDir (path : String) :
    Replays σ (req.loadFileOrDir path) (req.loadFileOrDir path) fun a b => b = a.map σ := by
  unfold loadFileOrDir
  refine .bind_settled (req.replays_loadAsFile path) (Reads.of_stays (req.stays_loadAsFile path))
    fun r r' hr => ?_
  subst hr
  -- what the path stands for as a file, else as a directory, then its module
  have hmod : ∀ file, Replays σ
      (match file with
        | some f => moduleForFile f >>= fun i => Pure.pure (some i)
        | none => Pure.pure none)
      (match file with
        | some f => moduleForFile f >>= fun i => Pure.pure (some i)
        | none => Pure.pure none) fun (a b : Option Nat) => b = a.map σ := by
    intro file
    cases file with
    | some f => exact .bind_pure (replays_moduleForFile f) fun a b h => by rw [h]; rfl
    | none => exact .pure rfl
  cases r with
  | some f =>
    simp only [pure_bind]
    exact hmod (some f)
  | none =>
    simp only [← bind_assoc]
    exact .bind_settled (req.replays_loadAsDir_dirFuel path) (req.reads_loadAsDir_dirFuel path)
      fun file file' hfile => hfile ▸ hmod file

end Request

end Loads

theorem reads_packageFor (m : Module) : Reads (packageFor m) := by
  unfold packageFor
  split
  all_goals first
    | exact .of_stays (Stays.pure _)
    | refine .bind (reads_closest _ _) fun o => ?_
      split
      · exact .bind (reads_getPackage _) fun _ => .of_stays (Stays.pure _)
      · exact .of_stays (Stays.pure _)

/-- The package governing a module is found alike from two states on the same route. -/
theorem replays_packageFor (m : Module) :
    Replays σ (packageFor m) (packageFor m) Eq := by
  unfold packageFor
  split
  -- the nearest package file is a view; the package read there is one the two states agree on
  all_goals first
    | exact .pure rfl
    | refine .view_bind (fun _ e => e.vfs.closest e.disk m.path "package.json") (fun _ _ => rfl)
        (fun _ _ _ hS => hS.closest _ _) fun c e => ?_
      cases hq : e.vfs.closest e.disk m.path "package.json" with
      | some q =>
        exact .bind_pure (replays_getPackage (Path.fileName?_closest hq)) fun a b h => h ▸ rfl
      | none => exact .pure rfl

namespace Request

variable (req : Request)

/-- A global name resolves alike from two states on the same route: the index answers the same,
and a package it names is a `package.json` file both states read alike. -/
theorem replays_resolveHaste (name : String) :
    Replays σ (req.resolveHaste name) (req.resolveHaste name) fun a b => b = a.map σ := by
  unfold resolveHaste
  refine .ite (fun _ => .pure rfl) fun _ => .get_bind fun e₁ e₂ hS => ?_
  simp only [hS.get?]
  split
  · exact .bind_pure (replays_getModule _) fun a b h => h ▸ rfl
  · rename_i p hp
    have hmanifest := Path.fileName?_normalize (hS.typed.get? hp)
    exact .bind_settled (replays_getPackage hmanifest) (reads_getPackage _)
      fun k k' hk => hk ▸ req.replays_loadFileOrDir _
  · split
    · exact req.replays_loadFileOrDir _
    · exact .pure rfl

/-- A load that finds nothing finds no module either. -/
theorem settles_loadFileOrDir_none (path : String) : Settles (req.loadFileOrDir path) none := by
  unfold loadFileOrDir
  refine .bind (.of_stays (req.stays_loadAsFile path)) fun r => ?_
  -- the module of a file found is never `none`
  cases r with
  | some f =>
    simp only [pure_bind]
    exact Settles.bind_some
  | none =>
    simp only [← bind_assoc]
    refine .bind (req.reads_loadAsDir_dirFuel path) fun file => ?_
    cases file with
    | some f => exact Settles.bind_some
    | none => exact (Stays.pure _).settles _

theorem settles_resolveHaste_none (name : String) : Settles (req.resolveHaste name) none := by
  unfold resolveHaste
  refine .ite ((Stays.pure _).settles _) (.bind (.of_stays Stays.get) fun e => ?_)
  dsimp only
  split
  · exact Settles.bind_some
  · exact .bind (reads_getPackage _) fun _ => req.settles_loadFileOrDir_none _
  · split
    · exact req.settles_loadFileOrDir_none _
    · exact (Stays.pure _).settles _

theorem replays_resolvePath (m : Module) (name : String) :
    Replays σ (req.resolvePath m name) (req.resolvePath m name) fun a b => b = a.map σ := by
  unfold resolvePath
  exact .ite (fun _ => .pure rfl) fun _ => req.replays_loadFileOrDir _

theorem settles_resolvePath_none (m : Module) (name : String) :
    Settles (req.resolvePath m name) none := by
  unfold resolvePath
  exact .ite ((Stays.pure _).settles _) (req.settles_loadFileOrDir_none _)

theorem replays_resolveNodeModules (m : Module) (name : String) :
    Replays σ (req.resolveNodeModules m name) (req.resolveNodeModules m name)
      fun a b => b = a.map σ := by
  unfold resolveNodeModules
  refine .ite (fun _ => .pure rfl) fun _ => ?_
  refine .findSomeM? (R := fun a b => b = Option.map σ a) (fun a b h => by rw [h, Option.isSome_map])
    rfl (fun dir => ?_)
    (fun dir => ?_) _
  · exact .ite (fun _ => .pure rfl) fun _ => req.replays_loadFileOrDir _
  · exact .ite ((Stays.pure _).settles _) (req.settles_loadFileOrDir_none _)

theorem settles_resolveNodeModules_none (m : Module) (name : String) :
    Settles (req.resolveNodeModules m name) none := by
  unfold resolveNodeModules
  refine .ite ((Stays.pure _).settles _) (.findSomeM?_none (fun dir => ?_) _)
  exact .ite ((Stays.pure _).settles _) (req.settles_loadFileOrDir_none _)

theorem replays_resolveBuiltin (name : String) :
    Replays σ (resolveBuiltin name) (resolveBuiltin name) fun a b => b = a.map σ := by
  unfold resolveBuiltin
  exact .ite (fun _ => .bind_pure (replays_getNullModule name) fun a b h => h ▸ rfl)
    fun _ => .pure rfl

theorem settles_resolveBuiltin_none (name : String) : Settles (resolveBuiltin name) none := by
  unfold resolveBuiltin
  exact .ite Settles.bind_some ((Stays.pure _).settles _)

/-- A resolution without the memo from two states on the same route answers the same module,
renamed, and creates no module on the second side. -/
theorem replays_resolveUncached (m : Module) (name : String) :
    Replays σ (req.resolveUncached m name) (req.resolveUncached m name) fun a b => b = σ a := by
  unfold resolveUncached
  refine .bind_settled .read (Reads.of_stays Stays.read) fun ctx ctx' hctx => ?_
  subst hctx
  refine .bind_settled (replays_isAssetName _) (reads_isAssetName _) fun a b hab => ?_
  subst hab
  extract_lets name' strategies redirected lookup afterAsset
  -- the four strategies in order, the first that finds a module winning
  have hstrategies : ∀ u n, Replays σ (strategies u n) (strategies u n) fun a b => b = σ a := by
    intro u n
    dsimp only [strategies]
    have hfound : ∀ a : Nat, Replays σ (Pure.pure a : EngineM Nat) (Pure.pure (σ a))
        fun a b => b = σ a := fun a => .pure rfl
    refine .bind_found (req.replays_resolveHaste _) (req.settles_resolveHaste_none _) hfound
      (fun _ => Stays.pure _) ?_
    refine .bind_found (req.replays_resolvePath m _) (req.settles_resolvePath_none m _) hfound
      (fun _ => Stays.pure _) ?_
    refine .bind_found (req.replays_resolveNodeModules m _) (req.settles_resolveNodeModules_none m _)
      hfound (fun _ => Stays.pure _) ?_
    exact .bind_found (replays_resolveBuiltin _) (settles_resolveBuiltin_none _) hfound
      (fun _ => Stays.pure _) (.fail _)
  -- after the project-wide redirects
  have hredirected : ∀ u n, Replays σ (redirected u n) (redirected u n) fun a b => b = σ a := by
    intro u n
    dsimp only [redirected]
    split
    · exact replays_getNullModule _
    · exact hstrategies () _
    · exact hstrategies () _
  -- after the requiring package's replacement map
  have hafterAsset : ∀ u, Replays σ (afterAsset u) (afterAsset u) fun a b => b = σ a := by
    intro u
    dsimp only [afterAsset]
    refine .bind_settled (replays_packageFor m) (reads_packageFor m) fun pkg pkg' hpkg => ?_
    subst hpkg
    split
    · split
      · exact replays_getNullModule _
      · exact hredirected () _
      · exact hredirected () _
    · exact hredirected () _
  refine .ite (fun _ => .get_bind fun e₁ e₂ hS => ?_) fun _ => hafterAsset ()
  rw [hS.assets]
  split
  · exact replays_getAssetModule _
  · exact hafterAsset ()

end Request

end ModuleBundler
