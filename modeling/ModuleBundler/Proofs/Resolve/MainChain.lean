import ModuleBundler.Proofs.Engine.Detect
import ModuleBundler.Resolve.Resolver
import ModuleBundler.Engine.Packager
import ModuleBundler.Proofs.Evaluation
import Mathlib.Data.Finset.Card

/-!
# The chain of package mains

A directory stands for the file its `package.json` names as `main`, searched as a file and then as
a directory in turn, unless the `main` names the directory itself; else for its `index`.
`Request.mainStep` is one link of that chain as the engine's views say, and `Request.chainEnds`
whether the chain ends within a number of links. A directory search returns exactly when the chain
ends within its fuel, and fails with `mainChainError` otherwise
(`directory_search_returns_iff_chain_ends`); what it returns is a file the mirror has, if anything
(`AnswerExists`, `run_loadAsDir`).

The fuel never cuts a chain short when no root is detached: each link leads to the `main` of a
package the mirror holds, so a chain longer than the mirror has nodes passes through some
directory twice and goes round forever (`chainEnds_of_nodes_lt`). The load of a path then fails
exactly when no file stands for it and its chain never ends
(`loadFileOrDir_fails_iff_chain_never_ends`). The guard against a `main` naming its own directory
stops no longer cycle: two packages whose `main`s name each other make the load of either
directory fail, whatever the fuel (`package_mains_in_a_cycle_never_resolve`).
-/

namespace ModuleBundler

open EngineM

variable {c : Context} {e : Engine}

/-- A search through a list with a check that only reads the state answers what the pure search
answers, and leaves the state as it was. -/
theorem run_findSomeM?_of_pure {α β : Type} {f : α → EngineM (Option β)} {g : α → Option β}
    (hf : ∀ a, run (f a) c e = (.ok (g a), e)) :
    ∀ l : List α, run (l.findSomeM? f) c e = (.ok (l.findSome? g), e)
  | [] => rfl
  | a :: l => by
    rw [List.findSomeM?_cons, run_bind, hf, List.findSome?_cons]
    cases g a with
    | some b => rfl
    | none => exact run_findSomeM?_of_pure hf l

namespace Engine

/-- The module of a path, found or created, is the one the registry then keeps at the path's
normal form; nothing but the registry changes. -/
theorem run_getOrInsert (p : Path) (kind : Path → ModuleKind) :
    ∃ id r, run (getOrInsert p kind) c e = (.ok id, { e with registry := r }) ∧
      r.atPath? p.normalize = some id := by
  cases h : e.registry.atPath? p.normalize with
  | some id => exact ⟨id, e.registry, by simp [getOrInsert, h], h⟩
  | none =>
    -- a fresh module under the next number, and the path pointed at it
    refine ⟨e.registry.store.size,
      (e.registry.insert p.normalize (kind p.normalize)).2.setPath p.normalize
        e.registry.store.size,
      by simp [getOrInsert, h, modifyRegistry], ?_⟩
    simp [Registry.atPath?, Registry.setPath, Registry.insert, Registry.live?, Registry.record?]

/-- The module of a file, as an asset or as source, is the one the registry then keeps at the
file's path. -/
theorem run_moduleForFile (f : String) :
    ∃ id r, run (moduleForFile f) c e = (.ok id, { e with registry := r }) ∧
      r.atPath? (Path.ofString f).normalize = some id := by
  -- whether the file is an asset is read off the context alone
  obtain ⟨b, hb⟩ : ∃ b, run (isAssetName f) c e = (.ok b, e) := ⟨_, rfl⟩
  unfold moduleForFile
  rw [run_bind, hb]
  cases b with
  | true =>
    simp only [if_true, getAssetModule, run_bind, run_read]
    exact run_getOrInsert _ _
  | false =>
    simp only [Bool.false_eq_true, if_false, getModule]
    exact run_getOrInsert _ _

end Engine

namespace Vfs
variable {v w : Vfs} {D : Disk}

/-- Whether the mirror knows a directory depends on its shape only. -/
theorem SameShape.dirExists (h : SameShape v w) (q : Path) :
    w.dirExists D q = v.dirExists D q := by
  have hatt : w.attachedRoot? q.normalize = v.attachedRoot? q.normalize := by
    simp only [attachedRoot?, h.roots]
  have hdet : w.isDetached q.normalize = v.isDetached q.normalize := by
    simp only [isDetached, h.detached]
  unfold Vfs.dirExists
  dsimp only
  rw [hatt, hdet]
  split
  · cases hv : v.node? q.normalize with
    | none =>
      cases hw : w.node? q.normalize with
      | none => rfl
      | some x =>
        cases x with
        | dir cs => simp [(h.dir _ cs).1 hw] at hv
        | file d => rfl
    | some x =>
      cases x with
      | dir cs => rw [(h.dir _ cs).2 hv]
      | file d =>
        obtain ⟨d', hd'⟩ := (h.file _).2 ⟨d, hv⟩
        rw [hd']
  · rfl

/-- With no detached roots, a file the mirror has is one of its nodes. -/
theorem mem_nodes_of_fileExists {v : Vfs} {D : Disk} {p : Path} (hdet : v.detached = [])
    (h : v.fileExists D p = true) : ∃ x, (p.normalize, x) ∈ v.nodes := by
  unfold fileExists at h
  dsimp only at h
  split at h
  · split at h
    · rename_i d hd
      obtain ⟨⟨q, x⟩, hfind, hx⟩ := Option.map_eq_some_iff.1 hd
      have hq : q = p.normalize := by simpa using List.find?_some hfind
      exact ⟨x, hq ▸ List.mem_of_find?_eq_some hfind⟩
    · cases h
  · simp [isDetached, hdet] at h

end Vfs

namespace Request
variable (req : Request)

/-- The file a path stands for as a file, as the mirror says now. -/
def fileView (e : Engine) (path : String) : Option String :=
  if e.vfs.fileExists e.disk (Path.ofString path) then some path
  else req.suffixes.findSome? fun s =>
    if e.vfs.fileExists e.disk (Path.ofString (path ++ s)) then some (path ++ s) else none

theorem run_loadAsFile (path : String) :
    run (req.loadAsFile path) c e = (.ok (req.fileView e path), e) := by
  unfold loadAsFile fileView
  simp only [fileExists, run_bind, run_get, run_pure]
  split
  · rfl
  · exact run_findSomeM?_of_pure (fun s => by simp) _

/-- The directory a search through `dir` moves on to: the `main` of the directory's package, when
the directory exists and has a `package.json`, its `main` names another path, and no file stands
for that path. -/
def mainStep (e : Engine) (dir : String) : Option String :=
  if e.vfs.dirExists e.disk (Path.ofString dir) ∧
      e.vfs.fileExists e.disk (Path.ofString (joinText dir "package.json")) then
    let main := (e.packageView (Path.ofString (joinText dir "package.json")).normalize).main
    if (main != Path.ofString dir) = true ∧ req.fileView e main.toString = none then
      some main.toString
    else none
  else none

/-- Whether the chain of `main` directories from `dir` ends within `n` steps. -/
def chainEnds (e : Engine) : Nat → String → Bool
  | 0, _ => false
  | n + 1, dir =>
    match req.mainStep e dir with
    | none => true
    | some next => chainEnds e n next

variable {req}

theorem fileView_congr {e e' : Engine} (h : Engine.Keeps e e') (path : String) :
    req.fileView e' path = req.fileView e path := by
  simp only [fileView, h.disk, h.shape.fileExists]

theorem mainStep_congr {e e' : Engine} (h : Engine.Keeps e e') (dir : String) :
    req.mainStep e' dir = req.mainStep e dir := by
  simp only [mainStep, h.disk, h.shape.fileExists, h.shape.dirExists, h.packageView,
    fileView_congr h]

theorem chainEnds_congr {e e' : Engine} (h : Engine.Keeps e e') :
    ∀ n dir, req.chainEnds e' n dir = req.chainEnds e n dir
  | 0, _ => rfl
  | n + 1, dir => by
    simp only [chainEnds, mainStep_congr h]
    split
    · rfl
    · exact chainEnds_congr h n _

/-- An answer of a search names, if anything, a file the mirror has. -/
def AnswerExists (e : Engine) (f : Option String) : Prop :=
  ∀ x, f = some x → e.vfs.fileExists e.disk (Path.ofString x) = true

theorem answerExists_none (e : Engine) : AnswerExists e none := fun _ h => nomatch h

theorem answerExists_fileView (e : Engine) (path : String) :
    AnswerExists e (req.fileView e path) := by
  intro f h
  unfold fileView at h
  split at h
  · cases h
    assumption
  · obtain ⟨s, -, hs⟩ := List.exists_of_findSome?_eq_some h
    split at hs
    · cases hs
      assumption
    · cases hs

theorem AnswerExists.of_keeps {e e' : Engine} {f : Option String} (h : Engine.Keeps e e')
    (hf : AnswerExists e' f) : AnswerExists e f := fun x hx => by
  rw [← hf x hx, h.disk, h.shape.fileExists]

variable (req) in
/-- A search through a directory returns exactly when the chain of `main` directories from it ends
within the fuel, answering a file that exists, and fails with `mainChainError` otherwise; either way
the state it leaves differs from the one it started from by cache fills only. -/
theorem run_loadAsDir : ∀ (n : Nat) (dir : String) (e : Engine), ∃ e', Engine.Fills e e' ∧
    (req.chainEnds e n dir = true →
      ∃ f, run (req.loadAsDir n dir) c e = (.ok f, e') ∧ AnswerExists e f) ∧
    (req.chainEnds e n dir = false → run (req.loadAsDir n dir) c e = (.error mainChainError, e'))
  | 0, dir, e => ⟨e, .refl, by simp [chainEnds], fun _ => rfl⟩
  | n + 1, dir, e => by
    unfold loadAsDir
    cases hd : e.vfs.dirExists e.disk (Path.ofString dir) with
    | false =>
      -- no directory: the search ends here
      have hs : req.mainStep e dir = none := by simp [mainStep, hd]
      refine ⟨e, .refl, fun _ => ⟨none, ?_, answerExists_none e⟩,
        fun h => by simp [chainEnds, hs] at h⟩
      simp [dirExists, hd]
    | true =>
      have hindex := req.run_loadAsFile (c := c) (e := e) (joinText dir "index")
      cases hm : e.vfs.fileExists e.disk (Path.ofString (joinText dir "package.json")) with
      | false =>
        -- no package: the directory's index
        have hs : req.mainStep e dir = none := by simp [mainStep, hm]
        refine ⟨e, .refl, fun _ => ⟨req.fileView e (joinText dir "index"), ?_,
          answerExists_fileView e _⟩, fun h => by simp [chainEnds, hs] at h⟩
        simp [dirExists, fileExists, hd, hm, hindex]
      | true =>
        obtain ⟨e₁, hF₁, hpkg⟩ :=
          Engine.run_getPackage (c := c) (e := e) (Path.ofString (joinText dir "package.json"))
        simp only [run_bind, run_pure, dirExists, fileExists, run_get, hd, hm, Bool.not_true,
          Bool.false_eq_true, if_false, if_true, hpkg]
        have hK₁ := hF₁.keeps
        have hindex₁ := req.run_loadAsFile (c := c) (e := e₁) (joinText dir "index")
        generalize hmain : (e.packageView (Path.ofString (joinText dir "package.json")).normalize).main
          = main
        cases hne : (main != Path.ofString dir) with
        | false =>
          -- the package's main is the directory itself: its index
          have hs : req.mainStep e dir = none := by simp [mainStep, hd, hm, hmain, hne]
          refine ⟨e₁, hF₁, fun _ => ⟨req.fileView e₁ (joinText dir "index"), ?_,
            (answerExists_fileView e₁ _).of_keeps hK₁⟩, fun h => by simp [chainEnds, hs] at h⟩
          simp [hindex₁]
        | true =>
          have hfile := req.run_loadAsFile (c := c) (e := e₁) main.toString
          rw [fileView_congr hK₁] at hfile
          cases hf : req.fileView e main.toString with
          | some f =>
            -- the main is a file
            have hs : req.mainStep e dir = none := by simp [mainStep, hd, hm, hmain, hne, hf]
            refine ⟨e₁, hF₁, fun _ => ⟨some f, ?_, hf ▸ answerExists_fileView e _⟩,
              fun h => by simp [chainEnds, hs] at h⟩
            simp [hfile, hf]
          | none =>
            -- the main is searched as a directory in turn
            have hs : req.mainStep e dir = some main.toString := by
              simp [mainStep, hd, hm, hmain, hne, hf]
            have hends : req.chainEnds e (n + 1) dir = req.chainEnds e₁ n main.toString := by
              simp [chainEnds, hs, chainEnds_congr hK₁]
            obtain ⟨e₂, hF₂, hok, herr⟩ := run_loadAsDir n main.toString e₁
            have hindex₂ := req.run_loadAsFile (c := c) (e := e₂) (joinText dir "index")
            refine ⟨e₂, hF₁.trans hF₂, fun h => ?_, fun h => ?_⟩
            · obtain ⟨f', hf', hex⟩ := hok (hends ▸ h)
              cases f' with
              | some f => exact ⟨some f, by simp [hfile, hf, hf'], hex.of_keeps hK₁⟩
              | none =>
                exact ⟨req.fileView e₂ (joinText dir "index"), by simp [hfile, hf, hf', hindex₂],
                  (answerExists_fileView e₂ _).of_keeps (Engine.Fills.keeps (hF₁.trans hF₂))⟩
            · simp [hfile, hf, herr (hends ▸ h)]

/-- A directory search returns exactly when the chain of `main` directories from the directory ends
within the fuel; otherwise it fails with `mainChainError`. -/
theorem directory_search_returns_iff_chain_ends (n : Nat) (dir : String) :
    ((∃ f, (run (req.loadAsDir n dir) c e).1 = .ok f) ↔ req.chainEnds e n dir = true) ∧
    ((run (req.loadAsDir n dir) c e).1 = .error mainChainError ↔ req.chainEnds e n dir = false) := by
  obtain ⟨e', -, hok, herr⟩ := req.run_loadAsDir (c := c) n dir e
  cases h : req.chainEnds e n dir with
  | true =>
    obtain ⟨f, hf, -⟩ := hok h
    simp [hf]
  | false => simp [herr h]

/-- A set of directories each of whose `main` leads to another directory of the set is never left:
the chain from any of them does not end, however long it is followed. -/
theorem chainEnds_eq_false_of_closed {S : String → Prop}
    (hS : ∀ d, S d → ∃ d', req.mainStep e d = some d' ∧ S d') :
    ∀ n d, S d → req.chainEnds e n d = false
  | 0, _, _ => rfl
  | n + 1, d, hd => by
    obtain ⟨d', hstep, hd'⟩ := hS d hd
    simp only [chainEnds, hstep]
    exact chainEnds_eq_false_of_closed hS n d' hd'

/-- The fuel a load gives the directory search: more links than the mirror and the disk have
entries. -/
theorem run_dirFuel :
    run dirFuel c e = (.ok (e.vfs.nodes.length + e.disk.entries.length + 1 + Nat.pow 2 64), e) := by
  simp only [dirFuel, run_bind, run_get, run_pure]

/-- A path that no file stands for and whose chain of `main` directories never ends: the load
fails, whatever fuel the size of the engine gives the directory search. -/
theorem loadFileOrDir_fails_of_chain_never_ends (path : String) (hfile : req.fileView e path = none)
    (hchain : ∀ n, req.chainEnds e n path = false) :
    (run (req.loadFileOrDir path) c e).1 = .error mainChainError := by
  -- the fuel is kept abstract: only that the chain does not end within it matters
  obtain ⟨N, hN⟩ : ∃ N, run dirFuel c e = (.ok N, e) := ⟨_, run_dirFuel⟩
  obtain ⟨e', -, -, herr⟩ := req.run_loadAsDir (c := c) N path e
  unfold loadFileOrDir
  simp only [run_bind, run_loadAsFile, hfile, hN, herr (hchain N)]

/-! ## The fuel suffices -/

variable {dir : String}

variable (req) in
/-- One link of a chain of `main` directories, `none` once the chain has ended. -/
def chainNext (e : Engine) (o : Option String) : Option String := o.bind (req.mainStep e)

variable (req) in
/-- Where the chain of `main` directories from `dir` stands after `k` links. -/
def chainAt (e : Engine) (k : Nat) (dir : String) : Option String :=
  (req.chainNext e)^[k] (some dir)

theorem chainAt_zero : req.chainAt e 0 dir = some dir := rfl

theorem chainAt_succ (k : Nat) :
    req.chainAt e (k + 1) dir = (req.chainAt e k dir).bind (req.mainStep e) :=
  Function.iterate_succ_apply' _ k _

/-- Once the chain has ended it stays ended. -/
theorem iterate_chainNext_none (t : Nat) : (req.chainNext e)^[t] none = none :=
  Function.iterate_fixed rfl t

theorem chainAt_succ' (k : Nat) :
    req.chainAt e (k + 1) dir = (req.mainStep e dir).bind (req.chainAt e k) := by
  unfold chainAt
  rw [Function.iterate_succ_apply]
  change (req.chainNext e)^[k] (req.mainStep e dir) = _
  cases req.mainStep e dir with
  | none => exact iterate_chainNext_none k
  | some d => rfl

/-- The chain does not end within `n` links exactly when it still stands somewhere after `n`. -/
theorem chainEnds_eq_false_iff :
    ∀ n dir, req.chainEnds e n dir = false ↔ (req.chainAt e n dir).isSome
  | 0, dir => by simp [chainEnds, chainAt_zero]
  | n + 1, dir => by
    rw [chainAt_succ']
    cases h : req.mainStep e dir with
    | none => simp [chainEnds, h]
    | some d =>
      simp only [chainEnds, h, Option.bind_some]
      exact chainEnds_eq_false_iff n d

theorem chainAt_add (k t : Nat) :
    req.chainAt e (t + k) dir = (req.chainNext e)^[t] (req.chainAt e k dir) :=
  Function.iterate_add_apply _ t k _

/-- A chain that still stands after `m` links stood after fewer. -/
theorem chainAt_isSome_of_le {k m : Nat} (hkm : k ≤ m) (h : (req.chainAt e m dir).isSome) :
    (req.chainAt e k dir).isSome := by
  obtain ⟨t, rfl⟩ := Nat.exists_eq_add_of_le hkm
  rw [Nat.add_comm, chainAt_add] at h
  cases hk : req.chainAt e k dir with
  | none => rw [hk, iterate_chainNext_none] at h; exact h
  | some _ => rfl

/-- A chain that comes back to where it stood `j - i` links before goes round forever. -/
theorem chainAt_isSome_of_repeat {i j : Nat} (hij : i < j) (hj : (req.chainAt e j dir).isSome)
    (heq : req.chainAt e i dir = req.chainAt e j dir) : ∀ k, (req.chainAt e k dir).isSome := by
  intro k
  induction k using Nat.strong_induction_on with
  | _ k ih =>
    by_cases hk : k < j
    · exact chainAt_isSome_of_le hk.le hj
    · -- `j + t` links stand where `i + t` links stand
      obtain ⟨t, rfl⟩ := Nat.exists_eq_add_of_le (Nat.le_of_not_lt hk)
      have hshift : req.chainAt e (t + j) dir = req.chainAt e (t + i) dir := by
        rw [chainAt_add, chainAt_add, heq]
      rw [Nat.add_comm j t, hshift]
      exact ih (t + i) (by omega)

/-- The directories a link can lead to when no root is detached: the `main`s of the packages at
the nodes of the mirror. -/
def mainTargets (e : Engine) : List String :=
  e.vfs.nodes.map fun q => (e.packageView q.1).main.toString

theorem mem_mainTargets (hdet : e.vfs.detached = []) {d : String} (h : req.mainStep e dir = some d) :
    d ∈ mainTargets e := by
  unfold mainStep at h
  split at h
  · rename_i hc
    dsimp only at h
    split at h
    · cases h
      obtain ⟨x, hx⟩ := Vfs.mem_nodes_of_fileExists hdet hc.2
      exact List.mem_map.2 ⟨_, hx, rfl⟩
    · cases h
  · cases h

/-- With no detached roots, a chain that ends does so within one link more than the mirror has
nodes: a longer chain passes through some directory twice, and from there goes round forever. -/
theorem chainEnds_of_nodes_lt (hdet : e.vfs.detached = []) {n N : Nat} (hN : e.vfs.nodes.length < N)
    (h : req.chainEnds e n dir = true) : req.chainEnds e N dir = true := by
  by_contra hne
  have hsome : (req.chainAt e N dir).isSome :=
    (chainEnds_eq_false_iff N dir).1 (by simpa using hne)
  -- the links 1 … N lead to at most as many directories as the mirror has nodes
  have hmaps : Set.MapsTo (fun k => req.chainAt e k dir) (Finset.Icc 1 N)
      ((mainTargets e).map some).toFinset := by
    intro k hk
    obtain ⟨hk1, hkN⟩ := Finset.mem_Icc.1 hk
    obtain ⟨k', rfl⟩ := Nat.exists_eq_add_of_le' hk1
    obtain ⟨d, hd⟩ := Option.isSome_iff_exists.1 (chainAt_isSome_of_le hkN hsome)
    rw [chainAt_succ] at hd
    obtain ⟨d', -, hstep⟩ := Option.bind_eq_some_iff.1 hd
    simp only [Finset.mem_coe, List.mem_toFinset, List.mem_map]
    exact ⟨d, mem_mainTargets hdet hstep, by rw [chainAt_succ, hd]⟩
  have hcard : ((mainTargets e).map some).toFinset.card < (Finset.Icc 1 N).card := by
    calc ((mainTargets e).map some).toFinset.card
        ≤ ((mainTargets e).map some).length := List.toFinset_card_le _
      _ = e.vfs.nodes.length := by simp [mainTargets]
      _ < N := hN
      _ = (Finset.Icc 1 N).card := by simp
  obtain ⟨i, hi, j, hj, hij, heq⟩ := Finset.exists_ne_map_eq_of_card_lt_of_maps_to hcard hmaps
  have hiN := (Finset.mem_Icc.1 hi).2
  have hjN := (Finset.mem_Icc.1 hj).2
  -- the chain repeats, so it never ends
  have hrep : ∀ k, (req.chainAt e k dir).isSome := by
    rcases Nat.lt_or_gt_of_ne hij with hlt | hlt
    · exact chainAt_isSome_of_repeat hlt (chainAt_isSome_of_le hjN hsome) heq
    · exact chainAt_isSome_of_repeat hlt (chainAt_isSome_of_le hiN hsome) heq.symm
  have := (chainEnds_eq_false_iff n dir).2 (hrep n)
  rw [h] at this
  cases this

/-- With no detached roots the fuel of a load never cuts a chain short: the load of a path fails
with `mainChainError` exactly when no file stands for the path and its chain of `main`
directories never ends, that is, when the chain comes back to a directory it passed. -/
theorem loadFileOrDir_fails_iff_chain_never_ends (hdet : e.vfs.detached = []) (path : String) :
    (run (req.loadFileOrDir path) c e).1 = .error mainChainError ↔
      req.fileView e path = none ∧ ∀ n, req.chainEnds e n path = false := by
  constructor
  · intro h
    cases hv : req.fileView e path with
    | some f =>
      -- a file stands for the path: its module is taken
      obtain ⟨id, r, hrun, -⟩ := Engine.run_moduleForFile (c := c) (e := e) f
      simp only [loadFileOrDir, run_bind, run_loadAsFile, hv, run_pure, hrun, reduceCtorEq] at h
    | none =>
      refine ⟨rfl, fun n => ?_⟩
      cases hn : req.chainEnds e n path with
      | false => rfl
      | true =>
        -- the chain ends, so it ends within the fuel, and the search returns
        obtain ⟨N, hfuel, hlt⟩ : ∃ N, run dirFuel c e = (.ok N, e) ∧ e.vfs.nodes.length < N :=
          ⟨_, run_dirFuel,
            Nat.lt_of_lt_of_le (Nat.lt_succ_of_le (Nat.le_add_right _ _)) (Nat.le_add_right _ _)⟩
        obtain ⟨e₁, -, hok, -⟩ := req.run_loadAsDir (c := c) N path e
        obtain ⟨g, hg, -⟩ := hok (chainEnds_of_nodes_lt hdet hlt hn)
        cases g with
        | none =>
          simp only [loadFileOrDir, run_bind, run_loadAsFile, hv, hfuel, hg, run_pure,
            reduceCtorEq] at h
        | some x =>
          obtain ⟨id, r, hrun, -⟩ := Engine.run_moduleForFile (c := c) (e := e₁) x
          simp only [loadFileOrDir, run_bind, run_loadAsFile, hv, hfuel, hg, run_pure, hrun,
            reduceCtorEq] at h
  · rintro ⟨hfile, hchain⟩
    exact loadFileOrDir_fails_of_chain_never_ends path hfile hchain

/-- `a/package.json` names `../b` as its `main`, and `b` is a directory with an `index.js`: the
chain from `/w/a` ends after two links, so its load does not fail. -/
theorem chained_package_main_loads :
    let w : Path := ⟨[.root, .name "w"]⟩
    let D : Disk := ⟨[(w, .dir), (w.child "a", .dir),
      ((w.child "a").child "package.json", .file "\x7b\"main\": \"../b\"\x7d".toUTF8.toList 0),
      (w.child "b", .dir), ((w.child "b").child "index.js", .file [] 0)], 0, Disk.rootPath⟩
    let opts : PackagerOptions := { PackagerOptions.default with projectRoots := ["/w"] }
    let req : Request := ⟨some "ios", true⟩
    ∃ c e, startPackager opts .default .identity D = .ok (c, e) ∧ e.vfs.detached = [] ∧
      req.chainEnds e 2 "/w/a" = true ∧
      (run (req.loadFileOrDir "/w/a") c e).1 ≠ .error mainChainError := by
  intro w D opts req
  have h : ((startPackager opts .default .identity D).toOption.any fun r =>
      r.2.vfs.detached.isEmpty && req.chainEnds r.2 2 "/w/a") = true := by
    decide +kernel
  obtain ⟨⟨c, e⟩, hs, h⟩ := (Option.any_eq_true _ _).1 h
  simp only [Bool.and_eq_true, List.isEmpty_iff] at h
  obtain ⟨hdet, hends⟩ := h
  refine ⟨c, e, eq_ok_of_toOption hs, hdet, hends, fun hfail => ?_⟩
  have := ((loadFileOrDir_fails_iff_chain_never_ends (c := c) hdet "/w/a").1 hfail).2 2
  rw [hends] at this
  cases this

end Request

/-- Two packages whose `main`s name each other: `a/package.json` says `../b` and `b/package.json`
says `../a`. The guard against a `main` naming its own directory does not stop the search, which
goes round the pair: through `/w/a` it fails for every fuel, and so does the load of `/w/a`. -/
theorem package_mains_in_a_cycle_never_resolve :
    let w : Path := ⟨[.root, .name "w"]⟩
    let D : Disk := ⟨[(w, .dir), (w.child "a", .dir),
      ((w.child "a").child "package.json", .file "\x7b\"main\": \"../b\"\x7d".toUTF8.toList 0),
      (w.child "b", .dir),
      ((w.child "b").child "package.json", .file "\x7b\"main\": \"../a\"\x7d".toUTF8.toList 0)],
      0, Disk.rootPath⟩
    let opts : PackagerOptions := { PackagerOptions.default with projectRoots := ["/w"] }
    let req : Request := ⟨some "ios", true⟩
    ∃ c e, startPackager opts .default .identity D = .ok (c, e) ∧
      (∀ n, (run (req.loadAsDir n "/w/a") c e).1 = .error Request.mainChainError) ∧
      (run (req.loadFileOrDir "/w/a") c e).1 = .error Request.mainChainError := by
  intro w D opts req
  -- one evaluation of the start gives both steps of the cycle
  have h : ((startPackager opts .default .identity D).toOption.any fun r =>
      req.mainStep r.2 "/w/a" == some "/w/b" && req.mainStep r.2 "/w/b" == some "/w/a" &&
        req.fileView r.2 "/w/a" == none) = true := by
    decide +kernel
  obtain ⟨⟨c, e⟩, hs, h⟩ := (Option.any_eq_true _ _).1 h
  simp only [Bool.and_eq_true, beq_iff_eq] at h
  obtain ⟨⟨hab, hba⟩, hfile⟩ := h
  have hchain := req.chainEnds_eq_false_of_closed (e := e) (S := fun d => d = "/w/a" ∨ d = "/w/b")
    (by rintro d (rfl | rfl) <;> simp [hab, hba])
  refine ⟨c, e, eq_ok_of_toOption hs, fun n => ?_, ?_⟩
  · obtain ⟨e', -, -, herr⟩ := req.run_loadAsDir (c := c) n "/w/a" e
    rw [herr (hchain n _ (.inl rfl))]
  · exact Request.loadFileOrDir_fails_of_chain_never_ends "/w/a" hfile fun n => hchain n _ (.inl rfl)

end ModuleBundler
