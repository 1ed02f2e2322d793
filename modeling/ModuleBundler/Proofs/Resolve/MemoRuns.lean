import ModuleBundler.Proofs.Resolve.ChangeFrame
import ModuleBundler.Proofs.Registry.Incremental

/-!
# Memoised resolutions along a run of the engine

A running engine answers dependency queries through its memo of resolutions and takes the file
changes a watcher reports. Along a run that starts from a loaded project, takes changes that
report a file changed in place only for a file that was there (and is no root), and asks only
for entries in the roots, every memoised resolution is what resolution without the memo answers:
resolving a dependency through the memo answers as resolving it without the memo
(`Engine.resolveDependency_eq_uncached`).

The invariant is `Engine.Steady`: a sound state (`Engine.Sound`) whose mirror is exact for its
disk with sorted listings, and whose name index is well formed. A change either forgets the memo
or is made in place, where the lemmas of `ChangeFrame` carry each memoised resolution over; every
other part of a change keeps the state settled (`Engine.graphChange_calm`). A query keeps the
invariant by `graphDependencies_sound`.

A change reported for a file the engine had not seen keeps the memo while resolution may now
find that file; the run lemma leaves such changes out.
-/

namespace ModuleBundler

open EngineM

namespace Engine

variable {c : Context} {e : Engine} {D' : Disk}

/-- Forgetting every memoised resolution keeps a state settled. -/
theorem Settled.cleared (hS : e.Settled) :
    ({ e with registry := { e.registry with resolved := [], dependers := [] } } : Engine).Settled :=
  ⟨hS.detached, hS.typed, Registry.indexed_cleared _, hS.placed.congr rfl (fun _ => rfl) rfl rfl,
    hS.packages⟩

/-- An empty memo is coherent. -/
theorem coherent_of_nil (h : e.registry.resolved = []) : e.Coherent c := fun key i hk => by
  rw [h] at hk
  cases hk

/-- A change that adds or deletes a file forgets the memo. -/
theorem resolved_registryChange {fc : FileChange} (hk : fc.kind ≠ .change) :
    (run (registryChange fc) c e).2.registry.resolved = [] := by
  simp only [registryChange, run_bind, run_modify, run_get, modifyRegistry, if_neg hk]

/-- A disk that holds what the old one held at every file of the mirror leaves the route of
resolution as it was. -/
theorem sameRoute_disk (hS : e.Settled) (hM : Vfs.Mirrors e.disk e.vfs) (hD' : D'.WellFormed)
    (hdisk : ∀ q d, e.vfs.node? q = some (.file d) → D'.find? q = e.disk.find? q) :
    e.SameRoute { e with disk := D' } := by
  refine ⟨.refl _, hS.detached, fun _ _ => rfl, fun q _ => packageView_congr rfl ?_, hS.typed⟩
  refine readView_congr rfl hS.detached hS.detached rfl fun d hd => ?_
  obtain ⟨b, m, hbm⟩ := hM.find?_of_listed (hM.files _ d hd)
  exact Disk.readLossy_congr hM.disk hD' hbm (hdisk _ d hd)

/-- A disk that holds what the old one held at every file of the mirror keeps a sound state
sound. -/
theorem Sound.disk (hS : e.Sound c) (hM : Vfs.Mirrors e.disk e.vfs) (hD' : D'.WellFormed)
    (hdisk : ∀ q d, e.vfs.node? q = some (.file d) → D'.find? q = e.disk.find? q) :
    ({ e with disk := D' } : Engine).Sound c where
  toSettled := ⟨hS.detached, hS.typed, hS.indexed, hS.placed, hS.packages⟩
  coherent key i hk := (hS.coherent key i hk).rename (σ := id)
    (sameRoute_disk hS.toSettled hM hD' hdisk) ⟨fun _ _ h => h, fun _ _ h => h⟩
    fun rec hrec => ⟨rec, hrec, rfl⟩

/-- What every part of a change keeps, from the state the mirror's half of the change left: a
settled state with a well-formed index, over the disk `D`, with a mirror of the shape of `v`, and
a memo that is empty or `r₀`, the one the registry's half left. -/
structure Calm (D : Disk) (v : Vfs) (r₀ : List (ResolutionKey × Nat)) (e : Engine) : Prop where
  settled : e.Settled
  index : e.haste.WellFormed
  disk : e.disk = D
  shape : Vfs.SameShape v e.vfs
  memo : e.registry.resolved = [] ∨ e.registry.resolved = r₀

end Engine

/-! ## Operations that keep a property of the state -/

/-- An operation that keeps `P`, whether it succeeds or fails. -/
def Upholds {α : Type} (P : Engine → Prop) (x : EngineM α) : Prop :=
  ∀ c e, P e → P (run x c e).2

namespace Upholds

variable {α β γ : Type} {P : Engine → Prop}

theorem of_state {x : EngineM α} (h : ∀ c e, (run x c e).2 = e) : Upholds P x :=
  fun c e hP => (h c e).symm ▸ hP

theorem pure (a : α) : Upholds P (Pure.pure a : EngineM α) := of_state fun _ _ => rfl

theorem get : Upholds P (MonadState.get : EngineM Engine) := of_state fun _ _ => rfl

theorem update {f : Engine → Engine} (h : ∀ e, P e → P (f e)) :
    Upholds P (modify f : EngineM Unit) :=
  fun _ e hP => h e hP

theorem bind {x : EngineM β} {f : β → EngineM α} (hx : Upholds P x) (hf : ∀ a, Upholds P (f a)) :
    Upholds P (x >>= f) := by
  intro c e hP
  have h₁ := hx c e hP
  rw [run_bind]
  rcases hrun : run x c e with ⟨err | a, e₁⟩ <;> rw [hrun] at h₁
  · exact h₁
  · exact hf a c e₁ h₁

theorem attempt {x : EngineM α} (hx : Upholds P x) : Upholds P (EngineM.attempt x) := by
  intro c e hP
  have h₁ := hx c e hP
  rw [run_attempt]
  rcases hrun : run x c e with ⟨err | a, e₁⟩ <;> rw [hrun] at h₁ <;> exact h₁

theorem ite {p : Prop} [Decidable p] {x y : EngineM α} (hx : Upholds P x) (hy : Upholds P y) :
    Upholds P (if p then x else y) := by
  split
  · exact hx
  · exact hy

theorem forIn_list {f : γ → β → EngineM (ForInStep β)} (hf : ∀ a b, Upholds P (f a b)) :
    ∀ (l : List γ) (b : β), Upholds P (forIn l b f)
  | [], b => pure b
  | a :: l, b => by
    rw [List.forIn_cons]
    refine bind (hf a b) fun step => ?_
    cases step with
    | done y => exact pure y
    | yield y => exact forIn_list hf l y

end Upholds

/-! ## The index half of a change -/

section IndexHalf

variable {D : Disk} {v : Vfs} {r₀ : List (ResolutionKey × Nat)}

/-- A step that memoises nothing keeps what a change keeps. -/
theorem Learns.calm {α : Type} {x : EngineM α} (h : Learns x) : Upholds (Engine.Calm D v r₀) x := by
  intro c e hP
  obtain ⟨hS, hm, hres⟩ := h c e hP.settled
  exact ⟨hS, hm.sight.haste ▸ hP.index, hm.sight.disk.trans hP.disk,
    hP.shape.trans hm.sight.shape, hres ▸ hP.memo⟩

theorem upholds_hasteChange (fc : FileChange) : Upholds (Engine.Calm D v r₀) (hasteChange fc) := by
  intro c e hP
  obtain ⟨e₁, h', hm, hS₁, hres, hrun, hh', ht', -, -⟩ := Engine.hasteChange_moves (c := c) hP.settled
    hP.index fc
  rw [hrun]
  exact ⟨hS₁.withHaste ht', hh', hm.sight.disk.trans hP.disk, hP.shape.trans hm.sight.shape,
    hres ▸ hP.memo⟩

/-- Raising the index's error flag keeps what a change keeps. -/
theorem Engine.Calm.flagUp {e : Engine} (hP : Engine.Calm D v r₀ e) :
    Engine.Calm D v r₀ { e with hasteError := true } :=
  ⟨⟨hP.settled.detached, hP.settled.typed, hP.settled.indexed, hP.settled.placed,
    hP.settled.packages⟩, hP.index, hP.disk, hP.shape, hP.memo⟩

theorem upholds_clearResolutions : Upholds (Engine.Calm D v r₀) clearResolutions :=
  fun _ _ hP => ⟨hP.settled.cleared, hP.index, hP.disk, hP.shape, .inl rfl⟩

/-- The end of every change: the memo is forgotten when the change asks for it. -/
theorem upholds_clearIf {p : Prop} [Decidable p] (a : α) :
    Upholds (Engine.Calm D v r₀) (if p then clearResolutions >>= fun _ => pure a else pure a) :=
  .ite (.bind upholds_clearResolutions fun _ => .pure a) (.pure a)

/-- A scan of the index whose result, when it has one, becomes the index. -/
theorem upholds_rebuild {α : Type} {f : Except Error HasteMap → EngineM α}
    (hok : ∀ h : HasteMap, h.WellFormed → h.Typed → Upholds (Engine.Calm D v r₀) (f (.ok h)))
    (herr : ∀ err, Upholds (Engine.Calm D v r₀) (f (.error err))) :
    Upholds (Engine.Calm D v r₀) (EngineM.attempt buildHasteMap >>= f) := by
  intro c e hP
  have h₁ := (Engine.learns_buildHasteMap.calm : Upholds (Engine.Calm D v r₀) _) c e hP
  rw [run_bind, run_attempt]
  rcases hrun : run buildHasteMap c e with ⟨err | h, e₁⟩ <;> rw [hrun] at h₁
  · exact herr err c e₁ h₁
  · obtain ⟨hh, ht, -⟩ := Engine.buildHasteMap_typed hP.settled (by rw [hrun])
    exact hok h hh ht c e₁ h₁

end IndexHalf

/-! ## One change -/

namespace Engine

variable {c : Context} {e : Engine}

/-- The registry half of a change, file by file, from a settled state: the state stays settled,
with the disk, mirror and index it had, and forgets the memo once a file is added or deleted. -/
theorem run_forIn_registryChange_settled : ∀ (l : List FileChange) (e : Engine), e.Settled →
    ∃ e', run (forIn l PUnit.unit fun fc _ => do
        registryChange fc
        pure (ForInStep.yield PUnit.unit)) c e = (.ok ⟨⟩, e') ∧
      e'.Settled ∧ e'.disk = e.disk ∧ e'.vfs = e.vfs ∧ e'.haste = e.haste ∧
      e'.hasteError = e.hasteError ∧
      ((∀ fc ∈ l, fc.kind ≠ .change) → e'.registry.resolved = [] ∨ l = [] ∧ e' = e)
  | [], e, hS => ⟨e, rfl, hS, rfl, rfl, rfl, rfl, fun _ => .inr ⟨rfl, rfl⟩⟩
  | fc :: l, e, hS => by
    obtain ⟨e₁, hrun₁, hd₁, hv₁, hh₁, herr₁⟩ : ∃ e₁, run (registryChange fc) c e = (.ok (), e₁) ∧
        e₁.disk = e.disk ∧ e₁.vfs = e.vfs ∧ e₁.haste = e.haste ∧ e₁.hasteError = e.hasteError :=
      ⟨_, run_registryChange_state fc, rfl, rfl, rfl, rfl⟩
    have hS₁ := settled_registryChange (c := c) hS fc
    have hfirst : fc.kind ≠ .change → (run (registryChange fc) c e).2.registry.resolved = [] :=
      resolved_registryChange
    rw [hrun₁] at hS₁ hfirst
    obtain ⟨e', hrun, hS', hd, hv, hh, herr, hnil⟩ := run_forIn_registryChange_settled l e₁ hS₁
    refine ⟨e', ?_, hS', hd.trans hd₁, hv.trans hv₁, hh.trans hh₁, herr.trans herr₁,
      fun hk => .inl ?_⟩
    · simp only [List.forIn_cons, run_bind, hrun₁, run_pure, hrun]
    · -- the first file already forgot the memo, and the rest keep it forgotten
      rcases hnil fun fc' h => hk fc' (List.mem_cons_of_mem _ h) with h | ⟨-, rfl⟩
      · exact h
      · exact hfirst (hk fc (List.mem_cons_self ..))

/-- A change the mirror takes, from a settled state with a well-formed index: the engine ends
settled with a well-formed index, over its disk, with a mirror of the shape the change gave and
a memo that is empty or the one the registry's half left, empty when the change adds or deletes
a file. -/
theorem graphChange_calm {ev : WatchEvent} {change : FileChange} {v₁ : Vfs} (hS : e.Settled)
    (hW : e.haste.WellFormed) (hd : v₁.detached = [])
    (hr : e.vfs.processChange e.disk ev.kind ev.root ev.relative = (some change, v₁)) :
    ∃ r₀, Calm e.disk v₁ r₀ (run (graphChange ev) c e).2 ∧ (change.kind ≠ .change → r₀ = []) := by
  simp only [graphChange, run_bind, run_get, run_modify, hr]
  obtain ⟨e₂, hrun₂, hS₂, hd₂, hv₂, hh₂, -, hnil⟩ := run_forIn_registryChange_settled (c := c) _
    { e with vfs := v₁ } ⟨hd, hS.typed, hS.indexed, hS.placed, hS.packages⟩
  rw [hrun₂]
  dsimp only
  refine ⟨e₂.registry.resolved, (show Upholds (Calm e.disk v₁ e₂.registry.resolved) _ from ?_) c e₂
    ⟨hS₂, hh₂ ▸ hW, hd₂, hv₂ ▸ .refl _, .inr rfl⟩, fun hk => ?_⟩
  · -- after the registry: the index is rebuilt or stepped, and the memo may be forgotten
    refine .ite ?_ ?_
    · refine upholds_rebuild (fun h hh ht => ?_) fun err => ?_
      · refine .bind (.update fun e hP => ⟨⟨hP.settled.detached, ht, hP.settled.indexed,
          hP.settled.placed, hP.settled.packages⟩, hh, hP.disk, hP.shape, hP.memo⟩) fun _ => ?_
        exact .bind (.pure _) fun b => upholds_clearIf _
      · exact .bind (.pure _) fun b => upholds_clearIf _
    · refine .bind (.forIn_list (fun fc acc => .bind (upholds_hasteChange fc).attempt fun r => ?_) _ _)
        fun acc => .bind (.pure _) fun b => upholds_clearIf _
      rcases r with err | b
      · exact .bind (.update fun _ hP => hP.flagUp) fun _ => .pure _
      · exact .pure _
  · -- every file of a change not made in place is added or deleted, and there is one at least
    have hmem : ∀ (l : List Path) fc, fc ∈ (if l.isEmpty = true then [change]
        else l.map fun p => (⟨.delete, p⟩ : FileChange)) → fc.kind ≠ .change := by
      intro l fc hfc
      cases l with
      | nil => rw [List.mem_singleton.1 hfc]; exact hk
      | cons q l =>
        obtain ⟨q, -, rfl⟩ := List.mem_map.1 hfc
        simp
    have hne : ∀ l : List Path, (if l.isEmpty = true then [change]
        else l.map fun p => (⟨.delete, p⟩ : FileChange)) ≠ [] := by
      intro l
      cases l <;> simp
    rcases hnil (hmem _) with h | ⟨hl, -⟩
    · exact h
    · exact absurd hl (hne _)

/-- A state that moves as a query does from a state with another index, and ends with an index
of the same slots as the first, is on the route of the first. -/
theorem sameRoute_of_moves {e₀ e₁ : Engine} {h₀ h' : HasteMap} (hS : e₀.Settled)
    (hm : Moves { e₀ with haste := h₀ } e₁) (hd : e₁.vfs.detached = [])
    (hslot : ∀ n pl, h'.slot n pl = e₀.haste.slot n pl) :
    e₀.SameRoute { e₁ with haste := h' } where
  tree := hm.sight.shape.sameTree
  detached := hd
  haste := hslot
  packages q _ := hm.sight.packageView q
  typed := hS.typed

/-- A coherent memo stays coherent through a step that moves as a query does from the state with
another index, memoises nothing, and ends with an index of the same slots. -/
theorem Coherent.of_moves {e₀ e₁ : Engine} {h₀ h' : HasteMap} (hC : e₀.Coherent c)
    (hS : e₀.Settled) (hm : Moves { e₀ with haste := h₀ } e₁) (hd : e₁.vfs.detached = [])
    (hres : e₁.registry.resolved = e₀.registry.resolved)
    (hslot : ∀ n pl, h'.slot n pl = e₀.haste.slot n pl) :
    ({ e₁ with haste := h' } : Engine).Coherent c := fun key i hk =>
  (hC key i (hres ▸ hk)).rename (σ := id) (sameRoute_of_moves hS hm hd hslot)
    ⟨hm.covers.atPath, hm.covers.nulls⟩ fun rec hrec => (hm.record _ rec hrec).imp fun _ h => ⟨h.1, h.2.1⟩

/-- A file other than a root, changed in place on the disk and reported as changed, keeps a
coherent memo coherent, from a sound state with an exact mirror of sorted listings and a
well-formed index: unless the memo is forgotten, the file kept its module's place, the route of
resolution, and its slots in the index. -/
theorem coherent_graphChange_change {ev : WatchEvent} {p : Path} {D' : Disk} (hS : e.Sound c)
    (hW : e.haste.WellFormed) (hM : Vfs.Mirrors e.disk e.vfs) (hsort : e.vfs.SortedDirs)
    (hM' : Vfs.Mirrors D' ((e.vfs.removeNode p).insertFile p)) (hp : p.IsNormal)
    (hp0 : p ≠ Disk.rootPath) (hroot : p ∉ e.vfs.roots) {d : FileNode}
    (hd : e.vfs.node? p = some (.file d)) (hdisk : ∀ q, q ≠ p → D'.find? q = e.disk.find? q)
    (hk : ev.kind = .change)
    (hr : e.vfs.processChange D' ev.kind ev.root ev.relative =
      (some ⟨.change, p⟩, (e.vfs.removeNode p).insertFile p)) :
    (run (graphChange ev) c { e with disk := D' }).2.Coherent c := by
  rw [hk] at hr
  simp only [graphChange, run_bind, run_get, run_modify, hr, hk, reduceCtorEq, if_false,
    List.isEmpty_nil, if_true, List.forIn_cons, List.forIn_nil]
  -- the registry half, which keeps the memo coherent
  have hdet : ((e.vfs.removeNode p).insertFile p).detached = [] :=
    (Vfs.insertFile_detached _ _).trans ((Vfs.removeNode_detached _ _).trans hS.detached)
  obtain ⟨e₂, hrun₂, hh₂, herr₂⟩ : ∃ e₂, run (registryChange ⟨.change, p⟩) c
      { e with disk := D', vfs := (e.vfs.removeNode p).insertFile p } = (.ok (), e₂) ∧
      e₂.haste = e.haste ∧ e₂.hasteError = e.hasteError :=
    ⟨_, run_registryChange_state _, rfl, rfl⟩
  have hS₂ := settled_registryChange (c := c)
    (e := { e with disk := D', vfs := (e.vfs.removeNode p).insertFile p })
    ⟨hdet, hS.typed, hS.indexed, hS.placed, hS.packages⟩ ⟨.change, p⟩
  rw [hrun₂] at hS₂
  simp only [hrun₂, run_pure]
  -- a package file forgets the memo, and so does any change of the index
  by_cases hpkg : p.fileName? = some "package.json"
  · have hany : ([⟨.change, p⟩] : List FileChange).any
        (fun fc => decide (fc.path.fileName? = some "package.json")) = true := by simp [hpkg]
    simp only [hany, Bool.or_true, if_true]
    split
    · simp only [run_bind, run_attempt]
      rcases run buildHasteMap c e₂ with ⟨_ | h, e₃⟩ <;>
        simp only [run_modify, run_pure, clearResolutions, modifyRegistry, run_bind] <;>
        exact coherent_of_nil rfl
    · simp only [run_bind, run_attempt]
      rcases run (hasteChange ⟨.change, p⟩) c e₂ with ⟨_ | b, e₃⟩ <;>
        simp only [run_modify, run_pure, clearResolutions, modifyRegistry, run_bind] <;>
        exact coherent_of_nil rfl
  have hC₂ : e₂.Coherent c := by
    have hroute : e.SameRoute (run (registryChange ⟨.change, p⟩) c
        { e with disk := D', vfs := (e.vfs.removeNode p).insertFile p }).2 :=
      sameRoute_change hS.toSettled hM hsort hM' hp hp0 hroot hd hdisk hpkg rfl
    have h : (run (registryChange ⟨.change, p⟩) c
        { e with disk := D', vfs := (e.vfs.removeNode p).insertFile p }).2.Coherent c :=
      coherent_registryChange hS.coherent hS.toSettled rfl rfl hroute
    rwa [hrun₂] at h
  have hany : ([⟨.change, p⟩] : List FileChange).any
      (fun fc => decide (fc.path.fileName? = some "package.json")) = false := by simp [hpkg]
  simp only [hany, Bool.or_false]
  split
  · -- a rebuilt index counts as changed
    simp only [run_bind, run_attempt]
    rcases run buildHasteMap c e₂ with ⟨_ | h, e₃⟩ <;>
      simp only [run_modify, run_pure, clearResolutions, modifyRegistry, run_bind, if_true] <;>
      exact coherent_of_nil rfl
  -- the index half: unless the file's slots changed, the memo stays, coherent
  obtain ⟨e₄, h', hm, hS₄, hres, hrun, -, -, hslot, -⟩ := hasteChange_moves (c := c) hS₂
    (hh₂ ▸ hW) ⟨.change, p⟩
  simp only [run_bind, run_attempt]
  rcases hh : run (hasteChange ⟨.change, p⟩) c e₂ with ⟨_ | b, e₃⟩ <;> rw [hh] at hrun hslot
  · simp only [run_modify, run_pure, clearResolutions, modifyRegistry, run_bind, if_true]
    exact coherent_of_nil rfl
  cases b
  · simp only [run_pure, Bool.false_or, Bool.false_eq_true, if_false]
    dsimp only at hrun
    rw [hrun]
    exact hC₂.of_moves hS₂ hm hS₄.detached hres (hslot rfl rfl hp hpkg)
  · simp only [run_pure, clearResolutions, modifyRegistry, run_bind, Bool.false_or, if_true,
      run_modify]
    exact coherent_of_nil rfl

/-! ## Watched changes -/

/-- What the engine keeps along a run of queries and watched changes: a sound state, a mirror
exact for its disk with sorted listings, and a well-formed index. -/
structure Steady (c : Context) (e : Engine) : Prop extends e.Sound c where
  mirrors : Vfs.Mirrors e.disk e.vfs
  sorted : e.vfs.SortedDirs
  index : e.haste.WellFormed

/-- The changes after which the memo stays true: a change reported as made in place names a
file that was on the disk, and no root; a removed directory holds no root strictly inside. The
second is what keeps the mirror exact for its disk (`Steady.mirrors`), on which every step of the
argument reads the disk through the mirror: a removed directory with a root inside leaves that
root's files in the mirror (`mirror_keeps_files_of_removed_inner_root`). -/
def MemoSafe (e : Engine) (_ : Disk) (fc : FileChange) : Prop :=
  (fc.kind = .change → fc.path ∉ e.vfs.roots ∧ ∃ b m, e.disk.find? fc.path = some (.file b m)) ∧
    (e.disk.find? fc.path = some .dir → Vfs.HoldsNoInnerRoot e.vfs.roots fc.path)

/-- A change reported after the disk became `D'` keeps a state steady when the mirror the change
gives is exact for `D'`, when a change the mirror drops leaves every file of the mirror as it
was on the disk, and when a change reported as made in place keeps the memo coherent. -/
theorem steady_graphChange {ev : WatchEvent} {p : Path} (h : e.Steady c)
    (hev : (ev.root.join ev.relative).normalize = p)
    (hM' : Vfs.Mirrors D' (e.vfs.processChange D' ev.kind ev.root ev.relative).2)
    (hdrop : (e.vfs.processChange D' ev.kind ev.root ev.relative).1 = none →
      ∀ q d, e.vfs.node? q = some (.file d) → D'.find? q = e.disk.find? q)
    (hplace : ev.kind = .change → (e.vfs.processChange D' ev.kind ev.root ev.relative).1 ≠ none →
      (run (graphChange ev) c { e with disk := D' }).2.Coherent c) :
    (run (graphChange ev) c { e with disk := D' }).2.Steady c := by
  have hsort := h.sorted.processChange D' ev.kind ev.root ev.relative
  have hdet := Vfs.processChange_detached e.vfs D' ev.kind ev.root ev.relative
  rcases hr : e.vfs.processChange D' ev.kind ev.root ev.relative with ⟨_ | change, v₁⟩ <;>
    rw [hr] at hM' hsort hdet hdrop hplace
  · -- dropped: only the disk changed, away from every file of the mirror
    have hv : v₁ = e.vfs := by
      have h₁ := (Vfs.processChange_eq_none hev (by rw [hr])).2
      rwa [hr] at h₁
    subst hv
    rw [run_graphChange_dropped (e := { e with disk := D' }) hr]
    exact ⟨h.toSound.disk h.mirrors hM'.disk (hdrop rfl), hM', h.sorted, h.index⟩
  · obtain ⟨r₀, hcalm, hnil⟩ := graphChange_calm (c := c) (e := { e with disk := D' })
      ⟨h.detached, h.typed, h.indexed, h.placed, h.packages⟩ h.index (hdet.trans h.detached) hr
    have hkind : change.kind = ev.kind := by
      have hch : (e.vfs.processChange D' ev.kind ev.root ev.relative).1 = some change := by
        rw [hr]
      rw [(Vfs.processChange_eq_some hev hch).2]
    refine ⟨⟨hcalm.settled, ?_⟩, by rw [hcalm.disk]; exact hM'.of_sameShape hcalm.shape,
      hsort.sameShape hcalm.shape, hcalm.index⟩
    by_cases hkc : ev.kind = .change
    · exact hplace hkc (by simp)
    · -- a change that adds or deletes a file forgets the memo
      rcases hcalm.memo with hm | hm
      · exact coherent_of_nil hm
      · exact coherent_of_nil (hm.trans (hnil (hkind ▸ hkc)))

/-- A file written, and reported as added or changed, keeps a state steady when a change
reported as made in place is one `MemoSafe` allows. -/
theorem Steady.write {p : Path} {ev : WatchEvent} (h : e.Steady c) (bytes : List UInt8)
    (mtime : Nat) (hp : p.IsNormal) (hp0 : p ≠ Disk.rootPath)
    (hpar : ∀ q, p.parent? = some q → e.disk.find? q = some .dir) (hnd : e.disk.find? p ≠ some .dir)
    (hk : ev.kind ≠ .delete) (hev : (ev.root.join ev.relative).normalize = p)
    (hok : MemoSafe e (e.disk.put p (.file bytes mtime)) ⟨ev.kind, p⟩) :
    (run (graphChange ev) c { e with disk := e.disk.put p (.file bytes mtime) }).2.Steady c := by
  have hM' := h.mirrors.write hp hp0 hpar hnd hk hev bytes mtime
  have hD' := hM'.disk
  have hfind : ∀ q, q ≠ p → (e.disk.put p (.file bytes mtime)).find? q = e.disk.find? q :=
    fun q hq => by rw [Disk.find?_put hp0, if_neg hq]
  have hfile : (e.disk.put p (.file bytes mtime)).isFile p = true :=
    (hD'.isFile_iff hp).2 ⟨bytes, mtime, by rw [Disk.find?_put hp0, if_pos rfl]⟩
  refine steady_graphChange h hev hM' (fun hnone q d hq => ?_) fun hkc hsome => ?_
  · -- a dropped change: the written file was no file of the mirror
    by_cases hqp : q = p
    · subst hqp
      have hL := h.mirrors.files q d hq
      exact absurd (Vfs.accepts_of_listed hD' ⟨hL.1, hL.2.1, hfile, hL.2.2.2⟩)
        (Vfs.processChange_eq_none hev hnone).1
    · exact hfind q hqp
  -- a change made in place: the file was a file of the mirror, and the mirror records it again
  obtain ⟨hroot, b, m, hbm⟩ := hok.1 hkc
  obtain ⟨change, hch⟩ := Option.ne_none_iff_exists'.1 hsome
  obtain ⟨hacc, rfl⟩ := Vfs.processChange_eq_some hev hch
  have hnd' : e.disk.isDir p = false := Bool.eq_false_iff.2 fun hdir => by
    rw [(h.mirrors.disk.isDir_iff hp).1 hdir] at hbm
    cases hbm
  obtain ⟨d, hd⟩ := h.mirrors.complete p ⟨hp, hacc.2.2.1, (h.mirrors.disk.isFile_iff hp).2 ⟨b, m, hbm⟩,
    hacc.2.2.2.resolve_left fun hdir => hdir.elim fun cs hcs =>
      h.mirrors.no_dir_node hacc.2.1 hacc.2.2.1 hnd' cs hcs,
    hacc.2.1⟩
  have hv : (e.vfs.processChange (e.disk.put p (.file bytes mtime)) ev.kind ev.root ev.relative).2 =
      (e.vfs.removeNode p).insertFile p := by
    rw [Vfs.processChange_of_accepts hev hacc, hkc]
    simp [hfile]
  rw [hv] at hM'
  exact coherent_graphChange_change h.toSound h.index h.mirrors h.sorted hM' hp hp0 hroot hd hfind
    hkc (Prod.ext (by rw [hch, hkc]) hv)

/-- A new directory keeps a state steady: no file of the mirror stood where it stands. -/
theorem Steady.mkdir {d : Path} (h : e.Steady c) (hd : d.IsNormal) (hd0 : d ≠ Disk.rootPath)
    (hpar : ∀ q, d.parent? = some q → e.disk.find? q = some .dir) (hnone : e.disk.find? d = none) :
    ({ e with disk := e.disk.put d .dir } : Engine).Steady c := by
  have hM' := h.mirrors.mkdir hd hd0 hpar hnone
  refine ⟨h.toSound.disk h.mirrors hM'.disk fun q x hq => ?_, hM', h.sorted, h.index⟩
  obtain ⟨b, m, hbm⟩ := h.mirrors.find?_of_listed (h.mirrors.files q x hq)
  have hqd : q ≠ d := by
    rintro rfl
    rw [hnone] at hbm
    cases hbm
  rw [Disk.find?_put hd0, if_neg hqd]

/-- A removal, reported as one deletion, keeps a state steady when it holds no root strictly
inside: it forgets the memo, or it is dropped, and then removed no file of the mirror. -/
theorem Steady.remove {p : Path} {x : DiskEntry} {ev : WatchEvent} (h : e.Steady c)
    (he : e.disk.find? p = some x) (hp0 : p ≠ Disk.rootPath) (hk : ev.kind = .delete)
    (hev : (ev.root.join ev.relative).normalize = p)
    (hok : MemoSafe e (e.disk.removeAll p) ⟨.delete, p⟩) :
    (run (graphChange ev) c { e with disk := e.disk.removeAll p }).2.Steady c := by
  have hp := h.mirrors.disk.isNormal_of_find? he
  have hinner : Vfs.HoldsNoInnerRoot e.vfs.roots p := by
    cases x with
    | file b m => exact h.mirrors.holdsNoInnerRoot hp (by simp [he])
    | dir => exact hok.2 he
  have hM' := h.mirrors.remove he hp0 hinner hev
  rw [← hk] at hM'
  refine steady_graphChange h hev hM' (fun hnone q d hq => ?_) fun hkc => absurd (hkc.symm.trans hk) (by simp)
  -- a dropped removal left the mirror, exact for the new disk, so its files were not removed
  rw [(Vfs.processChange_eq_none hev hnone).2] at hM'
  obtain ⟨b, m, hbm⟩ := hM'.find?_of_listed (hM'.files q d hq)
  rw [Disk.find?_removeAll hp] at hbm ⊢
  split at hbm
  · cases hbm
  · rw [if_neg ‹_›]

/-- Every change a watcher reports that `MemoSafe` allows keeps a state steady. -/
theorem Steady.watched (h : e.Steady c) {e' : Engine} (hw : Watched c MemoSafe e e') :
    e'.Steady c := by
  cases hw with
  | write bytes mtime hp hp0 hpar hnd hk hev hok =>
    exact h.write bytes mtime hp hp0 hpar hnd hk hev hok
  | mkdir hd hd0 hpar hnone => exact h.mkdir hd hd0 hpar hnone
  | remove he hp0 hk hev hok => exact h.remove he hp0 hk hev hok

/-- A dependency query for an entry in the roots keeps a state steady. -/
theorem Steady.query (h : e.Steady c) {entry : String} (hentry : e.EntryInRoots entry)
    (platform : Option String) : (run (graphDependencies entry platform) c e).2.Steady c := by
  obtain ⟨hS, hm⟩ : (run (graphDependencies entry platform) c e).2.Sound c ∧
      Moves e (run (graphDependencies entry platform) c e).2 :=
    graphDependencies_sound h.toSound hentry
  exact ⟨hS, by rw [hm.sight.disk]; exact h.mirrors.of_sameShape hm.sight.shape,
    h.sorted.sameShape hm.sight.shape, hm.sight.haste ▸ h.index⟩

/-! ## Runs -/

/-- One step of a running engine that keeps its memo true: a change a watcher reports that
`MemoSafe` allows, or a dependency query for an entry in the roots. -/
inductive MemoStep (c : Context) : Engine → Engine → Prop
  | watched {e e' : Engine} : Watched c MemoSafe e e' → MemoStep c e e'
  | query {e : Engine} {entry : String} (platform : Option String) :
      e.EntryInRoots entry → MemoStep c e (run (graphDependencies entry platform) c e).2

theorem Steady.step (h : e.Steady c) {e' : Engine} (hs : MemoStep c e e') : e'.Steady c := by
  cases hs with
  | watched hw => exact h.watched hw
  | query platform hentry => exact h.query hentry platform

theorem Steady.reach (h : e.Steady c) {e' : Engine} (hr : Relation.ReflTransGen (MemoStep c) e e') :
    e'.Steady c := by
  induction hr with
  | refl => exact h
  | tail _ hs ih => exact ih.step hs

section Start

variable {opts : PackagerOptions} {global : GlobalConfig} {t : Transformer} {D : Disk}

/-- A load starts with an empty name index. -/
theorem loadContext_haste {cache : ContentCache} (h : loadContext opts global t D cache = .ok (c, e)) :
    e.haste = HasteMap.empty := by
  unfold loadContext at h
  simp only [bind, Except.bind, pure, Except.pure] at h
  repeat' split at h
  all_goals cases h
  all_goals rfl

/-- A started engine is steady, when the disk is well formed, the roots name normal absolute
paths and the ignore rules are closed below. -/
theorem steady_start (hD : D.WellFormed)
    (hroots : ∀ r ∈ opts.projectRoots, (Path.ofString r).normalize.IsNormal)
    (h : startPackager opts global t D = .ok (c, e)) (hI : e.vfs.ignore.ClosedBelow) :
    e.Steady c := by
  obtain ⟨e₀, hctx, hload⟩ := startPackager_eq_ok h
  obtain ⟨fs, exts, I, -, hbuild, -, hreg, -⟩ := loadContext_eq_ok hctx
  have hS₀ : e₀.Settled := by
    refine ⟨(Vfs.build_detached_ignore hbuild).1, fun n pl q hq => ?_, hreg ▸ Registry.indexed_empty,
      hreg ▸ Registry.placed_empty, fun q pkg hq => ?_⟩
    · simp [loadContext_haste hctx, HasteMap.slot, HasteMap.empty] at hq
    · simp [hreg, Registry.empty] at hq
  -- the index is the scan of the load, which memoises nothing
  have hL := learns_buildHasteMap c e₀ hS₀
  simp only [loadGraph, run_bind] at hload
  rcases hb : run buildHasteMap c e₀ with ⟨_ | idx, e₁⟩ <;> rw [hb] at hload hL
  · cases hload
  simp only [run_modify, Prod.mk.injEq] at hload
  obtain ⟨-, rfl⟩ := hload
  obtain ⟨hW, hT, -⟩ := buildHasteMap_typed hS₀ (by rw [hb])
  obtain ⟨hS₁, hm, hres⟩ := hL
  have hI₀ : e₀.vfs.ignore.ClosedBelow := by
    rw [← hm.sight.shape.ignore]
    exact hI
  refine ⟨⟨hS₁.withHaste hT, coherent_of_nil (by rw [hres, hreg]; rfl)⟩, ?_,
    (Vfs.sortedDirs_build hbuild).sameShape hm.sight.shape, hW⟩
  rw [show e₁.disk = e₀.disk from hm.sight.disk]
  exact (Tracks.load hD hroots hctx hI₀).mirrors.of_sameShape hm.sight.shape

end Start

/-- Along a run of a started engine through dependency queries for entries in the roots and
changes that `MemoSafe` allows, resolving a name required from a live module through the memo
answers what resolving it without the memo answers in the state reached, for every platform:
the same module, or the same failure. -/
theorem resolveDependency_eq_uncached {opts : PackagerOptions} {global : GlobalConfig}
    {t : Transformer} {D : Disk} {e₀ : Engine} (hD : D.WellFormed)
    (hroots : ∀ r ∈ opts.projectRoots, (Path.ofString r).normalize.IsNormal)
    (hstart : startPackager opts global t D = .ok (c, e₀)) (hI : e₀.vfs.ignore.ClosedBelow)
    (hrun : Relation.ReflTransGen (MemoStep c) e₀ e) {o : Nat} {m : Module}
    (ho : e.registry.live? o = some m) (platform : Option String) (name : String) :
    (run ((⟨platform, c.opts.preferNativePlatform⟩ : Request).resolveDependency o name) c e).1 =
      (run ((⟨platform, c.opts.preferNativePlatform⟩ : Request).resolveUncached m name) c e).1 := by
  have hS := ((steady_start hD hroots hstart hI).reach hrun).toSound
  obtain ⟨rec, hrec, rfl⟩ : ∃ rec, e.registry.record? o = some rec ∧ rec.module = m := by
    unfold Registry.live? at ho
    split at ho
    · rename_i rec hrec
      split at ho
      · exact ⟨rec, hrec, Option.some.inj ho⟩
      · cases ho
    · cases ho
  cases hl : e.registry.resolved.lookup ⟨o, platform, name⟩ with
  | none =>
    -- nothing memoised: the memo is only filled after resolving without it
    rw [Request.run_resolveDependency_of_none _ hl hrec, run_bind]
    rcases run (Request.resolveUncached _ rec.module name) c e with ⟨_ | i, e'⟩ <;> rfl
  | some i =>
    -- a memoised answer is what resolving without the memo answers, by coherence
    rw [Request.run_resolveDependency_of_memo _ hl (hS.indexed.live _ i hl)]
    obtain ⟨rec', hrec', e', hrun', -⟩ := hS.coherent _ i hl
    rw [hrec] at hrec'
    cases hrec'
    rw [hrun']

/-- The project of the two runs below: a directory `/w` whose `index.js` requires `./x`, which
only `x.json` answers. -/
theorem requireProject_wellFormed :
    (⟨[(⟨[.root, .name "w"]⟩, .dir),
      ((⟨[.root, .name "w"]⟩ : Path).child "index.js", .file "require('./x');".toUTF8.toList 0),
      ((⟨[.root, .name "w"]⟩ : Path).child "x.json", .file "{}".toUTF8.toList 0)], 0,
      Disk.rootPath⟩ : Disk).WellFormed := by
  refine ⟨by decide +kernel, by decide +kernel, fun y hy q hq => ?_⟩
  simp only [List.mem_cons, List.not_mem_nil, or_false] at hy
  -- each entry's parent: the root for the directory, the directory for the two files
  rcases hy with rfl | rfl | rfl <;> cbv at hq <;> cases hq
  · exact Disk.find?_rootPath _
  · decide +kernel
  · decide +kernel

/-- A project whose entry requires `./x`, queried once and then changed in place at `x.json`,
the file that requirement resolves to, resolves it through the memo as without it. -/
theorem memo_answers_uncached_after_change :
    let w : Path := ⟨[.root, .name "w"]⟩
    let D₀ : Disk := ⟨[(w, .dir), (w.child "index.js", .file "require('./x');".toUTF8.toList 0),
      (w.child "x.json", .file "{}".toUTF8.toList 0)], 0, Disk.rootPath⟩
    let opts : PackagerOptions := { PackagerOptions.default with projectRoots := ["/w"] }
    ∃ c e₀ e m, D₀.WellFormed ∧ (∀ r ∈ opts.projectRoots, (Path.ofString r).normalize.IsNormal) ∧
      startPackager opts .default .identity D₀ = .ok (c, e₀) ∧ e₀.vfs.ignore.ClosedBelow ∧
      Relation.ReflTransGen (MemoStep c) e₀ e ∧ e.registry.live? 0 = some m ∧
      (run ((⟨none, c.opts.preferNativePlatform⟩ : Request).resolveDependency 0 "./x") c e).1 =
        (run ((⟨none, c.opts.preferNativePlatform⟩ : Request).resolveUncached m "./x") c e).1 := by
  intro w D₀ opts
  let x := w.child "x.json"
  let ev : WatchEvent := ⟨.change, ⟨[.name "x.json"]⟩, w⟩
  have hD₀ : D₀.WellFormed := requireProject_wellFormed
  obtain ⟨⟨c, e₀⟩, hst⟩ := exists_ok_of_isOk (x := startPackager opts .default .identity D₀)
    (by decide +kernel)
  -- what the started engine holds, and what the query and the change leave, in one evaluation
  have hfacts : ((startPackager opts .default .identity D₀).toOption.any fun r =>
      let e₁ := (run (graphDependencies "index.js" none) r.1 r.2).2
      let e₂ := (run (graphChange ev) r.1 { e₁ with disk := e₁.disk.put x (.file [] 1) }).2
      decide (e₁.disk.find? w = some .dir) &&
        decide (e₁.disk.find? x = some (.file "{}".toUTF8.toList 0)) && !(e₁.vfs.roots.contains x) &&
        (r.2.vfs.ignore.patterns.isEmpty && r.2.vfs.ignore.relative.isEmpty) &&
        (e₂.registry.live? 0).isSome) = true := by
    decide +kernel
  rw [hst] at hfacts
  simp only [Except.toOption, Option.any_some, Bool.and_eq_true, decide_eq_true_eq,
    Bool.not_eq_true'] at hfacts
  obtain ⟨⟨⟨⟨hw, hx⟩, hroot⟩, hign⟩, hlive⟩ := hfacts
  replace hroot : x ∉ (run (graphDependencies "index.js" none) c e₀).2.vfs.roots := by
    simpa using hroot
  obtain ⟨m, hm⟩ := Option.isSome_iff_exists.1 hlive
  have hquery : MemoStep c e₀ (run (graphDependencies "index.js" none) c e₀).2 :=
    .query none fun h => absurd h (by decide +kernel)
  have hchange : MemoStep c (run (graphDependencies "index.js" none) c e₀).2
      (run (graphChange ev) c { (run (graphDependencies "index.js" none) c e₀).2 with
        disk := (run (graphDependencies "index.js" none) c e₀).2.disk.put x (.file [] 1) }).2 := by
    refine .watched (.write [] 1 (by decide +kernel) (by decide +kernel) (fun q hq => ?_)
      (by rw [hx]; simp) (by decide) (by decide +kernel) ⟨fun _ => ⟨hroot, _, _, hx⟩, fun h => ?_⟩)
    · cbv at hq
      cases hq
      exact hw
    · rw [hx] at h
      cases h
  have hroots : ∀ r ∈ opts.projectRoots, (Path.ofString r).normalize.IsNormal := by
    decide +kernel
  have hI := IgnoreRules.closedBelow_of_isEmpty hign.1 hign.2
  have hrun := (Relation.ReflTransGen.single hquery).tail hchange
  exact ⟨c, e₀, _, m, hD₀, hroots, hst, hI, hrun, hm,
    resolveDependency_eq_uncached hD₀ hroots hst hI hrun hm none "./x"⟩

/-- Without its conditions the theorem fails: a file created next to the one a requirement
resolved to, and reported as changed rather than added, leaves the memoised answer in place,
while resolving without the memo finds the new file. -/
theorem memo_stale_after_unseen_change :
    ¬ ∀ (opts : PackagerOptions) (D₀ : Disk) (c : Context) (e₀ e : Engine), D₀.WellFormed →
      (∀ r ∈ opts.projectRoots, (Path.ofString r).normalize.IsNormal) →
      startPackager opts .default .identity D₀ = .ok (c, e₀) → e₀.vfs.ignore.ClosedBelow →
      Relation.ReflTransGen (fun s s' => Watched c (fun _ _ _ => True) s s' ∨
        ∃ entry platform, s.EntryInRoots entry ∧
          s' = (run (graphDependencies entry platform) c s).2) e₀ e →
      ∀ o m, e.registry.live? o = some m → ∀ platform name,
        (run ((⟨platform, c.opts.preferNativePlatform⟩ : Request).resolveDependency o name) c e).1 =
          (run ((⟨platform, c.opts.preferNativePlatform⟩ : Request).resolveUncached m name) c e).1 := by
  intro hall
  -- `index.js` requires `./x`, found as `x.json`; then `x.js` is written and reported as changed
  let w : Path := ⟨[.root, .name "w"]⟩
  let D₀ : Disk := ⟨[(w, .dir), (w.child "index.js", .file "require('./x');".toUTF8.toList 0),
    (w.child "x.json", .file "{}".toUTF8.toList 0)], 0, Disk.rootPath⟩
  let opts : PackagerOptions := { PackagerOptions.default with projectRoots := ["/w"] }
  let x := w.child "x.js"
  let ev : WatchEvent := ⟨.change, ⟨[.name "x.js"]⟩, w⟩
  have hD₀ : D₀.WellFormed := requireProject_wellFormed
  obtain ⟨⟨c, e₀⟩, hst⟩ := exists_ok_of_isOk (x := startPackager opts .default .identity D₀)
    (by decide +kernel)
  have hfacts : ((startPackager opts .default .identity D₀).toOption.any fun r =>
      let e₁ := (run (graphDependencies "index.js" none) r.1 r.2).2
      let e₂ := (run (graphChange ev) r.1 { e₁ with disk := e₁.disk.put x (.file [] 1) }).2
      let req : Request := ⟨none, r.1.opts.preferNativePlatform⟩
      decide (e₁.disk.find? w = some .dir) && decide (e₁.disk.find? x = none) &&
        (r.2.vfs.ignore.patterns.isEmpty && r.2.vfs.ignore.relative.isEmpty) &&
        decide ((run (req.resolveDependency 0 "./x") r.1 e₂).1.toOption = some 1) &&
        ((e₂.registry.live? 0).any fun m =>
          decide ((run (req.resolveUncached m "./x") r.1 e₂).1.toOption = some 2))) = true := by
    decide +kernel
  rw [hst] at hfacts
  simp only [Except.toOption, Option.any_some, Bool.and_eq_true, decide_eq_true_eq] at hfacts
  obtain ⟨⟨⟨⟨hw, hx⟩, hign⟩, hmemo⟩, hfresh⟩ := hfacts
  obtain ⟨m, hm⟩ := Option.isSome_iff_exists.1 (Option.isSome_of_any hfresh)
  simp only [hm, Option.any_some] at hfresh
  have hwatch : Watched c (fun _ _ _ => True) (run (graphDependencies "index.js" none) c e₀).2
      (run (graphChange ev) c { (run (graphDependencies "index.js" none) c e₀).2 with
        disk := (run (graphDependencies "index.js" none) c e₀).2.disk.put x (.file [] 1) }).2 := by
    refine .write [] 1 (by decide +kernel) (by decide +kernel) (fun q hq => ?_) (by rw [hx]; simp)
      (by decide) (by decide +kernel) trivial
    cbv at hq
    cases hq
    exact hw
  -- a query, then the change, from the started engine
  have h := congrArg Except.toOption (hall opts D₀ c e₀ _ hD₀ (by decide +kernel) hst
    (IgnoreRules.closedBelow_of_isEmpty hign.1 hign.2)
    ((Relation.ReflTransGen.single (.inr ⟨"index.js", none, fun h => absurd h (by decide +kernel),
      rfl⟩)).tail (.inl hwatch)) 0 m hm none "./x")
  exact absurd ((of_decide_eq_true hmemo).symm.trans (h.trans (of_decide_eq_true hfresh)))
    (by decide)

end Engine

end ModuleBundler
