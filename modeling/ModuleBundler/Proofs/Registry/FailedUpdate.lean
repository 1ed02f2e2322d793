import ModuleBundler.Proofs.Engine.Change
import ModuleBundler.Proofs.Evaluation
import ModuleBundler.Engine.Packager

/-!
# What a failed index update leaves

The name index takes a file change in place: a change or a deletion first drops every slot of the
path, and only then is the file's name detected and registered, either of which can fail. A
failure is not undone, so the index it leaves is the one the update started from: the old index
for an added file, the old index without the slots of the changed file otherwise
(`hasteChange_failure_index`). The engine then raises its error flag, and while the flag stays
up every later change leaves that index as it is: the index queries are answered from is the one
the failure left, until a full rebuild succeeds (`graphChange_keeps_index_while_flagged`).

So a file that takes over a name another file holds loses the name it had, and a require of that
old name no longer resolves (`failed_rename_loses_old_name`).
-/

namespace ModuleBundler

open EngineM

namespace Engine

variable {c : Context} {e : Engine} {fc : FileChange} {err : Error}

/-- A failed index update leaves the index it started from: the old one for an added file, the
old one without the slots of the changed file for a change or a deletion. -/
theorem hasteChange_failure_index (hR : e.registry.WellFormed) (hp : fc.path.IsNormal)
    (h : (run (hasteChange fc) c e).1 = .error err) :
    (run (hasteChange fc) c e).2.haste =
      if fc.kind = .add then e.haste else e.haste.removePath fc.path := by
  obtain ⟨e', h', -, hrun, -, hfail⟩ := run_hasteChange (c := c) hR hp
  rw [hrun]
  exact (hfail err h).2

/-- While the error flag stays up, a change leaves the index as it found it: only a rebuild that
succeeds, and lowers the flag, replaces it. -/
theorem graphChange_keeps_index_while_flagged {ev : WatchEvent} {change : FileChange} {v₁ : Vfs}
    (hR : e.registry.WellFormed)
    (hr : e.vfs.processChange e.disk ev.kind ev.root ev.relative = (some change, v₁))
    (hN : ∀ fc ∈ e.changedFiles ev change, fc.path.IsNormal)
    (hC : ∀ g ∈ ({ e with vfs := v₁ } : Engine).candidates, g.IsNormal)
    (hflag : e.hasteError = true) (hstill : (run (graphChange ev) c e).2.hasteError = true) :
    (run (graphChange ev) c e).2.haste = e.haste := by
  obtain ⟨e₂, e₄, h, b, -, -, hrun, -, hkeep⟩ := run_graphChange (c := c) hR hr hN hC
  rw [hrun] at hstill ⊢
  exact hkeep hflag hstill

/-- A failed index update leaves the index it started from, the old one without the slots of the
changed file unless the file is new; and while the error flag stays up, every later change the
mirror takes leaves that index as it is, until a rebuild succeeds. -/
theorem failed_update_index_until_rebuild (c : Context) (e : Engine) (hR : e.registry.WellFormed) :
    (∀ (fc : FileChange) (err : Error), fc.path.IsNormal →
      (run (hasteChange fc) c e).1 = .error err →
      (run (hasteChange fc) c e).2.haste =
        if fc.kind = .add then e.haste else e.haste.removePath fc.path) ∧
    ∀ (ev : WatchEvent) (change : FileChange) (v₁ : Vfs),
      e.vfs.processChange e.disk ev.kind ev.root ev.relative = (some change, v₁) →
      (∀ fc ∈ e.changedFiles ev change, fc.path.IsNormal) →
      (∀ g ∈ ({ e with vfs := v₁ } : Engine).candidates, g.IsNormal) →
      e.hasteError = true → (run (graphChange ev) c e).2.hasteError = true →
      (run (graphChange ev) c e).2.haste = e.haste :=
  ⟨fun _ _ hp h => hasteChange_failure_index hR hp h,
    fun _ _ _ hr hN hC hflag hstill =>
      graphChange_keeps_index_while_flagged hR hr hN hC hflag hstill⟩

/-- `a.js` held the name `A` and `b.js` the name `B`, and `b.js` now declares `A` too. Its update
fails on the collision with `a.js` and leaves the index without the slot of `b.js`; with the flag
up, the next change of `b.js` finds the collision again in the rebuild, and the index stays. -/
theorem failed_rename_index_until_rebuild :
    let a : Path := ⟨[.root, .name "a.js"]⟩
    let b : Path := ⟨[.root, .name "b.js"]⟩
    let src : String := "/** @providesModule A */"
    let D : Disk := ⟨[(a, .file src.toUTF8.toList 0), (b, .file src.toUTF8.toList 1)], 1,
      Disk.rootPath⟩
    let v : Vfs := ⟨[Disk.rootPath], [], [(Disk.rootPath, .dir ["a.js", "b.js"]),
      (a, .file ⟨some src, none⟩), (b, .file ⟨some src, none⟩)], IgnoreRules.none, ["js"]⟩
    let c : Context :=
      ⟨PackagerOptions.default, GlobalConfig.default, [], none, ⟨[], []⟩, .identity⟩
    let e : Engine := ⟨D, ContentCache.inMemory, v, Registry.empty,
      ⟨[("A", [(none, .module a)]), ("B", [(none, .module b)])]⟩, false, [], 0, [], 0⟩
    let e' : Engine := { e with haste := e.haste.removePath b, hasteError := true }
    let ev : WatchEvent := ⟨.change, ⟨[.name "b.js"]⟩, Disk.rootPath⟩
    (∃ err, (run (hasteChange ⟨.change, b⟩) c e).1 = .error err ∧
      (run (hasteChange ⟨.change, b⟩) c e).2.haste = e.haste.removePath b) ∧
    (run (graphChange ev) c e').2.hasteError = true ∧
      (run (graphChange ev) c e').2.haste = e'.haste := by
  intro a b src D v c e e' ev
  obtain ⟨err, herr⟩ := exists_error_of_isOk (x := (run (hasteChange ⟨.change, b⟩) c e).1)
    (by decide +kernel)
  refine ⟨⟨err, herr, (failed_update_index_until_rebuild c e Registry.wellFormed_empty).1 _ err
    (by decide) herr⟩, ?_⟩
  -- the mirror takes the change of `b.js`, and every path involved is normal
  have hsome : (e'.vfs.processChange e'.disk ev.kind ev.root ev.relative).1.isSome = true := by
    decide +kernel
  obtain ⟨change, hchange⟩ := Option.isSome_iff_exists.1 hsome
  have hr : e'.vfs.processChange e'.disk ev.kind ev.root ev.relative =
      (some change, (e'.vfs.processChange e'.disk ev.kind ev.root ev.relative).2) :=
    Prod.ext hchange rfl
  have hN : ((e'.vfs.processChange e'.disk ev.kind ev.root ev.relative).1.all fun ch =>
      (e'.changedFiles ev ch).all fun fc => decide fc.path.IsNormal) = true := by
    decide +kernel
  rw [hchange] at hN
  have hC : (({ e' with vfs := (e'.vfs.processChange e'.disk ev.kind ev.root ev.relative).2 } :
      Engine).candidates.all fun g => decide g.IsNormal) = true := by
    decide +kernel
  have hstill : (run (graphChange ev) c e').2.hasteError = true := by decide +kernel
  exact ⟨hstill, (failed_update_index_until_rebuild c e' Registry.wellFormed_empty).2 ev change _
    hr (by simpa using hN) (by simpa using hC) rfl hstill⟩

end Engine

/-- `A.js` declares `A` and `B.js` declares `B`; `B.js` is rewritten to declare `A`. When the
index takes the change of `B.js`, the registration of `A` collides with `A.js`, and the index it
leaves has lost `B`, which it held before the call. -/
theorem failed_rename_loses_old_name :
    let w : Path := ⟨[.root, .name "w"]⟩
    let D₀ : Disk := ⟨[(w, .dir),
      (w.child "A.js", .file "/** @providesModule A */".toUTF8.toList 0),
      (w.child "B.js", .file "/** @providesModule B */".toUTF8.toList 0)], 0, Disk.rootPath⟩
    let D₁ : Disk := ⟨[(w, .dir),
      (w.child "A.js", .file "/** @providesModule A */".toUTF8.toList 0),
      (w.child "B.js", .file "/** @providesModule A */".toUTF8.toList 1)], 1, Disk.rootPath⟩
    let opts : PackagerOptions := { PackagerOptions.default with projectRoots := ["/w"] }
    let fc : FileChange := ⟨.change, w.child "B.js"⟩
    ∃ c e₀, startPackager opts .default .identity D₀ = .ok (c, e₀) ∧
      -- the engine once the mirror and the registry have taken the change
      let e₁ := (run (registryChange fc) c
        { e₀ with disk := D₁, vfs := (e₀.vfs.processChange D₁ .change w ⟨[.name "B.js"]⟩).2 }).2
      ∃ err e₂, run (hasteChange fc) c e₁ = (.error err, e₂) ∧
        e₁.haste.get? "B" none = some (.module (w.child "B.js")) ∧ e₂.haste.get? "B" none = none ∧
        e₂.haste ≠ e₁.haste := by
  intro w D₀ D₁ opts fc
  have h : ((startPackager opts .default .identity D₀).toOption.any fun r =>
      let e₁ := (run (registryChange fc) r.1
        { r.2 with disk := D₁, vfs := (r.2.vfs.processChange D₁ .change w ⟨[.name "B.js"]⟩).2 }).2
      decide (e₁.haste.get? "B" none = some (.module (w.child "B.js"))) &&
        !(run (hasteChange fc) r.1 e₁).1.isOk &&
        decide ((run (hasteChange fc) r.1 e₁).2.haste.get? "B" none = none)) = true := by
    decide +kernel
  obtain ⟨⟨c, e₀⟩, hs, h⟩ := (Option.any_eq_true _ _).1 h
  refine ⟨c, e₀, eq_ok_of_toOption hs, ?_⟩
  intro e₁
  simp only [Bool.and_eq_true, decide_eq_true_eq, Bool.not_eq_true'] at h
  obtain ⟨⟨hbefore, hfail⟩, hafter⟩ := h
  obtain ⟨err, herr⟩ := exists_error_of_isOk hfail
  refine ⟨err, (run (hasteChange fc) c e₁).2, by rw [← herr], hbefore, hafter, fun heq => ?_⟩
  rw [heq, hbefore] at hafter
  cases hafter

end ModuleBundler
