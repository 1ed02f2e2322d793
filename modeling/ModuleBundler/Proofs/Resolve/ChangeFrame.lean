import ModuleBundler.Proofs.Resolve.Coherence
import ModuleBundler.Proofs.Vfs.Sorted
import ModuleBundler.Proofs.Registry.FileChange
import ModuleBundler.Proofs.Engine.Events

/-!
# What a file change leaves of memoised resolutions

A change of a file reaches resolution through three doors: the mirror's tree, the registry's
modules and the global name index. This file follows each one through a change made in place,
to a file that was there before and is there after.

The tree keeps its shape and its listings (`Vfs.sameTree_change`), and what a package file reads
does not move, the disk having changed only at the changed file. The registry kills the file's
module and creates a fresh one of the same kind at the same path: every module found before is
found after, the killed one as the fresh one (`Engine.covers_registryChange`), and every kept
memoised resolution that answered the killed module answers the fresh one. The name index
drops the slots of the file and registers what the file declares now: when its slots come out as
they were, the index answers every slot as before (`HasteMap.slot_register_of_slotsFor`).
Detection moves the engine only as a query does and registers an entry at the file itself
(`Engine.detectName_entry`); `Engine.hasteChange_moves` puts these together for one change.

Along the way every step keeps the structural part of the invariant (`Engine.Settled`), and the
index stays well formed with package slots at package files, also through a full scan
(`Engine.buildHasteMap_typed`): that is all a change that forgets the memo has to keep.
-/

namespace ModuleBundler

open EngineM

/-! ## Reading a file through a changed tree or disk -/

namespace Engine

variable {c : Context} {e e' : Engine} {p q : Path}

/-- What a path reads depends on the roots, the node at the path and, at a file node whose
content is not kept, on what the disk holds there. -/
theorem readView_congr (hr : e'.vfs.roots = e.vfs.roots) (hd : e.vfs.detached = [])
    (hd' : e'.vfs.detached = []) (hn : e'.vfs.node? q.normalize = e.vfs.node? q.normalize)
    (hdisk : ∀ d, e.vfs.node? q.normalize = some (.file d) →
      e'.disk.readLossy q.normalize = e.disk.readLossy q.normalize) :
    e'.readView q = e.readView q := by
  have hatt : e'.vfs.attachedRoot? q.normalize = e.vfs.attachedRoot? q.normalize := by
    simp only [Vfs.attachedRoot?, hr]
  unfold readView Vfs.readFile
  simp only [hatt, Vfs.isDetached, hd, hd', hn, List.any_nil]
  split
  · rfl
  · cases hnode : e.vfs.node? q.normalize with
    | none => rfl
    | some x =>
      cases x with
      | dir cs => rfl
      | file d =>
        dsimp only
        cases d.content with
        | some s => rfl
        | none =>
          dsimp only
          rw [hdisk d hnode]
          split <;> rfl

/-- A package is read from the package the registry keeps and from what its file reads. -/
theorem packageView_congr (hpk : e'.registry.packages.lookup q = e.registry.packages.lookup q)
    (hr : e'.readView q = e.readView q) : e'.packageView q = e.packageView q := by
  simp only [packageView, hpk, hr]

/-- A settled state keeps each package under the path it was read at. -/
theorem Settled.packageView_path (hS : e.Settled) (q : Path) : (e.packageView q).path = q := by
  unfold packageView
  cases h : e.registry.packages.lookup q with
  | none => rfl
  | some pkg => exact hS.packages q pkg h

end Engine

/-! ## The registry after a change -/

namespace Registry

variable {r r' : Registry}

@[simp] theorem unlinkOutgoing_nulls (r : Registry) (id : Nat) :
    (r.unlinkOutgoing id).nulls = r.nulls := by
  unfold unlinkOutgoing
  refine List.foldlRecOn (motive := fun w : Registry => w.nulls = r.nulls) _ _ rfl
    fun w hw x _ => ?_
  obtain ⟨key, target⟩ := x
  dsimp only
  split
  · exact hw
  · exact hw

/-- Killing the module at a path, and pointing the path nowhere, keeps the registry placed. -/
theorem Placed.kill (h : r.Placed) {p : Path} (old : Nat) (hsize : r'.store.size = r.store.size)
    (hlive : ∀ i, r'.live? i = if i = old then none else r.live? i)
    (hby : ∀ q, r'.byPath.lookup q = if q = p then none else r.byPath.lookup q)
    (hnulls : r'.nulls = r.nulls) : r'.Placed := by
  -- a module still live is one the registry had, and keeps its state
  have hkeep : ∀ i m, r'.live? i = some m → i ≠ old ∧ r.live? i = some m := fun i m hm => by
    rw [hlive] at hm
    split at hm
    · cases hm
    · exact ⟨by assumption, hm⟩
  refine ⟨fun q i hq => ?_, fun n i hn => hsize ▸ h.nullBound n i (hnulls ▸ hn),
    fun q i hq => ?_, fun n i hn => ?_⟩
  · rw [hby] at hq
    split at hq
    · cases hq
    · exact hsize ▸ h.bound q i hq
  · obtain ⟨j, hj, hi⟩ := Option.bind_eq_some_iff.1 hq
    obtain ⟨m, hm, rfl⟩ := Option.map_eq_some_iff.1 hi
    rw [hby] at hj
    split at hj
    · cases hj
    obtain ⟨-, hm'⟩ := hkeep _ m hm
    obtain ⟨m', hm'', hpath, hkind⟩ := h.path q j (by simp [atPath?, hj, hm'])
    exact ⟨m', hm.trans (hm'.symm.trans hm''), hpath, hkind⟩
  · obtain ⟨j, hj, hi⟩ := Option.bind_eq_some_iff.1 hn
    obtain ⟨m, hm, rfl⟩ := Option.map_eq_some_iff.1 hi
    obtain ⟨-, hm'⟩ := hkeep _ m hm
    obtain ⟨m', hm'', hkind⟩ := h.null n j (by simp [nullOf, ← hnulls, hj, hm'])
    exact ⟨m', hm.trans (hm'.symm.trans hm''), hkind⟩

end Registry

namespace Engine

open Registry

variable {c : Context} {e : Engine} {fc : FileChange} {old : Nat}

theorem nulls_registryChange (fc : FileChange) :
    (run (registryChange fc) c e).2.registry.nulls = e.registry.nulls := by
  cases hat : e.registry.atPath? fc.path with
  | none =>
    simp only [registryChange, run_bind, run_modify, run_get, modifyRegistry, hat]
    split <;> rfl
  | some old =>
    simp only [registryChange, run_bind, run_modify, run_get, modifyRegistry, hat]
    split <;> split <;> (try split) <;>
      simp [Registry.insert, Registry.setPath, Registry.setDependerKeys]

/-- A change reaches the registry and the content memo only. -/
theorem run_registryChange_state (fc : FileChange) :
    run (registryChange fc) c e = (.ok (), { e with
      cache := (e.cache.invalidate fc.path).2
      registry := (run (registryChange fc) c e).2.registry }) := by
  simp only [registryChange, run_bind, run_modify, run_get, modifyRegistry]

/-- The live modules after a change that kills the module at the path, and creates a fresh one
unless the file was deleted. -/
theorem live?_registryChange (hat : e.registry.atPath? fc.path = some old) (i : Nat) :
    (run (registryChange fc) c e).2.registry.live? i =
      if fc.kind ≠ .delete ∧ i = e.registry.store.size then
        some ⟨e.registry.store.size, fc.path, ((e.registry.live? old).map Module.kind).getD .source⟩
      else if i = old then none else e.registry.live? i := by
  by_cases hk : fc.kind = .delete
  · simp only [live?, record?_of_kill (registryChange_delete (c := c) hat hk).1, hk, ne_eq,
      not_true_eq_false, false_and, if_false]
    by_cases hi : i = old
    · subst hi
      cases e.registry.record? i <;> simp [kill]
    · simp [hi, Ne.symm hi]
  · simp only [live?, record?_of_replace (registryChange_replace (c := c) hat hk).1, ne_eq, hk,
      not_false_eq_true, true_and]
    by_cases hs : i = e.registry.store.size
    · simp [hs]
    · by_cases hi : i = old
      · subst hi
        cases e.registry.record? i <;> simp [hs, kill]
      · simp [hs, hi, Ne.symm hi]

/-- A change keeps the registry placed: a killed module leaves its path, and a fresh one of the
same kind takes it. -/
theorem placed_registryChange (h : e.registry.Placed) (fc : FileChange) :
    (run (registryChange fc) c e).2.registry.Placed := by
  cases hat : e.registry.atPath? fc.path with
  | none =>
    obtain ⟨hs, hb, -⟩ := registryChange_of_none (c := c) hat
    exact h.congr (by rw [hs]) (fun i => by simp only [live?, record?, hs]) hb
      (nulls_registryChange fc)
  | some old =>
    have hold_lt : old < e.registry.store.size := by
      obtain ⟨-, rec, hrec, -⟩ := atPath?_eq_some.1 hat
      exact record?_lt hrec
    by_cases hk : fc.kind = .delete
    · obtain ⟨hs, hb, -⟩ := registryChange_delete (c := c) hat hk
      refine h.kill (p := fc.path) old (by rw [hs, Array.size_modify]) (fun i => ?_)
        (fun q => ?_) (nulls_registryChange fc)
      · rw [live?_registryChange hat, if_neg (by simp [hk])]
      · rw [hb]
        split
        · rename_i hq
          subst hq
          exact lookup_packages_filter.2
        · exact lookup_packages_filter.1 q ‹_›
    · -- the old module dies first, then the fresh one is placed at the path
      obtain ⟨hs, hb⟩ := registryChange_replace (c := c) hat hk
      obtain ⟨m, hm, -, hkind⟩ := h.path fc.path old hat
      let r₁ : Registry := { e.registry with
        byPath := e.registry.byPath.filter (·.1 != fc.path)
        store := e.registry.store.modify old kill }
      have hlive₁ : ∀ i, r₁.live? i = if i = old then none else e.registry.live? i := fun i => by
        by_cases hi : i = old
        · subst hi
          simp only [r₁, live?, record?, Array.getElem?_modify, if_true]
          cases e.registry.store[i]? <;> simp [kill]
        · simp only [r₁, live?, record?, Array.getElem?_modify, if_neg (Ne.symm hi), if_neg hi]
      have hP₁ : r₁.Placed := h.kill (p := fc.path) old (by simp [r₁]) hlive₁ (fun q => by
        simp only [r₁]
        split
        · rename_i hq
          subst hq
          exact lookup_packages_filter.2
        · exact lookup_packages_filter.1 q ‹_›) rfl
      rw [hm, Option.map_some, Option.getD_some] at hs
      refine hP₁.addModule (p := fc.path) hkind (by rw [hs]; simp [r₁])
        (fun i => ?_) (fun q => ?_) (nulls_registryChange fc)
      · rw [live?_registryChange hat, hm, Option.map_some, Option.getD_some, hlive₁]
        simp only [ne_eq, hk, not_false_eq_true, true_and, r₁, Array.size_modify]
      · rw [lookup_byPath_of_replace hb]
        simp only [r₁, Array.size_modify]
        split
        · rfl
        · exact (lookup_packages_filter.1 q ‹_›).symm

/-- After a file changes in place, the registry finds every module it found, the one at the file
as the fresh module that replaced it. -/
theorem covers_registryChange (hP : e.registry.Placed) (hat : e.registry.atPath? fc.path = some old)
    (hk : fc.kind ≠ .delete) :
    Covers (fun i => if i = old then e.registry.store.size else i) e
      (run (registryChange fc) c e).2 := by
  obtain ⟨hs, hb⟩ := registryChange_replace (c := c) hat hk
  have hold_lt : old < e.registry.store.size := by
    obtain ⟨-, rec, hrec, -⟩ := atPath?_eq_some.1 hat
    exact record?_lt hrec
  -- a module other than the old one, numbered before the fresh one, keeps its state
  have hlive : ∀ i, i ≠ old → i < e.registry.store.size →
      (run (registryChange fc) c e).2.registry.live? i = e.registry.live? i := fun i hi hlt => by
    rw [live?_registryChange hat, if_neg (fun h => Nat.ne_of_lt hlt h.2), if_neg hi]
  obtain ⟨mo, hmo, hpo, hko⟩ := hP.path fc.path old hat
  refine ⟨fun q i hq => ?_, fun n i hn => ?_⟩
  · by_cases hqp : q = fc.path
    · subst hqp
      rw [hat] at hq
      cases hq
      rw [if_pos rfl]
      have hnew : (run (registryChange fc) c e).2.registry.live? e.registry.store.size =
          some ⟨e.registry.store.size, fc.path,
            ((e.registry.live? old).map Module.kind).getD .source⟩ := by
        rw [live?_registryChange hat, if_pos ⟨hk, rfl⟩]
      exact atPath?_of_live (by rw [lookup_byPath_of_replace hb, if_pos rfl]) hnew
    · obtain ⟨m, hm, hpath, -⟩ := hP.path q i hq
      have hio : i ≠ old := by
        rintro rfl
        rw [hmo] at hm
        cases hm
        exact hqp (hpath.symm.trans hpo)
      have hlt : i < e.registry.store.size := record?_lt (atPath?_eq_some.1 hq).2.choose_spec.1
      rw [if_neg hio]
      refine atPath?_of_live ?_ ((hlive i hio hlt).trans hm)
      rw [lookup_byPath_of_replace hb, if_neg hqp]
      exact (atPath?_eq_some.1 hq).1
  · obtain ⟨m, hm, hkind⟩ := hP.null n i hn
    have hio : i ≠ old := by
      rintro rfl
      rw [hmo] at hm
      cases hm
      exact hko n hkind
    obtain ⟨j, hj, hi⟩ := Option.bind_eq_some_iff.1 hn
    obtain ⟨m', hm', rfl⟩ := Option.map_eq_some_iff.1 hi
    have hlt : j < e.registry.store.size := by
      unfold live? at hm'
      split at hm'
      · exact record?_lt ‹_›
      · cases hm'
    rw [if_neg hio]
    simp [nullOf, nulls_registryChange, hj, hlive j hio hlt, hm']

/-- A change keeps a settled state settled: it reaches neither the tree nor the name index. -/
theorem settled_registryChange (hS : e.Settled) (fc : FileChange) :
    (run (registryChange fc) c e).2.Settled := by
  refine ⟨?_, ?_, indexed_registryChange hS.indexed fc, placed_registryChange hS.placed fc,
    fun q pkg hq => ?_⟩
  · rw [run_registryChange_state]
    exact hS.detached
  · rw [run_registryChange_state]
    exact hS.typed
  · rw [packages_registryChange] at hq
    by_cases hqp : q = fc.path
    · subst hqp
      rw [lookup_packages_filter.2] at hq
      cases hq
    · exact hS.packages q pkg (by rwa [lookup_packages_filter.1 q hqp] at hq)

/-- Covering depends on the registry only. -/
theorem Covers.of_registry_eq {σ : Nat → Nat} {e₀ e' : Engine} (h : Covers σ e₀ e')
    (hreg : e₀.registry = e.registry) : Covers σ e e' :=
  ⟨fun q i hq => h.atPath q i (hreg ▸ hq), fun n i hn => h.nulls n i (hreg ▸ hn)⟩

/-- A change of a file in place keeps a coherent memo coherent, in a state on the route the state
before the change was on: each kept resolution answers, renamed, what it answered. -/
theorem coherent_registryChange (hC : e.Coherent c) (hS : e.Settled) {e₀ : Engine}
    (hreg : e₀.registry = e.registry) (hk : fc.kind = .change)
    (hroute : e.SameRoute (run (registryChange fc) c e₀).2) :
    (run (registryChange fc) c e₀).2.Coherent c := by
  intro key i hkey
  cases hat : e.registry.atPath? fc.path with
  | none =>
    -- no module to replace: the registry keeps its modules and the memo
    have hat₀ : e₀.registry.atPath? fc.path = none := hreg ▸ hat
    obtain ⟨hs, hb, hres⟩ := registryChange_of_none (c := c) hat₀
    rw [hres, if_pos hk, hreg] at hkey
    have hcov : Covers id e₀ (run (registryChange fc) c e₀).2 :=
      Covers.of_registry hs hb (nulls_registryChange fc)
    refine (hC key i hkey).rename hroute (hcov.of_registry_eq hreg) fun rec hrec =>
      ⟨rec, ?_, rfl⟩
    simpa only [record?, hs, hreg] using hrec
  | some old =>
    have hat₀ : e₀.registry.atPath? fc.path = some old := hreg ▸ hat
    have hnd : fc.kind ≠ .delete := by rw [hk]; decide
    rw [lookup_registryChange_replace (hreg ▸ hS.indexed) hat₀ hnd, if_pos hk, hreg] at hkey
    split at hkey
    · cases hkey
    · rename_i ho
      obtain ⟨t, ht, rfl⟩ := Option.map_eq_some_iff.1 hkey
      have hcov := covers_registryChange (c := c) (hreg ▸ hS.placed) hat₀ hnd
      rw [hreg] at hcov
      refine (hC key t ht).rename (σ := fun i => if i = old then e.registry.store.size else i) hroute
        (hcov.of_registry_eq hreg) fun rec hrec => ⟨rec, ?_, rfl⟩
      -- the module that made the resolution is not the replaced one, and keeps its record
      have hlt : key.origin < e₀.registry.store.size := hreg ▸ record?_lt hrec
      rw [record?_registryChange hlt, hat₀, if_neg (by simpa using Ne.symm ho), hreg]
      exact hrec

end Engine

/-- Two well-formed disks that hold the same entry at a path read the same there. -/
theorem Disk.readLossy_congr {D D' : Disk} (hD : D.WellFormed) (hD' : D'.WellFormed) {q : Path}
    {x : DiskEntry} (hx : D.find? q = some x) (h : D'.find? q = D.find? q) :
    D'.readLossy q = D.readLossy q := by
  simp only [Disk.readLossy, Disk.readBytes, hD.status_eq_ok hx, hD'.status_eq_ok (h.trans hx)]

namespace Engine

open Registry

variable {c : Context} {e : Engine} {fc : FileChange} {D' : Disk} {p : Path}

/-- A file other than a package file, changed in place on the disk and in the tree, leaves the
route of resolution as it was: the tree keeps its shape and listings, the name index is
untouched, and every package file reads what it read, the disk having changed at the file only. -/
theorem sameRoute_change (hS : e.Settled) (hM : Vfs.Mirrors e.disk e.vfs)
    (hsort : e.vfs.SortedDirs) (hM' : Vfs.Mirrors D' ((e.vfs.removeNode p).insertFile p))
    (hp : p.IsNormal) (hp0 : p ≠ Disk.rootPath) (hroot : p ∉ e.vfs.roots) {d : FileNode}
    (hd : e.vfs.node? p = some (.file d)) (hdisk : ∀ q, q ≠ p → D'.find? q = e.disk.find? q)
    (hpkg : p.fileName? ≠ some "package.json") (hfc : fc.path = p) :
    e.SameRoute (run (registryChange fc) c
      { e with disk := D', vfs := (e.vfs.removeNode p).insertFile p }).2 := by
  have hnode := Vfs.node?_change hM.linked hsort hp hp0 hroot hd
  have hdet : ((e.vfs.removeNode p).insertFile p).detached = [] :=
    (Vfs.insertFile_detached _ _).trans ((Vfs.removeNode_detached _ _).trans hS.detached)
  rw [run_registryChange_state]
  refine ⟨Vfs.sameTree_change hM.linked hsort hp hp0 hroot hd, hdet, fun _ _ => rfl,
    fun q hq => ?_, hS.typed⟩
  -- a package file is not the changed file
  have hqn : q.normalize ≠ p := fun h => hpkg (h ▸ Path.fileName?_normalize hq)
  have hqp : q ≠ fc.path := fun h => hpkg (hfc ▸ h ▸ hq)
  refine packageView_congr (by simp only [packages_registryChange, lookup_packages_filter.1 q hqp])
    (readView_congr ((Vfs.insertFile_config _ _).1.trans (Vfs.removeNode_config _ _).1)
      hS.detached hdet (by rw [hnode, if_neg hqn]) fun d' hd' => ?_)
  obtain ⟨b, m, hbm⟩ := hM.find?_of_listed (hM.files _ d' hd')
  exact Disk.readLossy_congr hM.disk hM'.disk hbm (hdisk _ hqn)

end Engine

/-! ## The name index through a change -/

namespace HasteMap

variable {h h' : HasteMap} {ps : List String} {p : Path} {name : String} {en : HasteEntry}

/-- The slots a file holds, as the index lists them. -/
theorem WellFormed.mem_slotsFor (hh : h.WellFormed) {n : String} {pl : Option String} :
    (n, pl) ∈ h.slotsFor p ↔ ∃ en, h.slot n pl = some en ∧ en.path = p := by
  simp only [slotsFor, Text.mem_sortBy, List.mem_flatMap, List.mem_map, List.mem_filter,
    hh.slot_eq_some, decide_eq_true_eq]
  constructor
  · rintro ⟨⟨name, vs⟩, hmem, ⟨pl', en⟩, ⟨hen, hpath⟩, heq⟩
    simp only [Prod.mk.injEq] at heq
    obtain ⟨rfl, rfl⟩ := heq
    exact ⟨en, ⟨vs, hmem, hen⟩, hpath⟩
  · rintro ⟨en, ⟨vs, hmem, hen⟩, hpath⟩
    exact ⟨(n, vs), hmem, (pl, en), ⟨hen, hpath⟩, rfl⟩

/-- Dropping a file keeps every package slot naming a package file. -/
theorem Typed.removePath (ht : h.Typed) (hh : h.WellFormed) (p : Path) : (h.removePath p).Typed :=
  fun n pl q hq => ht n pl q (Option.filter_eq_some_iff.1 (slot_removePath hh p n pl ▸ hq)).1

/-- Clearing the slots of a changed file keeps the index well formed. -/
theorem WellFormed.clearFor (hh : h.WellFormed) (fc : FileChange) : (h.clearFor fc).WellFormed := by
  unfold HasteMap.clearFor
  split
  · exact hh
  · exact hh.removePath fc.path

/-- Clearing the slots of a changed file keeps every package slot naming a package file. -/
theorem Typed.clearFor (ht : h.Typed) (hh : h.WellFormed) (fc : FileChange) :
    (h.clearFor fc).Typed := by
  unfold HasteMap.clearFor
  split
  · exact ht
  · exact ht.removePath hh fc.path

/-- Registering succeeds into a free slot, or onto a slot of the same file, which it leaves as
it was; either way the index keeps its other slots. -/
theorem register_eq_ok (hh : h.WellFormed) (hreg : h.register ps name en = .ok h') :
    h'.WellFormed ∧ ∀ n q, h'.slot n q =
      if n = name ∧ q = platformExtension en.path ps ∧ h.slot n q = none then some en
      else h.slot n q := by
  cases hs : h.slot name (platformExtension en.path ps) with
  | some ex =>
    rw [register_of_slot_eq_some hs] at hreg
    split at hreg
    · cases hreg
      refine ⟨hh, fun n q => ?_⟩
      rw [if_neg]
      rintro ⟨rfl, rfl, hnone⟩
      simp [hs] at hnone
    · cases hreg
  | none =>
    obtain ⟨h'', hreg', hh'', hslot⟩ := register_of_slot_eq_none hh hs
    rw [hreg] at hreg'
    cases hreg'
    refine ⟨hh'', fun n q => ?_⟩
    rw [hslot]
    by_cases hnq : n = name ∧ q = platformExtension en.path ps
    · obtain ⟨rfl, rfl⟩ := hnq
      simp [hs]
    · rw [if_neg hnq, if_neg (fun h₁ => hnq ⟨h₁.1, h₁.2.1⟩)]

/-- A slot holds, after a registration, what it held before or the entry registered. -/
theorem slot_of_register (hh : h.WellFormed) (hreg : h.register ps name en = .ok h')
    {n : String} {pl : Option String} {ex : HasteEntry} (hs : h'.slot n pl = some ex) :
    h.slot n pl = some ex ∨ ex = en := by
  rw [(register_eq_ok hh hreg).2] at hs
  split at hs
  · exact .inr (Option.some.inj hs).symm
  · exact .inl hs

/-- Registering an entry that is a package file, if a package at all, keeps the index typed. -/
theorem Typed.register (ht : h.Typed) (hh : h.WellFormed)
    (hen : ∀ q, en = .package q → q.fileName? = some "package.json")
    (hreg : h.register ps name en = .ok h') : h'.Typed := by
  intro n pl q hq
  rw [(register_eq_ok hh hreg).2] at hq
  split at hq
  · exact hen q (Option.some.inj hq)
  · exact ht n pl q hq

/-- A file that held no slot once dropped, and holds as many as before, held none before:
dropping it changed no slot. -/
theorem slot_removePath_of_slotsFor (hh : h.WellFormed)
    (hs : (h.removePath p).slotsFor p = h.slotsFor p) (n : String) (pl : Option String) :
    (h.removePath p).slot n pl = h.slot n pl := by
  rw [slot_removePath hh]
  cases hsl : h.slot n pl with
  | none => rfl
  | some en =>
    have hp : en.path ≠ p := by
      intro hp
      obtain ⟨en', hen', hp'⟩ := (hh.removePath p).mem_slotsFor.1 (hs ▸ hh.mem_slotsFor.2 ⟨en, hsl, hp⟩)
      rw [slot_removePath hh, Option.filter_eq_some_iff] at hen'
      simp [hp'] at hen'
    simp [Option.filter, hp]

/-- A file that, once dropped, registers a module entry for itself and comes out with the slots
it had, leaves every slot as it was, its old entries being modules too, as no package file is. -/
theorem slot_register_of_slotsFor (hh : h.WellFormed) (ht : h.Typed)
    (hpkg : p.fileName? ≠ some "package.json")
    (hreg : (h.removePath p).register ps name (.module p) = .ok h')
    (hs : h'.slotsFor p = h.slotsFor p) (n : String) (pl : Option String) :
    h'.slot n pl = h.slot n pl := by
  have hh₁ := hh.removePath p
  obtain ⟨hh', hslot⟩ := register_eq_ok hh₁ hreg
  -- the dropped index holds no entry of the file
  have hnone : ∀ n pl en, (h.removePath p).slot n pl = some en → en.path ≠ p := fun n pl en h₁ => by
    rw [slot_removePath hh, Option.filter_eq_some_iff] at h₁
    simpa using h₁.2
  rw [hslot]
  split
  · -- the slot registered now is the one the file held before, a module entry
    rename_i hnq
    obtain ⟨rfl, rfl, hfree⟩ := hnq
    obtain ⟨ex, hex, hpath⟩ := hh.mem_slotsFor.1
      (hs ▸ hh'.mem_slotsFor.2 ⟨.module p, by rw [hslot, if_pos ⟨rfl, rfl, hfree⟩], rfl⟩)
    rw [hex]
    cases ex with
    | module a => simp only [HasteEntry.path] at hpath; rw [hpath]
    | package a =>
      simp only [HasteEntry.path] at hpath
      exact absurd (hpath ▸ ht _ _ a hex) hpkg
  · rename_i hnq
    rw [slot_removePath hh]
    cases hsl : h.slot n pl with
    | none => rfl
    | some en =>
      by_cases hp : en.path = p
      · -- a slot the file held stays one of its slots, and only the new one is
        obtain ⟨en', hen', hp'⟩ := hh'.mem_slotsFor.1 (hs.symm ▸ hh.mem_slotsFor.2 ⟨en, hsl, hp⟩)
        rw [hslot, if_neg hnq] at hen'
        exact absurd hp' (hnone n pl en' hen')
      · simp [Option.filter, hp]

end HasteMap

/-! ## Detection -/

theorem learns_isHaste (id : Nat) : Learns (isHaste id) := by
  refine .bind (learns_moduleOf id) fun m => ?_
  split
  · refine .bind (learns_packageFor m) fun pkg => .bind (learns_isHasteCompatible m pkg) fun b => ?_
    exact .ite (.pure _) (.bind (learns_moduleData id) fun _ => .pure _)
  · exact .pure _

theorem learns_detectName (g : Path) : Learns (detectName g) := by
  unfold detectName
  refine .ite ?_ ?_
  · refine .bind (learns_getPackage g) fun pkg => .bind .get fun _ => ?_
    split <;> exact .pure _
  · refine .ite (.pure _) (.bind (learns_getModule g) fun id => .bind (learns_isHaste id) fun b => ?_)
    exact .ite (.pure _) (.bind (learns_moduleName id) fun _ => .bind (learns_moduleOf id) fun _ => .pure _)

namespace Engine

variable {c : Context} {e : Engine}

/-- A live module is what its number reads as. -/
theorem run_moduleOf_of_live {id : Nat} {m : Module} (h : e.registry.live? id = some m) :
    run (moduleOf id) c e = (.ok m, e) := by
  unfold Registry.live? at h
  split at h
  · rename_i rec hrec
    split at h
    · cases h
      exact run_moduleOf hrec
    · cases h
  · cases h

/-- What detection registers for a file, from a settled state: an entry at the file itself, and
a package entry only for a package file. -/
theorem detectName_entry (hS : e.Settled) {g : Path} {n : String} {en : HasteEntry}
    (h : (run (detectName g) c e).1 = .ok (some (n, en))) :
    en.path = g.normalize ∧ ∀ q, en = .package q → g.fileName? = some "package.json" := by
  replace h : run (detectName g) c e = (.ok (some (n, en)), (run (detectName g) c e).2) :=
    Prod.ext h rfl
  by_cases hpj : g.fileName? = some "package.json"
  · -- a package file: the entry names the package read there, filed under the file's path
    obtain ⟨e₁, -, hrun⟩ := run_getPackage (c := c) (e := e) g
    simp only [detectName, hpj, if_true, run_bind, hrun, run_get] at h
    refine ⟨?_, fun _ _ => hpj⟩
    split at h
    · split at h
      · simp only [run_pure, Prod.mk.injEq, Except.ok.injEq, Option.some.injEq] at h
        rw [← h.1.2]
        exact hS.packageView_path _
      · simp at h
    · simp at h
  by_cases hjs : (g.extension? != some "js") = true
  · simp [detectName, hpj, hjs] at h
  have hjs' : (g.extension? != some "js") = false := by simpa using hjs
  simp only [detectName, hpj, hjs', Bool.false_eq_true, if_false] at h
  -- a script: the module created or found at the file is the one the entry names
  obtain ⟨id, r, hrun₁', hid⟩ := run_getOrInsert (c := c) (e := e) g fun _ => .source
  obtain ⟨id₁, e₁, hrun₁, h⟩ := run_bind_eq_ok h
  rw [getModule, hrun₁', Prod.mk.injEq, Except.ok.injEq] at hrun₁
  obtain ⟨hi, rfl⟩ := hrun₁
  subst hi
  have hL₁ := learns_getModule g c e hS
  rw [getModule, hrun₁'] at hL₁
  obtain ⟨b, e₂, hrun₂, h⟩ := run_bind_eq_ok h
  have hL₂ := learns_isHaste id c _ hL₁.1
  rw [hrun₂] at hL₂
  split at h
  · simp at h
  obtain ⟨name, e₃, hrun₃, h⟩ := run_bind_eq_ok h
  have hL₃ := learns_moduleName id c _ hL₂.1
  rw [hrun₃] at hL₃
  obtain ⟨m, e₄, hrun₄, h⟩ := run_bind_eq_ok h
  -- the file's module is still at its path, and reads as a module there
  have hat : e₃.registry.atPath? g.normalize = some id :=
    hL₃.2.1.covers.atPath _ _ (hL₂.2.1.covers.atPath _ _ hid)
  obtain ⟨m', hm', hpath, -⟩ := hL₃.1.placed.path _ _ hat
  rw [run_moduleOf_of_live hm', Prod.mk.injEq, Except.ok.injEq] at hrun₄
  obtain ⟨rfl, rfl⟩ := hrun₄
  simp only [run_pure, Prod.mk.injEq, Except.ok.injEq, Option.some.injEq] at h
  rw [← h.1.2]
  exact ⟨hpath, fun _ hq => by cases hq⟩

/-- A detected package entry names a package file. -/
theorem detectName_typed (hS : e.Settled) {g : Path} {n : String} {en : HasteEntry}
    (h : (run (detectName g) c e).1 = .ok (some (n, en))) :
    ∀ q, en = .package q → q.fileName? = some "package.json" := by
  rintro q rfl
  obtain ⟨hpath, hpkg⟩ := detectName_entry hS h
  simp only [HasteEntry.path] at hpath
  rw [hpath]
  exact Path.fileName?_normalize (hpkg q rfl)

/-- Detection at a normal path other than a package file registers the module at that path. -/
theorem detectName_module (hS : e.Settled) {g : Path} {n : String} {en : HasteEntry}
    (h : (run (detectName g) c e).1 = .ok (some (n, en))) (hg : g.IsNormal)
    (hpkg : g.fileName? ≠ some "package.json") : en = .module g := by
  obtain ⟨hpath, hpk⟩ := detectName_entry hS h
  cases en with
  | module q =>
    simp only [HasteEntry.path, hg.normalize_eq] at hpath
    rw [hpath]
  | package q => exact absurd (hpk q rfl) hpkg

/-- A settled state stays settled under any typed index. -/
theorem Settled.withHaste (hS : e.Settled) {h : HasteMap} (ht : h.Typed) :
    ({ e with haste := h } : Engine).Settled :=
  ⟨hS.detached, ht, hS.indexed, hS.placed, hS.packages⟩

/-- A change applied to the name index of a settled state: detection runs as a query does, from
the state whose index has lost the file's slots unless the file is new, and the index ends well
formed and typed, each slot holding what it held once the file's slots were cleared, or an entry
at the file itself when the file was not deleted. A file changed in place, not a package file,
that comes out holding the slots it held leaves every slot as it was. -/
theorem hasteChange_moves (hS : e.Settled) (hW : e.haste.WellFormed) (fc : FileChange) :
    ∃ e₁ h', Moves { e with haste := e.haste.clearFor fc } e₁ ∧ e₁.Settled ∧
      e₁.registry.resolved = e.registry.resolved ∧
      (run (hasteChange fc) c e).2 = { e₁ with haste := h' } ∧ h'.WellFormed ∧ h'.Typed ∧
      ((run (hasteChange fc) c e).1 = .ok false → fc.kind = .change → fc.path.IsNormal →
        fc.path.fileName? ≠ some "package.json" → ∀ n pl, h'.slot n pl = e.haste.slot n pl) ∧
      ∀ n pl en, h'.slot n pl = some en →
        (e.haste.clearFor fc).slot n pl = some en ∨ fc.kind ≠ .delete ∧ en.path = fc.path.normalize := by
  obtain ⟨kind, p⟩ := fc
  have hW₀ : (e.haste.clearFor ⟨kind, p⟩).WellFormed := hW.clearFor _
  have hS₀ : ({ e with haste := e.haste.clearFor ⟨kind, p⟩ } : Engine).Settled :=
    hS.withHaste (hS.typed.clearFor hW _)
  -- detection runs from the state whose index has lost the file's slots
  rcases hd : run (detectName p) c { e with haste := e.haste.clearFor ⟨kind, p⟩ } with ⟨r, e₁⟩
  obtain ⟨hS₁, hm₁, hr₁⟩ : e₁.Settled ∧ Moves _ e₁ ∧ e₁.registry.resolved = e.registry.resolved := by
    have h₁ := learns_detectName p c _ hS₀
    rw [hd] at h₁
    exact h₁
  have hh₁ : e₁.haste = e.haste.clearFor ⟨kind, p⟩ := hm₁.sight.haste
  have hstay : ∀ n pl en, e₁.haste.slot n pl = some en →
      (e.haste.clearFor ⟨kind, p⟩).slot n pl = some en ∨
        kind ≠ .delete ∧ en.path = (⟨kind, p⟩ : FileChange).path.normalize :=
    fun _ _ _ h => .inl (hh₁ ▸ h)
  -- a registration adds the entry detected at the file itself
  have hnew : ∀ {n : String} {en : HasteEntry} {h₂ : HasteMap}, kind ≠ .delete →
      (run (detectName p) c { e with haste := e.haste.clearFor ⟨kind, p⟩ }).1 = .ok (some (n, en)) →
      (e.haste.clearFor ⟨kind, p⟩).register c.opts.platforms n en = .ok h₂ →
      ∀ n pl en', h₂.slot n pl = some en' → (e.haste.clearFor ⟨kind, p⟩).slot n pl = some en' ∨
        kind ≠ .delete ∧ en'.path = (⟨kind, p⟩ : FileChange).path.normalize := by
    intro n en h₂ hk hdet hreg n' pl en' hs
    rcases HasteMap.slot_of_register hW₀ hreg hs with hs | rfl
    · exact .inl hs
    · exact .inr ⟨hk, (detectName_entry hS₀ hdet).1⟩
  cases kind with
  | add =>
    have hk : (ChangeKind.add != ChangeKind.delete) = true := rfl
    simp only [HasteMap.clearFor, if_true] at hd hh₁ hW₀
    simp only [hasteChange, run_bind, run_get, bne_self_eq_false, Bool.false_eq_true, if_false,
      hk, Bool.true_and]
    -- a new file held no slots: nothing is claimed of its slots
    by_cases hc : (p.extension? = some "js" || p.extension? = some "json") = true
    · simp only [hc, if_true, run_bind, hd]
      rcases r with err | _ | ⟨n, en⟩
      · exact ⟨e₁, e₁.haste, hm₁, hS₁, hr₁, rfl, hh₁ ▸ hW₀, hS₁.typed, (fun _ hk => by cases hk), hstay⟩
      · exact ⟨e₁, e₁.haste, hm₁, hS₁, hr₁, rfl, hh₁ ▸ hW₀, hS₁.typed, (fun _ hk => by cases hk), hstay⟩
      · simp only [registerName, run_bind, run_read, run_get, run_lift, run_modify, hh₁]
        have hdet : (run (detectName p) c { e with haste := e.haste.clearFor ⟨.add, p⟩ }).1 =
            .ok (some (n, en)) := by
          simp only [HasteMap.clearFor, if_true, hd]
        cases hreg : e.haste.register c.opts.platforms n en with
        | error err =>
          exact ⟨e₁, e₁.haste, hm₁, hS₁, hr₁, rfl, hh₁ ▸ hW₀, hS₁.typed, (fun _ hk => by cases hk), hstay⟩
        | ok h₂ =>
          exact ⟨e₁, h₂, hm₁, hS₁, hr₁, rfl, (HasteMap.register_eq_ok hW₀ hreg).1,
            hS.typed.register hW (detectName_typed hS₀ hdet) hreg, (fun _ hk => by cases hk),
            hnew (by decide) hdet hreg⟩
    · simp only [hc, Bool.false_eq_true, if_false]
      exact ⟨_, e.haste, .refl _, hS₀, rfl, rfl, hW, hS.typed, (fun _ hk => by cases hk),
        fun _ _ _ h => .inl h⟩
  | change =>
    have hk : (ChangeKind.change != ChangeKind.add) = true := rfl
    have hk' : (ChangeKind.change != ChangeKind.delete) = true := rfl
    simp only [HasteMap.clearFor, reduceCtorEq, if_false] at hd hh₁ hW₀
    simp only [hasteChange, run_bind, run_get, run_modify, hk, hk', if_true, Bool.true_and]
    by_cases hc : (p.extension? = some "js" || p.extension? = some "json") = true
    · simp only [hc, if_true, run_bind, hd]
      rcases r with err | _ | ⟨n, en⟩
      · exact ⟨e₁, e₁.haste, hm₁, hS₁, hr₁, rfl, hh₁ ▸ hW₀, hS₁.typed, (by simp), hstay⟩
      · refine ⟨e₁, e₁.haste, hm₁, hS₁, hr₁, rfl, hh₁ ▸ hW₀, hS₁.typed, fun hres _ _ _ n pl => ?_,
          hstay⟩
        -- nothing registered: the file's slots are gone, and were none
        simp only [run_bind, run_get, run_pure, Except.ok.injEq, bne_eq_false_iff_eq] at hres
        rw [hh₁] at hres ⊢
        exact HasteMap.slot_removePath_of_slotsFor hW hres n pl
      · simp only [registerName, run_bind, run_read, run_get, run_lift, run_modify, hh₁]
        have hdet : (run (detectName p) c { e with haste := e.haste.clearFor ⟨.change, p⟩ }).1 =
            .ok (some (n, en)) := by
          simp only [HasteMap.clearFor, reduceCtorEq, if_false, hd]
        cases hreg : (e.haste.removePath p).register c.opts.platforms n en with
        | error err => exact ⟨e₁, e₁.haste, hm₁, hS₁, hr₁, rfl, hh₁ ▸ hW₀, hS₁.typed, (by simp), hstay⟩
        | ok h₂ =>
          refine ⟨e₁, h₂, hm₁, hS₁, hr₁, rfl, (HasteMap.register_eq_ok hW₀ hreg).1,
            (hS.typed.removePath hW p).register hW₀ (detectName_typed hS₀ hdet) hreg,
            fun hres _ hp hpkg n pl => ?_, hnew (by decide) hdet hreg⟩
          -- the file registered itself again, as a module, into the slots it held
          obtain rfl := detectName_module hS₀ hdet hp hpkg
          simp only [run_pure, Except.ok.injEq, bne_eq_false_iff_eq] at hres
          exact HasteMap.slot_register_of_slotsFor hW hS.typed hpkg hreg hres n pl
    · simp only [hc, Bool.false_eq_true, if_false]
      refine ⟨_, _, .refl _, hS₀, rfl, rfl, hW₀, hS₀.typed, fun hres _ _ _ n pl => ?_,
        fun _ _ _ h => .inl h⟩
      simp only [run_bind, run_get, run_pure, Except.ok.injEq, bne_eq_false_iff_eq] at hres
      exact HasteMap.slot_removePath_of_slotsFor hW hres n pl
  | delete =>
    have hk : (ChangeKind.delete != ChangeKind.add) = true := rfl
    simp only [hasteChange, run_bind, run_get, run_modify, hk, if_true, bne_self_eq_false,
      Bool.false_and, Bool.false_eq_true, if_false]
    exact ⟨_, _, .refl _, hS₀, rfl, rfl, hW₀, hS₀.typed, (fun _ hk => by cases hk),
      fun _ _ _ h => .inl h⟩

/-! ## A scan of the name index -/

theorem learns_buildHasteMap : Learns buildHasteMap := by
  unfold buildHasteMap
  refine .bind .get fun _ => .bind (.mapM (fun f => (learns_detectName f).attempt) _) fun _ =>
    .bind .read fun _ => .bind (.mapM (fun r => .lift _ r) _) fun found => .of_state fun c e => ?_
  exact congrArg Prod.snd (run_foldlM_lift _ _ _)

/-- Detecting the names of a list of files from a settled state finds only typed entries, each at
one of the files. -/
theorem mapM_detectName_entry : ∀ (l : List Path) (e : Engine), e.Settled →
    ∀ rs, (run (l.mapM fun f => attempt (detectName f)) c e).1 = .ok rs →
      ∀ r ∈ rs, ∀ n en, r = .ok (some (n, en)) → (∃ g ∈ l, en.path = g.normalize) ∧
        ∀ q, en = .package q → q.fileName? = some "package.json"
  | [], e, _, rs, h => by
    simp only [List.mapM_nil, run_pure, Except.ok.injEq] at h
    subst h
    simp
  | g :: l, e, hS, rs, h => by
    rw [List.mapM_cons, run_bind, run_attempt] at h
    have hS₁ := (learns_detectName g c e hS).1
    rcases hg : run (detectName g) c e with ⟨r₀, e₁⟩
    rw [hg] at h hS₁
    have hr₀ : ∀ n en, r₀ = .ok (some (n, en)) → (∃ g' ∈ g :: l, en.path = g'.normalize) ∧
        ∀ q, en = .package q → q.fileName? = some "package.json" := fun n en hr =>
      ⟨⟨g, List.mem_cons_self .., (detectName_entry hS (by rw [hg, hr])).1⟩,
        detectName_typed hS (by rw [hg, hr])⟩
    -- the first file's entry, then the rest from the state its detection left
    have tail := mapM_detectName_entry l e₁ hS₁
    have hlift : ∀ {en : HasteEntry}, (∃ g' ∈ l, en.path = g'.normalize) →
        ∃ g' ∈ g :: l, en.path = g'.normalize :=
      Exists.imp fun _ hg' => ⟨List.mem_cons_of_mem _ hg'.1, hg'.2⟩
    rcases r₀ with err | v <;> simp only [run_bind] at h <;>
      rcases hl : run (l.mapM fun f => attempt (detectName f)) c e₁ with ⟨_ | rs', e₂⟩ <;>
      simp only [hl, run_pure] at h <;> cases h
    · intro r hr n en hen
      rcases List.mem_cons.1 hr with rfl | hr
      · cases hen
      · have ht := tail rs' (by rw [hl]) r hr n en hen
        exact ⟨hlift ht.1, ht.2⟩
    · intro r hr n en hen
      rcases List.mem_cons.1 hr with rfl | hr
      · exact hr₀ n en hen
      · have ht := tail rs' (by rw [hl]) r hr n en hen
        exact ⟨hlift ht.1, ht.2⟩

theorem run_mapM_lift_self {β : Type} : ∀ rs : List (Except Error β),
    run (rs.mapM fun r => lift id r) c e = (rs.mapM fun r => r, e)
  | [] => rfl
  | r :: rs => by
    simp only [List.mapM_cons, run_bind, run_lift]
    cases r with
    | error err => rfl
    | ok b =>
      simp only [run_mapM_lift_self rs]
      cases rs.mapM fun r => r <;> rfl

/-- Registering a list of typed entries, one after another, into a well-formed typed index
keeps it so, each slot holding what it held or one of the entries. -/
theorem foldlM_register_typed {ps : List String} : ∀ (l : List (String × HasteEntry)) (h h' : HasteMap),
    h.WellFormed → h.Typed → (∀ x ∈ l, ∀ q, x.2 = .package q → q.fileName? = some "package.json") →
    l.foldlM (fun h x => h.register ps x.1 x.2) h = .ok h' → h'.WellFormed ∧ h'.Typed ∧
      ∀ n pl en, h'.slot n pl = some en → h.slot n pl = some en ∨ ∃ x ∈ l, x.2 = en
  | [], h, h', hh, ht, _, hf => by
    cases hf
    exact ⟨hh, ht, fun _ _ _ hs => .inl hs⟩
  | x :: l, h, h', hh, ht, hl, hf => by
    rw [List.foldlM_cons] at hf
    cases hreg : h.register ps x.1 x.2 with
    | error err => rw [hreg] at hf; cases hf
    | ok h₁ =>
      rw [hreg] at hf
      obtain ⟨hh', ht', hslot⟩ := foldlM_register_typed l h₁ h' (HasteMap.register_eq_ok hh hreg).1
        (ht.register hh (hl x (List.mem_cons_self ..)) hreg)
        (fun y hy => hl y (List.mem_cons_of_mem _ hy)) hf
      refine ⟨hh', ht', fun n pl en hs => ?_⟩
      -- a slot the rest left holding something held it after `x`, so before it or is `x`'s
      rcases hslot n pl en hs with hs₁ | ⟨y, hy, rfl⟩
      · rcases HasteMap.slot_of_register hh hreg hs₁ with hs₀ | rfl
        · exact .inl hs₀
        · exact .inr ⟨x, List.mem_cons_self .., rfl⟩
      · exact .inr ⟨y, List.mem_cons_of_mem _ hy, rfl⟩

/-- A scan of the name index from a settled state builds a well-formed typed index, whose every
entry stands at a file the scan reads. -/
theorem buildHasteMap_typed (hS : e.Settled) {h : HasteMap}
    (hb : (run buildHasteMap c e).1 = .ok h) : h.WellFormed ∧ h.Typed ∧
      ∀ n pl en, h.slot n pl = some en → ∃ g ∈ e.vfs.findByExts ["js", "json"], en.path = g.normalize := by
  simp only [buildHasteMap, run_bind, run_get, run_read] at hb
  have hentry := mapM_detectName_entry (c := c) (e.vfs.findByExts ["js", "json"]) e hS
  rcases hd : run ((e.vfs.findByExts ["js", "json"]).mapM fun f => attempt (detectName f)) c e
    with ⟨_ | rs, e₁⟩ <;> rw [hd] at hb hentry
  · cases hb
  simp only [run_mapM_lift_self] at hb
  cases hfound : rs.mapM fun r => r with
  | error err => rw [hfound] at hb; cases hb
  | ok found =>
    rw [hfound] at hb
    dsimp only at hb
    rw [run_foldlM_lift] at hb
    -- every entry found is one detection gave, typed and at a file read
    have hall := forall_of_mapM_eq_ok (fun r => r) rs found hfound
    obtain ⟨found', hfound', hmem⟩ := mapM_eq_ok_of_forall (fun r => r) rs hall
    rw [hfound] at hfound'
    cases hfound'
    have hfrom : ∀ x ∈ found.filterMap id, (∃ g ∈ e.vfs.findByExts ["js", "json"],
        x.2.path = g.normalize) ∧ ∀ q, x.2 = .package q → q.fileName? = some "package.json" := by
      intro x hx
      obtain ⟨o, ho, hox⟩ := List.mem_filterMap.1 hx
      obtain ⟨r, hr, hro⟩ := (hmem o).1 ho
      subst hox
      exact hentry rs rfl r hr x.1 x.2 hro
    obtain ⟨hh, ht, hslot⟩ := foldlM_register_typed _ _ _ HasteMap.wellFormed_empty
      (fun n pl q hq => by simp [HasteMap.slot, HasteMap.empty] at hq) (fun x hx => (hfrom x hx).2) hb
    refine ⟨hh, ht, fun n pl en hs => ?_⟩
    rcases hslot n pl en hs with hs₀ | ⟨x, hx, rfl⟩
    · simp at hs₀
    · exact (hfrom x hx).1

end Engine

end ModuleBundler
