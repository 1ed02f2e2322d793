import ModuleBundler.Proofs.Resolve.MemoRuns
import ModuleBundler.Proofs.Resolve.ExistingFiles
import ModuleBundler.Proofs.Bundle.AssetVariants
import ModuleBundler.Proofs.Path.NormalForm

/-!
# The index names live files

Resolution takes a module entry of the name index as it stands, with no look at the mirror
(`ExistingFiles`), so whether a resolved module is a file that exists rests on what the index
holds. Along every run the memo theory follows (`MemoStep`), the index holds only files of the
mirror for as long as its error flag is down (`Engine.IndexOnFiles`): a change clears the entries
of the paths it removes or changes, registers only files it found, and a failed update raises the
flag, after which nothing is claimed. From it, a name required from a module resolves, through the
memo, the index, a path, a package or the asset index, to a module whose file exists
(`Engine.resolveDependency_answers_existing_file`). Once an update has failed, the index keeps the
entries of deleted files and resolution answers one (`stale_index_resolves_deleted_file`).
-/

namespace ModuleBundler

open EngineM

/-! ## Loops that work through their list -/

namespace Upholds

variable {β γ : Type}

/-- A loop whose body always goes on, and takes a state where `P` holds of the elements left to
one where it holds of the rest, goes through the whole list and ends where `P` holds of none. -/
theorem forIn_list_along {P : List γ → Engine → Prop} {f : γ → β → EngineM (ForInStep β)}
    (hgo : ∀ a b c e, ∃ b', (run (f a b) c e).1 = .ok (.yield b'))
    (hf : ∀ a l b c e, P (a :: l) e → P l (run (f a b) c e).2) :
    ∀ (l : List γ) (b : β) (c : Context) (e : Engine) {r : Except Error β} {e' : Engine},
      run (forIn l b f) c e = (r, e') → P l e → (∃ b', r = .ok b') ∧ P [] e'
  | [], b, c, e, r, e', hrun, h => by
    cases hrun
    exact ⟨⟨b, rfl⟩, h⟩
  | a :: l, b, c, e, r, e', hrun, h => by
    obtain ⟨b', hb'⟩ := hgo a b c e
    have h₁ := hf a l b c e h
    rw [List.forIn_cons, run_bind] at hrun
    rcases hstep : run (f a b) c e with ⟨r₁, e₁⟩
    rw [hstep] at hb' h₁ hrun
    subst hb'
    exact forIn_list_along hgo hf l b' c e₁ hrun h₁

end Upholds

namespace HasteMap

variable {h : HasteMap} {fc : FileChange} {n : String} {pl : Option String} {en : HasteEntry}

/-- A slot left after clearing a changed file held the same entry before, and, unless the file is
new, not an entry of the file. -/
theorem slot_clearFor (hh : h.WellFormed) (hs : (h.clearFor fc).slot n pl = some en) :
    h.slot n pl = some en ∧ (fc.kind ≠ .add → en.path ≠ fc.path) := by
  unfold clearFor at hs
  split at hs
  · rename_i hk
    exact ⟨hs, fun h => absurd hk h⟩
  · rw [slot_removePath hh] at hs
    obtain ⟨hs, hp⟩ := Option.filter_eq_some_iff.1 hs
    exact ⟨hs, fun _ => by simpa using hp⟩

end HasteMap

namespace Engine

variable {c : Context} {e : Engine}

/-! ## Where the index's modules are -/

/-- With the error flag down, every module the index gives is at a path `G` admits. -/
def ModulesAt (G : Path → Prop) (e : Engine) : Prop :=
  e.hasteError = false → ∀ n pl q, e.haste.slot n pl = some (.module q) → G q

/-- With the error flag down, every module the index gives is a file of the mirror. -/
def IndexOnFiles (e : Engine) : Prop :=
  e.ModulesAt fun q => ∃ d, e.vfs.node? q = some (.file d)

theorem ModulesAt.flagUp {G : Path → Prop} : ModulesAt G { e with hasteError := true } :=
  fun h => nomatch h

/-- A step that moves the state as a query does keeps the index on files. -/
theorem IndexOnFiles.moves {e' : Engine} (hI : e.IndexOnFiles) (hm : Moves e e') :
    e'.IndexOnFiles := by
  intro hflag n pl q hq
  rw [hm.sight.hasteError] at hflag
  rw [hm.sight.haste] at hq
  exact (hm.sight.shape.file q).2 (hI hflag n pl q hq)

/-- The modules a change still has to clear from the index: those at a path of a change in `l`
that is not an addition. -/
def Pending (l : List FileChange) (q : Path) : Prop := ∃ fc ∈ l, fc.kind ≠ .add ∧ fc.path = q

/-- One round of the index half of a change, from a settled state with a well-formed index: the
file's slots are cleared unless it is new, so it is no longer pending, and what it registers is
at the file itself. -/
theorem modulesAt_hasteChange {G : Path → Prop} {fc : FileChange} {l : List FileChange}
    (hS : e.Settled) (hW : e.haste.WellFormed) (hnew : fc.kind ≠ .delete → G fc.path.normalize)
    (hI : e.ModulesAt fun q => G q ∨ Pending (fc :: l) q) :
    (run (hasteChange fc) c e).2.ModulesAt fun q => G q ∨ Pending l q := by
  obtain ⟨e₁, h', hm, -, -, hrun, -, -, -, hslot⟩ := hasteChange_moves (c := c) hS hW fc
  rw [hrun]
  intro hflag n pl q hq
  have hflag₀ : e.hasteError = false := hm.sight.hasteError.symm.trans hflag
  rcases hslot n pl _ hq with hc | ⟨hk, hp⟩
  · -- the slot held the module once the file's slots were cleared
    obtain ⟨hq₀, hne⟩ := HasteMap.slot_clearFor hW hc
    rcases hI hflag₀ n pl q hq₀ with hG | ⟨fc', hfc', hk', rfl⟩
    · exact .inl hG
    · rcases List.mem_cons.1 hfc' with rfl | hl
      · exact absurd rfl (hne hk')
      · exact .inr ⟨fc', hl, hk', rfl⟩
  · simp only [HasteEntry.path] at hp
    rw [hp]
    exact .inl (hnew hk)

/-- The index half of a change, from the state the mirror's half left, with its mirror `v₁`:
when every module of the index is a file of `v₁` or on a path the change clears, and every file
the change registers or a scan reads is a file of `v₁`, every module of the index ends a file of
the mirror. The index is rebuilt from a scan after a failed update, and updated
change by change otherwise. -/
theorem indexOnFiles_graphChange {ev : WatchEvent} {change : FileChange} {v₁ : Vfs}
    (hS : e.Settled) (hW : e.haste.WellFormed) (hd : v₁.detached = [])
    (hr : e.vfs.processChange e.disk ev.kind ev.root ev.relative = (some change, v₁))
    (hscan : ∀ g ∈ v₁.findByExts ["js", "json"], ∃ d, v₁.node? g.normalize = some (.file d))
    (hnew : ∀ fc ∈ e.changedFiles ev change, fc.kind ≠ .delete →
      ∃ d, v₁.node? fc.path.normalize = some (.file d))
    (hold : e.ModulesAt fun q => (∃ d, v₁.node? q = some (.file d)) ∨
      Pending (e.changedFiles ev change) q) :
    (run (graphChange ev) c e).2.IndexOnFiles := by
  let G : Path → Prop := fun q => ∃ d, v₁.node? q = some (.file d)
  suffices h : ∃ r₀, Calm e.disk v₁ r₀ (run (graphChange ev) c e).2 ∧
      (run (graphChange ev) c e).2.ModulesAt G by
    obtain ⟨r₀, hP, hM⟩ := h
    exact fun hflag n pl q hq => (hP.shape.file q).2 (hM hflag n pl q hq)
  simp only [graphChange, run_bind, run_get, run_modify, hr]
  obtain ⟨e₂, hrun₂, hS₂, hd₂, hv₂, hh₂, herr₂, -⟩ := run_forIn_registryChange_settled (c := c) _
    { e with vfs := v₁ } ⟨hd, hS.typed, hS.indexed, hS.placed, hS.packages⟩
  rw [hrun₂]
  dsimp only
  refine ⟨e₂.registry.resolved, ?_⟩
  have hP₂ : Calm e.disk v₁ e₂.registry.resolved e₂ := ⟨hS₂, hh₂ ▸ hW, hd₂, hv₂ ▸ .refl _, .inr rfl⟩
  -- what the end of a change keeps: it only forgets the memo
  have hend : ∀ (p : Prop) [Decidable p] (a : Option GraphChange),
      Upholds (fun s => Calm e.disk v₁ e₂.registry.resolved s ∧ s.ModulesAt G)
        (if p then clearResolutions >>= fun _ => pure a else pure a) := fun p _ a =>
    .ite (.bind (fun _ _ hP => ⟨upholds_clearResolutions _ _ hP.1, hP.2⟩) fun _ => .pure a) (.pure a)
  by_cases hflag : e₂.hasteError = true
  · -- a failed update before: the index is rebuilt by a scan of the files of `v₁`
    rw [if_pos hflag, run_bind, run_attempt]
    have hL := learns_buildHasteMap.calm c e₂ hP₂
    obtain ⟨-, hm₃, -⟩ := learns_buildHasteMap c e₂ hS₂
    rcases hb : run buildHasteMap c e₂ with ⟨err | h, e₃⟩ <;> rw [hb] at hL hm₃ <;> dsimp only
    · -- the scan failed: the flag stays up
      have hflag₃ : e₃.hasteError = true := hm₃.sight.hasteError.trans hflag
      refine (show Upholds (fun s => Calm e.disk v₁ e₂.registry.resolved s ∧ s.ModulesAt G) _
        from ?_) c e₃ ⟨hL, fun h => ?_⟩
      · exact .bind (.pure _) fun _ => hend _ _
      · rw [hflag₃] at h
        cases h
    · -- the scan succeeded: its modules are files it read, and the flag goes down
      obtain ⟨hh, ht, hslot⟩ := buildHasteMap_typed hS₂ (by rw [hb])
      have hflag₃ : e₃.hasteError = true := hm₃.sight.hasteError.trans hflag
      refine (show Upholds (fun s => Calm e.disk v₁ e₂.registry.resolved s ∧ s.ModulesAt G) _
        from ?_) c e₃ ⟨hL, fun h => ?_⟩
      · refine .bind (.update fun s hP => ⟨?_, fun _ n pl q hq => ?_⟩) fun _ =>
          .bind (.pure _) fun _ => hend _ _
        · exact ⟨⟨hP.1.settled.detached, ht, hP.1.settled.indexed, hP.1.settled.placed,
            hP.1.settled.packages⟩, hh, hP.1.disk, hP.1.shape, hP.1.memo⟩
        · obtain ⟨g, hg, hq⟩ := hslot n pl _ hq
          simp only [HasteEntry.path] at hq
          rw [hq]
          have hv : e₂.vfs = v₁ := hv₂
          exact hscan g (hv ▸ hg)
      · rw [hflag₃] at h
        cases h
  · -- the index is updated change by change, each clearing its file and registering it anew
    rw [if_neg hflag, run_bind]
    rcases hrun : run (forIn _ false _) c e₂ with ⟨r, e₃⟩
    have hloop := Upholds.forIn_list_along
      (P := fun l s => Calm e.disk v₁ e₂.registry.resolved s ∧
        (∀ fc ∈ l, fc.kind ≠ .delete → G fc.path.normalize) ∧ s.ModulesAt fun q => G q ∨ Pending l q)
      ?_ ?_ (e.changedFiles ev change) false c e₂ hrun ⟨hP₂, hnew, fun hf n pl q hq => ?_⟩
    · -- once every change is applied, no module is pending
      obtain ⟨⟨b, rfl⟩, hP, -, hM⟩ := hloop
      dsimp only
      refine (show Upholds (fun s => Calm e.disk v₁ e₂.registry.resolved s ∧ s.ModulesAt G) _
        from ?_) c e₃ ⟨hP, fun hf n pl q hq => ?_⟩
      · exact .bind (.pure _) fun _ => hend _ _
      rcases hM hf n pl q hq with hG | ⟨fc, hfc, -⟩
      · exact hG
      · cases hfc
    · -- each round always goes on
      intro fc b c' s
      simp only [run_bind, run_attempt]
      rcases run (hasteChange fc) c' s with ⟨_ | _, s'⟩ <;> exact ⟨_, rfl⟩
    · -- a round clears its file and registers it anew, or raises the flag
      intro fc l b c' s hPs
      obtain ⟨hP, hN, hM⟩ := hPs
      have hC := upholds_hasteChange fc c' s hP
      have hM' := modulesAt_hasteChange (c := c') hP.settled hP.index
        (hN fc List.mem_cons_self) hM
      have hN' : ∀ fc' ∈ l, fc'.kind ≠ .delete → G fc'.path.normalize :=
        fun fc' h => hN fc' (List.mem_cons_of_mem _ h)
      simp only [run_bind, run_attempt]
      rcases hrun : run (hasteChange fc) c' s with ⟨_ | _, s'⟩ <;> rw [hrun] at hC hM' <;> dsimp only
      · exact ⟨hC.flagUp, hN', ModulesAt.flagUp⟩
      · exact ⟨hC, hN', hM'⟩
    · rw [hh₂, herr₂] at *
      exact hold hf n pl q hq

/-! ## Along a run -/

/-- Every file a scan reads from a mirror exact for its disk is a file of the mirror, at a normal
path. -/
theorem node?_of_mem_findByExts {D : Disk} {v : Vfs} (hM : Vfs.Mirrors D v) {exts : List String}
    {g : Path} (hg : g ∈ v.findByExts exts) : ∃ d, v.node? g.normalize = some (.file d) := by
  obtain ⟨d, hd⟩ := (Vfs.mem_allFiles_iff hM.nodup).1 (List.mem_filter.1 hg).1
  exact ⟨d, by rw [(hM.files g d hd).1.normalize_eq, hd]⟩

/-- A change the mirror drops keeps the index on files: the mirror, the index and its flag are as
they were. -/
theorem IndexOnFiles.dropped {D' : Disk} {ev : WatchEvent} {p : Path} {v₁ : Vfs}
    (hI : e.IndexOnFiles) (hev : (ev.root.join ev.relative).normalize = p)
    (hr : e.vfs.processChange D' ev.kind ev.root ev.relative = (none, v₁)) :
    (run (graphChange ev) c { e with disk := D' }).2.IndexOnFiles := by
  have hv : v₁ = e.vfs := by
    have h₁ := (Vfs.processChange_eq_none hev (by rw [hr])).2
    rwa [hr] at h₁
  subst hv
  rw [run_graphChange_dropped (e := { e with disk := D' }) hr]
  exact hI

/-- A file written and reported keeps the index on files: an index module at the written file
is that file, and every other keeps its file. -/
theorem IndexOnFiles.write (h : e.Steady c) (hI : e.IndexOnFiles) {p : Path} {ev : WatchEvent}
    (bytes : List UInt8) (mtime : Nat) (hp : p.IsNormal) (hp0 : p ≠ Disk.rootPath)
    (hpar : ∀ q, p.parent? = some q → e.disk.find? q = some .dir) (hnd : e.disk.find? p ≠ some .dir)
    (hk : ev.kind ≠ .delete) (hev : (ev.root.join ev.relative).normalize = p) :
    (run (graphChange ev) c { e with disk := e.disk.put p (.file bytes mtime) }).2.IndexOnFiles := by
  have hF := frame_write h.mirrors h.detached bytes mtime hp hp0 hpar hnd hk hev
  have hD' := hF.mirrors.disk
  rcases hr : e.vfs.processChange (e.disk.put p (.file bytes mtime)) ev.kind ev.root ev.relative
    with ⟨_ | change, v₁⟩
  · exact hI.dropped hev hr
  obtain ⟨hacc, rfl⟩ := Vfs.processChange_eq_some hev (congrArg Prod.fst hr)
  rw [hr] at hF
  -- the written file is a file of the new mirror
  have hfile : (e.disk.put p (.file bytes mtime)).isFile p = true :=
    (hD'.isFile_iff hp).2 ⟨bytes, mtime, by simp [Disk.find?_put hp0]⟩
  have hdir : e.disk.isDir p = false :=
    Bool.eq_false_iff.2 fun h' => hnd ((h.mirrors.disk.isDir_iff hp).1 h')
  have hL : Vfs.Listed (e.disk.put p (.file bytes mtime)) v₁ p :=
    (Vfs.listed_congr hF.roots hF.ignore hF.extensions).2
      (h.mirrors.listed_of_accepts hp hdir hacc hfile)
  have hpv : ∃ d, v₁.node? p = some (.file d) := hF.mirrors.complete p hL
  refine indexOnFiles_graphChange (e := { e with disk := e.disk.put p (.file bytes mtime) })
    ⟨h.detached, h.typed, h.indexed, h.placed, h.packages⟩ h.index hF.detached hr
    (fun g hg => node?_of_mem_findByExts hF.mirrors hg) (fun fc hfc _ => ?_)
    fun hflag n pl q hq => .inl ?_
  · rw [changedFiles_of_ne_delete hk, List.mem_singleton] at hfc
    rw [hfc, hp.normalize_eq]
    exact hpv
  · -- a module off the written file keeps its file
    obtain ⟨d, hd⟩ := hI hflag n pl q hq
    by_cases hqp : q = p
    · rw [hqp]
      exact hpv
    · exact ⟨d, hF.node q d hqp hd⟩

/-- A removal reported as one deletion keeps the index on files: an index module under the
removed path is among the files the deletion clears, and every other keeps its file. -/
theorem IndexOnFiles.remove (h : e.Steady c) (hI : e.IndexOnFiles) {p : Path} {x : DiskEntry}
    {ev : WatchEvent} (he : e.disk.find? p = some x) (hp0 : p ≠ Disk.rootPath)
    (hk : ev.kind = .delete) (hev : (ev.root.join ev.relative).normalize = p)
    (hok : MemoSafe e (e.disk.removeAll p) ⟨.delete, p⟩) :
    (run (graphChange ev) c { e with disk := e.disk.removeAll p }).2.IndexOnFiles := by
  have hp := h.mirrors.disk.isNormal_of_find? he
  have hinner : Vfs.HoldsNoInnerRoot e.vfs.roots p := by
    cases x with
    | file b m => exact h.mirrors.holdsNoInnerRoot hp (by simp [he])
    | dir => exact hok.2 he
  have hF := frame_remove h.mirrors h.detached he hp0 hinner hev
  rw [← hk] at hF
  rcases hr : e.vfs.processChange (e.disk.removeAll p) ev.kind ev.root ev.relative
    with ⟨_ | change, v₁⟩
  · exact hI.dropped hev hr
  obtain ⟨-, rfl⟩ := Vfs.processChange_eq_some hev (congrArg Prod.fst hr)
  rw [hr] at hF
  have hr' : e.vfs.processChange (e.disk.removeAll p) ev.kind ev.root ev.relative =
      (some ⟨.delete, p⟩, v₁) := by rw [hr, hk]
  refine indexOnFiles_graphChange (e := { e with disk := e.disk.removeAll p })
    ⟨h.detached, h.typed, h.indexed, h.placed, h.packages⟩ h.index hF.detached hr'
    (fun g hg => node?_of_mem_findByExts hF.mirrors hg) (fun fc hfc hfk => ?_)
    fun hflag n pl q hq => ?_
  · -- a deletion registers nothing
    rcases mem_changedFiles hfc with rfl | ⟨hfk', -⟩
    · exact absurd rfl hfk
    · exact absurd hfk' hfk
  · obtain ⟨d, hd⟩ := hI hflag n pl q hq
    by_cases hqp : q.startsWith p
    · -- under the removed path: the deletion clears it
      have hmem := mem_changedFiles_of_listed (e := { e with disk := e.disk.removeAll p })
        h.mirrors hp hk hev hinner (h.mirrors.files q d hd) hqp
      obtain ⟨fc, hfc, hfq⟩ := List.mem_map.1 hmem
      refine .inr ⟨fc, hfc, ?_, hfq⟩
      rcases mem_changedFiles hfc with rfl | ⟨hfk, -⟩
      · simp
      · rw [hfk]
        simp
    · exact .inl ⟨d, hF.node q d hqp hd⟩

/-- Every step of a running engine that keeps its memo true keeps the index on files. -/
theorem IndexOnFiles.step (h : e.Steady c) (hI : e.IndexOnFiles) {e' : Engine}
    (hs : MemoStep c e e') : e'.IndexOnFiles := by
  cases hs with
  | watched hw =>
    cases hw with
    | write bytes mtime hp hp0 hpar hnd hk hev _ => exact hI.write h bytes mtime hp hp0 hpar hnd hk hev
    | mkdir _ _ _ _ => exact hI
    | remove he hp0 hk hev hok => exact hI.remove h he hp0 hk hev hok
  | query platform hentry => exact hI.moves (graphDependencies_sound h.toSound hentry).2

/-- Along a run of queries and changes that keep the memo true, the index stays on files. -/
theorem IndexOnFiles.reach (h : e.Steady c) (hI : e.IndexOnFiles) {e' : Engine}
    (hr : Relation.ReflTransGen (MemoStep c) e e') : e'.IndexOnFiles := by
  induction hr with
  | refl => exact hI
  | tail hr' hs ih => exact ih.step (h.reach hr') hs

/-- A started packager's index, built by a scan of its mirror, is on files. -/
theorem indexOnFiles_start {opts : PackagerOptions} {global : GlobalConfig} {t : Transformer}
    {D : Disk} (hD : D.WellFormed)
    (hroots : ∀ r ∈ opts.projectRoots, (Path.ofString r).normalize.IsNormal)
    (h : startPackager opts global t D = .ok (c, e)) (hI : e.vfs.ignore.ClosedBelow) :
    e.IndexOnFiles := by
  obtain ⟨e₀, e₁, idx, hT₀, hF, hidx, rfl⟩ := Tracks.start hD hroots h hI
  obtain ⟨-, -, -, H⟩ := hasteIndex_eq_ok hT₀.registry hidx
  intro _ n pl q hq
  -- a module the scan registered is a file it read
  obtain ⟨⟨g, hg, hdet⟩, -⟩ := (H n pl _).1 hq
  have hgq := detected_path hT₀.registry hdet
  simp only [HasteEntry.path] at hgq
  subst hgq
  exact (hF.keeps.shape.file _).2 (hT₀.mirrors.complete _ ((mem_candidates_iff hT₀.mirrors).1 hg).1)

/-- With the flag down, an index on files holds only files that exist, for a mirror exact for its
disk with no detached root and a well-formed index. -/
theorem IndexOnFiles.indexFilesExist (hI : e.IndexOnFiles) (hM : Vfs.Mirrors e.disk e.vfs)
    (hdet : e.vfs.detached = []) (hW : e.haste.WellFormed) (hflag : e.hasteError = false) :
    e.IndexFilesExist := by
  intro nv hnv ve hve
  cases hen : ve.2 with
  | package _ => rfl
  | module q =>
    have hs : e.haste.slot nv.1 ve.1 = some (.module q) :=
      hW.slot_eq_some.2 ⟨nv.2, hnv, hen ▸ hve⟩
    obtain ⟨d, hd⟩ := hI hflag _ _ q hs
    have hL := hM.files q d hd
    rw [HasteEntry.fileExistsIn, hM.fileExists_iff hdet, hL.1.normalize_eq]
    exact hL

/-- Whether the index holds only existing files depends on what resolution sees only. -/
theorem IndexFilesExist.of_sight {e' : Engine} (h : e.IndexFilesExist) (hs : e.SameSight e') :
    e'.IndexFilesExist := by
  intro nv hnv ve hve
  rw [hs.haste] at hnv
  have hex := h nv hnv ve hve
  cases hen : ve.2 with
  | package _ => rfl
  | module q =>
    rw [hen] at hex
    simp only [HasteEntry.fileExistsIn] at hex ⊢
    rw [hs.fileExists]
    exact hex

end Engine

/-! ## Resolved modules are files -/

/-- Whether the mirror has a file does not depend on how its path is written. -/
theorem Vfs.fileExists_normalize (v : Vfs) (D : Disk) (p : Path) :
    v.fileExists D p.normalize = v.fileExists D p := by
  simp only [Vfs.fileExists, Path.normalize_normalize]

/-- The file backing a required asset is a file the mirror has: the required path itself, or one
of its variants. -/
theorem AssetIndex.resolve_fileExists {ai : AssetIndex} {v : Vfs} {disk : Disk} {dir : Path}
    {name : String} {pl : Option String} {p : Path} (h : ai.resolve v disk dir name pl = some p) :
    v.fileExists disk p = true := by
  have hvar : ∀ q x, x ∈ ai.variants v disk q pl → v.fileExists disk x.1 = true :=
    fun q x hx => ((AssetIndex.variants_sound ai v disk q pl).1 x hx).present
  unfold AssetIndex.resolve at h
  split at h
  · cases h
  · dsimp only at h
    revert h
    generalize (if name.startsWith "/" then some (Path.ofString name).normalize
      else if name.startsWith "." then some (dir.join (Path.ofString name)).normalize else none) = path?
    rcases path? with _ | path
    · intro h
      cases h
    · -- the path the name names is the answer itself or has the answer as a variant
      intro hp
      dsimp only at hp
      split at hp
      · rename_i hpath
        split at hp
        · rename_i x rest hvs
          cases hp
          exact hvar _ _ (by rw [hvs]; exact List.mem_cons_self)
        · cases hp
          exact (Bool.and_eq_true _ _ ▸ hpath).1
      · obtain ⟨x, hx, rfl⟩ := Option.map_eq_some_iff.1 hp
        exact hvar _ _ (List.mem_of_mem_head? hx)

namespace Engine

variable {c : Context} {e : Engine}

/-- A module number answers a file: the module the registry keeps at a path that is a file the
mirror has or a module the index gives; or it is the registry's module for a suppressed
dependency. -/
def FileAnswer (id : Nat) (e : Engine) : Prop :=
  (∃ p : Path, (e.vfs.fileExists e.disk p = true ∨ ∃ n pl, e.haste.get? n pl = some (.module p)) ∧
      e.registry.atPath? p.normalize = some id) ∨
    ∃ n, e.registry.nullOf n = some id

/-- Whatever a search finds answers a file. -/
def FileFound (r : Option Nat) (e : Engine) : Prop := ∀ id, r = some id → e.FileAnswer id

/-- In a settled state whose index holds only existing files, a module that answers a file and
stands for no suppressed dependency is a file that exists. -/
theorem FileAnswer.fileExists (hS : e.Settled) (hI : e.IndexFilesExist) {id : Nat} {md : Module}
    (ha : e.FileAnswer id) (hmd : e.registry.live? id = some md) (hk : ∀ n, md.kind ≠ .null n) :
    e.vfs.fileExists e.disk md.path = true := by
  rcases ha with ⟨p, hp, hat⟩ | ⟨n, hn⟩
  · -- the module kept at the path is the path's own
    obtain ⟨m, hm, hpath, -⟩ := hS.placed.path _ _ hat
    rw [hmd] at hm
    cases hm
    rw [hpath, Vfs.fileExists_normalize]
    rcases hp with hp | ⟨n, pl, hg⟩
    · exact hp
    · exact hI.fileExists hg
  · obtain ⟨m, hm, hnull⟩ := hS.placed.null _ _ hn
    rw [hmd] at hm
    cases hm
    exact absurd hnull (hk n)

end Engine

namespace Request

variable (req : Request)

theorem ends_loadFileOrDir_file (path : String) :
    Ends (req.loadFileOrDir path) Engine.FileFound := by
  intro c e a e' h id hid
  subst hid
  obtain ⟨p, hp, hat⟩ := loadFileOrDir_answers_existing_file h
  exact .inl ⟨p, .inl hp, hat⟩

theorem ends_getNullModule_file (name : String) : Ends (getNullModule name) Engine.FileAnswer := by
  intro c e a e' h
  refine .inr ⟨name, ?_⟩
  unfold getNullModule at h
  simp only [run_bind, run_get] at h
  split at h
  · -- the live null module of the name
    rename_i id hid
    cases h
    exact hid
  · -- a fresh one, filed under the name
    simp only [modifyRegistry, run_bind, run_modify, run_pure, Prod.mk.injEq] at h
    obtain ⟨ha, rfl⟩ := h
    cases ha
    simp [Registry.nullOf, Registry.live?, Registry.record?, Registry.insert]

/-- A global name resolves to the module of an index entry, or to what a load through a path
finds. -/
theorem ends_resolveHaste_file (name : String) : Ends (req.resolveHaste name) Engine.FileFound := by
  intro c e a e' h id hid
  subst hid
  unfold resolveHaste at h
  cases hpl : isPathLike name with
  | true => simp [hpl] at h
  | false =>
    simp only [hpl, Bool.false_eq_true, if_false, run_bind, run_get] at h
    cases hg : e.haste.get? name req.platform with
    | some en =>
      cases en with
      | module p =>
        -- the module of the entry, with the index as it was
        obtain ⟨id', r, hrun, hat⟩ := Engine.run_getOrInsert (c := c) (e := e) p fun _ => .source
        simp only [hg, getModule, run_bind, hrun, run_pure, Prod.mk.injEq, Except.ok.injEq,
          Option.some.injEq] at h
        obtain ⟨rfl, rfl⟩ := h
        exact .inl ⟨p, .inr ⟨name, req.platform, hg⟩, hat⟩
      | package p =>
        obtain ⟨e₁, -, hpkg⟩ := Engine.run_getPackage (c := c) (e := e) p
        simp only [hg, run_bind, hpkg] at h
        exact req.ends_loadFileOrDir_file _ c e₁ _ e' h id rfl
    | none =>
      simp only [hg] at h
      split at h
      · exact req.ends_loadFileOrDir_file _ c e _ e' h id rfl
      · simp at h

theorem ends_resolvePath_file (m : Module) (name : String) :
    Ends (req.resolvePath m name) Engine.FileFound :=
  .ite (fun _ => .pure fun _ _ h => nomatch h) fun _ => req.ends_loadFileOrDir_file _

theorem ends_resolveNodeModules_file (m : Module) (name : String) :
    Ends (req.resolveNodeModules m name) Engine.FileFound :=
  .ite (fun _ => .pure fun _ _ h => nomatch h) fun _ => .findSomeM? (fun _ _ h => nomatch h)
    (fun _ => .ite (fun _ => .pure fun _ _ h => nomatch h) fun _ => req.ends_loadFileOrDir_file _) _

theorem ends_resolveBuiltin_file (name : String) : Ends (resolveBuiltin name) Engine.FileFound :=
  .ite (fun _ => .bind (ends_getNullModule_file _) fun id c e a e' ha h => by
      cases h
      exact fun _ hid => Option.some_inj.1 hid ▸ ha)
    fun _ => .pure fun _ _ h => nomatch h

/-- A resolution without the memo answers a file, through any of its stages: the asset index
gives a file the mirror has, and every search finds one or an index module. -/
theorem ends_resolveUncached_file (m : Module) (name : String) :
    Ends (req.resolveUncached m name) Engine.FileAnswer :=
  ends_resolveUncached_of req m name (fun _ _ _ _ p s c a e' hp h => by
      obtain ⟨id, r, hrun, hat⟩ := Engine.run_getOrInsert (c := c) (e := s) p fun q =>
        .asset (AssetName.parse q c.opts.platforms).resolution (AssetName.parse q c.opts.platforms).name
          (AssetName.parse q c.opts.platforms).assetType
      simp only [getAssetModule, run_bind, run_read, hrun] at h
      cases h
      exact .inl ⟨p, .inl (AssetIndex.resolve_fileExists hp), hat⟩)
    (ends_getNullModule_file) (req.ends_resolveHaste_file) (req.ends_resolvePath_file m)
    (req.ends_resolveNodeModules_file m) ends_resolveBuiltin_file

end Request

namespace Engine

variable {c : Context} {e : Engine}

/-- **Resolved modules are files that exist.** Start a packager on a well-formed disk, with roots
naming normal absolute paths and ignore rules closed below, and follow any run of dependency
queries for entries in the roots and of changes that keep the memo true (`MemoSafe`). Whenever
the index's error flag is down, a name required from a module resolves, through the memo and
whichever stage answers, to a module that, unless it stands for a suppressed dependency, is a
file the mirror has. -/
theorem resolveDependency_answers_existing_file {opts : PackagerOptions} {global : GlobalConfig}
    {t : Transformer} {D : Disk} {e₀ : Engine} (hD : D.WellFormed)
    (hroots : ∀ r ∈ opts.projectRoots, (Path.ofString r).normalize.IsNormal)
    (hstart : startPackager opts global t D = .ok (c, e₀)) (hI : e₀.vfs.ignore.ClosedBelow)
    (hrun : Relation.ReflTransGen (MemoStep c) e₀ e) (hflag : e.hasteError = false)
    (o : Nat) (platform : Option String) (name : String) {id : Nat} {e' : Engine}
    (h : run ((⟨platform, c.opts.preferNativePlatform⟩ : Request).resolveDependency o name) c e =
      (.ok id, e'))
    {md : Module} (hmd : e'.registry.live? id = some md) (hk : ∀ n, md.kind ≠ .null n) :
    e'.vfs.fileExists e'.disk md.path = true := by
  have hS₀ := steady_start hD hroots hstart hI
  have hS := hS₀.reach hrun
  have hIF : e.IndexFilesExist :=
    ((indexOnFiles_start hD hroots hstart hI).reach hS₀ hrun).indexFilesExist hS.mirrors hS.detached
      hS.index hflag
  -- resolving without the memo from `e` answers a file, and moves `e` on as a query does
  have huncached : ∀ (m : Module) i e₁,
      run ((⟨platform, c.opts.preferNativePlatform⟩ : Request).resolveUncached m name) c e =
        (.ok i, e₁) → e₁.Settled ∧ Moves e e₁ ∧ e₁.FileAnswer i := by
    intro m i e₁ hu
    have hL := Request.learns_resolveUncached ⟨platform, c.opts.preferNativePlatform⟩ m name c e
      hS.toSettled
    rw [hu] at hL
    exact ⟨hL.1, hL.2.1, Request.ends_resolveUncached_file _ m name c e i e₁ hu⟩
  cases hl : e.registry.resolved.lookup ⟨o, platform, name⟩ with
  | none =>
    cases hrec : e.registry.record? o with
    | none =>
      rw [Request.run_resolveDependency_of_unknown _ hl hrec] at h
      cases h
    | some rec =>
      rw [Request.run_resolveDependency_of_none _ hl hrec, run_bind] at h
      rcases hu : run (Request.resolveUncached _ rec.module name) c e with ⟨_ | i, e₁⟩ <;>
        rw [hu] at h
      · cases h
      obtain ⟨hS₁, hm, ha⟩ := huncached _ i e₁ hu
      -- memoising the answer changes neither the module nor what resolution sees
      have hset : run (setResolved ⟨o, platform, name⟩ i) c e₁ =
          (.ok (), (run (setResolved ⟨o, platform, name⟩ i) c e₁).2) := rfl
      obtain ⟨hstore, -, -, -⟩ := run_setResolved_registry (c := c) (e := e₁) ⟨o, platform, name⟩ i
      dsimp only at h
      rw [run_bind, hset] at h
      simp only [run_pure, Prod.mk.injEq, Except.ok.injEq] at h
      obtain ⟨rfl, rfl⟩ := h
      have hlive : e₁.registry.live? i = some md := by
        rw [← hmd]
        simp only [Registry.live?, Registry.record?, hstore]
      exact ha.fileExists hS₁ (hIF.of_sight hm.sight) hlive hk
  | some j =>
    -- a memoised answer is what resolving without the memo answers now
    rw [Request.run_resolveDependency_of_memo _ hl (hS.indexed.live _ j hl)] at h
    simp only [Prod.mk.injEq, Except.ok.injEq] at h
    obtain ⟨rfl, rfl⟩ := h
    obtain ⟨rec, -, e₁, hu, -⟩ := hS.coherent _ _ hl
    obtain ⟨hS₁, hm, ha⟩ := huncached _ _ e₁ hu
    rw [← hm.sight.fileExists]
    exact ha.fileExists hS₁ (hIF.of_sight hm.sight) (hm.live? hmd) hk

/-- A project whose `index.js` requires the global name `Bar` that `X.js` declares, queried once:
`Bar` then resolves from `index.js`, through the memo, to the source module of `X.js`, a file the
mirror has. -/
theorem global_name_resolves_to_existing_file :
    let w : Path := ⟨[.root, .name "w"]⟩
    let D : Disk := ⟨[(w, .dir), (w.child "index.js", .file "require('Bar');".toUTF8.toList 0),
      (w.child "X.js", .file "/** @providesModule Bar */".toUTF8.toList 0)], 0, Disk.rootPath⟩
    let opts : PackagerOptions := { PackagerOptions.default with projectRoots := ["/w"] }
    ∃ c e₀ e id e' md, startPackager opts .default .identity D = .ok (c, e₀) ∧
      Relation.ReflTransGen (MemoStep c) e₀ e ∧ e.hasteError = false ∧
      run ((⟨some "ios", c.opts.preferNativePlatform⟩ : Request).resolveDependency 0 "Bar") c e =
        (.ok id, e') ∧
      e'.registry.live? id = some md ∧ md.kind = .source ∧ md.path = w.child "X.js" ∧
      e'.vfs.fileExists e'.disk md.path = true := by
  intro w D opts
  have hD : D.WellFormed := by
    refine ⟨by decide +kernel, by decide +kernel, fun x hx q hq => ?_⟩
    simp only [D, List.mem_cons, List.not_mem_nil, or_false] at hx
    rcases hx with rfl | rfl | rfl <;> cbv at hq <;> cases hq
    · exact Disk.find?_rootPath D
    · decide +kernel
    · decide +kernel
  have hroots : ∀ r ∈ opts.projectRoots, (Path.ofString r).normalize.IsNormal := by
    decide +kernel
  obtain ⟨⟨c, e₀⟩, hst⟩ := exists_ok_of_isOk (x := startPackager opts .default .identity D)
    (by decide +kernel)
  -- what the query leaves and what `Bar` then resolves to, read off one evaluation
  have hfacts : ((startPackager opts .default .identity D).toOption.any fun r =>
      let e := (run (graphDependencies "index.js" (some "ios")) r.1 r.2).2
      let r' := run ((⟨some "ios", r.1.opts.preferNativePlatform⟩ : Request).resolveDependency 0
        "Bar") r.1 e
      (r.2.vfs.ignore.patterns.isEmpty && r.2.vfs.ignore.relative.isEmpty) && !e.hasteError &&
        r'.1.toOption.any fun id => (r'.2.registry.live? id).any fun m =>
          decide (m.kind = .source) && decide (m.path = w.child "X.js")) = true := by
    decide +kernel
  rw [hst] at hfacts
  simp only [Except.toOption, Option.any_some, Bool.and_eq_true, Bool.not_eq_true'] at hfacts
  obtain ⟨⟨hign, hflag⟩, hres⟩ := hfacts
  have hI := IgnoreRules.closedBelow_of_isEmpty hign.1 hign.2
  have hquery : MemoStep c e₀ (run (graphDependencies "index.js" (some "ios")) c e₀).2 :=
    .query (some "ios") fun h => absurd h (by decide +kernel)
  rcases hrun : run ((⟨some "ios", c.opts.preferNativePlatform⟩ : Request).resolveDependency 0
    "Bar") c (run (graphDependencies "index.js" (some "ios")) c e₀).2 with ⟨_ | id, e'⟩ <;>
    simp only [hrun, Option.any_none, Option.any_some, Bool.false_eq_true] at hres
  obtain ⟨md, hmd, hsrc⟩ := (Option.any_eq_true _ _).1 hres
  simp only [Bool.and_eq_true, decide_eq_true_eq] at hsrc
  refine ⟨c, e₀, _, id, e', md, hst, .single hquery, hflag, hrun, hmd, hsrc.1, hsrc.2,
    resolveDependency_answers_existing_file hD hroots hst hI (.single hquery) hflag 0 (some "ios")
      "Bar" hrun hmd fun n h => ?_⟩
  rw [hsrc.1] at h
  cases h

end Engine

/-- `B.js` declares the name `Foo` that `A.js` declares already, so the index is not rebuilt and
its error flag goes up; `X.js`, which declares `Bar`, is then deleted. The index still maps `Bar`
to `X.js`, so the index holds a file that is gone, and resolving `Bar` from `index.js` answers a
live source module at `X.js`, a file neither the disk nor the mirror has. -/
theorem stale_index_resolves_deleted_file :
    let w : Path := ⟨[.root, .name "w"]⟩
    let D₀ : Disk := ⟨[(w, .dir), (w.child "index.js", .file "require('Bar');".toUTF8.toList 0),
      (w.child "X.js", .file "/** @providesModule Bar */".toUTF8.toList 0),
      (w.child "A.js", .file "/** @providesModule Foo */".toUTF8.toList 0)], 0, Disk.rootPath⟩
    let D₁ : Disk := ⟨D₀.entries ++
      [(w.child "B.js", .file "/** @providesModule Foo */".toUTF8.toList 1)], 1, Disk.rootPath⟩
    let D₂ : Disk := ⟨D₁.entries.filter (·.1 != w.child "X.js"), 2, Disk.rootPath⟩
    let opts : PackagerOptions := { PackagerOptions.default with projectRoots := ["/w"] }
    let req : Request := ⟨some "ios", true⟩
    let resolveBar : EngineM Nat := do req.resolveDependency (← getModule (w.child "index.js")) "Bar"
    ∃ c e₀, startPackager opts .default .identity D₀ = .ok (c, e₀) ∧
      let e₁ := (run (graphChange ⟨.add, ⟨[.name "B.js"]⟩, w⟩) c { e₀ with disk := D₁ }).2
      let e₂ := (run (graphChange ⟨.delete, ⟨[.name "X.js"]⟩, w⟩) c { e₁ with disk := D₂ }).2
      e₂.hasteError = true ∧ ¬ e₂.IndexFilesExist ∧ D₂.isFile (w.child "X.js") = false ∧
      ∃ id e₃ m, run resolveBar c e₂ = (.ok id, e₃) ∧ e₃.registry.live? id = some m ∧
        m.kind = .source ∧ m.path = w.child "X.js" ∧ e₃.vfs.fileExists e₃.disk m.path = false := by
  intro w D₀ D₁ D₂ opts req resolveBar
  have h : ((startPackager opts .default .identity D₀).toOption.any fun r =>
      let e₁ := (run (graphChange ⟨.add, ⟨[.name "B.js"]⟩, w⟩) r.1 { r.2 with disk := D₁ }).2
      let e₂ := (run (graphChange ⟨.delete, ⟨[.name "X.js"]⟩, w⟩) r.1 { e₁ with disk := D₂ }).2
      e₂.hasteError && !decide e₂.IndexFilesExist && match run resolveBar r.1 e₂ with
        | (.ok id, e₃) => (e₃.registry.live? id).any fun m =>
            decide (m.kind = .source) && decide (m.path = w.child "X.js") &&
              !e₃.vfs.fileExists e₃.disk m.path
        | (.error _, _) => false) = true := by
    decide +kernel
  obtain ⟨⟨c, e₀⟩, hs, h⟩ := (Option.any_eq_true _ _).1 h
  refine ⟨c, e₀, eq_ok_of_toOption hs, ?_⟩
  intro e₁ e₂
  simp only [Bool.and_eq_true, Bool.not_eq_true', decide_eq_false_iff_not] at h
  obtain ⟨⟨herr, hI⟩, h⟩ := h
  refine ⟨herr, hI, by decide +kernel, ?_⟩
  rcases hrun : run resolveBar c e₂ with ⟨_ | id, e₃⟩ <;> rw [hrun] at h
  · cases h
  · obtain ⟨m, hm, h⟩ := (Option.any_eq_true _ _).1 h
    simp only [Bool.and_eq_true, decide_eq_true_eq, Bool.not_eq_true'] at h
    obtain ⟨⟨hk, hp⟩, hx⟩ := h
    exact ⟨id, e₃, m, rfl, hm, hk, hp, hx⟩

end ModuleBundler
