import ModuleBundler.Proofs.Engine.Events
import ModuleBundler.Proofs.Registry.HasteBuild

/-!
# The name index follows watched changes

The engine keeps its name index up to date change by change: a change drops the slots of its
path, unless it reports an addition, and registers what the engine detects there now; a removed
directory drops the slots of every file it held; after a failed update the next change rebuilds
the index. The index is current (`Engine.IndexCurrent`) when, with its error flag down, it holds
exactly what the engine detects now in the files a scan reads, and a current index is the one a
scan builds, slot for slot.

A change keeps the index current when it is one the index follows (`Engine.IndexSafe`): an
addition reports a path where nothing stood, a removed directory holds no root strictly inside
it, and a package file appears or disappears only where no file under `node_modules` lies below
its directory. The update touches the changed paths alone, and detection off them is unchanged
(`Engine.Frame.detects_iff`), so each change keeps the index current (`IndexCurrent.step`), and
so does every run (`IndexCurrent.run`). Without the first condition, an addition reported for a
file that was there already leaves the name the old file declared in the index
(`Engine.index_keeps_name_of_replaced_file`).
-/

namespace ModuleBundler

open EngineM

namespace HasteMap

variable {ps : List String} {S : String → HasteEntry → Prop} {h h' : HasteMap}

/-- Two indexes holding the same pairs agree slot for slot. -/
theorem Holds.slot_eq (H : h.Holds ps S) (H' : h'.Holds ps S) (n : String) (pl : Option String) :
    h.slot n pl = h'.slot n pl := by
  cases hs : h.slot n pl with
  | some en => exact ((H' n pl en).2 ((H n pl en).1 hs)).symm
  | none =>
    cases hs' : h'.slot n pl with
    | none => rfl
    | some en => rw [(H n pl en).2 ((H' n pl en).1 hs')] at hs; cases hs

end HasteMap

/-- Rules with no pattern ignore nothing, so they are closed below. -/
theorem IgnoreRules.closedBelow_of_isEmpty {I : IgnoreRules} (hp : I.patterns.isEmpty = true)
    (hr : I.relative.isEmpty = true) : I.ClosedBelow := by
  intro d f _ hd
  simp [IgnoreRules.isIgnored, IgnoreRules.isIgnoredText, hp, hr] at hd

namespace Engine

variable {c : Context} {e e' : Engine} {ps : List String}

/-! ## The index, one change at a time -/

/-- One step of the index from a cleared index holding `S`, where no pair of `S` sits at the
changed path: it holds `S` and the pair the engine detects now at the path, if the path is
still there and may declare a name. -/
theorem hasteStep_holds (hR : e.registry.WellFormed) {h h' : HasteMap} {fc : FileChange}
    {S : String → HasteEntry → Prop} (hh : (h.clearFor fc).WellFormed)
    (H : (h.clearFor fc).Holds ps S) (hS : ∀ n en, S n en → en.path ≠ fc.path)
    (hstep : e.hasteStep ps h fc = .ok h') :
    h'.WellFormed ∧ h'.Holds ps fun n en =>
      S n en ∨ (fc.kind ≠ .delete ∧ Scanned fc.path ∧ e.detected fc.path = .ok (some (n, en))) := by
  unfold hasteStep at hstep
  split at hstep
  · rename_i hcond
    cases hd : e.detected fc.path with
    | error err => rw [hd] at hstep; cases hstep
    | ok r =>
      rw [hd] at hstep
      cases r with
      | none =>
        cases hstep
        exact ⟨hh, H.congr fun n en => by simp⟩
      | some x =>
        obtain ⟨name, en⟩ := x
        dsimp only at hstep
        -- the detected pair sits at the changed path, where `S` has none
        have hpath : en.path = fc.path := detected_path hR hd
        have hnc := H.noClash_register hstep fun e' hS' hp => absurd (hp.trans hpath) (hS _ _ hS')
        obtain ⟨h'', hreg, hh'', H''⟩ := H.register hh hnc
        rw [hstep] at hreg
        cases hreg
        refine ⟨hh'', H''.congr fun n e' => ?_⟩
        simp only [hcond.1, hcond.2, ne_eq, not_false_eq_true, true_and, Except.ok.injEq,
          Option.some.injEq, Prod.mk.injEq]
        constructor
        · rintro (h | ⟨rfl, rfl⟩)
          · exact .inl h
          · exact .inr ⟨rfl, rfl⟩
        · rintro (h | ⟨rfl, rfl⟩)
          · exact .inl h
          · exact .inr ⟨rfl, rfl⟩
  · rename_i hcond
    cases hstep
    refine ⟨hh, H.congr fun n en => ⟨.inl, ?_⟩⟩
    rintro (h | ⟨hk, hsc, -⟩)
    · exact h
    · exact absurd ⟨hk, hsc⟩ hcond

/-- Deletions, one after another, drop the slots of their paths. -/
theorem foldlM_delete_holds : ∀ (L : List FileChange) (h h' : HasteMap)
    (S : String → HasteEntry → Prop), (∀ fc ∈ L, fc.kind = .delete) → h.WellFormed →
    h.Holds ps S → L.foldlM (e.hasteStep ps) h = .ok h' →
    h'.WellFormed ∧ h'.Holds ps fun n en => S n en ∧ en.path ∉ L.map FileChange.path
  | [], h, h', S, _, hh, H, hfold => by
    cases hfold
    exact ⟨hh, H.congr fun n en => by simp⟩
  | fc :: L, h, h', S, hdel, hh, H, hfold => by
    have hk : fc.kind = .delete := hdel fc List.mem_cons_self
    have hstep : e.hasteStep ps h fc = .ok (h.removePath fc.path) := by
      simp [hasteStep, hk, HasteMap.clearFor]
    rw [List.foldlM_cons, hstep] at hfold
    obtain ⟨hh', H'⟩ := foldlM_delete_holds L _ h' _
      (fun fc' h' => hdel fc' (List.mem_cons_of_mem _ h')) (hh.removePath _)
      (H.removePath hh _) hfold
    refine ⟨hh', H'.congr fun n en => ?_⟩
    simp only [List.map_cons, List.mem_cons, not_or, and_assoc, ne_eq]

/-! ## What detection sees after a change -/

/-- Fills keep the files a scan reads. -/
theorem Keeps.mem_candidates (hK : Keeps e e') (hnd : (e.vfs.nodes.map Prod.fst).Nodup)
    {g : Path} : g ∈ e'.candidates ↔ g ∈ e.candidates := by
  have hnd' : (e'.vfs.nodes.map Prod.fst).Nodup := hK.shape.keys ▸ hnd
  simp only [candidates, Vfs.findByExts, List.mem_filter, Vfs.mem_allFiles_iff hnd,
    Vfs.mem_allFiles_iff hnd', hK.shape.file]

/-- Fills keep what the engine detects. -/
theorem Keeps.detects (hK : Keeps e e') (hnd : (e.vfs.nodes.map Prod.fst).Nodup)
    (hR : e.registry.WellFormed) {n : String} {en : HasteEntry} :
    e'.Detects n en ↔ e.Detects n en := by
  simp only [Detects, hK.mem_candidates hnd, hK.detected hR]

/-- After a change confined to `S`, whose registry half reset paths in `S` only, the engine
detects what it detected off `S`, and on `S` whatever it detects now in the files a scan reads
there. -/
theorem Frame.detects_iff {S P : Path → Prop} {e₁ e₂ : Engine} (hT : Tracks e)
    (hF : Frame S e e₁) (hE : ResetOn P e₁ e₂) (hPS : ∀ q, P q → S q)
    (hpkg : ∀ g ∈ e.candidates, ¬ S g → PackagesKept e e₁ g) {n : String} {en : HasteEntry} :
    e₂.Detects n en ↔ (e.Detects n en ∧ ¬ S en.path) ∨
      ∃ g ∈ e₁.candidates, S g ∧ e₂.detected g = .ok (some (n, en)) := by
  have hc : e₂.candidates = e₁.candidates := by simp only [candidates, hE.vfs]
  -- off `S`, detection went through the reset and the change untouched
  have hoff : ∀ g ∈ e.candidates, ¬ S g → e₂.detected g = e.detected g := fun g hg hS =>
    (hE.detected fun hP => hS (hPS g hP)).trans (hF.detected hT hg hS (hpkg g hg hS))
  constructor
  · rintro ⟨g, hg₂, hdet⟩
    rw [hc] at hg₂
    by_cases hS : S g
    · exact .inr ⟨g, hg₂, hS, hdet⟩
    · have hg := (hF.mem_candidates hT hS).1 hg₂
      rw [hoff g hg hS] at hdet
      refine .inl ⟨⟨g, hg, hdet⟩, ?_⟩
      rwa [detected_path hT.registry hdet]
  · rintro (⟨⟨g, hg, hdet⟩, hS⟩ | ⟨g, hg₁, -, hdet⟩)
    · rw [detected_path hT.registry hdet] at hS
      refine ⟨g, hc ▸ (hF.mem_candidates hT hS).2 hg, ?_⟩
      rw [hoff g hg hS]
      exact hdet
    · exact ⟨g, hc ▸ hg₁, hdet⟩

/-! ## The index the engine keeps -/

/-- The index holds exactly what the engine detects now, unless its error flag is up. -/
def IndexCurrent (ps : List String) (e : Engine) : Prop :=
  e.hasteError = false → e.haste.WellFormed ∧ e.haste.Holds ps e.Detects

/-- A change the mirror takes keeps the index current when the incremental update, from a
current index, ends holding what the engine detects after the registry's reset. -/
theorem indexCurrent_graphChange {D' : Disk} {ev : WatchEvent} {change : FileChange} {v₁ : Vfs}
    (hR : e.registry.WellFormed) (hM₁ : Vfs.Mirrors D' v₁)
    (hr : e.vfs.processChange D' ev.kind ev.root ev.relative = (some change, v₁))
    (hN : ∀ fc ∈ e.changedFiles ev change, fc.path.IsNormal)
    (hinc : e.hasteError = false → ∀ e₂ h,
      ResetOn (· ∈ (e.changedFiles ev change).map FileChange.path)
        { e with disk := D', vfs := v₁ } e₂ →
      (e.changedFiles ev change).foldlM (e₂.hasteStep c.opts.platforms) e.haste = .ok h →
      h.WellFormed ∧ h.Holds c.opts.platforms e₂.Detects) :
    IndexCurrent c.opts.platforms (run (graphChange ev) c { e with disk := D' }).2 := by
  have hC := candidates_normal (e := { e with disk := D', vfs := v₁ }) hM₁
  obtain ⟨e₂, e₄, h, b, hE₂, hK, hrun, hidx, -⟩ :=
    run_graphChange (c := c) (e := { e with disk := D' }) hR hr hN hC
  rw [hrun]
  intro hb
  have hM₂ : Vfs.Mirrors e₂.disk e₂.vfs := by rw [hE₂.disk, hE₂.vfs]; exact hM₁
  -- the new index holds what `e₂` detects: rebuilt after an error, else updated change by change
  have hH : h.WellFormed ∧ h.Holds c.opts.platforms e₂.Detects := by
    have hidx' := hidx hb
    cases herr : e.hasteError
    · rw [herr] at hidx'
      exact hinc herr e₂ h hE₂ hidx'
    · rw [herr] at hidx'
      obtain ⟨-, -, hh, H⟩ := hasteIndex_eq_ok hE₂.wellFormed hidx'
      exact ⟨hh, H⟩
  exact ⟨hH.1, hH.2.congr fun n en => (hK.detects hM₂.nodup hE₂.wellFormed).symm⟩

/-! ## Changes the index follows -/

/-- The changes after which the index is known to match a rebuild: an addition reports a path
where nothing stood, a removed directory holds no root strictly inside it, and a package file
that appears or disappears has no file under `node_modules` below its directory. -/
structure IndexSafe (e : Engine) (D' : Disk) (fc : FileChange) : Prop where
  fresh : fc.kind = .add → e.disk.find? fc.path = none
  noInnerRoot : e.disk.find? fc.path = some .dir → Vfs.HoldsNoInnerRoot e.vfs.roots fc.path
  packages : fc.path.fileName? = some "package.json" → D'.isFile fc.path ≠ e.disk.isFile fc.path →
    ∀ a, fc.path.parent? = some a → ∀ g, e.disk.isFile g = true →
      g.components.contains (.name "node_modules") = true → ¬ g.startsWith a

theorem removesNoRoot_indexSafe : RemovesNoRoot IndexSafe := fun _ _ _ h => h.noInnerRoot

/-- A change keeps the package files above a file a scan reads off the changed paths `R`, when
every package file on `R` above it is the changed path itself. -/
theorem IndexSafe.packagesKept {R : Path → Prop} {D' : Disk} {kind : ChangeKind} {p : Path}
    {e₁ : Engine} (hT : Tracks e) (hs : IndexSafe e D' ⟨kind, p⟩) (hD' : D'.WellFormed)
    (hsame : ∀ q, ¬ R q → D'.find? q = e.disk.find? q) (hd₁ : e₁.disk = D') {g : Path}
    (hg : g ∈ e.candidates) (hgR : ¬ R g)
    (hR : ∀ a, g.startsWith a → R (a.child "package.json") → a.child "package.json" = p ∨ R g) :
    PackagesKept e e₁ g := by
  intro hnm a ha hga
  have hn : (a.child "package.json").IsNormal := ha.child (by decide)
  rw [hd₁]
  by_cases hq : R (a.child "package.json")
  · obtain hpa | hRg := hR a hga hq
    · -- the changed path is the package file: it kept being a file, or nothing is below it
      rw [hpa]
      by_contra hne
      subst hpa
      exact hs.packages (Path.fileName?_child _ _) hne a (Path.parent?_child _ _) g
        ((mem_candidates_iff hT.mirrors).1 hg).1.2.2.1 hnm hga
    · exact absurd hRg hgR
  · exact hT.mirrors.disk.isFile_congr hD' hn (hsame _ hq)

/-! ## One watched change -/

/-- A change the mirror drops keeps the index current, when no file a scan reads lies on the
changed paths and no package file above one appeared or disappeared. -/
theorem indexCurrent_dropped {S : Path → Prop} {D' : Disk} {ev : WatchEvent} {p : Path}
    (hT : Tracks e) (hI : IndexCurrent ps e) (hev : (ev.root.join ev.relative).normalize = p)
    (hr : (e.vfs.processChange D' ev.kind ev.root ev.relative).1 = none)
    (hF : Frame S e { e with disk := D' })
    (hoff : ∀ g ∈ e.candidates, ¬ S g ∧ PackagesKept e { e with disk := D' } g) :
    IndexCurrent ps (run (graphChange ev) c { e with disk := D' }).2 := by
  have hv := (Vfs.processChange_eq_none hev hr).2
  rw [run_graphChange_dropped (Prod.ext hr hv)]
  intro hb
  obtain ⟨hh, H⟩ := hI hb
  refine ⟨hh, H.congr fun n en => ?_⟩
  -- the same files are read, each detected as before
  have hdet : ∀ g ∈ e.candidates, ({ e with disk := D' } : Engine).detected g = e.detected g :=
    fun g hg => hF.detected hT hg (hoff g hg).1 (hoff g hg).2
  constructor
  · rintro ⟨g, hg, hd⟩
    exact ⟨g, hg, (hdet g hg).symm ▸ hd⟩
  · rintro ⟨g, hg, hd⟩
    exact ⟨g, hg, (hdet g hg) ▸ hd⟩

/-- A change other than a deletion applies to its own path only. -/
theorem changedFiles_of_ne_delete {ev : WatchEvent} {change : FileChange}
    (hk : ev.kind ≠ .delete) : e.changedFiles ev change = [change] := by
  simp [changedFiles, hk]

/-- A file written and reported keeps the index current, when the change is one it follows. -/
theorem IndexCurrent.write (hT : Tracks e) (hI : IndexCurrent c.opts.platforms e) {p : Path}
    {ev : WatchEvent} {bytes : List UInt8} {mtime : Nat} (hp : p.IsNormal) (hp0 : p ≠ Disk.rootPath)
    (hpar : ∀ q, p.parent? = some q → e.disk.find? q = some .dir) (hnd : e.disk.find? p ≠ some .dir)
    (hk : ev.kind ≠ .delete) (hev : (ev.root.join ev.relative).normalize = p)
    (hs : IndexSafe e (e.disk.put p (.file bytes mtime)) ⟨ev.kind, p⟩) :
    IndexCurrent c.opts.platforms
      (run (graphChange ev) c { e with disk := e.disk.put p (.file bytes mtime) }).2 := by
  have hF := frame_write hT.mirrors hT.detached bytes mtime hp hp0 hpar hnd hk hev
  have hD' := hF.mirrors.disk
  have hfile : (e.disk.put p (.file bytes mtime)).isFile p = true :=
    (hD'.isFile_iff hp).2 ⟨bytes, mtime, by simp [Disk.find?_put hp0]⟩
  have hdir : e.disk.isDir p = false :=
    Bool.eq_false_iff.2 fun h => hnd ((hT.mirrors.disk.isDir_iff hp).1 h)
  have hpkg : ∀ {e₁ : Engine}, e₁.disk = e.disk.put p (.file bytes mtime) →
      ∀ g ∈ e.candidates, g ≠ p → PackagesKept e e₁ g := fun hd₁ g hg hgp =>
    hs.packagesKept hT hD' hF.disk hd₁ hg hgp fun _ _ h => .inl h
  rcases hr : e.vfs.processChange (e.disk.put p (.file bytes mtime)) ev.kind ev.root ev.relative
    with ⟨_ | change, v₁⟩
  · -- the event is dropped: no file a scan reads sits at `p`, before or after
    have hv := (Vfs.processChange_eq_none hev (congrArg Prod.fst hr)).2
    have hacc := (Vfs.processChange_eq_none hev (congrArg Prod.fst hr)).1
    rw [hv] at hF
    refine indexCurrent_dropped hT hI hev (congrArg Prod.fst hr) hF fun g hg => ⟨?_, hpkg rfl g hg ?_⟩
    all_goals
      rintro rfl
      have hL := ((mem_candidates_iff hT.mirrors).1 hg).1
      have hfile₀ := hL.2.2.1
      exact hacc (Vfs.accepts_of_listed hD' ((hF.listed_iff_of_isFile (hfile.trans hfile₀.symm)).2 hL))
  · obtain ⟨hacc, rfl⟩ := Vfs.processChange_eq_some hev (congrArg Prod.fst hr)
    rw [hr] at hF
    have hL : Vfs.Listed (e.disk.put p (.file bytes mtime)) v₁ p :=
      (Vfs.listed_congr hF.roots hF.ignore hF.extensions).2
        (hT.mirrors.listed_of_accepts hp hdir hacc hfile)
    refine indexCurrent_graphChange hT.registry hF.mirrors hr (changedFiles_normal hT.mirrors hp) ?_
    intro herr e₂ h hE₂ hfold
    rw [changedFiles_of_ne_delete hk] at hE₂ hfold
    simp only [List.foldlM_cons, List.foldlM_nil, bind_pure] at hfold
    obtain ⟨hh, H⟩ := hI herr
    -- cleared for the change, the index holds what was detected off `p`
    have hclear : (e.haste.clearFor ⟨ev.kind, p⟩).WellFormed ∧
        (e.haste.clearFor ⟨ev.kind, p⟩).Holds c.opts.platforms
          fun n en => e.Detects n en ∧ en.path ≠ p := by
      unfold HasteMap.clearFor
      split
      · -- an addition reports a new file, where nothing was detected
        refine ⟨hh, H.congr fun n en => ⟨fun hd => ⟨hd, ?_⟩, And.left⟩⟩
        obtain ⟨g, hg, hdet⟩ := hd
        rw [detected_path hT.registry hdet]
        rintro rfl
        obtain ⟨b, m, hb⟩ := hT.mirrors.find?_of_listed ((mem_candidates_iff hT.mirrors).1 hg).1
        rw [hs.fresh ‹_›] at hb
        cases hb
      · exact ⟨hh.removePath p, H.removePath hh p⟩
    obtain ⟨hh', H'⟩ := hasteStep_holds hE₂.wellFormed hclear.1 hclear.2 (fun _ _ h => h.2) hfold
    refine ⟨hh', H'.congr fun n en => ?_⟩
    rw [hF.detects_iff hT hE₂ (fun q hq => by simpa using hq) (hpkg rfl)]
    -- at `p`, the file is listed, and a scan reads it when it is scanned
    simp only [ne_eq, hk, not_false_eq_true, true_and]
    constructor
    · rintro (h | ⟨hsc, hd⟩)
      · exact .inl h
      · exact .inr ⟨p, (mem_candidates_iff hF.mirrors).2 ⟨hL, hsc⟩, rfl, hd⟩
    · rintro (h | ⟨g, hg, rfl, hd⟩)
      · exact .inl h
      · exact .inr ⟨((mem_candidates_iff hF.mirrors).1 hg).2, hd⟩

/-- A deletion reaches every file listed under the removed path, when no root lies strictly
inside it. -/
theorem mem_changedFiles_of_listed {D : Disk} (hM : Vfs.Mirrors D e.vfs) {ev : WatchEvent}
    {p g : Path} (hp : p.IsNormal) (hk : ev.kind = .delete)
    (hev : (ev.root.join ev.relative).normalize = p) (hinner : Vfs.HoldsNoInnerRoot e.vfs.roots p)
    (hg : Vfs.Listed D e.vfs g) (hgp : g.startsWith p) :
    g ∈ (e.changedFiles ev ⟨.delete, p⟩).map FileChange.path := by
  have hfu : e.vfs.filesUnder ev.absolutePath = e.vfs.filesUnder p := by
    simp only [Vfs.filesUnder, WatchEvent.absolutePath, hev, hp.normalize_eq]
  unfold changedFiles
  simp only [hk, if_true, hfu]
  by_cases hgp' : g = p
  · -- a file at `p` lists nothing under it
    subst hgp'
    obtain ⟨d, hd⟩ := hM.complete g hg
    have hnil : e.vfs.filesUnder g = [] := by simp [Vfs.filesUnder, hp.normalize_eq, hd]
    simp [hnil]
  · have hmem := hM.mem_filesUnder hp hinner hg hgp hgp'
    have hne : (e.vfs.filesUnder p).isEmpty = false := by
      cases hl : e.vfs.filesUnder p with
      | nil => rw [hl] at hmem; cases hmem
      | cons _ _ => rfl
    simp only [hne, Bool.false_eq_true, if_false, List.map_map]
    exact List.mem_map.2 ⟨g, hmem, rfl⟩

/-- The paths a deletion applies to all lie under the removed path. -/
theorem startsWith_of_mem_changedFiles {ev : WatchEvent} {kind : ChangeKind} {p q : Path}
    (hev : (ev.root.join ev.relative).normalize = p)
    (hq : q ∈ (e.changedFiles ev ⟨kind, p⟩).map FileChange.path) : q.startsWith p := by
  obtain ⟨fc, hfc, rfl⟩ := List.mem_map.1 hq
  rcases mem_changedFiles hfc with rfl | ⟨-, hmem⟩
  · exact Path.startsWith_refl _
  · have := Vfs.startsWith_of_mem_filesUnder hmem
    rwa [WatchEvent.absolutePath, hev] at this

/-- A removal reported by one deletion keeps the index current, when the change is one it
follows. -/
theorem IndexCurrent.remove (hT : Tracks e) (hI : IndexCurrent c.opts.platforms e) {p : Path}
    {x : DiskEntry} {ev : WatchEvent} (he : e.disk.find? p = some x) (hp0 : p ≠ Disk.rootPath)
    (hk : ev.kind = .delete) (hev : (ev.root.join ev.relative).normalize = p)
    (hs : IndexSafe e (e.disk.removeAll p) ⟨.delete, p⟩) :
    IndexCurrent c.opts.platforms (run (graphChange ev) c { e with disk := e.disk.removeAll p }).2 := by
  have hp := hT.mirrors.disk.isNormal_of_find? he
  have hinner : Vfs.HoldsNoInnerRoot e.vfs.roots p := by
    cases x with
    | file b m => exact hT.mirrors.holdsNoInnerRoot hp (by simp [he])
    | dir => exact hs.noInnerRoot he
  have hF := frame_remove hT.mirrors hT.detached he hp0 hinner hev
  rw [← hk] at hF
  have hD' := hF.mirrors.disk
  -- nothing a scan reads lies under `p` on the new disk
  have hgone : ∀ {v : Vfs} {g : Path}, Vfs.Listed (e.disk.removeAll p) v g → ¬ g.startsWith p := by
    intro v g hL hgp
    obtain ⟨b, m, hb⟩ := (hD'.isFile_iff hL.1).1 hL.2.2.1
    have hg0 : g ≠ Disk.rootPath := by rintro rfl; simp at hb
    rw [Disk.find?_removeAll hp, if_pos ⟨hg0, hgp⟩] at hb
    cases hb
  have hpkg : ∀ {e₁ : Engine}, e₁.disk = e.disk.removeAll p →
      ∀ g ∈ e.candidates, ¬ g.startsWith p → PackagesKept e e₁ g := fun hd₁ g hg hgp =>
    hs.packagesKept hT hD' hF.disk hd₁ hg hgp fun a hga hq =>
      (Path.child_startsWith_iff.1 hq).imp Eq.symm fun hpa => Path.startsWith_trans hga hpa
  rcases hr : e.vfs.processChange (e.disk.removeAll p) ev.kind ev.root ev.relative
    with ⟨_ | change, v₁⟩
  · -- the event is dropped: the mirror still lists every file it listed, none of them under `p`
    have hv := (Vfs.processChange_eq_none hev (congrArg Prod.fst hr)).2
    rw [hv] at hF
    refine indexCurrent_dropped hT hI hev (congrArg Prod.fst hr) hF fun g hg => ?_
    have hoff : ¬ g.startsWith p := by
      obtain ⟨d, hd⟩ := hT.mirrors.complete g ((mem_candidates_iff hT.mirrors).1 hg).1
      exact hgone (hF.mirrors.files g d hd)
    exact ⟨hoff, hpkg rfl g hg hoff⟩
  · obtain ⟨-, rfl⟩ := Vfs.processChange_eq_some hev (congrArg Prod.fst hr)
    rw [hr] at hF
    refine indexCurrent_graphChange hT.registry hF.mirrors hr (changedFiles_normal hT.mirrors hp) ?_
    intro herr e₂ h hE₂ hfold
    rw [hk] at hE₂ hfold
    obtain ⟨hh, H⟩ := hI herr
    have hdel : ∀ fc ∈ e.changedFiles ev ⟨.delete, p⟩, fc.kind = .delete := fun fc hfc => by
      rcases mem_changedFiles hfc with rfl | ⟨hfk, -⟩
      · rfl
      · exact hfk
    obtain ⟨hh', H'⟩ := foldlM_delete_holds _ _ _ _ hdel hh H hfold
    refine ⟨hh', H'.congr fun n en => ?_⟩
    rw [hF.detects_iff hT hE₂ (fun q hq => startsWith_of_mem_changedFiles hev hq) (hpkg rfl)]
    -- a detected file is among the paths the deletion applies to exactly when it lies under `p`
    constructor
    · rintro ⟨hd, hP⟩
      refine .inl ⟨hd, fun hgp => hP ?_⟩
      obtain ⟨g, hg, hdet⟩ := hd
      rw [detected_path hT.registry hdet] at hgp ⊢
      exact mem_changedFiles_of_listed hT.mirrors hp hk hev hinner
        ((mem_candidates_iff hT.mirrors).1 hg).1 hgp
    · rintro (⟨hd, hS⟩ | ⟨g, hg, hgp, -⟩)
      · exact ⟨hd, fun hP => hS (startsWith_of_mem_changedFiles hev hP)⟩
      · exact absurd hgp (hgone ((mem_candidates_iff hF.mirrors).1 hg).1)

/-- A new directory keeps the index current. -/
theorem IndexCurrent.mkdir (hT : Tracks e) (hI : IndexCurrent ps e) {d : Path} (hd : d.IsNormal)
    (hd0 : d ≠ Disk.rootPath) (hpar : ∀ q, d.parent? = some q → e.disk.find? q = some .dir)
    (hnone : e.disk.find? d = none) : IndexCurrent ps { e with disk := e.disk.put d .dir } := by
  have hF := frame_mkdir hT.mirrors hT.detached hd hd0 hpar hnone
  have hD' := hF.mirrors.disk
  -- no file a scan reads sits at `d`, and a directory there is no package file, before or after
  have hnotfile : ∀ g ∈ e.candidates, g ≠ d := by
    rintro g hg rfl
    obtain ⟨b, m, hb⟩ := hT.mirrors.find?_of_listed ((mem_candidates_iff hT.mirrors).1 hg).1
    rw [hnone] at hb
    cases hb
  have hpkg : ∀ g ∈ e.candidates, PackagesKept e { e with disk := e.disk.put d .dir } g := by
    intro g hg hnm a ha hga
    have hn : (a.child "package.json").IsNormal := ha.child (by decide)
    by_cases hq : a.child "package.json" = d
    · rw [hq]
      have h₁ : (e.disk.put d .dir).isFile d = false := Bool.eq_false_iff.2 fun h => by
        obtain ⟨b, m, hb⟩ := (hD'.isFile_iff hd).1 h
        simp [Disk.find?_put hd0] at hb
      have h₂ : e.disk.isFile d = false := Bool.eq_false_iff.2 fun h => by
        obtain ⟨b, m, hb⟩ := (hT.mirrors.disk.isFile_iff hd).1 h
        rw [hnone] at hb
        cases hb
      exact h₁.trans h₂.symm
    · exact hT.mirrors.disk.isFile_congr hD' hn (hF.disk _ hq)
  intro hb
  obtain ⟨hh, H⟩ := hI hb
  refine ⟨hh, H.congr fun n en => ?_⟩
  have hdet : ∀ g ∈ e.candidates, ({ e with disk := e.disk.put d .dir } : Engine).detected g =
      e.detected g := fun g hg => hF.detected hT hg (hnotfile g hg) (hpkg g hg)
  constructor
  · rintro ⟨g, hg, hd⟩
    exact ⟨g, hg, (hdet g hg).symm ▸ hd⟩
  · rintro ⟨g, hg, hd⟩
    exact ⟨g, hg, (hdet g hg) ▸ hd⟩

/-! ## Runs -/

/-- Every change the index follows keeps it current. -/
theorem IndexCurrent.step (hT : Tracks e) (hI : IndexCurrent c.opts.platforms e)
    (h : Watched c IndexSafe e e') : IndexCurrent c.opts.platforms e' := by
  cases h with
  | write bytes mtime hp hp0 hpar hnd hk hev hok => exact hI.write hT hp hp0 hpar hnd hk hev hok
  | mkdir hd hd0 hpar hnone => exact hI.mkdir hT hd hd0 hpar hnone
  | remove he hp0 hk hev hok => exact hI.remove hT he hp0 hk hev hok

/-- Through a run of changes the index follows, the engine keeps tracking its disk and its
index stays current. -/
theorem IndexCurrent.run (hT : Tracks e) (hI : IndexCurrent c.opts.platforms e)
    (h : Relation.ReflTransGen (Watched c IndexSafe) e e') :
    Tracks e' ∧ IndexCurrent c.opts.platforms e' := by
  induction h with
  | refl => exact ⟨hT, hI⟩
  | tail _ hstep ih => exact ⟨ih.1.step removesNoRoot_indexSafe hstep, ih.2.step ih.1 hstep⟩

/-- A started packager tracks its disk and holds a current index. -/
theorem indexCurrent_start {opts : PackagerOptions} {global : GlobalConfig} {t : Transformer}
    {D : Disk} (hD : D.WellFormed)
    (hroots : ∀ r ∈ opts.projectRoots, (Path.ofString r).normalize.IsNormal)
    (h : startPackager opts global t D = .ok (c, e)) (hI : e.vfs.ignore.ClosedBelow) :
    Tracks e ∧ IndexCurrent c.opts.platforms e := by
  refine ⟨Tracks.started hD hroots h hI, ?_⟩
  obtain ⟨e₀, e₁, idx, hT₀, hF, hidx, rfl⟩ := Tracks.start hD hroots h hI
  obtain ⟨-, -, hh, H⟩ := hasteIndex_eq_ok hT₀.registry hidx
  exact fun _ => ⟨hh, H.congr fun n en => (hF.keeps.detects hT₀.mirrors.nodup hT₀.registry).symm⟩

/-- **The index kept through changes is the one a rebuild makes.** Start a packager on a
well-formed disk, with roots naming normal absolute paths and ignore rules closed below, and
follow any run of changes to the disk reported as a watcher reports them, where an addition
reports a path where nothing stood, a removed directory holds no root strictly inside it, and a
package file appears or disappears only where no file under `node_modules` lies below its
directory. Whenever the index's error flag is down, a scan of the index on the current state
succeeds and agrees with the kept index slot for slot. -/
theorem index_matches_rebuild {opts : PackagerOptions} {global : GlobalConfig} {t : Transformer}
    {D₀ : Disk} {e₀ : Engine} (hD₀ : D₀.WellFormed)
    (hroots : ∀ r ∈ opts.projectRoots, (Path.ofString r).normalize.IsNormal)
    (hstart : startPackager opts global t D₀ = .ok (c, e₀)) (hI : e₀.vfs.ignore.ClosedBelow)
    (hrun : Relation.ReflTransGen (Watched c IndexSafe) e₀ e) (herr : e.hasteError = false) :
    ∃ h, (EngineM.run buildHasteMap c e).1 = .ok h ∧ ∀ n pl, h.slot n pl = e.haste.slot n pl := by
  obtain ⟨hT₀, hI₀⟩ := indexCurrent_start hD₀ hroots hstart hI
  obtain ⟨hT, hcur⟩ := hI₀.run hT₀ hrun
  obtain ⟨-, H⟩ := hcur herr
  -- every file a scan reads is read, and the pairs detected collide nowhere, as the index holds them
  have hall : e.DetectsAll := detectsAll_of_readable fun g hg =>
    readView_of_listed hT.mirrors ((mem_candidates_iff hT.mirrors).1 hg).1
  obtain ⟨h, hidx, -, H'⟩ := hasteIndex_eq_ok_of_noClash hall H.noClash
  obtain ⟨e', -, hscan⟩ := run_buildHasteMap (c := c) hT.registry (candidates_normal hT.mirrors)
  exact ⟨h, by rw [hscan, hidx], H'.slot_eq H⟩

/-- A packager over `/w` holding `A.js`, which declares `Foo`, follows the addition of `B.js`,
which declares `Bar`. -/
theorem index_matches_rebuild_after_add :
    let w : Path := ⟨[.root, .name "w"]⟩
    let D₀ : Disk :=
      ⟨[(w, .dir), (w.child "A.js", .file "/** @providesModule Foo */".toUTF8.toList 0)], 0,
        Disk.rootPath⟩
    let opts : PackagerOptions := { PackagerOptions.default with projectRoots := ["/w"] }
    ∃ c e₀ e, D₀.WellFormed ∧ (∀ r ∈ opts.projectRoots, (Path.ofString r).normalize.IsNormal) ∧
      startPackager opts .default .identity D₀ = .ok (c, e₀) ∧ e₀.vfs.ignore.ClosedBelow ∧
      Relation.ReflTransGen (Watched c IndexSafe) e₀ e ∧ e.hasteError = false ∧
      ∃ h, (EngineM.run buildHasteMap c e).1 = .ok h ∧ ∀ n pl, h.slot n pl = e.haste.slot n pl := by
  intro w D₀ opts
  let b := w.child "B.js"
  let bytes := "/** @providesModule Bar */".toUTF8.toList
  let ev : WatchEvent := ⟨.add, ⟨[.name "B.js"]⟩, w⟩
  have hD₀ : D₀.WellFormed := by
    refine ⟨by decide +kernel, by decide +kernel, fun x hx q hq => ?_⟩
    simp only [D₀, List.mem_cons, List.not_mem_nil, or_false] at hx
    rcases hx with rfl | rfl <;> cbv at hq <;> cases hq
    · exact Disk.find?_rootPath D₀
    · decide +kernel
  obtain ⟨⟨c, e₀⟩, hst⟩ := exists_ok_of_isOk (x := startPackager opts .default .identity D₀)
    (by decide +kernel)
  -- what the started engine holds, and what the change leaves, read off one evaluation
  have hfacts : ((startPackager opts .default .identity D₀).toOption.any fun r =>
      decide (r.2.disk.find? w = some .dir) && decide (r.2.disk.find? b = none) &&
        (r.2.vfs.ignore.patterns.isEmpty && r.2.vfs.ignore.relative.isEmpty) &&
        !(EngineM.run (graphChange ev) r.1 { r.2 with disk := r.2.disk.put b (.file bytes 1) }).2.hasteError) =
      true := by
    decide +kernel
  rw [hst] at hfacts
  simp only [Except.toOption, Option.any_some, Bool.and_eq_true, decide_eq_true_eq,
    Bool.not_eq_true'] at hfacts
  obtain ⟨⟨⟨hw, hb⟩, hign⟩, herr⟩ := hfacts
  have hstep : Watched c IndexSafe e₀
      (EngineM.run (graphChange ev) c { e₀ with disk := e₀.disk.put b (.file bytes 1) }).2 := by
    refine .write bytes 1 (by decide +kernel) (by decide +kernel) (fun q hq => ?_)
      (by rw [hb]; simp) (by decide) (by decide +kernel) ⟨fun _ => hb, fun h => ?_, fun h => ?_⟩
    · cbv at hq
      cases hq
      exact hw
    · rw [hb] at h
      cases h
    · exact absurd h (by decide +kernel)
  have hroots : ∀ r ∈ opts.projectRoots, (Path.ofString r).normalize.IsNormal := by
    decide +kernel
  have hI := IgnoreRules.closedBelow_of_isEmpty hign.1 hign.2
  exact ⟨c, e₀, _, hD₀, hroots, hst, hI, .single hstep, herr,
    index_matches_rebuild hD₀ hroots hst hI (.single hstep) herr⟩

/-- Without its conditions the theorem fails: an addition reported for a file that was there
already, as a watcher reports a file renamed over another, leaves the name the old file declared
in the index, where a rebuild finds none. -/
theorem index_keeps_name_of_replaced_file :
    ¬ ∀ (opts : PackagerOptions) (D₀ : Disk) (c : Context) (e₀ e : Engine), D₀.WellFormed →
      (∀ r ∈ opts.projectRoots, (Path.ofString r).normalize.IsNormal) →
      startPackager opts .default .identity D₀ = .ok (c, e₀) → e₀.vfs.ignore.ClosedBelow →
      Relation.ReflTransGen (Watched c fun _ _ _ => True) e₀ e → e.hasteError = false →
      ∃ h, (EngineM.run buildHasteMap c e).1 = .ok h ∧ ∀ n pl, h.slot n pl = e.haste.slot n pl := by
  intro hall
  -- `/w/A.js` declares `Foo`; it is replaced by a file declaring `Bar`, reported as an addition
  let w : Path := ⟨[.root, .name "w"]⟩
  let a := w.child "A.js"
  let D₀ : Disk := ⟨[(w, .dir), (a, .file "/** @providesModule Foo */".toUTF8.toList 0)], 0,
    Disk.rootPath⟩
  let opts : PackagerOptions := { PackagerOptions.default with projectRoots := ["/w"] }
  let bytes := "/** @providesModule Bar */".toUTF8.toList
  let ev : WatchEvent := ⟨.add, ⟨[.name "A.js"]⟩, w⟩
  have hD₀ : D₀.WellFormed := by
    refine ⟨by decide +kernel, by decide +kernel, fun x hx q hq => ?_⟩
    simp only [D₀, List.mem_cons, List.not_mem_nil, or_false] at hx
    rcases hx with rfl | rfl <;> cbv at hq <;> cases hq
    · exact Disk.find?_rootPath D₀
    · decide +kernel
  obtain ⟨⟨c, e₀⟩, hst⟩ := exists_ok_of_isOk (x := startPackager opts .default .identity D₀)
    (by decide +kernel)
  have hfacts : ((startPackager opts .default .identity D₀).toOption.any fun r =>
      let e := (EngineM.run (graphChange ev) r.1 { r.2 with disk := r.2.disk.put a (.file bytes 1) }).2
      decide (r.2.disk.find? w = some .dir) && decide (r.2.disk.find? a ≠ some .dir) &&
        (r.2.vfs.ignore.patterns.isEmpty && r.2.vfs.ignore.relative.isEmpty) && !e.hasteError &&
        decide (e.haste.slot "Foo" none = some (.module a)) &&
        ((EngineM.run buildHasteMap r.1 e).1.toOption.any fun h => decide (h.slot "Foo" none = none))) =
      true := by
    decide +kernel
  rw [hst] at hfacts
  simp only [Except.toOption, Option.any_some, Bool.and_eq_true, decide_eq_true_eq,
    Bool.not_eq_true'] at hfacts
  obtain ⟨⟨⟨⟨⟨hw, ha⟩, hign⟩, herr⟩, hslot⟩, hscan⟩ := hfacts
  have hstep : Watched c (fun _ _ _ => True) e₀
      (EngineM.run (graphChange ev) c { e₀ with disk := e₀.disk.put a (.file bytes 1) }).2 := by
    refine .write bytes 1 (by decide +kernel) (by decide +kernel) (fun q hq => ?_) ha (by decide)
      (by decide +kernel) trivial
    cbv at hq
    cases hq
    exact hw
  obtain ⟨h, hbuild, hsame⟩ := hall opts D₀ c e₀ _ hD₀ (by decide +kernel) hst
    (IgnoreRules.closedBelow_of_isEmpty hign.1 hign.2) (.single hstep) herr
  rw [hbuild] at hscan
  simp only [Option.any_some, decide_eq_true_eq] at hscan
  have := hsame "Foo" none
  rw [hscan, hslot] at this
  cases this

end Engine

end ModuleBundler
