import ModuleBundler.Proofs.Engine.Change
import ModuleBundler.Engine.Packager

/-!
# Watched changes

A running engine sees its disk change one step at a time, each step reported the way a watcher
reports it (`Engine.Watched`): a written file as added or changed, a removed file or directory by
one deletion, a new directory not at all. Through such a run the engine keeps tracking its disk
(`Engine.Tracks`): the mirror stays exact, no detached root appears and the registry stays well
formed, as long as no removed directory holds a root strictly inside it (`Tracks.run`). A
started packager tracks its disk once its ignore rules are closed below (`Tracks.start`).

A change is confined to the paths it touches (`Engine.Frame`). Off them the disk entries and
file nodes are as they were, so a scan reads the same files there (`Frame.mem_candidates`) and
detection finds what it found (`Frame.detected`), unless a package file above a file under
`node_modules` appeared or disappeared (`Engine.PackagesKept`).
-/

namespace ModuleBundler

open EngineM

namespace Vfs

variable {D : Disk} {v : Vfs} {p g : Path}

/-- The files the mirror lists under a path all lie below it. -/
theorem startsWith_of_mem_filesUnder (h : g ∈ v.filesUnder p) : g.startsWith p.normalize := by
  unfold filesUnder at h
  dsimp only at h
  split at h
  · simp only [List.mem_filter, Bool.and_eq_true] at h
    exact h.2.2
  · cases h

/-- Under an exact mirror, a listed file strictly below a path with no root strictly inside it
is among the files listed under that path. -/
theorem Mirrors.mem_filesUnder (hM : Mirrors D v) (hp : p.IsNormal)
    (hroots : HoldsNoInnerRoot v.roots p) (hg : Listed D v g) (hgp : g.startsWith p) (hne : g ≠ p) :
    g ∈ v.filesUnder p := by
  obtain ⟨d, hd⟩ := hM.complete g hg
  unfold filesUnder
  simp only [hp.normalize_eq]
  split
  · rw [List.mem_filter, mem_allFiles_iff hM.nodup]
    exact ⟨⟨d, hd⟩, by simpa [hne] using hgp⟩
  · rename_i hnd
    -- with no directory node at `p`, nothing lies below it
    have hnone := hM.node?_below hp hroots (fun cs h => hnd cs h) hgp hne
    simp [hnone] at hd

/-- An event the mirror takes was accepted, and names its own kind and path. -/
theorem processChange_eq_some {D : Disk} {kind : ChangeKind} {root rel : Path} {change : FileChange}
    (hev : (root.join rel).normalize = p) (h : (v.processChange D kind root rel).1 = some change) :
    v.Accepts D p ∧ change = ⟨kind, p⟩ := by
  by_cases hacc : v.Accepts D p
  · rw [processChange_fst_of_accepts hev hacc] at h
    exact ⟨hacc, (Option.some.inj h).symm⟩
  · rw [processChange_fst_of_not_accepts hev hacc] at h
    cases h

/-- An event the mirror drops was not accepted, and leaves the mirror as it was. -/
theorem processChange_eq_none {D : Disk} {kind : ChangeKind} {root rel : Path}
    (hev : (root.join rel).normalize = p) (h : (v.processChange D kind root rel).1 = none) :
    ¬ v.Accepts D p ∧ (v.processChange D kind root rel).2 = v := by
  by_cases hacc : v.Accepts D p
  · rw [processChange_fst_of_accepts hev hacc] at h
    cases h
  · exact ⟨hacc, processChange_of_not_accepts hev hacc⟩

/-- The files a crawl finds are normal. -/
theorem crawl_normal {D : Disk} {roots fs : List Path} {exts : List String} {I : IgnoreRules}
    (hD : D.WellFormed) (hroots : ∀ r ∈ roots, r.normalize.IsNormal)
    (h : crawl D roots exts I = .ok fs) : ∀ f ∈ fs, f.IsNormal := by
  obtain ⟨perRoot, hm, hfs⟩ := crawl_eq_ok h
  intro f hf
  obtain ⟨g, hg, rfl⟩ := (hfs f).1 hf
  obtain ⟨r, hr, zs, hzs, hgz⟩ := (mem_flatten_of_mapM_ok hm g).1 hg
  obtain ⟨⟨b, m, hb⟩, -, -⟩ := (hD.mem_filesUnder (hroots r hr)).1 (((crawlRoot_eq_ok hzs).2 g).1 hgz).1
  have hgn := hD.isNormal_of_find? hb
  rw [hgn.normalize_eq]
  exact hgn

/-- A build over normal roots and normal files keeps every node at a normal path. -/
theorem build_normalKeys {D₀ : Disk} {roots fs₀ : List Path} {I : IgnoreRules}
    {exts : List String} {v₀ : Vfs} (hroots : ∀ r ∈ roots, r.normalize.IsNormal)
    (hfs : ∀ f ∈ fs₀, f.IsNormal) (h : build D₀ roots fs₀ I exts = .ok v₀) : v₀.NormalKeys := by
  rw [build_eq_ok h]
  have hroot : ∀ (l : List Path) (w : Vfs), (∀ r ∈ l, r.IsNormal) → w.NormalKeys →
      (l.foldl addRoot w).NormalKeys := by
    intro l
    induction l with
    | nil => intro w _ hw; exact hw
    | cons r l ih =>
      intro w hl hw
      refine ih _ (fun r' h' => hl r' (List.mem_cons_of_mem _ h')) ?_
      unfold addRoot
      split
      · exact hw
      · exact hw.setNode (hl r List.mem_cons_self) _
  have hcrawled : ∀ (l : List Path) (w : Vfs), (∀ f ∈ l, f.IsNormal) → w.NormalKeys →
      (l.foldl addCrawled w).NormalKeys := by
    intro l
    induction l with
    | nil => intro w _ hw; exact hw
    | cons f l ih =>
      intro w hl hw
      refine ih _ (fun f' h' => hl f' (List.mem_cons_of_mem _ h')) ?_
      have hf := hl f List.mem_cons_self
      unfold addCrawled
      split
      · exact hw
      · rw [hf.normalize_eq]
        exact insertFile.go_normalKeys _ _ _ hf (hw.setNode hf _)
  refine hcrawled _ _ hfs (hroot _ _ (fun r hr => ?_) fun q x hq => by simp [node?] at hq)
  obtain ⟨a, ha, rfl⟩ := List.mem_map.1 hr
  exact hroots a ha

/-- A file listed on a disk is a path an event for it reaches. -/
theorem accepts_of_listed {D : Disk} (hD : D.WellFormed) (hL : Listed D v p) : v.Accepts D p := by
  obtain ⟨hp, hatt, hfile, ht, hign⟩ := hL
  refine ⟨Bool.eq_false_iff.2 fun hdir => ?_, hign, hatt, .inr ht⟩
  obtain ⟨b, m, hb⟩ := (hD.isFile_iff hp).1 hfile
  rw [(hD.isDir_iff hp).1 hdir] at hb
  cases hb

/-- A path an event reaches, where the disk held no directory and now holds a file, is listed. -/
theorem Mirrors.listed_of_accepts {D D' : Disk} (hM : Mirrors D v) (hp : p.IsNormal)
    (hnd : D.isDir p = false) (hacc : v.Accepts D' p) (hfile : D'.isFile p = true) :
    Listed D' v p := by
  obtain ⟨-, hign, hatt, hknown⟩ := hacc
  exact ⟨hp, hatt, hfile, hknown.resolve_left fun ⟨cs, h⟩ => hM.no_dir_node hign hatt hnd cs h,
    hign⟩

/-- A build leaves no detached root, and keeps the ignore rules it was given. -/
theorem build_detached_ignore {D₀ : Disk} {roots fs₀ : List Path} {I : IgnoreRules}
    {exts : List String} {v₀ : Vfs} (h : build D₀ roots fs₀ I exts = .ok v₀) :
    v₀.detached = [] ∧ v₀.ignore = I := by
  rw [build_eq_ok h]
  have hroot : ∀ (l : List Path) (w : Vfs),
      (l.foldl addRoot w).detached = w.detached ∧ (l.foldl addRoot w).ignore = w.ignore := by
    intro l
    induction l with
    | nil => intro w; exact ⟨rfl, rfl⟩
    | cons r l ih =>
      intro w
      rw [List.foldl_cons, (ih _).1, (ih _).2]
      unfold addRoot
      split <;> simp
  have hcrawled : ∀ (l : List Path) (w : Vfs),
      (l.foldl addCrawled w).detached = w.detached ∧ (l.foldl addCrawled w).ignore = w.ignore := by
    intro l
    induction l with
    | nil => intro w; exact ⟨rfl, rfl⟩
    | cons f l ih =>
      intro w
      rw [List.foldl_cons, (ih _).1, (ih _).2]
      unfold addCrawled
      split
      · exact ⟨rfl, rfl⟩
      · exact ⟨insertFile_detached _ _, (insertFile_config _ _).2.1⟩
  rw [(hcrawled _ _).1, (hcrawled _ _).2, (hroot _ _).1, (hroot _ _).2]
  exact ⟨rfl, rfl⟩

end Vfs


namespace Engine

variable {c : Context} {e e' : Engine}

/-- Under an exact mirror, the files a scan reads are the listed `.js` and `.json` files. -/
theorem mem_candidates_iff (hM : Vfs.Mirrors e.disk e.vfs) {g : Path} :
    g ∈ e.candidates ↔ Vfs.Listed e.disk e.vfs g ∧ Scanned g := by
  have hfile : g ∈ e.vfs.allFiles ↔ Vfs.Listed e.disk e.vfs g := by
    rw [Vfs.mem_allFiles_iff hM.nodup]
    exact ⟨fun ⟨d, hd⟩ => hM.files g d hd, hM.complete g⟩
  simp only [candidates, Vfs.findByExts, List.mem_filter, hfile, Scanned]
  cases g.extension? with
  | none => simp
  | some x => by_cases hx : x = "js" <;> simp [hx]

theorem candidates_normal (hM : Vfs.Mirrors e.disk e.vfs) : ∀ g ∈ e.candidates, g.IsNormal :=
  fun _ hg => ((mem_candidates_iff hM).1 hg).1.1

/-- A listed file reads. -/
theorem readView_of_listed (hM : Vfs.Mirrors e.disk e.vfs) {g : Path}
    (hL : Vfs.Listed e.disk e.vfs g) : ∃ s, e.readView g = .ok s := by
  obtain ⟨d, hd⟩ := hM.complete g hL
  obtain ⟨b, m, hb⟩ := hM.find?_of_listed hL
  have hatt : (e.vfs.attachedRoot? g).isNone = false := by
    simpa [Option.isNone_iff_eq_none, Option.isSome_iff_ne_none] using hL.2.1
  unfold readView Vfs.readFile
  simp only [hL.1.normalize_eq, hatt, Bool.false_eq_true, if_false, hd]
  cases d.content with
  | some s => exact ⟨s, rfl⟩
  | none =>
    simp only [Disk.readLossy, Disk.readBytes, hM.disk.status_eq_ok hb, Except.map]
    exact ⟨_, rfl⟩

/-! ## Watched changes -/

/-- One change to the disk under a running engine, reported the way a watcher reports it: a
file written where its directory exists (and no directory stands) as added or changed, a removed
file or directory, with everything below it, by one deletion. A new directory is not reported.
Each reported change satisfies `allowed`, read on the engine before it, the disk after it and
the change the event names. -/
inductive Watched (c : Context) (allowed : Engine → Disk → FileChange → Prop) :
    Engine → Engine → Prop
  | write {e : Engine} {p : Path} {ev : WatchEvent} (bytes : List UInt8) (mtime : Nat)
      (hp : p.IsNormal) (hp0 : p ≠ Disk.rootPath)
      (hpar : ∀ q, p.parent? = some q → e.disk.find? q = some .dir)
      (hnd : e.disk.find? p ≠ some .dir) (hk : ev.kind ≠ .delete)
      (hev : (ev.root.join ev.relative).normalize = p)
      (hok : allowed e (e.disk.put p (.file bytes mtime)) ⟨ev.kind, p⟩) :
      Watched c allowed e (run (graphChange ev) c { e with disk := e.disk.put p (.file bytes mtime) }).2
  | mkdir {e : Engine} {d : Path} (hd : d.IsNormal) (hd0 : d ≠ Disk.rootPath)
      (hpar : ∀ q, d.parent? = some q → e.disk.find? q = some .dir) (hnone : e.disk.find? d = none) :
      Watched c allowed e { e with disk := e.disk.put d .dir }
  | remove {e : Engine} {p : Path} {x : DiskEntry} {ev : WatchEvent} (he : e.disk.find? p = some x)
      (hp0 : p ≠ Disk.rootPath) (hk : ev.kind = .delete)
      (hev : (ev.root.join ev.relative).normalize = p)
      (hok : allowed e (e.disk.removeAll p) ⟨.delete, p⟩) :
      Watched c allowed e (run (graphChange ev) c { e with disk := e.disk.removeAll p }).2

/-- What a running engine keeps through watched changes: a mirror exact for its disk, with no
detached root, and a well-formed registry. -/
structure Tracks (e : Engine) : Prop where
  mirrors : Vfs.Mirrors e.disk e.vfs
  detached : e.vfs.detached = []
  registry : e.registry.WellFormed

/-- A change applies to the changed path itself, or to files the mirror lists under it. -/
theorem mem_changedFiles {ev : WatchEvent} {change fc : FileChange}
    (h : fc ∈ e.changedFiles ev change) :
    fc = change ∨ fc.kind = .delete ∧ fc.path ∈ e.vfs.filesUnder ev.absolutePath := by
  unfold changedFiles at h
  dsimp only at h
  by_cases hk : ev.kind = .delete
  · rw [if_pos hk] at h
    split at h
    · exact .inl (List.mem_singleton.1 h)
    · obtain ⟨q, hq, rfl⟩ := List.mem_map.1 h
      exact .inr ⟨rfl, hq⟩
  · rw [if_neg hk] at h
    exact .inl (by simpa using h)

/-- The files a change applies to are normal, under an exact mirror. -/
theorem changedFiles_normal {D : Disk} (hM : Vfs.Mirrors D e.vfs) {ev : WatchEvent} {p : Path}
    (hp : p.IsNormal) {kind : ChangeKind} :
    ∀ fc ∈ e.changedFiles ev ⟨kind, p⟩, fc.path.IsNormal := by
  intro fc hfc
  rcases mem_changedFiles hfc with rfl | ⟨-, hq⟩
  · exact hp
  · unfold Vfs.filesUnder at hq
    dsimp only at hq
    split at hq
    · obtain ⟨d, hd⟩ := (Vfs.mem_allFiles_iff hM.nodup).1 (List.mem_filter.1 hq).1
      exact (hM.files _ d hd).1
    · cases hq

/-- A change reported to an engine that tracks a disk now changed at the event's path, with the
mirror the event leaves exact for it, keeps the engine tracking it. -/
theorem Tracks.graphChange {D' : Disk} {ev : WatchEvent} {p : Path} (hT : Tracks e)
    (hp : p.IsNormal) (hev : (ev.root.join ev.relative).normalize = p)
    (hM' : Vfs.Mirrors D' (e.vfs.processChange D' ev.kind ev.root ev.relative).2) :
    Tracks (run (graphChange ev) c { e with disk := D' }).2 := by
  have hdet := Vfs.processChange_detached e.vfs D' ev.kind ev.root ev.relative
  rcases hr : e.vfs.processChange D' ev.kind ev.root ev.relative with ⟨_ | change, v₁⟩
  · rw [run_graphChange_dropped (e := { e with disk := D' }) hr]
    rw [hr] at hM' hdet
    exact ⟨hM', hdet.trans hT.detached, hT.registry⟩
  · rw [hr] at hM' hdet
    -- the event names its own path
    obtain ⟨-, rfl⟩ := Vfs.processChange_eq_some hev (congrArg Prod.fst hr)
    have hC : ∀ g ∈ ({ e with disk := D', vfs := v₁ } : Engine).candidates, g.IsNormal :=
      candidates_normal (e := { e with disk := D', vfs := v₁ }) hM'
    obtain ⟨e₂, e₄, h, b, hE₂, hK, hrun, -, -⟩ := run_graphChange (c := c) (e := { e with disk := D' })
      hT.registry hr (changedFiles_normal (e := { e with disk := D' }) hT.mirrors hp) hC
    rw [hrun]
    have hM₂ : Vfs.Mirrors e₂.disk e₂.vfs := by rw [hE₂.disk, hE₂.vfs]; exact hM'
    exact ⟨hK.disk ▸ hM₂.of_sameShape hK.shape, by rw [hK.shape.detached, hE₂.vfs, hdet, hT.detached],
      hK.wellFormed hE₂.wellFormed⟩

/-- A removal holds no root strictly inside it when it removes a file, and wherever `allowed`
says so when it removes a directory. -/
def RemovesNoRoot (allowed : Engine → Disk → FileChange → Prop) : Prop :=
  ∀ e D' fc, allowed e D' fc → e.disk.find? fc.path = some .dir →
    Vfs.HoldsNoInnerRoot e.vfs.roots fc.path

variable {allowed : Engine → Disk → FileChange → Prop}

/-- Every watched change keeps an engine tracking its disk. -/
theorem Tracks.step (hA : RemovesNoRoot allowed) (hT : Tracks e) (h : Watched c allowed e e') :
    Tracks e' := by
  cases h with
  | write bytes mtime hp hp0 hpar hnd hk hev =>
    exact hT.graphChange hp hev (hT.mirrors.write hp hp0 hpar hnd hk hev bytes mtime)
  | mkdir hd hd0 hpar hnone => exact ⟨hT.mirrors.mkdir hd hd0 hpar hnone, hT.detached, hT.registry⟩
  | @remove p x ev he hp0 hk hev hok =>
    have hp := hT.mirrors.disk.isNormal_of_find? he
    -- a removed file holds no root inside; a removed directory does not by `allowed`
    have hinner : Vfs.HoldsNoInnerRoot e.vfs.roots p := by
      cases x with
      | file b m => exact hT.mirrors.holdsNoInnerRoot hp (by simp [he])
      | dir => exact hA e _ _ hok he
    have hM' := hT.mirrors.remove he hp0 hinner hev
    rw [← hk] at hM'
    exact hT.graphChange hp hev hM'

/-- Every run of watched changes keeps an engine tracking its disk. -/
theorem Tracks.run (hA : RemovesNoRoot allowed) (hT : Tracks e)
    (h : Relation.ReflTransGen (Watched c allowed) e e') : Tracks e' := by
  induction h with
  | refl => exact hT
  | tail _ hstep ih => exact ih.step hA hstep

/-! ## What a change leaves of detection -/

/-- What a change confined to the paths `S` leaves between two engines: an exact mirror of the
new disk with the roots, ignore rules and extensions of the old one and no detached root, the
disk entries and file nodes off `S` as they were, and the registry and the memo untouched. -/
structure Frame (S : Path → Prop) (e e₁ : Engine) : Prop where
  mirrors : Vfs.Mirrors e₁.disk e₁.vfs
  detached : e₁.vfs.detached = []
  roots : e₁.vfs.roots = e.vfs.roots
  ignore : e₁.vfs.ignore = e.vfs.ignore
  extensions : e₁.vfs.extensions = e.vfs.extensions
  disk : ∀ q, ¬ S q → e₁.disk.find? q = e.disk.find? q
  node : ∀ q d, ¬ S q → e.vfs.node? q = some (.file d) → e₁.vfs.node? q = some (.file d)
  registry : e₁.registry = e.registry
  cache : e₁.cache = e.cache

/-- No package file above a file under `node_modules` appeared or disappeared between two
engines. -/
def PackagesKept (e e₁ : Engine) (g : Path) : Prop :=
  g.components.contains (.name "node_modules") = true → ∀ a, a.IsNormal → g.startsWith a →
    e₁.disk.isFile (a.child "package.json") = e.disk.isFile (a.child "package.json")

namespace Frame

variable {S : Path → Prop} {e₁ : Engine} (hF : Frame S e e₁)
include hF

/-- Whether a path is listed changes only with whether it is a file. -/
theorem listed_iff_of_isFile {q : Path} (hq : e₁.disk.isFile q = e.disk.isFile q) :
    Vfs.Listed e₁.disk e₁.vfs q ↔ Vfs.Listed e.disk e.vfs q := by
  rw [Vfs.listed_congr hF.roots hF.ignore hF.extensions]
  unfold Vfs.Listed
  rw [hq]

variable (hT : Tracks e)
include hT

theorem listed_iff {q : Path} (hq : ¬ S q) :
    Vfs.Listed e₁.disk e₁.vfs q ↔ Vfs.Listed e.disk e.vfs q := by
  rw [Vfs.listed_congr hF.roots hF.ignore hF.extensions]
  exact Vfs.listed_congr_disk hT.mirrors.disk hF.mirrors.disk (hF.disk q hq)

/-- Off `S`, the files a scan reads are the ones it read. -/
theorem mem_candidates {g : Path} (hg : ¬ S g) : g ∈ e₁.candidates ↔ g ∈ e.candidates := by
  rw [mem_candidates_iff hF.mirrors, mem_candidates_iff hT.mirrors, hF.listed_iff hT hg]

/-- A file read off `S` reads as it did. -/
theorem readView {g : Path} (hg : g ∈ e.candidates) (hgS : ¬ S g) :
    e₁.readView g = e.readView g := by
  have hL := ((mem_candidates_iff hT.mirrors).1 hg).1
  obtain ⟨d, hd⟩ := hT.mirrors.complete g hL
  obtain ⟨b, m, hb⟩ := hT.mirrors.find?_of_listed hL
  have hb₁ : e₁.disk.find? g = some (.file b m) := (hF.disk g hgS).trans hb
  unfold Engine.readView
  refine Vfs.readFile_congr hF.roots (hF.detached.trans hT.detached.symm) ?_ ?_
  · rw [hL.1.normalize_eq, hd, hF.node g d hgS hd]
  · rw [hL.1.normalize_eq, hF.mirrors.disk.status_eq_ok hb₁, hT.mirrors.disk.status_eq_ok hb]

/-- A file takes part in global naming as it did, when no package file above it appeared or
disappeared. -/
theorem compatible {g : Path} (hg : g ∈ e.candidates) (hpkg : PackagesKept e e₁ g) :
    e₁.compatible g = e.compatible g := by
  have hgn := candidates_normal hT.mirrors g hg
  unfold Engine.compatible
  cases hnm : g.components.contains (.name "node_modules")
  · rfl
  · -- the search climbs through the directories above `g`, where the package files are as they were
    have hclosest : e₁.vfs.closest e₁.disk g "package.json" = e.vfs.closest e.disk g "package.json" := by
      refine Vfs.closest_congr hgn hF.roots (hF.detached.trans hT.detached.symm) fun a ha hga => ?_
      have hpush : a.push "package.json" = a.child "package.json" :=
        Path.push_plain ha.components_ne_nil (by decide)
      have hn : (a.child "package.json").IsNormal := ha.child (by decide)
      rw [Bool.eq_iff_iff, hF.mirrors.fileExists_iff hF.detached, hT.mirrors.fileExists_iff hT.detached,
        hpush, hn.normalize_eq]
      exact hF.listed_iff_of_isFile (hpkg hnm a ha hga)
    rw [hclosest, hF.roots]

/-- Detection at a file off `S` finds what it found, when no package file above it appeared or
disappeared. -/
theorem detected {g : Path} (hg : g ∈ e.candidates) (hgS : ¬ S g) (hpkg : PackagesKept e e₁ g) :
    e₁.detected g = e.detected g := by
  have hread := hF.readView hT hg hgS
  have hpv : e₁.packageView g = e.packageView g := by
    simp only [packageView, hF.registry, hread]
  have hdecl : e₁.declaredName g = e.declaredName g :=
    declaredName_congr (by simp only [recordedData, hF.registry])
      (by simp only [memoData, hF.cache]) hread
  simp only [Engine.detected, hpv, hF.roots, hF.compatible hT hg hpkg, hdecl]

end Frame

/-- A file written at a path and reported changes the engine there only. -/
theorem frame_write (hM : Vfs.Mirrors e.disk e.vfs) (hdet : e.vfs.detached = []) {p : Path}
    {ev : WatchEvent} (bytes : List UInt8) (mtime : Nat) (hp : p.IsNormal) (hp0 : p ≠ Disk.rootPath)
    (hpar : ∀ q, p.parent? = some q → e.disk.find? q = some .dir) (hnd : e.disk.find? p ≠ some .dir)
    (hk : ev.kind ≠ .delete) (hev : (ev.root.join ev.relative).normalize = p) :
    Frame (· = p) e { e with
      disk := e.disk.put p (.file bytes mtime)
      vfs := (e.vfs.processChange (e.disk.put p (.file bytes mtime)) ev.kind ev.root ev.relative).2 } := by
  obtain ⟨hr, hi, hx⟩ := Vfs.processChange_config e.vfs (e.disk.put p (.file bytes mtime)) ev.kind
    ev.root ev.relative
  refine ⟨hM.write hp hp0 hpar hnd hk hev bytes mtime,
    (Vfs.processChange_detached _ _ _ _ _).trans hdet, hr, hi, hx, fun q hq => ?_,
    fun q d hq hd => hM.node?_write hp hp0 hpar hnd hev _ hq hd, rfl, rfl⟩
  simp only [Disk.find?_put hp0, if_neg hq]

/-- A removal reported as one deletion changes the engine at and below the removed path only. -/
theorem frame_remove (hM : Vfs.Mirrors e.disk e.vfs) (hdet : e.vfs.detached = []) {p : Path}
    {x : DiskEntry} {ev : WatchEvent} (he : e.disk.find? p = some x) (hp0 : p ≠ Disk.rootPath)
    (hinner : Vfs.HoldsNoInnerRoot e.vfs.roots p) (hev : (ev.root.join ev.relative).normalize = p) :
    Frame (·.startsWith p) e { e with
      disk := e.disk.removeAll p
      vfs := (e.vfs.processChange (e.disk.removeAll p) .delete ev.root ev.relative).2 } := by
  have hp := hM.disk.isNormal_of_find? he
  obtain ⟨hr, hi, hx⟩ := Vfs.processChange_config e.vfs (e.disk.removeAll p) .delete
    ev.root ev.relative
  refine ⟨hM.remove he hp0 hinner hev,
    (Vfs.processChange_detached _ _ _ _ _).trans hdet, hr, hi, hx, fun q hq => ?_,
    fun q d hq hd => hM.node?_remove hp hev _ hq hd, rfl, rfl⟩
  rw [Disk.find?_removeAll hp, if_neg fun h => hq h.2]

/-- A new directory changes the engine at its path only. -/
theorem frame_mkdir (hM : Vfs.Mirrors e.disk e.vfs) (hdet : e.vfs.detached = []) {d : Path}
    (hd : d.IsNormal) (hd0 : d ≠ Disk.rootPath)
    (hpar : ∀ q, d.parent? = some q → e.disk.find? q = some .dir) (hnone : e.disk.find? d = none) :
    Frame (· = d) e { e with disk := e.disk.put d .dir } :=
  ⟨hM.mkdir hd hd0 hpar hnone, hdet, rfl, rfl, rfl,
    fun q hq => by simp only [Disk.find?_put hd0, if_neg hq], fun _ _ _ h => h, rfl, rfl⟩

/-! ## Loading -/

section Load

variable {opts : PackagerOptions} {global : GlobalConfig} {t : Transformer} {D : Disk}

/-- A load that succeeds crawls the roots and builds the mirror from the files found, over the
disk it was given, with an empty registry. -/
theorem loadContext_eq_ok {cache : ContentCache}
    (h : loadContext opts global t D cache = .ok (c, e)) :
    ∃ fs exts I, Vfs.crawl D (opts.projectRoots.map fun r => (Path.ofString r).normalize) exts I =
        .ok fs ∧
      Vfs.build D (opts.projectRoots.map fun r => (Path.ofString r).normalize) fs I exts = .ok e.vfs ∧
      e.disk = D ∧ e.registry = Registry.empty ∧ c.opts = opts := by
  have hmap : ∀ {α : Type} (x : Except VfsError α) (a : α), x.mapError Error.vfs = .ok a ↔ x = .ok a :=
    fun x a => by cases x <;> simp [Except.mapError]
  unfold loadContext at h
  simp only [bind, Except.bind, pure, Except.pure] at h
  -- every way through that does not fail ends in a fresh engine over the built mirror
  repeat' split at h
  all_goals cases h
  all_goals rename_i hcrawl _ _ hbuild
  all_goals exact ⟨_, _, _, (hmap _ _).1 hcrawl, (hmap _ _).1 hbuild, rfl, rfl, rfl⟩
/-- A successful load tracks its disk, when the disk is well formed, the roots name normal
absolute paths and the ignore rules are closed below. -/
theorem Tracks.load {cache : ContentCache} (hD : D.WellFormed)
    (hroots : ∀ r ∈ opts.projectRoots, (Path.ofString r).normalize.IsNormal)
    (h : loadContext opts global t D cache = .ok (c, e)) (hI : e.vfs.ignore.ClosedBelow) :
    Tracks e := by
  obtain ⟨fs, exts, I, hcrawl, hbuild, hdisk, hreg, -⟩ := loadContext_eq_ok h
  obtain ⟨hdet, hign⟩ := Vfs.build_detached_ignore hbuild
  have hroots' : ∀ r ∈ opts.projectRoots.map fun r => (Path.ofString r).normalize,
      r.normalize.IsNormal := by
    intro r hr
    obtain ⟨a, ha, rfl⟩ := List.mem_map.1 hr
    rw [(hroots a ha).normalize_eq]
    exact hroots a ha
  obtain ⟨hM, -⟩ := Vfs.mirrors_build hD hroots' (hign ▸ hI) hcrawl hbuild
  exact ⟨hdisk ▸ hM, hdet, hreg ▸ Registry.wellFormed_empty⟩

/-- Fills keep an engine tracking its disk. -/
theorem Tracks.of_keeps (hT : Tracks e) (hK : Keeps e e') : Tracks e' :=
  ⟨hK.disk ▸ hT.mirrors.of_sameShape hK.shape, hK.shape.detached.trans hT.detached,
    hK.wellFormed hT.registry⟩

/-- A started packager is a load followed by the build of its name index. -/
theorem startPackager_eq_ok (h : startPackager opts global t D = .ok (c, e)) :
    ∃ e₀, loadContext opts global t D (openCache D opts) = .ok (c, e₀) ∧
      run loadGraph c e₀ = (.ok (), e) := by
  unfold startPackager at h
  rcases hl : loadContext opts global t D (openCache D opts) with _ | ⟨c', e₀⟩ <;> rw [hl] at h
  · cases h
  · simp only [bind, Except.bind] at h
    rcases hr : run loadGraph c' e₀ with ⟨_ | u, e₁⟩ <;> rw [hr] at h <;>
      simp only [Except.map] at h
    · cases h
    · cases h
      exact ⟨e₀, rfl, hr⟩

/-- Building the name index of a load fills caches and keeps the index a scan builds. -/
theorem run_loadGraph (hR : e.registry.WellFormed) (hC : ∀ g ∈ e.candidates, g.IsNormal)
    (h : run loadGraph c e = (.ok (), e')) :
    ∃ e₁ idx, Fills e e₁ ∧ e.hasteIndex c.opts.platforms = .ok idx ∧ e' = { e₁ with haste := idx } := by
  obtain ⟨e₁, hF, hrun⟩ := run_buildHasteMap (c := c) hR hC
  simp only [loadGraph, run_bind, hrun] at h
  cases hidx : e.hasteIndex c.opts.platforms with
  | error err => rw [hidx] at h; cases h
  | ok idx =>
    rw [hidx] at h
    simp only [run_modify, Prod.mk.injEq] at h
    exact ⟨e₁, idx, hF, rfl, h.2.symm⟩

/-- A started packager tracks its disk, and holds the index a scan of the load built, when the
disk is well formed, the roots name normal absolute paths and the ignore rules are closed
below. -/
theorem Tracks.start (hD : D.WellFormed)
    (hroots : ∀ r ∈ opts.projectRoots, (Path.ofString r).normalize.IsNormal)
    (h : startPackager opts global t D = .ok (c, e)) (hI : e.vfs.ignore.ClosedBelow) :
    ∃ e₀ e₁ idx, Tracks e₀ ∧ Fills e₀ e₁ ∧ e₀.hasteIndex c.opts.platforms = .ok idx ∧
      e = { e₁ with haste := idx } := by
  obtain ⟨e₀, hctx, hload⟩ := startPackager_eq_ok h
  obtain ⟨fs, exts, I, hcrawl, hbuild, hdisk, hreg, -⟩ := loadContext_eq_ok hctx
  have hroots' : ∀ r ∈ opts.projectRoots.map fun r => (Path.ofString r).normalize,
      r.normalize.IsNormal := by
    intro r hr
    obtain ⟨a, ha, rfl⟩ := List.mem_map.1 hr
    rw [(hroots a ha).normalize_eq]
    exact hroots a ha
  -- the files a scan reads sit at normal paths, which is all the build of the index needs
  have hkeys := Vfs.build_normalKeys hroots' (Vfs.crawl_normal hD hroots' hcrawl) hbuild
  have hC : ∀ g ∈ e₀.candidates, g.IsNormal := fun g hg => by
    obtain ⟨x, hx⟩ := Vfs.exists_node?_of_mem_allFiles (List.mem_filter.1 hg).1
    exact hkeys g x hx
  have hR₀ : e₀.registry.WellFormed := hreg ▸ Registry.wellFormed_empty
  obtain ⟨e₁, idx, hF, hidx, rfl⟩ := run_loadGraph hR₀ hC hload
  have hI₀ : e₀.vfs.ignore.ClosedBelow := by
    have := hF.keeps.shape.ignore
    simp only at hI
    rwa [← this]
  exact ⟨e₀, e₁, idx, Tracks.load hD hroots hctx hI₀, hF, hidx, rfl⟩

/-- A started packager tracks its disk. -/
theorem Tracks.started (hD : D.WellFormed)
    (hroots : ∀ r ∈ opts.projectRoots, (Path.ofString r).normalize.IsNormal)
    (h : startPackager opts global t D = .ok (c, e)) (hI : e.vfs.ignore.ClosedBelow) : Tracks e := by
  obtain ⟨e₀, e₁, idx, hT₀, hF, -, rfl⟩ := Tracks.start hD hroots h hI
  -- the index built last is no part of what tracking asks
  have hT₁ := hT₀.of_keeps hF.keeps
  exact ⟨hT₁.mirrors, hT₁.detached, hT₁.registry⟩

end Load

end Engine

end ModuleBundler
