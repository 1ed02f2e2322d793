import ModuleBundler.Proofs.Vfs.Tree
import ModuleBundler.Proofs.Vfs.Crawl
import ModuleBundler.Proofs.Evaluation
import Mathlib

/-!
# The mirror follows the disk

The mirror is built from a crawl and then kept up to date by change events. This module follows
a disk and its mirror through a run of disk changes, each reported as a watcher reports it: a
written file as added or changed, a removed file or directory by one deletion, a new directory
not at all.

The invariant (`Mirrors`) says that the mirror's tree is linked, its file nodes are exactly the
files a crawl would find (`Listed`), and each of its directory nodes is a directory on the disk,
ignored, or outside the roots. A change event gets through to the tree only when its path is no
directory on the disk, is not ignored, lies in a root, and is a known directory or has a tracked
extension (`Accepts`). Each disk change keeps the invariant when ignoring is closed below and no
removed directory holds a root strictly inside it; a crawl then finds what the mirror knows.

Both conditions are needed. An event is checked against the ignore rules only at its own path,
so a file written below an ignored directory that its own path does not match enters the mirror
though no crawl finds it. And the tree is linked lazily: the directories between two nested
roots have no node, so deleting one of them removes nothing, and the inner root's files stay.
-/

namespace ModuleBundler

namespace Vfs

/-! ## Events -/

section Events

variable {v : Vfs} {D : Disk} {p root rel : Path} {kind : ChangeKind}

/-- Whether an event for `p` reaches the tree: `p` is no directory on the disk, is not ignored,
lies in a root, and is a known directory or has a tracked extension. -/
def Accepts (v : Vfs) (D : Disk) (p : Path) : Prop :=
  D.isDir p = false ∧ v.ignore.isIgnored p = false ∧ (v.attachedRoot? p).isSome ∧
    ((∃ cs, v.node? p = some (.dir cs)) ∨ v.hasTrackedExtension p = true)

/-- An accepted event removes the node unless it reports an addition, and records the file
unless it reports a deletion and as long as the file is on the disk. -/
theorem processChange_of_accepts (hp : (root.join rel).normalize = p) (h : v.Accepts D p) :
    (v.processChange D kind root rel).2 =
      if kind = .delete then (if kind = .add then v else v.removeNode p)
      else if D.isFile p then (if kind = .add then v else v.removeNode p).insertFile p
      else (if kind = .add then v else v.removeNode p) := by
  obtain ⟨hdir, hign, hatt, hknown⟩ := h
  have hatt' : v.attachedRoot? p ≠ none := by simpa [Option.isSome_iff_ne_none] using hatt
  rcases hknown with ⟨cs, hcs⟩ | ht
  · simp [processChange, hp, hdir, hign, hatt', hcs]
  · simp [processChange, hp, hdir, hign, hatt', ht]

/-- An event that is not accepted leaves the mirror as it is. -/
theorem processChange_of_not_accepts (hp : (root.join rel).normalize = p) (h : ¬ v.Accepts D p) :
    (v.processChange D kind root rel).2 = v := by
  simp only [processChange, hp]
  by_cases h1 : D.isDir p = true
  · simp [h1]
  by_cases h2 : v.ignore.isIgnored p = true
  · simp [h1, h2]
  by_cases h3 : v.attachedRoot? p = none
  · simp [h1, h2, h3]
  -- what is left: no known directory and an untracked extension
  have hrest : ¬ ((∃ cs, v.node? p = some (.dir cs)) ∨ v.hasTrackedExtension p = true) :=
    fun hk => h ⟨by simpa using h1, by simpa using h2,
      by simpa [Option.isSome_iff_ne_none] using h3, hk⟩
  have ht : v.hasTrackedExtension p = false := by simpa using fun h' => hrest (.inr h')
  cases hn : v.node? p with
  | none => simp [h1, h2, h3, ht]
  | some x =>
    cases x with
    | dir cs => exact absurd (.inl ⟨cs, hn⟩) hrest
    | file d => simp [h1, h2, h3, ht]

/-- Events keep the roots, the ignore rules and the extensions. -/
theorem processChange_config (v : Vfs) (D : Disk) (kind : ChangeKind) (root rel : Path) :
    (v.processChange D kind root rel).2.roots = v.roots ∧
      (v.processChange D kind root rel).2.ignore = v.ignore ∧
      (v.processChange D kind root rel).2.extensions = v.extensions := by
  unfold processChange
  dsimp only
  repeat' split
  all_goals simp [insertFile_config, removeNode_config]

end Events

/-! ## The invariant -/

/-- The paths a crawl finds and the mirror should hold as files: normal paths in a root that are
files on the disk, with a tracked extension, and not ignored. -/
def Listed (D : Disk) (v : Vfs) (f : Path) : Prop :=
  f.IsNormal ∧ (v.attachedRoot? f).isSome ∧ D.isFile f = true ∧ v.hasTrackedExtension f = true ∧
    v.ignore.isIgnored f = false

/-- No root lies strictly inside `d`. -/
def HoldsNoInnerRoot (roots : List Path) (d : Path) : Prop := ∀ r ∈ roots, r.startsWith d → r = d

theorem attachedRoot?_isSome_iff {v : Vfs} {f : Path} :
    (v.attachedRoot? f).isSome ↔ ∃ r ∈ v.roots, f.startsWith r := by
  simp [attachedRoot?, List.find?_isSome]

/-- The shape of the mirror against the disk: everything but that each listed file is there. -/
structure TreeOK (D : Disk) (v : Vfs) : Prop where
  disk : D.WellFormed
  nodup : (v.nodes.map Prod.fst).Nodup
  normal : v.NormalKeys
  plain : v.PlainChildren
  linked : v.Linked
  files : ∀ f d, v.node? f = some (.file d) → Listed D v f
  dirs : ∀ q cs, v.node? q = some (.dir cs) →
    D.isDir q = true ∨ v.ignore.isIgnored q = true ∨ v.attachedRoot? q = none
  rootsNormal : ∀ r ∈ v.roots, r.IsNormal
  rootsAbove : ∀ r ∈ v.roots, ∀ a, a.IsNormal → r.startsWith a → a ≠ r → D.find? a = some .dir
  closed : v.ignore.ClosedBelow

/-- The mirror holds exactly the files a crawl would find. -/
structure Mirrors (D : Disk) (v : Vfs) : Prop extends TreeOK D v where
  complete : ∀ f, Listed D v f → ∃ d, v.node? f = some (.file d)

section Invariant

variable {D D' : Disk} {v w : Vfs} {p q f : Path}

/-- Whether a path is listed depends on the mirror only through its roots, ignore rules and
extensions. -/
theorem listed_congr (hr : w.roots = v.roots) (hi : w.ignore = v.ignore)
    (he : w.extensions = v.extensions) : Listed D w f ↔ Listed D v f := by
  simp [Listed, attachedRoot?, hasTrackedExtension, hr, hi, he]

/-- Whether a path is listed depends on the disk only through what it holds there. -/
theorem listed_congr_disk (hD : D.WellFormed) (hD' : D'.WellFormed) (h : D'.find? f = D.find? f) :
    Listed D' v f ↔ Listed D v f := by
  unfold Listed
  constructor
  · rintro ⟨hf, hatt, hfile, ht, hi⟩
    exact ⟨hf, hatt, by rwa [← hD.isFile_congr hD' hf h], ht, hi⟩
  · rintro ⟨hf, hatt, hfile, ht, hi⟩
    exact ⟨hf, hatt, by rwa [hD.isFile_congr hD' hf h], ht, hi⟩

namespace TreeOK

variable (hT : TreeOK D v)
include hT

/-- A listed file is an entry of the disk. -/
theorem find?_of_listed (hf : Listed D v f) : ∃ b m, D.find? f = some (.file b m) :=
  (hT.disk.isFile_iff hf.1).1 hf.2.2.1

/-- No file node stands above an entry of the disk. -/
theorem noFileAbove {e : DiskEntry} (hf : D.find? f = some e) : v.NoFileAbove f := by
  intro a hfa haf d hd
  have hL := hT.files a d hd
  obtain ⟨b, m, hb⟩ := hT.find?_of_listed hL
  rw [hT.disk.find?_of_startsWith hf hfa haf hL.1.components_ne_nil] at hb
  cases hb

/-- A path in a root that is not ignored and no directory on the disk holds no directory node. -/
theorem no_dir_node (hign : v.ignore.isIgnored p = false) (hatt : (v.attachedRoot? p).isSome)
    (hnd : D.isDir p = false) (cs : List String) : v.node? p ≠ some (.dir cs) := by
  intro h
  rcases hT.dirs p cs h with h' | h' | h'
  · simp [hnd] at h'
  · simp [hign] at h'
  · simp [h'] at hatt

/-- A normal path that is no directory on the disk holds no root strictly inside it. -/
theorem holdsNoInnerRoot (hp : p.IsNormal) (hnd : D.find? p ≠ some .dir) :
    HoldsNoInnerRoot v.roots p := by
  intro r hr hrp
  by_contra hne
  exact hnd (hT.rootsAbove r hr p hp hrp (Ne.symm hne))

/-- Only a directory node has nodes strictly below it, when no root lies strictly inside. -/
theorem node?_below (hp : p.IsNormal) (hroots : HoldsNoInnerRoot v.roots p)
    (hnd : ∀ cs, v.node? p ≠ some (.dir cs)) (hq : q.startsWith p) (hne : q ≠ p) :
    v.node? q = none := by
  cases h : v.node? q with
  | none => rfl
  | some x =>
    obtain ⟨cs, n, hcs, -⟩ :=
      exists_listed_child hT.normal (hT.linked.linkedBelow hroots) hp h hq hne
    exact absurd hcs (hnd cs)

/-! ## Changing the disk under a fixed tree -/

/-- A tree stays in shape over a disk that changed only on `S`, when the nodes on `S` still fit. -/
theorem of_disk (hD' : D'.WellFormed) (S : Path → Prop)
    (hsame : ∀ q, ¬ S q → D'.find? q = D.find? q)
    (hfiles : ∀ f d, S f → v.node? f = some (.file d) → Listed D' v f)
    (hdirs : ∀ q cs, S q → v.node? q = some (.dir cs) →
      D'.isDir q = true ∨ v.ignore.isIgnored q = true ∨ v.attachedRoot? q = none)
    (hroots : ∀ r ∈ v.roots, ∀ a, a.IsNormal → r.startsWith a → a ≠ r → S a →
      D'.find? a = some .dir) : TreeOK D' v where
  disk := hD'
  nodup := hT.nodup
  normal := hT.normal
  plain := hT.plain
  linked := hT.linked
  files f d hf := by
    by_cases hS : S f
    · exact hfiles f d hS hf
    · exact (listed_congr_disk hT.disk hD' (hsame f hS)).2 (hT.files f d hf)
  dirs q cs hq := by
    by_cases hS : S q
    · exact hdirs q cs hS hq
    · rw [hT.disk.isDir_congr hD' (hT.normal q _ hq) (hsame q hS)]
      exact hT.dirs q cs hq
  rootsNormal := hT.rootsNormal
  rootsAbove r hr a ha hra har := by
    by_cases hS : S a
    · exact hroots r hr a ha hra har hS
    · rw [hsame a hS]; exact hT.rootsAbove r hr a ha hra har
  closed := hT.closed

/-! ## Removing and recording under a fixed disk -/

/-- Removing a path with no root strictly inside keeps the tree in shape. -/
theorem removeNode (hp : p.IsNormal) (hroots : HoldsNoInnerRoot v.roots p) :
    TreeOK D (v.removeNode p) := by
  have hpr := removeNode_pruned v p
  obtain ⟨hr, hi, he⟩ := removeNode_config v p
  refine ⟨hT.disk, hpr.keys.nodup hT.nodup, hpr.normalKeys hT.normal,
    hpr.plainChildren hT.plain, removeNode_linked hp hT.normal hT.plain hT.linked hroots,
    ?_, ?_, hr ▸ hT.rootsNormal, hr ▸ hT.rootsAbove, hi ▸ hT.closed⟩
  · intro f d hf
    obtain ⟨y, hy, hxy⟩ := hpr.within f _ hf
    cases y with
    | file d' => exact (listed_congr hr hi he).2 (hT.files f d' hy)
    | dir cs => exact hxy.elim
  · intro q cs hq
    obtain ⟨y, hy, hxy⟩ := hpr.within q _ hq
    cases y with
    | dir cs' => simpa [attachedRoot?, hr, hi] using hT.dirs q cs' hy
    | file d => exact hxy.elim

/-- Removing `p` keeps every file node off its subtree. -/
theorem node?_removeNode_file (hp : p.IsNormal) (hf : ¬ f.startsWith p) {d : FileNode}
    (hd : v.node? f = some (.file d)) : (v.removeNode p).node? f = some (.file d) := by
  by_cases hpar : p.parent? = some f
  · obtain ⟨-, n, -, rfl⟩ := hp.parent? hpar
    rw [node?_removeNode_parent hp hT.plain, hd]
  · rw [node?_removeNode_of_not_startsWith hp hT.plain hf hpar, hd]

/-- Recording a listed file where no directory node stands keeps the tree in shape, and adds
exactly that file to the file nodes. -/
theorem insertFile (hf : Listed D v f) (hnodir : ∀ cs, v.node? f ≠ some (.dir cs)) :
    TreeOK D (v.insertFile f) ∧ ∀ q, (∃ d, (v.insertFile f).node? q = some (.file d)) ↔
      q = f ∨ ∃ d, v.node? q = some (.file d) := by
  obtain ⟨b, m, hfile⟩ := hT.find?_of_listed hf
  obtain ⟨hC, hlink⟩ := insertFile_climbed hf.1 hT.linked hnodir (hT.noFileAbove hfile)
  obtain ⟨hr, hi, he⟩ := insertFile_config v f
  -- off the proper ancestors of `f`, the tree is `v` with the file node at `f`
  have hoff : ∀ q, ¬ (f.startsWith q ∧ q ≠ f) →
      (v.insertFile f).node? q = if q = f then some (.file ⟨none, none⟩) else v.node? q :=
    fun q hq => by rw [hC.frame q hq, node?_setNode]
  -- a node at a proper ancestor of `f` sits at a normal path
  have hanc : ∀ q x, f.startsWith q → q ≠ f → (v.insertFile f).node? q = some x → q.IsNormal := by
    intro q x hfq hqf hx
    cases hv : v.node? q with
    | none => exact hC.fresh q x hx (by simp [hqf, hv])
    | some y => exact hT.normal q y hv
  have hfiles : ∀ q, (∃ d, (v.insertFile f).node? q = some (.file d)) ↔
      q = f ∨ ∃ d, v.node? q = some (.file d) := by
    intro q
    by_cases hq : f.startsWith q ∧ q ≠ f
    · -- above `f` there are directories only, before and after
      constructor
      · rintro ⟨d, hd⟩
        obtain ⟨cs, hcs, -⟩ := hC.above q _ hq.1 hq.2 hd
        cases hcs
      · rintro (rfl | ⟨d, hd⟩)
        · exact absurd rfl hq.2
        · exact absurd hd (hT.noFileAbove hfile q hq.1 hq.2 d)
    · rw [hoff q hq]
      by_cases hqf : q = f <;> simp [hqf]
  refine ⟨⟨hT.disk, hC.nodup (setNode_nodup v f _ hT.nodup), ?_, ?_, hlink, ?_, ?_,
    hr ▸ hT.rootsNormal, hr ▸ hT.rootsAbove, hi ▸ hT.closed⟩, hfiles⟩
  · intro q x hx
    by_cases hq : f.startsWith q ∧ q ≠ f
    · exact hanc q x hq.1 hq.2 hx
    · rw [hoff q hq] at hx
      split at hx
      · rename_i hqf; exact hqf ▸ hf.1
      · exact hT.normal q x hx
  · intro q cs hq m hm
    by_cases hqa : f.startsWith q ∧ q ≠ f
    · obtain ⟨cs', hcs', hnames⟩ := hC.above q _ hqa.1 hqa.2 hq
      cases hcs'
      rcases hnames m hm with ⟨cs₀, hcs₀, hm₀⟩ | hfm
      · rw [node?_setNode, if_neg hqa.2] at hcs₀
        exact hT.plain q cs₀ hcs₀ m hm₀
      · exact Path.IsNormal.plain_of_child
          (hf.1.of_startsWith hfm (by simp [Path.child_components]))
    · rw [hoff q hqa] at hq
      split at hq
      · cases hq
      · exact hT.plain q cs hq m hm
  · intro q d hd
    rw [listed_congr hr hi he]
    rcases (hfiles q).1 ⟨d, hd⟩ with rfl | ⟨d', hd'⟩
    · exact hf
    · exact hT.files q d' hd'
  · intro q cs hq
    rw [hi, show (v.insertFile f).attachedRoot? q = v.attachedRoot? q by simp [attachedRoot?, hr]]
    by_cases hqa : f.startsWith q ∧ q ≠ f
    · -- a directory node above a file on the disk is a directory on the disk
      have hqn := hanc q _ hqa.1 hqa.2 hq
      exact .inl ((hT.disk.isDir_iff hqn).2
        (hT.disk.find?_of_startsWith hfile hqa.1 hqa.2 hqn.components_ne_nil))
    · rw [hoff q hqa] at hq
      split at hq
      · cases hq
      · exact hT.dirs q cs hq

end TreeOK

/-- A path in a root that lies below `p`, where no root lies strictly inside `p`, puts `p` in a
root too. -/
theorem attached_of_startsWith (hroots : HoldsNoInnerRoot v.roots p) (hq : q.startsWith p)
    (hatt : (v.attachedRoot? q).isSome) : (v.attachedRoot? p).isSome := by
  obtain ⟨r, hr, hqr⟩ := attachedRoot?_isSome_iff.1 hatt
  refine attachedRoot?_isSome_iff.2 ⟨r, hr, ?_⟩
  rcases Path.startsWith_total hq hqr with hpr | hrp
  · exact hpr
  · rw [hroots r hr hrp]; exact Path.startsWith_refl p

namespace Mirrors

variable (hM : Mirrors D v)
include hM

/-- The mirror still holds exactly the listed files over a disk changed only on `S`, when the
nodes on `S` still fit and the listed files on `S` are there. -/
theorem of_disk (hD' : D'.WellFormed) (S : Path → Prop)
    (hsame : ∀ q, ¬ S q → D'.find? q = D.find? q)
    (hfiles : ∀ f d, S f → v.node? f = some (.file d) → Listed D' v f)
    (hdirs : ∀ q cs, S q → v.node? q = some (.dir cs) →
      D'.isDir q = true ∨ v.ignore.isIgnored q = true ∨ v.attachedRoot? q = none)
    (hroots : ∀ r ∈ v.roots, ∀ a, a.IsNormal → r.startsWith a → a ≠ r → S a →
      D'.find? a = some .dir)
    (hcomplete : ∀ f, S f → Listed D' v f → ∃ d, v.node? f = some (.file d)) : Mirrors D' v where
  toTreeOK := hM.toTreeOK.of_disk hD' S hsame hfiles hdirs hroots
  complete f hf := by
    by_cases hS : S f
    · exact hcomplete f hS hf
    · exact hM.complete f ((listed_congr_disk hM.disk hD' (hsame f hS)).1 hf)

end Mirrors

end Invariant

/-! ## One disk change -/

section Changes

variable {D : Disk} {v : Vfs} {p d root rel : Path} {kind : ChangeKind}

/-- A file written where its directory exists and no directory stands, and reported as added or
changed, keeps the mirror exact. -/
theorem Mirrors.write (hM : Mirrors D v) (hp : p.IsNormal) (hp0 : p ≠ Disk.rootPath)
    (hpar : ∀ q, p.parent? = some q → D.find? q = some .dir) (hnd : D.find? p ≠ some .dir)
    (hk : kind ≠ .delete) (hev : (root.join rel).normalize = p) (bytes : List UInt8) (mtime : Nat) :
    Mirrors (D.put p (.file bytes mtime))
      (v.processChange (D.put p (.file bytes mtime)) kind root rel).2 := by
  have hD' : (D.put p (.file bytes mtime)).WellFormed :=
    hM.disk.put hp hp0 hpar (fun h => absurd h hnd)
  have hfind : ∀ q, (D.put p (.file bytes mtime)).find? q =
      if q = p then some (.file bytes mtime) else D.find? q := fun q => Disk.find?_put hp0
  have hsame : ∀ q, ¬ q = p → (D.put p (.file bytes mtime)).find? q = D.find? q :=
    fun q hq => by rw [hfind, if_neg hq]
  have hfile : (D.put p (.file bytes mtime)).isFile p = true :=
    (hD'.isFile_iff hp).2 ⟨bytes, mtime, by simp [hfind]⟩
  have hdir' : (D.put p (.file bytes mtime)).isDir p = false :=
    Bool.eq_false_iff.2 fun h => by rw [hD'.isDir_iff hp, hfind, if_pos rfl] at h; cases h
  have hdir : D.isDir p = false := Bool.eq_false_iff.2 fun h => hnd ((hM.disk.isDir_iff hp).1 h)
  have hinner := hM.holdsNoInnerRoot hp hnd
  -- no root lies strictly inside `p`, so nothing above a root changes
  have hroots : ∀ (w : Vfs), w.roots = v.roots → ∀ r ∈ w.roots, ∀ a, a.IsNormal → r.startsWith a →
      a ≠ r → a = p → (D.put p (.file bytes mtime)).find? a = some .dir := by
    rintro w hw r hr a - hra har rfl
    exact absurd (hinner r (hw ▸ hr) hra).symm har
  by_cases hacc : v.Accepts (D.put p (.file bytes mtime)) p
  · obtain ⟨-, hign, hatt, hknown⟩ := hacc
    have hnodir := hM.no_dir_node hign hatt hdir
    have htracked : v.hasTrackedExtension p = true :=
      hknown.resolve_left fun ⟨cs, h⟩ => hnodir cs h
    rw [processChange_of_accepts hev ⟨hdir', hign, hatt, hknown⟩, if_neg hk, if_pos hfile]
    -- recording `p` into a tree in shape over the new disk, with no directory node at `p` and
    -- every other listed file there, makes the mirror exact
    have hrecord : ∀ v₁ : Vfs, TreeOK (D.put p (.file bytes mtime)) v₁ →
        (∀ cs, v₁.node? p ≠ some (.dir cs)) → v₁.roots = v.roots → v₁.ignore = v.ignore →
        v₁.extensions = v.extensions →
        (∀ f, f ≠ p → Listed D v f → ∃ d, v₁.node? f = some (.file d)) →
        Mirrors (D.put p (.file bytes mtime)) (v₁.insertFile p) := by
      intro v₁ hT₁ hnd₁ hr hi he hkeep
      obtain ⟨hT, hiff⟩ := hT₁.insertFile ((listed_congr hr hi he).2 ⟨hp, hatt, hfile, htracked, hign⟩) hnd₁
      obtain ⟨hr', hi', he'⟩ := insertFile_config v₁ p
      refine ⟨hT, fun f hf => ?_⟩
      have hfv : Listed (D.put p (.file bytes mtime)) v f :=
        (listed_congr (hr'.trans hr) (hi'.trans hi) (he'.trans he)).1 hf
      by_cases hfp : f = p
      · exact (hiff f).2 (.inl hfp)
      · exact (hiff f).2 (.inr (hkeep f hfp ((listed_congr_disk hM.disk hD' (hsame f hfp)).1 hfv)))
    split
    · -- an addition records over the tree as it is
      refine hrecord v (hM.toTreeOK.of_disk hD' (· = p) hsame ?_ ?_ (hroots v rfl)) hnodir rfl rfl
        rfl fun f _ hf => hM.complete f hf
      · rintro f d rfl hd
        obtain ⟨-, -, -, ht, -⟩ := hM.files f d hd
        exact ⟨hp, hatt, hfile, ht, hign⟩
      · rintro q cs rfl hq
        exact absurd hq (hnodir cs)
    · -- a change removes `p` first, and there was nothing below it
      have hgone : (v.removeNode p).node? p = none :=
        node?_removeNode_below hp hM.normal hM.plain (hM.linked.linkedBelow hinner)
          (Path.startsWith_refl p)
      obtain ⟨hr, hi, he⟩ := removeNode_config v p
      refine hrecord _ ((hM.toTreeOK.removeNode hp hinner).of_disk hD' (· = p) hsame ?_ ?_
        (hroots _ hr)) (fun cs h => by simp [hgone] at h) hr hi he ?_
      · rintro f d rfl hd; simp [hgone] at hd
      · rintro q cs rfl hq; simp [hgone] at hq
      · intro f hfp hf
        obtain ⟨d, hd⟩ := hM.complete f hf
        refine ⟨d, hM.node?_removeNode_file hp (fun hfs => ?_) hd⟩
        obtain ⟨b, m, hb⟩ := hM.find?_of_listed hf
        rw [hM.disk.find?_below hnd hp.components_ne_nil hfs hfp] at hb
        cases hb
  · rw [processChange_of_not_accepts hev hacc]
    refine hM.of_disk hD' (· = p) hsame ?_ ?_ (hroots v rfl) ?_
    · rintro f d rfl hd
      obtain ⟨-, hatt, -, ht, hign⟩ := hM.files f d hd
      exact ⟨hp, hatt, hfile, ht, hign⟩
    · rintro q cs rfl hq
      exact .inr ((hM.dirs q cs hq).resolve_left (by simp [hdir]))
    · rintro f rfl ⟨-, hatt, -, ht, hign⟩
      exact absurd ⟨hdir', hign, hatt, .inr ht⟩ hacc

/-- A new directory, which no event reports, keeps the mirror exact. -/
theorem Mirrors.mkdir (hM : Mirrors D v) (hd : d.IsNormal) (hd0 : d ≠ Disk.rootPath)
    (hpar : ∀ q, d.parent? = some q → D.find? q = some .dir) (hnone : D.find? d = none) :
    Mirrors (D.put d .dir) v := by
  have hD' : (D.put d .dir).WellFormed := hM.disk.put hd hd0 hpar fun _ => rfl
  have hfind : (D.put d .dir).find? d = some .dir := by simp [Disk.find?_put hd0]
  refine hM.of_disk hD' (· = d) (fun q hq => by rw [Disk.find?_put hd0, if_neg hq]) ?_ ?_ ?_ ?_
  · rintro f x rfl hf
    obtain ⟨b, m, hb⟩ := hM.find?_of_listed (hM.files f x hf)
    simp [hnone] at hb
  · rintro q cs rfl -
    exact .inl ((hD'.isDir_iff hd).2 hfind)
  · rintro r - a - - - rfl
    exact hfind
  · rintro f rfl hf
    obtain ⟨b, m, hb⟩ := (hD'.isFile_iff hd).1 hf.2.2.1
    simp [hfind] at hb

/-- Removing an entry with no root strictly inside it, file or directory, and reporting one
deletion for it keeps the mirror exact. -/
theorem Mirrors.remove (hM : Mirrors D v) {e : DiskEntry} (he : D.find? p = some e)
    (hp0 : p ≠ Disk.rootPath) (hinner : HoldsNoInnerRoot v.roots p)
    (hev : (root.join rel).normalize = p) :
    Mirrors (D.removeAll p) (v.processChange (D.removeAll p) .delete root rel).2 := by
  have hp := hM.disk.isNormal_of_find? he
  have hD' : (D.removeAll p).WellFormed := hM.disk.removeAll hp
  have hbelow_ne : ∀ q, q.startsWith p → q ≠ Disk.rootPath := by
    rintro q hq rfl
    rcases List.prefix_cons_iff.1 (Path.startsWith_iff.1 hq) with h0 | ⟨t, ht, htl⟩
    · exact hp.components_ne_nil h0
    · exact hp0 (by obtain ⟨pc⟩ := p; simp only at ht; simp [Disk.rootPath, ht, List.prefix_nil.1 htl])
  have hgone : ∀ q, q.startsWith p → (D.removeAll p).find? q = none := fun q hq => by
    rw [Disk.find?_removeAll hp, if_pos ⟨hbelow_ne q hq, hq⟩]
  have hsame : ∀ q, ¬ q.startsWith p → (D.removeAll p).find? q = D.find? q := fun q hq => by
    rw [Disk.find?_removeAll hp, if_neg (fun h => hq h.2)]
  have hnofile : ∀ f, f.startsWith p → ¬ Listed (D.removeAll p) v f := fun f hf hL => by
    obtain ⟨b, m, hb⟩ := (hD'.isFile_iff hL.1).1 hL.2.2.1
    simp [hgone f hf] at hb
  -- nothing above a root is removed
  have hroots : ∀ (w : Vfs), w.roots = v.roots → ∀ r ∈ w.roots, ∀ a, a.IsNormal → r.startsWith a →
      a ≠ r → a.startsWith p → (D.removeAll p).find? a = some .dir := by
    intro w hw r hr a _ hra har hap
    have hrp := hinner r (hw ▸ hr) (Path.startsWith_trans hra hap)
    exact absurd ((Path.startsWith_antisymm hap (hrp ▸ hra)).trans hrp.symm) har
  have hdir' : (D.removeAll p).isDir p = false :=
    Bool.eq_false_iff.2 fun h => by
      rw [hD'.isDir_iff hp, hgone p (Path.startsWith_refl p)] at h; cases h
  by_cases hacc : v.Accepts (D.removeAll p) p
  · rw [processChange_of_accepts hev hacc, if_pos rfl, if_neg (by decide)]
    have hnode : ∀ q, q.startsWith p → (v.removeNode p).node? q = none := fun q =>
      node?_removeNode_below hp hM.normal hM.plain (hM.linked.linkedBelow hinner)
    obtain ⟨hr, hi, he'⟩ := removeNode_config v p
    refine ⟨(hM.toTreeOK.removeNode hp hinner).of_disk hD' (·.startsWith p) hsame ?_ ?_
      (hroots _ hr), fun f hf => ?_⟩
    · intro f d hf hd; simp [hnode f hf] at hd
    · intro q cs hq hd; simp [hnode q hq] at hd
    · have hfp : ¬ f.startsWith p := fun h => hnofile f h ((listed_congr hr hi he').1 hf)
      obtain ⟨d, hd⟩ := hM.complete f ((listed_congr_disk hM.disk hD' (hsame f hfp)).1
        ((listed_congr hr hi he').1 hf))
      exact ⟨d, hM.node?_removeNode_file hp hfp hd⟩
  · rw [processChange_of_not_accepts hev hacc]
    -- the event was dropped: `p` is ignored, outside the roots, or neither a known directory
    -- nor tracked, and in each case nothing below `p` is a file node or needs a directory
    have hwhy : v.ignore.isIgnored p = true ∨ (v.attachedRoot? p).isSome = false ∨
        ((∀ cs, v.node? p ≠ some (.dir cs)) ∧ v.hasTrackedExtension p = false) := by
      by_cases hi : v.ignore.isIgnored p = true
      · exact .inl hi
      by_cases ha : (v.attachedRoot? p).isSome = true
      · refine .inr (.inr ⟨fun cs h => hacc ⟨hdir', by simpa using hi, ha, .inl ⟨cs, h⟩⟩, ?_⟩)
        exact Bool.eq_false_iff.2 fun ht => hacc ⟨hdir', by simpa using hi, ha, .inr ht⟩
      · exact .inr (.inl (by simpa using ha))
    have hout : ∀ q, q.startsWith p → (v.attachedRoot? q).isSome = true →
        v.ignore.isIgnored q = false → v.node? q ≠ none →
        (∀ cs, v.node? p ≠ some (.dir cs)) ∧ v.hasTrackedExtension p = false := by
      intro q hq ha hi hn
      rcases hwhy with h | h | h
      · simp [hM.closed p q hq h] at hi
      · simp [attached_of_startsWith hinner hq ha] at h
      · exact h
    refine hM.of_disk hD' (·.startsWith p) hsame ?_ ?_ (hroots v rfl) ?_
    · intro f d hf hd
      obtain ⟨hfn, ha, -, ht, hi⟩ := hM.files f d hd
      obtain ⟨hnd, hnt⟩ := hout f hf ha hi (by simp [hd])
      by_cases hfp : f = p
      · subst hfp; simp [ht] at hnt
      · simp [hM.node?_below hp hinner hnd hf hfp] at hd
    · intro q cs hq hd
      by_cases ha : (v.attachedRoot? q).isSome = true
      · by_cases hi : v.ignore.isIgnored q = true
        · exact .inr (.inl hi)
        obtain ⟨hnd, -⟩ := hout q hq ha (by simpa using hi) (by simp [hd])
        by_cases hqp : q = p
        · subst hqp; exact absurd hd (hnd cs)
        · simp [hM.node?_below hp hinner hnd hq hqp] at hd
      · exact .inr (.inr (by simpa using ha))
    · intro f hf hL
      exact absurd hL (hnofile f hf)

end Changes

/-! ## Runs -/

/-- One change to the disk, reported to the mirror the way a watcher reports it. A file written
where its directory exists (and no directory stands) is reported as added or changed; a new
directory is not reported; a removed file, or a removed directory with everything below it, is
reported by one deletion. The event names its path as a root and a path relative to it.
Directories may be removed only where `removable` holds. -/
inductive MirrorStep (removable : Path → Prop) : Disk × Vfs → Disk × Vfs → Prop
  | write {D : Disk} {v : Vfs} {p root rel : Path} {kind : ChangeKind} (bytes : List UInt8)
      (mtime : Nat) (hp : p.IsNormal) (hp0 : p ≠ Disk.rootPath)
      (hpar : ∀ q, p.parent? = some q → D.find? q = some .dir) (hnd : D.find? p ≠ some .dir)
      (hk : kind ≠ .delete) (hev : (root.join rel).normalize = p) :
      MirrorStep removable (D, v)
        (D.put p (.file bytes mtime), (v.processChange (D.put p (.file bytes mtime)) kind root rel).2)
  | mkdir {D : Disk} {v : Vfs} {d : Path} (hd : d.IsNormal) (hd0 : d ≠ Disk.rootPath)
      (hpar : ∀ q, d.parent? = some q → D.find? q = some .dir) (hnone : D.find? d = none) :
      MirrorStep removable (D, v) (D.put d .dir, v)
  | removeFile {D : Disk} {v : Vfs} {p root rel : Path} {bytes : List UInt8} {mtime : Nat}
      (he : D.find? p = some (.file bytes mtime)) (hev : (root.join rel).normalize = p) :
      MirrorStep removable (D, v) (D.removeAll p, (v.processChange (D.removeAll p) .delete root rel).2)
  | removeDir {D : Disk} {v : Vfs} {d root rel : Path} (he : D.find? d = some .dir)
      (hd0 : d ≠ Disk.rootPath) (hrem : removable d) (hev : (root.join rel).normalize = d) :
      MirrorStep removable (D, v) (D.removeAll d, (v.processChange (D.removeAll d) .delete root rel).2)

section Runs

variable {removable : Path → Prop}

/-- One step keeps the mirror exact, and its roots, ignore rules and extensions, as long as no
removable directory holds a root strictly inside. -/
theorem Mirrors.step {D D' : Disk} {v v' : Vfs} (hM : Mirrors D v)
    (hrem : ∀ d, removable d → HoldsNoInnerRoot v.roots d)
    (h : MirrorStep removable (D, v) (D', v')) :
    Mirrors D' v' ∧ v'.roots = v.roots ∧ v'.ignore = v.ignore ∧ v'.extensions = v.extensions := by
  cases h with
  | write bytes mtime hp hp0 hpar hnd hk hev =>
    exact ⟨hM.write hp hp0 hpar hnd hk hev bytes mtime, processChange_config _ _ _ _ _⟩
  | mkdir hd hd0 hpar hnone => exact ⟨hM.mkdir hd hd0 hpar hnone, rfl, rfl, rfl⟩
  | @removeFile _ _ p _ _ _ _ he hev =>
    have hp := hM.disk.isNormal_of_find? he
    have hp0 : p ≠ Disk.rootPath := by rintro rfl; simp at he
    exact ⟨hM.remove he hp0 (hM.holdsNoInnerRoot hp (by simp [he])) hev,
      processChange_config _ _ _ _ _⟩
  | removeDir he hd0 hr hev =>
    exact ⟨hM.remove he hd0 (hrem _ hr) hev, processChange_config _ _ _ _ _⟩

/-- A whole run keeps the mirror exact, and its roots, ignore rules and extensions. -/
theorem Mirrors.run {s t : Disk × Vfs} (hM : Mirrors s.1 s.2)
    (hrem : ∀ d, removable d → HoldsNoInnerRoot s.2.roots d)
    (h : Relation.ReflTransGen (MirrorStep removable) s t) :
    Mirrors t.1 t.2 ∧ t.2.roots = s.2.roots ∧ t.2.ignore = s.2.ignore ∧
      t.2.extensions = s.2.extensions := by
  induction h with
  | refl => exact ⟨hM, rfl, rfl, rfl⟩
  | tail _ hstep ih =>
    obtain ⟨hMb, hr, hi, he⟩ := ih
    rename_i b c _
    obtain ⟨D₁, v₁⟩ := b
    obtain ⟨D₂, v₂⟩ := c
    obtain ⟨hMc, hr', hi', he'⟩ := hMb.step (fun d hd => hr ▸ hrem d hd) hstep
    exact ⟨hMc, hr'.trans hr, hi'.trans hi, he'.trans he⟩

end Runs

/-! ## The mirror a build makes -/

section Build

variable {D D₀ : Disk} {roots fs₀ rs : List Path} {I : IgnoreRules} {exts : List String}
  {v v₀ : Vfs} {f : Path}

/-- A build's first pass: a root becomes an empty directory node unless one is there. -/
def addRoot (v : Vfs) (r : Path) : Vfs := if (v.node? r).isSome then v else v.setNode r (.dir [])

/-- A build's second pass: a crawled file in a root is recorded. -/
def addCrawled (v : Vfs) (f : Path) : Vfs :=
  if (v.attachedRoot? f.normalize).isNone then v else v.insertFile f.normalize

/-- A successful build makes each root an empty directory node, then records every crawled file
that lies in a root. -/
theorem build_eq_ok (h : build D₀ roots fs₀ I exts = .ok v₀) :
    v₀ = fs₀.foldl addCrawled
      ((roots.map Path.normalize).foldl addRoot ⟨roots.map Path.normalize, [], [], I, exts⟩) := by
  unfold build at h
  simp only [bind, Except.bind] at h
  split at h
  · cases h
  · simp only [pure, Except.pure, Except.ok.injEq] at h
    exact h.symm

/-- Listed files, spelled as a crawl finds them. -/
theorem listed_iff_crawl (hr : v.roots = roots.map Path.normalize) (hi : v.ignore = I)
    (he : v.extensions = exts) :
    Listed D v f ↔ f.IsNormal ∧ (∃ r ∈ roots, f.startsWith r.normalize) ∧ D.isFile f = true ∧
      Tracked exts f = true ∧ I.isIgnored f = false := by
  have hatt : (∃ r ∈ roots.map Path.normalize, f.startsWith r) ↔
      ∃ r ∈ roots, f.startsWith r.normalize := by
    constructor
    · rintro ⟨_, hr, h⟩
      obtain ⟨a, ha, rfl⟩ := List.mem_map.1 hr
      exact ⟨a, ha, h⟩
    · rintro ⟨a, ha, h⟩
      exact ⟨_, List.mem_map_of_mem ha, h⟩
  unfold Listed
  rw [attachedRoot?_isSome_iff, hr, hatt, hasTrackedExtension_eq_tracked, he, hi]

/-- The roots as empty directory nodes make a tree in shape over a disk where every root is a
directory, with no file node yet. -/
theorem treeOK_roots (exts : List String) (hD : D.WellFormed) (hroots : ∀ r ∈ rs, r.IsNormal)
    (hdirs : ∀ r ∈ rs, D.isDir r = true) (hI : I.ClosedBelow) :
    TreeOK D (rs.foldl addRoot ⟨rs, [], [], I, exts⟩) ∧
      (rs.foldl addRoot ⟨rs, [], [], I, exts⟩).roots = rs ∧
      (rs.foldl addRoot ⟨rs, [], [], I, exts⟩).ignore = I ∧
      (rs.foldl addRoot ⟨rs, [], [], I, exts⟩).extensions = exts ∧
      ∀ q d, (rs.foldl addRoot ⟨rs, [], [], I, exts⟩).node? q ≠ some (.file d) := by
  -- every node made is an empty directory at a root
  obtain ⟨hr, hi, he, hnd, hnodes⟩ := List.foldlRecOn
    (motive := fun w : Vfs => w.roots = rs ∧ w.ignore = I ∧ w.extensions = exts ∧
      (w.nodes.map Prod.fst).Nodup ∧ ∀ q x, w.node? q = some x → x = .dir [] ∧ q ∈ rs) rs addRoot
    (b := (⟨rs, [], [], I, exts⟩ : Vfs))
    ⟨rfl, rfl, rfl, List.nodup_nil, fun q x h => by simp [node?] at h⟩
    (fun w ⟨hr, hi, he, hnd, hn⟩ r hr' => by
      unfold addRoot
      split
      · exact ⟨hr, hi, he, hnd, hn⟩
      · refine ⟨by simp [hr], by simp [hi], by simp [he], setNode_nodup w r _ hnd, fun q x hq => ?_⟩
        rw [node?_setNode] at hq
        split at hq
        · rename_i hqr; cases hq; exact ⟨rfl, hqr ▸ hr'⟩
        · exact hn q x hq)
  refine ⟨⟨hD, hnd, fun q x hq => hroots q (hnodes q x hq).2, ?_, ?_, ?_, ?_,
    fun r h => hroots r (hr ▸ h), ?_, by rw [hi]; exact hI⟩, hr, hi, he,
    fun q d hq => by cases (hnodes q _ hq).1⟩
  · intro q cs hq m hm
    obtain ⟨h, -⟩ := hnodes q _ hq
    cases h
    simp at hm
  · intro r n x hx hroot
    rw [hr] at hroot
    exact absurd (hnodes _ x hx).2 hroot
  · intro q d hq
    cases (hnodes q _ hq).1
  · intro q cs hq
    exact .inl (hdirs q (hnodes q _ hq).2)
  · intro r hr' a ha hra har
    have hrd := (hD.isDir_iff (hroots r (hr ▸ hr'))).1 (hdirs r (hr ▸ hr'))
    exact hD.find?_of_startsWith hrd hra har ha.components_ne_nil

/-- Recording listed files one after another keeps the tree in shape and adds exactly them to
the file nodes. -/
theorem treeOK_insertAll : ∀ (l : List Path) (w : Vfs), TreeOK D w → (∀ f ∈ l, Listed D w f) →
    TreeOK D (l.foldl addCrawled w) ∧ (l.foldl addCrawled w).roots = w.roots ∧
      (l.foldl addCrawled w).ignore = w.ignore ∧ (l.foldl addCrawled w).extensions = w.extensions ∧
      ∀ q, (∃ d, (l.foldl addCrawled w).node? q = some (.file d)) ↔
        q ∈ l ∨ ∃ d, w.node? q = some (.file d)
  | [], w, hT, _ => ⟨hT, rfl, rfl, rfl, fun q => by simp⟩
  | f :: l, w, hT, hl => by
    have hf := hl f List.mem_cons_self
    obtain ⟨b, m, hb⟩ := hT.find?_of_listed hf
    have hdir : D.isDir f = false :=
      Bool.eq_false_iff.2 fun h => by rw [(hT.disk.isDir_iff hf.1).1 h] at hb; cases hb
    have hstep : addCrawled w f = w.insertFile f := by
      rw [addCrawled, hf.1.normalize_eq, if_neg (by simpa [Option.isNone_iff_eq_none,
        Option.isSome_iff_ne_none] using hf.2.1)]
    obtain ⟨hT', hiff⟩ := hT.insertFile hf (hT.no_dir_node hf.2.2.2.2 hf.2.1 hdir)
    obtain ⟨hr, hi, he⟩ := insertFile_config w f
    simp only [List.foldl_cons, hstep]
    obtain ⟨hT'', hr', hi', he', hiff'⟩ := treeOK_insertAll l _ hT'
      fun g hg => (listed_congr hr hi he).2 (hl g (List.mem_cons_of_mem f hg))
    refine ⟨hT'', hr'.trans hr, hi'.trans hi, he'.trans he, fun q => ?_⟩
    rw [hiff', hiff, List.mem_cons]
    constructor
    · rintro (h | h | h)
      · exact .inl (.inr h)
      · exact .inl (.inl h)
      · exact .inr h
    · rintro ((h | h) | h)
      · exact .inr (.inl h)
      · exact .inl h
      · exact .inr (.inr h)

/-- A build over a successful crawl makes an exact mirror, with the roots normalized. -/
theorem mirrors_build (hD₀ : D₀.WellFormed) (hroots : ∀ r ∈ roots, r.normalize.IsNormal)
    (hI : I.ClosedBelow) (hcrawl : crawl D₀ roots exts I = .ok fs₀)
    (hbuild : build D₀ roots fs₀ I exts = .ok v₀) :
    Mirrors D₀ v₀ ∧ v₀.roots = roots.map Path.normalize ∧ v₀.ignore = I ∧ v₀.extensions = exts := by
  rw [build_eq_ok hbuild]
  have hroots' : ∀ r ∈ roots.map Path.normalize, r.IsNormal := by simpa using hroots
  have hdirs : ∀ r ∈ roots.map Path.normalize, D₀.isDir r = true := by
    simpa using crawl_isDir hcrawl
  obtain ⟨hTu, hr, hi, he, -⟩ := treeOK_roots exts hD₀ hroots' hdirs hI
  have hlisted := fun f => (mem_crawl_iff hD₀ hroots hI hcrawl f).trans
    (listed_iff_crawl (D := D₀) hr hi he).symm
  obtain ⟨hT, hr', hi', he', hiff⟩ := treeOK_insertAll fs₀ _ hTu fun f hf => (hlisted f).1 hf
  refine ⟨⟨hT, fun f hf => (hiff f).2 (.inl ((hlisted f).2 ((listed_congr hr' hi' he').1 hf)))⟩,
    hr'.trans hr, hi'.trans hi, he'.trans he⟩

end Build

/-! ## The mirror against a fresh crawl -/

/-- A path that is no directory on the disk has no files under it in the mirror: a directory
node there is ignored, and so is everything below it, or it lies outside the roots with no
root inside it. -/
theorem TreeOK.filesUnder_eq_nil {D : Disk} {v : Vfs} {d : Path} (hT : TreeOK D v)
    (hd : D.isDir d.normalize = false) : v.filesUnder d = [] := by
  unfold filesUnder
  dsimp only
  split
  · rename_i cs hcs
    rw [List.filter_eq_nil_iff]
    intro f hf hsel
    simp only [Bool.and_eq_true, bne_iff_ne, ne_eq] at hsel
    obtain ⟨hne, hfd⟩ := hsel
    obtain ⟨x, hx⟩ := (mem_allFiles_iff hT.nodup).1 hf
    obtain ⟨-, hatt, -, -, hign⟩ := hT.files f x hx
    obtain ⟨r, hr, hfr⟩ := attachedRoot?_isSome_iff.1 hatt
    rcases hT.dirs _ cs hcs with h | h | h
    · simp [hd] at h
    · simp [hT.closed _ f hfd h] at hign
    · -- outside the roots: the root of `f` lies strictly inside, so this is a directory
      have hout : ¬ ∃ r ∈ v.roots, d.normalize.startsWith r := by
        rw [← attachedRoot?_isSome_iff, h]; simp
      rcases Path.startsWith_total hfd hfr with hdr | hrd
      · exact hout ⟨r, hr, hdr⟩
      · have hrd' : d.normalize ≠ r := fun h' => hout ⟨r, hr, h' ▸ Path.startsWith_refl _⟩
        have hdn := hT.normal _ _ hcs
        have := hT.rootsAbove r hr _ hdn hrd hrd'
        simp [(hT.disk.isDir_iff hdn).2 this] at hd
  · rfl

/-- **The mirror agrees with a fresh crawl.** Start from a build over a successful crawl of a
well-formed disk, with roots naming normal absolute paths and ignoring closed below, and follow
any run of reported disk changes in which no removed directory holds a root strictly inside it.
Whenever a fresh crawl of the disk succeeds, the mirror knows exactly the files it finds; and a
path that is no directory on the disk has no files under it in the mirror. -/
theorem allFiles_iff_mem_crawl {D₀ D : Disk} {roots fs₀ : List Path} {exts : List String}
    {I : IgnoreRules} {v₀ v : Vfs} (hD₀ : D₀.WellFormed)
    (hroots : ∀ r ∈ roots, r.normalize.IsNormal) (hI : I.ClosedBelow)
    (hcrawl : crawl D₀ roots exts I = .ok fs₀) (hbuild : build D₀ roots fs₀ I exts = .ok v₀)
    (hrun : Relation.ReflTransGen (MirrorStep (HoldsNoInnerRoot (roots.map Path.normalize)))
      (D₀, v₀) (D, v)) :
    (∀ fs, crawl D roots exts I = .ok fs → ∀ f, f ∈ v.allFiles ↔ f ∈ fs) ∧
      ∀ d, D.isDir d.normalize = false → v.filesUnder d = [] := by
  obtain ⟨hM₀, hr₀, hi₀, he₀⟩ := mirrors_build hD₀ hroots hI hcrawl hbuild
  obtain ⟨hM, hr, hi, he⟩ := hM₀.run (fun d hd => hr₀ ▸ hd) hrun
  refine ⟨fun fs hfs f => ?_, fun d hd => hM.filesUnder_eq_nil hd⟩
  rw [mem_allFiles_iff hM.nodup, mem_crawl_iff hM.disk hroots hI hfs f,
    ← listed_iff_crawl (hr.trans hr₀) (hi.trans hi₀) (he.trans he₀)]
  exact ⟨fun ⟨d, hd⟩ => hM.files f d hd, hM.complete f⟩

/-- A mirror built over `/w` follows the writing of `/w/b.js`. -/
theorem allFiles_iff_mem_crawl_after_write :
    let w : Path := ⟨[.root, .name "w"]⟩
    let D₀ : Disk := ⟨[(w, .dir), (w.child "a.js", .file [] 0)], 0, Disk.rootPath⟩
    let v₀ : Vfs := ⟨[w], [], [(w, .dir ["a.js"]), (w.child "a.js", .file ⟨none, none⟩)],
      IgnoreRules.none, ["js"]⟩
    let D := D₀.put (w.child "b.js") (.file [] 1)
    let v := (v₀.processChange D .add w ⟨[.name "b.js"]⟩).2
    (∀ fs, crawl D [w] ["js"] IgnoreRules.none = .ok fs → ∀ f, f ∈ v.allFiles ↔ f ∈ fs) ∧
      ∀ d, D.isDir d.normalize = false → v.filesUnder d = [] := by
  intro w D₀ v₀ D v
  have hD₀ : D₀.WellFormed := by
    refine ⟨by decide, by decide, fun e he q hq => ?_⟩
    simp only [D₀, List.mem_cons, List.not_mem_nil, or_false] at he
    rcases he with rfl | rfl
    · cbv at hq
      cases hq
      exact Disk.find?_rootPath D₀
    · cbv at hq
      cases hq
      cbv
  have hI : IgnoreRules.none.ClosedBelow := fun _ _ _ h => by cbv at h; cases h
  have hcrawl : crawl D₀ [w] ["js"] IgnoreRules.none = .ok [w.child "a.js"] := by cbv
  have hbuild : build D₀ [w] [w.child "a.js"] IgnoreRules.none ["js"] = .ok v₀ := by cbv
  have hstep : MirrorStep (HoldsNoInnerRoot ([w].map Path.normalize)) (D₀, v₀) (D, v) := by
    refine .write [] 1 (by decide) (by decide) (fun q hq => ?_) (by cbv; intro h; cases h) (by decide) (by cbv)
    cbv at hq
    cases hq
    cbv
  exact allFiles_iff_mem_crawl hD₀ (by decide) hI hcrawl hbuild (.single hstep)

/-- Without its conditions the theorem fails: with a second root nested in the first, deleting
the directory between them leaves the inner root's files in the mirror, and once the
directories are made again a fresh crawl no longer finds them. -/
theorem mirror_keeps_files_of_removed_inner_root :
    ¬ ∀ (D₀ D : Disk) (roots fs₀ : List Path) (exts : List String) (I : IgnoreRules) (v₀ v : Vfs),
      D₀.WellFormed → crawl D₀ roots exts I = .ok fs₀ → build D₀ roots fs₀ I exts = .ok v₀ →
      Relation.ReflTransGen (MirrorStep fun _ => True) (D₀, v₀) (D, v) →
      (∀ fs, crawl D roots exts I = .ok fs → ∀ f, f ∈ v.allFiles ↔ f ∈ fs) ∧
        ∀ d, D.isDir d.normalize = false → v.filesUnder d = [] := by
  intro h
  -- roots /w and /w/a/b; the directory /w/a between them is deleted, then made again
  let w : Path := ⟨[.root, .name "w"]⟩
  let a := w.child "a"
  let b := a.child "b"
  let D₀ : Disk :=
    ⟨[(w, .dir), (w.child "x.js", .file [] 0), (a, .dir), (b, .dir), (b.child "y.js", .file [] 0)],
      0, Disk.rootPath⟩
  let fs₀ := [b.child "y.js", w.child "x.js"]
  let D₁ := D₀.removeAll a
  have hD₀ : D₀.WellFormed := by
    refine ⟨by decide, by decide, fun e he q hq => ?_⟩
    simp only [D₀, List.mem_cons, List.not_mem_nil, or_false] at he
    rcases he with rfl | rfl | rfl | rfl | rfl <;> cbv at hq <;> cases hq
    · exact Disk.find?_rootPath D₀
    all_goals decide +kernel
  have hcrawl : crawl D₀ [w, b] ["js"] IgnoreRules.none = .ok fs₀ :=
    eq_ok_of_toOption (by decide +kernel)
  -- the mirror a build makes: both roots, then the crawled files
  let v₀ := fs₀.foldl addCrawled (([w, b].map Path.normalize).foldl addRoot
    ⟨[w, b].map Path.normalize, [], [], IgnoreRules.none, ["js"]⟩)
  have hbuild : build D₀ [w, b] fs₀ IgnoreRules.none ["js"] = .ok v₀ := by
    obtain ⟨v, hv⟩ := exists_ok_of_isOk (x := build D₀ [w, b] fs₀ IgnoreRules.none ["js"])
      (by decide +kernel)
    rw [hv, build_eq_ok hv]
  let v := (v₀.processChange D₁ .delete w ⟨[.name "a"]⟩).2
  have hremove : MirrorStep (fun _ => True) (D₀, v₀) (D₁, v) :=
    .removeDir (by decide +kernel) (by decide) trivial (by decide +kernel)
  have hmkdir_a : MirrorStep (fun _ => True) (D₁, v) (D₁.put a .dir, v) := by
    refine .mkdir (by decide) (by decide) (fun q hq => ?_) (by decide +kernel)
    cbv at hq
    cases hq
    decide +kernel
  have hmkdir_b :
      MirrorStep (fun _ => True) (D₁.put a .dir, v) ((D₁.put a .dir).put b .dir, v) := by
    refine .mkdir (by decide) (by decide) (fun q hq => ?_) (by decide +kernel)
    cbv at hq
    cases hq
    decide +kernel
  have hrun := ((Relation.ReflTransGen.single hremove).tail hmkdir_a).tail hmkdir_b
  have hcrawl' :
      crawl ((D₁.put a .dir).put b .dir) [w, b] ["js"] IgnoreRules.none = .ok [w.child "x.js"] :=
    eq_ok_of_toOption (by decide +kernel)
  have hall : v.allFiles = [b.child "y.js", w.child "x.js"] := by decide +kernel
  have hy : b.child "y.js" ∈ v.allFiles := by simp [hall]
  have := ((h _ _ _ _ _ _ _ _ hD₀ hcrawl hbuild hrun).1 _ hcrawl' _).1 hy
  exact absurd this (by decide)

end Vfs

end ModuleBundler
