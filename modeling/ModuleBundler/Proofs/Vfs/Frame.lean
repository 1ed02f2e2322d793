import ModuleBundler.Proofs.Vfs.Mirror

/-!
# What an event leaves of the mirror

An event at a path `p` changes the disk and the mirror at `p` and below it, and nowhere else:
every file node off the subtree of `p` stays as it was, with what it remembers
(`Mirrors.node?_write`, `Mirrors.node?_remove`). The reads a detection makes depend on the
mirror only there: a read of a file on its node and on the disk entry at its path
(`readFile_congr`), and the search for the nearest package file on which files exist above it
(`closest_congr`), which, with no detached roots, is whether a crawl lists them
(`Mirrors.fileExists_iff`). An event gets through to the tree exactly when `Accepts` holds, and
then reports its own kind and path (`processChange_fst_of_accepts`).
-/

namespace ModuleBundler

namespace Vfs

variable {v w : Vfs} {D D' : Disk} {p q f g : Path} {root rel : Path} {kind : ChangeKind}

/-! ## Detached roots -/

@[simp] theorem setNode_detached (v : Vfs) (p : Path) (n : VfsNode) :
    (v.setNode p n).detached = v.detached := by
  unfold setNode; split <;> rfl

theorem removeNode_detached (v : Vfs) (p : Path) : (v.removeNode p).detached = v.detached := by
  have hgo : ∀ fuel p (v : Vfs), (removeNode.go fuel p v).detached = v.detached := by
    intro fuel
    induction fuel with
    | zero => intro p v; rw [removeNode.go]
    | succ fuel ih =>
      intro p v
      have hfold : ∀ (names : List String) (w : Vfs),
          (names.foldl (fun w name => removeNode.go fuel (p.push name) w) w).detached =
            w.detached := by
        intro names
        induction names with
        | nil => intro w; rfl
        | cons name names ihn => intro w; exact (ihn _).trans (ih _ w)
      have hclear : ∀ old (w : Vfs), (clearChildren fuel p old w).detached = w.detached := by
        intro old w
        unfold clearChildren
        split
        · exact hfold _ w
        · rfl
      have hunlink : ∀ w : Vfs, (unlinkParent p w).detached = w.detached := by
        intro w
        unfold unlinkParent
        split
        · split <;> simp
        · rfl
      rw [removeNode.go_succ, hunlink, hclear]
      rfl
  exact hgo _ p v

theorem insertFile_detached (v : Vfs) (f : Path) : (v.insertFile f).detached = v.detached := by
  have hgo : ∀ fuel c (w : Vfs), (insertFile.go fuel c w).detached = w.detached := by
    intro fuel
    induction fuel with
    | zero => intro c w; simp [insertFile.go]
    | succ fuel ih =>
      intro c w
      simp only [insertFile.go]
      split
      · split
        · rfl
        · split <;> simp [ih]
        · split <;> simp [ih]
      · rfl
  simpa [insertFile] using hgo (f.components.length + 1) f (v.setNode f (.file ⟨none, none⟩))

theorem processChange_detached (v : Vfs) (D : Disk) (kind : ChangeKind) (root rel : Path) :
    (v.processChange D kind root rel).2.detached = v.detached := by
  unfold processChange
  dsimp only
  repeat' split
  all_goals simp [insertFile_detached, removeNode_detached]

/-! ## The change an event reports -/

theorem processChange_fst_of_accepts (hp : (root.join rel).normalize = p) (h : v.Accepts D p) :
    (v.processChange D kind root rel).1 = some ⟨kind, p⟩ := by
  obtain ⟨hdir, hign, hatt, hknown⟩ := h
  have hatt' : v.attachedRoot? p ≠ none := by simpa [Option.isSome_iff_ne_none] using hatt
  rcases hknown with ⟨cs, hcs⟩ | ht
  · simp [processChange, hp, hdir, hign, hatt', hcs]
  · simp [processChange, hp, hdir, hign, hatt', ht]

theorem processChange_fst_of_not_accepts (hp : (root.join rel).normalize = p)
    (h : ¬ v.Accepts D p) : (v.processChange D kind root rel).1 = none := by
  simp only [processChange, hp]
  by_cases h1 : D.isDir p = true
  · simp [h1]
  by_cases h2 : v.ignore.isIgnored p = true
  · simp [h1, h2]
  by_cases h3 : v.attachedRoot? p = none
  · simp [h1, h2, h3]
  have hrest : ¬ ((∃ cs, v.node? p = some (.dir cs)) ∨ v.hasTrackedExtension p = true) :=
    fun hk => h ⟨by simpa using h1, by simpa using h2,
      by simpa [Option.isSome_iff_ne_none] using h3, hk⟩
  have ht : v.hasTrackedExtension p = false := by simpa using fun h' => hrest (.inr h')
  cases hn : v.node? p with
  | none => simp [h1, h2, h3, ht]
  | some x =>
    cases x with
    | dir cs => exact absurd (.inl ⟨cs, hn⟩) hrest
    | file d => simp [h1, h2, h3, ht]

/-! ## File nodes an event keeps -/

/-- Recording a file keeps every other file node, when nothing stands in its way. -/
theorem node?_insertFile_file (hf : f.IsNormal) (hlink : w.Linked)
    (hdir : ∀ cs, w.node? f ≠ some (.dir cs)) (habove : w.NoFileAbove f) (hgf : g ≠ f)
    {d : FileNode} (hd : w.node? g = some (.file d)) : (w.insertFile f).node? g = some (.file d) := by
  obtain ⟨hC, -⟩ := insertFile_climbed hf hlink hdir habove
  -- a file node is no proper ancestor of `f`, so the climb leaves it
  have hga : ¬ (f.startsWith g ∧ g ≠ f) := fun h => habove g h.1 h.2 d hd
  rw [hC.frame g hga, node?_setNode, if_neg hgf, hd]

/-! ## Events at a path that holds no directory

An event at a path where the mirror holds no directory node touches no other file node, on any
disk: the removal takes that one node and its link, and the climb that records a file stops at a
file node (`processChange_node?_file`). -/

section NoDirectory

variable {d : FileNode}

/-- Unlinking a path from the directory above it keeps every file node. -/
theorem node?_unlinkParent_file (hd : w.node? q = some (.file d)) :
    (unlinkParent p w).node? q = some (.file d) := by
  by_cases hq : p.parent? = some q
  · -- the node above `p` is a file, which lists nothing to drop
    unfold unlinkParent
    rw [hq]
    cases p.fileName? with
    | none => exact hd
    | some name => simp only [hd]
  · rw [node?_unlinkParent_of_ne hq, hd]

/-- Removing a path that holds no directory node keeps every other file node. -/
theorem node?_removeNode_of_not_dir (hp : ∀ cs, v.node? p ≠ some (.dir cs)) (hq : q ≠ p)
    (hd : v.node? q = some (.file d)) : (v.removeNode p).node? q = some (.file d) := by
  -- the taken node lists no children, so only the link from its parent goes
  have hclear : clearChildren v.nodes.length p (v.node? p) (v.takeNode p).2 = (v.takeNode p).2 := by
    unfold clearChildren
    split
    · next cs hcs => exact absurd hcs (hp cs)
    · rfl
  rw [removeNode, removeNode.go_succ, hclear]
  exact node?_unlinkParent_file (by rw [node?_takeNode, if_neg hq, hd])

/-- The climb that records a file's directories never replaces a file node. -/
theorem insertFile.go_file : ∀ (fuel : Nat) (c : Path) (w : Vfs), w.node? q = some (.file d) →
    (insertFile.go fuel c w).node? q = some (.file d)
  | 0, _, _, hd => by rw [insertFile.go]; exact hd
  | fuel + 1, c, w, hd => by
    rw [insertFile.go]
    cases c.parent? with
    | none => exact hd
    | some parent =>
      cases c.fileName? with
      | none => exact hd
      | some name =>
        dsimp only
        by_cases hpq : q = parent
        · -- the climb stops at a file node
          subst hpq
          simp only [hd]
        · have hkeep : ∀ x, (w.setNode parent x).node? q = some (.file d) := fun x => by
            rw [node?_setNode, if_neg hpq, hd]
          split
          · exact hd
          all_goals
            split
            · exact hkeep _
            · exact insertFile.go_file fuel parent _ (hkeep _)

theorem node?_insertFile_of_ne (hq : q ≠ f) (hd : v.node? q = some (.file d)) :
    (v.insertFile f).node? q = some (.file d) :=
  insertFile.go_file _ _ _ (by rw [node?_setNode, if_neg hq, hd])

/-- An event at a path where the mirror holds no directory keeps every other file node as it
was, whatever the disk says. -/
theorem processChange_node?_file (hev : (root.join rel).normalize = p)
    (hp : ∀ cs, v.node? p ≠ some (.dir cs)) (hq : q ≠ p) (hd : v.node? q = some (.file d)) :
    (v.processChange D kind root rel).2.node? q = some (.file d) := by
  by_cases hacc : v.Accepts D p
  · rw [processChange_of_accepts hev hacc]
    have hw : (if kind = .add then v else v.removeNode p).node? q = some (.file d) := by
      split
      · exact hd
      · exact node?_removeNode_of_not_dir hp hq hd
    split
    · exact hw
    · split
      · exact node?_insertFile_of_ne hq hw
      · exact hw
  · rw [processChange_of_not_accepts hev hacc]
    exact hd

theorem NormalKeys.setNode (hv : v.NormalKeys) (hp : p.IsNormal) (x : VfsNode) :
    (v.setNode p x).NormalKeys := by
  intro q y hq
  rw [node?_setNode] at hq
  split at hq
  · next h => exact h ▸ hp
  · exact hv q y hq

theorem insertFile.go_normalKeys : ∀ (fuel : Nat) (c : Path) (w : Vfs), c.IsNormal →
    w.NormalKeys → (insertFile.go fuel c w).NormalKeys
  | 0, _, _, _, hw => by rw [insertFile.go]; exact hw
  | fuel + 1, c, w, hc, hw => by
    rw [insertFile.go]
    cases hpar : c.parent? with
    | none => exact hw
    | some parent =>
      have hpn : parent.IsNormal := (hc.parent? hpar).1
      cases c.fileName? with
      | none => exact hw
      | some name =>
        dsimp only
        split
        · exact hw
        all_goals
          split
          · exact hw.setNode hpn _
          · exact insertFile.go_normalKeys fuel parent _ hpn (hw.setNode hpn _)

/-- An event at a normal path keeps every node of the mirror at a normal path. -/
theorem processChange_normalKeys (hev : (root.join rel).normalize = p) (hp : p.IsNormal)
    (hv : v.NormalKeys) : (v.processChange D kind root rel).2.NormalKeys := by
  by_cases hacc : v.Accepts D p
  · rw [processChange_of_accepts hev hacc]
    have hw : (if kind = .add then v else v.removeNode p).NormalKeys := by
      split
      · exact hv
      · exact (removeNode_pruned v p).normalKeys hv
    split
    · exact hw
    · split
      · exact insertFile.go_normalKeys _ _ _ hp (hw.setNode hp _)
      · exact hw
  · rw [processChange_of_not_accepts hev hacc]
    exact hv

/-- A file the mirror lists has a node. -/
theorem exists_node?_of_mem_allFiles (h : q ∈ v.allFiles) : ∃ x, v.node? q = some x := by
  simp only [allFiles, sortPaths, Text.mem_sortBy, List.mem_filterMap] at h
  obtain ⟨⟨r, n⟩, hr, hn⟩ := h
  have hq : r = q := by cases n <;> simp_all
  subst hq
  cases hf : v.nodes.find? (·.1 = r) with
  | none =>
    rw [List.find?_eq_none] at hf
    exact absurd (hf _ hr) (by simp)
  | some rx => exact ⟨rx.2, by simp [node?, hf]⟩

end NoDirectory

namespace TreeOK

variable (hT : TreeOK D v)
include hT

/-- No file node stands above a path whose directory is a directory on the disk. -/
theorem noFileAbove_of_parent (hp : p.IsNormal) (hp0 : p ≠ Disk.rootPath)
    (hpar : ∀ q, p.parent? = some q → D.find? q = some .dir) : v.NoFileAbove p := by
  obtain rfl | ⟨r, n, hr, -, rfl⟩ := hp.cases_child
  · exact absurd rfl hp0
  have hrdir : D.find? r = some .dir := hpar r (Path.parent?_child r n)
  intro a hpa hap d hd
  rcases Path.child_startsWith_iff.1 hpa with h | hra
  · exact hap h
  · by_cases har : a = r
    · subst har
      obtain ⟨b, m, hb⟩ := hT.find?_of_listed (hT.files a d hd)
      rw [hrdir] at hb
      cases hb
    · exact hT.noFileAbove hrdir a hra har d hd

/-- The tree a written file is recorded into: the old one for an addition, else the old one
with the path removed. It stays in shape and holds no directory node at the path. -/
theorem before_insert (hp : p.IsNormal) (hnd : D.find? p ≠ some .dir)
    (hign : v.ignore.isIgnored p = false) (hatt : (v.attachedRoot? p).isSome) (kind : ChangeKind) :
    TreeOK D (if kind = .add then v else v.removeNode p) ∧
      ∀ cs, (if kind = .add then v else v.removeNode p).node? p ≠ some (.dir cs) := by
  have hinner := hT.holdsNoInnerRoot hp hnd
  split
  · refine ⟨hT, hT.no_dir_node hign hatt ?_⟩
    exact Bool.eq_false_iff.2 fun h => hnd ((hT.disk.isDir_iff hp).1 h)
  · refine ⟨hT.removeNode hp hinner, fun cs h => ?_⟩
    rw [node?_removeNode_below hp hT.normal hT.plain (hT.linked.linkedBelow hinner)
      (Path.startsWith_refl p)] at h
    cases h

end TreeOK

/-- A written file leaves every other file node as it was. -/
theorem Mirrors.node?_write (hM : Mirrors D v) (hp : p.IsNormal) (hp0 : p ≠ Disk.rootPath)
    (hpar : ∀ q, p.parent? = some q → D.find? q = some .dir) (hnd : D.find? p ≠ some .dir)
    (hev : (root.join rel).normalize = p) (D' : Disk) (hgp : g ≠ p) {d : FileNode}
    (hd : v.node? g = some (.file d)) : (v.processChange D' kind root rel).2.node? g = some (.file d) := by
  by_cases hacc : v.Accepts D' p
  · rw [processChange_of_accepts hev hacc]
    obtain ⟨-, hign, hatt, -⟩ := hacc
    obtain ⟨hT, hnodir⟩ := hM.toTreeOK.before_insert hp hnd hign hatt kind
    -- the file node at `g` survives the removal of `p`: nothing lies below a path that is no
    -- directory
    have hw : (if kind = .add then v else v.removeNode p).node? g = some (.file d) := by
      split
      · exact hd
      · refine hM.node?_removeNode_file hp (fun hgs => ?_) hd
        obtain ⟨b, m, hb⟩ := hM.find?_of_listed (hM.files g d hd)
        rw [hM.disk.find?_below hnd hp.components_ne_nil hgs hgp] at hb
        cases hb
    split
    · exact hw
    · split
      · exact node?_insertFile_file hp hT.linked hnodir (hT.noFileAbove_of_parent hp hp0 hpar) hgp hw
      · exact hw
  · rw [processChange_of_not_accepts hev hacc]
    exact hd

/-- An event leaves every file node off the subtree of its path as it was, whatever it reports
and whatever the disk says. -/
theorem Mirrors.node?_processChange (hM : Mirrors D v) (hp : p.IsNormal)
    (hev : (root.join rel).normalize = p) (D' : Disk) (kind : ChangeKind) (hgp : ¬ g.startsWith p)
    {d : FileNode} (hd : v.node? g = some (.file d)) :
    (v.processChange D' kind root rel).2.node? g = some (.file d) := by
  by_cases hacc : v.Accepts D' p
  · rw [processChange_of_accepts hev hacc]
    -- the removal keeps what lies off the subtree, and the record of `p` replaces no file node
    have hw : (if kind = .add then v else v.removeNode p).node? g = some (.file d) := by
      split
      · exact hd
      · exact hM.node?_removeNode_file hp hgp hd
    have hne : g ≠ p := fun h => hgp (h ▸ Path.startsWith_refl p)
    split
    · exact hw
    · split
      · exact node?_insertFile_of_ne hne hw
      · exact hw
  · rw [processChange_of_not_accepts hev hacc]
    exact hd

/-- A deletion leaves every file node off the subtree of its path as it was. -/
theorem Mirrors.node?_remove (hM : Mirrors D v) (hp : p.IsNormal) (hev : (root.join rel).normalize = p)
    (D' : Disk) (hgp : ¬ g.startsWith p) {d : FileNode} (hd : v.node? g = some (.file d)) :
    (v.processChange D' .delete root rel).2.node? g = some (.file d) :=
  hM.node?_processChange hp hev D' .delete hgp hd

/-! ## Reads that see part of the mirror -/

/-- With no detached roots, the mirror knows a file exactly where a crawl lists one. -/
theorem Mirrors.fileExists_iff (hM : Mirrors D v) (hdet : v.detached = []) (q : Path) :
    v.fileExists D q = true ↔ Listed D v q.normalize := by
  unfold fileExists
  dsimp only
  split
  · cases hn : v.node? q.normalize with
    | none =>
      refine ⟨by simp, fun hL => ?_⟩
      obtain ⟨d, hd⟩ := hM.complete _ hL
      simp [hd] at hn
    | some x =>
      cases x with
      | file d => simp [hM.files _ d hn]
      | dir cs =>
        refine ⟨by simp, fun hL => ?_⟩
        obtain ⟨d, hd⟩ := hM.complete _ hL
        simp [hd] at hn
  · rename_i hatt
    simp only [isDetached, hdet, List.any_nil, Bool.false_and, Bool.false_eq_true, false_iff]
    exact fun hL => hatt hL.2.1

/-- The nearest file of a name above a normal path depends on the roots, the detached roots, and
whether the file exists in each directory above the path. -/
theorem closest_congr {n : String} (hq : q.IsNormal) (hroots : w.roots = v.roots)
    (hdet : w.detached = v.detached)
    (h : ∀ a, a.IsNormal → q.startsWith a → w.fileExists D' (a.push n) = v.fileExists D (a.push n)) :
    w.closest D' q n = v.closest D q n := by
  simp only [closest, hq.normalize_eq]
  -- the search climbs through the ancestors of `q`, each of them normal
  have hstart : ∀ c, q.parent? = some c → c.IsNormal ∧ q.startsWith c := fun c hc => by
    obtain ⟨hc', m, -, heq⟩ := hq.parent? hc
    exact ⟨hc', heq ▸ Path.child_startsWith c m⟩
  generalize q.components.length + 1 = fuel
  generalize q.parent? = start at hstart
  induction fuel generalizing start with
  | zero => rfl
  | succ k ih =>
    cases start with
    | none => rfl
    | some c =>
      obtain ⟨hc, hqc⟩ := hstart c rfl
      have hatt : w.attachedRoot? c = v.attachedRoot? c := by simp only [attachedRoot?, hroots]
      have hdet' : w.isDetached c = v.isDetached c := by simp only [isDetached, hdet]
      simp only [closest.go, h c hc hqc, hatt, hdet']
      split
      · rfl
      · split
        · rfl
        · refine ih _ fun c' hc' => ?_
          obtain ⟨hc'', m, -, heq⟩ := hc.parent? hc'
          exact ⟨hc'', Path.startsWith_trans hqc (heq ▸ Path.child_startsWith c' m)⟩

/-- A read through the mirror depends on the roots, the detached roots, the node at the path and
the disk's answer there. -/
theorem readFile_congr (hroots : w.roots = v.roots) (hdet : w.detached = v.detached)
    (hnode : w.node? q.normalize = v.node? q.normalize)
    (hstatus : D'.status q.normalize = D.status q.normalize) :
    (w.readFile D' q).1 = (v.readFile D q).1 := by
  unfold readFile
  -- once the disk's answer and the node are fixed, both reads take the same branches
  rcases hst : D.status q.normalize with err | ⟨bytes, mtime⟩ | _ <;>
  simp only [attachedRoot?, isDetached, hroots, hdet, hnode, Disk.isFile, Disk.readLossy,
    Disk.readBytes, hstatus, hst] <;>
  generalize v.node? q.normalize = node <;>
  split_ifs <;>
  rcases node with _ | ⟨cs | ⟨content, stat⟩⟩ <;> (try rcases content with _ | s) <;> rfl

end Vfs

end ModuleBundler
