import ModuleBundler.Proofs.Vfs.Mirror
import ModuleBundler.Proofs.Vfs.Frame
import ModuleBundler.Proofs.Resolve.Route

/-!
# Directory listings in order

Every directory node of the mirror lists its names in increasing order (`Vfs.SortedDirs`): a
build starts from empty listings, a new name is inserted in its place (`insertName`), and a
removal only filters a listing. The order matters to resolution, which takes the first of two
equally good asset variants in the order of their directory's listing.

Sorted listings are what make a file changed in place leave the tree as it was: its node is
removed, its name dropped from the directory above, and recording it again inserts the name back
where it stood (`Vfs.sameTree_change`). A query changes no listing (`Vfs.SortedDirs.sameShape`).
-/

namespace ModuleBundler

/-- Inserting a name into an increasing listing keeps it increasing. -/
theorem pairwise_insertName {n : String} :
    ∀ {cs : List String}, cs.Pairwise (· < ·) → (insertName n cs).Pairwise (· < ·)
  | [], _ => List.pairwise_singleton _ _
  | m :: rest, h => by
    obtain ⟨hm, hrest⟩ := List.pairwise_cons.1 h
    unfold insertName
    split
    · exact h
    · split
      · -- the name goes first, below `m` and so below everything after it
        rename_i hlt
        refine List.pairwise_cons.2 ⟨fun a ha => ?_, h⟩
        rcases List.mem_cons.1 ha with rfl | ha
        · exact hlt
        · exact lt_trans hlt (hm a ha)
      · rename_i hnm hlt
        refine List.pairwise_cons.2 ⟨fun a ha => ?_, pairwise_insertName hrest⟩
        rcases Vfs.mem_insertName.1 ha with rfl | ha
        · exact lt_of_le_of_ne (not_lt.1 hlt) (Ne.symm hnm)
        · exact hm a ha

/-- A name below every name of a listing is inserted at its head. -/
theorem insertName_of_forall_lt {n : String} {cs : List String} (h : ∀ a ∈ cs, n < a) :
    insertName n cs = n :: cs := by
  cases cs with
  | nil => rfl
  | cons m rest =>
    have hnm := h m List.mem_cons_self
    unfold insertName
    rw [if_neg (ne_of_lt hnm), if_pos hnm]

/-- An increasing listing that holds a name is the same listing once the name is dropped and
inserted again. -/
theorem insertName_filter_self {n : String} :
    ∀ {cs : List String}, cs.Pairwise (· < ·) → n ∈ cs → insertName n (cs.filter (· != n)) = cs
  | [], _, hn => absurd hn List.not_mem_nil
  | m :: rest, h, hn => by
    obtain ⟨hm, hrest⟩ := List.pairwise_cons.1 h
    by_cases hnm : n = m
    · -- the name heads the listing, and every later name lies above it
      subst hnm
      have hkeep : rest.filter (· != n) = rest :=
        List.filter_eq_self.2 fun a ha => by simpa using (ne_of_lt (hm a ha)).symm
      rw [List.filter_cons_of_neg (by simp), hkeep, insertName_of_forall_lt hm]
    · have hn' : n ∈ rest := (List.mem_cons.1 hn).resolve_left hnm
      have hmn : m < n := hm n hn'
      rw [List.filter_cons_of_pos (by simpa using Ne.symm hnm)]
      unfold insertName
      rw [if_neg hnm, if_neg (not_lt.2 hmn.le), insertName_filter_self hrest hn']

namespace Vfs

variable {v w : Vfs} {D : Disk} {p q : Path}

/-- Every directory node lists its names in increasing order. -/
def SortedDirs (v : Vfs) : Prop := ∀ q cs, v.node? q = some (.dir cs) → cs.Pairwise (· < ·)

theorem SortedDirs.setNode (h : v.SortedDirs) {x : VfsNode}
    (hx : ∀ cs, x = .dir cs → cs.Pairwise (· < ·)) : (v.setNode p x).SortedDirs := by
  intro q cs hq
  rw [node?_setNode] at hq
  split at hq
  · exact hx cs (Option.some.inj hq)
  · exact h q cs hq

theorem SortedDirs.takeNode (h : v.SortedDirs) (p : Path) : (v.takeNode p).2.SortedDirs := by
  intro q cs hq
  rw [node?_takeNode] at hq
  split at hq
  · cases hq
  · exact h q cs hq

theorem SortedDirs.unlinkParent (h : w.SortedDirs) (p : Path) :
    (Vfs.unlinkParent p w).SortedDirs := by
  unfold Vfs.unlinkParent
  split
  · split
    · rename_i hr
      exact h.setNode fun cs hx => by
        cases hx
        exact (h _ _ hr).sublist List.filter_sublist
    · exact h
  · exact h

/-- A directory that shares its shape with a sorted one is sorted. -/
theorem SortedDirs.sameShape (h : v.SortedDirs) (hs : SameShape v w) : w.SortedDirs :=
  fun q cs hq => h q cs ((hs.dir q cs).1 hq)

theorem removeNode.go_sortedDirs (fuel : Nat) :
    ∀ p v, SortedDirs v → (removeNode.go fuel p v).SortedDirs := by
  induction fuel with
  | zero => intro p v h; rw [removeNode.go]; exact h
  | succ fuel ih =>
    intro p v h
    rw [removeNode.go_succ]
    refine SortedDirs.unlinkParent ?_ p
    unfold clearChildren
    split
    · exact List.foldlRecOn _ _ (h.takeNode p) fun w hw _ _ => ih _ w hw
    · exact h.takeNode p

theorem SortedDirs.removeNode (h : v.SortedDirs) (p : Path) : (v.removeNode p).SortedDirs :=
  removeNode.go_sortedDirs _ p v h

/-- The climb that records a file's directories lists each name in its place. -/
theorem insertFile.go_sortedDirs : ∀ (fuel : Nat) (c : Path) (w : Vfs), w.SortedDirs →
    (insertFile.go fuel c w).SortedDirs
  | 0, _, _, h => by rw [insertFile.go]; exact h
  | fuel + 1, c, w, h => by
    rw [insertFile.go]
    cases c.parent? with
    | none => exact h
    | some parent =>
      cases c.fileName? with
      | none => exact h
      | some name =>
        dsimp only
        split
        · exact h
        · rename_i cs hcs
          have h' : (w.setNode parent (.dir (insertName name cs))).SortedDirs :=
            h.setNode fun cs' hx => by
              cases hx
              exact pairwise_insertName (h _ _ hcs)
          split
          · exact h'
          · exact insertFile.go_sortedDirs fuel parent _ h'
        · have h' : (w.setNode parent (.dir [name])).SortedDirs :=
            h.setNode fun cs' hx => by
              cases hx
              exact List.pairwise_singleton _ _
          split
          · exact h'
          · exact insertFile.go_sortedDirs fuel parent _ h'

theorem SortedDirs.insertFile (h : v.SortedDirs) (f : Path) : (v.insertFile f).SortedDirs :=
  insertFile.go_sortedDirs _ f _ (h.setNode fun _ hx => nomatch hx)

theorem SortedDirs.processChange (h : v.SortedDirs) (D : Disk) (kind : ChangeKind)
    (root rel : Path) : (v.processChange D kind root rel).2.SortedDirs := by
  by_cases hacc : v.Accepts D (root.join rel).normalize
  · rw [processChange_of_accepts rfl hacc]
    have hw : (if kind = .add then v else v.removeNode (root.join rel).normalize).SortedDirs := by
      split
      · exact h
      · exact h.removeNode _
    split
    · exact hw
    · split
      · exact hw.insertFile _
      · exact hw
  · rw [processChange_of_not_accepts rfl hacc]
    exact h

/-- A built mirror lists every directory in order: roots start empty and files are inserted. -/
theorem sortedDirs_build {D₀ : Disk} {roots fs₀ : List Path} {I : IgnoreRules}
    {exts : List String} {v₀ : Vfs} (h : build D₀ roots fs₀ I exts = .ok v₀) : v₀.SortedDirs := by
  rw [build_eq_ok h]
  refine List.foldlRecOn _ _ ?_ fun w hw f _ => ?_
  · refine List.foldlRecOn _ _ (fun q cs hq => by simp [node?] at hq) fun w hw r _ => ?_
    unfold addRoot
    split
    · exact hw
    · exact hw.setNode fun cs hx => by
        cases hx
        exact List.Pairwise.nil
  · unfold addCrawled
    split
    · exact hw
    · exact hw.insertFile _

/-! ## A file changed in place -/

/-- Removing a file's node and recording it again, with sorted listings, puts a fresh node at the
file and leaves every other node as it was, the listing above included. -/
theorem node?_change (hlink : v.Linked) (hsort : v.SortedDirs) (hp : p.IsNormal)
    (hp0 : p ≠ Disk.rootPath) (hroot : p ∉ v.roots) {d : FileNode}
    (hd : v.node? p = some (.file d)) (q : Path) :
    ((v.removeNode p).insertFile p).node? q =
      if q = p then some (.file ⟨none, none⟩) else v.node? q := by
  obtain h0 | ⟨r, n, -, -, rfl⟩ := hp.cases_child
  · exact absurd h0 hp0
  obtain ⟨cs, hcs, hn⟩ := hlink r n _ hd hroot
  have hrp : r ≠ r.child n := (Path.child_ne_self r n).symm
  -- removing a file takes its node and its name from the listing above
  have hremove : ∀ q, (v.removeNode (r.child n)).node? q =
      if q = r then some (.dir (cs.filter (· != n)))
      else if q = r.child n then none else v.node? q := by
    intro q
    have hclear : clearChildren v.nodes.length (r.child n) (v.node? (r.child n))
        (v.takeNode (r.child n)).2 = (v.takeNode (r.child n)).2 := by
      rw [hd]
      rfl
    rw [removeNode, removeNode.go_succ, hclear]
    by_cases hqr : q = r
    · subst hqr
      rw [node?_unlinkParent_child, node?_takeNode, if_neg hrp, hcs, if_pos rfl]
    · rw [node?_unlinkParent_of_ne (by simpa using Ne.symm hqr), node?_takeNode, if_neg hqr]
  -- recording it again sets its node and inserts its name back in its place
  have hpar : ((v.removeNode (r.child n)).setNode (r.child n) (.file ⟨none, none⟩)).node? r =
      some (.dir (cs.filter (· != n))) := by
    rw [node?_setNode, if_neg hrp, hremove, if_pos rfl]
  rw [insertFile, Path.child_components, List.length_append, List.length_singleton,
    insertFile.go_child_dir hpar, insertName_filter_self (hsort r cs hcs) hn,
    node?_setNode, node?_setNode, hremove]
  by_cases hqr : q = r
  · subst hqr
    rw [if_pos rfl, if_neg hrp, hcs]
  · rw [if_neg hqr, if_neg hqr]
    by_cases hqp : q = r.child n
    · rw [if_pos hqp, if_pos hqp]
    · rw [if_neg hqp, if_neg hqp, if_neg hqp]

/-- Removing a file's node and recording it again, with sorted listings, leaves every directory
listing as it was and a file at the same paths. -/
theorem sameTree_change (hlink : v.Linked) (hsort : v.SortedDirs) (hp : p.IsNormal)
    (hp0 : p ≠ Disk.rootPath) (hroot : p ∉ v.roots) {d : FileNode}
    (hd : v.node? p = some (.file d)) : SameTree v ((v.removeNode p).insertFile p) := by
  have hnode := node?_change hlink hsort hp hp0 hroot hd
  obtain ⟨hr₁, -, -⟩ := insertFile_config (v.removeNode p) p
  obtain ⟨hr₂, -, -⟩ := removeNode_config v p
  refine ⟨hr₁.trans hr₂, (insertFile_detached _ _).trans (removeNode_detached _ _),
    fun q cs => ?_, fun q => ?_⟩
  · rw [hnode]
    by_cases hqp : q = p
    · subst hqp
      simp [hd]
    · rw [if_neg hqp]
  · rw [hnode]
    by_cases hqp : q = p
    · subst hqp
      simp [hd]
    · rw [if_neg hqp]

end Vfs

end ModuleBundler
