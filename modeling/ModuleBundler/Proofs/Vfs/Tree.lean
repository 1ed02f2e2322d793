import ModuleBundler.Vfs.Tree
import ModuleBundler.Proofs.Disk

/-!
# The mirror's tree

The mirror keeps its nodes in a list keyed by path. This module gives the view of that list
through `node?` after each primitive update, and then the two tree operations the change
processor uses:

* `insertFile f` records a file node at `f` and links it into the directory above, climbing and
  creating directories until it meets a known one or a root. On a linked tree it keeps every
  node it does not touch, makes only directories at the ancestors of `f`, and leaves the tree
  linked.
* `removeNode p` forgets `p` and everything below it, as long as everything below `p` is
  reachable from `p` through the children lists, and unlinks the name of `p` from the
  directory above. Nothing outside the subtree of `p` changes.

A tree is *linked* when every node other than a root is listed by name in a directory node at
its parent.
-/

namespace ModuleBundler

namespace Vfs

variable {v w : Vfs} {p q : Path} {x : VfsNode}

/-! ## Nodes by path -/

@[simp] theorem node?_setNode (v : Vfs) (p : Path) (n : VfsNode) (q : Path) :
    (v.setNode p n).node? q = if q = p then some n else v.node? q := by
  unfold setNode node?
  split <;> rename_i hany <;> simpa [hany] using find?_upsert (l := v.nodes) (p := p) (q := q) (e := n)

@[simp] theorem setNode_roots (v : Vfs) (p : Path) (n : VfsNode) : (v.setNode p n).roots = v.roots := by
  unfold setNode; split <;> rfl

@[simp] theorem setNode_ignore (v : Vfs) (p : Path) (n : VfsNode) : (v.setNode p n).ignore = v.ignore := by
  unfold setNode; split <;> rfl

@[simp] theorem setNode_extensions (v : Vfs) (p : Path) (n : VfsNode) :
    (v.setNode p n).extensions = v.extensions := by
  unfold setNode; split <;> rfl

theorem setNode_nodup (v : Vfs) (p : Path) (n : VfsNode) (h : (v.nodes.map Prod.fst).Nodup) :
    ((v.setNode p n).nodes.map Prod.fst).Nodup := by
  unfold setNode
  split <;> rename_i hany <;> simpa [hany] using keys_upsert_nodup (p := p) (e := n) h

/-- Replacing a node that exists keeps the keys as they are. -/
theorem setNode_keys_of_node? (v : Vfs) (n : VfsNode) (h : v.node? p = some x) :
    (v.setNode p n).nodes.map Prod.fst = v.nodes.map Prod.fst := by
  have hany : v.nodes.any (·.1 = p) = true := by
    obtain ⟨e, he, -⟩ := Option.map_eq_some_iff.1 h
    exact List.any_eq_true.2 ⟨e, List.mem_of_find?_eq_some he, by simpa using List.find?_some he⟩
  simp only [setNode, hany, if_true, List.map_map]
  congr 1
  funext e; by_cases he : e.1 = p <;> simp [he]

@[simp] theorem takeNode_fst (v : Vfs) (p : Path) : (v.takeNode p).1 = v.node? p := rfl

@[simp] theorem node?_takeNode (v : Vfs) (p q : Path) :
    (v.takeNode p).2.node? q = if q = p then none else v.node? q := by
  simp only [takeNode, node?]
  split
  · rename_i hq
    subst hq
    simp [List.find?_filter, List.find?_eq_none]
  · rename_i hq
    congr 1
    rw [List.find?_filter]
    congr 1
    funext e; by_cases he : e.1 = q <;> simp [he, hq]

@[simp] theorem takeNode_roots (v : Vfs) (p : Path) : (v.takeNode p).2.roots = v.roots := rfl

theorem takeNode_keys (v : Vfs) (p : Path) :
    ((v.takeNode p).2.nodes.map Prod.fst).Sublist (v.nodes.map Prod.fst) :=
  List.filter_sublist.map Prod.fst

/-- With one node per path, the node list holds exactly what `node?` answers. -/
theorem mem_nodes_iff (h : (v.nodes.map Prod.fst).Nodup) :
    (q, x) ∈ v.nodes ↔ v.node? q = some x :=
  (find?_map_eq_some_iff h).symm

/-- The known files are the paths that hold a file node. -/
theorem mem_allFiles_iff (h : (v.nodes.map Prod.fst).Nodup) :
    q ∈ v.allFiles ↔ ∃ d, v.node? q = some (.file d) := by
  simp only [allFiles, sortPaths, Text.mem_sortBy, List.mem_filterMap]
  constructor
  · rintro ⟨⟨r, n⟩, hr, hn⟩
    cases n with
    | dir => simp at hn
    | file d =>
      simp only [Option.some.injEq] at hn
      subst hn
      exact ⟨d, (mem_nodes_iff h).1 hr⟩
  · rintro ⟨d, hd⟩
    exact ⟨(q, .file d), (mem_nodes_iff h).2 hd, rfl⟩

theorem mem_insertName {n m : String} {cs : List String} : m ∈ insertName n cs ↔ m = n ∨ m ∈ cs := by
  induction cs with
  | nil => simp [insertName]
  | cons c cs ih =>
    unfold insertName
    by_cases hnc : n = c
    · subst hnc; simp
    · by_cases hlt : n < c
      · simp [hnc, hlt]
      · simp only [hnc, hlt, if_false, List.mem_cons, ih]
        constructor
        · rintro (h | h | h) <;> simp [h]
        · rintro (h | h | h) <;> simp [h]

end Vfs

/-! ## Pruning

Removal only ever deletes nodes and drops names from children lists. `Pruned v w` says that `w`
arose from `v` that way: its keys are a sublist of those of `v`, every node of `w` was a node of
`v` of the same kind with no more children, and the roots, ignore rules and extensions are those
of `v`.
-/

namespace VfsNode

/-- A node that holds no more than another: a directory listing no more names, or a file. -/
def Within : VfsNode → VfsNode → Prop
  | .dir cs', .dir cs => ∀ m ∈ cs', m ∈ cs
  | .file _, .file _ => True
  | _, _ => False

theorem within_refl : ∀ x : VfsNode, x.Within x
  | .dir _ => fun _ h => h
  | .file _ => trivial

theorem Within.trans : ∀ {x y z : VfsNode}, x.Within y → y.Within z → x.Within z
  | .dir _, .dir _, .dir _, h₁, h₂ => fun m hm => h₂ m (h₁ m hm)
  | .file _, .file _, .file _, _, _ => trivial

end VfsNode

namespace Vfs

variable {v w : Vfs} {p q : Path} {x : VfsNode}

/-- `w` is `v` with some nodes deleted and some names unlisted, and nothing added. -/
structure Pruned (v w : Vfs) : Prop where
  keys : (w.nodes.map Prod.fst).Sublist (v.nodes.map Prod.fst)
  within : ∀ q x, w.node? q = some x → ∃ y, v.node? q = some y ∧ x.Within y
  roots : w.roots = v.roots
  ignore : w.ignore = v.ignore
  extensions : w.extensions = v.extensions

namespace Pruned

theorem refl (v : Vfs) : Pruned v v :=
  ⟨List.Sublist.refl _, fun _ x h => ⟨x, h, x.within_refl⟩, rfl, rfl, rfl⟩

theorem trans {u v w : Vfs} (h₁ : Pruned u v) (h₂ : Pruned v w) : Pruned u w where
  keys := h₂.keys.trans h₁.keys
  within q x hx := by
    obtain ⟨y, hy, hxy⟩ := h₂.within q x hx
    obtain ⟨z, hz, hyz⟩ := h₁.within q y hy
    exact ⟨z, hz, hxy.trans hyz⟩
  roots := h₂.roots.trans h₁.roots
  ignore := h₂.ignore.trans h₁.ignore
  extensions := h₂.extensions.trans h₁.extensions

/-- A pruned tree has no node where the original had none. -/
theorem node?_eq_none (h : Pruned v w) (hq : v.node? q = none) : w.node? q = none := by
  cases hw : w.node? q with
  | none => rfl
  | some x =>
    obtain ⟨y, hy, -⟩ := h.within q x hw
    simp [hq] at hy

end Pruned

theorem takeNode_pruned (v : Vfs) (p : Path) : Pruned v (v.takeNode p).2 where
  keys := takeNode_keys v p
  within q x hx := by
    rw [node?_takeNode] at hx
    split at hx
    · cases hx
    · exact ⟨x, hx, x.within_refl⟩
  roots := rfl
  ignore := rfl
  extensions := rfl

/-- Dropping names from a known directory prunes the tree. -/
theorem setNode_filter_pruned {cs : List String} (hr : v.node? q = some (.dir cs))
    (keep : String → Bool) : Pruned v (v.setNode q (.dir (cs.filter keep))) where
  keys := (setNode_keys_of_node? v _ hr).symm ▸ List.Sublist.refl _
  within r x hx := by
    rw [node?_setNode] at hx
    split at hx
    · rename_i hrq
      subst hrq
      cases hx
      exact ⟨_, hr, fun m hm => (List.mem_filter.1 hm).1⟩
    · exact ⟨x, hx, x.within_refl⟩
  roots := by simp
  ignore := by simp
  extensions := by simp

end Vfs

/-! ## Removing a subtree -/

namespace Vfs

variable {v w : Vfs} {p q : Path} {x : VfsNode}

/-- Every known directory lists plain names only. -/
def PlainChildren (v : Vfs) : Prop :=
  ∀ q cs, v.node? q = some (.dir cs) → ∀ m ∈ cs, Component.Plain m

/-- Every node sits at a normal path. -/
def NormalKeys (v : Vfs) : Prop := ∀ q x, v.node? q = some x → q.IsNormal

/-- Every node strictly below `p` is listed by its directory node. -/
def LinkedBelow (v : Vfs) (p : Path) : Prop :=
  ∀ r n x, (r.child n).startsWith p → r.child n ≠ p → v.node? (r.child n) = some x →
    ∃ cs, v.node? r = some (.dir cs) ∧ n ∈ cs

/-- How many nodes lie at or below `p`. -/
def countBelow (v : Vfs) (p : Path) : Nat := (v.nodes.map Prod.fst).countP (·.startsWith p)

theorem Pruned.plainChildren (h : Pruned v w) (hv : v.PlainChildren) : w.PlainChildren := by
  intro q cs hq m hm
  obtain ⟨y, hy, hxy⟩ := h.within q _ hq
  cases y with
  | dir cs' => exact hv q cs' hy m (hxy m hm)
  | file _ => exact absurd hxy id

theorem Pruned.normalKeys (h : Pruned v w) (hv : v.NormalKeys) : w.NormalKeys := by
  intro q x hq
  obtain ⟨y, hy, -⟩ := h.within q x hq
  exact hv q y hy

theorem Pruned.countBelow_le (h : Pruned v w) (p : Path) : w.countBelow p ≤ v.countBelow p :=
  h.keys.countP_le

/-- Taking a node that is there lowers the count at and below it. -/
theorem countBelow_takeNode_lt (hp : v.node? p = some x) :
    (v.takeNode p).2.countBelow p < v.countBelow p := by
  obtain ⟨e, he, -⟩ := Option.map_eq_some_iff.1 hp
  have hep : e.1 = p := by simpa using List.find?_some he
  have hkeys : (v.takeNode p).2.nodes.map Prod.fst = (v.nodes.map Prod.fst).filter (· != p) := by
    simp [takeNode, List.filter_map, Function.comp_def]
  have hsplit := List.countP_eq_countP_filter_add (v.nodes.map Prod.fst) (·.startsWith p) (· != p)
  have hpos : 0 < ((v.nodes.map Prod.fst).filter fun a => !(a != p)).countP (·.startsWith p) :=
    List.countP_pos_iff.2 ⟨p, by simpa using ⟨e.2, hep ▸ List.mem_of_find?_eq_some he⟩, by simp⟩
  unfold countBelow
  rw [hkeys]
  omega

theorem countBelow_mono {c : Path} (hc : c.startsWith p) (v : Vfs) : v.countBelow c ≤ v.countBelow p :=
  List.countP_mono_left fun _ _ h => Path.startsWith_trans h hc

/-- A node strictly below `p` in a tree linked below `p` lies below a name that `p` lists. -/
theorem exists_listed_child (hnorm : v.NormalKeys) (hlink : v.LinkedBelow p) (hp : p.IsNormal)
    (hq : v.node? q = some x) (hqp : q.startsWith p) (hne : q ≠ p) :
    ∃ cs n, v.node? p = some (.dir cs) ∧ n ∈ cs ∧ q.startsWith (p.child n) := by
  induction hnorm q x hq generalizing x with
  | root =>
    obtain ⟨pc⟩ := p
    rw [Path.startsWith_iff] at hqp
    rcases List.prefix_cons_iff.1 hqp with h0 | ⟨t, rfl, htl⟩
    · exact absurd h0 hp.components_ne_nil
    · exact absurd (by rw [List.prefix_nil.1 htl]; rfl) hne
  | @child r m hr _ ih =>
    obtain ⟨cs, hcs, hm⟩ := hlink r m x hqp hne hq
    rcases Path.child_startsWith_iff.1 hqp with h | hrp
    · exact absurd h.symm hne
    · by_cases hrp' : r = p
      · subst hrp'
        exact ⟨cs, m, hcs, hm, Path.startsWith_refl _⟩
      · obtain ⟨cs', n, hcs', hn, hrn⟩ := ih hcs hrp hrp'
        exact ⟨cs', n, hcs', hn, Path.startsWith_trans (Path.child_startsWith r m) hrn⟩

/-- The tree once the children a taken directory listed have each been removed in turn. -/
def clearChildren (fuel : Nat) (p : Path) (old : Option VfsNode) (w : Vfs) : Vfs :=
  match old with
  | some (.dir children) => children.foldl (fun w name => removeNode.go fuel (p.push name) w) w
  | _ => w

/-- The tree with the name of `p` unlisted from the directory above it, when that is known. -/
def unlinkParent (p : Path) (w : Vfs) : Vfs :=
  match p.parent?, p.fileName? with
  | some parent, some name =>
    match w.node? parent with
    | some (.dir cs) => w.setNode parent (.dir (cs.filter (· != name)))
    | _ => w
  | _, _ => w

/-- One round of removal: take the node, clear what it listed, unlink it from its parent. -/
theorem removeNode.go_succ (fuel : Nat) (p : Path) (v : Vfs) :
    removeNode.go (fuel + 1) p v =
      unlinkParent p (clearChildren fuel p (v.node? p) (v.takeNode p).2) := by
  rw [removeNode.go]; rfl

theorem unlinkParent_pruned (p : Path) (w : Vfs) : Pruned w (unlinkParent p w) := by
  unfold unlinkParent
  split
  · split
    · rename_i hr
      exact setNode_filter_pruned hr _
    · exact Pruned.refl w
  · exact Pruned.refl w

theorem node?_unlinkParent_of_ne (hq : p.parent? ≠ some q) (w : Vfs) :
    (unlinkParent p w).node? q = w.node? q := by
  unfold unlinkParent
  split
  · rename_i r n hr _
    split
    · rw [node?_setNode, if_neg (by rintro rfl; exact hq hr)]
    · rfl
  · rfl

/-- The directory above `r.child n` loses the name `n`, and nothing else. -/
theorem node?_unlinkParent_child (r : Path) (n : String) (w : Vfs) :
    (unlinkParent (r.child n) w).node? r =
      match w.node? r with
      | some (.dir cs) => some (.dir (cs.filter (· != n)))
      | o => o := by
  simp only [unlinkParent, Path.parent?_child, Path.fileName?_child]
  split <;> simp_all

theorem removeNode.go_pruned (fuel : Nat) : ∀ p v, Pruned v (removeNode.go fuel p v) := by
  induction fuel with
  | zero => intro p v; rw [removeNode.go]; exact Pruned.refl v
  | succ fuel ih =>
    intro p v
    rw [removeNode.go_succ]
    refine ((takeNode_pruned v p).trans ?_).trans (unlinkParent_pruned _ _)
    unfold clearChildren
    split
    · exact List.foldlRecOn _ _ (Pruned.refl _) fun w hw name _ => hw.trans (ih _ w)
    · exact Pruned.refl _

theorem removeNode_pruned (v : Vfs) (p : Path) : Pruned v (v.removeNode p) :=
  removeNode.go_pruned _ p v

/-- Removal keeps the roots, the ignore rules and the extensions. -/
theorem removeNode_config (v : Vfs) (p : Path) :
    (v.removeNode p).roots = v.roots ∧ (v.removeNode p).ignore = v.ignore ∧
      (v.removeNode p).extensions = v.extensions :=
  ⟨(removeNode_pruned v p).roots, (removeNode_pruned v p).ignore, (removeNode_pruned v p).extensions⟩

/-- What the removal of `p` never touches: the paths off its subtree, other than its parent. -/
def RemovalFrame (fuel : Nat) : Prop :=
  ∀ p v, p.IsNormal → v.PlainChildren → ∀ q, ¬ q.startsWith p → p.parent? ≠ some q →
    (removeNode.go fuel p v).node? q = v.node? q

/-- Clearing the children of `p` leaves every path off the subtree of `p` as it was. -/
theorem clearChildren_node?_of_not_startsWith {fuel : Nat} (hframe : RemovalFrame fuel)
    (hp : p.IsNormal) (hplain : v.PlainChildren) (hq : ¬ q.startsWith p) :
    (clearChildren fuel p (v.node? p) (v.takeNode p).2).node? q = v.node? q := by
  have hqp : q ≠ p := fun h => hq (h ▸ Path.startsWith_refl p)
  suffices (clearChildren fuel p (v.node? p) (v.takeNode p).2).node? q = (v.takeNode p).2.node? q by
    rw [this, node?_takeNode, if_neg hqp]
  unfold clearChildren
  split
  · rename_i cs hcs
    -- each child's removal stays below the child, so away from `q`
    refine (List.foldlRecOn (motive := fun w => Pruned (v.takeNode p).2 w ∧
      w.node? q = (v.takeNode p).2.node? q) cs _ ⟨Pruned.refl _, rfl⟩ ?_).2
    rintro w ⟨hw, hwq⟩ n hn
    have hn' : Component.Plain n := hplain p cs hcs n hn
    rw [Path.push_plain hp.components_ne_nil hn']
    refine ⟨hw.trans (removeNode.go_pruned _ _ _), ?_⟩
    rw [hframe _ _ (.child hp hn') (((takeNode_pruned v p).trans hw).plainChildren hplain) q
      (fun h => hq (Path.startsWith_of_startsWith_child h)) (by simpa using Ne.symm hqp), hwq]
  · rfl

theorem removeNode.go_frame (fuel : Nat) : RemovalFrame fuel := by
  induction fuel with
  | zero => intro p v _ _ q _ _; rw [removeNode.go]
  | succ fuel ih =>
    intro p v hp hplain q hq hpar
    rw [removeNode.go_succ, node?_unlinkParent_of_ne hpar,
      clearChildren_node?_of_not_startsWith ih hp hplain hq]

/-- Removing `r.child n` unlists `n` from the directory node at `r`. -/
theorem removeNode.go_node?_parent (fuel : Nat) {r : Path} {n : String} (hp : (r.child n).IsNormal)
    (hplain : v.PlainChildren) :
    (removeNode.go (fuel + 1) (r.child n) v).node? r =
      match v.node? r with
      | some (.dir cs) => some (.dir (cs.filter (· != n)))
      | o => o := by
  rw [removeNode.go_succ, node?_unlinkParent_child,
    clearChildren_node?_of_not_startsWith (removeNode.go_frame fuel) hp hplain
      (fun h => Path.child_ne_self r n (Path.startsWith_antisymm (Path.child_startsWith r n) h))]

/-- Folding removals over names only prunes. -/
theorem foldl_go_pruned (fuel : Nat) (p : Path) (names : List String) (w : Vfs) :
    Pruned w (names.foldl (fun w name => removeNode.go fuel (p.push name) w) w) :=
  List.foldlRecOn _ _ (Pruned.refl w) fun _ hw _ _ => hw.trans (removeNode.go_pruned _ _ _)

/-- What removal clears: the whole subtree of `p`, when it is linked and the fuel suffices. -/
def RemovalClears (fuel : Nat) : Prop :=
  ∀ p v, p.IsNormal → v.NormalKeys → v.PlainChildren → v.LinkedBelow p → v.countBelow p < fuel →
    ∀ q, q.startsWith p → (removeNode.go fuel p v).node? q = none

section Clear

variable {fuel : Nat} {cs : List String}

/-- While the children of `p` are cleared one by one, every node still there strictly below `p`
keeps its node and those of its ancestors down to `p`, as in the original tree `v`. -/
def SubtreeIntact (v : Vfs) (p : Path) (w : Vfs) : Prop :=
  Pruned (v.takeNode p).2 w ∧ ∀ q, q.startsWith p → q ≠ p → w.node? q ≠ none →
    ∀ a, q.startsWith a → a.startsWith p → a ≠ p → w.node? a = v.node? a

theorem subtreeIntact_takeNode (v : Vfs) (p : Path) : SubtreeIntact v p (v.takeNode p).2 :=
  ⟨Pruned.refl _, fun _ _ _ _ a _ _ hap => by rw [node?_takeNode, if_neg hap]⟩

/-- Clearing one listed child keeps the subtree intact and empties the child's subtree. -/
theorem subtreeIntact_go (hclears : RemovalClears fuel) (hp : p.IsNormal) (hnorm : v.NormalKeys)
    (hplain : v.PlainChildren) (hlink : v.LinkedBelow p) (hcs : v.node? p = some (.dir cs))
    (hcount : v.countBelow p < fuel + 1) {n : String} (hn : n ∈ cs) (hw : SubtreeIntact v p w) :
    SubtreeIntact v p (removeNode.go fuel (p.child n) w) ∧
      ∀ q, q.startsWith (p.child n) → (removeNode.go fuel (p.child n) w).node? q = none := by
  obtain ⟨hpr, hkeep⟩ := hw
  have hvw : Pruned v w := (takeNode_pruned v p).trans hpr
  have hn' : Component.Plain n := hplain p cs hcs n hn
  have hc : (p.child n).IsNormal := .child hp hn'
  have hbelow : ∀ {a}, a.startsWith (p.child n) → a.startsWith p ∧ a ≠ p := fun ha =>
    ⟨Path.startsWith_of_startsWith_child ha, fun h => Path.child_ne_self p n
      (Path.startsWith_antisymm (Path.child_startsWith p n) (h ▸ ha))⟩
  -- the child's subtree is linked in `w`, since what is left of it is as in `v`
  have hlinkc : w.LinkedBelow (p.child n) := by
    intro r m y hrm hne hy
    obtain ⟨hrm₁, hrm₂⟩ := hbelow hrm
    have hr : r.startsWith (p.child n) := (Path.child_startsWith_iff.1 hrm).resolve_left (Ne.symm hne)
    have hsame := hkeep _ hrm₁ hrm₂ (by simp [hy])
    rw [hsame r (Path.child_startsWith r m) (hbelow hr).1 (hbelow hr).2]
    exact hlink r m y hrm₁ hrm₂ (by rw [← hsame _ (Path.startsWith_refl _) hrm₁ hrm₂, hy])
  have hcount' : w.countBelow (p.child n) < fuel := by
    have h₁ := hpr.countBelow_le (p.child n)
    have h₂ := countBelow_mono (Path.child_startsWith p n) (v.takeNode p).2
    have h₃ := countBelow_takeNode_lt hcs
    omega
  have hgone := hclears _ _ hc (hvw.normalKeys hnorm) (hvw.plainChildren hplain) hlinkc hcount'
  refine ⟨⟨hpr.trans (removeNode.go_pruned _ _ _), ?_⟩, hgone⟩
  intro q hq hqp hsome a hqa hap hap'
  -- what is left lies off the child's subtree, where nothing changed
  have hqc : ¬ q.startsWith (p.child n) := fun h => hsome (hgone q h)
  have hoff : ∀ {b}, q.startsWith b → ¬ b.startsWith (p.child n) :=
    fun hb h => hqc (Path.startsWith_trans hb h)
  have hframe := removeNode.go_frame fuel (p.child n) w hc (hvw.plainChildren hplain)
  have hq' : w.node? q ≠ none := by
    rwa [hframe q hqc (by simpa using Ne.symm hqp)] at hsome
  rw [hframe a (hoff hqa) (by simpa using Ne.symm hap')]
  exact hkeep q hq hqp hq' a hqa hap hap'

/-- Clearing the listed children one after another keeps the subtree intact and empties the
subtree of each of them. -/
theorem subtreeIntact_foldl (hclears : RemovalClears fuel) (hp : p.IsNormal)
    (hnorm : v.NormalKeys) (hplain : v.PlainChildren) (hlink : v.LinkedBelow p)
    (hcs : v.node? p = some (.dir cs)) (hcount : v.countBelow p < fuel + 1) :
    ∀ (names : List String) (w : Vfs), (∀ n ∈ names, n ∈ cs) → SubtreeIntact v p w →
      SubtreeIntact v p (names.foldl (fun w name => removeNode.go fuel (p.push name) w) w) ∧
      ∀ n ∈ names, ∀ q, q.startsWith (p.child n) →
        (names.foldl (fun w name => removeNode.go fuel (p.push name) w) w).node? q = none
  | [], w, _, hw => ⟨hw, by simp⟩
  | n :: ns, w, hns, hw => by
    have hn : n ∈ cs := hns n List.mem_cons_self
    simp only [List.foldl_cons]
    rw [Path.push_plain hp.components_ne_nil (hplain p cs hcs n hn)]
    obtain ⟨hw', hgone⟩ := subtreeIntact_go hclears hp hnorm hplain hlink hcs hcount hn hw
    obtain ⟨hfin, hrest⟩ := subtreeIntact_foldl hclears hp hnorm hplain hlink hcs hcount ns _
      (fun m hm => hns m (List.mem_cons_of_mem _ hm)) hw'
    refine ⟨hfin, fun m hm q hq => ?_⟩
    rcases List.mem_cons.1 hm with rfl | hm
    · exact (foldl_go_pruned fuel p ns _).node?_eq_none (hgone q hq)
    · exact hrest m hm q hq

end Clear

theorem clearChildren_pruned (fuel : Nat) (p : Path) (old : Option VfsNode) (w : Vfs) :
    Pruned w (clearChildren fuel p old w) := by
  unfold clearChildren
  split
  · exact foldl_go_pruned fuel p _ w
  · exact Pruned.refl w

/-- Removal empties a linked subtree, given fuel beyond the number of nodes in it. -/
theorem removeNode.go_clears (fuel : Nat) : RemovalClears fuel := by
  induction fuel with
  | zero => intro p v _ _ _ _ h; omega
  | succ fuel ih =>
    intro p v hp hnorm hplain hlink hcount q hq
    have hpar : p.parent? ≠ some q := by
      intro h
      obtain ⟨-, n, -, rfl⟩ := hp.parent? h
      exact Path.child_ne_self q n (Path.startsWith_antisymm (Path.child_startsWith q n) hq)
    rw [removeNode.go_succ, node?_unlinkParent_of_ne hpar]
    by_cases hqp : q = p
    · subst hqp
      exact (clearChildren_pruned _ _ _ _).node?_eq_none (by simp)
    -- a node left strictly below `p` would lie below a listed child, and those are cleared
    have hlisted : ∀ x, v.node? q = some x → ∃ cs n, v.node? p = some (.dir cs) ∧ n ∈ cs ∧
        q.startsWith (p.child n) := fun x hx => exists_listed_child hnorm hlink hp hx hq hqp
    cases hpv : v.node? p with
    | none =>
      simp only [clearChildren, node?_takeNode, hqp, if_false]
      cases hx : v.node? q with
      | none => rfl
      | some x => obtain ⟨_, _, h, -⟩ := hlisted x hx; simp [hpv] at h
    | some y =>
      cases y with
      | file d =>
        simp only [clearChildren, node?_takeNode, hqp, if_false]
        cases hx : v.node? q with
        | none => rfl
        | some x => obtain ⟨_, _, h, -⟩ := hlisted x hx; simp [hpv] at h
      | dir cs =>
        obtain ⟨⟨-, hkeep⟩, hgone⟩ := subtreeIntact_foldl ih hp hnorm hplain hlink hpv hcount cs _
          (fun _ h => h) (subtreeIntact_takeNode v p)
        simp only [clearChildren]
        cases hw : (cs.foldl (fun w name => removeNode.go fuel (p.push name) w)
          (v.takeNode p).2).node? q with
        | none => rfl
        | some z =>
          have hsame := hkeep q hq hqp (by simp [hw]) q (Path.startsWith_refl q) hq hqp
          obtain ⟨cs', n, hcs', hn, hqn⟩ := hlisted z (hsame ▸ hw)
          rw [hpv] at hcs'
          cases hcs'
          simp [hgone n hn q hqn] at hw

theorem countBelow_lt_fuel (v : Vfs) (p : Path) : v.countBelow p < v.nodes.length + 1 := by
  have := List.countP_le_length (p := (·.startsWith p)) (l := v.nodes.map Prod.fst)
  simp only [List.length_map] at this
  unfold countBelow
  omega

/-! ### What `removeNode` does -/

/-- Removing `p` from a tree linked below it leaves no node at or below `p`. -/
theorem node?_removeNode_below (hp : p.IsNormal) (hnorm : v.NormalKeys)
    (hplain : v.PlainChildren) (hlink : v.LinkedBelow p) (hq : q.startsWith p) :
    (v.removeNode p).node? q = none :=
  removeNode.go_clears _ p v hp hnorm hplain hlink (countBelow_lt_fuel v p) q hq

/-- Removing `p` leaves every path off its subtree, other than its parent, as it was. -/
theorem node?_removeNode_of_not_startsWith (hp : p.IsNormal) (hplain : v.PlainChildren)
    (hq : ¬ q.startsWith p) (hpar : p.parent? ≠ some q) : (v.removeNode p).node? q = v.node? q :=
  removeNode.go_frame _ p v hp hplain q hq hpar

/-- Removing `r.child n` unlists `n` from a directory node at `r`. -/
theorem node?_removeNode_parent {r : Path} {n : String} (hp : (r.child n).IsNormal)
    (hplain : v.PlainChildren) :
    (v.removeNode (r.child n)).node? r =
      match v.node? r with
      | some (.dir cs) => some (.dir (cs.filter (· != n)))
      | o => o :=
  removeNode.go_node?_parent _ hp hplain

end Vfs

/-! ## Recording a file -/

namespace Vfs

variable {v w w' z : Vfs} {c r q : Path} {n : String} {fuel : Nat}

/-- Every node other than a root is listed by its name in a directory node at its parent. -/
def Linked (v : Vfs) : Prop :=
  ∀ r n x, v.node? (r.child n) = some x → r.child n ∉ v.roots →
    ∃ cs, v.node? r = some (.dir cs) ∧ n ∈ cs

/-- Linked, except possibly at `c`. -/
def LinkedExcept (v : Vfs) (c : Path) : Prop :=
  ∀ r n x, v.node? (r.child n) = some x → r.child n ∉ v.roots → r.child n ≠ c →
    ∃ cs, v.node? r = some (.dir cs) ∧ n ∈ cs

/-- A tree linked everywhere but at `c` is linked once `c` is. -/
theorem LinkedExcept.linked (h : v.LinkedExcept c)
    (hc : ∀ r n, c = r.child n → c ∉ v.roots → ∃ cs, v.node? r = some (.dir cs) ∧ n ∈ cs) :
    v.Linked := by
  intro r n x hx hroot
  by_cases hrc : r.child n = c
  · exact hc r n hrc.symm (hrc ▸ hroot)
  · exact h r n x hx hroot hrc

/-- A linked tree with no root strictly below `p` is linked below `p`. -/
theorem Linked.linkedBelow (h : v.Linked) (hroots : ∀ r ∈ v.roots, r.startsWith p → r = p) :
    v.LinkedBelow p :=
  fun r n x hrp hne hx => h r n x hx fun hr => hne (hroots _ hr hrp)

/-- What climbing from `c` does to `w`: only the proper ancestors of `c` change, each into a
directory node listing what it listed before, or the name on the way down to `c`. -/
structure Climbed (c : Path) (w z : Vfs) : Prop where
  frame : ∀ q, ¬ (c.startsWith q ∧ q ≠ c) → z.node? q = w.node? q
  above : ∀ a y, c.startsWith a → a ≠ c → z.node? a = some y → ∃ cs, y = .dir cs ∧
    ∀ m ∈ cs, (∃ cs₀, w.node? a = some (.dir cs₀) ∧ m ∈ cs₀) ∨ c.startsWith (a.child m)
  fresh : ∀ q x, z.node? q = some x → w.node? q = none → q.IsNormal
  roots : z.roots = w.roots
  ignore : z.ignore = w.ignore
  extensions : z.extensions = w.extensions
  nodup : (w.nodes.map Prod.fst).Nodup → (z.nodes.map Prod.fst).Nodup

/-- Proper ancestors of `c` that hold no file. -/
def NoFileAbove (w : Vfs) (c : Path) : Prop := ∀ a, c.startsWith a → a ≠ c → ∀ d, w.node? a ≠ some (.file d)

theorem Climbed.refl (c : Path) (hw : w.NoFileAbove c) : Climbed c w w where
  frame _ _ := rfl
  above a y hca hac hy := by
    cases y with
    | dir cs => exact ⟨cs, rfl, fun m hm => .inl ⟨cs, hy, hm⟩⟩
    | file d => exact absurd hy (hw a hca hac d)
  fresh _ _ h h' := by simp [h'] at h
  roots := rfl
  ignore := rfl
  extensions := rfl
  nodup h := h

/-- Climbing from `r.child n` and then on from `r` is one climb from `r.child n`. -/
theorem Climbed.trans (h₁ : Climbed (r.child n) w w') (h₂ : Climbed r w' z) :
    Climbed (r.child n) w z where
  frame q hq := by
    have hr : ¬ (r.startsWith q ∧ q ≠ r) := by
      rintro ⟨hrq, -⟩
      exact hq ⟨Path.startsWith_trans (Path.child_startsWith r n) hrq, fun h =>
        Path.child_ne_self r n (Path.startsWith_antisymm (Path.child_startsWith r n) (h ▸ hrq))⟩
    rw [h₂.frame q hr, h₁.frame q hq]
  above a y hca hac hy := by
    by_cases har : a = r
    · subst har
      exact h₁.above a y hca hac (by rw [← h₂.frame a (fun h => h.2 rfl), hy])
    · have hra : r.startsWith a := (Path.child_startsWith_iff.1 hca).resolve_left hac
      obtain ⟨cs, rfl, hcs⟩ := h₂.above a y hra har hy
      refine ⟨cs, rfl, fun m hm => ?_⟩
      rcases hcs m hm with ⟨cs₀, hcs₀, hm₀⟩ | hrm
      · obtain ⟨cs₁, hcs₁, h₁m⟩ := h₁.above a _ hca hac hcs₀
        cases hcs₁
        exact h₁m m hm₀
      · exact .inr (Path.startsWith_trans (Path.child_startsWith r n) hrm)
  fresh q x hq hw := by
    cases hw' : w'.node? q with
    | none => exact h₂.fresh q x hq hw'
    | some y => exact h₁.fresh q y hw' hw
  roots := h₂.roots.trans h₁.roots
  ignore := h₂.ignore.trans h₁.ignore
  extensions := h₂.extensions.trans h₁.extensions
  nodup h := h₂.nodup (h₁.nodup h)

/-- Listing names at the parent `r` of `r.child n` is one step of a climb from `r.child n`. -/
theorem climbed_setNode_parent (hr : r.IsNormal) (hw : w.NoFileAbove (r.child n)) {cs : List String}
    (hcs : ∀ m ∈ cs, (∃ cs₀, w.node? r = some (.dir cs₀) ∧ m ∈ cs₀) ∨ m = n) :
    Climbed (r.child n) w (w.setNode r (.dir cs)) where
  frame q hq := by
    have hqr : q ≠ r := by
      rintro rfl
      exact hq ⟨Path.child_startsWith q n, (Path.child_ne_self q n).symm⟩
    simp [hqr]
  above a y hca hac hy := by
    by_cases har : a = r
    · subst har
      simp only [node?_setNode, if_true, Option.some.injEq] at hy
      subst hy
      refine ⟨cs, rfl, fun m hm => ?_⟩
      rcases hcs m hm with h | rfl
      · exact .inl h
      · exact .inr (Path.startsWith_refl _)
    · rw [node?_setNode, if_neg har] at hy
      exact (Climbed.refl _ hw).above a y hca hac hy
  fresh q x hq hw := by
    rw [node?_setNode] at hq
    split at hq
    · rename_i h; exact h ▸ hr
    · simp [hw] at hq
  roots := by simp
  ignore := by simp
  extensions := by simp
  nodup h := setNode_nodup w r _ h

/-- Listing `n` at `r` links `r.child n` and leaves the tree linked everywhere but at `r`. -/
theorem linkedExcept_setNode_parent (hw : w.LinkedExcept (r.child n)) {cs : List String}
    (hgrow : ∀ cs₀, w.node? r = some (.dir cs₀) → ∀ m ∈ cs₀, m ∈ cs) (hn : n ∈ cs) :
    (w.setNode r (.dir cs)).LinkedExcept r := by
  intro r' n' x hx hroot hne
  rw [node?_setNode, if_neg hne] at hx
  simp only [setNode_roots] at hroot
  by_cases hc : r'.child n' = r.child n
  · obtain ⟨rfl, rfl⟩ := Path.child_injective hc
    exact ⟨cs, by simp, hn⟩
  · obtain ⟨cs', hcs', hn'⟩ := hw r' n' x hx hroot hc
    by_cases hr' : r' = r
    · subst hr'
      exact ⟨cs, by simp, hgrow cs' hcs' n' hn'⟩
    · exact ⟨cs', by simp [hr', hcs'], hn'⟩

theorem IsNormal.length_pos {p : Path} (h : p.IsNormal) : 0 < p.components.length :=
  List.length_pos_iff.2 h.components_ne_nil

theorem insertFile.go_child_dir {cs : List String} (h : w.node? r = some (.dir cs)) :
    insertFile.go (fuel + 1) (r.child n) w = w.setNode r (.dir (insertName n cs)) := by
  simp [insertFile.go, h]

theorem insertFile.go_child_none (h : w.node? r = none) :
    insertFile.go (fuel + 1) (r.child n) w =
      if r ∈ w.roots then w.setNode r (.dir [n])
      else insertFile.go fuel r (w.setNode r (.dir [n])) := by
  simp [insertFile.go, h]

theorem insertFile.go_rootPath : insertFile.go fuel Disk.rootPath w = w := by
  cases fuel <;> simp [insertFile.go, Path.parent?_rootPath]

/-- The climb from a node `c` of a tree linked everywhere but at `c`, with no file above `c`:
it changes only the ancestors of `c`, into directories, and leaves the tree linked. The fuel
covers one step per component of `c`. -/
theorem insertFile.go_climbed (fuel : Nat) : ∀ c w, c.IsNormal → c.components.length ≤ fuel →
    w.node? c ≠ none → w.LinkedExcept c → w.NoFileAbove c →
    Climbed c w (insertFile.go fuel c w) ∧ (insertFile.go fuel c w).Linked := by
  induction fuel with
  | zero => intro c w hc hlen; have := IsNormal.length_pos hc; omega
  | succ fuel ih =>
    intro c w hc hlen hcw hlink habove
    rcases hc.cases_child with rfl | ⟨r, n, hr, hn, rfl⟩
    · rw [insertFile.go_rootPath]
      exact ⟨Climbed.refl _ habove,
        hlink.linked fun r n h => absurd h.symm (Path.child_ne_rootPath r n)⟩
    cases hrw : w.node? r with
    | none =>
      -- a new directory at `r`: stop at a root, climb on otherwise
      rw [insertFile.go_child_none hrw]
      have h₁ : Climbed (r.child n) w (w.setNode r (.dir [n])) :=
        climbed_setNode_parent hr habove (by simp)
      have hlink₁ : (w.setNode r (.dir [n])).LinkedExcept r :=
        linkedExcept_setNode_parent hlink (by simp [hrw]) (by simp)
      split
      · rename_i hroot
        exact ⟨h₁, hlink₁.linked fun _ _ _ h => absurd (by simpa using hroot) h⟩
      · have hlen' : r.components.length ≤ fuel := by simp at hlen; omega
        have habove' : (w.setNode r (.dir [n])).NoFileAbove r := by
          intro a hra har d
          rw [node?_setNode, if_neg har]
          exact habove a (Path.startsWith_trans (Path.child_startsWith r n) hra)
            (Path.ne_child_of_startsWith hra) d
        obtain ⟨h₂, hlinked⟩ := ih r _ hr hlen' (by simp) hlink₁ habove'
        exact ⟨h₁.trans h₂, hlinked⟩
    | some y =>
      cases y with
      | file d =>
        exact absurd hrw (habove r (Path.child_startsWith r n) (Path.child_ne_self r n).symm d)
      | dir cs =>
        -- a known directory at `r`: list the name there and stop
        rw [insertFile.go_child_dir hrw]
        refine ⟨climbed_setNode_parent hr habove fun m hm => ?_, ?_⟩
        · rcases mem_insertName.1 hm with h | h
          · exact .inr h
          · exact .inl ⟨cs, hrw, h⟩
        refine (linkedExcept_setNode_parent hlink (fun cs₀ h m hm => ?_)
          (mem_insertName.2 (.inl rfl))).linked ?_
        · rw [hrw] at h
          cases h
          exact mem_insertName.2 (.inr hm)
        · -- `r` was linked before, and its parent is not touched
          intro r' n' hr' hroot
          subst hr'
          simp only [setNode_roots] at hroot
          obtain ⟨cs', hcs', hn'⟩ := hlink r' n' _ hrw hroot (Path.child_ne_self _ n).symm
          exact ⟨cs', by rw [node?_setNode, if_neg (Path.child_ne_self r' n').symm]; exact hcs', hn'⟩

/-- Recording a file at a normal path of a linked tree, where no directory node and no file
above stands in the way, climbs from the file and leaves the tree linked. -/
theorem insertFile_climbed {f : Path} (hf : f.IsNormal) (hlink : v.Linked)
    (hdir : ∀ cs, v.node? f ≠ some (.dir cs)) (habove : v.NoFileAbove f) :
    Climbed f (v.setNode f (.file ⟨none, none⟩)) (v.insertFile f) ∧ (v.insertFile f).Linked := by
  unfold insertFile
  refine insertFile.go_climbed _ f _ hf (Nat.le_succ _) (by simp) ?_ ?_
  · intro r n x hx hroot hne
    rw [node?_setNode, if_neg hne] at hx
    obtain ⟨cs, hcs, hn⟩ := hlink r n x hx (by simpa using hroot)
    have hrf : r ≠ f := by rintro rfl; exact hdir cs hcs
    exact ⟨cs, by simp [hrf, hcs], hn⟩
  · intro a hfa haf d
    rw [node?_setNode, if_neg haf]
    exact habove a hfa haf d

/-- Removing `p` from a linked tree with no root strictly below `p` leaves it linked: what
remains keeps its directory, and the directory above `p` only loses the name of `p`. -/
theorem removeNode_linked (hp : p.IsNormal) (hnorm : v.NormalKeys) (hplain : v.PlainChildren)
    (hlink : v.Linked) (hroots : ∀ r ∈ v.roots, r.startsWith p → r = p) :
    (v.removeNode p).Linked := by
  intro r n x hx hroot
  have hbelow := node?_removeNode_below hp hnorm hplain (hlink.linkedBelow hroots) (q := r.child n)
  have hnb : ¬ (r.child n).startsWith p := fun h => by simp [hbelow h] at hx
  obtain ⟨y, hy, -⟩ := (removeNode_pruned v p).within _ _ hx
  obtain ⟨cs, hcs, hn⟩ := hlink r n y hy (by rwa [(removeNode_pruned v p).roots] at hroot)
  have hrp : ¬ r.startsWith p := fun h => hnb (Path.startsWith_trans (Path.child_startsWith r n) h)
  by_cases hpar : p.parent? = some r
  · -- `p` is a sibling `r.child m`, and only its own name goes
    obtain ⟨-, m, -, rfl⟩ := hp.parent? hpar
    rw [node?_removeNode_parent hp hplain, hcs]
    refine ⟨_, rfl, List.mem_filter.2 ⟨hn, ?_⟩⟩
    have hnm : n ≠ m := by rintro rfl; exact hnb (Path.startsWith_refl _)
    simpa using hnm
  · exact ⟨cs, by rw [node?_removeNode_of_not_startsWith hp hplain hrp hpar, hcs], hn⟩

/-- Recording a file keeps the roots, the ignore rules and the extensions. -/
theorem insertFile_config (v : Vfs) (f : Path) :
    (v.insertFile f).roots = v.roots ∧ (v.insertFile f).ignore = v.ignore ∧
      (v.insertFile f).extensions = v.extensions := by
  have hgo : ∀ fuel c (w : Vfs), (insertFile.go fuel c w).roots = w.roots ∧
      (insertFile.go fuel c w).ignore = w.ignore ∧
      (insertFile.go fuel c w).extensions = w.extensions := by
    intro fuel
    induction fuel with
    | zero => intro c w; simp [insertFile.go]
    | succ fuel ih =>
      intro c w
      simp only [insertFile.go]
      split
      · split
        · exact ⟨rfl, rfl, rfl⟩
        · split <;> simp [ih]
        · split <;> simp [ih]
      · exact ⟨rfl, rfl, rfl⟩
  simpa [insertFile] using hgo (f.components.length + 1) f (v.setNode f (.file ⟨none, none⟩))

end Vfs

end ModuleBundler
