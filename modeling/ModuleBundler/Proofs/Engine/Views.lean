import ModuleBundler.Registry.Haste
import ModuleBundler.Proofs.Engine.Run
import ModuleBundler.Proofs.Vfs.Frame

/-!
# What name detection reads

Detecting the global name of a file reads the file through the mirror, the package file above
it, and the module the registry keeps for it, and on the way it fills caches: the mirror
remembers what it read, the registry creates the module, records what the module declares and
keeps the parsed package file, and the content memo stores the declarations.

Each of these fills stores exactly what a later read would have found without it (`Fill`).
What detection depends on is therefore a function of the state (`Engine.detected`) that no fill
changes, and detection itself gives that function's answer and only fills caches
(`run_detectName`). The views are read through the mirror and the registry, never through the
disk alone: two detections agree because they read the same caches, not because the caches
agree with the disk.
-/

namespace ModuleBundler

/-- Looking up a key is not affected by dropping the entries of another key. -/
theorem lookup_filter_ne {α β : Type} [DecidableEq α] {p q : α} (hq : q ≠ p) :
    ∀ l : List (α × β), (l.filter (·.1 != p)).lookup q = l.lookup q
  | [] => rfl
  | (a, b) :: l => by
    by_cases ha : a = p
    · subst ha
      have : (q == a) = false := by simpa using hq
      simp [List.lookup_cons, this, lookup_filter_ne hq l]
    · by_cases hqa : q = a
      · subst hqa; simp [ha]
      · have : (q == a) = false := by simpa using hqa
        simp [ha, List.lookup_cons, this, lookup_filter_ne hq l]

/-- Rewriting the entries of a list in place, each keeping its key, changes nothing at the keys
it leaves alone. -/
theorem find?_map_of_ne {α β : Type} [DecidableEq α] {p q : α} (hq : q ≠ p) (g : α × β → α × β)
    (hg₁ : ∀ x, (g x).1 = x.1) (hg₂ : ∀ x, x.1 ≠ p → g x = x) :
    ∀ l : List (α × β), (l.map g).find? (·.1 = q) = l.find? (·.1 = q)
  | [] => rfl
  | x :: l => by
    by_cases hx : x.1 = q
    · simp [hx, hg₂ x (hx ▸ hq)]
    · simp [hg₁, hx, find?_map_of_ne hq g hg₁ hg₂ l]

@[simp] theorem ContentCache.storeEncoded_some {c : ContentCache} {p : Path} {f : String} {v : Json}
    {m : Option Nat} : c.storeEncoded p f (some v) m = c.store p f v m := rfl

@[simp] theorem ContentCache.storeEncoded_none {c : ContentCache} {p : Path} {f : String}
    {m : Option Nat} : c.storeEncoded p f none m = c := rfl

/-- Storing a value for one path leaves what the memo holds for every other path. -/
theorem ContentCache.lookup_store_ne {c : ContentCache} {p q : Path} {field f : String} {v : Json}
    {m : Option Nat} (hq : q ≠ p) : (c.store p field v m).lookup q f = c.lookup q f := by
  unfold ContentCache.store ContentCache.lookup
  dsimp only
  split
  · rw [find?_map_of_ne hq _ (fun x => by split <;> rfl) (fun x hx => by simp [hx])]
  · rw [List.find?_append]
    simp [Ne.symm hq]

/-! ## The registry -/

namespace Registry

variable {r : Registry} {p q : Path} {id j : Nat} {rec : ModuleRecord} {k : ModuleKind}

/-- The registry as the engine keeps it while it only reads source files: every number a path
points at names a module, a live module sits at the path that points at it, every module is a
source module, and each kept package is the package of its own path. -/
structure WellFormed (r : Registry) : Prop where
  bound : ∀ p id, r.byPath.lookup p = some id → id < r.store.size
  path : ∀ p id rec, r.byPath.lookup p = some id → r.record? id = some rec → rec.live = true →
    rec.module.path = p
  source : ∀ id rec, r.record? id = some rec → rec.module.kind = .source
  packages : ∀ p pkg, r.packages.lookup p = some pkg → pkg = Package.make p pkg.json

theorem wellFormed_empty : Registry.empty.WellFormed :=
  ⟨by simp [Registry.empty], by simp [Registry.empty], by simp [Registry.empty, record?],
    by simp [Registry.empty]⟩

theorem atPath?_eq_some : r.atPath? p = some id ↔
    r.byPath.lookup p = some id ∧ ∃ rec, r.record? id = some rec ∧ rec.live = true := by
  simp only [atPath?, live?, Option.bind_eq_some_iff, Option.map_eq_some_iff]
  constructor
  · rintro ⟨id', hl, m, hm, rfl⟩
    refine ⟨hl, ?_⟩
    cases hrec : r.record? id' with
    | none => simp [hrec] at hm
    | some rc =>
      simp only [hrec] at hm
      split at hm
      · exact ⟨rc, rfl, by assumption⟩
      · cases hm
  · rintro ⟨hl, rc, hrc, hlive⟩
    exact ⟨id, hl, rc.module, by simp [hrc, hlive], rfl⟩

/-- The live module at a path is a source module at that path. -/
theorem WellFormed.atPath? (hr : r.WellFormed) (h : r.atPath? p = some id) :
    ∃ rec, r.record? id = some rec ∧ rec.live = true ∧ rec.module.path = p ∧
      rec.module.kind = .source := by
  obtain ⟨hl, rc, hrc, hlive⟩ := atPath?_eq_some.1 h
  exact ⟨rc, hrc, hlive, hr.path p id rc hl hrc hlive, hr.source id rc hrc⟩

/-- A live module sits at one path only. -/
theorem WellFormed.atPath?_inj (hr : r.WellFormed) (hp : r.atPath? p = some id)
    (hq : r.atPath? q = some id) : p = q := by
  obtain ⟨rc, hrc, -, hpath, -⟩ := hr.atPath? hp
  obtain ⟨rc', hrc', -, hpath', -⟩ := hr.atPath? hq
  rw [hrc] at hrc'
  cases hrc'
  exact hpath.symm.trans hpath'

@[simp] theorem lookup_setPath :
    (r.setPath p id).byPath.lookup q = if q = p then some id else r.byPath.lookup q := by
  by_cases hq : q = p
  · subst hq; simp [setPath]
  · have hb : (q == p) = false := by simpa using hq
    simp [setPath, List.lookup_cons, hq, hb, lookup_filter_ne hq]

@[simp] theorem record?_setPath : (r.setPath p id).record? j = r.record? j := rfl

@[simp] theorem setPath_store : (r.setPath p id).store = r.store := rfl

@[simp] theorem setPath_packages : (r.setPath p id).packages = r.packages := rfl

@[simp] theorem insert_fst : (r.insert p k).1 = r.store.size := rfl

@[simp] theorem insert_byPath : (r.insert p k).2.byPath = r.byPath := rfl

@[simp] theorem insert_packages : (r.insert p k).2.packages = r.packages := rfl

@[simp] theorem insert_store_size : (r.insert p k).2.store.size = r.store.size + 1 := by
  simp [insert]

@[simp] theorem record?_insert :
    (r.insert p k).2.record? j =
      if j = r.store.size then some ⟨⟨r.store.size, p, k⟩, none, true⟩ else r.record? j := by
  simp [insert, record?, Array.getElem?_push]

theorem record?_setData (d : ModuleData) :
    ({ r with store := r.store.set! id { rec with data := some d } } : Registry).record? j =
      if j = id ∧ id < r.store.size then some { rec with data := some d } else r.record? j := by
  simp only [record?, Array.set!, Array.getElem?_setIfInBounds]
  by_cases hj : id = j
  · subst hj; by_cases hlt : id < r.store.size <;> simp [hlt]
  · simp [hj, Ne.symm hj]

/-- The registry after a source module is created at `p`, where no live module was. -/
theorem WellFormed.atPath?_addModule (hr : r.WellFormed) (hnone : r.atPath? p = none) :
    ((r.insert p .source).2.setPath p r.store.size).atPath? q =
      if q = p then some r.store.size else r.atPath? q := by
  by_cases hq : q = p
  · subst hq
    simp [Registry.atPath?, live?, record?_insert]
  · rw [if_neg hq]
    simp only [Registry.atPath?, live?, lookup_setPath, if_neg hq, record?_setPath, insert_byPath]
    cases hl : r.byPath.lookup q with
    | none => rfl
    | some id' =>
      have hne : id' ≠ r.store.size := Nat.ne_of_lt (hr.bound q id' hl)
      simp [record?_insert, hne]

theorem WellFormed.addModule (hr : r.WellFormed) :
    ((r.insert p .source).2.setPath p r.store.size).WellFormed := by
  refine ⟨fun q id hl => ?_, fun q id rc hl hrc hlive => ?_, fun id rc hrc => ?_,
    fun q pkg hq => hr.packages q pkg (by simpa using hq)⟩
  · rw [lookup_setPath] at hl
    split at hl
    · cases hl; simp
    · have := hr.bound q id hl; simp; omega
  · rw [lookup_setPath] at hl
    rw [record?_setPath, record?_insert] at hrc
    split at hl
    · rename_i hq
      cases hl
      simp only [if_true] at hrc
      cases hrc
      exact hq.symm
    · rename_i hq
      have hne : id ≠ r.store.size := Nat.ne_of_lt (hr.bound q id hl)
      rw [if_neg hne] at hrc
      exact hr.path q id rc hl hrc hlive
  · rw [record?_setPath, record?_insert] at hrc
    split at hrc
    · cases hrc; rfl
    · exact hr.source id rc hrc

theorem record?_lt (h : r.record? id = some rec) : id < r.store.size := by
  simp only [record?] at h
  exact (Array.getElem?_eq_some_iff.1 h).1

theorem WellFormed.setData (hr : r.WellFormed) (hrec : r.record? id = some rec) (d : ModuleData) :
    ({ r with store := r.store.set! id { rec with data := some d } } : Registry).WellFormed := by
  have hsize : (r.store.set! id { rec with data := some d }).size = r.store.size := by simp
  have hrec' : ∀ j rc, ({ r with store := r.store.set! id { rec with data := some d } } :
      Registry).record? j = some rc → ∃ rc', r.record? j = some rc' ∧ rc.module = rc'.module ∧
        rc.live = rc'.live := by
    intro j rc hj
    rw [record?_setData] at hj
    split at hj
    · rename_i hji
      cases hj
      exact ⟨rec, hji.1 ▸ hrec, rfl, rfl⟩
    · exact ⟨rc, hj, rfl, rfl⟩
  refine ⟨fun q j hl => hsize ▸ hr.bound q j hl, fun q j rc hl hrc hlive => ?_,
    fun j rc hrc => ?_, hr.packages⟩
  · obtain ⟨rc', hrc', hm, hl'⟩ := hrec' j rc hrc
    rw [hm]
    exact hr.path q j rc' hl hrc' (hl' ▸ hlive)
  · obtain ⟨rc', hrc', hm, -⟩ := hrec' j rc hrc
    rw [hm]
    exact hr.source j rc' hrc'

/-- Recording what a module declares keeps every path's live module. -/
theorem atPath?_setData (hrec : r.record? id = some rec) (d : ModuleData) :
    ({ r with store := r.store.set! id { rec with data := some d } } : Registry).atPath? q =
      r.atPath? q := by
  simp only [atPath?, live?]
  cases hl : r.byPath.lookup q with
  | none => rfl
  | some j =>
    simp only [Option.bind_some, record?_setData]
    by_cases hj : j = id ∧ id < r.store.size
    · obtain ⟨rfl, -⟩ := hj
      simp [hrec, record?_lt hrec]
    · rw [if_neg hj]

end Registry

/-! ## Mirrors that differ only in what their files remember -/

namespace Vfs

variable {v w : Vfs} {D : Disk} {p q : Path} {data : FileNode} {s : String}

/-- Two mirrors with the same roots and the same nodes, up to what their file nodes remember. -/
structure SameShape (v w : Vfs) : Prop where
  roots : w.roots = v.roots
  detached : w.detached = v.detached
  ignore : w.ignore = v.ignore
  extensions : w.extensions = v.extensions
  keys : w.nodes.map Prod.fst = v.nodes.map Prod.fst
  dir : ∀ q cs, w.node? q = some (.dir cs) ↔ v.node? q = some (.dir cs)
  file : ∀ q, (∃ d, w.node? q = some (.file d)) ↔ ∃ d, v.node? q = some (.file d)

theorem SameShape.refl (v : Vfs) : SameShape v v :=
  ⟨rfl, rfl, rfl, rfl, rfl, fun _ _ => Iff.rfl, fun _ => Iff.rfl⟩

theorem SameShape.trans {u : Vfs} (h₁ : SameShape u v) (h₂ : SameShape v w) : SameShape u w :=
  ⟨h₂.roots.trans h₁.roots, h₂.detached.trans h₁.detached, h₂.ignore.trans h₁.ignore,
    h₂.extensions.trans h₁.extensions, h₂.keys.trans h₁.keys,
    fun q cs => (h₂.dir q cs).trans (h₁.dir q cs), fun q => (h₂.file q).trans (h₁.file q)⟩

/-- Rewriting what a file node remembers keeps the shape. -/
theorem sameShape_setFile (h : v.node? p = some (.file data)) (data' : FileNode) :
    SameShape v (v.setNode p (.file data')) := by
  refine ⟨by simp, by simp, by simp, by simp, setNode_keys_of_node? v _ h, fun q cs => ?_,
    fun q => ?_⟩
  · by_cases hq : q = p
    · subst hq; simp [h]
    · simp [hq]
  · by_cases hq : q = p
    · subst hq; simp [h]
    · simp [hq]

/-- Whether the mirror knows a file depends on its shape only. -/
theorem SameShape.fileExists (h : SameShape v w) (q : Path) :
    w.fileExists D q = v.fileExists D q := by
  have hatt : w.attachedRoot? q.normalize = v.attachedRoot? q.normalize := by
    simp only [attachedRoot?, h.roots]
  have hdet : w.isDetached q.normalize = v.isDetached q.normalize := by
    simp only [isDetached, h.detached]
  unfold Vfs.fileExists
  dsimp only
  rw [hatt, hdet]
  split
  · cases hv : v.node? q.normalize with
    | none =>
      cases hw : w.node? q.normalize with
      | none => rfl
      | some x =>
        cases x with
        | dir cs => simp [(h.dir _ cs).1 hw] at hv
        | file d => obtain ⟨d', hd'⟩ := (h.file _).1 ⟨d, hw⟩; simp [hd'] at hv
    | some x =>
      cases x with
      | dir cs => rw [(h.dir _ cs).2 hv]
      | file d =>
        obtain ⟨d', hd'⟩ := (h.file _).2 ⟨d, hv⟩
        rw [hd']
  · rfl

/-- The nearest file of a name above a path depends on the mirror's shape only. -/
theorem SameShape.closest (h : SameShape v w) (q : Path) (n : String) :
    w.closest D q n = v.closest D q n := by
  simp only [Vfs.closest]
  generalize q.normalize.components.length + 1 = fuel
  generalize q.normalize.parent? = start
  induction fuel generalizing start with
  | zero => rfl
  | succ k ih =>
    cases start with
    | none => rfl
    | some c =>
      have hatt : w.attachedRoot? c = v.attachedRoot? c := by simp only [attachedRoot?, h.roots]
      have hdet : w.isDetached c = v.isDetached c := by simp only [isDetached, h.detached]
      simp only [Vfs.closest.go, h.fileExists, hatt, hdet]
      split
      · rfl
      · split
        · rfl
        · exact ih _

/-- A read through a mirror whose file node at `p` has just remembered what the disk holds
gives what it gave before. -/
theorem readFile_setFile (hnode : v.node? p = some (.file data)) (hnone : data.content = none)
    (hread : D.readLossy p = .ok s) (q : Path) :
    ((v.setNode p (.file { data with content := some s })).readFile D q).1 =
      (v.readFile D q).1 := by
  have hatt : (v.setNode p (.file { data with content := some s })).attachedRoot? q.normalize =
      v.attachedRoot? q.normalize := by
    simp only [attachedRoot?, setNode_roots]
  have hdet : (v.setNode p (.file { data with content := some s })).isDetached q.normalize =
      v.isDetached q.normalize := by
    simp only [isDetached, setNode_detached]
  unfold Vfs.readFile
  dsimp only
  rw [hatt, hdet, node?_setNode]
  by_cases ha : (v.attachedRoot? q.normalize).isNone = true
  · simp only [ha, if_true]
    split
    · rfl
    · split
      · rfl
      · split <;> rfl
  · simp only [ha, Bool.false_eq_true, if_false]
    by_cases hq : q.normalize = p
    · rw [if_pos hq, hq, hnode]
      simp [hnone, hread]
    · rw [if_neg hq]
      split
      · rfl
      · rfl
      · split
        · rfl
        · split <;> rfl

/-- A read through the mirror either leaves it as it is, or has the file node remember what the
disk holds. -/
theorem readFile_snd (v : Vfs) (D : Disk) (p : Path) :
    (v.readFile D p).2 = v ∨ ∃ data s, v.node? p.normalize = some (.file data) ∧
      data.content = none ∧ D.readLossy p.normalize = .ok s ∧
      (v.readFile D p).2 = v.setNode p.normalize (.file { data with content := some s }) := by
  unfold Vfs.readFile
  dsimp only
  split
  · split
    · exact .inl rfl
    · split
      · exact .inl rfl
      · split <;> exact .inl rfl
  · split
    · exact .inl rfl
    · exact .inl rfl
    · rename_i data hdata
      split
      · exact .inl rfl
      · rename_i hc
        split
        · rename_i s' hs
          exact .inr ⟨data, s', hdata, hc, hs, rfl⟩
        · exact .inl rfl

/-- Mirrors of one shape over one disk are exact together. -/
theorem Mirrors.of_sameShape (hM : Mirrors D v) (h : SameShape v w) : Mirrors D w := by
  have hsome : ∀ q x, w.node? q = some x → ∃ y, v.node? q = some y := by
    intro q x hx
    cases x with
    | dir cs => exact ⟨_, (h.dir q cs).1 hx⟩
    | file d => obtain ⟨d', hd'⟩ := (h.file q).1 ⟨d, hx⟩; exact ⟨_, hd'⟩
  have hlisted : ∀ f, Listed D w f ↔ Listed D v f := fun f =>
    listed_congr h.roots h.ignore h.extensions
  have hatt : ∀ q, w.attachedRoot? q = v.attachedRoot? q := fun q => by
    simp only [attachedRoot?, h.roots]
  refine ⟨⟨hM.disk, h.keys ▸ hM.nodup, fun q x hx => ?_, fun q cs hq => hM.plain q cs
    ((h.dir q cs).1 hq), fun r n x hx hr => ?_, fun f d hd => ?_, fun q cs hq => ?_,
    h.roots ▸ hM.rootsNormal, h.roots ▸ hM.rootsAbove, h.ignore ▸ hM.closed⟩, fun f hf => ?_⟩
  · obtain ⟨y, hy⟩ := hsome q x hx
    exact hM.normal q y hy
  · obtain ⟨y, hy⟩ := hsome _ x hx
    obtain ⟨cs, hcs, hn⟩ := hM.linked r n y hy (h.roots ▸ hr)
    exact ⟨cs, (h.dir r cs).2 hcs, hn⟩
  · obtain ⟨d', hd'⟩ := (h.file f).1 ⟨d, hd⟩
    exact (hlisted f).2 (hM.files f d' hd')
  · rw [h.ignore, hatt]
    exact hM.dirs q cs ((h.dir q cs).1 hq)
  · exact (h.file f).2 (hM.complete f ((hlisted f).1 hf))

end Vfs

/-! ## The views -/

namespace Engine

/-- What reading a file through the mirror gives. -/
def readView (e : Engine) (p : Path) : Except VfsError String := (e.vfs.readFile e.disk p).1

/-- The JSON a package file holds; an unreadable or malformed file reads as `{}`. -/
def packageJson (r : Except VfsError String) : Json :=
  match r with
  | .ok content =>
    match Json.parse content with
    | .ok j => j
    | .error _ => .obj []
  | .error _ => .obj []

/-- The package at a path: the one the registry keeps, else the one the file reads as. -/
def packageView (e : Engine) (p : Path) : Package :=
  match e.registry.packages.lookup p with
  | some pkg => pkg
  | none => Package.make p (packageJson (e.readView p))

/-- What the live module at a path has recorded it declares. -/
def recordedData (e : Engine) (p : Path) : Option ModuleData :=
  (e.registry.atPath? p).bind fun id => (e.registry.record? id).bind (·.data)

/-- What the content memo holds for a path's declarations, when it reads back. -/
def memoData (e : Engine) (p : Path) : Option ModuleData :=
  match (e.cache.lookup p "moduleData").map ModuleData.ofJson with
  | some (.ok d) => some d
  | _ => none

/-- The global name a file declares, as the engine reads it now: from the module's record,
else from the content memo, else from the file. -/
def declaredName (e : Engine) (p : Path) : Except Error (Option String) :=
  match e.recordedData p with
  | some d => .ok d.hasteId
  | none =>
    match e.memoData p with
    | some d => .ok d.hasteId
    | none =>
      match e.readView p with
      | .ok s => .ok (Docblock.parse s).providesModule?
      | .error err => .error (.vfs err)

/-- Whether code at a path takes part in global naming: it lies outside `node_modules`, or the
nearest package file above it sits at the top of a root. -/
def compatible (e : Engine) (g : Path) : Bool :=
  !g.components.contains (.name "node_modules") ||
    (e.vfs.closest e.disk g "package.json").any fun p =>
      e.vfs.roots.contains (p.normalize.parent?.getD Path.empty)

/-- The global name a file registers, as the engine detects it now. -/
def detected (e : Engine) (g : Path) : Except Error (Option (String × HasteEntry)) :=
  if g.fileName? = some "package.json" then
    let pkg := e.packageView g
    .ok (match pkg.name? with
      | some name => if e.vfs.roots.contains pkg.root then some (name, .package pkg.path) else none
      | none => none)
  else if g.extension? != some "js" then .ok none
  else if !e.compatible g then .ok none
  else (e.declaredName g).map (Option.map fun hid => (hid, .module g))

/-! ## Filling caches -/

/-- One cache fill: the mirror remembers a file's content as the disk holds it, the registry
creates the module of a path, records what a module that has recorded nothing declares, as the
engine reads it, or keeps a path's package as it reads. A fill of the declarations that found
nothing readable in the content memo also stores them there, at the file's modification time. -/
inductive Fill : Engine → Engine → Prop
  | content {e : Engine} {p : Path} {data : FileNode} {s : String}
      (hnode : e.vfs.node? p = some (.file data)) (hnone : data.content = none)
      (hread : e.disk.readLossy p = .ok s) :
      Fill e { e with vfs := e.vfs.setNode p (.file { data with content := some s }) }
  | module {e : Engine} {p : Path} (hnone : e.registry.atPath? p = none) :
      Fill e { e with registry := (e.registry.insert p .source).2.setPath p e.registry.store.size }
  | data {e : Engine} {p : Path} {id : Nat} {rec : ModuleRecord} {d : ModuleData}
      {c : ContentCache} (hid : e.registry.atPath? p = some id)
      (hrec : e.registry.record? id = some rec) (hnodata : rec.data = none)
      (hd : e.declaredName p = .ok d.hasteId)
      (hc : c = e.cache ∨
        e.memoData p = none ∧ c = e.cache.store p "moduleData" d.toJson (e.disk.mtime? p)) :
      Fill e { e with
        cache := c
        registry := { e.registry with store := e.registry.store.set! id { rec with data := some d } } }
  | package {e : Engine} {p : Path} (hnone : e.registry.packages.lookup p = none) :
      Fill e { e with registry := { e.registry with
        packages := (p, e.packageView p) :: e.registry.packages } }

/-- Cache fills, one after another. -/
abbrev Fills : Engine → Engine → Prop := Relation.ReflTransGen Fill

/-- What a run of fills keeps: the disk, the name index and its error flag, the mirror's shape,
the registry's well-formedness and its live modules, and every view detection reads. -/
structure Keeps (e e' : Engine) : Prop where
  disk : e'.disk = e.disk
  haste : e'.haste = e.haste
  hasteError : e'.hasteError = e.hasteError
  shape : Vfs.SameShape e.vfs e'.vfs
  wellFormed : e.registry.WellFormed → e'.registry.WellFormed
  atPath : e.registry.WellFormed → ∀ q id, e.registry.atPath? q = some id →
    e'.registry.atPath? q = some id
  readView : ∀ q, e'.readView q = e.readView q
  packageView : ∀ q, e'.packageView q = e.packageView q
  declaredName : e.registry.WellFormed → ∀ q, e'.declaredName q = e.declaredName q

namespace Keeps

theorem refl (e : Engine) : Keeps e e :=
  ⟨rfl, rfl, rfl, .refl _, id, fun _ _ _ => id, fun _ => rfl, fun _ => rfl, fun _ _ => rfl⟩

theorem trans {e₁ e₂ e₃ : Engine} (h₁ : Keeps e₁ e₂) (h₂ : Keeps e₂ e₃) : Keeps e₁ e₃ :=
  ⟨h₂.disk.trans h₁.disk, h₂.haste.trans h₁.haste, h₂.hasteError.trans h₁.hasteError,
    h₁.shape.trans h₂.shape, fun hR => h₂.wellFormed (h₁.wellFormed hR),
    fun hR q id h => h₂.atPath (h₁.wellFormed hR) q id (h₁.atPath hR q id h),
    fun q => (h₂.readView q).trans (h₁.readView q),
    fun q => (h₂.packageView q).trans (h₁.packageView q),
    fun hR q => (h₂.declaredName (h₁.wellFormed hR) q).trans (h₁.declaredName hR q)⟩

variable {e e' : Engine} (h : Keeps e e')
include h

/-- The nearest package file above a path is found where it was. -/
theorem closest (q : Path) (n : String) :
    e'.vfs.closest e'.disk q n = e.vfs.closest e.disk q n := by
  rw [h.disk, h.shape.closest]

theorem compatible (g : Path) : e'.compatible g = e.compatible g := by
  simp only [Engine.compatible, h.closest, h.shape.roots]

/-- Detection reads what it read before. -/
theorem detected (hR : e.registry.WellFormed) (g : Path) : e'.detected g = e.detected g := by
  simp only [Engine.detected, h.packageView, h.shape.roots, h.compatible, h.declaredName hR]

end Keeps

/-- The declared name depends on the record, the memo and the read of a path only. -/
theorem declaredName_congr {e e' : Engine} {q : Path} (hrec : e'.recordedData q = e.recordedData q)
    (hmemo : e'.memoData q = e.memoData q) (hread : e'.readView q = e.readView q) :
    e'.declaredName q = e.declaredName q := by
  simp only [declaredName, hrec, hmemo, hread]

/-- Each fill keeps what detection reads. -/
theorem Fill.keeps {e e' : Engine} (h : Fill e e') : Keeps e e' := by
  cases h with
  | @content p data s hnode hnone hread =>
    have hread' := Vfs.readFile_setFile hnode hnone hread
    refine ⟨rfl, rfl, rfl, Vfs.sameShape_setFile hnode _, id, fun _ _ _ => id, fun q => hread' q,
      fun q => ?_, fun _ q => declaredName_congr rfl rfl (hread' q)⟩
    simp only [packageView, readView, hread']
  | @module p hnone =>
    refine ⟨rfl, rfl, rfl, .refl _, fun hR => hR.addModule, fun hR q id hq => ?_, fun _ => rfl,
      fun q => by simp [packageView, readView], fun hR q => declaredName_congr ?_ rfl rfl⟩
    · -- the new module sits where no live module was
      have hqp : q ≠ p := by rintro rfl; simp [hnone] at hq
      simp only [hR.atPath?_addModule hnone, if_neg hqp, hq]
    simp only [recordedData, hR.atPath?_addModule hnone]
    split
    · rename_i hq
      subst hq
      simp [hnone]
    · cases ha : e.registry.atPath? q with
      | none => rfl
      | some id' =>
        have hne : id' ≠ e.registry.store.size :=
          Nat.ne_of_lt (Registry.record?_lt (hR.atPath? ha).choose_spec.1)
        simp [hne]
  | @data p id rec d c hid hrec _ hd hc =>
    refine ⟨rfl, rfl, rfl, .refl _, fun hR => hR.setData hrec d,
      fun _ q _ hq => (Registry.atPath?_setData hrec d).trans hq, fun _ => rfl, fun q => rfl,
      fun hR q => ?_⟩
    by_cases hq : q = p
    · subst hq
      rw [hd]
      have hrecorded : (({ e with
          cache := c
          registry := { e.registry with
            store := e.registry.store.set! id { rec with data := some d } } } : Engine)).recordedData
            q = some d := by
        simp only [recordedData]
        rw [Registry.atPath?_setData hrec, hid, Option.bind_some, Registry.record?_setData,
          if_pos ⟨rfl, Registry.record?_lt hrec⟩]
        rfl
      simp only [declaredName, hrecorded]
    · refine declaredName_congr ?_ ?_ rfl
      · simp only [recordedData]
        rw [Registry.atPath?_setData hrec]
        cases ha : e.registry.atPath? q with
        | none => rfl
        | some id' =>
          have hne : id' ≠ id := fun h => hq (hR.atPath?_inj (h ▸ ha) hid)
          simp only [Option.bind_some]
          rw [Registry.record?_setData, if_neg (fun h => hne h.1)]
      · rcases hc with rfl | ⟨-, rfl⟩
        · rfl
        · simp only [memoData, ContentCache.lookup_store_ne hq]
  | @package p hnone =>
    refine ⟨rfl, rfl, rfl, .refl _, fun hR => ⟨hR.bound, hR.path, hR.source, ?_⟩,
      fun _ _ _ => id, fun _ => rfl, fun q => ?_, fun _ q => rfl⟩
    · intro q pkg hq
      by_cases hqp : q = p
      · subst hqp
        have hpkg : pkg = e.packageView q := by simpa [List.lookup] using hq.symm
        subst hpkg
        simp [packageView, hnone, Package.make]
      · have hb : (q == p) = false := by simpa using hqp
        simp only [List.lookup_cons, hb] at hq
        exact hR.packages q pkg hq
    · by_cases hqp : q = p
      · subst hqp; simp [packageView]
      · have hb : (q == p) = false := by simpa using hqp
        simp only [packageView, List.lookup_cons, hb]
        rfl

/-- A run of fills keeps what detection reads. -/
theorem Fills.keeps {e e' : Engine} (h : Fills e e') : Keeps e e' := by
  induction h with
  | refl => exact .refl _
  | tail _ hstep ih => exact ih.trans hstep.keeps

end Engine

end ModuleBundler
