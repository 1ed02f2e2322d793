import ModuleBundler.Proofs.Engine.Detect
import ModuleBundler.Engine.Graph

/-!
# What a file change does to the engine

A change at a path runs through the registry first: the packages lose the path, a live module
there dies, and unless the change is a deletion a fresh module takes its place
(`run_registryChange`). What the registry then knows is what it knew, except at the changed path,
where nothing is known (`ResetOn`, `run_registryChange_resetOn`). A run of changes resets the
union of their paths.

The name index then takes the change: the slots of the path are dropped unless the file is new,
and the name the file declares, as the engine detects it now, is registered (`hasteStep`,
`run_hasteChange`). A watcher event runs both halves over the files it changes, or rebuilds the
index when its error flag is up (`run_graphChange`).
-/

namespace ModuleBundler
open EngineM

namespace Registry

variable {r : Registry} {p q : Path} {id : Nat}

@[simp] theorem setDependerKeys_store (keys : List ResolutionKey) :
    (r.setDependerKeys id keys).store = r.store := rfl

@[simp] theorem setDependerKeys_byPath (keys : List ResolutionKey) :
    (r.setDependerKeys id keys).byPath = r.byPath := rfl

@[simp] theorem setDependerKeys_packages (keys : List ResolutionKey) :
    (r.setDependerKeys id keys).packages = r.packages := rfl

/-- A fold of updates that leave the modules, paths and packages alone leaves them alone. -/
theorem foldl_keeps_core {α : Type} (g : Registry → α → Registry)
    (hg : ∀ r x, (g r x).store = r.store ∧ (g r x).byPath = r.byPath ∧ (g r x).packages = r.packages) :
    ∀ (l : List α) (r : Registry), (l.foldl g r).store = r.store ∧ (l.foldl g r).byPath = r.byPath ∧
      (l.foldl g r).packages = r.packages
  | [], _ => ⟨rfl, rfl, rfl⟩
  | x :: l, r => by
    obtain ⟨h₁, h₂, h₃⟩ := foldl_keeps_core g hg l (g r x)
    obtain ⟨h₁', h₂', h₃'⟩ := hg r x
    exact ⟨h₁.trans h₁', h₂.trans h₂', h₃.trans h₃'⟩

/-- Forgetting the resolutions a module made touches the resolution tables only. -/
theorem unlinkOutgoing_core (r : Registry) (id : Nat) :
    (r.unlinkOutgoing id).store = r.store ∧ (r.unlinkOutgoing id).byPath = r.byPath ∧
      (r.unlinkOutgoing id).packages = r.packages := by
  unfold unlinkOutgoing
  refine foldl_keeps_core _ (fun r x => ?_) _ _
  obtain ⟨key, target⟩ := x
  dsimp only
  split <;> exact ⟨rfl, rfl, rfl⟩

@[simp] theorem unlinkOutgoing_store (r : Registry) (id : Nat) :
    (r.unlinkOutgoing id).store = r.store := (unlinkOutgoing_core r id).1

@[simp] theorem unlinkOutgoing_byPath (r : Registry) (id : Nat) :
    (r.unlinkOutgoing id).byPath = r.byPath := (unlinkOutgoing_core r id).2.1

@[simp] theorem unlinkOutgoing_packages (r : Registry) (id : Nat) :
    (r.unlinkOutgoing id).packages = r.packages := (unlinkOutgoing_core r id).2.2

/-- What a change at `p` leaves of a registry: away from `p` every live module and its record
stay, and so does every kept package; at `p` no package is kept and a live module, if any, has
recorded nothing. -/
structure ClearedAt (p : Path) (r r' : Registry) : Prop where
  atPath : ∀ q, q ≠ p → r'.atPath? q = r.atPath? q
  record : ∀ q id, q ≠ p → r.atPath? q = some id → r'.record? id = r.record? id
  self : ∀ id rec, r'.atPath? p = some id → r'.record? id = some rec → rec.data = none
  packages : ∀ q, q ≠ p → r'.packages.lookup q = r.packages.lookup q
  packages_self : r'.packages.lookup p = none

theorem lookup_packages_filter {β : Type} {pkgs : List (Path × β)} :
    (∀ q, q ≠ p → (pkgs.filter (·.1 != p)).lookup q = pkgs.lookup q) ∧
      (pkgs.filter (·.1 != p)).lookup p = none := by
  refine ⟨fun q hq => lookup_filter_ne hq pkgs, ?_⟩
  rw [List.lookup_eq_none_iff]
  intro x hx
  have hne : x.1 ≠ p := by simpa using (List.mem_filter.1 hx).2
  simpa using Ne.symm hne

variable {r' : Registry}

/-- A live module other than `old` sits at a path other than that of `old`. -/
theorem WellFormed.ne_of_atPath? (hr : r.WellFormed) {old : Nat} (hold : r.atPath? p = some old)
    (hq : q ≠ p) (hid : r.atPath? q = some id) : id ≠ old := by
  rintro rfl
  exact hq (hr.atPath?_inj hid hold)

/-- Killing the module at `p`, and maybe putting a fresh one there: away from `p`, the registry
answers as before. -/
theorem WellFormed.atPath?_kill (hr : r.WellFormed) {old : Nat} (hold : r.atPath? p = some old)
    (hstore : ∀ id, id < r.store.size → id ≠ old → r'.record? id = r.record? id)
    (hbyPath : ∀ q, q ≠ p → r'.byPath.lookup q = r.byPath.lookup q) (hq : q ≠ p) :
    r'.atPath? q = r.atPath? q := by
  simp only [Registry.atPath?, hbyPath q hq]
  cases hl : r.byPath.lookup q with
  | none => rfl
  | some id =>
    have hlt := hr.bound q id hl
    by_cases hid : id = old
    · -- `old` is live at `p`, so nothing else points at it while it lives
      subst hid
      obtain ⟨rec, hrec, hlive, hpath, -⟩ := hr.atPath? hold
      exact absurd (hpath.symm.trans (hr.path q id rec hl hrec hlive)) (Ne.symm hq)
    · simp only [Option.bind_some, Registry.live?, hstore id hlt hid]

/-- A registry whose modules and paths are those of `r`, and whose packages drop `p`, where no
live module was at `p`. -/
theorem WellFormed.cleared_same (hr : r.WellFormed) (hnone : r.atPath? p = none)
    (hstore : r'.store = r.store) (hbyPath : r'.byPath = r.byPath)
    (hpk : r'.packages = r.packages.filter (·.1 != p)) : r'.WellFormed ∧ ClearedAt p r r' := by
  have hrec : ∀ id, r'.record? id = r.record? id := fun id => by simp [record?, hstore]
  have hat : ∀ q, r'.atPath? q = r.atPath? q := fun q => by
    simp [Registry.atPath?, Registry.live?, hrec, hbyPath]
  refine ⟨⟨fun q id hl => ?_, fun q id rc hl hrc hlive => ?_, fun id rc hrc => ?_,
    fun q pkg hq => ?_⟩, ⟨fun q _ => hat q, fun q id _ _ => hrec id, ?_, fun q hq => ?_, ?_⟩⟩
  · rw [hbyPath] at hl; rw [hstore]; exact hr.bound q id hl
  · rw [hbyPath] at hl; rw [hrec] at hrc; exact hr.path q id rc hl hrc hlive
  · rw [hrec] at hrc; exact hr.source id rc hrc
  · rw [hpk] at hq
    by_cases hqp : q = p
    · subst hqp; simp [lookup_packages_filter.2] at hq
    · exact hr.packages q pkg (by rwa [lookup_packages_filter.1 q hqp] at hq)
  · intro id rc h; rw [hat, hnone] at h; cases h
  · rw [hpk]; exact lookup_packages_filter.1 q hq
  · rw [hpk]; exact lookup_packages_filter.2

/-- Marking a module dead. -/
def kill (rc : ModuleRecord) : ModuleRecord := { rc with live := false }

/-- The registry once the live module `old` at `p` is dead and `p` points nowhere. -/
theorem WellFormed.cleared_kill (hr : r.WellFormed) {old : Nat} (hold : r.atPath? p = some old)
    (hstore : r'.store = r.store.modify old kill)
    (hbyPath : r'.byPath = r.byPath.filter (·.1 != p))
    (hpk : r'.packages = r.packages.filter (·.1 != p)) : r'.WellFormed ∧ ClearedAt p r r' := by
  have hrec : ∀ id, r'.record? id = if old = id then (r.record? id).map kill else r.record? id :=
    fun id => by simp only [record?, hstore, Array.getElem?_modify]
  have hkeep : ∀ id, id ≠ old → r'.record? id = r.record? id := fun id hid => by
    rw [hrec, if_neg (Ne.symm hid)]
  have hsize : r'.store.size = r.store.size := by simp [hstore]
  -- away from `p` the paths point where they did, and `p` points nowhere
  have hl : ∀ q, r'.byPath.lookup q = if q = p then none else r.byPath.lookup q := fun q => by
    rw [hbyPath]
    split
    · subst q; exact lookup_packages_filter.2
    · exact lookup_packages_filter.1 q ‹_›
  have hat : ∀ q, q ≠ p → r'.atPath? q = r.atPath? q := fun q hq =>
    hr.atPath?_kill hold (fun id _ hid => hkeep id hid) (fun q hq => by rw [hl, if_neg hq]) hq
  refine ⟨⟨fun q id hq => ?_, fun q id rc hq hrc hlive => ?_, fun id rc hrc => ?_,
    fun q pkg hq => ?_⟩, ⟨hat, fun q id hq hid => hkeep id (hr.ne_of_atPath? hold hq hid), ?_,
    fun q hq => by rw [hpk]; exact lookup_packages_filter.1 q hq, by
      rw [hpk]; exact lookup_packages_filter.2⟩⟩
  · rw [hl] at hq
    split at hq
    · cases hq
    · rw [hsize]; exact hr.bound q id hq
  · rw [hl] at hq
    split at hq
    · cases hq
    · rw [hrec] at hrc
      split at hrc
      · -- the dead module is not live
        obtain ⟨rc₀, -, rfl⟩ := Option.map_eq_some_iff.1 hrc
        simp [kill] at hlive
      · exact hr.path q id rc hq hrc hlive
  · rw [hrec] at hrc
    split at hrc
    · obtain ⟨rc₀, hrc₀, rfl⟩ := Option.map_eq_some_iff.1 hrc
      exact hr.source id rc₀ hrc₀
    · exact hr.source id rc hrc
  · rw [hpk] at hq
    by_cases hqp : q = p
    · subst hqp; simp [lookup_packages_filter.2] at hq
    · exact hr.packages q pkg (by rwa [lookup_packages_filter.1 q hqp] at hq)
  · intro id rc h
    simp [Registry.atPath?, hl] at h

/-- The registry once the live module `old` at `p` is dead and a fresh source module stands at
`p` in its place. -/
theorem WellFormed.cleared_replace (hr : r.WellFormed) {old : Nat} (hold : r.atPath? p = some old)
    (hstore : r'.store = (r.store.modify old kill).push ⟨⟨r.store.size, p, .source⟩, none, true⟩)
    (hbyPath : r'.byPath = (p, r.store.size) :: (r.byPath.filter (·.1 != p)).filter (·.1 != p))
    (hpk : r'.packages = r.packages.filter (·.1 != p)) : r'.WellFormed ∧ ClearedAt p r r' := by
  have hrec : ∀ id, r'.record? id = if id = r.store.size then some ⟨⟨r.store.size, p, .source⟩, none, true⟩
      else if old = id then (r.record? id).map kill else r.record? id := fun id => by
    simp only [record?, hstore, Array.getElem?_push, Array.size_modify, Array.getElem?_modify]
  have hkeep : ∀ id, id < r.store.size → id ≠ old → r'.record? id = r.record? id :=
    fun id hlt hid => by rw [hrec, if_neg (Nat.ne_of_lt hlt), if_neg (Ne.symm hid)]
  have hsize : r'.store.size = r.store.size + 1 := by simp [hstore]
  have hl : ∀ q, r'.byPath.lookup q = if q = p then some r.store.size else r.byPath.lookup q := by
    intro q
    rw [hbyPath]
    split
    · subst q; simp
    · have hb : (q == p) = false := by simpa using ‹q ≠ p›
      simp only [List.lookup_cons, hb]
      rw [lookup_packages_filter.1 q ‹_›, lookup_packages_filter.1 q ‹_›]
  have hat : ∀ q, q ≠ p → r'.atPath? q = r.atPath? q := fun q hq =>
    hr.atPath?_kill hold hkeep (fun q hq => by rw [hl, if_neg hq]) hq
  refine ⟨⟨fun q id hq => ?_, fun q id rc hq hrc hlive => ?_, fun id rc hrc => ?_,
    fun q pkg hq => ?_⟩, ⟨hat, fun q id hq hid => ?_, ?_,
    fun q hq => by rw [hpk]; exact lookup_packages_filter.1 q hq, by
      rw [hpk]; exact lookup_packages_filter.2⟩⟩
  · rw [hl] at hq
    split at hq
    · cases hq; omega
    · have := hr.bound q id hq; omega
  · rw [hl] at hq
    split at hq
    · cases hq
      rw [hrec, if_pos rfl] at hrc
      cases hrc
      exact (‹q = p›).symm
    · have hlt := hr.bound q id hq
      rw [hrec, if_neg (Nat.ne_of_lt hlt)] at hrc
      split at hrc
      · obtain ⟨rc₀, -, rfl⟩ := Option.map_eq_some_iff.1 hrc
        simp [kill] at hlive
      · exact hr.path q id rc hq hrc hlive
  · rw [hrec] at hrc
    split at hrc
    · cases hrc; rfl
    · split at hrc
      · obtain ⟨rc₀, hrc₀, rfl⟩ := Option.map_eq_some_iff.1 hrc
        exact hr.source id rc₀ hrc₀
      · exact hr.source id rc hrc
  · rw [hpk] at hq
    by_cases hqp : q = p
    · subst hqp; simp [lookup_packages_filter.2] at hq
    · exact hr.packages q pkg (by rwa [lookup_packages_filter.1 q hqp] at hq)
  · obtain ⟨-, rc, hrc, -⟩ := atPath?_eq_some.1 hid
    exact hkeep id (record?_lt hrc) (hr.ne_of_atPath? hold hq hid)
  · intro id rc h hrc
    simp only [Registry.atPath?, hl, if_true, Option.bind_some, Registry.live?, hrec] at h
    simp only [Option.map_some] at h
    cases h
    rw [hrec, if_pos rfl] at hrc
    cases hrc
    rfl

end Registry

/-- Dropping a path from the content memo keeps the entry of every other path. -/
theorem ContentCache.find?_invalidate (c : ContentCache) {p q : Path} (hq : q ≠ p) :
    (c.invalidate p).2.entries.find? (·.1 = q) = c.entries.find? (·.1 = q) := by
  simp only [ContentCache.invalidate, List.find?_filter]
  have hpred : (fun x : Path × CacheEntry => decide ((x.1 != p) = true ∧ decide (x.1 = q) = true)) =
      fun x => decide (x.1 = q) := by
    funext x
    by_cases hx : x.1 = q
    · subst hx; simp [hq]
    · simp [hx]
  rw [hpred]

/-- Dropping a path from the content memo forgets its values and keeps every other path's. -/
theorem ContentCache.lookup_invalidate (c : ContentCache) (p q : Path) (f : String) :
    (c.invalidate p).2.lookup q f = if q = p then none else c.lookup q f := by
  simp only [ContentCache.invalidate, ContentCache.lookup, List.find?_filter]
  split
  · subst q
    have : c.entries.find? (fun x => (x.1 != p) = true ∧ decide (x.1 = p) = true) = none := by
      rw [List.find?_eq_none]
      intro x _ h
      simp at h
    rw [this]; rfl
  · rename_i hq
    rw [← List.find?_filter, ← ContentCache.find?_invalidate c hq]
    rfl

/-- The index a change starts from: an added file holds no slots yet, any other change drops
the slots of its path. -/
def HasteMap.clearFor (h : HasteMap) (fc : FileChange) : HasteMap :=
  if fc.kind = .add then h else h.removePath fc.path


namespace Engine
variable {c : Context} {e : Engine}

/-- What a change does to the registry, as far as modules and packages go: the packages lose the
changed path; a live module at the path dies, and unless the change is a deletion a fresh source
module takes its place. -/
theorem run_registryChange (hR : e.registry.WellFormed) (fc : FileChange) :
    ∃ r, run (registryChange fc) c e =
      (.ok (), { e with cache := (e.cache.invalidate fc.path).2, registry := r }) ∧
      r.packages = e.registry.packages.filter (·.1 != fc.path) ∧
      ((e.registry.atPath? fc.path = none ∧ r.store = e.registry.store ∧
          r.byPath = e.registry.byPath) ∨
        ∃ old, e.registry.atPath? fc.path = some old ∧
          ((fc.kind = .delete ∧
              r.store = e.registry.store.modify old Registry.kill ∧
              r.byPath = e.registry.byPath.filter (·.1 != fc.path)) ∨
            (fc.kind ≠ .delete ∧
              r.store = (e.registry.store.modify old Registry.kill).push
                ⟨⟨e.registry.store.size, fc.path, .source⟩, none, true⟩ ∧
              r.byPath = (fc.path, e.registry.store.size) ::
                (e.registry.byPath.filter (·.1 != fc.path)).filter (·.1 != fc.path)))) := by
  cases hat : e.registry.atPath? fc.path with
  | none =>
    simp only [registryChange, run_bind, run_modify, run_get, modifyRegistry, hat]
    refine ⟨_, rfl, ?_, .inl ⟨by trivial, ?_, ?_⟩⟩ <;> split <;> rfl
  | some old =>
    obtain ⟨rec, hrec, hlive, -, hkind⟩ := hR.atPath? hat
    have hlive' : (e.registry.live? old).map Module.kind = some .source := by
      simp [Registry.live?, hrec, hlive, hkind]
    simp only [registryChange, run_bind, run_modify, run_get, modifyRegistry, hat, hlive',
      Option.getD_some]
    refine ⟨_, rfl, ?_, .inr ⟨old, by trivial, ?_⟩⟩ <;> cases fc.kind <;>
      simp only [reduceCtorEq, if_false, if_true, ne_eq, not_false_eq_true, true_and, false_and,
        false_or, or_false, not_true_eq_false] <;> (try split) <;>
      simp [Registry.insert, Registry.setPath] <;> rfl

/-- A change leaves a well-formed registry that has forgotten what it knew at the changed path
and nothing else. -/
theorem run_registryChange_cleared (hR : e.registry.WellFormed) (fc : FileChange) :
    ∃ r, run (registryChange fc) c e =
      (.ok (), { e with cache := (e.cache.invalidate fc.path).2, registry := r }) ∧
      r.WellFormed ∧ Registry.ClearedAt fc.path e.registry r := by
  obtain ⟨r, hrun, hpk, hcases⟩ := run_registryChange (c := c) hR fc
  refine ⟨r, hrun, ?_⟩
  rcases hcases with ⟨hnone, hstore, hbyPath⟩ | ⟨old, hold, ⟨-, hstore, hbyPath⟩ | ⟨-, hstore, hbyPath⟩⟩
  · exact hR.cleared_same hnone hstore hbyPath hpk
  · exact hR.cleared_kill hold hstore hbyPath hpk
  · exact hR.cleared_replace hold hstore hbyPath hpk

/-- What registry changes on the paths `P` leave: the disk, the mirror and the name index as they
were, a well-formed registry, and of what the engine knows of modules, packages and memo entries,
the same off `P` and nothing on `P`. -/
structure ResetOn (P : Path → Prop) (e e' : Engine) : Prop where
  disk : e'.disk = e.disk
  vfs : e'.vfs = e.vfs
  haste : e'.haste = e.haste
  hasteError : e'.hasteError = e.hasteError
  wellFormed : e'.registry.WellFormed
  recorded : ∀ q, ¬ P q → e'.recordedData q = e.recordedData q
  memo : ∀ q, ¬ P q → e'.memoData q = e.memoData q
  packages : ∀ q, ¬ P q → e'.registry.packages.lookup q = e.registry.packages.lookup q
  recorded_on : ∀ q, P q → e'.recordedData q = none
  memo_on : ∀ q, P q → e'.memoData q = none
  packages_on : ∀ q, P q → e'.registry.packages.lookup q = none
  atPath : ∀ q, ¬ P q → e'.registry.atPath? q = e.registry.atPath? q
  record : ∀ q id, ¬ P q → e.registry.atPath? q = some id →
    e'.registry.record? id = e.registry.record? id
  entries : ∀ q, ¬ P q → e'.cache.entries.find? (·.1 = q) = e.cache.entries.find? (·.1 = q)

namespace ResetOn

variable {P Q : Path → Prop} {e₁ e₂ e₃ : Engine}

theorem refl (hR : e.registry.WellFormed) : ResetOn (fun _ => False) e e :=
  ⟨rfl, rfl, rfl, rfl, hR, fun _ _ => rfl, fun _ _ => rfl, fun _ _ => rfl, fun _ h => h.elim,
    fun _ h => h.elim, fun _ h => h.elim, fun _ _ => rfl, fun _ _ _ _ => rfl, fun _ _ => rfl⟩

theorem trans (h₁ : ResetOn P e₁ e₂) (h₂ : ResetOn Q e₂ e₃) :
    ResetOn (fun q => P q ∨ Q q) e₁ e₃ := by
  refine ⟨h₂.disk.trans h₁.disk, h₂.vfs.trans h₁.vfs, h₂.haste.trans h₁.haste,
    h₂.hasteError.trans h₁.hasteError, h₂.wellFormed, fun q hq => ?_, fun q hq => ?_,
    fun q hq => ?_, fun q hq => ?_, fun q hq => ?_, fun q hq => ?_, fun q hq => ?_,
    fun q id hq hid => ?_, fun q hq => ?_⟩
  · exact (h₂.recorded q fun h => hq (.inr h)).trans (h₁.recorded q fun h => hq (.inl h))
  · exact (h₂.memo q fun h => hq (.inr h)).trans (h₁.memo q fun h => hq (.inl h))
  · exact (h₂.packages q fun h => hq (.inr h)).trans (h₁.packages q fun h => hq (.inl h))
  -- on `P ∨ Q`: the second run resets `Q`, and leaves what the first reset on `P`
  · by_cases hQ : Q q
    · exact h₂.recorded_on q hQ
    · exact (h₂.recorded q hQ).trans (h₁.recorded_on q (hq.resolve_right hQ))
  · by_cases hQ : Q q
    · exact h₂.memo_on q hQ
    · exact (h₂.memo q hQ).trans (h₁.memo_on q (hq.resolve_right hQ))
  · by_cases hQ : Q q
    · exact h₂.packages_on q hQ
    · exact (h₂.packages q hQ).trans (h₁.packages_on q (hq.resolve_right hQ))
  -- off `P ∨ Q`: each run keeps what the one before it left
  · exact (h₂.atPath q fun h => hq (.inr h)).trans (h₁.atPath q fun h => hq (.inl h))
  · have hid₂ : e₂.registry.atPath? q = some id := (h₁.atPath q fun h => hq (.inl h)).trans hid
    exact (h₂.record q id (fun h => hq (.inr h)) hid₂).trans (h₁.record q id (fun h => hq (.inl h)) hid)
  · exact (h₂.entries q fun h => hq (.inr h)).trans (h₁.entries q fun h => hq (.inl h))

theorem congr (h : ResetOn P e₁ e₂) (hPQ : ∀ q, P q ↔ Q q) : ResetOn Q e₁ e₂ :=
  ⟨h.disk, h.vfs, h.haste, h.hasteError, h.wellFormed,
    fun q hq => h.recorded q fun hp => hq ((hPQ q).1 hp),
    fun q hq => h.memo q fun hp => hq ((hPQ q).1 hp),
    fun q hq => h.packages q fun hp => hq ((hPQ q).1 hp),
    fun q hq => h.recorded_on q ((hPQ q).2 hq), fun q hq => h.memo_on q ((hPQ q).2 hq),
    fun q hq => h.packages_on q ((hPQ q).2 hq),
    fun q hq => h.atPath q fun hp => hq ((hPQ q).1 hp),
    fun q id hq => h.record q id fun hp => hq ((hPQ q).1 hp),
    fun q hq => h.entries q fun hp => hq ((hPQ q).1 hp)⟩

/-- Off the reset paths, detection reads what it read before. -/
theorem detected (h : ResetOn P e₁ e₂) {q : Path} (hq : ¬ P q) : e₂.detected q = e₁.detected q := by
  have hread : ∀ q, e₂.readView q = e₁.readView q := fun q => by
    simp only [readView, h.vfs, h.disk]
  have hpkg : e₂.packageView q = e₁.packageView q := by
    simp only [packageView, h.packages q hq, hread]
  have hcompat : e₂.compatible q = e₁.compatible q := by
    simp only [compatible, h.vfs, h.disk]
  have hdecl : e₂.declaredName q = e₁.declaredName q :=
    declaredName_congr (h.recorded q hq) (h.memo q hq) (hread q)
  simp only [Engine.detected, hpkg, hcompat, hdecl, h.vfs]

end ResetOn

/-- A change at one path resets that path. -/
theorem run_registryChange_resetOn (hR : e.registry.WellFormed) (fc : FileChange) :
    ∃ e', run (registryChange fc) c e = (.ok (), e') ∧ ResetOn (· = fc.path) e e' := by
  obtain ⟨r, hrun, hr, hC⟩ := run_registryChange_cleared (c := c) hR fc
  refine ⟨_, hrun, rfl, rfl, rfl, rfl, hr, fun q hq => ?_, fun q hq => ?_, hC.packages,
    fun q hq => ?_, fun q hq => ?_, fun q hq => ?_, hC.atPath, hC.record,
    fun q hq => (e.cache.find?_invalidate hq)⟩
  · simp only [recordedData, hC.atPath q hq]
    cases hat : e.registry.atPath? q with
    | none => rfl
    | some id => simp only [Option.bind_some, hC.record q id hq hat]
  · simp only [memoData, ContentCache.lookup_invalidate, if_neg hq]
  · subst hq
    simp only [recordedData]
    cases hat : r.atPath? fc.path with
    | none => rfl
    | some id =>
      cases hrec : r.record? id with
      | none => simp [hrec]
      | some rec => simp [hrec, hC.self id rec hat hrec]
  · subst hq
    simp [memoData, ContentCache.lookup_invalidate]
  · subst hq
    exact hC.packages_self

/-- A fill reads neither the name index nor its error flag. -/
theorem Fill.withIndex {e e' : Engine} (hF : Fill e e') (h : HasteMap) (b : Bool) :
    Fill { e with haste := h, hasteError := b } { e' with haste := h, hasteError := b } := by
  cases hF with
  | content hnode hnone hread => exact .content hnode hnone hread
  | module hnone => exact .module hnone
  | data hid hrec hnodata hd hc => exact .data hid hrec hnodata hd hc
  | package hnone => exact .package hnone

theorem Fills.withIndex {e e' : Engine} (hF : Fills e e') (h : HasteMap) (b : Bool) :
    Fills { e with haste := h, hasteError := b } { e' with haste := h, hasteError := b } := by
  induction hF with
  | refl => exact .refl
  | tail _ hstep ih => exact ih.tail (hstep.withIndex h b)

/-- Whether a path names a file a scan reads: a `.js` or `.json` file. -/
def Scanned (g : Path) : Prop := g.extension? = some "js" ∨ g.extension? = some "json"

instance : DecidablePred Scanned := fun g =>
  inferInstanceAs (Decidable (g.extension? = some "js" ∨ g.extension? = some "json"))

/-- What one change does to a name index, with names detected as the engine detects them now:
the slots of the path are dropped unless the file is new, and a file that is still there and
may declare a name registers the name it declares. -/
def hasteStep (e : Engine) (ps : List String) (h : HasteMap) (fc : FileChange) :
    Except Error HasteMap :=
  if fc.kind ≠ .delete ∧ Scanned fc.path then
    match e.detected fc.path with
    | .ok none => .ok (h.clearFor fc)
    | .ok (some (n, en)) => (h.clearFor fc).register ps n en
    | .error err => .error err
  else .ok (h.clearFor fc)

/-- Applying a change to the index fills caches and leaves, when it succeeds, the index
`hasteStep` computes; when it fails, it fails as `hasteStep` does and leaves the index it started
from, the old one without the slots of the path unless the file is new. -/
theorem run_hasteChange (hR : e.registry.WellFormed) {fc : FileChange} (hp : fc.path.IsNormal) :
    ∃ e' h', Fills { e with haste := e.haste.clearFor fc } e' ∧
      (run (hasteChange fc) c e).2 = { e' with haste := h' } ∧
      (∀ b, (run (hasteChange fc) c e).1 = .ok b → e.hasteStep c.opts.platforms e.haste fc = .ok h') ∧
      ∀ err, (run (hasteChange fc) c e).1 = .error err →
        e.hasteStep c.opts.platforms e.haste fc = .error err ∧ h' = e.haste.clearFor fc := by
  obtain ⟨kind, p⟩ := fc
  dsimp only at hp
  -- a change other than an addition first drops the slots of the path; detection then runs in
  -- that state, which it reads as it reads `e`
  cases kind
  · have hk : (ChangeKind.add != ChangeKind.delete) = true := rfl
    simp only [hasteChange, run_bind, run_get, bne_self_eq_false, Bool.false_eq_true, if_false,
      HasteMap.clearFor, if_true, hasteStep, Scanned, hk, Bool.true_and, ne_eq, reduceCtorEq,
      not_false_eq_true, true_and]
    by_cases hc : p.extension? = some "js" ∨ p.extension? = some "json"
    · have hc' : (decide (p.extension? = some "js") || decide (p.extension? = some "json")) = true := by
        simpa using hc
      obtain ⟨e', hF, hrun⟩ := run_detectName (c := c) hR hp
      simp only [hc', hc, if_true, run_bind, hrun]
      rcases hd : e.detected p with err | _ | ⟨n, en⟩
      · exact ⟨e', e'.haste, hF, rfl, by simp, by simp [hF.keeps.haste]⟩
      · exact ⟨e', e'.haste, hF, rfl, by simp [hF.keeps.haste], by simp⟩
      · simp only [registerName, run_bind, run_read, run_get, run_lift, run_modify, hF.keeps.haste]
        cases e.haste.register c.opts.platforms n en with
        | error err => exact ⟨e', e'.haste, hF, rfl, by simp, by simp [hF.keeps.haste]⟩
        | ok h' => exact ⟨e', h', hF, rfl, fun _ _ => rfl, by simp⟩
    · have hc' : (decide (p.extension? = some "js") || decide (p.extension? = some "json")) = false := by
        simpa using hc
      simp only [hc', hc, Bool.false_eq_true, if_false, run_bind, run_get, run_pure]
      exact ⟨e, e.haste, .refl, rfl, fun _ _ => rfl, by simp⟩
  · have hk : (ChangeKind.change != ChangeKind.add) = true := rfl
    have hk' : (ChangeKind.change != ChangeKind.delete) = true := rfl
    simp only [hasteChange, run_bind, run_get, run_modify, hk, hk', if_true, HasteMap.clearFor,
      reduceCtorEq, if_false, hasteStep, Scanned, Bool.true_and, ne_eq, not_false_eq_true, true_and]
    by_cases hc : p.extension? = some "js" ∨ p.extension? = some "json"
    · have hc' : (decide (p.extension? = some "js") || decide (p.extension? = some "json")) = true := by
        simpa using hc
      obtain ⟨e', hF, hrun⟩ := run_detectName (c := c) (e := { e with haste := e.haste.removePath p }) hR hp
      simp only [hc', hc, if_true, run_bind, hrun]
      have hdet : ({ e with haste := e.haste.removePath p } : Engine).detected p = e.detected p := rfl
      rw [hdet]
      rcases hd : e.detected p with err | _ | ⟨n, en⟩
      · exact ⟨e', e'.haste, hF, rfl, by simp, by simp [hF.keeps.haste]⟩
      · exact ⟨e', e'.haste, hF, rfl, by simp [hF.keeps.haste], by simp⟩
      · simp only [registerName, run_bind, run_read, run_get, run_lift, run_modify, hF.keeps.haste]
        cases (e.haste.removePath p).register c.opts.platforms n en with
        | error err => exact ⟨e', e'.haste, hF, rfl, by simp, by simp [hF.keeps.haste]⟩
        | ok h' => exact ⟨e', h', hF, rfl, fun _ _ => rfl, by simp⟩
    · have hc' : (decide (p.extension? = some "js") || decide (p.extension? = some "json")) = false := by
        simpa using hc
      simp only [hc', hc, Bool.false_eq_true, if_false, run_bind, run_get, run_pure]
      exact ⟨_, _, .refl, rfl, fun _ _ => rfl, by simp⟩
  · have hk : (ChangeKind.delete != ChangeKind.add) = true := rfl
    simp only [hasteChange, run_bind, run_get, run_modify, hk, if_true, HasteMap.clearFor,
      reduceCtorEq, if_false, hasteStep, bne_self_eq_false, Bool.false_and, Bool.false_eq_true,
      ne_eq, not_true_eq_false, false_and, run_pure]
    exact ⟨_, _, .refl, rfl, fun _ _ => rfl, by simp⟩


/-- The index steps read detection only. -/
theorem hasteStep_congr {e e' : Engine} (h : ∀ g, e'.detected g = e.detected g) :
    e'.hasteStep = e.hasteStep := by
  funext ps hm fc
  simp only [hasteStep, h]

/-- A loop whose every round applies a change to the index, and on failure raises the error flag,
fills caches and leaves, unless some round failed, the index folded from the changes. -/
theorem run_forIn_hasteStep {β : Type} {f : FileChange → β → EngineM (ForInStep β)}
    (hf : ∀ fc acc (s : Engine), s.registry.WellFormed → fc.path.IsNormal →
      ∃ s' h' acc' flag, Fills { s with haste := s.haste.clearFor fc } s' ∧
        run (f fc acc) c s = (.ok (.yield acc'), { s' with haste := h', hasteError := s.hasteError || flag }) ∧
        (flag = false → s.hasteStep c.opts.platforms s.haste fc = .ok h')) :
    ∀ (l : List FileChange) (acc : β) (s : Engine), s.registry.WellFormed →
      (∀ fc ∈ l, fc.path.IsNormal) →
      ∃ s' h' acc' flag, Fills s s' ∧
        run (forIn l acc f) c s = (.ok acc', { s' with haste := h', hasteError := s.hasteError || flag }) ∧
        (flag = false → l.foldlM (s.hasteStep c.opts.platforms) s.haste = .ok h')
  | [], acc, s, _, _ => ⟨s, s.haste, acc, false, .refl, by simp, fun _ => rfl⟩
  | fc :: l, acc, s, hR, hp => by
    obtain ⟨s₁, h₁, acc₁, flag₁, hF₁, hrun₁, hstep₁⟩ := hf fc acc s hR (hp fc (by simp))
    have hK₁ := hF₁.keeps
    obtain ⟨s₂, h₂, acc₂, flag₂, hF₂, hrun₂, hstep₂⟩ := run_forIn_hasteStep hf l acc₁
      { s₁ with haste := h₁, hasteError := s.hasteError || flag₁ } (hK₁.wellFormed hR)
      fun fc' hfc' => hp fc' (by simp [hfc'])
    -- both runs of fills, moved onto the index and flag `s` started with
    have hF : Fills s { s₂ with haste := s.haste, hasteError := s.hasteError } :=
      (hF₁.withIndex s.haste s.hasteError).trans (hF₂.withIndex s.haste s.hasteError)
    refine ⟨_, h₂, acc₂, flag₁ || flag₂, hF, ?_, fun hflag => ?_⟩
    · simp only [List.forIn_cons, run_bind, hrun₁, hrun₂, Bool.or_assoc]
    · obtain ⟨hf₁, hf₂⟩ : flag₁ = false ∧ flag₂ = false := by simpa using hflag
      have hdet : ∀ g, ({ s₁ with haste := h₁, hasteError := s.hasteError || flag₁ } : Engine).detected g =
          s.detected g := fun g => hK₁.detected hR g
      rw [List.foldlM_cons, hstep₁ hf₁, ← hasteStep_congr hdet]
      exact hstep₂ hf₂


/-- Replacing the memoised resolutions keeps what detection reads. -/
theorem keeps_setResolutions (e : Engine) (rs : List (ResolutionKey × Nat))
    (ds : List (Nat × List ResolutionKey)) :
    Keeps e { e with registry := { e.registry with resolved := rs, dependers := ds } } :=
  ⟨rfl, rfl, rfl, .refl _, fun hR => ⟨hR.bound, hR.path, hR.source, hR.packages⟩,
    fun _ _ _ => id, fun _ => rfl, fun _ => rfl, fun _ _ => rfl⟩

/-- The files a change applies to: the known files below a removed directory, else the changed
path itself. -/
def changedFiles (e : Engine) (ev : WatchEvent) (change : FileChange) : List FileChange :=
  let removed := if ev.kind = .delete then e.vfs.filesUnder ev.absolutePath else []
  if removed.isEmpty then [change] else removed.map fun p => ⟨.delete, p⟩

/-- A loop whose every round resets the path of its change resets the paths of all of them. -/
theorem run_forIn_resetOn {f : FileChange → PUnit → EngineM (ForInStep PUnit)}
    (hf : ∀ fc (e : Engine), e.registry.WellFormed →
      ∃ e', run (f fc ⟨⟩) c e = (.ok (.yield ⟨⟩), e') ∧ ResetOn (· = fc.path) e e') :
    ∀ (l : List FileChange) (e : Engine), e.registry.WellFormed →
      ∃ e', run (forIn l ⟨⟩ f) c e = (.ok ⟨⟩, e') ∧
        ResetOn (· ∈ l.map FileChange.path) e e'
  | [], e, hR => ⟨e, rfl, (ResetOn.refl hR).congr fun q => by simp⟩
  | fc :: l, e, hR => by
    obtain ⟨e₁, hrun₁, hE₁⟩ := hf fc e hR
    obtain ⟨e₂, hrun₂, hE₂⟩ := run_forIn_resetOn hf l e₁ hE₁.wellFormed
    refine ⟨e₂, ?_, (hE₁.trans hE₂).congr fun q => by simp⟩
    simp only [List.forIn_cons, run_bind, hrun₁, hrun₂]

/-- A change the mirror drops leaves the engine with the mirror it gave. -/
theorem run_graphChange_dropped {ev : WatchEvent} {v₁ : Vfs}
    (hr : e.vfs.processChange e.disk ev.kind ev.root ev.relative = (none, v₁)) :
    (run (graphChange ev) c e).2 = { e with vfs := v₁ } := by
  simp only [graphChange, run_bind, run_get, run_modify, hr, run_pure]

/-- The registry half of a change: every changed file is reset in turn. -/
theorem run_forIn_registryChange (l : List FileChange) (hR : e.registry.WellFormed) :
    ∃ e', run (forIn l PUnit.unit fun fc _ => do registryChange fc; pure (ForInStep.yield PUnit.unit)) c e =
      (.ok ⟨⟩, e') ∧ ResetOn (· ∈ l.map FileChange.path) e e' :=
  run_forIn_resetOn (fun fc e hR => by
    obtain ⟨e', hrun, hE⟩ := run_registryChange_resetOn (c := c) hR fc
    exact ⟨e', by simp only [run_bind, hrun, run_pure], hE⟩) l e hR

/-- A change the mirror takes: the registry resets the changed files, and the engine then holds
the state cache fills lead to, with the memoised resolutions kept or forgotten and an index that
is, unless its error flag is up, the one rebuilt from what it detects (when the flag was up
before) or the old one with every changed file stepped through. With the flag up before and
after, the index is the one it had. -/
theorem run_graphChange_fills {ev : WatchEvent} {change : FileChange} {v₁ : Vfs}
    (hR : e.registry.WellFormed)
    (hr : e.vfs.processChange e.disk ev.kind ev.root ev.relative = (some change, v₁))
    (hN : ∀ fc ∈ e.changedFiles ev change, fc.path.IsNormal)
    (hC : ∀ g ∈ ({ e with vfs := v₁ } : Engine).candidates, g.IsNormal) :
      ∃ e₂ e₃ h b rs ds,
        ResetOn (· ∈ (e.changedFiles ev change).map FileChange.path) { e with vfs := v₁ } e₂ ∧
        Fills e₂ e₃ ∧
        (run (graphChange ev) c e).2 = { e₃ with
          haste := h, hasteError := b
          registry := { e₃.registry with resolved := rs, dependers := ds } } ∧
        (b = false → if e.hasteError then e₂.hasteIndex c.opts.platforms = .ok h
          else (e.changedFiles ev change).foldlM (e₂.hasteStep c.opts.platforms) e.haste = .ok h) ∧
        (e.hasteError = true → b = true → h = e.haste) := by
  obtain ⟨e₂, hrun₂, hE₂⟩ := run_forIn_registryChange (c := c) (e := { e with vfs := v₁ })
    (e.changedFiles ev change) hR
  simp only [graphChange, run_bind, run_get, run_modify, hr]
  simp only [changedFiles] at hrun₂
  simp only [hrun₂, hE₂.hasteError]
  cases herr : e.hasteError
  · -- the index is applied change by change
    simp only [Bool.false_eq_true, if_false, run_bind]
    generalize hres : run (forIn (_ : List FileChange) false
      (_ : FileChange → Bool → EngineM (ForInStep Bool))) c e₂ = res
    obtain ⟨s', h', acc', flag, hF, hloop, hstep⟩ : ∃ s' h' acc' flag, Fills e₂ s' ∧
        res = (.ok acc', { s' with haste := h', hasteError := e₂.hasteError || flag }) ∧
        (flag = false → (e.changedFiles ev change).foldlM (e₂.hasteStep c.opts.platforms) e₂.haste =
          .ok h') := by
      rw [← hres]
      refine run_forIn_hasteStep (fun fc acc s hs hn => ?_) _ false e₂ hE₂.wellFormed hN
      obtain ⟨s₁, h₁, hF₁, hrun₁, hstep₁, -⟩ := run_hasteChange (c := c) hs hn
      have herr₁ : s₁.hasteError = s.hasteError := hF₁.keeps.hasteError
      simp only [run_bind, run_attempt]
      have ht : (run (hasteChange fc) c s).2 = { s₁ with haste := h₁ } := hrun₁
      rcases hc : run (hasteChange fc) c s with ⟨_ | b, t⟩ <;> rw [hc] at ht <;> subst ht
      · refine ⟨s₁, h₁, true, true, hF₁, ?_, fun h => absurd h (by decide)⟩
        simp [Bool.or_true]
      · refine ⟨s₁, h₁, acc || b, false, hF₁, ?_, fun _ => hstep₁ b (by rw [hc])⟩
        simp [Bool.or_false, ← herr₁]
    subst hloop
    have hfold : (e₂.hasteError || flag) = false →
        (e.changedFiles ev change).foldlM (e₂.hasteStep c.opts.platforms) e.haste = .ok h' :=
      fun hb => hE₂.haste ▸ hstep (Bool.or_eq_false_iff.1 hb).2
    simp only [run_pure, clearResolutions, modifyRegistry]
    -- the resolutions are forgotten when a slot or a package file changed
    generalize (acc' || (_ : Bool)) = cleared
    cases cleared
    · exact ⟨e₂, s', h', _, s'.registry.resolved, s'.registry.dependers, herr ▸ hE₂, hF, rfl,
        hfold, fun hf => by cases hf⟩
    · exact ⟨e₂, s', h', _, [], [], herr ▸ hE₂, hF, rfl, hfold, fun hf => by cases hf⟩
  · -- the index is rebuilt from what the engine detects now
    have hC₂ : ∀ g ∈ e₂.candidates, g.IsNormal := fun g hg =>
      hC g (by simpa only [candidates, hE₂.vfs] using hg)
    obtain ⟨e₃, hF₃, hrun₃⟩ := run_buildHasteMap (c := c) hE₂.wellFormed hC₂
    have herr₃ : e₃.hasteError = true := hF₃.keeps.hasteError.trans (hE₂.hasteError.trans herr)
    simp only [if_true, run_bind, run_attempt, hrun₃, clearResolutions, modifyRegistry]
    cases hidx : e₂.hasteIndex c.opts.platforms with
    | error err =>
      refine ⟨e₂, e₃, e₃.haste, e₃.hasteError, [], [], herr ▸ hE₂, hF₃, rfl, fun h => ?_,
        fun _ _ => hF₃.keeps.haste.trans hE₂.haste⟩
      rw [herr₃] at h
      exact absurd h (by decide)
    | ok h =>
      exact ⟨e₂, e₃, h, false, [], [], herr ▸ hE₂, hF₃, rfl, fun _ => by simp [hidx],
        fun _ hb => by cases hb⟩

/-- A change the mirror takes: the registry resets the changed files, and the engine then holds,
up to cache fills and forgotten resolutions, an index that is, unless its error flag is up, the
one rebuilt from what it detects (when the flag was up before) or the old one with every changed
file stepped through. With the flag up before and after, the index is the one it had. -/
theorem run_graphChange {ev : WatchEvent} {change : FileChange} {v₁ : Vfs}
    (hR : e.registry.WellFormed)
    (hr : e.vfs.processChange e.disk ev.kind ev.root ev.relative = (some change, v₁))
    (hN : ∀ fc ∈ e.changedFiles ev change, fc.path.IsNormal)
    (hC : ∀ g ∈ ({ e with vfs := v₁ } : Engine).candidates, g.IsNormal) :
      ∃ e₂ e₄ h b, ResetOn (· ∈ (e.changedFiles ev change).map FileChange.path) { e with vfs := v₁ } e₂ ∧
        Keeps e₂ e₄ ∧ (run (graphChange ev) c e).2 = { e₄ with haste := h, hasteError := b } ∧
        (b = false → if e.hasteError then e₂.hasteIndex c.opts.platforms = .ok h
          else (e.changedFiles ev change).foldlM (e₂.hasteStep c.opts.platforms) e.haste = .ok h) ∧
        (e.hasteError = true → b = true → h = e.haste) := by
  obtain ⟨e₂, e₃, h, b, rs, ds, hE₂, hF, hrun, hidx, hkeep⟩ := run_graphChange_fills (c := c) hR hr hN hC
  exact ⟨e₂, _, h, b, hE₂, hF.keeps.trans (keeps_setResolutions e₃ rs ds), hrun, hidx, hkeep⟩

end Engine
end ModuleBundler
