import ModuleBundler.Proofs.Registry.LiveModules

/-!
# What one file change does to the registry

A change event reaches the registry as a `FileChange` on a path. The memo and the parsed package
of the path are dropped. A live module at the path dies; unless the file was deleted, a fresh
module of the same kind takes the path under a number no module had. After a change of the file
the fresh module takes over the memoised resolutions that pointed at the old one, and the
resolutions the old module made are forgotten; an added or deleted file empties the resolution
table, since any name may now resolve differently. Nothing else moves: every other module keeps
its record, so its liveness, number, kind and what it declared (`registry_fileChange_effect`).

The re-pointing is done through the reverse index, not by scanning the table, so the table
comes out right only because the index is the inverse of the table in every state the registry
reaches (`RegistryReachable.indexed`).
-/

namespace ModuleBundler

open EngineM Registry

namespace Registry

variable {r r' : Registry} {t : Nat}

/-- A dead module is not live. -/
theorem live?_of_record?_kill (h : r'.record? t = (r.record? t).map kill) : r'.live? t = none := by
  simp only [live?, h]
  cases r.record? t <;> simp [kill]

/-- A path pointing at a live module gives that module. -/
theorem atPath?_of_live {p : Path} {m : Module} (hb : r.byPath.lookup p = some t)
    (hl : r.live? t = some m) : r.atPath? p = some t := by
  simp [atPath?, hb, hl]

/-- No module has the next number yet. -/
theorem record?_size (r : Registry) : r.record? r.store.size = none := by
  simp [record?]

/-- The records once `old` is dead. -/
theorem record?_of_kill {old : Nat} (hs : r'.store = r.store.modify old kill) (t : Nat) :
    r'.record? t = if old = t then (r.record? t).map kill else r.record? t := by
  simp only [record?, hs, Array.getElem?_modify]

/-- The records once `old` is dead and a fresh module follows the others. -/
theorem record?_of_replace {old : Nat} {p : Path} {kind : ModuleKind}
    (hs : r'.store = (r.store.modify old kill).push ⟨⟨r.store.size, p, kind⟩, none, true⟩)
    (t : Nat) :
    r'.record? t = if t = r.store.size then some ⟨⟨r.store.size, p, kind⟩, none, true⟩
      else if old = t then (r.record? t).map kill else r.record? t := by
  simp only [record?, hs, Array.getElem?_push, Array.size_modify, Array.getElem?_modify]

/-- The paths once `p` points at the fresh module `n`. -/
theorem lookup_byPath_of_replace {p q : Path} {n : Nat}
    (hb : r'.byPath = (p, n) :: (r.byPath.filter (·.1 != p)).filter (·.1 != p)) :
    r'.byPath.lookup q = if q = p then some n else r.byPath.lookup q := by
  rw [hb]
  split
  · subst q; simp
  · have hqp : (q == p) = false := by simpa using ‹q ≠ p›
    simp only [List.lookup_cons, hqp]
    rw [lookup_packages_filter.1 q ‹_›, lookup_packages_filter.1 q ‹_›]

end Registry

namespace Engine

variable {c : Context} {e : Engine} {fc : FileChange} {old : Nat}

/-! ## The registry after a change -/

theorem cache_registryChange (fc : FileChange) :
    (run (registryChange fc) c e).2.cache = (e.cache.invalidate fc.path).2 := by
  simp only [registryChange, run_bind, run_modify, run_get, modifyRegistry]

theorem packages_registryChange (fc : FileChange) :
    (run (registryChange fc) c e).2.registry.packages =
      e.registry.packages.filter (·.1 != fc.path) := by
  cases hat : e.registry.atPath? fc.path with
  | none =>
    simp only [registryChange, run_bind, run_modify, run_get, modifyRegistry, hat]
    split <;> rfl
  | some old =>
    simp only [registryChange, run_bind, run_modify, run_get, modifyRegistry, hat]
    split <;> split <;> (try split) <;> simp [Registry.insert, Registry.setPath]

/-- With no live module at the path, the modules and paths stay, and only an added or deleted
file empties the resolution table. -/
theorem registryChange_of_none (hat : e.registry.atPath? fc.path = none) :
    (run (registryChange fc) c e).2.registry.store = e.registry.store ∧
      (run (registryChange fc) c e).2.registry.byPath = e.registry.byPath ∧
      (run (registryChange fc) c e).2.registry.resolved =
        if fc.kind = .change then e.registry.resolved else [] := by
  simp only [registryChange, run_bind, run_modify, run_get, modifyRegistry, hat]
  refine ⟨?_, ?_, ?_⟩ <;> split <;> rfl

/-- A deleted file's module dies, its path points nowhere, and the resolution table is empty. -/
theorem registryChange_delete (hat : e.registry.atPath? fc.path = some old)
    (hk : fc.kind = .delete) :
    (run (registryChange fc) c e).2.registry.store = e.registry.store.modify old kill ∧
      (run (registryChange fc) c e).2.registry.byPath = e.registry.byPath.filter (·.1 != fc.path) ∧
      (run (registryChange fc) c e).2.registry.resolved = [] := by
  simp only [registryChange, run_bind, run_modify, run_get, modifyRegistry, hat, hk, reduceCtorEq,
    if_false, if_true]
  exact ⟨by simp only [unlinkOutgoing_store]; rfl, by simp, trivial⟩

/-- Any other file's module dies and a fresh module of its kind, numbered after every module,
takes its path. -/
theorem registryChange_replace (hat : e.registry.atPath? fc.path = some old)
    (hk : fc.kind ≠ .delete) :
    (run (registryChange fc) c e).2.registry.store = (e.registry.store.modify old kill).push
        ⟨⟨e.registry.store.size, fc.path, ((e.registry.live? old).map Module.kind).getD .source⟩,
          none, true⟩ ∧
      (run (registryChange fc) c e).2.registry.byPath = (fc.path, e.registry.store.size) ::
        (e.registry.byPath.filter (·.1 != fc.path)).filter (·.1 != fc.path) := by
  simp only [registryChange, run_bind, run_modify, run_get, modifyRegistry, hat, hk, if_false]
  constructor <;> split <;> (try split) <;> simp [Registry.insert, Registry.setPath] <;> rfl

/-- The resolutions after a changed module is replaced: those it made are gone, those pointing at
it point at the fresh module, and the others stay; an added file leaves none. The keys to move are
read off the reverse index, which lists exactly the keys resolving to the module. -/
theorem lookup_registryChange_replace (h : e.registry.Indexed)
    (hat : e.registry.atPath? fc.path = some old) (hk : fc.kind ≠ .delete) (k : ResolutionKey) :
    (run (registryChange fc) c e).2.registry.resolved.lookup k =
      if fc.kind = .change then
        if k.origin = old then none
        else (e.registry.resolved.lookup k).map fun t => if t = old then e.registry.store.size else t
      else none := by
  simp only [registryChange, run_bind, run_modify, run_get, modifyRegistry, hat, hk, if_false]
  split
  · simp only [apply_ite Registry.resolved, setDependerKeys_resolved, ite_self, setPath_resolved,
      insert_resolved, lookup_map_contains, insert_fst, unlinkOutgoing_store, Array.size_modify]
    simp only [List.contains_iff_mem, mem_dependerKeys_unlinkOutgoing h, lookup_unlinkOutgoing]
    by_cases ho : k.origin = old
    · simp [ho]
    · cases hl : e.registry.resolved.lookup k with
      | none => simp [ho]
      | some t => by_cases ht : t = old <;> simp [ho, ht]
  · rfl

/-- Every module numbered before the change keeps its record, except the one at the changed path,
which dies. -/
theorem record?_registryChange {t : Nat} (ht : t < e.registry.store.size) :
    (run (registryChange fc) c e).2.registry.record? t =
      if e.registry.atPath? fc.path = some t then (e.registry.record? t).map kill
      else e.registry.record? t := by
  cases hat : e.registry.atPath? fc.path with
  | none => simp [record?, (registryChange_of_none (c := c) hat).1]
  | some o =>
    simp only [Option.some.injEq]
    by_cases hk : fc.kind = .delete
    · exact record?_of_kill (registryChange_delete (c := c) hat hk).1 t
    · rw [record?_of_replace (registryChange_replace (c := c) hat hk).1, if_neg (Nat.ne_of_lt ht)]

/-! ## The effect of a change -/

/-- What one change of the file at `fc.path` does, from state `e` to state `e'`. A live module
`o` at the path dies. Unless the file was deleted, a fresh live module of its kind takes the path
under a number no module had; after a change it takes over the resolutions that pointed at `o`,
those `o` made being forgotten, and after an addition the resolution table is empty. A deletion
leaves the path with no live module and the table empty; with no live module at the path, an
addition empties the table and a change keeps it. The memo and the parsed package of the path
are dropped, those of other paths stay, and every other module keeps its record. -/
structure FileChangeEffect (fc : FileChange) (e e' : Engine) : Prop where
  replaced : ∀ o m, e.registry.atPath? fc.path = some o → e.registry.live? o = some m →
    fc.kind ≠ .delete →
    e.registry.record? e.registry.store.size = none ∧
      e'.registry.atPath? fc.path = some e.registry.store.size ∧
      e'.registry.live? e.registry.store.size = some ⟨e.registry.store.size, fc.path, m.kind⟩ ∧
      ∀ k, e'.registry.resolved.lookup k =
        if fc.kind = .change then
          if k.origin = o then none
          else (e.registry.resolved.lookup k).map fun t => if t = o then e.registry.store.size else t
        else none
  deleted : fc.kind = .delete → e'.registry.atPath? fc.path = none ∧ e'.registry.resolved = []
  absent : e.registry.atPath? fc.path = none →
    e'.registry.resolved = if fc.kind = .change then e.registry.resolved else []
  dies : ∀ o, e.registry.atPath? fc.path = some o → e'.registry.live? o = none
  memo : ∀ q f, e'.cache.lookup q f = if q = fc.path then none else e.cache.lookup q f
  packages : ∀ q, e'.registry.packages.lookup q =
    if q = fc.path then none else e.registry.packages.lookup q
  others : ∀ t rc, e.registry.record? t = some rc → e.registry.atPath? fc.path ≠ some t →
    e'.registry.record? t = some rc

/-- A file change applied to a registry its operations reached has exactly the effect
`FileChangeEffect` describes. -/
theorem registry_fileChange_effect {c : Context} {e : Engine} (h : RegistryReachable c e)
    (fc : FileChange) : FileChangeEffect fc e (EngineM.run (registryChange fc) c e).2 := by
  have hI : e.registry.Indexed := h.indexed
  constructor
  · -- the fresh module of the dead one's kind, and the table through the reverse index
    intro o m hat hm hk
    obtain ⟨hs, hb⟩ := registryChange_replace (c := c) hat hk
    rw [hm, Option.map_some, Option.getD_some] at hs
    have hnew : (run (registryChange fc) c e).2.registry.live? e.registry.store.size =
        some ⟨e.registry.store.size, fc.path, m.kind⟩ := by
      simp [live?, record?_of_replace hs]
    refine ⟨record?_size _, atPath?_of_live ?_ hnew, hnew, lookup_registryChange_replace hI hat hk⟩
    rw [lookup_byPath_of_replace hb, if_pos rfl]
  · intro hk
    cases hat : e.registry.atPath? fc.path with
    | none =>
      obtain ⟨hs, hb, hres⟩ := registryChange_of_none (c := c) hat
      refine ⟨by simpa [Registry.atPath?, live?, record?, hs, hb] using hat, by simp [hres, hk]⟩
    | some o =>
      obtain ⟨-, hb, hres⟩ := registryChange_delete (c := c) hat hk
      exact ⟨by simp [Registry.atPath?, hb, lookup_packages_filter.2], hres⟩
  · intro hnone
    exact (registryChange_of_none (c := c) hnone).2.2
  · intro o hat
    have hlt : o < e.registry.store.size := by
      obtain ⟨-, rc, hrc, -⟩ := atPath?_eq_some.1 hat
      exact record?_lt hrc
    exact live?_of_record?_kill (r := e.registry) (by rw [record?_registryChange hlt, if_pos hat])
  · intro q f
    rw [cache_registryChange]
    exact ContentCache.lookup_invalidate _ _ _ _
  · intro q
    rw [packages_registryChange]
    split
    · subst q; exact lookup_packages_filter.2
    · exact lookup_packages_filter.1 q ‹_›
  · intro t rc hrc hne
    rw [record?_registryChange (record?_lt hrc), if_neg hne, hrc]

end Engine

/-- Two modules, the second resolving a name to the first and the first resolving a name to
itself; a change of the first file keeps the second's resolution, now to the module that replaced
the first, and forgets the first's own. -/
theorem fileChange_repoints_dependers :
    let c : Context := ⟨PackagerOptions.default, GlobalConfig.default, [], none, ⟨[], []⟩, .identity⟩
    let a : Path := ⟨[.root, .name "a.js"]⟩
    let b : Path := ⟨[.root, .name "b.js"]⟩
    let e₀ : Engine := ⟨⟨[], 0, Path.empty⟩, ContentCache.inMemory,
      ⟨[], [], [], IgnoreRules.none, []⟩, Registry.empty, HasteMap.empty, false, [], 0, [], 0⟩
    let e₁ := (EngineM.run (RegistryOp.module a).run c e₀).2
    let e₂ := (EngineM.run (RegistryOp.module b).run c e₁).2
    let e₃ := (EngineM.run (RegistryOp.resolve ⟨1, none, "./a"⟩ 0).run c e₂).2
    let e₄ := (EngineM.run (RegistryOp.resolve ⟨0, none, "./self"⟩ 0).run c e₃).2
    let fc : FileChange := ⟨.change, a⟩
    RegistryReachable c e₄ ∧ Engine.FileChangeEffect fc e₄ (EngineM.run (registryChange fc) c e₄).2 ∧
      (EngineM.run (registryChange fc) c e₄).2.registry.resolved = [(⟨1, none, "./a"⟩, 2)] := by
  intro c a b e₀ e₁ e₂ e₃ e₄ fc
  have h : RegistryReachable c e₄ :=
    .step _ (.step _ (.step _ (.step _ (.start _ rfl) trivial) trivial)
      (by simp only [RegistryOp.Allowed]; decide)) (by simp only [RegistryOp.Allowed]; decide)
  exact ⟨h, Engine.registry_fileChange_effect h fc, by decide⟩

end ModuleBundler
