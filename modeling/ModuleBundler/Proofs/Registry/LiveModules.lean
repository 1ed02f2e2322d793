import ModuleBundler.Proofs.Registry.Dependers

/-!
# One live module per path

The registry points each path at the number of its module (`byPath`). Every live module other
than a null module is the module its path points to (`Registry.PathIndexed`), so that a path has
at most one such module, in every state the registry's operations reach from an empty registry,
save one kind of step (`RegistryOp.Displaces`): a polyfill created over the live module of its
path when that module is of another kind. That polyfill takes the path and leaves the module it
displaces live.

The polyfills prepended to a bundle depend on the polyfills before them, and the development and
production chains differ, so preparing both chains creates each later polyfill twice, at one path
with two dependency lists (`recreated_polyfill_leaves_two_live_modules`).
-/

namespace ModuleBundler

open EngineM

namespace Registry

variable {r r' : Registry} {p : Path} {t old : Nat} {m : Module}

/-- Every live module other than a null module is the module its path points to. -/
def PathIndexed (r : Registry) : Prop :=
  ∀ t m, r.live? t = some m → (∀ name, m.kind ≠ .null name) → r.byPath.lookup m.path = some t

theorem pathIndexed_empty : Registry.empty.PathIndexed := fun t m hm => by
  simp [live?, record?, Registry.empty] at hm

/-- The property reads only the modules and the paths. -/
theorem PathIndexed.congr (h : r.PathIndexed) (hs : r'.store = r.store)
    (hb : r'.byPath = r.byPath) : r'.PathIndexed := fun t m hm hn => by
  have hlive : r'.live? t = r.live? t := by simp only [live?, record?, hs]
  rw [hb]
  exact h t m (hlive ▸ hm) hn

/-- A live module other than a null module is what its path gives. -/
theorem PathIndexed.atPath? (h : r.PathIndexed) (hm : r.live? t = some m)
    (hn : ∀ name, m.kind ≠ .null name) : r.atPath? m.path = some t := by
  simp [Registry.atPath?, h t m hm hn, hm]

/-- A path with no live module has no live module other than a null module. -/
theorem PathIndexed.path_ne (h : r.PathIndexed) (hnone : r.atPath? p = none)
    (hm : r.live? t = some m) (hn : ∀ name, m.kind ≠ .null name) : m.path ≠ p := by
  rintro rfl
  rw [h.atPath? hm hn] at hnone
  cases hnone

/-- A module created at a path with no live module, the path pointed at it. -/
theorem PathIndexed.insert_setPath (h : r.PathIndexed) (hnone : r.atPath? p = none)
    (kind : ModuleKind) : ((r.insert p kind).2.setPath p r.store.size).PathIndexed := by
  intro t m hm hn
  rw [live?_setPath, live?_insert] at hm
  rw [lookup_setPath]
  split at hm
  · rename_i ht
    cases hm
    simp [ht]
  · rw [if_neg (h.path_ne hnone hm hn), insert_byPath]
    exact h t m hm hn

/-- A null module created under a name. -/
theorem PathIndexed.insert_null (h : r.PathIndexed) (name : String) :
    (r.insert p (.null name)).2.PathIndexed := by
  intro t m hm hn
  rw [live?_insert] at hm
  split at hm
  · cases hm
    exact absurd rfl (hn name)
  · rw [insert_byPath]
    exact h t m hm hn

/-- The modules after one is marked dead: that one is no longer live, the others are as they
were. -/
theorem live?_of_kill (hs : r'.store = r.store.modify old Registry.kill) (t : Nat) :
    r'.live? t = if t = old then none else r.live? t := by
  simp only [live?, record?, hs, Array.getElem?_modify]
  by_cases ht : t = old
  · subst ht
    cases r.store[t]? <;> simp [kill]
  · simp [ht, Ne.symm ht]

/-- The live module of a path marked dead, the path pointing nowhere. -/
theorem PathIndexed.of_kill (h : r.PathIndexed) (hold : r.atPath? p = some old)
    (hs : r'.store = r.store.modify old Registry.kill) (hb : r'.byPath = r.byPath.filter (·.1 != p)) :
    r'.PathIndexed := by
  intro t m hm hn
  rw [live?_of_kill hs] at hm
  split at hm
  · cases hm
  · rename_i ht
    have hq : m.path ≠ p := by
      rintro rfl
      -- the path pointed at `old`, so at no other live module
      have hat := h.atPath? hm hn
      rw [hold] at hat
      exact ht (Option.some.inj hat).symm
    rw [hb, lookup_filter_ne hq]
    exact h t m hm hn

/-- The live module of a path replaced by a fresh module, the path pointing at it. -/
theorem PathIndexed.of_replace (h : r.PathIndexed) (hold : r.atPath? p = some old) {kind : ModuleKind}
    (hs : r'.store = (r.store.modify old Registry.kill).push ⟨⟨r.store.size, p, kind⟩, none, true⟩)
    (hb : r'.byPath = (p, r.store.size) :: (r.byPath.filter (·.1 != p)).filter (·.1 != p)) :
    r'.PathIndexed := by
  -- first the dead module and the path pointing nowhere, then a fresh module there
  let k : Registry := { r with store := r.store.modify old Registry.kill, byPath := r.byPath.filter (·.1 != p) }
  have hk : k.PathIndexed := h.of_kill hold rfl rfl
  have hnone : k.atPath? p = none := by
    simp [k, Registry.atPath?, lookup_packages_filter.2]
  refine (hk.insert_setPath hnone kind).congr ?_ ?_
  · simp [hs, k, Registry.insert]
  · rw [hb]
    simp [k, Registry.insert, Registry.setPath]

end Registry

namespace Engine

open Registry

variable {c : Context} {e : Engine}

/-- What a change does to the modules and the paths: the live module at the changed path, if
any, dies, and unless the file is deleted a fresh module of its kind takes the path. -/
theorem registryChange_modules (fc : FileChange) :
    (e.registry.atPath? fc.path = none ∧
        (run (registryChange fc) c e).2.registry.store = e.registry.store ∧
        (run (registryChange fc) c e).2.registry.byPath = e.registry.byPath) ∨
      ∃ old, e.registry.atPath? fc.path = some old ∧
        ((run (registryChange fc) c e).2.registry.store =
            e.registry.store.modify old Registry.kill ∧
          (run (registryChange fc) c e).2.registry.byPath =
            e.registry.byPath.filter (·.1 != fc.path) ∨
        ∃ kind, (run (registryChange fc) c e).2.registry.store =
            (e.registry.store.modify old Registry.kill).push
              ⟨⟨e.registry.store.size, fc.path, kind⟩, none, true⟩ ∧
          (run (registryChange fc) c e).2.registry.byPath = (fc.path, e.registry.store.size) ::
            (e.registry.byPath.filter (·.1 != fc.path)).filter (·.1 != fc.path)) := by
  cases hat : e.registry.atPath? fc.path with
  | none =>
    simp only [registryChange, run_bind, run_modify, run_get, modifyRegistry, hat]
    refine .inl ⟨trivial, ?_, ?_⟩ <;> split <;> rfl
  | some old =>
    simp only [registryChange, run_bind, run_modify, run_get, modifyRegistry, hat]
    refine .inr ⟨old, rfl, ?_⟩
    -- unless the file is deleted, the fresh module keeps the dead one's kind
    cases fc.kind <;> simp only [reduceCtorEq, if_false, if_true]
    · refine .inr ⟨((e.registry.live? old).map Module.kind).getD .source, ?_, ?_⟩ <;> split <;>
        simp [Registry.insert, Registry.setPath] <;> rfl
    · refine .inr ⟨((e.registry.live? old).map Module.kind).getD .source, ?_, ?_⟩ <;> split <;>
        simp [Registry.insert, Registry.setPath] <;> rfl
    · exact .inl ⟨by simp only [unlinkOutgoing_store]; rfl, by simp⟩

/-- A change of a file kills the live module of its path, if any, and unless the file is deleted
puts a fresh module there. -/
theorem pathIndexed_registryChange (h : e.registry.PathIndexed) (fc : FileChange) :
    (run (registryChange fc) c e).2.registry.PathIndexed := by
  rcases registryChange_modules (c := c) (e := e) fc with
    ⟨-, hs, hb⟩ | ⟨old, hold, ⟨hs, hb⟩ | ⟨kind, hs, hb⟩⟩
  · exact h.congr hs hb
  · exact h.of_kill hold hs hb
  · exact h.of_replace hold hs hb

theorem pathIndexed_getOrInsert (h : e.registry.PathIndexed) (p : Path) (kind : Path → ModuleKind) :
    (run (getOrInsert p kind) c e).2.registry.PathIndexed := by
  simp only [getOrInsert, run_bind, run_get]
  split
  · exact h
  · rename_i hnone
    simp only [modifyRegistry, run_bind, run_modify, run_pure, insert_fst]
    exact h.insert_setPath hnone _

theorem pathIndexed_getNullModule (h : e.registry.PathIndexed) (name : String) :
    (run (getNullModule name) c e).2.registry.PathIndexed := by
  simp only [getNullModule, run_bind, run_get]
  split
  · exact h
  · simp only [modifyRegistry, run_bind, run_modify, run_pure]
    exact (h.insert_null name).congr rfl rfl

/-- A polyfill is created over no live module of another kind: it is the live module of its
path already, or its path has none. -/
theorem pathIndexed_createPolyfill (h : e.registry.PathIndexed) {p : Path} {id : String}
    {deps : List String} {code : String}
    (hkeep : ¬ ∃ n m, e.registry.atPath? p.normalize = some n ∧ e.registry.live? n = some m ∧
      m.kind ≠ .polyfill id deps code) :
    (run (createPolyfill p id deps code) c e).2.registry.PathIndexed := by
  simp only [createPolyfill, run_bind, run_get]
  split
  · rename_i n m hsome
    simp only [Option.bind_eq_some_iff, Option.map_eq_some_iff, Prod.mk.injEq] at hsome
    obtain ⟨n', hat, m', hlive, rfl, rfl⟩ := hsome
    split
    · exact h
    · rename_i hne
      exact absurd ⟨n', m', hat, hlive, hne⟩ hkeep
  · rename_i hnone
    -- the path has no live module, or its module would have been found
    have hat : e.registry.atPath? p.normalize = none := by
      cases hat : e.registry.atPath? p.normalize with
      | none => rfl
      | some n =>
        obtain ⟨-, rec, hrec, hl⟩ := atPath?_eq_some.1 hat
        simp [hat, live?, hrec, hl] at hnone
    simp only [createPolyfill.insertFresh, modifyRegistry, run_bind, run_get, run_modify, run_pure,
      insert_fst]
    exact h.insert_setPath hat _

theorem pathIndexed_setResolved (h : e.registry.PathIndexed) (key : ResolutionKey) (t : Nat) :
    (run (setResolved key t) c e).2.registry.PathIndexed := by
  simp only [setResolved, modifyRegistry, run_modify]
  refine h.congr ?_ ?_ <;> cases e.registry.resolved.lookup key <;> rfl

end Engine

/-- A polyfill created over the live module of its path, when that module is of another kind. -/
def RegistryOp.Displaces : RegistryOp → Registry → Prop
  | .polyfill p id deps code, r => ∃ n m, r.atPath? p.normalize = some n ∧ r.live? n = some m ∧
      m.kind ≠ .polyfill id deps code
  | _, _ => False

open Registry in
/-- Every operation but a polyfill displacing a module of another kind keeps each path pointing at
its live module. -/
theorem RegistryOp.pathIndexed_run {c : Context} {e : Engine} (op : RegistryOp)
    (h : e.registry.PathIndexed) (hop : ¬ op.Displaces e.registry) :
    (EngineM.run op.run c e).2.registry.PathIndexed := by
  cases op with
  | module p =>
    rw [RegistryOp.run, run_drop]
    exact Engine.pathIndexed_getOrInsert h _ _
  | asset p =>
    rw [RegistryOp.run, run_drop, getAssetModule, run_bind, run_read]
    exact Engine.pathIndexed_getOrInsert h _ _
  | null name =>
    rw [RegistryOp.run, run_drop]
    exact Engine.pathIndexed_getNullModule h _
  | polyfill p id deps code =>
    rw [RegistryOp.run, run_drop]
    exact Engine.pathIndexed_createPolyfill h hop
  | resolve key target => exact Engine.pathIndexed_setResolved h key target
  | clear => exact h.congr rfl rfl
  | change fc => exact Engine.pathIndexed_registryChange h fc
  | refresh => exact pathIndexed_empty

/-- The states the registry's operations reach from an empty registry with no polyfill displacing
a live module of another kind. -/
inductive PathReachable (c : Context) : Engine → Prop
  | start (e : Engine) : e.registry = Registry.empty → PathReachable c e
  | step {e : Engine} (op : RegistryOp) : PathReachable c e → ¬ op.Displaces e.registry →
      PathReachable c (EngineM.run op.run c e).2

theorem PathReachable.pathIndexed {c : Context} {e : Engine} (h : PathReachable c e) :
    e.registry.PathIndexed := by
  induction h with
  | start e he => exact he ▸ Registry.pathIndexed_empty
  | step op _ hop ih => exact op.pathIndexed_run ih hop

/-- In every state the registry's operations reach with no polyfill displacing a live module of
another kind, a live module other than a null module is the module its path gives, and the only
such module at its path. -/
theorem one_live_module_per_path {c : Context} {e : Engine} (h : PathReachable c e) {t : Nat}
    {m : Module} (hm : e.registry.live? t = some m) (hn : ∀ name, m.kind ≠ .null name) :
    e.registry.atPath? m.path = some t ∧
      ∀ t' m', e.registry.live? t' = some m' → (∀ name, m'.kind ≠ .null name) →
        m'.path = m.path → t' = t := by
  have hI := h.pathIndexed
  refine ⟨hI.atPath? hm hn, fun t' m' hm' hn' hp => ?_⟩
  have h₁ := hI t m hm hn
  rw [← hp, hI t' m' hm' hn'] at h₁
  exact Option.some.inj h₁

/-- A run that creates two source modules and then changes the first one's file: the module
that replaced it is the one live module of its path. -/
theorem one_live_module_after_change :
    let c : Context := ⟨PackagerOptions.default, GlobalConfig.default, [], none, ⟨[], []⟩, .identity⟩
    let a : Path := ⟨[.root, .name "a.js"]⟩
    let b : Path := ⟨[.root, .name "b.js"]⟩
    let e₀ : Engine := ⟨⟨[], 0, Path.empty⟩, ContentCache.inMemory,
      ⟨[], [], [], IgnoreRules.none, []⟩, Registry.empty, HasteMap.empty, false, [], 0, [], 0⟩
    let e₁ := (EngineM.run (RegistryOp.module a).run c e₀).2
    let e₂ := (EngineM.run (RegistryOp.module b).run c e₁).2
    let e₃ := (EngineM.run (RegistryOp.change ⟨.change, a⟩).run c e₂).2
    PathReachable c e₃ ∧ e₃.registry.live? 2 = some ⟨2, a, .source⟩ ∧
      (e₃.registry.atPath? a = some 2 ∧
        ∀ t' m', e₃.registry.live? t' = some m' → (∀ name, m'.kind ≠ .null name) →
          m'.path = a → t' = 2) := by
  intro c a b e₀ e₁ e₂ e₃
  have h : PathReachable c e₃ := .step _ (.step _ (.step _ (.start _ rfl) id) id) id
  have hm : e₃.registry.live? 2 = some ⟨2, a, .source⟩ := rfl
  exact ⟨h, hm, one_live_module_per_path h hm fun _ hk => by cases hk⟩

/-- A polyfill created twice at one path with two dependency lists, as the development and
production chains create it: the second displaces the first, and both stay live at the path. -/
theorem recreated_polyfill_leaves_two_live_modules :
    let c : Context := ⟨PackagerOptions.default, GlobalConfig.default, [], none, ⟨[], []⟩, .identity⟩
    let p : Path := ⟨[.root, .name "polyfills", .name "require.js"]⟩
    let e₀ : Engine := ⟨⟨[], 0, Path.empty⟩, ContentCache.inMemory,
      ⟨[], [], [], IgnoreRules.none, []⟩, Registry.empty, HasteMap.empty, false, [], 0, [], 0⟩
    let e₁ := (EngineM.run (RegistryOp.polyfill p "require" [] "").run c e₀).2
    let e₂ := (EngineM.run (RegistryOp.polyfill p "require" ["prelude"] "").run c e₁).2
    (RegistryOp.polyfill p "require" ["prelude"] "").Displaces e₁.registry ∧
      (e₂.registry.live? 0).map Module.path = some p ∧
      (e₂.registry.live? 1).map Module.path = some p := by
  intro c p e₀ e₁ e₂
  refine ⟨⟨0, ⟨0, p, .polyfill "require" [] ""⟩, by decide, rfl, by decide⟩, by decide, by decide⟩

end ModuleBundler
