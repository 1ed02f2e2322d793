import ModuleBundler.Proofs.Resolve.Replay
import ModuleBundler.Proofs.Engine.Unresolved

/-!
# Memoised resolutions that stay true

A memo entry is coherent when resolving its key again, without the memo, from the engine as it
is now, gives the module the entry holds and creates nothing new. A dependency query only grows
what the engine knows: it reads files, creates modules and null modules, and memoises what it
resolves. This file shows that such growth keeps every coherent entry coherent and that each
entry the query adds is coherent (`graphDependencies_sound`), with `Engine.Sound` as the
invariant: no detached roots, an index whose package slots are manifests, a registry whose
tables point where they should (`Registry.Placed`) and whose depender lists match its memo.
-/

namespace ModuleBundler

open EngineM

/-! ## Where the registry keeps its modules -/

namespace Registry

variable {r : Registry}

/-- The registry's tables point at modules it has, the live module a path names sits at that path
and stands for a file, and the live null module a name names stands for that name. -/
structure Placed (r : Registry) : Prop where
  bound : ∀ q i, r.byPath.lookup q = some i → i < r.store.size
  nullBound : ∀ n i, r.nulls.lookup n = some i → i < r.store.size
  path : ∀ q i, r.atPath? q = some i → ∃ m, r.live? i = some m ∧ m.path = q ∧ ∀ n, m.kind ≠ .null n
  null : ∀ n i, r.nullOf n = some i → ∃ m, r.live? i = some m ∧ m.kind = .null n

theorem placed_empty : Registry.empty.Placed where
  bound q i h := by simp [Registry.empty] at h
  nullBound n i h := by simp [Registry.empty] at h
  path q i h := by simp [Registry.empty, atPath?] at h
  null n i h := by simp [Registry.empty, nullOf] at h

/-- A registry whose tables and live modules are those of a placed one is placed. -/
theorem Placed.congr (h : r.Placed) {r' : Registry} (hsize : r'.store.size = r.store.size)
    (hlive : ∀ i, r'.live? i = r.live? i) (hby : r'.byPath = r.byPath)
    (hnulls : r'.nulls = r.nulls) : r'.Placed where
  bound q i hq := hsize ▸ h.bound q i (hby ▸ hq)
  nullBound n i hn := hsize ▸ h.nullBound n i (hnulls ▸ hn)
  path q i hq := by
    simp only [atPath?, hby, hlive] at hq
    simpa only [hlive] using h.path q i hq
  null n i hn := by
    simp only [nullOf, hnulls, hlive] at hn
    simpa only [hlive] using h.null n i hn

/-- What a registry answers for a name depends on its null table and the modules it points at. -/
theorem nullOf_congr (r r' : Registry) (hn : r'.nulls = r.nulls)
    (hlive : ∀ n i, r.nulls.lookup n = some i → r'.live? i = r.live? i) (n : String) :
    r'.nullOf n = r.nullOf n := by
  simp only [nullOf, hn]
  cases hl : r.nulls.lookup n with
  | none => rfl
  | some i => simp only [Option.bind_some, hlive n i hl]

/-- What a registry answers for a path depends on its path table and the modules it points at. -/
theorem atPath?_congr (r r' : Registry) (hb : r'.byPath = r.byPath)
    (hlive : ∀ q i, r.byPath.lookup q = some i → r'.live? i = r.live? i) (q : Path) :
    r'.atPath? q = r.atPath? q := by
  simp only [atPath?, hb]
  cases hl : r.byPath.lookup q with
  | none => rfl
  | some i => simp only [Option.bind_some, hlive q i hl]

/-- A module created at a path, standing for a file, keeps the registry placed. -/
theorem Placed.addModule (h : r.Placed) {r' : Registry} {p : Path} {kind : ModuleKind}
    (hk : ∀ n, kind ≠ .null n) (hsize : r'.store.size = r.store.size + 1)
    (hlive : ∀ i, r'.live? i = if i = r.store.size then some ⟨r.store.size, p, kind⟩ else r.live? i)
    (hby : ∀ q, r'.byPath.lookup q = if q = p then some r.store.size else r.byPath.lookup q)
    (hnulls : r'.nulls = r.nulls) : r'.Placed := by
  have hold : ∀ i, i < r.store.size → r'.live? i = r.live? i := fun i hi => by
    rw [hlive, if_neg (Nat.ne_of_lt hi)]
  refine ⟨fun q i hq => ?_, fun n i hn => ?_, fun q i hq => ?_, fun n i hn => ?_⟩
  · rw [hby] at hq
    split at hq
    · cases hq; omega
    · have := h.bound q i hq; omega
  · have := h.nullBound n i (hnulls ▸ hn); omega
  · simp only [atPath?, hby] at hq
    split at hq
    · -- the new module, at its own path
      rename_i hqp
      subst hqp
      simp only [Option.bind_some, hlive, if_true, Option.map_some, Option.some.injEq] at hq
      subst hq
      exact ⟨_, by rw [hlive, if_pos rfl], rfl, hk⟩
    · obtain ⟨j, hj, hi⟩ := Option.bind_eq_some_iff.1 hq
      rw [hold j (h.bound q j hj)] at hi
      obtain ⟨m, hm, hpath, hkind⟩ := h.path q i (by simp [atPath?, hj, hi])
      obtain ⟨-, -, rfl⟩ := Option.map_eq_some_iff.1 hi
      exact ⟨m, by rw [hold j (h.bound q j hj), hm], hpath, hkind⟩
  · rw [nullOf_congr r r' hnulls fun n j hj => hold j (h.nullBound n j hj)] at hn
    obtain ⟨m, hm, hkind⟩ := h.null n i hn
    obtain ⟨j, hj, hi⟩ := Option.bind_eq_some_iff.1 hn
    obtain ⟨-, -, rfl⟩ := Option.map_eq_some_iff.1 hi
    exact ⟨m, by rw [hold j (h.nullBound n j hj), hm], hkind⟩

/-- A null module created for a name keeps the registry placed. -/
theorem Placed.addNull (h : r.Placed) {r' : Registry} {name : String} {p : Path}
    (hsize : r'.store.size = r.store.size + 1)
    (hlive : ∀ i, r'.live? i =
      if i = r.store.size then some ⟨r.store.size, p, .null name⟩ else r.live? i)
    (hby : r'.byPath = r.byPath)
    (hnulls : r'.nulls = (name, r.store.size) :: r.nulls.filter (·.1 != name)) : r'.Placed := by
  have hold : ∀ i, i < r.store.size → r'.live? i = r.live? i := fun i hi => by
    rw [hlive, if_neg (Nat.ne_of_lt hi)]
  -- off the new name, the null table reads as before
  have hother : ∀ n, n ≠ name → r'.nulls.lookup n = r.nulls.lookup n := fun n hnm => by
    have hb : (n == name) = false := by simpa using hnm
    rw [hnulls, List.lookup_cons, hb, lookup_filter_ne hnm]
  refine ⟨fun q i hq => ?_, fun n i hn => ?_, fun q i hq => ?_, fun n i hn => ?_⟩
  · have := h.bound q i (hby ▸ hq); omega
  · by_cases hnm : n = name
    · subst hnm
      simp [hnulls] at hn
      omega
    · have := h.nullBound n i (hother n hnm ▸ hn); omega
  · rw [atPath?_congr r r' hby fun q j hj => hold j (h.bound q j hj)] at hq
    obtain ⟨m, hm, hpath, hkind⟩ := h.path q i hq
    obtain ⟨j, hj, hi⟩ := Option.bind_eq_some_iff.1 hq
    obtain ⟨-, -, rfl⟩ := Option.map_eq_some_iff.1 hi
    exact ⟨m, by rw [hold j (h.bound q j hj), hm], hpath, hkind⟩
  · by_cases hnm : n = name
    · -- the new null module
      subst hnm
      simp only [nullOf, hnulls, List.lookup_cons, beq_self_eq_true, Option.bind_some,
        hlive, if_true, Option.map_some, Option.some.injEq] at hn
      subst hn
      exact ⟨_, by rw [hlive, if_pos rfl], rfl⟩
    · have hn' : r.nullOf n = some i := by
        simp only [nullOf, hother n hnm] at hn
        obtain ⟨j, hj, hi⟩ := Option.bind_eq_some_iff.1 hn
        rw [hold j (h.nullBound n j hj)] at hi
        simp [nullOf, hj, hi]
      obtain ⟨m, hm, hkind⟩ := h.null n i hn'
      obtain ⟨j, hj, hi⟩ := Option.bind_eq_some_iff.1 hn'
      obtain ⟨-, -, rfl⟩ := Option.map_eq_some_iff.1 hi
      exact ⟨m, by rw [hold j (h.nullBound n j hj), hm], hkind⟩

end Registry

/-! ## Memoised resolutions that match resolution without the memo -/

namespace Engine

variable {c : Context} {e e' e'' : Engine} {σ : Nat → Nat} {key : ResolutionKey} {i : Nat}

/-- Resolving a memo key's name without the memo, from the key's module, for the key's platform
and the preference the context sets, answers `i` and finds no module the state does not have. -/
def ResolvesTo (c : Context) (e : Engine) (key : ResolutionKey) (i : Nat) : Prop :=
  ∃ rec, e.registry.record? key.origin = some rec ∧ ∃ e',
    run ((⟨key.platform, c.opts.preferNativePlatform⟩ : Request).resolveUncached rec.module
      key.name) c e = (.ok i, e') ∧ Covers id e' e

/-- Every memoised resolution is what resolution without the memo answers. -/
def Coherent (c : Context) (e : Engine) : Prop :=
  ∀ key i, e.registry.resolved.lookup key = some i → e.ResolvesTo c key i

/-- A resolution without the memo answers alike, renamed, from a state on the same route that
finds every module the first finds, renamed, and keeps the key's module. -/
theorem ResolvesTo.rename (h : e.ResolvesTo c key i) (hS : e.SameRoute e') (hC : Covers σ e e')
    (hrec : ∀ rec, e.registry.record? key.origin = some rec →
      ∃ rec', e'.registry.record? key.origin = some rec' ∧ rec'.module = rec.module) :
    e'.ResolvesTo c key (σ i) := by
  obtain ⟨rec, hrec₁, e₁, hrun, hcov⟩ := h
  obtain ⟨rec', hrec', hmod⟩ := hrec rec hrec₁
  obtain ⟨b, e₂, hrun', hb, -, -, hD'⟩ := Request.replays_resolveUncached _ rec.module key.name
    c e e' i e₁ hS hC hrun (hcov.trans_left hC)
  subst hb
  exact ⟨rec', hrec', e₂, by rw [hmod]; exact hrun', hD'⟩

/-- States with the same views are on the same route, once no root is detached and package slots
name package files. -/
theorem SameSight.sameRoute (h : e.SameSight e') (hd : e'.vfs.detached = []) (ht : e.haste.Typed) :
    e.SameRoute e' where
  tree := h.shape.sameTree
  detached := hd
  haste n pl := by rw [h.haste]
  packages q _ := h.packageView q
  typed := ht

/-- What a step of a dependency query keeps: what resolution sees, every module found, and each
module's record. -/
structure Moves (e e' : Engine) : Prop where
  sight : e.SameSight e'
  covers : Covers id e e'
  record : ∀ id rec, e.registry.record? id = some rec →
    ∃ rec', e'.registry.record? id = some rec' ∧ rec.Kept rec'

namespace Moves

theorem refl (e : Engine) : Moves e e :=
  ⟨.refl e, .refl e, fun _ rec h => ⟨rec, h, .refl rec⟩⟩

theorem trans (h₁ : Moves e e') (h₂ : Moves e' e'') : Moves e e'' where
  sight := h₁.sight.trans h₂.sight
  covers := h₁.covers.trans_left h₂.covers
  record id rec h := by
    obtain ⟨rec', h', hk'⟩ := h₁.record id rec h
    obtain ⟨rec'', h'', hk''⟩ := h₂.record id rec' h'
    exact ⟨rec'', h'', hk'.trans hk''⟩

/-- A registry that keeps every record, and the path and name of every live module, moves the
state on as a query does. -/
theorem of_registry {r : Registry} (hpk : r.packages = e.registry.packages)
    (hrec : ∀ id rec, e.registry.record? id = some rec →
      ∃ rec', r.record? id = some rec' ∧ rec.Kept rec')
    (hby : ∀ q i, e.registry.atPath? q = some i → r.byPath.lookup q = some i)
    (hnulls : ∀ n i, e.registry.nullOf n = some i → r.nulls.lookup n = some i) :
    Moves e { e with registry := r } := by
  -- a live module stays live, as the same module
  have hlive : ∀ i m, e.registry.live? i = some m → r.live? i = some m := fun i m hm => by
    unfold Registry.live? at hm ⊢
    cases h : e.registry.record? i with
    | none => simp [h] at hm
    | some rec =>
      obtain ⟨rec', hrec', hmod, hl, -⟩ := hrec i rec h
      rw [h] at hm
      rw [hrec']
      dsimp only at hm ⊢
      rw [hmod, hl]
      exact hm
  refine ⟨sameSight_registry r hpk, ⟨fun q i hq => ?_, fun n i hn => ?_⟩, hrec⟩
  · obtain ⟨j, hj, hi⟩ := Option.bind_eq_some_iff.1 hq
    obtain ⟨m, hm, rfl⟩ := Option.map_eq_some_iff.1 hi
    simp [Registry.atPath?, hby q j hq, hlive j m hm]
  · obtain ⟨j, hj, hi⟩ := Option.bind_eq_some_iff.1 hn
    obtain ⟨m, hm, rfl⟩ := Option.map_eq_some_iff.1 hi
    simp [Registry.nullOf, hnulls n j hn, hlive j m hm]

/-- A live module stays live, as the same module. -/
theorem live? (h : Moves e e') {i : Nat} {m : Module} (hm : e.registry.live? i = some m) :
    e'.registry.live? i = some m := by
  unfold Registry.live? at hm ⊢
  cases hrec : e.registry.record? i with
  | none => simp [hrec] at hm
  | some rec =>
    obtain ⟨rec', hrec', hmod, hlive, -⟩ := h.record i rec hrec
    rw [hrec] at hm
    rw [hrec']
    dsimp only at hm ⊢
    rw [hmod, hlive]
    exact hm

/-- A step that keeps the memo and the reverse index keeps the index. -/
theorem indexed (h : Moves e e') (hI : e.registry.Indexed)
    (hres : e'.registry.resolved = e.registry.resolved)
    (hdep : e'.registry.dependers = e.registry.dependers) : e'.registry.Indexed :=
  hI.grows ⟨hres, hdep, fun t ht => by
    obtain ⟨m, hm⟩ := Option.isSome_iff_exists.1 ht
    rw [h.live? hm]
    rfl⟩

/-- A resolution without the memo that a state answers, a later state of the query answers. -/
theorem resolvesTo (h : Moves e e') (hd : e.vfs.detached = []) (ht : e.haste.Typed)
    (hr : e.ResolvesTo c key i) : e'.ResolvesTo c key i :=
  hr.rename (σ := id) (h.sight.sameRoute (h.sight.shape.detached.trans hd) ht) h.covers
    fun rec hrec => by
      obtain ⟨rec', hrec', hk⟩ := h.record _ rec hrec
      exact ⟨rec', hrec', hk.1⟩

end Moves

/-- What a state keeps through dependency queries and the file changes between them: no detached
root, package slots naming package files, the memo indexed, the modules where their paths and
names say, and every kept package filed under its own path. -/
structure Settled (e : Engine) : Prop where
  detached : e.vfs.detached = []
  typed : e.haste.Typed
  indexed : e.registry.Indexed
  placed : e.registry.Placed
  packages : ∀ q pkg, e.registry.packages.lookup q = some pkg → pkg.path = q

/-- A settled state whose every memoised resolution is coherent. -/
structure Sound (c : Context) (e : Engine) : Prop extends Settled e where
  coherent : e.Coherent c

/-- A step that keeps the packages moves a settled state on to a settled one, given that its new
tables are indexed and placed. -/
theorem Settled.moves (h : e.Settled) (hm : Moves e e') (hI : e'.registry.Indexed)
    (hP : e'.registry.Placed) (hpk : e'.registry.packages = e.registry.packages) :
    e'.Settled where
  detached := hm.sight.shape.detached.trans h.detached
  typed := hm.sight.haste ▸ h.typed
  indexed := hI
  placed := hP
  packages q pkg hq := h.packages q pkg (hpk ▸ hq)

/-- A step that keeps the memo keeps it coherent. -/
theorem Coherent.moves (h : e.Coherent c) (hS : e.Settled) (hm : Moves e e')
    (hres : e'.registry.resolved = e.registry.resolved) : e'.Coherent c :=
  fun key i hk => hm.resolvesTo hS.detached hS.typed (h key i (hres ▸ hk))

end Engine

/-! ## Operations that memoise nothing -/

/-- An operation that moves a settled state on only as a dependency query does, leaves it settled
and memoises nothing, whether it succeeds or fails. -/
def Learns {α : Type} (x : EngineM α) : Prop :=
  ∀ c e, e.Settled → (run x c e).2.Settled ∧ Engine.Moves e (run x c e).2 ∧
    (run x c e).2.registry.resolved = e.registry.resolved

namespace Learns

variable {α β γ : Type}

theorem of_state {x : EngineM α} (h : ∀ c e, (run x c e).2 = e) : Learns x :=
  fun c e hS => (h c e).symm ▸ ⟨hS, .refl e, rfl⟩

theorem pure (a : α) : Learns (Pure.pure a : EngineM α) := of_state fun _ _ => rfl

theorem get : Learns (MonadState.get : EngineM Engine) := of_state fun _ _ => rfl

theorem read : Learns (MonadReader.read : EngineM Context) := of_state fun _ _ => rfl

theorem fail (err : Error) : Learns (EngineM.fail err : EngineM α) := of_state fun _ _ => rfl

theorem lift {ε : Type} (f : ε → Error) (r : Except ε α) : Learns (EngineM.lift f r) :=
  of_state fun _ _ => by rw [run_lift]

theorem bind {x : EngineM β} {f : β → EngineM α} (hx : Learns x) (hf : ∀ a, Learns (f a)) :
    Learns (x >>= f) := by
  intro c e hS
  obtain ⟨hS₁, hm₁, hr₁⟩ := hx c e hS
  rw [run_bind]
  rcases hrun : run x c e with ⟨err | a, e₁⟩ <;> rw [hrun] at hS₁ hm₁ hr₁
  · exact ⟨hS₁, hm₁, hr₁⟩
  · obtain ⟨hS₂, hm₂, hr₂⟩ := hf a c e₁ hS₁
    exact ⟨hS₂, hm₁.trans hm₂, hr₂.trans hr₁⟩

theorem attempt {x : EngineM α} (hx : Learns x) : Learns (EngineM.attempt x) := by
  intro c e hS
  rw [run_attempt]
  have h := hx c e hS
  rcases hrun : run x c e with ⟨err | a, e₁⟩ <;> rw [hrun] at h <;> exact h

theorem ite {p : Prop} [Decidable p] {x y : EngineM α} (hx : Learns x) (hy : Learns y) :
    Learns (if p then x else y) := by
  split
  · exact hx
  · exact hy

theorem mapM {f : β → EngineM α} (hf : ∀ a, Learns (f a)) : ∀ l : List β, Learns (l.mapM f)
  | [] => pure []
  | a :: l => by
    rw [List.mapM_cons]
    exact bind (hf a) fun x => bind (mapM hf l) fun xs => pure (x :: xs)

theorem findSomeM? {f : γ → EngineM (Option α)} (hf : ∀ a, Learns (f a)) :
    ∀ l : List γ, Learns (l.findSomeM? f)
  | [] => pure none
  | a :: l => by
    rw [List.findSomeM?_cons]
    refine bind (hf a) fun r => ?_
    cases r with
    | some x => exact pure (some x)
    | none => exact findSomeM? hf l

/-- An operation that leaves the registry as it was and changes nothing resolution sees. -/
theorem of_sight {x : EngineM α}
    (h : ∀ c e, (run x c e).2.registry = e.registry ∧ e.SameSight (run x c e).2) : Learns x := by
  intro c e hS
  obtain ⟨hreg, hsight⟩ := h c e
  have hm : Engine.Moves e (run x c e).2 := by
    refine ⟨hsight, Engine.Covers.of_registry (by rw [hreg]) (by rw [hreg]) (by rw [hreg]),
      fun id rec h => ⟨rec, ?_, .refl rec⟩⟩
    simpa only [Registry.record?, hreg] using h
  exact ⟨hS.moves hm (hreg ▸ hS.indexed) (hreg ▸ hS.placed) (by rw [hreg]), hm, by rw [hreg]⟩

end Learns

/-! ## Operations of a dependency query -/

/-- An operation that moves a settled state on only as a dependency query does, leaves it settled
and a coherent memo coherent, whether it succeeds or fails, in every context whose preference for
native files is `b`. -/
def Coheres {α : Type} (b : Bool) (x : EngineM α) : Prop :=
  ∀ c e, c.opts.preferNativePlatform = b → e.Settled →
    (run x c e).2.Settled ∧ Engine.Moves e (run x c e).2 ∧ (e.Coherent c → (run x c e).2.Coherent c)

namespace Coheres

variable {α β γ : Type} {b : Bool}

theorem of_learns {x : EngineM α} (h : Learns x) : Coheres b x := by
  intro c e _ hS
  obtain ⟨hS', hm, hres⟩ := h c e hS
  exact ⟨hS', hm, fun hC => hC.moves hS hm hres⟩

theorem pure (a : α) : Coheres b (Pure.pure a : EngineM α) := of_learns (.pure a)

theorem fail (err : Error) : Coheres b (EngineM.fail err : EngineM α) := of_learns (.fail err)

theorem bind {x : EngineM β} {f : β → EngineM α} (hx : Coheres b x) (hf : ∀ a, Coheres b (f a)) :
    Coheres b (x >>= f) := by
  intro c e hb hS
  obtain ⟨hS₁, hm₁, hC₁⟩ := hx c e hb hS
  rw [run_bind]
  rcases hrun : run x c e with ⟨err | a, e₁⟩ <;> rw [hrun] at hS₁ hm₁ hC₁
  · exact ⟨hS₁, hm₁, hC₁⟩
  · obtain ⟨hS₂, hm₂, hC₂⟩ := hf a c e₁ hb hS₁
    exact ⟨hS₂, hm₁.trans hm₂, hC₂ ∘ hC₁⟩

theorem attempt {x : EngineM α} (hx : Coheres b x) : Coheres b (EngineM.attempt x) := by
  intro c e hb hS
  rw [run_attempt]
  have h := hx c e hb hS
  rcases hrun : run x c e with ⟨err | a, e₁⟩ <;> rw [hrun] at h <;> exact h

theorem ite {p : Prop} [Decidable p] {x y : EngineM α} (hx : Coheres b x) (hy : Coheres b y) :
    Coheres b (if p then x else y) := by
  split
  · exact hx
  · exact hy

theorem mapM {f : β → EngineM α} (hf : ∀ a, Coheres b (f a)) :
    ∀ l : List β, Coheres b (l.mapM f)
  | [] => pure []
  | a :: l => by
    rw [List.mapM_cons]
    exact bind (hf a) fun x => bind (mapM hf l) fun xs => pure (x :: xs)

theorem forIn_list {f : γ → β → EngineM (ForInStep β)} (hf : ∀ a x, Coheres b (f a x)) :
    ∀ (l : List γ) (x : β), Coheres b (forIn l x f)
  | [], x => pure x
  | a :: l, x => by
    rw [List.forIn_cons]
    refine bind (hf a x) fun step => ?_
    cases step with
    | done y => exact pure y
    | yield y => exact forIn_list hf l y

/-- The context read goes on as an operation for a context with the preference `b`. -/
theorem read_bind {f : Context → EngineM α}
    (hf : ∀ ctx : Context, ctx.opts.preferNativePlatform = b → Coheres b (f ctx)) :
    Coheres b (MonadReader.read >>= f) := by
  intro c e hb hS
  simp only [run_bind, run_read]
  exact hf c hb c e hb hS

end Coheres

/-! ## The steps of a query -/

section Steps

variable {α : Type} {b : Bool}

theorem learns_readFile (p : Path) : Learns (readFile p) :=
  .of_sight fun c e => by
    rw [Engine.run_readFile]
    exact ⟨rfl, (Engine.fills_afterRead e p).keeps.sameSight⟩

theorem learns_fileExists (p : Path) : Learns (fileExists p) := .of_state fun _ _ => rfl

theorem learns_dirExists (p : Path) : Learns (dirExists p) := .of_state fun _ _ => rfl

theorem learns_closest (p : Path) (n : String) : Learns (closest p n) :=
  .of_state fun _ _ => rfl

theorem learns_isAssetName (name : String) : Learns (isAssetName name) :=
  .of_state fun _ _ => rfl

theorem learns_moduleOf (id : Nat) : Learns (moduleOf id) :=
  .of_state fun c e => by
    unfold moduleOf
    simp only [run_bind, run_get]
    split <;> rfl

theorem learns_memoised (path : Path) (field : String) (decode : Json → Except String α)
    (encode : α → Option Json) {compute : EngineM α} (hc : Learns compute) :
    Learns (memoised path field decode encode compute) := by
  intro c e hS
  rw [Engine.run_memoised]
  split
  · exact ⟨hS, .refl e, rfl⟩
  · -- computed, then stored in the content memo, which resolution does not read
    have h₁ := hc c e hS
    rcases hrun : run compute c e with ⟨err | v, e₁⟩ <;> simp only [hrun] at h₁ ⊢
    · exact h₁
    · have h₂ := (Learns.of_sight (x := storeMemo path field (encode v))
        fun c e => ⟨rfl, ⟨rfl, rfl, .refl _, fun _ => rfl, fun _ => rfl, rfl⟩⟩) c e₁ h₁.1
      exact ⟨h₂.1, h₁.2.1.trans h₂.2.1, h₂.2.2.trans h₁.2.2⟩

/-- The module of a path, created when no live module is there, for a kind that stands for a
file. -/
theorem learns_getOrInsert (p : Path) {kind : Path → ModuleKind} (hk : ∀ q n, kind q ≠ .null n) :
    Learns (getOrInsert p kind) := by
  intro c e hS
  unfold getOrInsert
  cases h : e.registry.atPath? p.normalize with
  | some id =>
    simp only [run_bind, run_get, h, run_pure]
    exact ⟨hS, .refl e, trivial⟩
  | none =>
    simp only [run_bind, run_get, h, modifyRegistry, run_modify, run_pure, Registry.insert_fst]
    have hm : Engine.Moves e { e with registry :=
        ((e.registry.insert p.normalize (kind p.normalize)).2.setPath p.normalize
          e.registry.store.size) } := by
      refine .of_registry rfl (fun j rec hj => ⟨rec, ?_, .refl rec⟩) (fun q i hq => ?_)
        (fun n i hn => (Option.bind_eq_some_iff.1 hn).elim fun j hj => ?_)
      · rw [Registry.record?_setPath, Registry.record?_insert,
          if_neg (Nat.ne_of_lt (Registry.record?_lt hj))]
        exact hj
      · have hqp : q ≠ p.normalize := by
          rintro rfl
          rw [h] at hq
          cases hq
        rw [Registry.lookup_setPath, if_neg hqp, Registry.insert_byPath]
        exact (Registry.atPath?_eq_some.1 hq).1
      · obtain ⟨-, -, rfl⟩ := Option.map_eq_some_iff.1 hj.2
        exact hj.1
    refine ⟨hS.moves hm (hm.indexed hS.indexed rfl rfl) ?_ rfl, hm, rfl⟩
    exact hS.placed.addModule (hk p.normalize) (by simp) (fun i => by
        rw [Registry.live?_setPath, Registry.live?_insert]
        split <;> simp_all) (fun q => Registry.lookup_setPath) rfl

/-- The null module of a name, created when the name has no live one. -/
theorem learns_getNullModule (name : String) : Learns (getNullModule name) := by
  intro c e hS
  unfold getNullModule
  simp only [run_bind, run_get]
  split
  · exact ⟨hS, .refl e, rfl⟩
  · rename_i hnone
    simp only [modifyRegistry, run_bind, run_modify, run_pure, Registry.insert_fst]
    have hm : Engine.Moves e { e with registry :=
        ({ (e.registry.insert (Path.ofString name) (.null name)).2 with
          nulls := (name, e.registry.store.size) ::
            e.registry.nulls.filter (·.1 != name) } : Registry) } := by
      refine .of_registry rfl (fun j rec hj => ⟨rec, ?_, .refl rec⟩)
        (fun q i hq => (Registry.atPath?_eq_some.1 hq).1) (fun n i hn => ?_)
      · simp only [Registry.record?] at hj ⊢
        rw [← Registry.record?, Registry.record?_insert,
          if_neg (Nat.ne_of_lt (Registry.record?_lt hj))]
        exact hj
      · -- the name had no live null module, so every other name keeps its entry
        have hnm : n ≠ name := by
          rintro rfl
          simp only [Registry.nullOf] at hn
          rw [hnone] at hn
          cases hn
        have hb : (n == name) = false := by simpa using hnm
        rw [List.lookup_cons, hb, lookup_filter_ne hnm]
        exact (Option.bind_eq_some_iff.1 hn).elim fun j hj => by
          obtain ⟨-, -, rfl⟩ := Option.map_eq_some_iff.1 hj.2
          exact hj.1
    refine ⟨hS.moves hm (hm.indexed hS.indexed rfl rfl) ?_ rfl, hm, rfl⟩
    refine hS.placed.addNull (p := Path.ofString name) (by simp) (fun i => ?_) rfl rfl
    refine (Registry.live?_insert (ModuleKind.null name)).trans ?_
    split <;> simp_all

/-- Reading a package keeps the packages the registry holds, or files the one read under its own
path. -/
theorem run_getPackage_packages (p : Path) {c : Context} {e : Engine} :
    (run (getPackage p) c e).2.registry.packages = e.registry.packages ∨
      ∃ j, (run (getPackage p) c e).2.registry.packages =
        (p.normalize, Package.make p.normalize j) :: e.registry.packages := by
  cases h : e.registry.packages.lookup p.normalize with
  | some pkg => exact .inl (by simp [getPackage, h])
  | none =>
    refine .inr ⟨Engine.packageJson (e.readView p.normalize), ?_⟩
    simp only [getPackage, run_bind, run_get, h, run_attempt, Engine.run_readFile]
    cases e.readView p.normalize with
    | error err => rfl
    | ok s =>
      simp only [Except.mapError, Engine.packageJson]
      cases Json.parse s <;> rfl

theorem learns_getPackage (p : Path) : Learns (getPackage p) := by
  intro c e hS
  obtain ⟨e', hF, hrun⟩ := Engine.run_getPackage (c := c) (e := e) p
  obtain ⟨pk, hpk⟩ := run_getPackage_registry (c := c) (e := e) p
  have hown := run_getPackage_packages p (c := c) (e := e)
  rw [hrun] at hpk hown ⊢
  dsimp only at hpk hown
  -- only the packages the registry keeps change
  have hm : Engine.Moves e e' := by
    refine ⟨hF.keeps.sameSight, Engine.Covers.of_registry (by rw [hpk]) (by rw [hpk]) (by rw [hpk]),
      fun id rec h => ⟨rec, ?_, .refl rec⟩⟩
    simpa only [Registry.record?, hpk] using h
  refine ⟨⟨hm.sight.shape.detached.trans hS.detached, hm.sight.haste ▸ hS.typed,
    hm.indexed hS.indexed (by rw [hpk]) (by rw [hpk]), ?_, fun q pkg hq => ?_⟩, hm, by rw [hpk]⟩
  · exact hS.placed.congr (by rw [hpk]) (fun i => by simp only [Registry.live?, Registry.record?, hpk])
      (by rw [hpk]) (by rw [hpk])
  · -- a package read now is filed under the path it was read at
    rcases hown with hown | ⟨j, hown⟩
    · exact hS.packages q pkg (hown ▸ hq)
    · rw [hown, List.lookup_cons] at hq
      split at hq
      · rename_i hqp
        cases hq
        exact (beq_iff_eq.1 hqp).symm
      · exact hS.packages q pkg hq

/-- Recording what a module declares, where nothing was recorded, keeps a settled state settled. -/
theorem Engine.Settled.setData {e : Engine} (hS : e.Settled) {id : Nat}
    {rec : ModuleRecord} (hrec : e.registry.record? id = some rec) (hnone : rec.data = none)
    (d : ModuleData) :
    Engine.Settled { e with registry :=
        ({ e.registry with store := e.registry.store.set! id { rec with data := some d } } :
          Registry) } ∧
      Engine.Moves e { e with registry :=
        ({ e.registry with store := e.registry.store.set! id { rec with data := some d } } :
          Registry) } := by
  have hlive : ∀ j, ({ e.registry with store := (e.registry.store.set! id
      { rec with data := some d }) } : Registry).live? j = e.registry.live? j := fun j => by
    simp only [Registry.live?, Registry.record?_setData]
    by_cases hj : j = id ∧ id < e.registry.store.size
    · rw [if_pos hj]
      obtain ⟨rfl, -⟩ := hj
      rw [hrec]
    · rw [if_neg hj]
  have hm : Engine.Moves e { e with registry :=
      ({ e.registry with store := e.registry.store.set! id { rec with data := some d } } :
        Registry) } := by
    refine .of_registry rfl (fun j rc hj => ?_) (fun q i hq => (Registry.atPath?_eq_some.1 hq).1)
      (fun n i hn => (Option.bind_eq_some_iff.1 hn).elim fun j hj => ?_)
    · rw [Registry.record?_setData]
      split
      · rename_i hji
        obtain ⟨rfl, -⟩ := hji
        rw [hrec] at hj
        cases hj
        exact ⟨_, rfl, rfl, rfl, fun d' hd' => by simp [hnone] at hd'⟩
      · exact ⟨rc, hj, .refl rc⟩
    · obtain ⟨-, -, rfl⟩ := Option.map_eq_some_iff.1 hj.2
      exact hj.1
  exact ⟨hS.moves hm (hm.indexed hS.indexed rfl rfl) (hS.placed.congr (by simp) hlive rfl rfl) rfl,
    hm⟩

theorem learns_readSource (m : Module) : Learns (readSource m) :=
  .bind (learns_readFile _) fun _ => .ite (.pure _) (.pure _)

/-- Recording what an operation that leaves the registry alone computes, where nothing was
recorded, keeps a settled state settled. -/
theorem Engine.Settled.setData_after {c : Context} {e : Engine} (hS : e.Settled)
    {id : Nat} {rec : ModuleRecord}
    (hrec : e.registry.record? id = some rec) (hnone : rec.data = none) {x : EngineM ModuleData}
    (hx : Learns x) (hreg : (run x c e).2.registry = e.registry)
    {f : ModuleData → Registry → Registry}
    (hf : ∀ d, f d e.registry =
      { e.registry with store := e.registry.store.set! id { rec with data := some d } }) :
    (run (x >>= fun d => modifyRegistry (f d) >>= fun _ => Pure.pure d) c e).2.Settled ∧
      Engine.Moves e (run (x >>= fun d => modifyRegistry (f d) >>= fun _ => Pure.pure d) c e).2 ∧
      (run (x >>= fun d => modifyRegistry (f d) >>= fun _ => Pure.pure d) c e).2.registry.resolved =
        e.registry.resolved := by
  have h₁ := hx c e hS
  rw [run_bind]
  rcases hrun : run x c e with ⟨err | d, e₁⟩ <;> simp only [hrun] at h₁ hreg ⊢
  · exact h₁
  · simp only [modifyRegistry, run_bind, run_modify, run_pure]
    rw [hreg, hf]
    obtain ⟨hS₂, hm₂⟩ := h₁.1.setData (hreg ▸ hrec) hnone d
    rw [hreg] at hS₂ hm₂
    exact ⟨hS₂, h₁.2.1.trans hm₂, rfl⟩

theorem learns_moduleData (id : Nat) : Learns (moduleData id) := by
  intro c e hS
  unfold moduleData
  simp only [run_bind, run_get]
  split
  · exact ⟨hS, .refl e, rfl⟩
  · rename_i rec hrec
    split
    · exact ⟨hS, .refl e, rfl⟩
    · rename_i hnone
      have hstore : e.registry.store[id]? = some rec := hrec
      -- what the module's kind gives is recorded with it
      split
      · exact hS.setData_after hrec hnone
          (learns_memoised _ _ _ _ (learns_readSource _)) (run_readDeclarations_registry _)
          fun d => by simp only [hstore]
      · exact hS.setData_after hrec hnone (.pure _) rfl fun d => by simp only [hstore]
      · exact hS.setData_after hrec hnone (.pure _) rfl fun d => by simp only [hstore]

theorem learns_getModule (p : Path) : Learns (getModule p) :=
  learns_getOrInsert p fun _ _ h => nomatch h

theorem learns_getAssetModule (p : Path) : Learns (getAssetModule p) :=
  .bind .read fun _ => learns_getOrInsert p fun _ _ h => nomatch h

theorem learns_moduleForFile (f : String) : Learns (moduleForFile f) :=
  .bind (learns_isAssetName _) fun _ => .ite (learns_getAssetModule _) (learns_getModule _)

theorem learns_packageFor (m : Module) : Learns (packageFor m) := by
  unfold packageFor
  -- source and asset modules look for the nearest package file; other modules have none
  split
  all_goals first
    | exact .pure _
    | refine .bind (learns_closest _ _) fun q => ?_
      split
      · exact .bind (learns_getPackage _) fun _ => .pure _
      · exact .pure _

namespace Request

variable (req : Request)

theorem learns_loadAsFile (path : String) : Learns (req.loadAsFile path) :=
  .of_state fun c e => by rw [req.run_loadAsFile]

theorem learns_loadAsDir : ∀ (fuel : Nat) (dir : String), Learns (req.loadAsDir fuel dir)
  | 0, _ => .fail _
  | fuel + 1, dir => by
    unfold loadAsDir
    have hindex := req.learns_loadAsFile (joinText dir "index")
    refine .bind (learns_dirExists _) fun _ => .ite (.pure _) ?_
    refine .bind (learns_fileExists _) fun _ => .ite ?_ hindex
    refine .bind (learns_getPackage _) fun pkg => .ite ?_ hindex
    -- the package's main as a file, then as a directory, then the directory's index
    refine .bind (req.learns_loadAsFile _) fun r => ?_
    split
    · exact .pure _
    · refine .bind (learns_loadAsDir fuel _) fun r => ?_
      split
      · exact .pure _
      · exact hindex

theorem learns_dirFuel : Learns dirFuel := .of_state fun c e => by rw [run_dirFuel]

theorem learns_loadFileOrDir (path : String) : Learns (req.loadFileOrDir path) := by
  unfold loadFileOrDir
  refine .bind (req.learns_loadAsFile _) fun f => ?_
  extract_lets jp
  have hjp : ∀ file, Learns (jp file) := by
    intro file
    dsimp only [jp]
    split
    · exact .bind (learns_moduleForFile _) fun _ => .pure _
    · exact .pure _
  split
  · exact .bind (.pure _) hjp
  · exact .bind learns_dirFuel fun _ => .bind (req.learns_loadAsDir _ _) hjp

theorem learns_resolveHaste (name : String) : Learns (req.resolveHaste name) := by
  unfold resolveHaste
  refine .ite (.pure _) (.bind .get fun e => ?_)
  dsimp only
  split
  · exact .bind (learns_getModule _) fun _ => .pure _
  · exact .bind (learns_getPackage _) fun _ => req.learns_loadFileOrDir _
  · split
    · exact req.learns_loadFileOrDir _
    · exact .pure _

theorem learns_resolvePath (m : Module) (name : String) : Learns (req.resolvePath m name) :=
  .ite (.pure _) (req.learns_loadFileOrDir _)

theorem learns_resolveNodeModules (m : Module) (name : String) :
    Learns (req.resolveNodeModules m name) :=
  .ite (.pure _) (.findSomeM? (fun _ => .ite (.pure _) (req.learns_loadFileOrDir _)) _)

theorem learns_resolveBuiltin (name : String) : Learns (resolveBuiltin name) :=
  .ite (.bind (learns_getNullModule _) fun _ => .pure _) (.pure _)

theorem learns_resolveUncached (m : Module) (name : String) :
    Learns (req.resolveUncached m name) := by
  unfold resolveUncached
  refine .bind .read fun ctx => .bind (learns_isAssetName _) fun _ => ?_
  extract_lets name' strategies redirected lookup afterAsset
  -- the four strategies in order, the first that finds a module winning
  have hstrategies : ∀ u n, Learns (strategies u n) := by
    intro u n
    dsimp only [strategies]
    refine .bind (req.learns_resolveHaste _) fun r => ?_
    split
    · exact .pure _
    refine .bind (req.learns_resolvePath m _) fun r => ?_
    split
    · exact .pure _
    refine .bind (req.learns_resolveNodeModules m _) fun r => ?_
    split
    · exact .pure _
    refine .bind (learns_resolveBuiltin _) fun r => ?_
    split
    · exact .pure _
    · exact .fail _
  have hredirected : ∀ u n, Learns (redirected u n) := by
    intro u n
    dsimp only [redirected]
    split
    · exact learns_getNullModule _
    · exact hstrategies () _
    · exact hstrategies () _
  have hafterAsset : ∀ u, Learns (afterAsset u) := by
    intro u
    dsimp only [afterAsset]
    refine .bind (learns_packageFor m) fun pkg => ?_
    split
    · split
      · exact learns_getNullModule _
      · exact hredirected () _
      · exact hredirected () _
    · exact hredirected () _
  refine .ite (.bind .get fun e => ?_) (hafterAsset ())
  split
  · exact learns_getAssetModule _
  · exact hafterAsset ()

/-- Memoising a resolution keeps the registry's modules, paths and null names. -/
theorem run_setResolved_nulls (key : ResolutionKey) (t : Nat) {c : Context} {e : Engine} :
    (run (setResolved key t) c e).2.registry.nulls = e.registry.nulls := by
  simp only [setResolved, modifyRegistry, run_modify]
  cases e.registry.resolved.lookup key <;> rfl

/-- A resolution through the memo: a memoised answer is coherent by the invariant, and a fresh one
is memoised in a state that answers it again without the memo, finding nothing new. -/
theorem coheres_resolveDependency (origin : Nat) (name : String) :
    Coheres req.preferNative (req.resolveDependency origin name) := by
  intro c e hb hS
  cases hl : e.registry.resolved.lookup ⟨origin, req.platform, name⟩ with
  | some t =>
    rw [run_resolveDependency_of_memo req hl (hS.indexed.live _ t hl)]
    exact ⟨hS, .refl e, id⟩
  | none =>
    cases hrec : e.registry.record? origin with
    | none =>
      rw [run_resolveDependency_of_unknown req hl hrec]
      exact ⟨hS, .refl e, id⟩
    | some rec =>
      rw [run_resolveDependency_of_none req hl hrec, run_bind]
      have h₁ := req.learns_resolveUncached rec.module name c e hS
      have hlive := ends_resolveUncached req rec.module name c e
      rcases hu : run (req.resolveUncached rec.module name) c e with ⟨err | t, e₁⟩ <;>
        rw [hu] at h₁
      · exact ⟨h₁.1, h₁.2.1, fun hC => hC.moves hS h₁.2.1 h₁.2.2⟩
      dsimp only at h₁
      obtain ⟨hS₁, hm₁, hres₁⟩ := h₁
      obtain ⟨e₂, he₂⟩ : ∃ e₂,
          run (setResolved ⟨origin, req.platform, name⟩ t) c e₁ = (.ok (), e₂) := ⟨_, rfl⟩
      obtain ⟨hstore, hby, hpk, hlookup⟩ :=
        run_setResolved_registry (c := c) (e := e₁) ⟨origin, req.platform, name⟩ t
      have hnulls := run_setResolved_nulls (c := c) (e := e₁) ⟨origin, req.platform, name⟩ t
      rw [he₂] at hstore hby hpk hlookup hnulls
      dsimp only at hstore hby hpk hlookup hnulls
      simp only [run_bind, he₂, run_pure]
      -- memoising changes nothing resolution sees and finds
      have he : e₂ = { e₁ with registry := e₂.registry } := by
        have h₂ : (run (setResolved ⟨origin, req.platform, name⟩ t) c e₁).2 = e₂ := by rw [he₂]
        rw [← h₂]
        rfl
      have hm₂ : Engine.Moves e₁ e₂ := by
        rw [he]
        refine ⟨Engine.sameSight_registry _ hpk, Engine.Covers.of_registry hstore hby hnulls,
          fun id rc h => ⟨rc, ?_, .refl rc⟩⟩
        simpa only [Registry.record?, hstore] using h
      have hm := hm₁.trans hm₂
      have hI : e₂.registry.Indexed := by
        have hI : (run (setResolved ⟨origin, req.platform, name⟩ t) c e₁).2.registry.Indexed :=
          Engine.indexed_setResolved hS₁.indexed (hlive t e₁ hu)
        rwa [he₂] at hI
      refine ⟨hS₁.moves hm₂ hI (hS₁.placed.congr (by rw [hstore])
        (fun i => by simp only [Registry.live?, Registry.record?, hstore]) hby hnulls) hpk, hm,
        fun hC k i hk => ?_⟩
      rw [hlookup] at hk
      split at hk
      · -- the new resolution, answered again from the state it is memoised in
        rename_i hkey
        subst hkey
        cases hk
        have hreq : (⟨req.platform, c.opts.preferNativePlatform⟩ : Request) = req := by rw [hb]
        obtain ⟨rec', hrec', hkept⟩ := hm.record origin rec hrec
        have hroute := hm.sight.sameRoute (hm.sight.shape.detached.trans hS.detached) hS.typed
        obtain ⟨b', e₃, hrun₃, hb', -, -, hD'⟩ := req.replays_resolveUncached (σ := id) rec.module
          name c e e₂ t e₁ hroute hm.covers hu hm₂.covers
        subst hb'
        refine ⟨rec', hrec', e₃, ?_, hD'⟩
        simp only [hreq, hkept.1]
        exact hrun₃
      · -- an earlier resolution, kept through both steps
        exact hm₂.resolvesTo hS₁.detached hS₁.typed (hC.moves hS hm₁ hres₁ k i hk)

end Request

theorem learns_relativeName (p : Path) : Learns (relativeName p) :=
  .bind .get fun _ => .pure _

theorem learns_isHasteCompatible (m : Module) (pkg : Option Package) :
    Learns (isHasteCompatible m pkg) :=
  .ite (.pure _) (.bind .get fun _ => .pure _)

theorem learns_moduleName (id : Nat) : Learns (moduleName id) := by
  refine .bind (learns_moduleOf id) fun m => ?_
  split
  · exact .pure _
  · exact .pure _
  · refine .bind (learns_relativeName _) fun rel => ?_
    dsimp only
    split
    · exact .pure _
    · exact .pure _
  · refine .bind (learns_packageFor m) fun pkg =>
      .bind (learns_isHasteCompatible m pkg) fun h => ?_
    dsimp only
    refine .ite (.bind (learns_moduleData id) fun d => ?_) (learns_relativeName _)
    -- a global name, else a package's name for its main module, else the relative path
    split
    · exact .pure _
    · split
      · split
        · exact .ite (.pure _) (learns_relativeName _)
        · exact learns_relativeName _
      · exact learns_relativeName _

section Visit

variable (req : Request) (fatal : Bool) (mf : List (String × Path))

theorem coheres_visitModule (v : Nat) (w : Walk) :
    Coheres req.preferNative (visitModule req fatal mf v w) := by
  unfold visitModule
  extract_lets
  refine .bind (.of_learns (learns_moduleData v)) fun d => .bind (.mapM (fun _ =>
    .bind (.attempt (req.coheres_resolveDependency _ _)) fun _ => .pure _) _)
    fun resolved => .bind (.of_learns (learns_moduleOf v)) fun m => ?_
  extract_lets afterMocks
  -- past the module's own mock, each outcome is recorded, mocked or reported in turn
  have hafterMocks : ∀ u ps, Coheres req.preferNative (afterMocks u ps) := by
    intro u ps
    dsimp only [afterMocks]
    refine .bind (.forIn_list (fun x s => ?_) _ _) fun s => .pure _
    split
    · exact .pure _
    · refine .ite ?_ (.bind (.fail _) fun _ => .pure _)
      split
      · exact .bind (.of_learns (learns_getModule _)) fun _ => .pure _
      · exact .ite (.bind (.fail _) fun _ => .pure _) (.pure _)
  refine .ite (.bind (.of_learns (learns_moduleName v)) fun own => ?_) (hafterMocks () _)
  split
  · exact .ite (.bind (.of_learns (learns_getModule _)) fun _ => hafterMocks () _) (hafterMocks () _)
  · exact hafterMocks () _

theorem coheres_walk : ∀ (fuel : Nat) (w : Walk),
    Coheres req.preferNative (walk req fatal mf fuel w)
  | 0, _ => .fail _
  | fuel + 1, w => by
    unfold walk
    split
    · exact .pure _
    · exact .ite (coheres_walk fuel _)
        (.bind (coheres_visitModule req fatal mf _ _) fun w' => coheres_walk fuel w')

end Visit

theorem learns_resolvePlatform (platform : Option String) (entry : Path) :
    Learns (resolvePlatform platform entry) := .of_state fun _ _ => run_resolvePlatform_state _ _

theorem learns_mocks : Learns mocks := .of_state fun _ _ => run_mocks_state

theorem learns_getModuleForPath (path : Path) : Learns (getModuleForPath path) :=
  .bind .read fun _ => .ite (learns_getAssetModule _) (learns_getModule _)

/-- The entry of a query names a file relative to the roots, or an absolute path inside one, so
that finding it registers no directory outside the roots. -/
def Engine.EntryInRoots (e : Engine) (entry : String) : Prop :=
  (Path.ofString entry).isAbsolute = true →
    e.vfs.roots.any (fun r => (Path.ofString entry).normalize.startsWith r) = true

/-- An entry in the roots is found without changing the state. -/
theorem run_entryPath_of_inRoots {entry : String} {c : Context} {e : Engine}
    (h : e.EntryInRoots entry) : (run (entryPath entry) c e).2 = e := by
  have htry : ∀ (q : Path) (err : Error),
      (run (fileExists q >>= fun b => if b = true then Pure.pure q else fail err) c e).2 = e := by
    intro q err
    simp only [run_bind, fileExists, run_get, run_pure]
    split <;> rfl
  unfold entryPath
  rw [run_bind, run_get]
  dsimp only
  split
  · rename_i habs
    rw [if_neg (by simpa using h habs)]
    exact htry _ _
  · -- a relative entry is looked up in each root, which reads the mirror only
    rw [run_bind]
    split
    · rename_i heq
      have hs := congrArg Prod.snd heq
      rw [run_findM_fileExists_state] at hs
      dsimp only at hs
      subst hs
      split <;> rfl
    · rename_i heq
      have hs := congrArg Prod.snd heq
      rw [run_findM_fileExists_state] at hs
      dsimp only at hs
      subst hs
      rfl

/-- A dependency query for an entry in the roots moves a sound state on as its steps do, and
leaves it sound. -/
theorem graphDependencies_sound {entry : String} {platform : Option String} {c : Context}
    {e : Engine} (hS : e.Sound c) (hentry : e.EntryInRoots entry) :
    (run (graphDependencies entry platform) c e).2.Sound c ∧
      Engine.Moves e (run (graphDependencies entry platform) c e).2 := by
  have hpath := run_entryPath_of_inRoots (c := c) hentry
  unfold graphDependencies
  rw [run_bind]
  rcases hrun : run (entryPath entry) c e with ⟨err | path, e₁⟩ <;> rw [hrun] at hpath <;>
    dsimp only at hpath <;> subst hpath
  · exact ⟨hS, .refl _⟩
  suffices h : (run _ c e₁).2.Settled ∧ Engine.Moves e₁ (run _ c e₁).2 ∧
      (e₁.Coherent c → (run _ c e₁).2.Coherent c) from ⟨⟨h.1, h.2.2 hS.coherent⟩, h.2.1⟩
  refine (show Coheres c.opts.preferNativePlatform _ from ?_) c e₁ rfl hS.toSettled
  refine .bind (.of_learns (learns_resolvePlatform _ _)) fun platform =>
    .read_bind fun ctx hctx => ?_
  extract_lets opts req fatal
  refine .bind (.of_learns learns_mocks) fun mockFiles =>
    .bind (.of_learns (learns_getModuleForPath _)) fun entryId =>
    .bind (.of_learns (learns_moduleName _)) fun main =>
    .bind (.of_learns (.of_state fun _ _ => by simp only [walkFuel, run_bind, run_get, run_pure]))
    fun fuel => .bind (hctx ▸ coheres_walk req fatal mockFiles _ _) fun w => ?_
  dsimp only
  -- each lazy group resolves its names through the memo, as the walk does
  refine .bind (.of_learns (learns_moduleData _)) fun d =>
    .bind (.forIn_list (fun group s => ?_) _ _) fun s => .pure _
  refine .bind (.forIn_list (fun name st => ?_) _ _) fun st => .ite (.pure _) (.pure _)
  refine .bind (.attempt (hctx ▸ req.coheres_resolveDependency _ _)) fun res => ?_
  split
  · exact .bind (.of_learns (learns_moduleOf _)) fun _ => .pure _
  · exact .ite (.pure _) (.bind (.fail _) fun _ => .pure _)

end Steps

end ModuleBundler
