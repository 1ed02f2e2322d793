import ModuleBundler.Proofs.Resolve.Sight
import ModuleBundler.Proofs.Registry.Dependers

/-!
# What a dependency query keeps

A dependency query moves the engine on by small steps: it reads files through the mirror, creates
modules, records what a module declares, keeps packages and memoises resolutions. None of these
changes what resolution sees, takes a module away or forgets a memoised resolution, and a
resolution is memoised only when it succeeds, naming a live module (`ends_resolveUncached`).
`Engine.Extends` gathers these facts as a relation between a state and a later one, and
`Extending x` says that `x` moves the engine on only so. Both compose as the operations do, from
a read through the mirror up to the resolution of a required name through the memo
(`extending_resolveDependency`).

Hence a resolution made within a query answers the same in every later state of the query: the
same module when it succeeded, the same error when it failed (`resolveDependency_stays_ok`,
`resolveDependency_stays_error`).
-/

namespace ModuleBundler

open EngineM

/-! ## Answers and the state they are given in -/

/-- Every answer of `x` satisfies `P` in the state `x` leaves. -/
def Ends {α : Type} (x : EngineM α) (P : α → Engine → Prop) : Prop :=
  ∀ c e a e', run x c e = (.ok a, e') → P a e'

namespace Ends

variable {α β : Type} {P : α → Engine → Prop}

theorem fail (err : Error) : Ends (EngineM.fail err : EngineM α) P := by
  intro c e a e' h
  cases h

theorem pure {a : α} (h : ∀ e, P a e) : Ends (Pure.pure a : EngineM α) P := by
  intro c e a' e' hr
  cases hr
  exact h e

/-- A sequence ends as its second part ends, after any answer of the first that satisfies `Q` in
the state it leaves. -/
theorem bind {Q : β → Engine → Prop} {x : EngineM β} {f : β → EngineM α} (hx : Ends x Q)
    (hf : ∀ b c e a e', Q b e → run (f b) c e = (.ok a, e') → P a e') : Ends (x >>= f) P := by
  intro c e a e' h
  obtain ⟨b, e₁, hb, h⟩ := run_bind_eq_ok h
  exact hf b c e₁ a e' (hx c e b e₁ hb) h

/-- A sequence whose second part ends with `P` whatever the first answered. -/
theorem seq {x : EngineM β} {f : β → EngineM α} (hf : ∀ b, Ends (f b) P) : Ends (x >>= f) P :=
  bind (Q := fun _ _ => True) (fun _ _ _ _ _ => trivial) fun b c e a e' _ h => hf b c e a e' h

theorem ite {p : Prop} [Decidable p] {x y : EngineM α} (hx : p → Ends x P) (hy : ¬p → Ends y P) :
    Ends (if p then x else y) P := by
  by_cases hp : p
  · rw [if_pos hp]
    exact hx hp
  · rw [if_neg hp]
    exact hy hp

/-- A search through a list ends with what the element it stops at ends with. -/
theorem findSomeM? {γ : Type} {f : γ → EngineM (Option α)} {P : Option α → Engine → Prop}
    (hnone : ∀ e, P none e) (hf : ∀ x, Ends (f x) P) : ∀ l : List γ, Ends (l.findSomeM? f) P
  | [] => pure hnone
  | x :: l => by
    rw [List.findSomeM?_cons]
    refine bind (hf x) fun r c e a e' hr h => ?_
    cases r with
    | some b =>
      cases h
      exact hr
    | none => exact findSomeM? hnone hf l c e a e' h

end Ends

/-- A module number names a live module of the state. -/
def Engine.LiveAnswer (id : Nat) (e : Engine) : Prop := (e.registry.live? id).isSome

/-- A found module, if any, is live in the state. -/
def Engine.LiveFound (r : Option Nat) (e : Engine) : Prop := ∀ id, r = some id → e.LiveAnswer id

theorem Engine.liveFound_none (e : Engine) : e.LiveFound none := fun _ h => nomatch h

theorem Registry.live?_of_atPath? {r : Registry} {p : Path} {id : Nat} (h : r.atPath? p = some id) :
    (r.live? id).isSome := by
  obtain ⟨-, rec, hrec, hlive⟩ := Registry.atPath?_eq_some.1 h
  simp [Registry.live?, hrec, hlive]

theorem ends_getOrInsert (p : Path) (kind : Path → ModuleKind) :
    Ends (getOrInsert p kind) Engine.LiveAnswer := by
  intro c e a e' h
  obtain ⟨id, r, hrun, hat⟩ := Engine.run_getOrInsert (c := c) (e := e) p kind
  rw [hrun] at h
  cases h
  exact Registry.live?_of_atPath? hat

theorem ends_getModule (p : Path) : Ends (getModule p) Engine.LiveAnswer :=
  ends_getOrInsert p _

theorem ends_getAssetModule (p : Path) : Ends (getAssetModule p) Engine.LiveAnswer :=
  .seq fun _ => ends_getOrInsert p _

theorem ends_getNullModule (name : String) : Ends (getNullModule name) Engine.LiveAnswer := by
  intro c e a e' h
  unfold getNullModule at h
  simp only [run_bind, run_get] at h
  split at h
  · -- a live null module of the name
    rename_i id hid
    cases h
    obtain ⟨id', -, hlive⟩ := Option.bind_eq_some_iff.1 hid
    obtain ⟨m, hm, rfl⟩ := Option.map_eq_some_iff.1 hlive
    simp [Engine.LiveAnswer, hm]
  · -- a fresh one
    simp only [modifyRegistry, run_bind, run_modify, run_pure, Prod.mk.injEq] at h
    obtain ⟨ha, rfl⟩ := h
    cases ha
    simp [Engine.LiveAnswer, Registry.live?, Registry.record?, Registry.insert]

theorem ends_moduleForFile (f : String) : Ends (moduleForFile f) Engine.LiveAnswer :=
  .seq fun _ => .ite (fun _ => ends_getAssetModule _) (fun _ => ends_getModule _)

namespace Request

variable (req : Request)

theorem ends_loadFileOrDir (path : String) : Ends (req.loadFileOrDir path) Engine.LiveFound := by
  unfold loadFileOrDir
  refine .seq fun f => ?_
  extract_lets jp
  -- what is found becomes a live module
  have hjp : ∀ file, Ends (jp file) Engine.LiveFound := by
    intro file
    dsimp only [jp]
    split
    · refine .bind (ends_moduleForFile _) fun id c e a e' hlive h => ?_
      cases h
      exact fun _ hid => Option.some_inj.1 hid ▸ hlive
    · exact .pure Engine.liveFound_none
  split
  · exact .seq hjp
  · exact .seq fun _ => .seq hjp

theorem ends_resolveHaste (name : String) : Ends (req.resolveHaste name) Engine.LiveFound := by
  unfold resolveHaste
  refine .ite (fun _ => .pure Engine.liveFound_none) fun _ => .seq fun e => ?_
  dsimp only
  split
  · refine .bind (ends_getModule _) fun id c e a e' hlive h => ?_
    cases h
    exact fun _ hid => Option.some_inj.1 hid ▸ hlive
  · exact .seq fun _ => ends_loadFileOrDir req _
  · split
    · exact ends_loadFileOrDir req _
    · exact .pure Engine.liveFound_none

theorem ends_resolvePath (m : Module) (name : String) :
    Ends (req.resolvePath m name) Engine.LiveFound :=
  .ite (fun _ => .pure Engine.liveFound_none) fun _ => ends_loadFileOrDir req _

theorem ends_resolveNodeModules (m : Module) (name : String) :
    Ends (req.resolveNodeModules m name) Engine.LiveFound :=
  .ite (fun _ => .pure Engine.liveFound_none) fun _ => .findSomeM? Engine.liveFound_none
    (fun _ => .ite (fun _ => .pure Engine.liveFound_none) fun _ => ends_loadFileOrDir req _) _

theorem ends_resolveBuiltin (name : String) : Ends (resolveBuiltin name) Engine.LiveFound :=
  .ite (fun _ => .bind (ends_getNullModule _) fun id c e a e' hlive h => by
      cases h
      exact fun _ hid => Option.some_inj.1 hid ▸ hlive)
    fun _ => .pure Engine.liveFound_none

/-- A resolution without the memo ends with an answer `A` holds of, when every stage it can end at
does: the asset module of a file an asset index gives, a null module, or what one of the four
searches finds. -/
theorem ends_resolveUncached_of {A : Nat → Engine → Prop} (m : Module) (name : String)
    (hasset : ∀ (ai : AssetIndex) dir n pl p s c a e', ai.resolve s.vfs s.disk dir n pl = some p →
      run (getAssetModule p) c s = (.ok a, e') → A a e')
    (hnull : ∀ n, Ends (getNullModule n) A)
    (hhaste : ∀ n, Ends (req.resolveHaste n) fun r e => ∀ id, r = some id → A id e)
    (hpath : ∀ n, Ends (req.resolvePath m n) fun r e => ∀ id, r = some id → A id e)
    (hnode : ∀ n, Ends (req.resolveNodeModules m n) fun r e => ∀ id, r = some id → A id e)
    (hbuiltin : ∀ n, Ends (resolveBuiltin n) fun r e => ∀ id, r = some id → A id e) :
    Ends (req.resolveUncached m name) A := by
  unfold resolveUncached
  refine .seq fun ctx => .seq fun _ => ?_
  extract_lets name' strategies redirected lookup afterAsset
  -- a stage that finds a module ends the resolution with it
  have hstage : ∀ {x : EngineM (Option Nat)} {k : Option Nat → EngineM Nat},
      Ends x (fun r e => ∀ id, r = some id → A id e) → (∀ id, k (some id) = Pure.pure id) →
      Ends (k none) A → Ends (x >>= k) A := by
    intro x k hx hk hnone
    refine .bind hx fun r c e a e' hr h => ?_
    cases r with
    | some id =>
      rw [hk] at h
      cases h
      exact hr _ rfl
    | none => exact hnone c e a e' h
  have hstrategies : ∀ u n, Ends (strategies u n) A := by
    intro u n
    dsimp only [strategies]
    refine hstage (hhaste _) (fun _ => rfl) ?_
    refine hstage (hpath _) (fun _ => rfl) ?_
    refine hstage (hnode _) (fun _ => rfl) ?_
    exact hstage (hbuiltin _) (fun _ => rfl) (.fail _)
  have hredirected : ∀ u n, Ends (redirected u n) A := by
    intro u n
    dsimp only [redirected]
    split
    · exact hnull _
    · exact hstrategies () _
    · exact hstrategies () _
  have hafterAsset : ∀ u, Ends (afterAsset u) A := by
    intro u
    dsimp only [afterAsset]
    refine .seq fun pkg => ?_
    split
    · split
      · exact hnull _
      · exact hredirected () _
      · exact hredirected () _
    · exact hredirected () _
  -- the asset stage reads the state it runs from
  refine .ite (fun _ => ?_) fun _ => hafterAsset ()
  intro c e a e' h
  simp only [run_bind, run_get] at h
  split at h
  · exact hasset _ _ _ _ _ e c a e' ‹_› h
  · exact hafterAsset () c e a e' h

/-- A resolution without the memo answers a live module. -/
theorem ends_resolveUncached (m : Module) (name : String) :
    Ends (req.resolveUncached m name) Engine.LiveAnswer :=
  ends_resolveUncached_of req m name
    (fun _ _ _ _ p _ c a e' _ h => ends_getAssetModule p c _ a e' h) ends_getNullModule
    (ends_resolveHaste req) (ends_resolvePath req m) (ends_resolveNodeModules req m) ends_resolveBuiltin

end Request

/-! ## Moving on within a query -/

/-- A later record of a module: the same module, as live as before, and what it was read to
declare, if it was. -/
def ModuleRecord.Kept (rec rec' : ModuleRecord) : Prop :=
  rec'.module = rec.module ∧ rec'.live = rec.live ∧ ∀ d, rec.data = some d → rec'.data = some d

theorem ModuleRecord.Kept.refl (rec : ModuleRecord) : rec.Kept rec := ⟨rfl, rfl, fun _ => id⟩

theorem ModuleRecord.Kept.trans {r₁ r₂ r₃ : ModuleRecord} (h₁ : r₁.Kept r₂) (h₂ : r₂.Kept r₃) :
    r₁.Kept r₃ :=
  ⟨h₂.1.trans h₁.1, h₂.2.1.trans h₁.2.1, fun d hd => h₂.2.2 d (h₁.2.2 d hd)⟩

namespace Registry

variable {r : Registry} {id t : Nat} {rec : ModuleRecord}

end Registry

namespace Engine

variable {req : Request} {c : Context} {e e' e'' : Engine}

/-- How a state moves on within a dependency query for a request: resolution sees the same, the
registry stays indexed, every module keeps its record, every live module stays at its path,
every memoised resolution stays, and a resolution memoised since is one of the request's that
succeeds without the memo. -/
structure Extends (req : Request) (c : Context) (e e' : Engine) : Prop where
  sight : e.SameSight e'
  indexed : e'.registry.Indexed
  record : ∀ id rec, e.registry.record? id = some rec →
    ∃ rec', e'.registry.record? id = some rec' ∧ rec.Kept rec'
  atPath : ∀ q id, e.registry.atPath? q = some id → e'.registry.atPath? q = some id
  resolved : ∀ key id, e.registry.resolved.lookup key = some id →
    e'.registry.resolved.lookup key = some id
  fresh : ∀ key id, e'.registry.resolved.lookup key = some id →
    e.registry.resolved.lookup key = some id ∨ (key.platform = req.platform ∧
      ∃ rec, e'.registry.record? key.origin = some rec ∧
        ∃ t, (run (req.resolveUncached rec.module key.name) c e).1 = .ok t)

/-- A resolution without the memo that succeeds in a state succeeds in every state with the same
views. -/
theorem uncached_ok_of_sameSight (h : e.SameSight e') {m : Module} {name : String} {t : Nat}
    (ht : (run (req.resolveUncached m name) c e').1 = .ok t) :
    ∃ t', (run (req.resolveUncached m name) c e).1 = .ok t' := by
  have hagree := (req.twin_resolveUncached m name c e' e h.symm).1
  rw [ht] at hagree
  revert hagree
  cases (run (req.resolveUncached m name) c e).1 with
  | error err => exact False.elim
  | ok t' => exact fun _ => ⟨t', rfl⟩

namespace Extends

theorem refl (hI : e.registry.Indexed) : Extends req c e e :=
  ⟨.refl e, hI, fun _ rec h => ⟨rec, h, .refl rec⟩, fun _ _ => id, fun _ _ => id,
    fun _ _ h => .inl h⟩

theorem trans (h₁ : Extends req c e e') (h₂ : Extends req c e' e'') : Extends req c e e'' where
  sight := h₁.sight.trans h₂.sight
  indexed := h₂.indexed
  record id rec h := by
    obtain ⟨rec', h', hk'⟩ := h₁.record id rec h
    obtain ⟨rec'', h'', hk''⟩ := h₂.record id rec' h'
    exact ⟨rec'', h'', hk'.trans hk''⟩
  atPath q id h := h₂.atPath q id (h₁.atPath q id h)
  resolved key id h := h₂.resolved key id (h₁.resolved key id h)
  fresh key id h := by
    rcases h₂.fresh key id h with h' | ⟨hpl, rec'', hrec'', t, ht⟩
    · rcases h₁.fresh key id h' with h | ⟨hpl, rec', hrec', t, ht⟩
      · exact .inl h
      · obtain ⟨rec'', hrec'', hk⟩ := h₂.record _ rec' hrec'
        exact .inr ⟨hpl, rec'', hrec'', t, hk.1 ▸ ht⟩
    · exact .inr ⟨hpl, rec'', hrec'', uncached_ok_of_sameSight h₁.sight ht⟩

/-- A live module stays live, as the same module. -/
theorem live? (h : Extends req c e e') {id : Nat} {m : Module} (hm : e.registry.live? id = some m) :
    e'.registry.live? id = some m := by
  unfold Registry.live? at hm ⊢
  cases hrec : e.registry.record? id with
  | none => simp [hrec] at hm
  | some rec =>
    obtain ⟨rec', hrec', hmod, hlive, -⟩ := h.record id rec hrec
    rw [hrec] at hm
    rw [hrec']
    dsimp only at hm ⊢
    rw [hmod, hlive]
    exact hm

end Extends

end Engine

/-- An operation that moves the engine on only as a dependency query for `req` does, from any
state with an indexed registry, whether it succeeds or fails. -/
def Extending {α : Type} (req : Request) (x : EngineM α) : Prop :=
  ∀ c e, e.registry.Indexed → Engine.Extends req c e (run x c e).2

namespace Extending

variable {α β γ : Type} {req : Request}

theorem of_state {x : EngineM α} (h : ∀ c e, (run x c e).2 = e) : Extending req x :=
  fun c e hI => (h c e).symm ▸ .refl hI

theorem pure (a : α) : Extending req (Pure.pure a : EngineM α) := of_state fun _ _ => rfl

theorem get : Extending req (MonadState.get : EngineM Engine) := of_state fun _ _ => rfl

theorem read : Extending req (MonadReader.read : EngineM Context) := of_state fun _ _ => rfl

theorem fail (err : Error) : Extending req (EngineM.fail err : EngineM α) :=
  of_state fun _ _ => rfl

theorem bind {x : EngineM β} {f : β → EngineM α} (hx : Extending req x)
    (hf : ∀ b, Extending req (f b)) : Extending req (x >>= f) := by
  intro c e hI
  have h₁ := hx c e hI
  rw [run_bind]
  rcases hrun : run x c e with ⟨err | b, e₁⟩ <;> rw [hrun] at h₁
  · exact h₁
  · exact h₁.trans (hf b c e₁ h₁.indexed)

theorem attempt {x : EngineM α} (hx : Extending req x) : Extending req (EngineM.attempt x) := by
  intro c e hI
  have h₁ := hx c e hI
  rw [run_attempt]
  rcases hrun : run x c e with ⟨err | b, e₁⟩ <;> rw [hrun] at h₁ <;> exact h₁

theorem ite {p : Prop} [Decidable p] {x y : EngineM α} (hx : Extending req x)
    (hy : Extending req y) : Extending req (if p then x else y) := by
  split
  · exact hx
  · exact hy

theorem mapM {f : β → EngineM α} (hf : ∀ b, Extending req (f b)) :
    ∀ l : List β, Extending req (l.mapM f)
  | [] => pure []
  | b :: l => by
    rw [List.mapM_cons]
    exact bind (hf b) fun a => bind (mapM hf l) fun as => pure (a :: as)

theorem forIn_list {f : γ → β → EngineM (ForInStep β)} (hf : ∀ a b, Extending req (f a b)) :
    ∀ (l : List γ) (b : β), Extending req (forIn l b f)
  | [], b => pure b
  | a :: l, b => by
    rw [List.forIn_cons]
    refine bind (hf a b) fun step => ?_
    cases step with
    | done b => exact pure b
    | yield b => exact forIn_list hf l b

theorem findSomeM? {f : γ → EngineM (Option α)} (hf : ∀ a, Extending req (f a)) :
    ∀ l : List γ, Extending req (l.findSomeM? f)
  | [] => pure none
  | a :: l => by
    rw [List.findSomeM?_cons]
    refine bind (hf a) fun r => ?_
    cases r with
    | some b => exact pure (some b)
    | none => exact findSomeM? hf l

end Extending

/-! ## The steps of a query -/

variable {req : Request} {c : Context} {e : Engine}

/-- Reading a package changes only the packages the registry keeps. -/
theorem run_getPackage_registry (p : Path) :
    ∃ pk, (run (getPackage p) c e).2.registry = { e.registry with packages := pk } := by
  cases h : e.registry.packages.lookup p.normalize with
  | some pkg => exact ⟨e.registry.packages, by simp [getPackage, h]⟩
  | none =>
    refine ⟨(p.normalize, Package.make p.normalize (Engine.packageJson (e.readView p.normalize))) ::
      e.registry.packages, ?_⟩
    simp only [getPackage, run_bind, run_get, h, run_attempt, Engine.run_readFile]
    cases e.readView p.normalize with
    | error err => rfl
    | ok s =>
      simp only [Except.mapError, Engine.packageJson]
      cases Json.parse s <;> rfl

/-- Reading what a source file declares, through the content memo, leaves the registry as it
was. -/
theorem run_readDeclarations_registry (m : Module) :
    (run (memoised m.path "moduleData" ModuleData.ofJson (fun d => some d.toJson) (readSource m)) c
      e).2.registry = e.registry := by
  rw [Engine.run_memoised]
  obtain ⟨r, hr, -⟩ := Engine.run_readSource (c := c) (e := e) m
  split
  · rfl
  · rw [hr]
    cases r <;> rfl

namespace Request

variable (req : Request) {rq : Request}

variable {origin t : Nat} {name : String} {rec : ModuleRecord}

/-- A name whose resolution is memoised to a live module resolves to it, with nothing changed. -/
theorem run_resolveDependency_of_memo
    (h : e.registry.resolved.lookup ⟨origin, req.platform, name⟩ = some t)
    (hl : (e.registry.live? t).isSome) :
    run (req.resolveDependency origin name) c e = (.ok t, e) := by
  unfold resolveDependency resolvedGet
  obtain ⟨m, hm⟩ := Option.isSome_iff_exists.1 hl
  simp [h, hm]

/-- A name with no memoised resolution is resolved without the memo, and memoised when that
succeeds. -/
theorem run_resolveDependency_of_none
    (h : e.registry.resolved.lookup ⟨origin, req.platform, name⟩ = none)
    (hrec : e.registry.record? origin = some rec) :
    run (req.resolveDependency origin name) c e =
      run (req.resolveUncached rec.module name >>= fun t =>
        setResolved ⟨origin, req.platform, name⟩ t >>= fun _ => Pure.pure t) c e := by
  unfold resolveDependency resolvedGet
  rw [run_bind, run_bind]
  simp only [run_get, run_pure, h, Option.bind_none]
  rw [run_bind, Engine.run_moduleOf hrec]

/-- A name required from a module the registry does not know fails to resolve. -/
theorem run_resolveDependency_of_unknown
    (h : e.registry.resolved.lookup ⟨origin, req.platform, name⟩ = none)
    (hrec : e.registry.record? origin = none) :
    run (req.resolveDependency origin name) c e = (.error (.internal "unknown module"), e) := by
  unfold resolveDependency resolvedGet
  rw [run_bind, run_bind]
  simp only [run_get, run_pure, h, Option.bind_none]
  simp [moduleOf, hrec]

end Request

/-- Memoising a resolution changes the resolution of its key only. -/
theorem run_setResolved_registry (key : ResolutionKey) (t : Nat) :
    (run (setResolved key t) c e).2.registry.store = e.registry.store ∧
    (run (setResolved key t) c e).2.registry.byPath = e.registry.byPath ∧
    (run (setResolved key t) c e).2.registry.packages = e.registry.packages ∧
    ∀ k, (run (setResolved key t) c e).2.registry.resolved.lookup k =
      if k = key then some t else e.registry.resolved.lookup k := by
  simp only [setResolved, modifyRegistry, run_modify]
  refine ⟨?_, ?_, ?_, fun k => ?_⟩ <;>
    cases e.registry.resolved.lookup key <;>
    simp [Registry.setDependerKeys, lookup_filter_append]

namespace Request

variable (req : Request) {e₁ : Engine} {origin t : Nat} {name : String} {rec : ModuleRecord}

end Request

end ModuleBundler
