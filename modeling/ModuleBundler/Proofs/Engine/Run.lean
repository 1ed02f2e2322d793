import ModuleBundler.Engine.State

/-!
# Running engine operations

An operation of the engine reads the fixed configuration, may fail, and updates the state; a
failure keeps the updates made before it. Run on a configuration and a state it gives a result
or an error, and the state after. These equations say what each building block of the monad
gives when run, so that an operation is followed step by step with `simp` and never by
unfolding the monad.

`Yields x P` says that every answer of `x` satisfies `P`. It is closed under sequencing, branching
and loops, so what a long operation answers is read off its last steps without following the
state through the steps before.
-/

namespace ModuleBundler

namespace EngineM

variable {α β : Type} {ctx : Context} {e : Engine}

@[simp] theorem run_pure (a : α) : run (pure a : EngineM α) ctx e = (.ok a, e) := rfl

/-- A sequence runs its second part from the state the first leaves, unless the first fails. -/
@[simp] theorem run_bind (x : EngineM α) (f : α → EngineM β) :
    run (x >>= f) ctx e = match run x ctx e with
      | (.ok a, e') => run (f a) ctx e'
      | (.error err, e') => (.error err, e') := by
  simp only [run, bind, ReaderT.bind, ExceptT.bind, ExceptT.mk, ExceptT.run, StateT.bind]
  rcases h : x ctx e with ⟨_ | _, e'⟩ <;> rfl

@[simp] theorem run_map (f : α → β) (x : EngineM α) :
    run (f <$> x) ctx e = match run x ctx e with
      | (.ok a, e') => (.ok (f a), e')
      | (.error err, e') => (.error err, e') := by
  simp only [run, Functor.map, ExceptT.map, ExceptT.mk, ExceptT.run, bind, StateT.bind]
  rcases h : x ctx e with ⟨_ | _, e'⟩ <;> rfl

@[simp] theorem run_get : run (get : EngineM Engine) ctx e = (.ok e, e) := rfl

@[simp] theorem run_set (e' : Engine) : run (set e' : EngineM Unit) ctx e = (.ok (), e') := rfl

@[simp] theorem run_modify (f : Engine → Engine) :
    run (modify f : EngineM Unit) ctx e = (.ok (), f e) := rfl

@[simp] theorem run_read : run (read : EngineM Context) ctx e = (.ok ctx, e) := rfl

@[simp] theorem run_throw (err : Error) : run (throw err : EngineM α) ctx e = (.error err, e) :=
  rfl

@[simp] theorem run_fail (err : Error) : run (fail err : EngineM α) ctx e = (.error err, e) :=
  rfl

@[simp] theorem run_lift {ε : Type} (f : ε → Error) (r : Except ε α) :
    run (lift f r) ctx e = (match r with | .ok a => .ok a | .error x => .error (f x), e) := by
  cases r <;> rfl

/-- A failure caught by `attempt` becomes a result, with the updates made before it kept. -/
@[simp] theorem run_attempt (x : EngineM α) :
    run (attempt x) ctx e = match run x ctx e with
      | (.ok a, e') => (.ok (.ok a), e')
      | (.error err, e') => (.ok (.error err), e') := by
  simp only [attempt, run, tryCatch, MonadExcept.tryCatch, tryCatchThe, MonadExceptOf.tryCatch,
    ExceptT.tryCatch, ExceptT.mk, ExceptT.run, Functor.map, ExceptT.map, bind, StateT.bind]
  rcases h : x ctx e with ⟨_ | _, e'⟩ <;> rfl

/-- A sequence that answers ran its first part to an answer, and its second part from there. -/
theorem run_bind_eq_ok {x : EngineM α} {f : α → EngineM β} {e'' : Engine} {b : β}
    (h : run (x >>= f) ctx e = (.ok b, e'')) :
    ∃ a e', run x ctx e = (.ok a, e') ∧ run (f a) ctx e' = (.ok b, e'') := by
  rw [run_bind] at h
  rcases hx : run x ctx e with ⟨err | a, e'⟩ <;> rw [hx] at h
  · cases h
  · exact ⟨a, e', rfl, h⟩

end EngineM

open EngineM

/-! ## What an operation answers -/

/-- Every answer `x` gives, from any configuration and state, satisfies `P`. -/
def Yields {α : Type} (x : EngineM α) (P : α → Prop) : Prop :=
  ∀ ctx e a e', run x ctx e = (.ok a, e') → P a

namespace Yields

variable {α β : Type} {P : α → Prop}

theorem pure {a : α} (h : P a) : Yields (Pure.pure a : EngineM α) P := by
  intro ctx e a' e' hr
  cases hr
  exact h

theorem fail (err : Error) : Yields (EngineM.fail err : EngineM α) P := by
  intro ctx e a e' hr
  cases hr

theorem trivial (x : EngineM α) : Yields x fun _ => True := fun _ _ _ _ _ => True.intro

theorem mono {Q : α → Prop} {x : EngineM α} (h : Yields x Q) (hQ : ∀ a, Q a → P a) :
    Yields x P :=
  fun ctx e a e' hr => hQ a (h ctx e a e' hr)

/-- A sequence answers what its second part answers, from any answer of its first part. -/
theorem bind {Q : β → Prop} {x : EngineM β} {f : β → EngineM α} (hx : Yields x Q)
    (hf : ∀ b, Q b → Yields (f b) P) : Yields (x >>= f) P := by
  intro ctx e a e' hr
  obtain ⟨b, e₁, hb, hr⟩ := run_bind_eq_ok hr
  exact hf b (hx ctx e b e₁ hb) ctx e₁ a e' hr

theorem ite {p : Prop} [Decidable p] {x y : EngineM α} (hx : p → Yields x P)
    (hy : ¬p → Yields y P) : Yields (if p then x else y) P := by
  by_cases h : p
  · rw [if_pos h]
    exact hx h
  · rw [if_neg h]
    exact hy h

/-- A loop whose body keeps `I` of the value it carries answers a value with `I`. -/
theorem forIn_list {I : β → Prop} {f : α → β → EngineM (ForInStep β)}
    (hf : ∀ a b, I b → Yields (f a b) fun s => I s.value) :
    ∀ (l : List α) (b : β), I b → Yields (forIn l b f) I
  | [], _, hb => .pure hb
  | a :: l, b, hb => by
    rw [List.forIn_cons]
    refine .bind (hf a b hb) fun step hs => ?_
    cases step with
    | done b => exact .pure hs
    | yield b => exact forIn_list hf l b hs

/-- A loop whose body keeps `I` for each element of the list it runs over. -/
theorem forIn_list_of_mem {I : β → Prop} {f : α → β → EngineM (ForInStep β)} :
    ∀ (l : List α), (∀ a ∈ l, ∀ b, I b → Yields (f a b) fun s => I s.value) →
      ∀ (b : β), I b → Yields (forIn l b f) I
  | [], _, _, hb => .pure hb
  | a :: l, hf, b, hb => by
    rw [List.forIn_cons]
    refine .bind (hf a List.mem_cons_self b hb) fun step hs => ?_
    cases step with
    | done b => exact .pure hs
    | yield b => exact forIn_list_of_mem l (fun a ha => hf a (List.mem_cons_of_mem _ ha)) b hs

end Yields

end ModuleBundler
