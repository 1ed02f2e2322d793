import ModuleBundler.Proofs.Resolve.MainChain

/-!
# Resolved files exist

A load through a path answers a module only once the search has found a file: the module it
answers is the live module the registry keeps at the path of a file the mirror has
(`loadFileOrDir_answers_existing_file`). Resolution through the name index takes a module entry
as it stands, with no look at the mirror, so it answers existing files exactly as far as the index
holds existing files (`Engine.IndexFilesExist`); `LiveIndex` shows when it does.
-/

namespace ModuleBundler

open EngineM

variable {c : Context} {e : Engine}

/-- A pair a lookup finds is in the list. -/
theorem mem_of_lookup_eq_some {α β : Type} [BEq α] [LawfulBEq α] {a : α} {b : β} :
    ∀ {l : List (α × β)}, l.lookup a = some b → (a, b) ∈ l
  | [], h => nomatch h
  | (a', b') :: l, h => by
    by_cases ha : a = a'
    · subst ha
      simp only [List.lookup_cons, beq_self_eq_true, Option.some.injEq] at h
      simp [h]
    · rw [List.lookup_cons, beq_false_of_ne ha] at h
      exact List.mem_cons_of_mem _ (mem_of_lookup_eq_some h)

namespace Request

variable {req : Request}

/-- A load through a path that answers a module answers the live module the registry keeps at the
path of a file the mirror has: the file is found by the search before its module is taken. -/
theorem loadFileOrDir_answers_existing_file {path : String} {id : Nat} {e' : Engine}
    (h : run (req.loadFileOrDir path) c e = (.ok (some id), e')) :
    ∃ p : Path, e'.vfs.fileExists e'.disk p = true ∧ e'.registry.atPath? p.normalize = some id := by
  unfold loadFileOrDir at h
  cases hv : req.fileView e path with
  | some f =>
    -- the path itself, or the path with a suffix, is a file
    obtain ⟨id', r, hrun, hat⟩ := Engine.run_moduleForFile (c := c) (e := e) f
    simp only [run_bind, run_loadAsFile, hv, run_pure, hrun, Prod.mk.injEq, Except.ok.injEq,
      Option.some.injEq] at h
    obtain ⟨rfl, rfl⟩ := h
    exact ⟨Path.ofString f, answerExists_fileView e path f hv, hat⟩
  | none =>
    -- the search through the path as a directory, which only fills caches
    obtain ⟨N, hN⟩ : ∃ N, run dirFuel c e = (.ok N, e) := ⟨_, run_dirFuel⟩
    obtain ⟨e₁, hF, hok, herr⟩ := req.run_loadAsDir (c := c) N path e
    cases hc : req.chainEnds e N path with
    | false =>
      simp only [run_bind, run_loadAsFile, hv, hN, herr hc] at h
      cases h
    | true =>
      obtain ⟨g, hg, hex⟩ := hok hc
      cases g with
      | none =>
        simp only [run_bind, run_loadAsFile, hv, hN, hg, run_pure, Prod.mk.injEq, Except.ok.injEq,
          reduceCtorEq, false_and] at h
      | some x =>
        obtain ⟨id', r, hrun, hat⟩ := Engine.run_moduleForFile (c := c) (e := e₁) x
        simp only [run_bind, run_loadAsFile, hv, hN, hg, run_pure, hrun, Prod.mk.injEq,
          Except.ok.injEq, Option.some.injEq] at h
        obtain ⟨rfl, rfl⟩ := h
        refine ⟨Path.ofString x, ?_, hat⟩
        rw [← hex x rfl, hF.keeps.disk, hF.keeps.shape.fileExists]

end Request

/-- Whether an entry of the name index that names a module names a file the mirror has. -/
def HasteEntry.fileExistsIn (e : Engine) : HasteEntry → Bool
  | .module p => e.vfs.fileExists e.disk p
  | .package _ => true

namespace Engine

/-- Every module the name index holds is a file the mirror has. -/
def IndexFilesExist (e : Engine) : Prop :=
  ∀ nv ∈ e.haste.names, ∀ ve ∈ nv.2, ve.2.fileExistsIn e = true

instance : DecidablePred IndexFilesExist := fun e => by
  unfold IndexFilesExist
  infer_instance

/-- A module the index gives for a name is a file the mirror has. -/
theorem IndexFilesExist.fileExists {name : String} {pl : Option String} {p : Path}
    (h : e.IndexFilesExist) (hg : e.haste.get? name pl = some (.module p)) :
    e.vfs.fileExists e.disk p = true := by
  unfold HasteMap.get? at hg
  cases hn : e.haste.names.lookup name with
  | none => simp [hn] at hg
  | some vs =>
    -- the entry is the platform's or the one for every platform; either is among the variants
    obtain ⟨k, hk⟩ : ∃ k, vs.lookup k = some (.module p) := by
      rw [hn] at hg
      dsimp only at hg
      split at hg
      · rename_i en hpl
        obtain ⟨q, -, hq⟩ := Option.bind_eq_some_iff.1 hpl
        exact ⟨some q, hg ▸ hq⟩
      · exact ⟨none, hg⟩
    have := h _ (mem_of_lookup_eq_some hn) _ (mem_of_lookup_eq_some hk)
    simpa [HasteEntry.fileExistsIn] using this

end Engine

end ModuleBundler
