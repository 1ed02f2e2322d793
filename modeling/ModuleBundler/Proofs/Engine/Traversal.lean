import ModuleBundler.Proofs.Engine.Run
import ModuleBundler.Proofs.Evaluation
import ModuleBundler.Engine.Packager
import Mathlib

/-!
# The order of a dependency query

A dependency query walks the modules from the entry with a stack: it pops a module, passes over
it when it has seen it, and otherwise emits it, records the pairs its requires resolved to (a
mock of its own name first, then each require in the order written) and pushes the modules of
those pairs it has not seen, the first pair on top. Duplicates stay on the stack and are passed
over when popped.

This is the recursive depth-first pre-order over the recorded pairs (`DepthFirst`, a relation
that determines its output, `DepthFirst.unique`). The stack holds, top first, the pending lists
of the recursive walk one after the other (`walk_depthFirst`), so a query that answers emits the
entry first, every module reachable from it through the recorded pairs exactly once, and no
other module (`dependencies_depth_first`).
-/

namespace ModuleBundler

section DepthFirst

variable {α : Type} {succ : α → List α}

/-- `DepthFirst succ seen todo out seen'`: the recursive depth-first walk that takes the nodes of
`todo` in turn, passes over a node already seen, and emits a new node before walking, with the node
now seen, the list of its successors. `out` is what it emits and `seen'` what it has seen at the
end, the last seen node first. -/
inductive DepthFirst (succ : α → List α) : List α → List α → List α → List α → Prop
  | nil (seen : List α) : DepthFirst succ seen [] [] seen
  | skip {seen rest out seen' : List α} {m : α} :
      m ∈ seen → DepthFirst succ seen rest out seen' → DepthFirst succ seen (m :: rest) out seen'
  | visit {seen rest out₁ seen₁ out₂ seen₂ : List α} {m : α} :
      m ∉ seen → DepthFirst succ (m :: seen) (succ m) out₁ seen₁ →
      DepthFirst succ seen₁ rest out₂ seen₂ →
      DepthFirst succ seen (m :: rest) (m :: (out₁ ++ out₂)) seen₂

/-- One edge of the graph `succ` describes. -/
def Edge (succ : α → List α) (a b : α) : Prop := b ∈ succ a

namespace DepthFirst

variable {seen todo out seen' : List α}

/-- The walk only adds to what it has seen. -/
theorem subset (h : DepthFirst succ seen todo out seen') : seen ⊆ seen' := by
  induction h with
  | nil => exact List.Subset.refl _
  | skip _ _ ih => exact ih
  | visit _ _ _ ih₁ ih₂ => exact fun x hx => ih₂ (ih₁ (List.mem_cons_of_mem _ hx))

/-- What the walk has seen at the end is what it emitted and what it had seen before. -/
theorem mem_seen (h : DepthFirst succ seen todo out seen') (x : α) :
    x ∈ seen' ↔ x ∈ out ∨ x ∈ seen := by
  induction h with
  | nil => simp
  | skip _ _ ih => exact ih
  | visit _ _ _ ih₁ ih₂ =>
    rw [ih₂, ih₁]
    simp only [List.mem_cons, List.mem_append]
    tauto

/-- The walk emits only nodes it had not seen. -/
theorem not_mem_of_mem (h : DepthFirst succ seen todo out seen') {x : α} (hx : x ∈ out) :
    x ∉ seen := by
  induction h with
  | nil => simp at hx
  | skip _ _ ih => exact ih hx
  | @visit seen rest out₁ seen₁ out₂ seen₂ m hm h₁ _ ih₁ ih₂ =>
    rcases List.mem_cons.1 hx with rfl | hx
    · exact hm
    rcases List.mem_append.1 hx with hx | hx
    · exact fun hs => ih₁ hx (List.mem_cons_of_mem _ hs)
    · exact fun hs => ih₂ hx (h₁.subset (List.mem_cons_of_mem _ hs))

/-- The walk emits each node once. -/
theorem nodup (h : DepthFirst succ seen todo out seen') : out.Nodup := by
  induction h with
  | nil => exact List.nodup_nil
  | skip _ _ ih => exact ih
  | @visit seen rest out₁ seen₁ out₂ seen₂ m hm h₁ h₂ ih₁ ih₂ =>
    -- the second walk starts from what the first one saw, so it emits none of it again
    have hdisj : ∀ x ∈ out₁, x ∉ out₂ := fun x hx hx₂ =>
      h₂.not_mem_of_mem hx₂ ((h₁.mem_seen x).2 (.inl hx))
    have hm₁ : m ∉ out₁ := fun hx => h₁.not_mem_of_mem hx (List.mem_cons_self ..)
    have hm₂ : m ∉ out₂ := fun hx =>
      h₂.not_mem_of_mem hx (h₁.subset (List.mem_cons_self ..))
    refine List.nodup_cons.2 ⟨fun hx => ?_, List.nodup_append.2 ⟨ih₁, ih₂, ?_⟩⟩
    · exact (List.mem_append.1 hx).elim hm₁ hm₂
    · exact fun x hx y hy hxy => hdisj x hx (hxy ▸ hy)

/-- Every node of the list to walk is seen at the end. -/
theorem mem_seen_of_mem_todo (h : DepthFirst succ seen todo out seen') {x : α}
    (hx : x ∈ todo) : x ∈ seen' := by
  induction h with
  | nil => simp at hx
  | skip hm h ih =>
    rcases List.mem_cons.1 hx with rfl | hx
    · exact h.subset hm
    · exact ih hx
  | visit _ h₁ h₂ _ ih₂ =>
    rcases List.mem_cons.1 hx with rfl | hx
    · exact h₂.subset (h₁.subset (List.mem_cons_self ..))
    · exact ih₂ hx

/-- A node the walk newly saw has all its successors seen at the end. -/
theorem succ_mem_seen (h : DepthFirst succ seen todo out seen') {x : α} (hx : x ∈ seen')
    (hnew : x ∉ seen) {y : α} (hy : y ∈ succ x) : y ∈ seen' := by
  induction h with
  | nil => exact absurd hx hnew
  | skip _ _ ih => exact ih hx hnew
  | @visit seen rest out₁ seen₁ out₂ seen₂ m hm h₁ h₂ ih₁ ih₂ =>
    by_cases hx₁ : x ∈ seen₁
    · by_cases hxm : x = m
      · subst hxm
        exact h₂.subset (h₁.mem_seen_of_mem_todo hy)
      · exact h₂.subset (ih₁ hx₁ (by simp [hxm, hnew]))
    · exact ih₂ hx hx₁

/-- The walk emits only nodes reachable from the list to walk. -/
theorem reach_of_mem (h : DepthFirst succ seen todo out seen') {x : α} (hx : x ∈ out) :
    ∃ y ∈ todo, Relation.ReflTransGen (Edge succ) y x := by
  induction h with
  | nil => simp at hx
  | skip _ _ ih =>
    obtain ⟨y, hy, hr⟩ := ih hx
    exact ⟨y, List.mem_cons_of_mem _ hy, hr⟩
  | @visit seen rest out₁ seen₁ out₂ seen₂ m hm h₁ h₂ ih₁ ih₂ =>
    rcases List.mem_cons.1 hx with rfl | hx
    · exact ⟨x, List.mem_cons_self .., .refl⟩
    rcases List.mem_append.1 hx with hx | hx
    · obtain ⟨y, hy, hr⟩ := ih₁ hx
      exact ⟨m, List.mem_cons_self .., .head hy hr⟩
    · obtain ⟨y, hy, hr⟩ := ih₂ hx
      exact ⟨y, List.mem_cons_of_mem _ hy, hr⟩

/-- The walk is a function of where it starts. -/
theorem unique {out₂ seen₂ : List α} (h : DepthFirst succ seen todo out seen')
    (h₂ : DepthFirst succ seen todo out₂ seen₂) : out₂ = out ∧ seen₂ = seen' := by
  induction h generalizing out₂ seen₂ with
  | nil => cases h₂; exact ⟨rfl, rfl⟩
  | skip hm _ ih =>
    cases h₂ with
    | skip _ h => exact ih h
    | visit hm' => exact absurd hm hm'
  | visit hm _ _ ih₁ ih₂ =>
    cases h₂ with
    | skip hm' => exact absurd hm' hm
    | visit _ h₁ h₂ =>
      obtain ⟨rfl, rfl⟩ := ih₁ h₁
      obtain ⟨rfl, rfl⟩ := ih₂ h₂
      exact ⟨rfl, rfl⟩

/-- Walking a list in two parts: the first part, then the second from what the first saw. -/
theorem of_append {a b : List α} (h : DepthFirst succ seen (a ++ b) out seen') :
    ∃ out₁ seen₁ out₂, DepthFirst succ seen a out₁ seen₁ ∧ DepthFirst succ seen₁ b out₂ seen' ∧
      out = out₁ ++ out₂ := by
  induction a generalizing seen out with
  | nil => exact ⟨[], seen, out, .nil seen, h, rfl⟩
  | cons m a ih =>
    cases h with
    | skip hm h =>
      obtain ⟨out₁, seen₁, out₂, h₁, h₂, rfl⟩ := ih h
      exact ⟨out₁, seen₁, out₂, .skip hm h₁, h₂, rfl⟩
    | visit hm hs h =>
      obtain ⟨out₁, seen₁, out₂, h₁, h₂, rfl⟩ := ih h
      exact ⟨_, seen₁, out₂, .visit hm hs h₁, h₂, by simp⟩

/-- Dropping from the list to walk nodes that are seen already changes nothing. -/
theorem of_filter {p : α → Bool} {todo : List α} (hp : ∀ x ∈ todo, p x = false → x ∈ seen)
    (h : DepthFirst succ seen (todo.filter p) out seen') : DepthFirst succ seen todo out seen' := by
  induction todo generalizing seen out with
  | nil => exact h
  | cons m todo ih =>
    have hp' : ∀ {s}, seen ⊆ s → ∀ x ∈ todo, p x = false → x ∈ s :=
      fun hs x hx hpx => hs (hp x (List.mem_cons_of_mem _ hx) hpx)
    by_cases hm : p m = true
    · rw [List.filter_cons_of_pos hm] at h
      cases h with
      | skip hm h => exact .skip hm (ih (hp' (List.Subset.refl _)) h)
      | visit hm h₁ h₂ =>
        exact .visit hm h₁ (ih (hp' (fun x hx => h₁.subset (List.mem_cons_of_mem _ hx))) h₂)
    · rw [List.filter_cons_of_neg hm] at h
      exact .skip (hp m (List.mem_cons_self ..) (by simpa using hm))
        (ih (hp' (List.Subset.refl _)) h)

end DepthFirst

/-- The walk from one root emits the root first, each node once, and exactly the nodes reachable
from the root. -/
theorem DepthFirst.from_root {r : α} {out seen' : List α} (h : DepthFirst succ [] [r] out seen') :
    out.head? = some r ∧ out.Nodup ∧ ∀ x, x ∈ out ↔ Relation.ReflTransGen (Edge succ) r x := by
  have hseen : ∀ x, x ∈ seen' ↔ x ∈ out := fun x => by simp [h.mem_seen x]
  refine ⟨?_, h.nodup, fun x => ⟨fun hx => ?_, fun hx => ?_⟩⟩
  · cases h with
    | skip hm => simp at hm
    | visit => rfl
  · obtain ⟨y, hy, hr⟩ := h.reach_of_mem hx
    rwa [List.mem_singleton.1 hy] at hr
  · -- what was seen is closed under the edges, and holds the root
    induction hx with
    | refl => exact (hseen r).1 (h.mem_seen_of_mem_todo (List.mem_singleton_self r))
    | tail _ hyz ih =>
      exact (hseen _).1 (h.succ_mem_seen ((hseen _).2 ih) (List.not_mem_nil) hyz)

end DepthFirst

/-! ## The query's walk -/

open EngineM

/-- The walk after visiting `id`: the module is seen and emitted, the pairs it resolved are
recorded, and the modules of those pairs not seen yet go on top of the stack, in order. -/
def Walk.afterVisit (w : Walk) (id : Nat) (pairs : List (String × Nat)) (warnings : List String) :
    Walk where
  stack := (pairs.map Prod.snd).filter (fun d => !(id :: w.visited).contains d) ++ w.stack
  visited := id :: w.visited
  response := { w.response with dependencies := w.response.dependencies.push id,
                                warnings := warnings,
                                resolvedPairs := w.response.resolvedPairs ++ [(id, pairs)] }

/-- Keeping the modules of the pairs not seen yet. -/
theorem filterMap_unseen (seen : List Nat) (l : List (String × Nat)) :
    l.filterMap (fun x => if seen.contains x.2 then none else some x.2) =
      (l.map Prod.snd).filter fun d => !seen.contains d := by
  induction l with
  | nil => rfl
  | cons x l ih =>
    rw [List.filterMap_cons, List.map_cons, List.filter_cons, ih]
    cases seen.contains x.2 <;> rfl

/-- A visit that answers is `afterVisit` for the pairs and warnings it gathered, whatever they
are: the shape of the walk does not depend on how the requires resolved. -/
theorem visit_yields (req : Request) (fatal : Bool) (mockFiles : List (String × Path)) (id : Nat)
    (w : Walk) : Yields (visitModule req fatal mockFiles id w)
      fun w' => ∃ pairs warnings, w' = w.afterVisit id pairs warnings := by
  unfold visitModule
  extract_lets src w₁ pairs₀ warnings₀ visited₁ src₁
  refine .bind (.trivial _) fun d _ => .bind (.trivial _) fun resolved _ =>
    .bind (.trivial _) fun m _ => ?_
  extract_lets afterMocks
  -- every path through the mocks ends in the loop over the resolutions, then in the answer
  have hafter : ∀ u ps, Yields (afterMocks u ps)
      fun w' => ∃ pairs warnings, w' = w.afterVisit id pairs warnings := by
    intro u ps
    refine .bind (.trivial _) fun s _ => .pure ⟨s.1.toList, s.2, ?_⟩
    simp only [w₁, visited₁, src₁, src, Walk.afterVisit, List.filterMap_reverse,
      List.reverse_reverse, filterMap_unseen]
  refine .ite (fun _ => .bind (.trivial _) fun own _ => ?_) (fun _ => hafter () _)
  split
  · exact .ite (fun _ => .bind (.trivial _) fun _ _ => hafter () _) (fun _ => hafter () _)
  · exact hafter () _

/-- Looking up a key past entries of other keys finds its first entry after them. -/
theorem lookup_append_cons {α β : Type} [BEq α] [LawfulBEq α] {l m : List (α × β)} {a : α}
    {b : β} (h : a ∉ l.map Prod.fst) : (l ++ (a, b) :: m).lookup a = some b := by
  induction l with
  | nil => simp
  | cons x l ih =>
    have hx : a ≠ x.1 := fun hx => h (hx ▸ List.mem_cons_self ..)
    rw [List.cons_append, List.lookup_cons, beq_false_of_ne hx]
    exact ih fun hl => h (List.mem_cons_of_mem _ hl)

/-- The modules a response records for a module: those of its resolved pairs, in order. -/
def Response.successors (r : Response) (id : Nat) : List Nat :=
  ((r.resolvedPairs.lookup id).getD []).map Prod.snd

/-- A walk that answers emitted, after what it had emitted, the recursive depth-first order of its
stack over the pairs it ends up recording, and recorded one entry per module it emitted. The
induction follows the walk's steps; the invariant is that the modules with recorded pairs were
all seen, so the pairs of a module emitted now are the ones its visit records. -/
theorem walk_depthFirst (req : Request) (fatal : Bool) (mockFiles : List (String × Path)) :
    ∀ (fuel : Nat) (w : Walk), (∀ k ∈ w.response.resolvedPairs.map Prod.fst, k ∈ w.visited) →
    Yields (walk req fatal mockFiles fuel w) fun w' => ∃ out more,
      DepthFirst w'.response.successors w.visited w.stack out w'.visited ∧
      w'.response.dependencies.toList = w.response.dependencies.toList ++ out ∧
      w'.response.resolvedPairs = w.response.resolvedPairs ++ more ∧ more.map Prod.fst = out
  | 0, _, _ => by
    unfold walk
    exact .fail _
  | fuel + 1, w, hw => by
    unfold walk
    split
    · rename_i hs
      refine .pure ⟨[], [], ?_, by simp, by simp, rfl⟩
      rw [hs]
      exact .nil _
    · rename_i id rest hs
      refine .ite (fun hseen => ?_) (fun hnew => ?_)
      · -- a module seen already is passed over
        refine (walk_depthFirst req fatal mockFiles fuel ⟨rest, w.visited, w.response⟩ hw).mono
          fun w' ⟨out, more, h, hdeps, hpairs, hmore⟩ => ⟨out, more, ?_, hdeps, hpairs, hmore⟩
        rw [hs]
        exact .skip (by simpa using hseen) h
      · -- a new module is emitted, and the walk goes on from the modules it resolved to
        refine .bind (visit_yields req fatal mockFiles id _) fun w₁ ⟨pairs, warnings, hw₁⟩ => ?_
        subst hw₁
        have hnew' : id ∉ w.visited := by simpa using hnew
        have hw₁ : ∀ k ∈ (w.response.resolvedPairs ++ [(id, pairs)]).map Prod.fst,
            k ∈ id :: w.visited := by
          intro k hk
          simp only [List.map_append, List.mem_append, List.map_cons, List.map_nil,
            List.mem_singleton] at hk
          rcases hk with hk | rfl
          · exact List.mem_cons_of_mem _ (hw k hk)
          · exact List.mem_cons_self ..
        refine (walk_depthFirst req fatal mockFiles fuel _ hw₁).mono
          fun w' ⟨out, more, h, hdeps, hpairs, hmore⟩ => ?_
        have hsucc : w'.response.successors id = pairs.map Prod.snd := by
          have hid : id ∉ w.response.resolvedPairs.map Prod.fst := fun hk => hnew' (hw id hk)
          rw [Response.successors, hpairs, Walk.afterVisit, List.append_assoc, List.singleton_append,
            lookup_append_cons hid]
          rfl
        obtain ⟨o₁, s₁, o₂, h₁, h₂, rfl⟩ := h.of_append
        have h₁' := DepthFirst.of_filter (fun x _ hx => by
          change x ∈ id :: w.visited
          cases hc : (id :: w.visited).contains x <;> simp_all) h₁
        refine ⟨id :: (o₁ ++ o₂), (id, pairs) :: more, ?_, ?_, ?_, ?_⟩
        · rw [hs]
          exact .visit hnew' (hsucc ▸ h₁') h₂
        · simp [hdeps, Walk.afterVisit]
        · simp [hpairs, Walk.afterVisit]
        · simp [hmore]

variable {c : Context} {e : Engine}

/-- Choosing the platform reads the configuration only. -/
theorem run_resolvePlatform_state (platform : Option String) (entry : Path) :
    (run (resolvePlatform platform entry) c e).2 = e := by
  unfold resolvePlatform
  simp only [run_bind, run_read]
  split
  · split <;> rfl
  · rfl

/-- Finding the mock files reads the state only. -/
theorem run_mocks_state : (run mocks c e).2 = e := by
  unfold mocks
  simp only [run_bind, run_read]
  split
  · rfl
  · rfl

theorem run_walkFuel : run walkFuel c e =
    (.ok ((2 * e.nameBound + 2) * (e.registry.store.size + e.modulePaths.length) + 3), e) := by
  simp only [walkFuel, run_bind, run_get, run_pure]

/-- A query that answers walked from the entry's module, and the entry's lazy groups that follow
the walk change neither the modules it emitted nor the pairs it recorded. -/
theorem graphDependencies_walk {entry : String} {platform : Option String} {e' : Engine}
    {r : Response} (h : run (graphDependencies entry platform) c e = (.ok r, e')) :
    ∃ entryId req fatal mockFiles main fuel w e₆ e₇,
      (run (entryPath entry >>= getModuleForPath) c e).1 = .ok entryId ∧
      run (walk req fatal mockFiles fuel
        ⟨[entryId], [], { Response.empty with mainModuleId := some main }⟩) c e₆ = (.ok w, e₇) ∧
      r.dependencies = w.response.dependencies ∧ r.resolvedPairs = w.response.resolvedPairs := by
  unfold graphDependencies at h
  obtain ⟨path, e₁, hpath, h⟩ := run_bind_eq_ok h
  obtain ⟨plat, e₂, hplat, h⟩ := run_bind_eq_ok h
  obtain ⟨ctx, e₃, hread, h⟩ := run_bind_eq_ok h
  dsimp only at h
  obtain ⟨mockFiles, e₄, hmocks, h⟩ := run_bind_eq_ok h
  obtain ⟨entryId, e₅, hentry, h⟩ := run_bind_eq_ok h
  obtain ⟨main, e₆, hmain, h⟩ := run_bind_eq_ok h
  obtain ⟨fuel, e₆', hfuel, h⟩ := run_bind_eq_ok h
  rw [run_walkFuel, Prod.mk.injEq] at hfuel
  obtain ⟨-, rfl⟩ := hfuel
  obtain ⟨w, e₇, hwalk, h⟩ := run_bind_eq_ok h
  -- choosing the platform and finding the mocks leave the state as the entry's path found it
  have he₄ : e₄ = e₁ := by
    have h₂ : e₂ = e₁ := by
      simpa [hplat] using run_resolvePlatform_state (c := c) (e := e₁) platform path
    have h₃ : e₃ = e₂ := by
      simp only [run_read, Prod.mk.injEq] at hread
      exact hread.2.symm
    have h₄ : e₄ = e₃ := by simpa [hmocks] using run_mocks_state (c := c) (e := e₃)
    rw [h₄, h₃, h₂]
  refine ⟨entryId, _, _, mockFiles, main, fuel, w, e₆, e₇, ?_, hwalk, ?_⟩
  · rw [run_bind, hpath]
    dsimp only
    rw [← he₄, hentry]
  -- each lazy group only adds its paths or its warnings
  refine (show Yields _ fun r : Response => r.dependencies = w.response.dependencies ∧
      r.resolvedPairs = w.response.resolvedPairs from ?_) c e₇ r e' h
  refine .bind (.trivial _) fun d _ => .bind (Yields.forIn_list
    (I := fun s : Response => s.dependencies = w.response.dependencies ∧
      s.resolvedPairs = w.response.resolvedPairs) (fun group s hs => ?_) _ _ ⟨rfl, rfl⟩)
    fun s hs => .pure hs
  refine .bind (Yields.forIn_list
    (I := fun st : Response × List String => st.1.dependencies = w.response.dependencies ∧
      st.1.resolvedPairs = w.response.resolvedPairs) (fun name st hst => ?_) _ _ hs)
    fun st hst => .ite (fun _ => .pure hst) (fun _ => .pure hst)
  refine .bind (.trivial _) fun res _ => ?_
  split
  · exact .bind (.trivial _) fun _ _ => .pure hst
  · exact .ite (fun _ => .pure hst) (fun _ => .bind (.trivial _) fun _ _ => .pure hst)

/-- The modules of a dependency query are the recursive depth-first pre-order from the entry's
module over the pairs the query records: the entry comes first, every module reachable from it
through the recorded pairs comes exactly once, and no other module comes. The query records the
pairs of each module it emits once, in the order it emits them. -/
theorem dependencies_depth_first {entry : String} {platform : Option String} {e' : Engine}
    {r : Response} (h : run (graphDependencies entry platform) c e = (.ok r, e')) :
    ∃ entryId, (run (entryPath entry >>= getModuleForPath) c e).1 = .ok entryId ∧
      r.resolvedPairs.map Prod.fst = r.dependencies.toList ∧
      (∃ seen, DepthFirst r.successors [] [entryId] r.dependencies.toList seen) ∧
      r.dependencies.toList.head? = some entryId ∧ r.dependencies.toList.Nodup ∧
      ∀ m, m ∈ r.dependencies.toList ↔ Relation.ReflTransGen (Edge r.successors) entryId m := by
  obtain ⟨entryId, req, fatal, mockFiles, main, fuel, w, e₆, e₇, hentry, hwalk, hdeps, hpairs⟩ :=
    graphDependencies_walk h
  obtain ⟨out, more, hdf, hout, hmore, hkeys⟩ :=
    walk_depthFirst req fatal mockFiles fuel _ (by simp [Response.empty]) c e₆ w e₇ hwalk
  simp only [Response.empty, List.nil_append] at hout hmore
  have hsucc : r.successors = w.response.successors := by
    funext id
    simp only [Response.successors, hpairs]
  rw [hsucc, hdeps, hout]
  exact ⟨entryId, hentry, by rw [hpairs, hmore, hkeys], ⟨w.visited, hdf⟩, hdf.from_root⟩

set_option maxRecDepth 200000 in
/-- The query on a diamond, `a` requiring `b` then `c` and both requiring `d`, answers and emits
`a`, `b`, `d`, `c` (modules 0, 1, 3, 2, numbered when the load read the files in order). -/
theorem dependencies_depth_first_diamond :
    let file (n : String) (text : String) : Path × DiskEntry :=
      (⟨[.root, .name "w", .name n]⟩, .file text.toUTF8.toList 0)
    let D : Disk := ⟨[(⟨[.root, .name "w"]⟩, .dir),
      file "a.js" "require('./b'); require('./c');", file "b.js" "require('./d');",
      file "c.js" "require('./d');", file "d.js" ""], 0, Disk.rootPath⟩
    let opts : PackagerOptions := { PackagerOptions.default with projectRoots := ["/w"] }
    ∃ c e r e', startPackager opts .default .identity D = .ok (c, e) ∧
      run (graphDependencies "a.js" none) c e = (.ok r, e') ∧ r.dependencies.toList = [0, 1, 3, 2] ∧
      ∃ entryId, (run (entryPath "a.js" >>= getModuleForPath) c e).1 = .ok entryId ∧
        r.resolvedPairs.map Prod.fst = r.dependencies.toList ∧
        (∃ seen, DepthFirst r.successors [] [entryId] r.dependencies.toList seen) ∧
        r.dependencies.toList.head? = some entryId ∧ r.dependencies.toList.Nodup ∧
        ∀ m, m ∈ r.dependencies.toList ↔ Relation.ReflTransGen (Edge r.successors) entryId m := by
  intro file D opts
  -- one evaluation of the start and the query; its facts are then read off
  have h : ((startPackager opts .default .identity D).toOption.any fun ce =>
      match (run (graphDependencies "a.js" none) ce.1 ce.2).1 with
      | .ok r => r.dependencies.toList == [0, 1, 3, 2]
      | .error _ => false) = true := by
    decide +kernel
  obtain ⟨⟨c, e⟩, hs, h⟩ := (Option.any_eq_true _ _).1 h
  split at h
  · rename_i r hr
    have hrun : run (graphDependencies "a.js" none) c e =
        (.ok r, (run (graphDependencies "a.js" none) c e).2) := Prod.ext hr rfl
    exact ⟨c, e, r, _, eq_ok_of_toOption hs, hrun, by simpa using h,
      dependencies_depth_first hrun⟩
  · simp at h

end ModuleBundler
