import ModuleBundler.Proofs.Path
import Mathlib.Data.List.Infix

/-!
# The laws of lexical normalization

`normalize` folds the components of a path, one at a time, onto the list built so far. What it
builds always has one shape (`Folded`): an optional root, at most one `..` (first, or right after
the root), then names. Folding a list of that shape rebuilds it, so normalizing twice is
normalizing once.

Normalizing piece by piece is another matter. A `..` folds into whatever component stands before
it, a `..` included, so `../..` normalizes to `.` while `/a/../..` climbs to `/..`: normalizing
the relative piece first loses the climb. The piecewise law holds for a relative path that never
climbs two levels above where it starts, which is exactly when no `..` of it meets a `..`.
-/

namespace ModuleBundler

namespace Path

open normalize (step)

/-! ## The shape of a folded list -/

/-- The lists `normalize` builds: an optional root, at most one `..` right after it or first,
then names. -/
inductive Folded : List Component → Prop
  | nil : Folded []
  | root : Folded [.root]
  | rootParent : Folded [.root, .parent]
  | parent : Folded [.parent]
  | name {cs : List Component} (s : String) : Folded cs → Folded (cs ++ [.name s])

@[simp] theorem step_current (cs : List Component) : step cs .current = cs := rfl

@[simp] theorem step_root (cs : List Component) : step cs .root = [.root] := rfl

@[simp] theorem step_name (cs : List Component) (s : String) :
    step cs (.name s) = cs ++ [.name s] := rfl

@[simp] theorem step_parent_nil : step [] .parent = [.parent] := rfl

/-- A `..` after a name takes the name back. -/
@[simp] theorem step_parent_name (cs : List Component) (s : String) :
    step (cs ++ [.name s]) .parent = cs := by
  simp [step]

/-- One step keeps the shape. -/
theorem Folded.after_step {cs : List Component} (h : Folded cs) (c : Component) :
    Folded (step cs c) := by
  cases c with
  | current => exact h
  | root => exact .root
  | name s => exact .name s h
  | parent =>
    cases h with
    | nil => exact .parent
    | root => exact .rootParent
    | rootParent => exact .root
    | parent => exact .nil
    | name s h => simpa using h

theorem Folded.foldl {acc : List Component} (h : Folded acc) (cs : List Component) :
    Folded (cs.foldl step acc) := by
  induction cs generalizing acc with
  | nil => exact h
  | cons c cs ih => exact ih (h.after_step c)

theorem folded_foldl (cs : List Component) : Folded (cs.foldl step []) := Folded.nil.foldl cs

/-- A folded list holds no `.`. -/
theorem Folded.current_not_mem {cs : List Component} (h : Folded cs) : .current ∉ cs := by
  induction h with
  | nil | root | rootParent | parent => simp
  | name s _ ih => simpa using ih

/-- Folding a list of the shape `normalize` builds rebuilds it. -/
theorem Folded.foldl_step {cs : List Component} (h : Folded cs) : cs.foldl step [] = cs := by
  induction h with
  | nil | root | rootParent | parent => rfl
  | name s _ ih => rw [List.foldl_append, ih, List.foldl_cons, List.foldl_nil, step_name]

/-! ## Normalizing through the fold -/

theorem components_normalize (p : Path) :
    p.normalize.components =
      if (p.components.foldl step []).isEmpty then [.current] else p.components.foldl step [] := by
  by_cases h : (p.components.foldl step []).isEmpty <;> simp [normalize, h]

/-- Paths whose components fold alike normalize alike. -/
theorem normalize_congr {p q : Path} (h : p.components.foldl step [] = q.components.foldl step []) :
    p.normalize = q.normalize := by
  simp only [normalize, h]

theorem foldl_step_normalize (p : Path) :
    p.normalize.components.foldl step [] = p.components.foldl step [] := by
  rw [components_normalize]
  split
  · rename_i h
    rw [List.isEmpty_iff.1 h]
    rfl
  · exact (folded_foldl _).foldl_step

/-- Normalizing is idempotent. -/
@[simp] theorem normalize_normalize (p : Path) : p.normalize.normalize = p.normalize :=
  normalize_congr (foldl_step_normalize p)

/-- A normal form is never the empty path. -/
theorem isEmpty_normalize (p : Path) : p.normalize.isEmpty = false := by
  rw [isEmpty, components_normalize]
  split <;> simp_all

/-- The `.` steps of a path change no fold. -/
theorem foldl_filter_current (acc cs : List Component) :
    (cs.filter (· != .current)).foldl step acc = cs.foldl step acc := by
  induction cs generalizing acc with
  | nil => rfl
  | cons c cs ih =>
    by_cases hc : c = .current
    · subst hc
      simpa using ih acc
    · simp [hc, ih]

end Path

/-! ## Relative paths and how far they climb -/

/-- How far one step climbs: `..` one level up, a name one level down. -/
def Component.rise : Component → Int
  | .parent => 1
  | .name _ => -1
  | .root | .current => 0

namespace Path

open normalize (step)

/-- The level a run of steps ends at, above the level it starts from. -/
def height : List Component → Int
  | [] => 0
  | c :: cs => c.rise + height cs

@[simp] theorem height_append (cs ds : List Component) :
    height (cs ++ ds) = height cs + height ds := by
  induction cs with
  | nil => simp [height]
  | cons c cs ih => simp [height, ih]; omega

@[simp] theorem height_singleton (c : Component) : height [c] = c.rise := by simp [height]

/-- A relative path (no root anywhere) that never climbs two levels above where it starts: no
leading part of it has more `..` steps than names plus one. -/
def ClimbsOnce (p : Path) : Prop :=
  .root ∉ p.components ∧ ∀ q ∈ p.components.inits, height q ≤ 1

instance : DecidablePred ClimbsOnce := fun p =>
  inferInstanceAs (Decidable (.root ∉ p.components ∧ ∀ q ∈ p.components.inits, height q ≤ 1))

/-- The folded lists without a root: nothing, a `..` alone, or names after one of the two. -/
theorem Folded.cases_relative {cs : List Component} (h : Folded cs) (hr : .root ∉ cs) :
    cs = [] ∨ cs = [.parent] ∨ ∃ ds s, cs = ds ++ [.name s] := by
  cases h with
  | nil => exact .inl rfl
  | root => simp at hr
  | rootParent => simp at hr
  | parent => exact .inr (.inl rfl)
  | name s _ => exact .inr (.inr ⟨_, s, rfl⟩)

theorem root_not_mem_step {acc : List Component} {c : Component} (ha : .root ∉ acc)
    (hc : c ≠ .root) : .root ∉ step acc c := by
  cases c with
  | current => exact ha
  | root => exact absurd rfl hc
  | name s => simpa using ha
  | parent =>
    simp only [step]
    split
    · simpa using ha
    · simp
    · exact fun h => ha (List.dropLast_subset _ h)

theorem root_not_mem_foldl {acc cs : List Component} (ha : .root ∉ acc) (hcs : .root ∉ cs) :
    .root ∉ cs.foldl step acc := by
  induction cs generalizing acc with
  | nil => exact ha
  | cons c cs ih =>
    simp only [List.mem_cons, not_or] at hcs
    exact ih (root_not_mem_step ha (Ne.symm hcs.1)) hcs.2

section Climb

variable {cs : List Component} {c : Component}

/-- The climb condition holds of every leading part. -/
theorem climbs_of_append (h : ∀ q ∈ (cs ++ [c]).inits, height q ≤ 1) :
    ∀ q ∈ cs.inits, height q ≤ 1 := fun q hq =>
  h q ((List.mem_inits _ _).2 (((List.mem_inits _ _).1 hq).trans (List.prefix_append _ _)))

theorem height_le_of_climbs (h : ∀ q ∈ (cs ++ [c]).inits, height q ≤ 1) :
    height cs + c.rise ≤ 1 := by
  simpa using h (cs ++ [c]) ((List.mem_inits _ _).2 (List.prefix_refl _))

/-- While no `..` meets a `..`, folding keeps the height. -/
theorem height_foldl (hr : .root ∉ cs) (h : ∀ q ∈ cs.inits, height q ≤ 1) :
    height (cs.foldl step []) = height cs := by
  induction cs using List.reverseRecOn with
  | nil => rfl
  | append_singleton cs c ih =>
    simp only [List.mem_append, List.mem_singleton, not_or] at hr
    have hcs := ih hr.1 (climbs_of_append h)
    have hle := height_le_of_climbs h
    rw [List.foldl_append, List.foldl_cons, List.foldl_nil, height_append, height_singleton]
    cases c with
    | current => simpa [Component.rise] using hcs
    | root => exact absurd rfl hr.2
    | name s => simp [Component.rise, hcs]
    | parent =>
      rcases (folded_foldl cs).cases_relative (root_not_mem_foldl (by simp) hr.1) with
        h₀ | h₁ | ⟨ds, s, h₂⟩
      · rw [h₀] at hcs ⊢
        simp [height, Component.rise] at hcs ⊢
        omega
      · -- a second `..` right after a lone one would climb two levels
        rw [h₁] at hcs
        simp [height, Component.rise] at hcs hle
        omega
      · rw [h₂] at hcs ⊢
        simp [Component.rise] at hcs ⊢
        omega

/-- A `..` that climbs no more than once never meets a lone `..` in the fold. -/
theorem foldl_ne_parent (hr : .root ∉ cs)
    (h : ∀ q ∈ (cs ++ [Component.parent]).inits, height q ≤ 1) :
    cs.foldl step [] ≠ [.parent] := by
  intro hp
  have hh := height_foldl hr (climbs_of_append h)
  have hle := height_le_of_climbs h
  rw [hp] at hh
  simp [height, Component.rise] at hh hle
  omega

/-- While no `..` meets a `..`, a run of steps moves any list as its own normal form does. -/
theorem foldl_eq_foldl_normal (hr : .root ∉ cs) (h : ∀ q ∈ cs.inits, height q ≤ 1)
    (acc : List Component) : cs.foldl step acc = (cs.foldl step []).foldl step acc := by
  induction cs using List.reverseRecOn with
  | nil => rfl
  | append_singleton cs c ih =>
    simp only [List.mem_append, List.mem_singleton, not_or] at hr
    simp only [List.foldl_append, List.foldl_cons, List.foldl_nil]
    rw [ih hr.1 (climbs_of_append h)]
    cases c with
    | current => rfl
    | root => exact absurd rfl hr.2
    | name s => simp only [step_name, List.foldl_append, List.foldl_cons, List.foldl_nil]
    | parent =>
      rcases (folded_foldl cs).cases_relative (root_not_mem_foldl (by simp) hr.1) with
        h₀ | h₁ | ⟨ds, s, h₂⟩
      · rw [h₀]; rfl
      · exact absurd h₁ (foldl_ne_parent hr.1 h)
      · rw [h₂, step_parent_name, List.foldl_append, List.foldl_cons, List.foldl_nil, step_name,
          step_parent_name]

end Climb

/-- The normal form of a relative path is relative. -/
theorem root_not_mem_normalize {p : Path} (hr : .root ∉ p.components) :
    .root ∉ p.normalize.components := by
  rw [components_normalize]
  split
  · simp
  · exact root_not_mem_foldl (by simp) hr

/-- Joining a normal form drops its `.`. -/
theorem filter_current_normalize (p : Path) :
    p.normalize.components.filter (· != .current) = p.components.foldl step [] := by
  rw [components_normalize]
  split
  · rename_i h
    simp [List.isEmpty_iff.1 h]
  · refine List.filter_eq_self.2 fun c hc => ?_
    have hne : c ≠ .current := fun h => (folded_foldl _).current_not_mem (h ▸ hc)
    simpa using hne

theorem isAbsolute_eq_false {p : Path} (hr : .root ∉ p.components) : p.isAbsolute = false := by
  unfold isAbsolute
  split
  · rename_i t h
    simp [h] at hr
  · rfl

/-- The piecewise law: normalizing a joined path is normalizing the base and the relative part
first, for a relative part that never climbs two levels above where it starts. -/
theorem normalize_join_of_climbsOnce (b : Path) {p : Path} (hp : p.ClimbsOnce) :
    (b.join p).normalize = (b.normalize.join p.normalize).normalize := by
  have hpa : p.isAbsolute = false := isAbsolute_eq_false hp.1
  have hna : p.normalize.isAbsolute = false := isAbsolute_eq_false (root_not_mem_normalize hp.1)
  apply normalize_congr
  -- the joined path folds the base, then the steps of the relative part
  have hl : (b.join p).components.foldl step [] =
      p.components.foldl step (b.components.foldl step []) := by
    by_cases hb : b.isEmpty
    · simp only [join, hpa, hb, if_true, Bool.false_eq_true, if_false]
      simp [isEmpty] at hb
      rw [hb]
      rfl
    · simp only [join, hpa, hb, Bool.false_eq_true, if_false]
      rw [List.foldl_append, foldl_filter_current]
  have hr : (b.normalize.join p.normalize).components.foldl step [] =
      (p.components.foldl step []).foldl step (b.components.foldl step []) := by
    simp only [join, hna, isEmpty_normalize, Bool.false_eq_true, if_false]
    rw [List.foldl_append, foldl_step_normalize, filter_current_normalize]
  rw [hl, hr, foldl_eq_foldl_normal hp.1 hp.2]

/-- Two `..` fold into each other, so `../..` normalizes to `.`: normalizing it before joining it
to `/a` gives `/a`, where `/a/../..` normalizes to `/..`. -/
theorem normalize_pieces_loses_a_climb :
    ((ofString "/a").join (ofString "../..")).normalize ≠
      ((ofString "/a").normalize.join (ofString "../..").normalize).normalize := by
  decide +kernel

/-- Normalizing a path twice is normalizing it once; and when the path never climbs two levels
above where it starts, normalizing it joined to any base is normalizing the two pieces first. -/
theorem normalize_idempotent_and_piecewise (p : Path) :
    p.normalize.normalize = p.normalize ∧
      (p.ClimbsOnce → ∀ b : Path,
        (b.join p).normalize = (b.normalize.join p.normalize).normalize) :=
  ⟨normalize_normalize p, fun hp b => normalize_join_of_climbsOnce b hp⟩

theorem normalize_pieces_of_sibling :
    (ofString "../x").ClimbsOnce ∧
      ((ofString "/a/b").join (ofString "../x")).normalize =
        ((ofString "/a/b").normalize.join (ofString "../x").normalize).normalize :=
  ⟨by decide +kernel, (normalize_idempotent_and_piecewise _).2 (by decide +kernel) _⟩

end Path

end ModuleBundler
