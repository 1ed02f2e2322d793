import ModuleBundler.Proofs.Engine.Detect

/-!
# Building the global name index from scratch

A scan of the name index reads every known `.js` and `.json` file in path order. Each file claims
at most one slot (`Engine.Claims`): a `.js` module that takes part in global naming claims the
name it declares on the platform of its file name, and a `package.json` at the top of a root
claims its package's name for every platform.

The pairs are registered one after another (`HasteMap.foldlM_register_eq_error`): the first file
whose slot an earlier file holds fails the scan, naming that earlier file. So the scan succeeds
exactly when no two files claim one slot, and then answers every slot with its claimant
(`Engine.buildHasteMap_answers_claims`). Path order is component by component, and a total order
(`Path.cmp_eq_compareLex`); the mirror lists its files in it (`Vfs.sortPaths_pairwise`).
-/

namespace ModuleBundler

/-! ## Path order -/

namespace Component

theorem cmp_eq_swap (a b : Component) : a.cmp b = (b.cmp a).swap := by
  cases a <;> cases b <;> simp only [cmp, rank] <;>
    first | rfl | exact Std.OrientedCmp.eq_swap

instance : Std.TransCmp Component.cmp where
  eq_swap := cmp_eq_swap _ _
  isLE_trans {a b c} hab hbc := by
    cases a <;> cases b <;> cases c <;> simp +decide only [cmp, rank] at hab hbc ⊢
    all_goals exact Std.TransCmp.isLE_trans hab hbc

instance : Std.LawfulEqCmp Component.cmp where
  compare_self {a} := by
    cases a <;> simp only [cmp, rank] <;> first | rfl | exact Std.ReflCmp.compare_self
  eq_of_compare {a b} h := by
    cases a <;> cases b <;> simp +decide only [cmp, rank] at h ⊢
    exact congrArg Component.name (@Std.LawfulEqCmp.eq_of_compare String compare _ _ _ h)

end Component

namespace Path

theorem cmp_go_eq_compareLex : ∀ xs ys : List Component,
    cmp.go xs ys = List.compareLex Component.cmp xs ys
  | [], [] => rfl
  | [], _ :: _ => rfl
  | _ :: _, [] => rfl
  | x :: xs, y :: ys => by
    rw [cmp.go, List.compareLex_cons_cons, ← cmp_go_eq_compareLex xs ys]
    cases x.cmp y <;> rfl

/-- Paths compare as the lists of their components, each component by kind and then by name. -/
theorem cmp_eq_compareLex (a b : Path) :
    a.cmp b = List.compareLex Component.cmp a.components b.components :=
  cmp_go_eq_compareLex _ _

instance : Std.TransCmp Path.cmp where
  eq_swap {a b} := by simp only [cmp_eq_compareLex]; exact Std.OrientedCmp.eq_swap
  isLE_trans {a b c} := by simp only [cmp_eq_compareLex]; exact Std.TransCmp.isLE_trans

theorem cmp_swap (a b : Path) : a.cmp b = (b.cmp a).swap := Std.OrientedCmp.eq_swap

theorem cmp_self (a : Path) : a.cmp a = .eq := Std.ReflCmp.compare_self

theorem eq_of_cmp_eq {a b : Path} (h : a.cmp b = .eq) : a = b := by
  rw [cmp_eq_compareLex] at h
  cases a; cases b
  simpa using Std.LawfulEqCmp.eq_of_compare h

end Path

/-- Paths sorted by `sortPaths` come in path order. -/
theorem Vfs.sortPaths_pairwise (ps : List Path) :
    (Vfs.sortPaths ps).Pairwise fun a b => (a.cmp b).isLE := by
  have hle : ∀ a b : Path, (a.cmp b != .gt) = (a.cmp b).isLE := by
    intro a b; cases a.cmp b <;> rfl
  let r : Path → Path → Prop := fun a b => (a.cmp b != .gt) = true
  have : Std.Total r := ⟨fun a b => by
    simp only [r]
    rw [Path.cmp_swap b a]
    cases a.cmp b <;> decide⟩
  have : IsTrans Path r := ⟨fun a b c hab hbc => by
    simp only [r, hle] at *
    exact Std.TransCmp.isLE_trans hab hbc⟩
  rw [Vfs.sortPaths, Text.sortBy_eq_insertionSort]
  exact (List.pairwise_insertionSort r ps).imp fun h => by simpa [r, hle] using h

/-- In a list in path order, what comes before a path in that order comes before it in the
list. -/
theorem mem_left_of_cmp_lt {A B : List Path} {g x : Path}
    (hs : (A ++ g :: B).Pairwise fun a b => (a.cmp b).isLE) (hx : x ∈ A ++ g :: B)
    (hlt : x.cmp g = .lt) : x ∈ A := by
  rcases List.mem_append.1 hx with hA | hgB
  · exact hA
  · exfalso
    have hge : (g.cmp x).isLE := by
      rcases List.mem_cons.1 hgB with rfl | hB
      · rw [Path.cmp_self]; rfl
      · exact List.rel_of_pairwise_cons (List.pairwise_append.1 hs).2.1 hB
    rw [Path.cmp_swap, hlt] at hge
    cases hge

/-- In a list in path order, another path that comes before a path in the list comes before it
in that order. -/
theorem cmp_lt_of_mem_left {A B : List Path} {g x : Path}
    (hs : (A ++ g :: B).Pairwise fun a b => (a.cmp b).isLE) (hx : x ∈ A) (hne : x ≠ g) :
    x.cmp g = .lt := by
  have hle : (x.cmp g).isLE := (List.pairwise_append.1 hs).2.2 x hx g List.mem_cons_self
  cases h : x.cmp g with
  | lt => rfl
  | eq => exact absurd (Path.eq_of_cmp_eq h) hne
  | gt => rw [h] at hle; cases hle



/-! ## Registering pairs in turn -/

namespace HasteMap

variable {ps : List String}

/-- Registering a list of pairs one after another, from an index holding `S`, where a path names
at most one pair: a failure comes at the first pair whose slot a pair of another path already
holds, and names that pair; no two pairs before it collide. -/
theorem foldlM_register_eq_error : ∀ (l : List (String × HasteEntry)) (h : HasteMap)
    (S : String → HasteEntry → Prop) (err : Error), h.WellFormed → h.Holds ps S → NoClash ps S →
    (∀ n e n' e', (S n e ∨ (n, e) ∈ l) → (S n' e' ∨ (n', e') ∈ l) → e.path = e'.path →
      n = n' ∧ e = e') →
    l.foldlM (fun h x => h.register ps x.1 x.2) h = .error err →
    ∃ pre n en post ex, l = pre ++ (n, en) :: post ∧
      NoClash ps (fun n e => S n e ∨ (n, e) ∈ pre) ∧ (S n ex ∨ (n, ex) ∈ pre) ∧
      platformExtension ex.path ps = platformExtension en.path ps ∧ ex.path ≠ en.path ∧
      err = .namingCollision n (platformExtension en.path ps) en.path ex.path
  | [], _, _, _, _, _, _, _, hok => by cases hok
  | (n, en) :: l, h, S, err, hh, H, hS, hpath, hok => by
    have hmem : ∀ n' e', (n', e') ∈ (n, en) :: l ↔ (n' = n ∧ e' = en) ∨ (n', e') ∈ l := by
      intro n' e'; simp [List.mem_cons, Prod.ext_iff]
    rw [List.foldlM_cons] at hok
    cases hs : h.slot n (platformExtension en.path ps) with
    | some ex =>
      obtain ⟨hex, hpl⟩ := (H _ _ _).1 hs
      rw [register_of_slot_eq_some hs] at hok
      by_cases hp : ex.path = en.path
      · -- the file's pair is held already: the index stays, and the rest is registered
        rw [if_pos hp] at hok
        obtain ⟨-, rfl⟩ := hpath n ex n en (.inl hex) (.inr ((hmem _ _).2 (.inl ⟨rfl, rfl⟩))) hp
        obtain ⟨pre, n', en', post, ex', hl, hnc, hex', hpl', hne, herr⟩ :=
          foldlM_register_eq_error l h S err hh H hS
            (fun a b a' b' h₁ h₂ => hpath a b a' b' (h₁.imp_right (List.mem_cons_of_mem _))
              (h₂.imp_right (List.mem_cons_of_mem _))) hok
        have hpre : ∀ a b, S a b ∨ (a, b) ∈ (n, ex) :: pre ↔ S a b ∨ (a, b) ∈ pre := by
          intro a b
          simp only [List.mem_cons, Prod.mk.injEq]
          exact ⟨fun h => h.elim .inl fun h => h.elim (fun ⟨ha, hb⟩ => .inl (ha ▸ hb ▸ hex)) .inr,
            fun h => h.imp_right .inr⟩
        refine ⟨(n, ex) :: pre, n', en', post, ex', by rw [hl]; rfl, hnc.mono fun a b h =>
          (hpre a b).1 h, (hpre n' ex').2 hex', hpl', hne, herr⟩
      · -- another file holds the slot: the first collision
        rw [if_neg hp] at hok
        cases hok
        exact ⟨[], n, en, l, ex, rfl, hS.mono fun _ _ h => h.elim id (by simp), .inl hex, hpl, hp, rfl⟩
    | none =>
      -- a free slot: the pair is registered, and the rest from the grown index
      obtain ⟨h₁, hreg, hh₁, -⟩ := register_of_slot_eq_none hh hs
      have hnc₁ : NoClash ps fun a b => S a b ∨ a = n ∧ b = en := by
        rintro a b b' (h₁ | ⟨rfl, rfl⟩) (h₂ | ⟨ha, rfl⟩) hpl
        · exact hS a b b' h₁ h₂ hpl
        · subst ha; rw [(H _ _ _).2 ⟨h₁, hpl⟩] at hs; cases hs
        · rw [(H _ _ _).2 ⟨h₂, hpl.symm⟩] at hs; cases hs
        · rfl
      obtain ⟨h₁', hreg', -, H₁⟩ := H.register hh hnc₁
      rw [hreg] at hreg'
      cases hreg'
      rw [hreg] at hok
      obtain ⟨pre, n', en', post, ex', hl, hnc, hex', hpl', hne, herr⟩ :=
        foldlM_register_eq_error l h₁ _ err hh₁ H₁ hnc₁
          (fun a b a' b' h₁ h₂ hp => hpath a b a' b'
            (by rw [hmem]; exact h₁.elim (fun h => h.elim .inl (.inr ∘ .inl)) (.inr ∘ .inr))
            (by rw [hmem]; exact h₂.elim (fun h => h.elim .inl (.inr ∘ .inl)) (.inr ∘ .inr)) hp) hok
      have hpre : ∀ a b, (S a b ∨ a = n ∧ b = en) ∨ (a, b) ∈ pre ↔ S a b ∨ (a, b) ∈ (n, en) :: pre := by
        intro a b
        simp only [List.mem_cons, Prod.mk.injEq]
        tauto
      exact ⟨(n, en) :: pre, n', en', post, ex', by rw [hl]; rfl,
        hnc.mono fun a b h => (hpre a b).2 h, (hpre n' ex').1 hex', hpl', hne, herr⟩

/-- A platform's entry is its slot, else the slot for every platform. -/
theorem get?_some_eq_or (h : HasteMap) (n q : String) :
    h.get? n (some q) = (h.slot n (some q)).or (h.slot n none) := by
  simp only [get?, slot]
  cases h.names.lookup n with
  | none => rfl
  | some vs =>
    simp only [Option.bind_some]
    cases vs.lookup (some q) <;> rfl

theorem get?_none_eq_slot (h : HasteMap) (n : String) : h.get? n none = h.slot n none := by
  simp only [get?, slot]
  cases h.names.lookup n <;> rfl

/-- An index holding `S` answers a platform with the pair of `S` in that platform's slot, else
with the pair in the slot for every platform. -/
theorem Holds.get?_some {h : HasteMap} {S : String → HasteEntry → Prop} (H : h.Holds ps S)
    (n q : String) (en : HasteEntry) : h.get? n (some q) = some en ↔
      (S n en ∧ platformExtension en.path ps = some q) ∨
        ((∀ en', S n en' → platformExtension en'.path ps ≠ some q) ∧
          S n en ∧ platformExtension en.path ps = none) := by
  have hfree : (∀ a, h.slot n (some q) ≠ some a) ↔
      ∀ en', S n en' → platformExtension en'.path ps ≠ some q :=
    forall_congr' fun a => by rw [ne_eq, H, not_and]
  rw [get?_some_eq_or, Option.or_eq_some_iff, H, H, Option.eq_none_iff_forall_ne_some, hfree]

theorem Holds.get?_none {h : HasteMap} {S : String → HasteEntry → Prop} (H : h.Holds ps S)
    (n : String) (en : HasteEntry) :
    h.get? n none = some en ↔ S n en ∧ platformExtension en.path ps = none := by
  rw [get?_none_eq_slot, H]

end HasteMap

/-! ## What the files claim -/

theorem Path.extension?_of_packageJson {g : Path} (h : g.fileName? = some "package.json") :
    g.extension? = some "json" := by
  simp only [Path.extension?, h, Option.bind_some]
  decide

namespace Engine

variable {c : Context} {e : Engine}

/-- The name a file claims, with the entry that stands for the file: a `.js` module that takes
part in global naming and declares a name, or a `package.json` with a name whose directory is a
root. The slot claimed is the name with the platform of the file's name. -/
inductive Claims (e : Engine) : String → HasteEntry → Prop
  | module {g : Path} {n : String} (hg : g ∈ e.candidates) (hjs : g.extension? = some "js")
      (hc : e.compatible g = true) (hd : e.declaredName g = .ok (some n)) :
      Claims e n (.module g)
  | package {g : Path} {n : String} (hg : g ∈ e.candidates)
      (hp : g.fileName? = some "package.json") (hn : (e.packageView g).name? = some n)
      (hr : e.vfs.roots.contains (e.packageView g).root = true) : Claims e n (.package g)

/-- What detection finds in the files a scan reads is what those files claim. -/
theorem detects_iff_claims (hR : e.registry.WellFormed) {n : String} {en : HasteEntry} :
    e.Detects n en ↔ e.Claims n en := by
  constructor
  · rintro ⟨g, hg, hdet⟩
    unfold detected at hdet
    split at hdet
    · rename_i hp
      dsimp only at hdet
      split at hdet
      · rename_i name hn
        split at hdet
        · rename_i hr
          simp only [Except.ok.injEq, Option.some.injEq, Prod.mk.injEq] at hdet
          obtain ⟨rfl, rfl⟩ := hdet
          rw [packageView_path hR]
          exact .package hg hp hn hr
        · cases hdet
      · cases hdet
    · rename_i hp
      split at hdet
      · cases hdet
      · rename_i hjs
        split at hdet
        · cases hdet
        · rename_i hc
          cases hd : e.declaredName g with
          | error err => simp [hd, Except.map] at hdet
          | ok r =>
            cases r with
            | none => simp [hd, Except.map] at hdet
            | some n' =>
              simp only [hd, Except.map, Option.map_some, Except.ok.injEq, Option.some.injEq,
                Prod.mk.injEq] at hdet
              obtain ⟨rfl, rfl⟩ := hdet
              exact .module hg (by simpa using hjs) (by simpa using hc) hd
  · intro h
    cases h with
    | @module g n hg hjs hc hd =>
      refine ⟨g, hg, ?_⟩
      have hp : g.fileName? ≠ some "package.json" := fun hp => by
        rw [Path.extension?_of_packageJson hp] at hjs; exact absurd hjs (by decide)
      simp [detected, hp, hjs, hc, hd, Except.map]
    | @package g n hg hp hn hr =>
      have hr' : (e.packageView g).root ∈ e.vfs.roots := by simpa using hr
      refine ⟨g, hg, ?_⟩
      simp [detected, hp, hn, hr', packageView_path hR]

/-- What detection found in a file, failures read as nothing. -/
def found (e : Engine) (g : Path) : Option (String × HasteEntry) :=
  match e.detected g with
  | .ok r => r
  | .error _ => none

/-- The pairs a scan registers, in the order it reads the files. -/
def claimed (e : Engine) : List (String × HasteEntry) := e.candidates.filterMap e.found

theorem mapM_eq_ok_map {α β : Type} (f : α → Except Error β) (g : α → β) :
    ∀ l : List α, (∀ a ∈ l, f a = .ok (g a)) → l.mapM f = .ok (l.map g)
  | [], _ => rfl
  | a :: l, hl => by
    rw [List.mapM_cons, hl a (List.mem_cons_self ..),
      mapM_eq_ok_map f g l fun b hb => hl b (List.mem_cons_of_mem _ hb)]
    rfl

/-- When detection answers for every file, a scan registers the claimed pairs in turn. -/
theorem hasteIndex_eq_foldlM (hall : e.DetectsAll) (ps : List String) :
    e.hasteIndex ps = e.claimed.foldlM (fun h x => h.register ps x.1 x.2) HasteMap.empty := by
  have hmap : e.candidates.mapM e.detected = .ok (e.candidates.map e.found) :=
    mapM_eq_ok_map _ _ _ fun g hg => by
      obtain ⟨r, hr⟩ := hall g hg
      simp [found, hr]
  rw [hasteIndex, hmap]
  show List.foldlM _ _ ((e.candidates.map e.found).filterMap id) = _
  rw [List.filterMap_map, Function.id_comp]
  rfl

/-- A file that reads is detected. -/
theorem detectsAll_of_readable (hread : ∀ g ∈ e.candidates, ∃ s, e.readView g = .ok s) :
    e.DetectsAll := by
  intro g hg
  have hdecl : ∃ r, e.declaredName g = .ok r := by
    obtain ⟨s, hs⟩ := hread g hg
    unfold declaredName
    split
    · exact ⟨_, rfl⟩
    · split
      · exact ⟨_, rfl⟩
      · exact ⟨_, by rw [hs]⟩
  obtain ⟨r, hr⟩ := hdecl
  unfold detected
  split
  · exact ⟨_, rfl⟩
  · split
    · exact ⟨_, rfl⟩
    · split
      · exact ⟨_, rfl⟩
      · exact ⟨_, by rw [hr]; rfl⟩

theorem found_eq_some {g : Path} {x : String × HasteEntry} :
    e.found g = some x ↔ e.detected g = .ok (some x) := by
  unfold found
  cases e.detected g <;> simp

/-- A pair found in a file names that file. -/
theorem found_path (hR : e.registry.WellFormed) {g : Path} {x : String × HasteEntry}
    (h : e.found g = some x) : x.2.path = g :=
  detected_path hR (found_eq_some.1 h)

theorem mem_claimed (hR : e.registry.WellFormed) {n : String} {en : HasteEntry} :
    (n, en) ∈ e.claimed ↔ e.Claims n en := by
  rw [claimed, List.mem_filterMap, ← detects_iff_claims hR]
  simp only [Detects, found_eq_some]

/-- The files a scan reads come in path order. -/
theorem candidates_pairwise (e : Engine) : e.candidates.Pairwise fun a b => (a.cmp b).isLE :=
  (Vfs.sortPaths_pairwise _).filter _

/-- A failed scan of the files, when detection answers everywhere: the first file, in path
order, whose slot a file before it claims, and that earlier file. Before the failing file no two
files claim one slot. -/
theorem hasteIndex_eq_error (hR : e.registry.WellFormed) (hall : e.DetectsAll) {ps : List String}
    {err : Error} (hok : e.hasteIndex ps = .error err) :
    ∃ n en ex, e.Claims n en ∧ e.Claims n ex ∧
      platformExtension ex.path ps = platformExtension en.path ps ∧ ex.path.cmp en.path = .lt ∧
      (∀ n' e₁ e₂, e.Claims n' e₁ → e.Claims n' e₂ → e₁.path.cmp en.path = .lt →
        e₂.path.cmp en.path = .lt → platformExtension e₁.path ps = platformExtension e₂.path ps →
        e₁ = e₂) ∧
      err = .namingCollision n (platformExtension en.path ps) en.path ex.path := by
  rw [hasteIndex_eq_foldlM hall] at hok
  have hpath : ∀ n en n' en', (False ∨ (n, en) ∈ e.claimed) → (False ∨ (n', en') ∈ e.claimed) →
      en.path = en'.path → n = n' ∧ en = en' := by
    intro n en n' en' h₁ h₂ hp
    rw [false_or, mem_claimed hR, ← detects_iff_claims hR] at h₁ h₂
    exact detects_unique hR h₁ h₂ hp
  obtain ⟨pre, n, en, post, ex, hl, hnc, hex, hpl, hne, herr⟩ :=
    HasteMap.foldlM_register_eq_error e.claimed HasteMap.empty (fun _ _ => False) err
      HasteMap.wellFormed_empty HasteMap.holds_empty (fun _ _ _ h => h.elim) hpath hok
  simp only [false_or] at hnc hex
  -- the split of the pairs is a split of the files, in path order
  obtain ⟨l₁, l₂, hcands, hpre, hrest⟩ := List.filterMap_eq_append_iff.1 hl
  obtain ⟨m₁, g, m₂, hl₂, hnone, hg, -⟩ := List.filterMap_eq_cons_iff.1 hrest
  have hgen : en.path = g := found_path hR hg
  subst hl₂ hgen
  have hs : ((l₁ ++ m₁) ++ en.path :: m₂).Pairwise fun a b => (a.cmp b).isLE := by
    simpa [hcands] using e.candidates_pairwise
  have hclaims : ∀ n' e', (n', e') ∈ e.claimed → e.found e'.path = some (n', e') ∧
      e'.path ∈ (l₁ ++ m₁) ++ en.path :: m₂ := by
    intro n' e' h
    obtain ⟨g', hg', hfound⟩ := List.mem_filterMap.1 h
    rw [← found_path hR hfound] at hg' hfound
    exact ⟨hfound, by simpa [hcands] using hg'⟩
  have hmem : ∀ n' e', (n', e') ∈ pre → (n', e') ∈ e.claimed := fun n' e' h => by
    rw [hl]; exact List.mem_append_left _ h
  -- a claim of a file before the failing one is among the pairs registered before it
  have hbefore : ∀ n' e', e.Claims n' e' → e'.path.cmp en.path = .lt → (n', e') ∈ pre := by
    intro n' e' hC hlt
    obtain ⟨hfound, hin⟩ := hclaims n' e' ((mem_claimed hR).2 hC)
    rcases List.mem_append.1 (mem_left_of_cmp_lt hs hin hlt) with h₁ | h₁
    · rw [← hpre]; exact List.mem_filterMap.2 ⟨_, h₁, hfound⟩
    · rw [hnone _ h₁] at hfound; cases hfound
  refine ⟨n, en, ex, (mem_claimed hR).1 (by rw [hl]; simp), (mem_claimed hR).1 (hmem _ _ hex),
    hpl, ?_, fun n' e₁ e₂ h₁ h₂ hlt₁ hlt₂ hpl' => hnc n' e₁ e₂ (hbefore _ _ h₁ hlt₁)
      (hbefore _ _ h₂ hlt₂) hpl', herr⟩
  obtain ⟨-, hin⟩ := hclaims n ex (hmem _ _ hex)
  rw [← hpre] at hex
  obtain ⟨gx, hgx, hfx⟩ := List.mem_filterMap.1 hex
  rw [← found_path hR hfx] at hgx
  exact cmp_lt_of_mem_left hs (List.mem_append_left _ hgx) hne

/-- What a full scan answers, read off the claims of the files it reads. It succeeds exactly when
no two files claim one slot. The index it then builds answers a name on a platform with the
claimant of that platform's slot, else with the claimant of the slot for every platform, and a
name on no platform with the latter. A failure is the naming collision of the first file, in path
order, whose slot an earlier file claims, with that earlier file. -/
structure ScanAnswer (e : Engine) (ps : List String) (r : Except Error HasteMap) : Prop where
  ok_iff : (∃ h, r = .ok h) ↔ HasteMap.NoClash ps e.Claims
  get_some : ∀ h, r = .ok h → ∀ n q en, h.get? n (some q) = some en ↔
    (e.Claims n en ∧ platformExtension en.path ps = some q) ∨
      ((∀ en', e.Claims n en' → platformExtension en'.path ps ≠ some q) ∧
        e.Claims n en ∧ platformExtension en.path ps = none)
  get_none : ∀ h, r = .ok h → ∀ n en,
    h.get? n none = some en ↔ e.Claims n en ∧ platformExtension en.path ps = none
  error : ∀ err, r = .error err → ∃ n en ex, e.Claims n en ∧ e.Claims n ex ∧
    platformExtension ex.path ps = platformExtension en.path ps ∧ ex.path.cmp en.path = .lt ∧
    (∀ n' e₁ e₂, e.Claims n' e₁ → e.Claims n' e₂ → e₁.path.cmp en.path = .lt →
      e₂.path.cmp en.path = .lt → platformExtension e₁.path ps = platformExtension e₂.path ps →
      e₁ = e₂) ∧
    err = .namingCollision n (platformExtension en.path ps) en.path ex.path

/-- A full scan of the name index over files that read, with the registry holding source
modules only (as after a load or a refresh), answers as the files' claims say. -/
theorem buildHasteMap_answers_claims (hR : e.registry.WellFormed)
    (hC : ∀ g ∈ e.candidates, g.IsNormal) (hread : ∀ g ∈ e.candidates, ∃ s, e.readView g = .ok s) :
    ScanAnswer e c.opts.platforms (EngineM.run buildHasteMap c e).1 := by
  obtain ⟨e', -, hrun⟩ := run_buildHasteMap (c := c) hR hC
  rw [hrun]
  have hall := detectsAll_of_readable hread
  have hDC : e.Detects = e.Claims := funext fun n => funext fun en => propext (detects_iff_claims hR)
  refine ⟨⟨fun ⟨h, hok⟩ => hDC ▸ (hasteIndex_eq_ok hR hok).2.1, fun hnc => ?_⟩,
    fun h hok => ?_, fun h hok => ?_, fun err herr => hasteIndex_eq_error hR hall herr⟩
  · obtain ⟨h, hok, -⟩ := hasteIndex_eq_ok_of_noClash hall (hDC ▸ hnc)
    exact ⟨h, hok⟩
  · exact hDC ▸ (hasteIndex_eq_ok hR hok).2.2.2.get?_some
  · exact hDC ▸ (hasteIndex_eq_ok hR hok).2.2.2.get?_none

/-- Two files of the mirror, `a.js` and `b.js`, both declare `A` for every platform: the scan
answers as their claims say, with the collision of `b.js`, the later one, with `a.js`. -/
theorem buildHasteMap_answers_clashing_files :
    let a : Path := ⟨[.root, .name "a.js"]⟩
    let b : Path := ⟨[.root, .name "b.js"]⟩
    let src : VfsNode := .file ⟨some "/** @providesModule A */", none⟩
    let e : Engine := ⟨⟨[], 0, Disk.rootPath⟩, ContentCache.inMemory,
      ⟨[Disk.rootPath], [], [(Disk.rootPath, .dir ["a.js", "b.js"]), (a, src), (b, src)],
        IgnoreRules.none, ["js"]⟩, Registry.empty, HasteMap.empty, false, [], 0, [], 0⟩
    let c : Context := ⟨PackagerOptions.default, GlobalConfig.default, [], none, ⟨[], []⟩, .identity⟩
    ScanAnswer e c.opts.platforms (EngineM.run buildHasteMap c e).1 ∧
      (EngineM.run buildHasteMap c e).1 = .error (.namingCollision "A" none b a) := by
  intro a b src e c
  have hcands : e.candidates = [a, b] := by decide +kernel
  refine ⟨buildHasteMap_answers_claims Registry.wellFormed_empty (by rw [hcands]; decide)
    (fun g hg => ?_), ?_⟩
  · rw [hcands] at hg
    rcases List.mem_pair.1 hg with rfl | rfl <;> exact ⟨_, rfl⟩
  · have h : (match (EngineM.run buildHasteMap c e).1 with
        | .error (.namingCollision n q g h) => decide (n = "A" ∧ q = none ∧ g = b ∧ h = a)
        | _ => false) = true := by decide +kernel
    split at h
    · next heq => simpa [heq] using h
    · exact absurd h (by decide)

end Engine

end ModuleBundler
