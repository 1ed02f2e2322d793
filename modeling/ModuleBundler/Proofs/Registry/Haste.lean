import ModuleBundler.Registry.Haste

/-!
# The global name index, slot by slot

The index keeps, for each name, its entries by platform. What it answers is its slots: the entry
a name holds for a platform (`HasteMap.slot`). With no name and no platform of a name listed twice
(`HasteMap.WellFormed`), dropping a file removes exactly the slots it holds, and registering an
entry fills its slot when that is free, keeps the index when the slot holds the same entry, and
fails on a collision with another file.

An index holds a set of pairs of names and entries when its slots are exactly theirs, each in the
slot of its entry's platform (`HasteMap.Holds`). Registering a list one pair after another, from
an index holding a set, succeeds when no two pairs of the whole collide (`NoClash`), and then holds
the union (`foldlM_register_ok`); where a path names at most one pair, success also rules out a
collision (`noClash_of_foldlM_register`).
-/

namespace ModuleBundler

/-- In a list with no key twice, a key is looked up to the value it is listed with. -/
theorem lookup_eq_some_iff_mem {α β : Type} [BEq α] [LawfulBEq α] {k : α} {b : β} :
    ∀ {l : List (α × β)}, (l.map Prod.fst).Nodup → (l.lookup k = some b ↔ (k, b) ∈ l)
  | [], _ => by simp
  | (a, c) :: l, hn => by
    rw [List.map_cons, List.nodup_cons] at hn
    by_cases hk : k = a
    · subst hk
      have hnot : (k, b) ∉ l := fun h => hn.1 (List.mem_map.2 ⟨_, h, rfl⟩)
      simp [hnot, eq_comm]
    · have hb : (k == a) = false := by simpa using hk
      simp [List.lookup_cons, hb, hk, lookup_eq_some_iff_mem hn.2]

/-- Rewriting the values of a list in place, keys kept, rewrites what a key looks up. -/
theorem lookup_map_snd {α β : Type} [BEq α] [LawfulBEq α] (k : α) (g : α × β → β) :
    ∀ l : List (α × β), (l.map fun x => (x.1, g x)).lookup k = (l.lookup k).map fun b => g (k, b)
  | [] => rfl
  | (a, b) :: l => by
    by_cases hk : k = a
    · subst hk; simp
    · have hb : (k == a) = false := by simpa using hk
      simp [List.lookup_cons, hb, lookup_map_snd k g l]

namespace HasteMap

variable {h h' : HasteMap} {ps : List String} {name n : String} {pl q : Option String}
  {en ex : HasteEntry} {p : Path}

/-- The entry a name holds for a platform, `none` standing for every platform. -/
def slot (h : HasteMap) (name : String) (platform : Option String) : Option HasteEntry :=
  (h.names.lookup name).bind fun vs => vs.lookup platform

/-- No name is listed twice, and no name lists a platform twice. -/
structure WellFormed (h : HasteMap) : Prop where
  names : (h.names.map Prod.fst).Nodup
  variants : ∀ n vs, (n, vs) ∈ h.names → (vs.map Prod.fst).Nodup

theorem WellFormed.slot_eq_some (hh : h.WellFormed) :
    h.slot n pl = some en ↔ ∃ vs, (n, vs) ∈ h.names ∧ (pl, en) ∈ vs := by
  simp only [slot, Option.bind_eq_some_iff]
  constructor
  · rintro ⟨vs, hvs, hen⟩
    have hmem := (lookup_eq_some_iff_mem hh.names).1 hvs
    exact ⟨vs, hmem, (lookup_eq_some_iff_mem (hh.variants _ _ hmem)).1 hen⟩
  · rintro ⟨vs, hmem, hen⟩
    exact ⟨vs, (lookup_eq_some_iff_mem hh.names).2 hmem,
      (lookup_eq_some_iff_mem (hh.variants _ _ hmem)).2 hen⟩

@[simp] theorem slot_empty : empty.slot n pl = none := rfl

theorem wellFormed_empty : empty.WellFormed := ⟨List.nodup_nil, by simp [empty]⟩

/-! ## Dropping a file -/

theorem WellFormed.removePath (hh : h.WellFormed) (p : Path) : (h.removePath p).WellFormed := by
  refine ⟨?_, fun n vs hmem => ?_⟩
  · -- the rewrite keeps every name, and the filter drops some
    have hkeys : (h.names.map fun x : String × List (Option String × HasteEntry) =>
        (x.1, x.2.filter fun y => y.2.path != p)).map Prod.fst = h.names.map Prod.fst := by
      simp [Function.comp_def]
    exact (hkeys ▸ hh.names).sublist (List.filter_sublist.map Prod.fst)
  · simp only [HasteMap.removePath, List.mem_filter, List.mem_map] at hmem
    obtain ⟨⟨⟨n', vs'⟩, hmem', hx⟩, -⟩ := hmem
    simp only [Prod.mk.injEq] at hx
    obtain ⟨rfl, rfl⟩ := hx
    exact (hh.variants _ _ hmem').sublist (List.filter_sublist.map Prod.fst)

/-- Dropping a file empties exactly the slots its entries hold. -/
theorem slot_removePath (hh : h.WellFormed) (p : Path) (n : String) (pl : Option String) :
    (h.removePath p).slot n pl = (h.slot n pl).filter fun e => e.path != p := by
  apply Option.ext
  intro en
  rw [(hh.removePath p).slot_eq_some, Option.filter_eq_some_iff, hh.slot_eq_some]
  simp only [HasteMap.removePath, List.mem_filter, List.mem_map, Prod.mk.injEq]
  constructor
  · rintro ⟨vs, ⟨⟨⟨n', vs'⟩, hmem, rfl, rfl⟩, -⟩, hen⟩
    obtain ⟨hen, hpath⟩ := List.mem_filter.1 hen
    exact ⟨⟨vs', hmem, hen⟩, hpath⟩
  · rintro ⟨⟨vs, hmem, hen⟩, hpath⟩
    have hen' : (pl, en) ∈ vs.filter fun y => y.2.path != p := List.mem_filter.2 ⟨hen, hpath⟩
    refine ⟨_, ⟨⟨(n, vs), hmem, rfl, rfl⟩, ?_⟩, hen'⟩
    simpa [List.isEmpty_iff] using List.ne_nil_of_mem hen'

/-! ## Registering an entry -/

theorem lookup_variants (h : HasteMap) (name : String) (pl : Option String) :
    ((h.names.lookup name).getD []).lookup pl = h.slot name pl := by
  simp only [slot]
  cases h.names.lookup name <;> rfl

/-- Registering where the slot is held keeps the index for the same file, and is a collision
for another. -/
theorem register_of_slot_eq_some (hs : h.slot name (platformExtension en.path ps) = some ex) :
    h.register ps name en = if ex.path = en.path then .ok h
      else .error (.namingCollision name (platformExtension en.path ps) en.path ex.path) := by
  simp [register, lookup_variants, hs]

/-- Adding an entry for a platform a list of variants lacks. -/
theorem lookup_append_variant {vs : List (Option String × HasteEntry)} {pf : Option String}
    (hvs : vs.lookup pf = none) (q : Option String) :
    (vs ++ [(pf, en)]).lookup q = if q = pf then some en else vs.lookup q := by
  rw [List.lookup_append]
  by_cases hq : q = pf
  · subst hq; simp [hvs]
  · have hb : (q == pf) = false := by simpa using hq
    cases vs.lookup q <;> simp [hq]

theorem nodup_append_variant {vs : List (Option String × HasteEntry)} {pf : Option String}
    (hnd : (vs.map Prod.fst).Nodup) (hvs : vs.lookup pf = none) :
    ((vs ++ [(pf, en)]).map Prod.fst).Nodup := by
  rw [List.lookup_eq_none_iff] at hvs
  rw [List.map_append, List.nodup_append]
  refine ⟨hnd, by simp, ?_⟩
  intro a ha b hb hab
  obtain ⟨x, hx, rfl⟩ := List.mem_map.1 ha
  simp only [List.map_cons, List.map_nil, List.mem_singleton] at hb
  subst hb
  simpa [hab] using hvs x hx

/-- Registering where the slot is free fills that slot and no other. -/
theorem register_of_slot_eq_none (hh : h.WellFormed)
    (hs : h.slot name (platformExtension en.path ps) = none) :
    ∃ h', h.register ps name en = .ok h' ∧ h'.WellFormed ∧
      ∀ n q, h'.slot n q =
        if n = name ∧ q = platformExtension en.path ps then some en else h.slot n q := by
  have hvs := (lookup_variants h name _).trans hs
  cases hl : h.names.lookup name with
  | some vs =>
    -- a known name: its variants gain the entry, in place
    simp only [register, hl, Option.getD_some] at hvs ⊢
    simp only [hvs, Option.isSome_some, if_true]
    have hF : (fun x : String × List (Option String × HasteEntry) =>
        if x.1 = name then (x.1, vs ++ [(platformExtension en.path ps, en)]) else (x.1, x.2)) =
        fun x => (x.1, if x.1 = name then vs ++ [(platformExtension en.path ps, en)] else x.2) := by
      funext x; split <;> rfl
    have hmem := (lookup_eq_some_iff_mem hh.names).1 hl
    refine ⟨_, rfl, ⟨?_, fun n vs' hn => ?_⟩, fun n q => ?_⟩
    · simpa [hF, Function.comp_def] using hh.names
    · rw [hF, List.mem_map] at hn
      obtain ⟨⟨n', vs''⟩, hmem', hx⟩ := hn
      simp only [Prod.mk.injEq] at hx
      obtain ⟨rfl, rfl⟩ := hx
      split
      · rename_i hn'
        subst hn'
        have : vs'' = vs := by
          rw [← Option.some_inj, ← hl]
          exact ((lookup_eq_some_iff_mem hh.names).2 hmem').symm
        exact nodup_append_variant (hh.variants _ _ hmem) hvs
      · exact hh.variants _ _ hmem'
    · simp only [slot, hF, lookup_map_snd]
      by_cases hn : n = name
      · subst hn
        simp [hl, lookup_append_variant hvs]
      · simp [hn]
  | none =>
    -- a new name, with this one entry
    simp only [register, hl, Option.getD_none, List.lookup_nil, Option.isSome_none] at hvs ⊢
    refine ⟨_, rfl, ⟨?_, fun n vs' hn => ?_⟩, fun n q => ?_⟩
    · rw [List.lookup_eq_none_iff] at hl
      rw [List.map_append, List.nodup_append]
      refine ⟨hh.names, by simp, ?_⟩
      intro a ha b hb hab
      obtain ⟨x, hx, rfl⟩ := List.mem_map.1 ha
      simp only [List.map_cons, List.map_nil, List.mem_singleton] at hb
      subst hb
      simpa [hab] using hl x hx
    · rcases List.mem_append.1 hn with hn | hn
      · exact hh.variants _ _ hn
      · simp only [List.mem_singleton, Prod.mk.injEq] at hn
        obtain ⟨rfl, rfl⟩ := hn
        simp
    · simp only [slot, List.lookup_append, List.nil_append]
      by_cases hn : n = name
      · subst hn
        by_cases hq : q = platformExtension en.path ps
        · subst hq; simp [hl]
        · simp [hl, hq]
      · have hb : (n == name) = false := by simpa using hn
        have h1 : [(name, [(platformExtension en.path ps, en)])].lookup n = none := by
          simp only [List.lookup_cons, hb, List.lookup_nil]
        rw [h1, if_neg fun h => hn h.1]
        cases h.names.lookup n <;> rfl

/-! ## The pairs an index holds -/

/-- The index holds exactly the pairs `S` says, each in the slot of its entry's platform. -/
def Holds (h : HasteMap) (ps : List String) (S : String → HasteEntry → Prop) : Prop :=
  ∀ n pl en, h.slot n pl = some en ↔ S n en ∧ platformExtension en.path ps = pl

/-- No two pairs of `S` for one name fall in the slot of one platform. -/
def NoClash (ps : List String) (S : String → HasteEntry → Prop) : Prop :=
  ∀ n en en', S n en → S n en' →
    platformExtension en.path ps = platformExtension en'.path ps → en = en'

variable {S T : String → HasteEntry → Prop}

theorem Holds.congr (H : h.Holds ps S) (hST : ∀ n en, S n en ↔ T n en) : h.Holds ps T :=
  fun n pl en => (H n pl en).trans (and_congr_left' (hST n en))

theorem NoClash.mono (hS : NoClash ps S) (hTS : ∀ n en, T n en → S n en) : NoClash ps T :=
  fun n en en' h₁ h₂ => hS n en en' (hTS _ _ h₁) (hTS _ _ h₂)

/-- An index holding a set of pairs has room for each of them: none of them collide. -/
theorem Holds.noClash (H : h.Holds ps S) : NoClash ps S := by
  intro n en en' hS hS' hpl
  have h₁ := (H n _ en).2 ⟨hS, rfl⟩
  have h₂ := (H n _ en').2 ⟨hS', hpl.symm⟩
  rw [h₁] at h₂
  exact Option.some.inj h₂

theorem holds_empty : empty.Holds ps fun _ _ => False := by
  intro n pl en
  simp

theorem Holds.removePath (hh : h.WellFormed) (H : h.Holds ps S) (p : Path) :
    (h.removePath p).Holds ps fun n en => S n en ∧ en.path ≠ p := by
  intro n pl en
  rw [slot_removePath hh, Option.filter_eq_some_iff, H]
  simp only [bne_iff_ne, ne_eq]
  exact ⟨fun ⟨⟨hS, hpl⟩, hp⟩ => ⟨⟨hS, hp⟩, hpl⟩, fun ⟨⟨hS, hp⟩, hpl⟩ => ⟨⟨hS, hpl⟩, hp⟩⟩

/-- Registering a pair that collides with none the index holds succeeds, and the index then
holds it too. -/
theorem Holds.register (hh : h.WellFormed) (H : h.Holds ps S)
    (hnc : NoClash ps fun n e => S n e ∨ n = name ∧ e = en) :
    ∃ h', h.register ps name en = .ok h' ∧ h'.WellFormed ∧
      h'.Holds ps fun n e => S n e ∨ n = name ∧ e = en := by
  cases hs : h.slot name (platformExtension en.path ps) with
  | some ex =>
    -- the slot already holds this very pair
    obtain ⟨hex, hpl⟩ := (H _ _ _).1 hs
    have hexen : ex = en := hnc name ex en (.inl hex) (.inr ⟨rfl, rfl⟩) hpl
    subst hexen
    refine ⟨h, by simp [register_of_slot_eq_some hs], hh, H.congr fun n e => ?_⟩
    exact ⟨.inl, fun h => h.elim id fun ⟨hn, he⟩ => hn ▸ he ▸ hex⟩
  | none =>
    obtain ⟨h', hreg, hh', hslot⟩ := register_of_slot_eq_none hh hs
    refine ⟨h', hreg, hh', fun n q e => ?_⟩
    rw [hslot]
    split
    · rename_i hnq
      obtain ⟨rfl, rfl⟩ := hnq
      constructor
      · rintro ⟨⟩
        exact ⟨.inr ⟨rfl, rfl⟩, rfl⟩
      · rintro ⟨hS | ⟨-, rfl⟩, hpl⟩
        · -- a held pair in this slot would make it no longer free
          rw [← hpl, (H _ _ _).2 ⟨hS, rfl⟩] at hs
          cases hs
        · rfl
    · rename_i hnq
      rw [H]
      constructor
      · exact fun ⟨hS, hpl⟩ => ⟨.inl hS, hpl⟩
      · rintro ⟨hS | ⟨rfl, rfl⟩, hpl⟩
        · exact ⟨hS, hpl⟩
        · exact absurd ⟨rfl, hpl.symm⟩ hnq

/-- A registration that succeeds meets no other file in the slot. -/
theorem Holds.eq_of_register_eq_ok (H : h.Holds ps S) (hok : h.register ps name en = .ok h')
    (hpath : ∀ e, S name e → e.path = en.path → e = en) :
    ∀ e, S name e → platformExtension e.path ps = platformExtension en.path ps → e = en := by
  intro e hS hpl
  have hs := (H _ _ _).2 ⟨hS, hpl⟩
  rw [register_of_slot_eq_some hs] at hok
  split at hok
  · exact hpath e hS ‹_›
  · cases hok

/-- After a registration that succeeds, the pairs held and the registered one collide nowhere,
when no held pair of the name sits at the entry's path. -/
theorem Holds.noClash_register (H : h.Holds ps S) (hok : h.register ps name en = .ok h')
    (hpath : ∀ e, S name e → e.path = en.path → e = en) :
    NoClash ps fun n e => S n e ∨ n = name ∧ e = en := by
  have hS := H.noClash
  have hreg := H.eq_of_register_eq_ok hok hpath
  rintro n e₁ e₂ (h₁ | ⟨rfl, rfl⟩) (h₂ | ⟨hn, rfl⟩) hpl
  · exact hS n e₁ e₂ h₁ h₂ hpl
  · subst hn; exact hreg e₁ h₁ hpl
  · exact (hreg e₂ h₂ hpl.symm).symm
  · rfl

/-- Registering a list of pairs, one after another, from an index holding `S`: when no two pairs
of the whole collide, every registration succeeds and the index ends holding them all. -/
theorem foldlM_register_ok : ∀ (l : List (String × HasteEntry)) (h : HasteMap)
    (S : String → HasteEntry → Prop), h.WellFormed → h.Holds ps S →
    NoClash ps (fun n e => S n e ∨ (n, e) ∈ l) →
    ∃ h', l.foldlM (fun h x => h.register ps x.1 x.2) h = .ok h' ∧ h'.WellFormed ∧
      h'.Holds ps fun n e => S n e ∨ (n, e) ∈ l
  | [], h, S, hh, H, _ => ⟨h, rfl, hh, H.congr fun _ _ => by simp⟩
  | x :: l, h, S, hh, H, hnc => by
    have hmem : ∀ n e, (n, e) ∈ x :: l ↔ (n = x.1 ∧ e = x.2) ∨ (n, e) ∈ l := by
      intro n e; simp [List.mem_cons, Prod.ext_iff]
    obtain ⟨h₁, hreg, hh₁, H₁⟩ := H.register hh
      (hnc.mono (T := fun n e => S n e ∨ n = x.1 ∧ e = x.2)
        fun n e hx => hx.imp id fun hx => (hmem n e).2 (.inl hx))
    obtain ⟨h', hfold, hh', H'⟩ := foldlM_register_ok l h₁ _ hh₁ H₁
      (hnc.mono fun n e hx => by
        rcases hx with (hS | hx) | hl
        · exact .inl hS
        · exact .inr ((hmem n e).2 (.inl hx))
        · exact .inr ((hmem n e).2 (.inr hl)))
    refine ⟨h', by rw [List.foldlM_cons, hreg]; exact hfold, hh', H'.congr fun n e => ?_⟩
    rw [hmem]
    exact or_assoc

/-- Where a path names at most one pair, registering a list of pairs one after another succeeds
only when no two pairs of the whole collide. -/
theorem noClash_of_foldlM_register : ∀ (l : List (String × HasteEntry)) (h : HasteMap)
    (S : String → HasteEntry → Prop), h.WellFormed → h.Holds ps S → NoClash ps S →
    (∀ n e n' e', (S n e ∨ (n, e) ∈ l) → (S n' e' ∨ (n', e') ∈ l) → e.path = e'.path →
      n = n' ∧ e = e') →
    ∀ h', l.foldlM (fun h x => h.register ps x.1 x.2) h = .ok h' →
      NoClash ps fun n e => S n e ∨ (n, e) ∈ l
  | [], _, S, _, _, hS, _, _, _ => hS.mono fun _ _ h => h.elim id (by simp)
  | x :: l, h, S, hh, H, hS, hpath, h', hok => by
    have hmem : ∀ n e, (n, e) ∈ x :: l ↔ (n = x.1 ∧ e = x.2) ∨ (n, e) ∈ l := by
      intro n e; simp [List.mem_cons, Prod.ext_iff]
    rw [List.foldlM_cons] at hok
    cases hreg : h.register ps x.1 x.2 with
    | error err => rw [hreg] at hok; cases hok
    | ok h₁ =>
      rw [hreg] at hok
      -- the first pair meets nothing held so far
      have hx : NoClash ps fun n e => S n e ∨ n = x.1 ∧ e = x.2 := by
        have heq := H.eq_of_register_eq_ok hreg fun e hSe hp =>
          (hpath _ _ _ _ (.inl hSe) (.inr ((hmem _ _).2 (.inl ⟨rfl, rfl⟩))) hp).2
        rintro n e e' (h₁ | ⟨rfl, rfl⟩) (h₂ | ⟨hn, rfl⟩) hpl
        · exact hS n e e' h₁ h₂ hpl
        · subst hn; exact heq e h₁ hpl
        · exact (heq e' h₂ hpl.symm).symm
        · rfl
      obtain ⟨h₁', hreg', hh₁, H₁⟩ := H.register hh hx
      rw [hreg] at hreg'
      cases hreg'
      have hrest := noClash_of_foldlM_register l h₁ _ hh₁ H₁ hx
        (fun n e n' e' h₁ h₂ hp => hpath n e n' e'
          (by rw [hmem]; exact or_assoc.1 h₁) (by rw [hmem]; exact or_assoc.1 h₂) hp) h' hok
      exact hrest.mono fun n e h => by rw [hmem] at h; exact or_assoc.2 h

end HasteMap

end ModuleBundler
