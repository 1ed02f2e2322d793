import ModuleBundler.Proofs.Engine.Change

/-!
# The reverse index of memoised resolutions

The registry memoises resolutions `(requiring module, platform, name) ↦ module` and keeps, for
each module, the keys that resolve to it, so that a change of that module can re-point or drop
them. The two tables are inverse to each other, and every memoised resolution names a live module
(`Registry.Indexed`), in every state that the registry's operations reach from an empty registry
(`RegistryReachable.indexed`): creating source, asset, null and polyfill modules, memoising a
resolution to a live module, forgetting all resolutions, applying a file change, and starting
over.

Each operation is followed through the two views it changes: the resolution of a key
(`resolved.lookup`) and the keys listed under a module (`dependerKeys`). Only a changed file needs
an argument. The module it replaces first forgets the resolutions it made itself
(`unlinkOutgoing`, `unlinkOutgoing_views`), so the keys then listed under it are exactly those
other modules resolve to it; these move to the fresh module that takes its place.
-/

namespace ModuleBundler

open EngineM

/-! ## Association lists -/

section Lookup

variable {α β : Type} [DecidableEq α]

/-- Dropping the entries whose key fails a test keeps the lookups of the keys that pass it. -/
theorem lookup_filter_of_key {P : α × β → Bool} {Q : α → Bool} (hP : ∀ a b, P (a, b) = Q a)
    (k : α) : ∀ l : List (α × β), (l.filter P).lookup k = if Q k then l.lookup k else none
  | [] => by simp
  | (a, b) :: l => by
    have ih := lookup_filter_of_key hP k l
    by_cases hka : k = a
    · subst hka
      cases hQ : Q k <;> simp [hP, hQ, ih]
    · have hb : (k == a) = false := by simpa using hka
      cases hQ : Q a <;> simp [hP, hQ, List.lookup_cons, hb, ih]

/-- Replacing the entries of a key and appending a new one makes the key look up the new value. -/
theorem lookup_filter_append (l : List (α × β)) (a k : α) (b : β) :
    ((l.filter fun x => x.1 != a) ++ [(a, b)]).lookup k = if k = a then some b else l.lookup k := by
  rw [List.lookup_append, lookup_filter_of_key (Q := (· != a)) (fun _ _ => rfl)]
  by_cases hka : k = a
  · simp [hka]
  · have hb : (k == a) = false := by simpa using hka
    simp [hka, hb, List.lookup_cons]

/-- Giving a new value to the entries whose key is in a list. -/
theorem lookup_map_contains (ks : List α) (b' : β) (k : α) :
    ∀ l : List (α × β), (l.map fun x => if ks.contains x.1 then (x.1, b') else (x.1, x.2)).lookup k =
      if ks.contains k then (l.lookup k).map fun _ => b' else l.lookup k
  | [] => by simp
  | (a, b) :: l => by
    have ih := lookup_map_contains ks b' k l
    by_cases hka : k = a
    · subst hka
      cases hQ : ks.contains k <;>
        simp only [List.map_cons, hQ, if_true, Bool.false_eq_true, if_false, List.lookup_cons,
          beq_self_eq_true, Option.map_some]
    · have hb : (k == a) = false := by simpa using hka
      cases hQ : ks.contains a <;>
        simp only [List.map_cons, hQ, if_true, Bool.false_eq_true, if_false, List.lookup_cons, hb, ih]

omit [DecidableEq α] in
/-- Dropping entries keeps the keys distinct. -/
theorem nodup_keys_filter (P : α × β → Bool) {l : List (α × β)} (h : (l.map Prod.fst).Nodup) :
    ((l.filter P).map Prod.fst).Nodup :=
  h.sublist ((List.filter_sublist).map _)

/-- Giving new values to entries keeps their keys. -/
theorem map_fst_map_contains (ks : List α) (b' : β) (l : List (α × β)) :
    (l.map fun x => if ks.contains x.1 then (x.1, b') else (x.1, x.2)).map Prod.fst =
      l.map Prod.fst := by
  rw [List.map_map]
  congr 1
  funext x
  simp only [Function.comp]
  split <;> rfl

end Lookup

namespace Registry

variable {r r' : Registry} {k key : ResolutionKey} {t id old : Nat} {p : Path}

/-! ## The two views of the resolution tables -/

/-- The table holds one resolution per key; the reverse index lists each memoised resolution
under the module it resolves to, and nothing else; and every memoised resolution names a live
module. -/
structure Indexed (r : Registry) : Prop where
  keys : (r.resolved.map Prod.fst).Nodup
  inverse : ∀ k t, k ∈ r.dependerKeys t ↔ r.resolved.lookup k = some t
  live : ∀ k t, r.resolved.lookup k = some t → (r.live? t).isSome

theorem indexed_empty : Registry.empty.Indexed :=
  ⟨by simp [Registry.empty], fun k t => by simp [dependerKeys, Registry.empty],
    fun k t h => by simp [Registry.empty] at h⟩

/-- With no resolutions there is nothing to index. -/
theorem indexed_cleared (r : Registry) : ({ r with resolved := [], dependers := [] } : Registry).Indexed :=
  ⟨by simp, fun k t => by simp [dependerKeys], fun k t h => by simp at h⟩

@[simp] theorem dependerKeys_setDependerKeys (keys : List ResolutionKey) :
    (r.setDependerKeys id keys).dependerKeys t = if t = id then keys else r.dependerKeys t := by
  by_cases ht : t = id
  · subst ht
    simp [setDependerKeys, dependerKeys]
  · have hb : (t == id) = false := by simpa using ht
    simp [setDependerKeys, dependerKeys, List.lookup_cons, hb, ht, lookup_filter_ne ht]

theorem dependerKeys_drop (r : Registry) (id t : Nat) :
    ({ r with dependers := r.dependers.filter (·.1 != id) } : Registry).dependerKeys t =
      if t = id then [] else r.dependerKeys t := by
  simp only [dependerKeys]
  rw [lookup_filter_of_key (Q := (· != id)) (fun _ _ => rfl)]
  by_cases ht : t = id <;> simp [ht]

theorem mem_dependerKeys_drop (r : Registry) (id t : Nat) :
    k ∈ ({ r with dependers := r.dependers.filter (·.1 != id) } : Registry).dependerKeys t ↔
      t ≠ id ∧ k ∈ r.dependerKeys t := by
  rw [dependerKeys_drop]
  by_cases ht : t = id <;> simp [ht]

/-- A module created now is live, and every other module keeps its state. -/
theorem live?_insert (kind : ModuleKind) :
    (r.insert p kind).2.live? t = if t = r.store.size then some ⟨t, p, kind⟩ else r.live? t := by
  by_cases ht : t = r.store.size <;> simp [ht, live?, record?_insert]

/-- A module marked dead is no longer live; every other module keeps its state. -/
theorem live?_kill (r : Registry) (b : List (Path × Nat)) (old t : Nat) :
    ({ r with byPath := b, store := r.store.modify old fun rc => { rc with live := false } } :
      Registry).live? t = if t = old then none else r.live? t := by
  simp only [live?, record?, Array.getElem?_modify]
  by_cases ht : t = old
  · subst ht
    cases r.store[t]? <;> simp
  · simp [ht, Ne.symm ht]

/-- A module the registry resolves to is one it has created. -/
theorem Indexed.lt_size (h : r.Indexed) (hk : r.resolved.lookup k = some t) : t < r.store.size := by
  have hlive := h.live k t hk
  by_contra hge
  simp [live?, record?, Array.getElem?_eq_none (Nat.le_of_not_lt hge)] at hlive

/-! ## Operations that only create modules -/

/-- A registry that only gained modules: the same resolution tables, every live module still
live. -/
structure Grows (r r' : Registry) : Prop where
  resolved : r'.resolved = r.resolved
  dependers : r'.dependers = r.dependers
  live : ∀ t, (r.live? t).isSome → (r'.live? t).isSome

theorem Grows.refl (r : Registry) : r.Grows r := ⟨rfl, rfl, fun _ => id⟩

theorem Indexed.grows (h : r.Indexed) (hg : r.Grows r') : r'.Indexed where
  keys := hg.resolved ▸ h.keys
  inverse k t := by
    simp only [dependerKeys, hg.dependers, hg.resolved]
    exact h.inverse k t
  live k t hk := hg.live t (h.live k t (hg.resolved ▸ hk))

/-- Creating a module and pointing a path, or a name, at it. -/
theorem grows_insert (kind : ModuleKind) (f : Registry → Registry)
    (hf : ∀ s, (f s).resolved = s.resolved ∧ (f s).dependers = s.dependers ∧ (f s).store = s.store) :
    r.Grows (f (r.insert p kind).2) := by
  obtain ⟨h₁, h₂, h₃⟩ := hf (r.insert p kind).2
  refine ⟨h₁, h₂, fun t ht => ?_⟩
  have hlive : (f (r.insert p kind).2).live? t = (r.insert p kind).2.live? t := by
    simp only [live?, record?, h₃]
  rw [hlive, live?_insert]
  split <;> simp_all

/-! ## A module forgetting the resolutions it made -/

/-- A fold of steps that each take one key off the list of one module. -/
theorem foldl_unlink {g : Registry → ResolutionKey × Nat → Registry}
    (hres : ∀ s x, (g s x).resolved = s.resolved) (hstore : ∀ s x, (g s x).store = s.store)
    (hmem : ∀ s x k t, k ∈ (g s x).dependerKeys t ↔ k ∈ s.dependerKeys t ∧ ¬ (k = x.1 ∧ t = x.2)) :
    ∀ (L : List (ResolutionKey × Nat)) (s : Registry),
      (L.foldl g s).resolved = s.resolved ∧ (L.foldl g s).store = s.store ∧
        ∀ k t, k ∈ (L.foldl g s).dependerKeys t ↔ k ∈ s.dependerKeys t ∧ (k, t) ∉ L
  | [], s => ⟨rfl, rfl, fun k t => by simp⟩
  | x :: L, s => by
    obtain ⟨h₁, h₂, h₃⟩ := foldl_unlink hres hstore hmem L (g s x)
    refine ⟨h₁.trans (hres s x), h₂.trans (hstore s x), fun k t => ?_⟩
    rw [List.foldl_cons, h₃, hmem, List.mem_cons, Prod.ext_iff]
    tauto

/-- Forgetting the resolutions a module made drops them from the table, and each key from the
list it was on. -/
theorem unlinkOutgoing_views (r : Registry) (id : Nat) :
    (r.unlinkOutgoing id).resolved = r.resolved.filter (·.1.origin != id) ∧
      (r.unlinkOutgoing id).store = r.store ∧
      ∀ k t, k ∈ (r.unlinkOutgoing id).dependerKeys t ↔
        k ∈ r.dependerKeys t ∧ (k, t) ∉ r.resolved.filter (·.1.origin = id) := by
  unfold unlinkOutgoing
  refine foldl_unlink (fun s x => ?_) (fun s x => ?_) (fun s x k t => ?_) _ _
  · obtain ⟨key, target⟩ := x
    dsimp only
    split <;> rfl
  · obtain ⟨key, target⟩ := x
    dsimp only
    split <;> rfl
  · obtain ⟨key, target⟩ := x
    dsimp only
    split
    · rename_i keys hkeys
      have hdk : s.dependerKeys target = keys := by simp [dependerKeys, hkeys]
      rw [dependerKeys_setDependerKeys]
      by_cases ht : t = target
      · subst ht
        simp [hdk, List.mem_filter]
      · simp [ht]
    · rename_i hnone
      have hdk : s.dependerKeys target = [] := by simp [dependerKeys, hnone]
      by_cases ht : t = target
      · subst ht
        simp [hdk]
      · simp [ht]

/-- After a module forgets its resolutions, a key resolves as before unless the module made it. -/
theorem lookup_unlinkOutgoing (r : Registry) (id : Nat) (k : ResolutionKey) :
    (r.unlinkOutgoing id).resolved.lookup k = if k.origin = id then none else r.resolved.lookup k := by
  rw [(unlinkOutgoing_views r id).1, lookup_filter_of_key (Q := (·.origin != id)) (fun _ _ => rfl)]
  by_cases hk : k.origin = id <;> simp [hk]

/-- With the tables of an indexed registry, a module forgetting its resolutions leaves listed
exactly the keys other modules resolve. -/
theorem mem_dependerKeys_unlinkOutgoing {r₀ : Registry} (h : r₀.Indexed)
    (hdep : r.dependers = r₀.dependers) (hres : r.resolved = r₀.resolved) :
    k ∈ (r.unlinkOutgoing id).dependerKeys t ↔ r₀.resolved.lookup k = some t ∧ k.origin ≠ id := by
  have hinv : ∀ k t, k ∈ r.dependerKeys t ↔ r.resolved.lookup k = some t := fun k t => by
    simp only [dependerKeys, hdep, hres]
    exact h.inverse k t
  rw [(unlinkOutgoing_views r id).2.2, hinv, List.mem_filter, hres]
  constructor
  · rintro ⟨hk, hnot⟩
    refine ⟨hk, fun ho => hnot ⟨?_, by simpa using ho⟩⟩
    obtain ⟨l₁, l₂, hl, -⟩ := List.lookup_eq_some_iff.1 hk
    simp [hl]
  · rintro ⟨hk, ho⟩
    exact ⟨hk, fun ⟨_, h'⟩ => ho (by simpa using h')⟩

@[simp] theorem setDependerKeys_resolved (keys : List ResolutionKey) :
    (r.setDependerKeys id keys).resolved = r.resolved := rfl

@[simp] theorem live?_setDependerKeys (keys : List ResolutionKey) :
    (r.setDependerKeys id keys).live? t = r.live? t := rfl

@[simp] theorem dependerKeys_withResolved (l : List (ResolutionKey × Nat)) :
    ({ r with resolved := l } : Registry).dependerKeys t = r.dependerKeys t := rfl

@[simp] theorem live?_withResolved (l : List (ResolutionKey × Nat)) :
    ({ r with resolved := l } : Registry).live? t = r.live? t := rfl

@[simp] theorem dependerKeys_setPath : (r.setPath p id).dependerKeys t = r.dependerKeys t := rfl

@[simp] theorem setPath_resolved : (r.setPath p id).resolved = r.resolved := rfl

@[simp] theorem live?_setPath : (r.setPath p id).live? t = r.live? t := rfl

@[simp] theorem dependerKeys_insert (kind : ModuleKind) :
    (r.insert p kind).2.dependerKeys t = r.dependerKeys t := rfl

@[simp] theorem insert_resolved (kind : ModuleKind) : (r.insert p kind).2.resolved = r.resolved := rfl

@[simp] theorem live?_withDependers (d : List (Nat × List ResolutionKey)) :
    ({ r with dependers := d } : Registry).live? t = r.live? t := rfl

@[simp] theorem live?_unlinkOutgoing : (r.unlinkOutgoing id).live? t = r.live? t := by
  simp only [live?, record?, unlinkOutgoing_store]

/-- The reverse index of a registry with the tables of an indexed one. -/
theorem Indexed.congr (h : r.Indexed) (hres : r'.resolved = r.resolved)
    (hdep : r'.dependers = r.dependers) (hstore : r'.store = r.store) : r'.Indexed where
  keys := hres ▸ h.keys
  inverse k t := by
    simp only [dependerKeys, hdep, hres]
    exact h.inverse k t
  live k t hk := by
    simp only [live?, record?, hstore]
    exact h.live k t (hres ▸ hk)

/-- Module `old` replaced by a fresh module `n`: the keys `old` made are gone, the keys that
resolved to `old` resolve to `n`, and `n` is live where `old` no longer is. Any registry whose
views are these is indexed. -/
theorem Indexed.of_replaced (h : r.Indexed) (old n : Nat) (hn : r.store.size ≤ n)
    (hkeys : (r'.resolved.map Prod.fst).Nodup)
    (hres : ∀ k, r'.resolved.lookup k = if k.origin = old then none
      else if r.resolved.lookup k = some old then some n else r.resolved.lookup k)
    (hdep : ∀ k t, k ∈ r'.dependerKeys t ↔ k.origin ≠ old ∧
      if t = n then r.resolved.lookup k = some old else t ≠ old ∧ r.resolved.lookup k = some t)
    (hlive : ∀ t, t ≠ old → (r.live? t).isSome → (r'.live? t).isSome)
    (hnew : (r'.live? n).isSome) : r'.Indexed := by
  -- no key resolves to `n`, which is not yet created in `r`
  have hfresh : ∀ k, r.resolved.lookup k ≠ some n := fun k hk =>
    absurd (h.lt_size hk) (Nat.not_lt.2 hn)
  refine ⟨hkeys, fun k u => ?_, fun k u hk => ?_⟩
  · rw [hdep, hres]
    by_cases ho : k.origin = old
    · simp [ho]
    · by_cases hk : r.resolved.lookup k = some old
      · by_cases hu : u = n
        · simp [ho, hk, hu]
        · -- `k` resolved to `old` and now resolves to `n`, so to no `u` other than `n`
          simp only [ho, hk, hu, if_false, if_true, Option.some_inj, ne_eq, not_false_eq_true,
            true_and]
          exact ⟨fun ⟨huo, hou⟩ => absurd hou.symm huo, fun h' => absurd h'.symm hu⟩
      · by_cases hu : u = n
        · subst hu
          simp [ho, hk, hfresh k]
        · simp only [ho, hk, hu, if_false, ne_eq, not_false_eq_true, true_and]
          constructor
          · exact And.right
          · intro hku
            exact ⟨fun huo => hk (huo ▸ hku), hku⟩
  · rw [hres] at hk
    split at hk
    · cases hk
    · split at hk
      · cases hk
        exact hnew
      · rename_i hk'
        refine hlive u (fun huo => hk' (huo ▸ hk)) (h.live k u hk)

end Registry

/-! ## Memoising one resolution -/

namespace Engine

open Registry

variable {c : Context} {e : Engine} {key : ResolutionKey} {t : Nat}

/-- Adding a key to a list unless it is there already. -/
theorem mem_addKey {ks : List ResolutionKey} {key k : ResolutionKey}
    [Decidable (ks.contains key = true)] :
    k ∈ (if ks.contains key then ks else ks ++ [key]) ↔ k ∈ ks ∨ k = key := by
  by_cases hc : ks.contains key
  · have hkey : key ∈ ks := by simpa using hc
    rw [if_pos hc]
    exact ⟨.inl, fun hk => hk.elim id (· ▸ hkey)⟩
  · rw [if_neg hc, List.mem_append, List.mem_singleton]

/-- Memoising a resolution to a live module moves its key from the module it resolved to before,
if any, to the new one. -/
theorem indexed_setResolved (h : e.registry.Indexed) (ht : (e.registry.live? t).isSome) :
    (run (setResolved key t) c e).2.registry.Indexed := by
  simp only [setResolved, modifyRegistry, run_modify]
  refine ⟨?_, fun k u => ?_, fun k u => ?_⟩
  · -- the key is dropped before it is appended
    cases e.registry.resolved.lookup key <;>
    · simp only [setDependerKeys_resolved, List.map_append, List.map_cons, List.map_nil,
        List.nodup_append, List.nodup_singleton, List.mem_singleton]
      refine ⟨nodup_keys_filter _ h.keys, trivial, fun a ha b hb => ?_⟩
      obtain ⟨x, hx, rfl⟩ := List.mem_map.1 ha
      rw [hb]
      simpa using (List.mem_filter.1 hx).2
  · -- the key leaves the list of the module it resolved to, if any, then joins that of `t`
    cases hprev : e.registry.resolved.lookup key with
    | none =>
      have hnone : ∀ u, key ∉ e.registry.dependerKeys u := fun u hm => by
        rw [h.inverse, hprev] at hm
        cases hm
      rw [dependerKeys_setDependerKeys]
      by_cases hu : u = t
      · subst hu
        rw [if_pos rfl, mem_addKey]
        simp only [dependerKeys_withResolved, setDependerKeys_resolved, lookup_filter_append]
        by_cases hkk : k = key
        · simp [hkk]
        · simp [hkk, h.inverse]
      · rw [if_neg hu]
        simp only [dependerKeys_withResolved, setDependerKeys_resolved, lookup_filter_append]
        by_cases hkk : k = key
        · subst hkk
          simp [hnone u, Ne.symm hu]
        · simp [hkk, h.inverse]
    | some q =>
      -- the old module `q` loses the key; every other list keeps what it had
      have hleave : ∀ u, k ∈ (if u = q then (e.registry.dependerKeys q).filter (· != key)
          else e.registry.dependerKeys u) ↔ k ∈ e.registry.dependerKeys u ∧ k ≠ key := by
        intro u
        split
        · subst u
          simp [List.mem_filter]
        · rename_i huq
          refine ⟨fun hm => ⟨hm, ?_⟩, And.left⟩
          rintro rfl
          rw [h.inverse, hprev] at hm
          exact huq (Option.some.inj hm).symm
      rw [dependerKeys_setDependerKeys]
      by_cases hu : u = t
      · subst hu
        rw [if_pos rfl, mem_addKey]
        simp only [dependerKeys_setDependerKeys, dependerKeys_withResolved,
          setDependerKeys_resolved, lookup_filter_append, hleave]
        by_cases hkk : k = key
        · simp [hkk]
        · simp [hkk, h.inverse]
      · rw [if_neg hu]
        simp only [dependerKeys_setDependerKeys, dependerKeys_withResolved,
          setDependerKeys_resolved, lookup_filter_append, hleave]
        by_cases hkk : k = key
        · simp [hkk, Ne.symm hu]
        · simp [hkk, h.inverse]
  · -- the table gains the key's new module, which is live, and the modules stay as they were
    revert k
    cases e.registry.resolved.lookup key <;>
    · intro k hk
      simp only [setDependerKeys_resolved, lookup_filter_append, live?_setDependerKeys,
        live?_withResolved] at hk ⊢
      split at hk
      · cases hk
        exact ht
      · exact h.live k u hk

/-- A change of a file keeps the index: a changed module is replaced by a fresh one that takes
over the resolutions pointing at it, and an added or deleted file forgets every resolution. -/
theorem indexed_registryChange (h : e.registry.Indexed) (fc : FileChange) :
    (run (registryChange fc) c e).2.registry.Indexed := by
  simp only [registryChange, run_bind, run_modify, run_get, modifyRegistry]
  -- the packages the change drops play no part in the index
  refine Indexed.congr (r := if fc.kind = ChangeKind.change then _ else _) ?_ rfl rfl rfl
  split
  · rename_i hkind
    split
    · exact h
    · rename_i old hold
      rw [if_neg (by rw [hkind]; decide)]
      have hold_lt : old < e.registry.store.size := by
        obtain ⟨-, rec, hrec, -⟩ := atPath?_eq_some.1 hold
        exact record?_lt hrec
      -- with the keys moved to the fresh module or with none to move, the same table and modules
      refine h.of_replaced old e.registry.store.size le_rfl ?_ (fun k => ?_)
        (fun k t => ?_) (fun t ht hl => ?_) ?_
      · -- keys are dropped and kept, never added
        simp only [apply_ite Registry.resolved, setDependerKeys_resolved, ite_self, setPath_resolved,
          insert_resolved, map_fst_map_contains, (unlinkOutgoing_views _ _).1]
        exact nodup_keys_filter _ h.keys
      · -- a key `old` made is gone; one that resolved to `old` resolves to the fresh module
        simp only [apply_ite Registry.resolved, setDependerKeys_resolved, ite_self, setPath_resolved,
          insert_resolved, lookup_map_contains, insert_fst, unlinkOutgoing_store, Array.size_modify]
        simp only [List.contains_iff_mem, mem_dependerKeys_unlinkOutgoing h, lookup_unlinkOutgoing]
        by_cases ho : k.origin = old <;> by_cases hk : e.registry.resolved.lookup k = some old <;>
          simp [ho, hk]
      · -- no key resolves to the fresh module but those moved to it
        have hfresh : e.registry.resolved.lookup k ≠ some e.registry.store.size := fun hk =>
          absurd (h.lt_size hk) (Nat.lt_irrefl _)
        have hne : e.registry.store.size ≠ old := Nat.ne_of_gt hold_lt
        split
        · rename_i hempty
          simp only [List.isEmpty_iff, List.eq_nil_iff_forall_not_mem,
            mem_dependerKeys_unlinkOutgoing h] at hempty
          simp only [dependerKeys_withResolved, dependerKeys_setPath, dependerKeys_insert,
            mem_dependerKeys_drop, mem_dependerKeys_unlinkOutgoing h]
          by_cases ht : t = e.registry.store.size
          · subst ht
            simp only [hfresh, if_true, false_and, and_false, false_iff, not_and]
            exact fun ho hk => hempty k ⟨hk, ho⟩
          · simp only [ht, if_false]
            tauto
        · rw [dependerKeys_setDependerKeys]
          split
          · rename_i ht
            simp only [insert_fst, unlinkOutgoing_store, Array.size_modify] at ht
            subst ht
            simp only [mem_dependerKeys_unlinkOutgoing h, if_true]
            tauto
          · rename_i ht
            simp only [insert_fst, unlinkOutgoing_store, Array.size_modify] at ht
            simp only [dependerKeys_withResolved, dependerKeys_setPath, dependerKeys_insert,
              mem_dependerKeys_drop, mem_dependerKeys_unlinkOutgoing h, ht, if_false]
            tauto
      · -- every other module keeps its state
        simp only [apply_ite (fun r : Registry => r.live? t), live?_setDependerKeys, ite_self,
          live?_withResolved, live?_setPath, live?_insert, live?_withDependers, live?_unlinkOutgoing,
          live?_kill]
        simp only [unlinkOutgoing_store, Array.size_modify]
        split
        · rfl
        · simpa [ht] using hl
      · -- the fresh module is live
        simp only [apply_ite (fun r : Registry => r.live? e.registry.store.size),
          live?_setDependerKeys, ite_self, live?_withResolved, live?_setPath, live?_insert]
        simp [unlinkOutgoing_store, Array.size_modify]
  · -- an added or deleted file forgets every resolution
    exact indexed_cleared _

/-! ## Creating modules, forgetting resolutions, starting over -/

theorem grows_getOrInsert (p : Path) (kind : Path → ModuleKind) :
    e.registry.Grows (run (getOrInsert p kind) c e).2.registry := by
  simp only [getOrInsert, run_bind, run_get]
  split
  · exact Grows.refl _
  · simp only [modifyRegistry, run_bind, run_modify, run_pure]
    exact grows_insert _ (fun s => s.setPath _ _) fun s => ⟨rfl, rfl, rfl⟩

theorem grows_getNullModule (name : String) :
    e.registry.Grows (run (getNullModule name) c e).2.registry := by
  simp only [getNullModule, run_bind, run_get]
  split
  · exact Grows.refl _
  · simp only [modifyRegistry, run_bind, run_modify, run_pure]
    exact grows_insert _ (fun s => { s with nulls := _ }) fun s => ⟨rfl, rfl, rfl⟩

theorem grows_createPolyfill (p : Path) (id : String) (deps : List String) (code : String) :
    e.registry.Grows (run (createPolyfill p id deps code) c e).2.registry := by
  have hfresh : ∀ (q : Path) (kind : ModuleKind),
      e.registry.Grows (run (createPolyfill.insertFresh q kind) c e).2.registry := fun q kind => by
    simp only [createPolyfill.insertFresh, modifyRegistry, run_bind, run_get, run_modify, run_pure]
    exact grows_insert _ (fun s => s.setPath _ _) fun s => ⟨rfl, rfl, rfl⟩
  simp only [createPolyfill, run_bind, run_get]
  split
  · split
    · exact Grows.refl _
    · exact hfresh _ _
  · exact hfresh _ _

end Engine

/-! ## Every reachable registry is indexed -/

/-- An operation of the registry. -/
inductive RegistryOp where
  | module (path : Path)
  | asset (path : Path)
  | null (name : String)
  | polyfill (path : Path) (id : String) (dependencies : List String) (code : String)
  | resolve (key : ResolutionKey) (target : Nat)
  | clear
  | change (fc : FileChange)
  | refresh

namespace RegistryOp

/-- Run an operation, dropping its answer. -/
def run : RegistryOp → EngineM Unit
  | .module p => do
    let _ ← getModule p
    pure ()
  | .asset p => do
    let _ ← getAssetModule p
    pure ()
  | .null name => do
    let _ ← getNullModule name
    pure ()
  | .polyfill p id deps code => do
    let _ ← createPolyfill p id deps code
    pure ()
  | .resolve key target => setResolved key target
  | .clear => clearResolutions
  | .change fc => registryChange fc
  | .refresh => refreshRegistry

/-- What callers guarantee: a resolution is memoised only to a live module. -/
def Allowed : RegistryOp → Registry → Prop
  | .resolve _ target, r => (r.live? target).isSome
  | _, _ => True

variable {c : Context} {e : Engine}

/-- An operation whose answer is dropped changes the state as the operation does. -/
theorem run_drop {α : Type} (x : EngineM α) :
    (EngineM.run (do let _ ← x; pure ()) c e).2 = (EngineM.run x c e).2 := by
  rw [run_bind]
  rcases EngineM.run x c e with ⟨_ | _, e'⟩ <;> rfl

open Registry in
/-- Every operation, run as its callers run it, keeps the index. -/
theorem indexed_run (op : RegistryOp) (h : e.registry.Indexed) (hop : op.Allowed e.registry) :
    (EngineM.run op.run c e).2.registry.Indexed := by
  cases op with
  | module p =>
    rw [RegistryOp.run, run_drop]
    exact h.grows (Engine.grows_getOrInsert _ _)
  | asset p =>
    rw [RegistryOp.run, run_drop, getAssetModule, run_bind, run_read]
    exact h.grows (Engine.grows_getOrInsert _ _)
  | null name =>
    rw [RegistryOp.run, run_drop]
    exact h.grows (Engine.grows_getNullModule _)
  | polyfill p id deps code =>
    rw [RegistryOp.run, run_drop]
    exact h.grows (Engine.grows_createPolyfill _ _ _ _)
  | resolve key target => exact Engine.indexed_setResolved h hop
  | clear => exact indexed_cleared _
  | change fc => exact Engine.indexed_registryChange h fc
  | refresh => exact indexed_empty

end RegistryOp

/-- The states the registry reaches from an empty registry by its operations, run as their callers
run them. -/
inductive RegistryReachable (c : Context) : Engine → Prop
  | start (e : Engine) : e.registry = Registry.empty → RegistryReachable c e
  | step {e : Engine} (op : RegistryOp) : RegistryReachable c e → op.Allowed e.registry →
      RegistryReachable c (EngineM.run op.run c e).2

theorem RegistryReachable.indexed {c : Context} {e : Engine} (h : RegistryReachable c e) :
    e.registry.Indexed := by
  induction h with
  | start e he => exact he ▸ Registry.indexed_empty
  | step op _ hop ih => exact op.indexed_run ih hop

/-- In every state the registry's operations reach, the memoised resolutions hold one module per
key, a key is listed under a module exactly when it is memoised as resolving to that module, and
every memoised resolution names a live module. -/
theorem dependers_inverse_of_reachable {c : Context} {e : Engine} (h : RegistryReachable c e) :
    (e.registry.resolved.map Prod.fst).Nodup ∧
      (∀ k t, k ∈ e.registry.dependerKeys t ↔ e.registry.resolved.lookup k = some t) ∧
      ∀ kt ∈ e.registry.resolved, (e.registry.live? kt.2).isSome := by
  have hI := h.indexed
  refine ⟨hI.keys, hI.inverse, fun kt hkt => hI.live kt.1 kt.2 ?_⟩
  exact (lookup_eq_some_iff_mem hI.keys).2 hkt

/-- A run that creates two modules, memoises a resolution from the second to the first and then
changes the first one's file, after which the resolution names the module that replaced it. -/
theorem dependers_inverse_after_change :
    let c : Context := ⟨PackagerOptions.default, GlobalConfig.default, [], none, ⟨[], []⟩, .identity⟩
    let a : Path := ⟨[.root, .name "a.js"]⟩
    let b : Path := ⟨[.root, .name "b.js"]⟩
    let e₀ : Engine := ⟨⟨[], 0, Path.empty⟩, ContentCache.inMemory,
      ⟨[], [], [], IgnoreRules.none, []⟩, Registry.empty, HasteMap.empty, false, [], 0, [], 0⟩
    let e₁ := (EngineM.run (RegistryOp.module a).run c e₀).2
    let e₂ := (EngineM.run (RegistryOp.module b).run c e₁).2
    let e₃ := (EngineM.run (RegistryOp.resolve ⟨1, none, "./a"⟩ 0).run c e₂).2
    let e₄ := (EngineM.run (RegistryOp.change ⟨.change, a⟩).run c e₃).2
    RegistryReachable c e₄ ∧ e₄.registry.resolved.lookup ⟨1, none, "./a"⟩ = some 2 ∧
      ((e₄.registry.resolved.map Prod.fst).Nodup ∧
        (∀ k t, k ∈ e₄.registry.dependerKeys t ↔ e₄.registry.resolved.lookup k = some t) ∧
        ∀ kt ∈ e₄.registry.resolved, (e₄.registry.live? kt.2).isSome) := by
  intro c a b e₀ e₁ e₂ e₃ e₄
  have h : RegistryReachable c e₄ :=
    .step _ (.step _ (.step _ (.step _ (.start _ rfl) trivial) trivial)
      (by simp only [RegistryOp.Allowed]; decide)) trivial
  exact ⟨h, by decide, dependers_inverse_of_reachable h⟩

end ModuleBundler
