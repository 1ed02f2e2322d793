import ModuleBundler.Proofs.Engine.Change

/-!
# The content memo is a memo

A memo keeps values by path and field. Read through `memoised`, a memo answers with the value
last stored for the path and field since the path was last invalidated or the memo last cleared,
when that value reads back as the requested type; otherwise it runs the computation, stores the
value on success and nothing on failure (`memo_serves_latest_value`). What was stored since is
read off a log of the calls (`latest`), and `Reaches` gives the memos that calls reach from an
empty one while no file changes.

The argument is an invariant: every entry remembers the modification time its file has, and
holds a value (`Fresh`). A store at the file's own time then adds its value and keeps every
other (`Fresh.lookup_store`), while a store at another time first drops the path's other values
(`Fresh.lookup_store_of_ne`). Invalidating a path drops exactly its values
(`lookup_invalidate`) and reports whether it had any (`Fresh.invalidate_fst_iff`).
-/

namespace ModuleBundler

namespace ContentCache

/-! ## Entries through each call -/

/-- The entry the memo keeps for a path. -/
def entryAt (c : ContentCache) (p : Path) : Option CacheEntry :=
  (c.entries.find? (·.1 = p)).map (·.2)

theorem lookup_eq_entryAt (c : ContentCache) (p : Path) (f : String) :
    c.lookup p f = (c.entryAt p).bind (·.fields.lookup f) := by
  unfold lookup entryAt
  cases c.entries.find? (·.1 = p) <;> rfl

/-- A path has an entry exactly when the memo lists it. -/
theorem any_eq_entryAt_isSome (c : ContentCache) (p : Path) :
    c.entries.any (·.1 = p) = (c.entryAt p).isSome := by
  unfold entryAt
  cases hf : c.entries.find? (·.1 = p) with
  | none =>
    rw [List.find?_eq_none] at hf
    simpa using hf
  | some pe =>
    simp only [Option.map_some, Option.isSome_some, List.any_eq_true]
    exact ⟨pe, List.mem_of_find?_eq_some hf, by simpa using List.find?_some hf⟩

/-- Rewriting the entries of one path, every path kept, changes what is found for it only. -/
theorem find?_map_rewrite {h : Path × CacheEntry → Path × CacheEntry} {p : Path}
    {E : CacheEntry} (hh : ∀ a b, h (a, b) = if a = p then (a, E) else (a, b))
    (l : List (Path × CacheEntry)) (q : Path) :
    ((l.map h).find? (·.1 = q)).map (·.2) =
      if q = p then (l.find? (·.1 = p)).map fun _ => E else (l.find? (·.1 = q)).map (·.2) := by
  induction l with
  | nil => simp
  | cons ab l ih =>
    obtain ⟨a, b⟩ := ab
    rw [List.map_cons, hh]
    by_cases ha : a = p <;> by_cases hq : q = p <;> by_cases haq : a = q <;> simp_all

/-- The entry a store leaves for its path: the path's entry, emptied when it remembers another
modification time, with the value set. -/
def storedEntry (c : ContentCache) (p : Path) (f : String) (v : Json) (m : Option Nat) :
    CacheEntry :=
  let base := (c.entryAt p).getD ⟨none, []⟩
  let base := if base.mtime = m then base else ⟨m, []⟩
  { base with fields := setField base.fields f v }

theorem entryAt_store (c : ContentCache) (p : Path) (f : String) (v : Json) (m : Option Nat)
    (q : Path) :
    (c.store p f v m).entryAt q = if q = p then some (c.storedEntry p f v m) else c.entryAt q := by
  unfold store
  dsimp only
  split
  · next hany =>
    rw [entryAt, find?_map_rewrite (fun _ _ => rfl)]
    rw [any_eq_entryAt_isSome, Option.isSome_iff_exists] at hany
    obtain ⟨e, he⟩ := hany
    unfold entryAt at he
    split
    · next hq =>
      obtain ⟨pe, hpe, -⟩ := Option.map_eq_some_iff.1 he
      simp [storedEntry, entryAt, hpe]
    · rfl
  · next hnone =>
    rw [any_eq_entryAt_isSome, Option.not_isSome_iff_eq_none] at hnone
    unfold entryAt at hnone ⊢
    simp only [List.find?_append, List.find?_cons, List.find?_nil]
    by_cases hq : q = p
    · subst hq
      simp only [Option.map_eq_none_iff] at hnone
      simp [hnone, storedEntry, entryAt]
    · have hpq : ¬ p = q := fun h => hq h.symm
      simp [hq, hpq]

theorem entryAt_invalidate (c : ContentCache) (p q : Path) :
    (c.invalidate p).2.entryAt q = if q = p then none else c.entryAt q := by
  by_cases hq : q = p
  · subst hq
    simp [invalidate, entryAt, List.find?_filter]
  · rw [if_neg hq, entryAt, entryAt, find?_invalidate c hq]

@[simp] theorem entryAt_clear (c : ContentCache) (q : Path) : c.clear.entryAt q = none := rfl

@[simp] theorem entryAt_inMemory (q : Path) : inMemory.entryAt q = none := rfl

/-! ## Values through each call -/

/-- A field is listed exactly when it has a value. -/
theorem any_eq_lookup_isSome (fs : List (String × Json)) (f : String) :
    fs.any (·.1 = f) = (fs.lookup f).isSome := by
  induction fs with
  | nil => rfl
  | cons kx fs ih =>
    obtain ⟨k, x⟩ := kx
    by_cases hk : k = f
    · subst hk
      simp
    · have hfk : (f == k) = false := by simpa using Ne.symm hk
      simp [List.lookup, hfk, hk, ih]

/-- Rewriting the values of one field changes that field's value only. -/
theorem lookup_map_rewrite {h : String × Json → String × Json} {f : String} {v : Json}
    (hh : ∀ k x, h (k, x) = if k = f then (k, v) else (k, x)) (fs : List (String × Json))
    (g : String) :
    (fs.map h).lookup g = if g = f then (fs.lookup f).map fun _ => v else fs.lookup g := by
  induction fs with
  | nil => simp
  | cons kx fs ih =>
    obtain ⟨k, x⟩ := kx
    rw [List.map_cons, hh]
    by_cases hgk : g = k
    · subst hgk
      by_cases hg : g = f
      · subst hg
        simp
      · simp [hg]
    · have hb : (g == k) = false := by simpa using hgk
      by_cases hk : k = f
      · subst hk
        simp [List.lookup, hb, hgk, ih]
      · by_cases hg : g = f
        · subst hg
          simp [List.lookup, hb, hk, ih]
        · simp [List.lookup, hb, hk, hg, ih]

/-- Setting a field's value sets that field only. -/
theorem lookup_setField (fs : List (String × Json)) (f : String) (v : Json) (g : String) :
    (setField fs f v).lookup g = if g = f then some v else fs.lookup g := by
  unfold setField
  split
  · next hany =>
    rw [lookup_map_rewrite (fun _ _ => rfl)]
    rw [any_eq_lookup_isSome, Option.isSome_iff_exists] at hany
    obtain ⟨x, hx⟩ := hany
    simp [hx]
  · next hnone =>
    rw [List.lookup_append]
    rw [any_eq_lookup_isSome, Option.not_isSome_iff_eq_none] at hnone
    by_cases hg : g = f
    · subst hg
      simp [hnone]
    · have hgf : (g == f) = false := by simpa using hg
      simp [hg, List.lookup, hgf]

/-- A store sets the value on the entry it leaves for its path, and keeps every other path. -/
theorem lookup_store (c : ContentCache) (p : Path) (f : String) (v : Json) (m : Option Nat)
    (q : Path) (g : String) :
    (c.store p f v m).lookup q g =
      if q = p then (c.storedEntry p f v m).fields.lookup g else c.lookup q g := by
  rw [lookup_eq_entryAt, entryAt_store, lookup_eq_entryAt]
  split <;> rfl

@[simp] theorem storedEntry_mtime (c : ContentCache) (p : Path) (f : String) (v : Json)
    (m : Option Nat) : (c.storedEntry p f v m).mtime = m := by
  unfold storedEntry
  dsimp only
  split
  · assumption
  · rfl

/-- A store at the time its path's entry remembers sets the value on that entry. -/
theorem storedEntry_of_mtime {c : ContentCache} {p : Path} {en : CacheEntry} {m : Option Nat}
    (hen : c.entryAt p = some en) (hm : en.mtime = m) (f : String) (v : Json) :
    c.storedEntry p f v m = { en with fields := setField en.fields f v } := by
  simp [storedEntry, hen, hm]

theorem lookup_storedEntry_self (c : ContentCache) (p : Path) (f : String) (v : Json)
    (m : Option Nat) : (c.storedEntry p f v m).fields.lookup f = some v := by
  unfold storedEntry
  simp [lookup_setField]

theorem storedEntry_fields_ne (c : ContentCache) (p : Path) (f : String) (v : Json)
    (m : Option Nat) : (c.storedEntry p f v m).fields ≠ [] := by
  intro h
  have hf := lookup_storedEntry_self c p f v m
  simp [h] at hf

/-! ## Memos whose entries are fresh -/

/-- Every entry remembers the modification time its file has, and holds a value. -/
structure Fresh (mtime : Path → Option Nat) (c : ContentCache) : Prop where
  mtime_eq : ∀ p e, c.entryAt p = some e → e.mtime = mtime p
  fields_ne : ∀ p e, c.entryAt p = some e → e.fields ≠ []

section Fresh

variable {mtime : Path → Option Nat} {c : ContentCache}

theorem fresh_inMemory : Fresh mtime inMemory :=
  ⟨fun _ _ h => by simp at h, fun _ _ h => by simp at h⟩

theorem Fresh.store (h : Fresh mtime c) (p : Path) (f : String) (v : Json) :
    Fresh mtime (c.store p f v (mtime p)) := by
  constructor
  all_goals
    intro q e he
    rw [entryAt_store] at he
    split at he
  · next hq =>
    cases he
    rw [storedEntry_mtime, hq]
  · exact h.mtime_eq q e he
  · cases he
    exact storedEntry_fields_ne c p f v _
  · exact h.fields_ne q e he

theorem Fresh.invalidate (h : Fresh mtime c) (p : Path) : Fresh mtime (c.invalidate p).2 := by
  constructor
  all_goals
    intro q e he
    rw [entryAt_invalidate] at he
    split at he
  · cases he
  · exact h.mtime_eq q e he
  · cases he
  · exact h.fields_ne q e he

theorem Fresh.clear : Fresh mtime c.clear :=
  ⟨fun _ _ h => by simp at h, fun _ _ h => by simp at h⟩

/-- A store at the file's own time adds its value and keeps every other. -/
theorem Fresh.lookup_store (h : Fresh mtime c) (p : Path) (f : String) (v : Json) (q : Path)
    (g : String) :
    (c.store p f v (mtime p)).lookup q g = if q = p ∧ g = f then some v else c.lookup q g := by
  rw [ContentCache.lookup_store]
  by_cases hq : q = p
  · subst hq
    -- the entry left is the path's own, since it remembers the same time
    have hbase : (c.storedEntry q f v (mtime q)).fields.lookup g =
        if g = f then some v else c.lookup q g := by
      rw [lookup_eq_entryAt]
      cases he : c.entryAt q with
      | none =>
        unfold storedEntry
        by_cases hm : (none : Option Nat) = mtime q <;> simp [he, hm, lookup_setField]
      | some e =>
        rw [storedEntry_of_mtime he (h.mtime_eq q e he)]
        simp [lookup_setField]
    simp [hbase]
  · simp [hq]

/-- A store at a time the path does not remember first drops the path's other values. -/
theorem Fresh.lookup_store_of_ne (h : Fresh mtime c) {p : Path} {m : Option Nat}
    (hm : m ≠ mtime p) (f : String) (v : Json) (g : String) :
    (c.store p f v m).lookup p g = if g = f then some v else none := by
  rw [ContentCache.lookup_store, if_pos rfl]
  unfold storedEntry
  cases he : c.entryAt p with
  | none => by_cases hn : (none : Option Nat) = m <;> simp [hn, lookup_setField]
  | some e =>
    have hne : e.mtime ≠ m := by rw [h.mtime_eq p e he]; exact Ne.symm hm
    simp [hne, lookup_setField]

/-- Invalidating a path reports whether it had a value. -/
theorem Fresh.invalidate_fst_iff (h : Fresh mtime c) (p : Path) :
    (c.invalidate p).1 = true ↔ ∃ f, (c.lookup p f).isSome := by
  rw [ContentCache.invalidate, any_eq_entryAt_isSome]
  constructor
  · intro hsome
    obtain ⟨e, he⟩ := Option.isSome_iff_exists.1 hsome
    -- an entry holds a value, its first field's
    obtain ⟨⟨f, j⟩, fs, hfs⟩ := List.exists_cons_of_ne_nil (h.fields_ne p e he)
    exact ⟨f, by simp [lookup_eq_entryAt, he, hfs]⟩
  · rintro ⟨f, hf⟩
    rw [lookup_eq_entryAt] at hf
    cases he : c.entryAt p with
    | none => simp [he] at hf
    | some e => rfl

end Fresh

/-! ## Runs of calls -/

/-- A call that changes a memo: a value stored, a path invalidated, the memo cleared. -/
inductive MemoEvent where
  | stored (path : Path) (field : String) (value : Json)
  | invalidated (path : Path)
  | cleared

/-- The value last stored for a path and field since the path was last invalidated or the memo
last cleared, read off a log of calls listed latest first. -/
def latest : List MemoEvent → Path → String → Option Json
  | [], _, _ => none
  | .stored p f v :: log, q, g => if q = p ∧ g = f then some v else latest log q g
  | .invalidated p :: log, q, g => if q = p then none else latest log q g
  | .cleared :: _, _, _ => none

/-- The memos that calls reach from an empty one, with their logs, while each file keeps the
modification time `mtime` gives it. A read stores the value it computed at its file's time,
or changes nothing (`Reaches.memoised`); invalidations and clears are the memo's own. -/
inductive Reaches (mtime : Path → Option Nat) : ContentCache → List MemoEvent → Prop
  | start : Reaches mtime inMemory []
  | store {c : ContentCache} {log : List MemoEvent} (p : Path) (f : String) (v : Json) :
      Reaches mtime c log → Reaches mtime (c.store p f v (mtime p)) (.stored p f v :: log)
  | invalidate {c : ContentCache} {log : List MemoEvent} (p : Path) :
      Reaches mtime c log → Reaches mtime (c.invalidate p).2 (.invalidated p :: log)
  | clear {c : ContentCache} {log : List MemoEvent} :
      Reaches mtime c log → Reaches mtime c.clear (.cleared :: log)

section Reaches

variable {mtime : Path → Option Nat} {c : ContentCache} {log : List MemoEvent}

theorem Reaches.fresh (h : Reaches mtime c log) : Fresh mtime c := by
  induction h with
  | start => exact fresh_inMemory
  | store p f v _ ih => exact ih.store p f v
  | invalidate p _ ih => exact ih.invalidate p
  | clear _ _ => exact Fresh.clear

/-- A memo the calls reach holds, for each path and field, the value last stored since. -/
theorem Reaches.lookup_eq_latest (h : Reaches mtime c log) (q : Path) (g : String) :
    c.lookup q g = latest log q g := by
  induction h with
  | start => rfl
  | store p f v hrun ih => rw [hrun.fresh.lookup_store, latest, ih]
  | invalidate p _ ih => rw [lookup_invalidate, latest, ih]
  | clear _ _ => rfl

end Reaches

end ContentCache

/-! ## Reads through the memo -/

open EngineM ContentCache

section Memoised

variable {mtime : Path → Option Nat} {c : ContentCache} {log : List MemoEvent} {α : Type}
  (p : Path) (f : String) (decode : Json → Except String α) (encode : α → Option Json)
  (compute : EngineM α) (ctx : Context)

/-- A read of a memo the calls reach answers, without running its computation, with the value
last stored when it reads back. -/
theorem ContentCache.Reaches.memoised_of_stored (h : Reaches mtime c log) {e : Engine}
    (he : e.cache = c) {v : α} (hv : (latest log p f).map decode = some (.ok v)) :
    run (memoised p f decode encode compute) ctx e = (.ok v, e) := by
  rw [Engine.run_memoised, he, h.lookup_eq_latest, hv]

/-- Otherwise the read runs the computation, and stores the computed value at its file's time
when the value serialises. -/
theorem ContentCache.Reaches.memoised_of_computed (h : Reaches mtime c log) {e : Engine}
    (he : e.cache = c) (hv : ∀ v, (latest log p f).map decode ≠ some (.ok v)) {v : α}
    {e' : Engine} (hc : run compute ctx e = (.ok v, e')) :
    run (memoised p f decode encode compute) ctx e =
      (.ok v, { e' with cache := e'.cache.storeEncoded p f (encode v) (e'.disk.mtime? p) }) := by
  rw [Engine.run_memoised, he, h.lookup_eq_latest]
  split
  · next v' hv' => exact absurd hv' (hv v')
  · rw [hc]

/-- A computation that fails fails the read, which stores nothing. -/
theorem ContentCache.Reaches.memoised_of_failed (h : Reaches mtime c log) {e : Engine}
    (he : e.cache = c) (hv : ∀ v, (latest log p f).map decode ≠ some (.ok v)) {err : Error}
    {e' : Engine} (hc : run compute ctx e = (.error err, e')) :
    run (memoised p f decode encode compute) ctx e = (.error err, e') := by
  rw [Engine.run_memoised, he, h.lookup_eq_latest]
  split
  · next v' hv' => exact absurd hv' (hv v')
  · rw [hc]

/-- A read whose computation leaves the memo and the files alone leaves a memo the calls reach:
the one it read, or that one with the computed value stored at its file's time. -/
theorem ContentCache.Reaches.memoised {e : Engine} (h : Reaches e.disk.mtime? e.cache log)
    (hcache : (run compute ctx e).2.cache = e.cache) (hdisk : (run compute ctx e).2.disk = e.disk) :
    ∃ log',
      Reaches e.disk.mtime? (run (memoised p f decode encode compute) ctx e).2.cache log' := by
  rw [Engine.run_memoised]
  split
  · exact ⟨log, h⟩
  · rcases hc : run compute ctx e with ⟨_ | v, e'⟩
    · rw [hc] at hcache
      exact ⟨log, hcache ▸ h⟩
    · rw [hc] at hcache hdisk
      dsimp only
      rw [hcache, hdisk]
      -- a value that does not serialise leaves the memo as the read found it
      cases hj : encode v with
      | none => exact ⟨log, h⟩
      | some j => exact ⟨.stored p f j :: log, h.store p f j⟩

end Memoised

/-- Reads, invalidations and clears keep a memo a memo while the files keep their times `mtime`.
From any memo they reach, a read answers with the value last stored for its path and field since
the path was last invalidated or the memo cleared, when that value reads back, and without
running its computation; otherwise it runs the computation, then on success stores the computed
value when it serialises and returns it stored or not, and on failure stores nothing, leaving a
memo such calls reach again when the computation leaves the memo and the files alone.
Invalidating a path drops exactly its values and reports whether it had any, and a store at a
time the path does not remember first drops the path's other values. -/
theorem memo_serves_latest_value {mtime : Path → Option Nat} {c : ContentCache}
    {log : List MemoEvent} (h : Reaches mtime c log) :
    (∀ {α : Type} (p : Path) (f : String) (decode : Json → Except String α)
        (encode : α → Option Json) (compute : EngineM α) (ctx : Context) (e : Engine), e.cache = c →
      (∀ v, (latest log p f).map decode = some (.ok v) →
        run (memoised p f decode encode compute) ctx e = (.ok v, e)) ∧
      ((∀ v, (latest log p f).map decode ≠ some (.ok v)) →
        (∀ v e' j, run compute ctx e = (.ok v, e') → encode v = some j →
          run (memoised p f decode encode compute) ctx e =
            (.ok v, { e' with cache := e'.cache.store p f j (e'.disk.mtime? p) })) ∧
        (∀ v e', run compute ctx e = (.ok v, e') → encode v = none →
          run (memoised p f decode encode compute) ctx e = (.ok v, e')) ∧
        ∀ err e', run compute ctx e = (.error err, e') →
          run (memoised p f decode encode compute) ctx e = (.error err, e'))) ∧
    (∀ {α : Type} (p : Path) (f : String) (decode : Json → Except String α)
        (encode : α → Option Json) (compute : EngineM α) (ctx : Context) (e : Engine), e.cache = c →
      e.disk.mtime? = mtime → (run compute ctx e).2.cache = c →
      (run compute ctx e).2.disk = e.disk →
      ∃ log', Reaches mtime (run (memoised p f decode encode compute) ctx e).2.cache log') ∧
    (∀ p, (c.invalidate p).1 = true ↔ ∃ f, (latest log p f).isSome) ∧
    (∀ p q g, (c.invalidate p).2.lookup q g = if q = p then none else latest log q g) ∧
    (∀ p m, m ≠ mtime p →
      ∀ f v g, (c.store p f v m).lookup p g = if g = f then some v else none) := by
  refine ⟨?_, ?_, ?_, ?_, fun p m hm f v g => h.fresh.lookup_store_of_ne hm f v g⟩
  · intro α p f decode encode compute ctx e he
    refine ⟨fun v hv => h.memoised_of_stored p f decode encode compute ctx he hv, fun hv => ⟨?_, ?_,
      fun err e' hc => h.memoised_of_failed p f decode encode compute ctx he hv hc⟩⟩
    · intro v e' j hc hj
      rw [h.memoised_of_computed p f decode encode compute ctx he hv hc, hj,
        ContentCache.storeEncoded_some]
    · intro v e' hc hj
      rw [h.memoised_of_computed p f decode encode compute ctx he hv hc, hj,
        ContentCache.storeEncoded_none]
  · intro α p f decode encode compute ctx e he hmtime hcache hdisk
    subst he hmtime
    exact h.memoised p f decode encode compute ctx hcache hdisk
  · intro p
    simp only [h.fresh.invalidate_fst_iff, h.lookup_eq_latest]
  · intro p q g
    rw [lookup_invalidate, h.lookup_eq_latest]

/-- After a value is stored for `/virtual/a.js`, invalidating that path reports it and drops the
value. -/
theorem memo_invalidate_after_store :
    ((inMemory.store (Path.ofString "/virtual/a.js") "dependencies" (.str "a") none).invalidate
        (Path.ofString "/virtual/a.js")).1 = true ∧
      ((inMemory.store (Path.ofString "/virtual/a.js") "dependencies" (.str "a") none).invalidate
        (Path.ofString "/virtual/a.js")).2.lookup (Path.ofString "/virtual/a.js") "dependencies" =
        none := by
  have hrun : Reaches (fun _ => none) _ _ :=
    Reaches.store (Path.ofString "/virtual/a.js") "dependencies" (.str "a") .start
  have h := memo_serves_latest_value hrun
  refine ⟨(h.2.2.1 _).2 ⟨"dependencies", by simp [latest]⟩, ?_⟩
  rw [h.2.2.2.1]
  simp

end ModuleBundler
