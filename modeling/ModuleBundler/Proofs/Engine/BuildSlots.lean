import ModuleBundler.Proofs.Engine.KeptBundles

/-!
# Builds in flight

A build runs in two sections with the bundler between them (`buildBundle_eq`): the first serves a
built slot, or takes a fresh handle and marks the slot as that build's; the second takes the
bundler's result and installs it only if the slot is still that build's. Between the two, other
builds and change events may run in any order.

`Server` runs such interleavings: starts, finishes and events, each build in flight known by its
handle. What one step can do to the slot of a key is said once (`slotMove_step`), and everything
else is read off it: a build keeps its slot until a step starts another build for the key or
applies an event (`holds_after_iff`), a slot only ever holds the build that was last started for
its key (`building_origin`), and so a bundle is installed only by that build with no event applied
since its start (`installs_only_current`), while every other finish answers its caller and leaves
the slot map alone (`finish_started`).
-/

namespace ModuleBundler

open EngineM

/-! ## The two sections of a build -/

/-- How the first section of a build ended: with a kept bundle, or with a build started under a
fresh handle. -/
inductive BuildStart where
  | kept (bundle : Bundle) (serial : Nat)
  | started (handle : Nat)

/-- The first section of a build: serve a built slot, or take a fresh handle, abort the build the
slot held, and mark the slot as the new build's. -/
def buildBegin (key : String) : EngineM BuildStart := do
  match (← get).bundles.lookup key with
  | some (.built b serial) => return .kept b serial
  | previous =>
    let h ← newHandle
    if let some (.building p) := previous then abortHandle p
    setSlot key (.building h)
    return .started h

/-- The second section of a build, once the bundler answered: a fresh serial for a bundle, and the
slot changed only if it still holds this build. -/
def buildEnd (key : String) (h : Nat) (result : Except Error Bundle) : EngineM (Bundle × Nat) := do
  let ours ← holdsBuild key h
  match result with
  | .ok b =>
    let serial ← freshSerial
    if ours then setSlot key (.built b serial)
    return (b, serial)
  | .error err =>
    if ours then modify fun e => { e with bundles := e.bundles.filter (·.1 != key) }
    fail err

section Sections

variable {c : Context} {e : Engine} {key : String}

@[simp] theorem buildStart_bundles :
    (e.buildStart key).bundles = e.bundles.filter (·.1 != key) ++ [(key, .building e.nextHandle)] := by
  unfold Engine.buildStart
  split
  · dsimp only
    split <;> rfl
  · rfl

@[simp] theorem buildStart_nextHandle : (e.buildStart key).nextHandle = e.nextHandle + 1 := by
  unfold Engine.buildStart
  split
  · dsimp only
    split <;> rfl
  · rfl

theorem run_buildBegin_kept {b : Bundle} {serial : Nat}
    (h : e.bundles.lookup key = some (.built b serial)) :
    run (buildBegin key) c e = (.ok (.kept b serial), e) := by
  simp [buildBegin, h]

theorem run_buildBegin_started (h : ∀ b serial, e.bundles.lookup key ≠ some (.built b serial)) :
    run (buildBegin key) c e = (.ok (.started e.nextHandle), e.buildStart key) := by
  rcases hl : e.bundles.lookup key with _ | (⟨p⟩ | ⟨b, s⟩)
  · simp [buildBegin, hl, Engine.buildStart]
  · simp [buildBegin, hl, Engine.buildStart]
  · exact absurd hl (h b s)

theorem run_holdsBuild_of_lookup {h : Nat} (hh : e.bundles.lookup key = some (.building h)) :
    run (holdsBuild key h) c e = (.ok true, e) := by
  simp [holdsBuild, hh]

theorem run_holdsBuild_of_ne {h : Nat} (hh : e.bundles.lookup key ≠ some (.building h)) :
    run (holdsBuild key h) c e = (.ok false, e) := by
  rcases hl : e.bundles.lookup key with _ | (⟨h'⟩ | ⟨b, s⟩)
  · simp [holdsBuild, hl]
  · have hne : h' ≠ h := fun he => hh (he ▸ hl)
    simp [holdsBuild, hl, hne]
  · simp [holdsBuild, hl]

/-- What the build holding a key's slot leaves there when it finishes: its bundle with the serial
number it was given, or nothing when the bundler failed. -/
def finishedSlots (key : String) (r : Except Error Bundle) (serial : Nat) :
    List (String × BundleSlot) :=
  match r with
  | .ok b => [(key, .built b serial)]
  | .error _ => []

theorem keys_finishedSlots {key : String} {r : Except Error Bundle} {serial : Nat} :
    ∀ p ∈ finishedSlots key r serial, p.1 = key := by
  cases r <;> simp [finishedSlots]

theorem run_buildEnd_holds {h : Nat} (r : Except Error Bundle)
    (hh : e.bundles.lookup key = some (.building h)) :
    (run (buildEnd key h r) c e).1 = r.map (·, e.nextSerial) ∧
      (run (buildEnd key h r) c e).2.bundles =
        e.bundles.filter (·.1 != key) ++ finishedSlots key r e.nextSerial := by
  cases r <;> simp [buildEnd, run_holdsBuild_of_lookup hh, Except.map, finishedSlots]

theorem run_buildEnd_not_holds {h : Nat} (r : Except Error Bundle)
    (hh : e.bundles.lookup key ≠ some (.building h)) :
    (run (buildEnd key h r) c e).1 = r.map (·, e.nextSerial) ∧
      (run (buildEnd key h r) c e).2.bundles = e.bundles := by
  cases r <;> simp [buildEnd, run_holdsBuild_of_ne hh, Except.map]

theorem run_buildEnd_nextHandle (h : Nat) (r : Except Error Bundle) :
    (run (buildEnd key h r) c e).2.nextHandle = e.nextHandle := by
  by_cases hh : e.bundles.lookup key = some (.building h)
  · cases r <;> simp [buildEnd, run_holdsBuild_of_lookup hh]
  · cases r <;> simp [buildEnd, run_holdsBuild_of_ne hh]

theorem run_packagerChange_nextHandle (ev : WatchEvent) :
    (run (packagerChange ev) c e).2.nextHandle = e.nextHandle := by
  have hframe := congrArg (fun o => o.2.2.1) ((keepsOuter_graphChange ev) c e)
  unfold packagerChange
  simp only [run_bind]
  rcases hg : run (graphChange ev) c e with ⟨_ | (_ | gc), e'⟩ <;> rw [hg] at hframe <;>
    dsimp only [Engine.outer] at hframe
  · exact hframe
  · exact hframe
  · simp [dropBundles, hframe]


/-- A build is its first section, the bundler, and its second section. -/
theorem buildBundle_eq (opts : BundleOptions) :
    buildBundle opts = (do
      match ← buildBegin opts.cacheKey with
      | .kept b serial => return (b, serial)
      | .started h => buildEnd opts.cacheKey h (← attempt (bundleBuild opts (some h)))) := by
  have key : ∀ c e, run (buildBundle opts) c e = run (do
      match ← buildBegin opts.cacheKey with
      | .kept b serial => return (b, serial)
      | .started h => buildEnd opts.cacheKey h (← attempt (bundleBuild opts (some h)))) c e := by
    intro c e
    rcases hl : e.bundles.lookup opts.cacheKey with _ | (⟨p⟩ | ⟨b, s⟩)
    rotate_right
    · simp only [run_buildBundle_kept hl, run_bind, run_buildBegin_kept hl, run_pure]
    all_goals
      have hnew : ∀ b s, e.bundles.lookup opts.cacheKey ≠ some (.built b s) := by simp [hl]
      rw [run_bind, run_buildBegin_started hnew]
      simp only [buildBundle, hl, run_bind, run_get, run_newHandle, run_abortHandle, run_setSlot,
        run_attempt, Engine.buildStart]
      -- the two sides agree once the bundler's answer is known
      generalize (bundleBuild opts (some e.nextHandle)).run c _ = res
      obtain ⟨r | b, e'⟩ := res <;> simp only [buildEnd, run_bind]
  funext c e
  exact key c e

end Sections

/-! ## Slots -/

section Slots

variable {β : Type}

/-- Replacing the entries of one key leaves what another key finds. -/
theorem lookup_replace_ne {k k' : String} (hk : k ≠ k') (l extra : List (String × β))
    (hextra : ∀ p ∈ extra, p.1 = k') : (l.filter (·.1 != k') ++ extra).lookup k = l.lookup k := by
  have hnone : extra.lookup k = none :=
    List.lookup_eq_none_iff.2 fun p hp => by simpa [hextra p hp] using hk
  rw [List.lookup_append, lookup_filter_ne hk, hnone, Option.or_none]

/-- After its entries are dropped, a key finds nothing. -/
theorem lookup_filter_self (k : String) (l : List (String × β)) :
    (l.filter (·.1 != k)).lookup k = none :=
  List.lookup_eq_none_iff.2 fun p hp => by simpa [bne_comm] using (List.mem_filter.1 hp).2

/-- What a key finds in a filtered list passed the filter. -/
theorem filter_of_lookup_filter {p : String × β → Bool} {k : String} {v : β}
    {l : List (String × β)} (h : (l.filter p).lookup k = some v) : p (k, v) = true := by
  obtain ⟨l₁, l₂, hl, -⟩ := List.lookup_eq_some_iff.1 h
  have hmem : (k, v) ∈ l.filter p := hl ▸ List.mem_append_right _ (List.mem_cons_self ..)
  exact (List.mem_filter.1 hmem).2

end Slots

/-! ## Builds in flight -/

/-- A step of a packager serving builds concurrently: the first section of a build for some
options, the second one of the build holding a handle once its bundler answered, or a watcher
event. -/
inductive BuildStep where
  | start (opts : BundleOptions)
  | finish (handle : Nat) (result : Except Error Bundle)
  | event (ev : WatchEvent)

/-- A packager with builds in flight: its engine, and the handle and key of each build started and
not finished, the latest first. -/
structure Server where
  engine : Engine
  flights : List (Nat × String)

namespace Server

/-- One step. Finishing a handle with no build in flight does nothing. -/
def step (c : Context) (s : Server) : BuildStep → Server
  | .start o =>
    match EngineM.run (buildBegin o.cacheKey) c s.engine with
    | (.ok (.started h), e) => ⟨e, (h, o.cacheKey) :: s.flights⟩
    | (_, e) => ⟨e, s.flights⟩
  | .finish h r =>
    match s.flights.lookup h with
    | some key => ⟨(EngineM.run (buildEnd key h r) c s.engine).2, s.flights.filter (·.1 != h)⟩
    | none => s
  | .event ev => ⟨(EngineM.run (packagerChange ev) c s.engine).2, s.flights⟩

/-- Steps one after the other. -/
def after (c : Context) (s : Server) (steps : List BuildStep) : Server := steps.foldl (step c) s

@[simp] theorem after_nil (c : Context) (s : Server) : s.after c [] = s := rfl

@[simp] theorem after_cons (c : Context) (s : Server) (st : BuildStep) (steps : List BuildStep) :
    s.after c (st :: steps) = (s.step c st).after c steps := rfl

theorem after_append (c : Context) (s : Server) (steps steps' : List BuildStep) :
    s.after c (steps ++ steps') = (s.after c steps).after c steps' := by
  simp [after, List.foldl_append]

/-- Whether a step starts a build for `key` or applies a change event: an event the graph answered
that it changed something. -/
def Disturbs (c : Context) (key : String) (s : Server) : BuildStep → Prop
  | .start o => o.cacheKey = key
  | .finish _ _ => False
  | .event ev => ∃ gc, (EngineM.run (packagerChange ev) c s.engine).1 = .ok (some gc)

/-- From `s`, none of `steps` starts a build for `key` or applies a change event. -/
def Undisturbed (c : Context) (key : String) : Server → List BuildStep → Prop
  | _, [] => True
  | s, st :: rest => ¬ Disturbs c key s st ∧ Undisturbed c key (s.step c st) rest

variable {c : Context} {s : Server}

/-- The first section of a build started one when the options' bundle was not kept. -/
theorem step_start_of_not_kept {o : BundleOptions}
    (h : ∀ b serial, s.engine.bundles.lookup o.cacheKey ≠ some (.built b serial)) :
    s.step c (.start o) = ⟨s.engine.buildStart o.cacheKey, (s.engine.nextHandle, o.cacheKey) :: s.flights⟩ := by
  simp [step, run_buildBegin_started h]

theorem step_start_of_kept {o : BundleOptions} {b : Bundle} {serial : Nat}
    (h : s.engine.bundles.lookup o.cacheKey = some (.built b serial)) :
    s.step c (.start o) = s := by
  simp [step, run_buildBegin_kept h]

theorem step_finish_of_lookup {h : Nat} {r : Except Error Bundle} {key : String}
    (hl : s.flights.lookup h = some key) :
    s.step c (.finish h r) =
      ⟨(EngineM.run (buildEnd key h r) c s.engine).2, s.flights.filter (·.1 != h)⟩ := by
  simp [step, hl]

theorem step_finish_of_none {h : Nat} {r : Except Error Bundle} (hl : s.flights.lookup h = none) :
    s.step c (.finish h r) = s := by
  simp [step, hl]

@[simp] theorem step_event (ev : WatchEvent) :
    s.step c (.event ev) = ⟨(EngineM.run (packagerChange ev) c s.engine).2, s.flights⟩ := rfl

/-- Handles are only ever taken, never given back. -/
theorem nextHandle_le_step (st : BuildStep) :
    s.engine.nextHandle ≤ (s.step c st).engine.nextHandle := by
  cases st with
  | start o =>
    by_cases hk : ∃ b serial, s.engine.bundles.lookup o.cacheKey = some (.built b serial)
    · obtain ⟨b, serial, hk⟩ := hk
      rw [step_start_of_kept hk]
    · rw [step_start_of_not_kept fun b serial hb => hk ⟨b, serial, hb⟩]
      simp
  | finish h r =>
    rcases hl : s.flights.lookup h with _ | key
    · rw [step_finish_of_none hl]
    · rw [step_finish_of_lookup hl]
      exact (run_buildEnd_nextHandle h r).ge
  | event ev => exact (run_packagerChange_nextHandle ev).ge

/-- What one step can do to the slot of one key: leave it, when the step neither starts a build
for the key nor applies an event, or when it starts one finding the key's bundle built; give it to
the build it starts; let the build holding it finish; or, applying an event, keep at most a built
bundle. -/
inductive SlotMove (c : Context) (s : Server) (k : String) : BuildStep → Option BundleSlot → Prop
  | stay {st : BuildStep} :
      (Disturbs c k s st → ∃ b serial, s.engine.bundles.lookup k = some (.built b serial)) →
      SlotMove c s k st (s.engine.bundles.lookup k)
  | start {o : BundleOptions} : o.cacheKey = k →
      (∀ b serial, s.engine.bundles.lookup k ≠ some (.built b serial)) →
      SlotMove c s k (.start o) (some (.building s.engine.nextHandle))
  | finishOk {h : Nat} {b : Bundle} : s.flights.lookup h = some k →
      s.engine.bundles.lookup k = some (.building h) →
      SlotMove c s k (.finish h (.ok b)) (some (.built b s.engine.nextSerial))
  | finishError {h : Nat} {err : Error} : s.flights.lookup h = some k →
      s.engine.bundles.lookup k = some (.building h) →
      SlotMove c s k (.finish h (.error err)) none
  | event {ev : WatchEvent} {keep : String × BundleSlot → Bool} :
      Disturbs c k s (.event ev) → (∀ p, keep p = true → ∃ b serial, p.2 = .built b serial) →
      SlotMove c s k (.event ev) ((s.engine.bundles.filter keep).lookup k)

theorem slotMove_step (k : String) (st : BuildStep) :
    SlotMove c s k st ((s.step c st).engine.bundles.lookup k) := by
  cases st with
  | start o =>
    by_cases hb : ∃ b serial, s.engine.bundles.lookup o.cacheKey = some (.built b serial)
    · obtain ⟨b, serial, hb⟩ := hb
      rw [step_start_of_kept hb]
      exact .stay fun hk => ⟨b, serial, hk ▸ hb⟩
    · have hb : ∀ b serial, _ ≠ _ := fun b serial h' => hb ⟨b, serial, h'⟩
      rw [step_start_of_not_kept hb, buildStart_bundles]
      by_cases hk : o.cacheKey = k
      · subst hk
        rw [lookup_replace_self]
        exact .start rfl hb
      · rw [lookup_replace_ne (Ne.symm hk) _ _ (by simp)]
        exact .stay fun hk' => absurd hk' hk
  | finish h r =>
    rcases hl : s.flights.lookup h with _ | key
    · rw [step_finish_of_none hl]
      exact .stay False.elim
    rw [step_finish_of_lookup hl]
    by_cases hh : s.engine.bundles.lookup key = some (.building h)
    · rw [(run_buildEnd_holds r hh).2]
      by_cases hk : k = key
      · subst hk
        cases r with
        | ok b =>
          rw [finishedSlots, lookup_replace_self]
          exact .finishOk hl hh
        | error err =>
          rw [finishedSlots, List.append_nil, lookup_filter_self]
          exact .finishError hl hh
      · rw [lookup_replace_ne hk _ _ keys_finishedSlots]
        exact .stay False.elim
    · rw [(run_buildEnd_not_holds r hh).2]
      exact .stay False.elim
  | event ev =>
    rcases run_packagerChange (c := c) (e := s.engine) ev with ⟨hb, hna⟩ | ⟨gc, hgc, hb⟩
    · rw [step_event, hb]
      exact .stay fun ⟨gc, hgc⟩ => absurd hgc (hna gc)
    · rw [step_event, hb]
      -- an applied change keeps only built bundles
      refine .event ⟨gc, hgc⟩ fun p hp => ?_
      obtain ⟨k, slot⟩ := p
      cases slot with
      | building h => simp at hp
      | built b serial => exact ⟨b, serial, rfl⟩

/-- A slot held by a build stays held through a step that does not finish that build and does not
disturb the slot's key. -/
theorem holds_step {k : String} {h : Nat} (hh : s.engine.bundles.lookup k = some (.building h))
    {st : BuildStep} (hfin : ∀ r, st ≠ .finish h r) (hd : ¬ Disturbs c k s st) :
    (s.step c st).engine.bundles.lookup k = some (.building h) := by
  have hm := slotMove_step (c := c) (s := s) k st
  generalize (s.step c st).engine.bundles.lookup k = v at hm ⊢
  cases hm with
  | stay => exact hh
  | start hk => exact (hd hk).elim
  | @finishOk h' _ _ hb =>
    obtain rfl : h = h' := by simpa [hh] using hb
    exact (hfin _ rfl).elim
  | @finishError h' _ _ hb =>
    obtain rfl : h = h' := by simpa [hh] using hb
    exact (hfin _ rfl).elim
  | event happ => exact (hd happ).elim

/-- An applied event leaves no build holding a slot. -/
theorem not_building_of_keep {keep : String × BundleSlot → Bool}
    (hkeep : ∀ p, keep p = true → ∃ b serial, p.2 = .built b serial) {k : String} {h : Nat} :
    (s.engine.bundles.filter keep).lookup k ≠ some (.building h) := fun hf => by
  simpa using hkeep _ (filter_of_lookup_filter hf)

/-- A slot not held by a handle already taken is not held by it after any step: later builds take
fresh handles. -/
theorem not_holds_step {k : String} {h : Nat} (hlt : h < s.engine.nextHandle)
    (hh : s.engine.bundles.lookup k ≠ some (.building h)) (st : BuildStep) :
    (s.step c st).engine.bundles.lookup k ≠ some (.building h) := by
  have hm := slotMove_step (c := c) (s := s) k st
  generalize (s.step c st).engine.bundles.lookup k = v at hm ⊢
  cases hm with
  | stay => exact hh
  | start => simpa using hlt.ne'
  | finishOk => simp
  | finishError => simp
  | event _ hkeep => exact not_building_of_keep hkeep

/-- A step that disturbs a key takes its slot from the build holding it. -/
theorem not_holds_of_disturbs {k : String} {h : Nat}
    (hh : s.engine.bundles.lookup k = some (.building h)) (hlt : h < s.engine.nextHandle)
    {st : BuildStep} (hd : Disturbs c k s st) :
    (s.step c st).engine.bundles.lookup k ≠ some (.building h) := by
  have hm := slotMove_step (c := c) (s := s) k st
  generalize (s.step c st).engine.bundles.lookup k = v at hm ⊢
  cases hm with
  | stay hkeep =>
    obtain ⟨b, serial, hb⟩ := hkeep hd
    simp [hb] at hh
  | start => simpa using hlt.ne'
  | finishOk => simp
  | finishError => simp
  | event _ hkeep => exact not_building_of_keep hkeep

/-- Once a build has lost its slot, it never holds it again. -/
theorem not_holds_after {k : String} {h : Nat} :
    ∀ {s : Server} (steps : List BuildStep), h < s.engine.nextHandle →
      s.engine.bundles.lookup k ≠ some (.building h) →
      (s.after c steps).engine.bundles.lookup k ≠ some (.building h)
  | _, [], _, hh => hh
  | _, st :: rest, hlt, hh =>
    not_holds_after rest (lt_of_lt_of_le hlt (nextHandle_le_step st)) (not_holds_step hlt hh st)

/-- A build holding a slot still holds it after steps that do not finish it exactly when none of
them disturbed the slot's key. -/
theorem holds_after_iff {k : String} {h : Nat} :
    ∀ {s : Server} {steps : List BuildStep}, s.engine.bundles.lookup k = some (.building h) →
      h < s.engine.nextHandle → (∀ r, .finish h r ∉ steps) →
      ((s.after c steps).engine.bundles.lookup k = some (.building h) ↔ Undisturbed c k s steps)
  | _, [], hh, _, _ => by simp [hh, Undisturbed]
  | s, st :: rest, hh, hlt, hfin => by
    have hlt' := lt_of_lt_of_le hlt (nextHandle_le_step (c := c) st)
    by_cases hd : Disturbs c k s st
    · simp only [after_cons, Undisturbed, hd, not_true_eq_false, false_and, iff_false]
      exact not_holds_after rest hlt' (not_holds_of_disturbs hh hlt hd)
    · have hst : ∀ r, st ≠ .finish h r := fun r he => hfin r (he ▸ List.mem_cons_self ..)
      rw [after_cons, Undisturbed, holds_after_iff (holds_step hh hst hd) hlt'
        fun r hr => hfin r (List.mem_cons_of_mem _ hr)]
      exact (and_iff_right hd).symm

/-- A build in flight stays in flight through steps that do not finish it. -/
theorem flight_step {h : Nat} {k : String} (hf : s.flights.lookup h = some k)
    (hlt : h < s.engine.nextHandle) {st : BuildStep} (hfin : ∀ r, st ≠ .finish h r) :
    (s.step c st).flights.lookup h = some k := by
  cases st with
  | start o =>
    by_cases hb : ∃ b serial, s.engine.bundles.lookup o.cacheKey = some (.built b serial)
    · obtain ⟨b, serial, hb⟩ := hb
      rwa [step_start_of_kept hb]
    · rw [step_start_of_not_kept fun b serial h' => hb ⟨b, serial, h'⟩]
      have hne : (h == s.engine.nextHandle) = false := by simpa using hlt.ne
      simpa [List.lookup_cons, hne] using hf
  | finish h' r =>
    have hne : h ≠ h' := fun he => hfin r (he ▸ rfl)
    rcases hl : s.flights.lookup h' with _ | key
    · rwa [step_finish_of_none hl]
    · rw [step_finish_of_lookup hl]
      rwa [lookup_filter_ne hne]
  | event ev => exact hf

theorem flight_after {h : Nat} {k : String} :
    ∀ {s : Server} (steps : List BuildStep), s.flights.lookup h = some k →
      h < s.engine.nextHandle → (∀ r, .finish h r ∉ steps) →
      (s.after c steps).flights.lookup h = some k
  | _, [], hf, _, _ => hf
  | _, st :: rest, hf, hlt, hfin =>
    flight_after rest (flight_step hf hlt fun r he => hfin r (he ▸ List.mem_cons_self ..))
      (lt_of_lt_of_le hlt (nextHandle_le_step st)) fun r hr => hfin r (List.mem_cons_of_mem _ hr)

/-- Every step keeps one slot per key. -/
theorem slotsUnique_step (hu : s.engine.SlotsUnique) (st : BuildStep) :
    (s.step c st).engine.SlotsUnique := by
  cases st with
  | start o =>
    by_cases hb : ∃ b serial, s.engine.bundles.lookup o.cacheKey = some (.built b serial)
    · obtain ⟨b, serial, hb⟩ := hb
      rwa [step_start_of_kept hb]
    · rw [step_start_of_not_kept fun b serial h' => hb ⟨b, serial, h'⟩, Engine.SlotsUnique,
        buildStart_bundles]
      exact nodup_keys_replace _ _ hu
  | finish h r =>
    rcases hl : s.flights.lookup h with _ | key
    · rwa [step_finish_of_none hl]
    rw [step_finish_of_lookup hl, Engine.SlotsUnique]
    by_cases hh : s.engine.bundles.lookup key = some (.building h)
    · rw [(run_buildEnd_holds r hh).2]
      cases r with
      | ok b => exact nodup_keys_replace _ _ hu
      | error err => simpa [finishedSlots] using nodup_keys_filter (·.1 != key) hu
    · rwa [(run_buildEnd_not_holds r hh).2]
  | event ev =>
    rcases run_packagerChange (c := c) (e := s.engine) ev with ⟨hb, -⟩ | ⟨gc, -, hb⟩
    · rwa [Engine.SlotsUnique, step_event, hb]
    · rw [Engine.SlotsUnique, step_event, hb]
      exact nodup_keys_filter _ hu

theorem slotsUnique_after (hu : s.engine.SlotsUnique) (steps : List BuildStep) :
    (s.after c steps).engine.SlotsUnique := by
  induction steps generalizing s with
  | nil => exact hu
  | cons st rest ih => exact ih (slotsUnique_step hu st)

/-- Where a held slot comes from: it was held before the steps and none of them disturbed its
key, or one of them started the build holding it and none of the steps after that disturbed the
key. -/
theorem building_origin {k : String} {h : Nat} :
    ∀ {s : Server} (steps : List BuildStep),
      (s.after c steps).engine.bundles.lookup k = some (.building h) →
      (s.engine.bundles.lookup k = some (.building h) ∧ Undisturbed c k s steps) ∨
      ∃ pre o mid, steps = pre ++ .start o :: mid ∧ o.cacheKey = k ∧
        (∀ b serial, (s.after c pre).engine.bundles.lookup k ≠ some (.built b serial)) ∧
        h = (s.after c pre).engine.nextHandle ∧
        Undisturbed c k ((s.after c pre).step c (.start o)) mid
  | _, [], hh => .inl ⟨hh, trivial⟩
  | s, st :: rest, hh => by
    rcases building_origin rest hh with ⟨hh', hu⟩ | ⟨pre, o, mid, rfl, hk, hnew, rfl, hu⟩
    · have hm := slotMove_step (c := c) (s := s) k st
      -- the slot is held after the step, so the step either left it or started its build
      generalize (s.step c st).engine.bundles.lookup k = v at hm hh'
      cases hm with
      | stay hkeep =>
        refine .inl ⟨hh', fun hd => ?_, hu⟩
        obtain ⟨b, serial, hb⟩ := hkeep hd
        simp [hb] at hh'
      | @start o hk hnew =>
        obtain rfl : s.engine.nextHandle = h := by simpa using hh'
        exact .inr ⟨[], o, rest, rfl, hk, hnew, rfl, hu⟩
      | finishOk => simp at hh'
      | finishError => simp at hh'
      | event _ hkeep => exact absurd hh' (not_building_of_keep hkeep)
    · exact .inr ⟨st :: pre, o, mid, rfl, hk, hnew, rfl, hu⟩

/-- Only the current build installs a bundle. From a server where no build holds a slot, a step
that puts a bundle in the slot of a key is the successful finish of a build started for that key,
after whose start no step started another build for the key or applied a change event. -/
theorem installs_only_current {s₀ : Server}
    (hq : ∀ k h, s₀.engine.bundles.lookup k ≠ some (.building h)) (hu : s₀.engine.SlotsUnique)
    {steps : List BuildStep} {st : BuildStep} {k : String} {b : Bundle} {serial : Nat}
    (hin : ((s₀.after c steps).step c st).engine.bundles.lookup k = some (.built b serial))
    (hnew : (s₀.after c steps).engine.bundles.lookup k ≠ some (.built b serial)) :
    ∃ pre o mid, steps = pre ++ .start o :: mid ∧ o.cacheKey = k ∧
      (∀ b serial, (s₀.after c pre).engine.bundles.lookup k ≠ some (.built b serial)) ∧
      Undisturbed c k ((s₀.after c pre).step c (.start o)) mid ∧
      st = .finish (s₀.after c pre).engine.nextHandle (.ok b) := by
  have hm := slotMove_step (c := c) (s := s₀.after c steps) k st
  generalize ((s₀.after c steps).step c st).engine.bundles.lookup k = v at hm hin
  cases hm with
  | stay => exact absurd hin hnew
  | start => simp at hin
  | @finishOk h b' _ hh =>
    obtain rfl : b' = b := by simp at hin; exact hin.1
    -- the finishing build holds the slot, so it is the last one started for the key
    rcases building_origin steps hh with ⟨h₀, -⟩ | ⟨pre, o, mid, rfl, hk, hnew', rfl, hund⟩
    · exact absurd h₀ (hq k h)
    · exact ⟨pre, o, mid, rfl, hk, hnew', hund, rfl⟩
  | finishError => simp at hin
  | event _ hkeep =>
    -- with one slot per key, what an applied event keeps was there before it
    exact absurd (lookup_of_lookup_filter (slotsUnique_after hu steps) hin).1 hnew

/-- The finish of a started build, whatever ran since its start but its own finish: its caller gets
the bundler's result with a fresh serial number; the slot map takes that result when no step since
the start disturbed the key, and is left alone otherwise. -/
theorem finish_started {o : BundleOptions} {mid : List BuildStep} (r : Except Error Bundle)
    (hnew : ∀ b serial, s.engine.bundles.lookup o.cacheKey ≠ some (.built b serial))
    (hmid : ∀ r', .finish s.engine.nextHandle r' ∉ mid) :
    EngineM.run (buildEnd o.cacheKey s.engine.nextHandle r) c (s.after c (.start o :: mid)).engine =
        (r.map (·, (s.after c (.start o :: mid)).engine.nextSerial),
          ((s.after c (.start o :: mid)).step c (.finish s.engine.nextHandle r)).engine) ∧
      (Undisturbed c o.cacheKey (s.step c (.start o)) mid →
        ((s.after c (.start o :: mid)).step c (.finish s.engine.nextHandle r)).engine.bundles =
          (s.after c (.start o :: mid)).engine.bundles.filter (·.1 != o.cacheKey) ++
            finishedSlots o.cacheKey r (s.after c (.start o :: mid)).engine.nextSerial) ∧
      (¬ Undisturbed c o.cacheKey (s.step c (.start o)) mid →
        ((s.after c (.start o :: mid)).step c (.finish s.engine.nextHandle r)).engine.bundles =
          (s.after c (.start o :: mid)).engine.bundles) := by
  have hs₂ := step_start_of_not_kept (c := c) hnew
  have hheld : (s.step c (.start o)).engine.bundles.lookup o.cacheKey =
      some (.building s.engine.nextHandle) := by
    rw [hs₂, buildStart_bundles, lookup_replace_self]
  have hlt : s.engine.nextHandle < (s.step c (.start o)).engine.nextHandle := by simp [hs₂]
  have hflight : ((s.step c (.start o)).after c mid).flights.lookup s.engine.nextHandle =
      some o.cacheKey :=
    flight_after mid (by simp [hs₂]) hlt hmid
  have hiff := holds_after_iff (c := c) hheld hlt hmid
  rw [after_cons, step_finish_of_lookup hflight]
  refine ⟨?_, fun hu => (run_buildEnd_holds r (hiff.2 hu)).2,
    fun hu => (run_buildEnd_not_holds r (mt hiff.1 hu)).2⟩
  by_cases hh : ((s.step c (.start o)).after c mid).engine.bundles.lookup o.cacheKey =
      some (.building s.engine.nextHandle)
  · exact Prod.ext (run_buildEnd_holds r hh).1 rfl
  · exact Prod.ext (run_buildEnd_not_holds r hh).1 rfl

/-- Builds of any options, their finishes and change events, in any order, from a packager where no
build holds a slot. A bundle is put in the slot of a key only by the successful finish of a build
started for that key, after whose start no step started another build for the key or applied an
event. The finish of every started build answers its caller with the bundler's result and a fresh
serial number; it puts that result in the slot map (a failure drops the build's own slot) when no
step since the start disturbed the key, and leaves the slot map alone otherwise. -/
theorem only_current_build_is_cached {s₀ : Server}
    (hq : ∀ k h, s₀.engine.bundles.lookup k ≠ some (.building h)) (hu : s₀.engine.SlotsUnique) :
    (∀ steps st k b serial,
      ((s₀.after c steps).step c st).engine.bundles.lookup k = some (.built b serial) →
      (s₀.after c steps).engine.bundles.lookup k ≠ some (.built b serial) →
      ∃ pre o mid, steps = pre ++ .start o :: mid ∧ o.cacheKey = k ∧
        (∀ b serial, (s₀.after c pre).engine.bundles.lookup k ≠ some (.built b serial)) ∧
        Undisturbed c k ((s₀.after c pre).step c (.start o)) mid ∧
        st = .finish (s₀.after c pre).engine.nextHandle (.ok b)) ∧
    ∀ pre o mid r,
      (∀ b serial, (s₀.after c pre).engine.bundles.lookup o.cacheKey ≠ some (.built b serial)) →
      (∀ r', .finish (s₀.after c pre).engine.nextHandle r' ∉ mid) →
      let s := s₀.after c pre
      let s₁ := s.after c (.start o :: mid)
      EngineM.run (buildEnd o.cacheKey s.engine.nextHandle r) c s₁.engine =
          (r.map (·, s₁.engine.nextSerial), (s₁.step c (.finish s.engine.nextHandle r)).engine) ∧
        (Undisturbed c o.cacheKey (s.step c (.start o)) mid →
          (s₁.step c (.finish s.engine.nextHandle r)).engine.bundles =
            s₁.engine.bundles.filter (·.1 != o.cacheKey) ++
              finishedSlots o.cacheKey r s₁.engine.nextSerial) ∧
        (¬ Undisturbed c o.cacheKey (s.step c (.start o)) mid →
          (s₁.step c (.finish s.engine.nextHandle r)).engine.bundles = s₁.engine.bundles) :=
  ⟨fun _ _ _ _ _ hin hnew => installs_only_current hq hu hin hnew,
    fun _ _ _ r hnew hmid => finish_started r hnew hmid⟩

/-- A build superseded by a second build for the same options leaves the slot map alone when it
finishes, whatever its bundler answered. -/
theorem superseded_build_leaves_slots :
    let D : Disk := ⟨[(⟨[.root, .name "w"]⟩, .dir)], 0, Disk.rootPath⟩
    let opts : PackagerOptions := { PackagerOptions.default with projectRoots := ["/w"] }
    let o := BundleOptions.forEntry "index.js"
    ∃ c e, startPackager opts .default .identity D = .ok (c, e) ∧
      (∀ k h, e.bundles.lookup k ≠ some (.building h)) ∧ e.SlotsUnique ∧
      ∀ r, (((Server.mk e []).after c [.start o, .start o]).step c
            (.finish e.nextHandle r)).engine.bundles =
          ((Server.mk e []).after c [.start o, .start o]).engine.bundles := by
  intro D opts o
  have h : (startPackager opts .default .identity D).toOption.isSome = true := by
    decide +kernel
  obtain ⟨⟨c, e⟩, hs⟩ := Option.isSome_iff_exists.1 h
  have hs := eq_ok_of_toOption hs
  have hb := startPackager_bundles hs
  have hq : ∀ k h, e.bundles.lookup k ≠ some (.building h) := by simp [hb]
  have hu : e.SlotsUnique := by simp [Engine.SlotsUnique, hb]
  refine ⟨c, e, hs, hq, hu, fun r => ?_⟩
  exact ((only_current_build_is_cached hq hu).2 [] o [.start o] r (by simp [hb])
    (by simp)).2.2 (by simp [Undisturbed, Disturbs])

end Server

end ModuleBundler
