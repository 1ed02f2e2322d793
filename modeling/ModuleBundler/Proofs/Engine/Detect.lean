import ModuleBundler.Proofs.Engine.Views
import ModuleBundler.Proofs.Registry.Haste

/-!
# Detection runs as its views say

Each operation name detection is built from is run here once: its result is what the views of
the engine give, and the state it leaves differs from the one it started from by cache fills
only. Detecting the name of a file then gives `Engine.detected` of that file (`run_detectName`),
and a scan of the name index gives the index built from what the engine detects now
(`run_buildHasteMap`). That index is a function of the state (`Engine.hasteIndex`); it is built
exactly when detection answers for every file and no two detected pairs collide, and it then
holds exactly the detected pairs (`hasteIndex_eq_ok_of_noClash`, `hasteIndex_eq_ok`).
-/

namespace ModuleBundler

open EngineM

/-- A list mapped through a check that passes everywhere gives the list of what it passed. -/
theorem mapM_eq_ok_of_forall {α β : Type} (f : α → Except Error β) : ∀ l : List α,
    (∀ a ∈ l, ∃ b, f a = .ok b) → ∃ bs, l.mapM f = .ok bs ∧ ∀ b, b ∈ bs ↔ ∃ a ∈ l, f a = .ok b
  | [], _ => ⟨[], rfl, by simp⟩
  | a :: l, hl => by
    obtain ⟨b, hb⟩ := hl a (List.mem_cons_self ..)
    obtain ⟨bs, hbs, hmem⟩ := mapM_eq_ok_of_forall f l fun a ha => hl a (List.mem_cons_of_mem _ ha)
    refine ⟨b :: bs, by simp [List.mapM_cons, hb, hbs]; rfl, fun b' => ?_⟩
    simp only [List.mem_cons, hmem]
    constructor
    · rintro (rfl | ⟨a', ha', hfa⟩)
      · exact ⟨a, .inl rfl, hb⟩
      · exact ⟨a', .inr ha', hfa⟩
    · rintro ⟨a', rfl | ha', hfa⟩
      · rw [hb] at hfa; cases hfa; exact .inl rfl
      · exact .inr ⟨a', ha', hfa⟩

/-- A list mapped through a check gives a result only where the check passes everywhere. -/
theorem forall_of_mapM_eq_ok {α β : Type} (f : α → Except Error β) : ∀ (l : List α) (bs : List β),
    l.mapM f = .ok bs → ∀ a ∈ l, ∃ b, f a = .ok b
  | [], _, _ => by simp
  | a :: l, bs, h => by
    rw [List.mapM_cons] at h
    cases ha : f a with
    | error err => rw [ha] at h; cases h
    | ok b =>
      rw [ha] at h
      cases hl : l.mapM f with
      | error err => simp [hl] at h; cases h
      | ok bs' =>
        intro a' ha'
        rcases List.mem_cons.1 ha' with rfl | ha'
        · exact ⟨b, ha⟩
        · exact forall_of_mapM_eq_ok f l bs' hl a' ha'


namespace Engine

variable {c : Context} {e : Engine}

/-! ## Reading files, modules and packages -/

/-- The state a read through the mirror leaves. -/
def afterRead (e : Engine) (p : Path) : Engine := { e with vfs := (e.vfs.readFile e.disk p).2 }

theorem fills_afterRead (e : Engine) (p : Path) : Fills e (e.afterRead p) := by
  rcases Vfs.readFile_snd e.vfs e.disk p with h | ⟨data, s, hnode, hnone, hread, h⟩
  · unfold afterRead
    rw [h]
  · unfold afterRead
    rw [h]
    exact .single (.content hnode hnone hread)

@[simp] theorem afterRead_registry (p : Path) : (e.afterRead p).registry = e.registry := rfl

@[simp] theorem afterRead_cache (p : Path) : (e.afterRead p).cache = e.cache := rfl

@[simp] theorem afterRead_disk (p : Path) : (e.afterRead p).disk = e.disk := rfl

/-- A read through the mirror gives the read view, and the mirror may remember the content. -/
theorem run_readFile (p : Path) :
    run (readFile p) c e = ((e.readView p).mapError .vfs, e.afterRead p) := by
  simp only [readFile, run_bind, run_get, run_set, run_lift, readView, afterRead]
  cases (e.vfs.readFile e.disk p).1 <;> rfl

theorem run_readSource (m : Module) : ∃ r, run (readSource m) c e = (r, e.afterRead m.path) ∧
    r.map ModuleData.hasteId =
      ((e.readView m.path).map fun s => (Docblock.parse s).providesModule?).mapError .vfs := by
  simp only [readSource, run_bind, run_readFile]
  cases e.readView m.path with
  | error err => exact ⟨_, rfl, rfl⟩
  | ok s =>
    simp only [Except.mapError, Except.map]
    split <;> exact ⟨_, rfl, rfl⟩

/-- A memoised value is the stored one when it reads back, else it is computed and stored. -/
theorem run_memoised {α : Type} (path : Path) (field : String) (decode : Json → Except String α)
    (encode : α → Option Json) (compute : EngineM α) :
    run (memoised path field decode encode compute) c e =
      match (e.cache.lookup path field).map decode with
      | some (.ok v) => (.ok v, e)
      | _ =>
        match run compute c e with
        | (.ok v, e') =>
          (.ok v, { e' with cache := e'.cache.storeEncoded path field (encode v) (e'.disk.mtime? path) })
        | (.error err, e') => (.error err, e') := by
  simp only [memoised, storeMemo, run_bind, run_get]
  rcases (e.cache.lookup path field).map decode with _ | _ | v
  -- nothing stored, or a stored value that does not decode: the value is computed
  · rcases hc : run compute c e with ⟨_ | _, e'⟩ <;> simp [run_bind, run_modify, hc]
  · rcases hc : run compute c e with ⟨_ | _, e'⟩ <;> simp [run_bind, run_modify, hc]
  · rfl

/-- The live module of a path, created when there is none. -/
theorem run_getModule (hR : e.registry.WellFormed) (p : Path) : ∃ e' id, Fills e e' ∧
    run (getModule p) c e = (.ok id, e') ∧ e'.registry.atPath? p.normalize = some id := by
  cases h : e.registry.atPath? p.normalize with
  | some id =>
    refine ⟨e, id, .refl, ?_, h⟩
    simp [getModule, getOrInsert, h]
  | none =>
    refine ⟨_, e.registry.store.size, .single (.module h), ?_, ?_⟩
    · simp [getModule, getOrInsert, h, modifyRegistry]
    · simp [hR.atPath?_addModule h]


theorem run_moduleOf {id : Nat} {rec : ModuleRecord} (hrec : e.registry.record? id = some rec) :
    run (moduleOf id) c e = (.ok rec.module, e) := by
  simp [moduleOf, hrec]

/-- With nothing recorded or memoised, the declared name is read from the file. -/
theorem declaredName_of_unrecorded {p : Path} (hrec : e.recordedData p = none)
    (hmemo : e.memoData p = none) :
    e.declaredName p = ((e.readView p).map fun s => (Docblock.parse s).providesModule?).mapError .vfs := by
  simp only [declaredName, hrec, hmemo]
  cases e.readView p <;> rfl

/-- Reading what a module declares gives what the engine reads at its path, and only fills. -/
theorem run_moduleData (hR : e.registry.WellFormed) {p : Path} {id : Nat}
    (hid : e.registry.atPath? p = some id) : ∃ e', Fills e e' ∧ (run (moduleData id) c e).2 = e' ∧
      ((run (moduleData id) c e).1).map ModuleData.hasteId = e.declaredName p := by
  obtain ⟨rec, hrec, -, hpath, hkind⟩ := hR.atPath? hid
  have hrecorded : e.recordedData p = rec.data := by simp [recordedData, hid, hrec]
  cases hd : rec.data with
  | some d =>
    refine ⟨e, .refl, ?_, ?_⟩
    · simp [moduleData, hrec, hd]
    · simp [moduleData, hrec, hd, declaredName, hrecorded, Except.map]
  | none =>
    subst hpath
    have hstore : e.registry.store[id]? = some rec := hrec
    have hnone : e.recordedData rec.module.path = none := hrecorded.trans hd
    simp only [moduleData, run_bind, run_get, hrec, hd, hkind, run_memoised]
    generalize hL : (e.cache.lookup rec.module.path "moduleData").map ModuleData.ofJson = L
    rcases L with _ | _ | v
    rotate_left 2
    · -- the memo holds the declarations: record them
      have hmemo : e.memoData rec.module.path = some v := by simp [memoData, hL]
      have hdecl : e.declaredName rec.module.path = .ok v.hasteId := by
        simp [declaredName, hnone, hmemo]
      refine ⟨_, .single (.data (c := e.cache) hid hrec hd hdecl (.inl rfl)), ?_, ?_⟩
      · simp [modifyRegistry, hstore]
      · simp [modifyRegistry, hstore, hdecl, Except.map]
    all_goals
      -- nothing usable in the memo: read the file, then record what it declares
      have hmemo : e.memoData rec.module.path = none := by simp [memoData, hL]
      obtain ⟨r, hrun, hr⟩ := run_readSource (c := c) (e := e) rec.module
      rw [← declaredName_of_unrecorded hnone hmemo] at hr
      rw [hrun]
      cases r with
      | error err => exact ⟨_, fills_afterRead e _, rfl, hr⟩
      | ok d =>
        have hkeeps := (fills_afterRead e rec.module.path).keeps
        have hdecl : (e.afterRead rec.module.path).declaredName rec.module.path = .ok d.hasteId :=
          (hkeeps.declaredName hR _).trans hr.symm
        refine ⟨_, (fills_afterRead e _).tail (.data (c := e.cache.store rec.module.path "moduleData"
          d.toJson (e.disk.mtime? rec.module.path)) hid hrec hd hdecl (.inr ⟨hmemo, rfl⟩)), ?_, hr⟩
        simp [modifyRegistry, hstore]


/-- Reading a package file gives the package the engine sees there, and only fills. -/
theorem run_getPackage (p : Path) :
    ∃ e', Fills e e' ∧ run (getPackage p) c e = (.ok (e.packageView p.normalize), e') := by
  cases h : e.registry.packages.lookup p.normalize with
  | some pkg =>
    refine ⟨e, .refl, ?_⟩
    simp [getPackage, h, packageView]
  | none =>
    have hview : (e.afterRead p.normalize).packageView p.normalize =
        Package.make p.normalize (packageJson (e.readView p.normalize)) := by
      simp [packageView, h, (fills_afterRead e p.normalize).keeps.readView]
    refine ⟨_, (fills_afterRead e _).tail (.package (e := e.afterRead p.normalize) h), ?_⟩
    rw [hview]
    simp only [getPackage, run_bind, run_get, h, run_attempt, run_readFile, packageView]
    cases e.readView p.normalize with
    | error err => rfl
    | ok s =>
      simp only [Except.mapError, packageJson]
      cases Json.parse s <;> rfl


theorem run_packageFor {m : Module} (hm : m.kind = .source) : ∃ e', Fills e e' ∧
    run (packageFor m) c e =
      (.ok ((e.vfs.closest e.disk m.path "package.json").map fun q => e.packageView q.normalize), e') := by
  cases hc : e.vfs.closest e.disk m.path "package.json" with
  | none =>
    refine ⟨e, .refl, ?_⟩
    simp [packageFor, hm, closest, hc]
  | some q =>
    obtain ⟨e', hF, hrun⟩ := run_getPackage (c := c) (e := e) q
    refine ⟨e', hF, ?_⟩
    simp [packageFor, hm, closest, hc, hrun]

/-! ## Global naming -/

theorem run_isHasteCompatible (m : Module) (pkg : Option Package) :
    run (isHasteCompatible m pkg) c e =
      (.ok (!m.path.components.contains (.name "node_modules") ||
        pkg.any fun p => e.vfs.roots.contains p.root), e) := by
  unfold isHasteCompatible
  cases m.path.components.contains (.name "node_modules") <;> simp

/-- A package the engine sees is rooted at the directory of its file. -/
theorem packageView_root (hR : e.registry.WellFormed) (q : Path) :
    (e.packageView q).root = q.parent?.getD Path.empty := by
  unfold packageView
  cases h : e.registry.packages.lookup q with
  | none => rfl
  | some pkg => rw [hR.packages q pkg h]; rfl

/-- A package the engine sees sits at its own path. -/
theorem packageView_path (hR : e.registry.WellFormed) (q : Path) : (e.packageView q).path = q := by
  unfold packageView
  cases h : e.registry.packages.lookup q with
  | none => rfl
  | some pkg => rw [hR.packages q pkg h]; rfl

/-- Whether a module takes part in global naming, with its package read, is `compatible`. -/
theorem compatible_eq (hR : e.registry.WellFormed) (g : Path) :
    e.compatible g = (!g.components.contains (.name "node_modules") ||
      ((e.vfs.closest e.disk g "package.json").map fun q => e.packageView q.normalize).any
        fun p => e.vfs.roots.contains p.root) := by
  simp only [compatible, Option.any_map, packageView_root hR]

/-- Whether a module registers a name is whether it takes part in global naming and declares
one. -/
theorem run_isHaste (hR : e.registry.WellFormed) {p : Path} {id : Nat}
    (hid : e.registry.atPath? p = some id) : ∃ e', Fills e e' ∧ (run (isHaste id) c e).2 = e' ∧
      (run (isHaste id) c e).1 =
        if e.compatible p then (e.declaredName p).map Option.isSome else .ok false := by
  obtain ⟨rec, hrec, -, hpath, hkind⟩ := hR.atPath? hid
  obtain ⟨e₁, hF₁, hpkg⟩ := run_packageFor (c := c) (e := e) hkind
  have hK₁ := hF₁.keeps
  have hcompat : e.compatible p = (!rec.module.path.components.contains (.name "node_modules") ||
      ((e.vfs.closest e.disk rec.module.path "package.json").map fun q => e.packageView q.normalize).any
        fun p => e₁.vfs.roots.contains p.root) := by
    rw [hK₁.shape.roots, hpath, compatible_eq hR]
  simp only [isHaste, run_bind, run_moduleOf hrec, hkind, hpkg, run_isHasteCompatible, ← hcompat]
  cases hc : e.compatible p with
  | false => exact ⟨e₁, hF₁, rfl, rfl⟩
  | true =>
    obtain ⟨e₂, hF₂, hrun, hmap⟩ := run_moduleData (c := c) (hK₁.wellFormed hR)
      (hK₁.atPath hR p id hid)
    rw [hK₁.declaredName hR] at hmap
    refine ⟨e₂, hF₁.trans hF₂, ?_, ?_⟩
    · simp only [Bool.not_true, Bool.false_eq_true, if_false, run_bind]
      rcases h : run (moduleData id) c e₁ with ⟨_ | _, e'⟩ <;> simp_all
    · simp only [Bool.not_true, Bool.false_eq_true, if_false, if_true, run_bind, ← hmap]
      rcases run (moduleData id) c e₁ with ⟨_ | _, e'⟩ <;> rfl


/-- A module in global naming that declares a name is named by it. -/
theorem run_moduleName_of_declared (hR : e.registry.WellFormed) {p : Path} {id : Nat} {n : String}
    (hid : e.registry.atPath? p = some id) (hc : e.compatible p = true)
    (hd : e.declaredName p = .ok (some n)) :
    ∃ e', Fills e e' ∧ run (moduleName id) c e = (.ok n, e') := by
  obtain ⟨rec, hrec, -, hpath, hkind⟩ := hR.atPath? hid
  obtain ⟨e₁, hF₁, hpkg⟩ := run_packageFor (c := c) (e := e) hkind
  have hK₁ := hF₁.keeps
  have hcompat : e.compatible p = (!rec.module.path.components.contains (.name "node_modules") ||
      ((e.vfs.closest e.disk rec.module.path "package.json").map fun q => e.packageView q.normalize).any
        fun p => e₁.vfs.roots.contains p.root) := by
    rw [hK₁.shape.roots, hpath, compatible_eq hR]
  obtain ⟨e₂, hF₂, hrun, hmap⟩ := run_moduleData (c := c) (hK₁.wellFormed hR)
    (hK₁.atPath hR p id hid)
  rw [hK₁.declaredName hR, hd] at hmap
  refine ⟨e₂, hF₁.trans hF₂, ?_⟩
  simp only [moduleName, run_bind, run_moduleOf hrec, hkind, hpkg, run_isHasteCompatible, ← hcompat, hc,
    if_true]
  rcases h : run (moduleData id) c e₁ with ⟨_ | d, e'⟩
  · simp [h, Except.map] at hmap
  · have hn : d.hasteId = some n := by simpa [h, Except.map] using hmap
    have he' : e' = e₂ := by simpa [h] using hrun
    simp [hn, he']


/-- Detection gives what the engine detects now, and only fills caches. -/
theorem run_detectName (hR : e.registry.WellFormed) {g : Path} (hg : g.IsNormal) :
    ∃ e', Fills e e' ∧ run (detectName g) c e = (e.detected g, e') := by
  have hnorm := hg.normalize_eq
  by_cases hpj : g.fileName? = some "package.json"
  · obtain ⟨e₁, hF₁, hrun⟩ := run_getPackage (c := c) (e := e) g
    refine ⟨e₁, hF₁, ?_⟩
    simp only [detectName, hpj, if_true, run_bind, hrun, hnorm, run_get, detected,
      hF₁.keeps.shape.roots]
    cases (e.packageView g).name? <;> rfl
  by_cases hjs : (g.extension? != some "js") = true
  · refine ⟨e, .refl, ?_⟩
    simp [detectName, hpj, hjs, detected]
  obtain ⟨e₁, id, hF₁, hrun₁, hid⟩ := run_getModule (c := c) hR g
  rw [hnorm] at hid
  have hK₁ := hF₁.keeps
  obtain ⟨e₂, hF₂, hrun₂, hres₂⟩ := run_isHaste (c := c) (hK₁.wellFormed hR) hid
  rw [hK₁.compatible, hK₁.declaredName hR] at hres₂
  have hI : run (isHaste id) c e₁ =
      (if e.compatible g then (e.declaredName g).map Option.isSome else .ok false, e₂) :=
    Prod.ext hres₂ hrun₂
  have hdet : e.detected g = if e.compatible g = false then .ok none
      else (e.declaredName g).map (Option.map fun hid => (hid, .module g)) := by
    simp [detected, hpj, hjs]
  have hjs' : (g.extension? != some "js") = false := by simpa using hjs
  simp only [detectName, hpj, hjs', Bool.false_eq_true, if_false, run_bind, hrun₁, hI, hdet]
  cases hc : e.compatible g with
  | false => exact ⟨e₂, hF₁.trans hF₂, by simp⟩
  | true =>
    cases hd : e.declaredName g with
    | error err => exact ⟨e₂, hF₁.trans hF₂, by simp [Except.map]⟩
    | ok r =>
      cases r with
      | none => exact ⟨e₂, hF₁.trans hF₂, by simp [Except.map]⟩
      | some n =>
        have hK₂ := hK₁.trans hF₂.keeps
        have hR₂ := hK₂.wellFormed hR
        obtain ⟨e₃, hF₃, hrun₃⟩ := run_moduleName_of_declared (c := c) hR₂
          (hF₂.keeps.atPath (hK₁.wellFormed hR) g id hid) (by rw [hK₂.compatible, hc])
          (by rw [hK₂.declaredName hR, hd])
        obtain ⟨rec, hrec, -, hpath, -⟩ :=
          ((hK₂.trans hF₃.keeps).wellFormed hR).atPath?
            (hF₃.keeps.atPath hR₂ g id (hF₂.keeps.atPath (hK₁.wellFormed hR) g id hid))
        refine ⟨e₃, (hF₁.trans hF₂).trans hF₃, ?_⟩
        simp [hrun₃, run_moduleOf hrec, hpath, Except.map]


/-! ## Scanning every file -/

/-- The files a scan of the name index reads: every known `.js` and `.json` file. -/
def candidates (e : Engine) : List Path := e.vfs.findByExts ["js", "json"]

/-- The name index a scan builds from what the engine detects now. -/
def hasteIndex (e : Engine) (ps : List String) : Except Error HasteMap := do
  let found ← e.candidates.mapM e.detected
  (found.filterMap id).foldlM (fun h x => h.register ps x.1 x.2) HasteMap.empty

/-- Detecting the names of a list of files, failures caught, gives what the engine detects now
for each. -/
theorem run_mapM_detectName : ∀ (l : List Path) (e : Engine), e.registry.WellFormed →
    (∀ g ∈ l, g.IsNormal) → ∃ e', Fills e e' ∧
      run (l.mapM fun f => attempt (detectName f)) c e = (.ok (l.map e.detected), e')
  | [], e, _, _ => ⟨e, .refl, rfl⟩
  | g :: l, e, hR, hl => by
    obtain ⟨e₁, hF₁, h₁⟩ := run_detectName (c := c) hR (hl g (List.mem_cons_self ..))
    obtain ⟨e', hF', h'⟩ := run_mapM_detectName l e₁ (hF₁.keeps.wellFormed hR)
      fun g hg => hl g (List.mem_cons_of_mem _ hg)
    refine ⟨e', hF₁.trans hF', ?_⟩
    have hmap : l.map e₁.detected = l.map e.detected :=
      List.map_congr_left fun g _ => hF₁.keeps.detected hR g
    rw [List.mapM_cons]
    simp only [run_bind, run_attempt, h₁]
    cases hd : e.detected g <;> simp [hd, h', hmap]


theorem run_mapM_lift {β : Type} (f : Path → Except Error β) : ∀ l : List Path,
    run ((l.map f).mapM fun r => lift id r) c e = (l.mapM f, e)
  | [] => rfl
  | g :: l => by
    simp only [List.map_cons, List.mapM_cons, run_bind, run_lift]
    cases f g with
    | error err => rfl
    | ok b =>
      simp only [run_mapM_lift f l]
      cases l.mapM f <;> rfl

theorem run_foldlM_lift {α β : Type} (g : β → α → Except Error β) : ∀ (l : List α) (init : β),
    run (l.foldlM (fun b x => lift id (g b x)) init) c e = (l.foldlM g init, e)
  | [], _ => rfl
  | x :: l, init => by
    simp only [List.foldlM_cons, run_bind, run_lift]
    cases g init x with
    | error err => rfl
    | ok b => exact run_foldlM_lift g l b

/-- A scan of the name index gives the index built from what the engine detects now, and only
fills caches. -/
theorem run_buildHasteMap (hR : e.registry.WellFormed) (hC : ∀ g ∈ e.candidates, g.IsNormal) :
    ∃ e', Fills e e' ∧ run buildHasteMap c e = (e.hasteIndex c.opts.platforms, e') := by
  obtain ⟨e', hF, hscan⟩ := run_mapM_detectName (c := c) e.candidates e hR hC
  refine ⟨e', hF, ?_⟩
  simp only [buildHasteMap, run_bind, run_get, run_read]
  unfold candidates at hscan
  rw [hscan]
  simp only [run_mapM_lift, hasteIndex, candidates]
  cases (e.vfs.findByExts ["js", "json"]).mapM e.detected with
  | error err => rfl
  | ok found => exact run_foldlM_lift _ _ _


/-- The pairs of names and entries the engine detects now among the files a scan reads. -/
def Detects (e : Engine) (n : String) (en : HasteEntry) : Prop :=
  ∃ g ∈ e.candidates, e.detected g = .ok (some (n, en))

/-- Detection answers for every file a scan reads. -/
def DetectsAll (e : Engine) : Prop := ∀ g ∈ e.candidates, ∃ r, e.detected g = .ok r

/-- A detected entry names the file it was detected in. -/
theorem detected_path (hR : e.registry.WellFormed) {g : Path} {n : String} {en : HasteEntry}
    (h : e.detected g = .ok (some (n, en))) : en.path = g := by
  unfold detected at h
  split at h
  · dsimp only at h
    split at h
    · split at h
      · cases h; exact packageView_path hR g
      · cases h
    · cases h
  · split at h
    · cases h
    · split at h
      · cases h
      · cases hd : e.declaredName g with
        | error err => simp [hd, Except.map] at h
        | ok r =>
          cases r with
          | none => simp [hd, Except.map] at h
          | some n' => simp only [hd, Except.map, Option.map_some, Except.ok.injEq,
              Option.some.injEq, Prod.mk.injEq] at h; rw [← h.2]; rfl

/-- Two detected pairs with entries at one path are one pair. -/
theorem detects_unique (hR : e.registry.WellFormed) {n n' : String} {en en' : HasteEntry}
    (h : e.Detects n en) (h' : e.Detects n' en') (hp : en.path = en'.path) : n = n' ∧ en = en' := by
  obtain ⟨g, -, hg⟩ := h
  obtain ⟨g', -, hg'⟩ := h'
  rw [detected_path hR hg, detected_path hR hg'] at hp
  subst hp
  rw [hg] at hg'
  simpa using hg'

/-- What a successful scan of the candidates found: exactly the pairs detected. -/
theorem mem_found {rs : List (Option (String × HasteEntry))}
    (hmem : ∀ r, r ∈ rs ↔ ∃ g ∈ e.candidates, e.detected g = .ok r) (n : String) (en : HasteEntry) :
    (n, en) ∈ rs.filterMap id ↔ e.Detects n en := by
  simp [List.mem_filterMap, hmem, Detects]

/-- When detection answers everywhere and no two detected pairs collide, a scan builds the index
holding exactly the detected pairs. -/
theorem hasteIndex_eq_ok_of_noClash {ps : List String} (hall : e.DetectsAll)
    (hnc : HasteMap.NoClash ps e.Detects) :
    ∃ h, e.hasteIndex ps = .ok h ∧ h.WellFormed ∧ h.Holds ps e.Detects := by
  obtain ⟨rs, hrs, hmem⟩ := mapM_eq_ok_of_forall e.detected e.candidates hall
  obtain ⟨h, hfold, hh, H⟩ := HasteMap.foldlM_register_ok (rs.filterMap id) HasteMap.empty
    (fun _ _ => False) HasteMap.wellFormed_empty HasteMap.holds_empty
    (hnc.mono fun n en h => h.elim False.elim fun h => (mem_found hmem n en).1 h)
  refine ⟨h, ?_, hh, H.congr fun n en => by rw [false_or, mem_found hmem]⟩
  rw [hasteIndex, hrs]
  exact hfold

/-- A scan that succeeds found an answer everywhere and no collision, and holds exactly the
detected pairs. -/
theorem hasteIndex_eq_ok (hR : e.registry.WellFormed) {ps : List String} {h : HasteMap}
    (hok : e.hasteIndex ps = .ok h) :
    e.DetectsAll ∧ HasteMap.NoClash ps e.Detects ∧ h.WellFormed ∧ h.Holds ps e.Detects := by
  unfold hasteIndex at hok
  cases hrs : e.candidates.mapM e.detected with
  | error err => rw [hrs] at hok; cases hok
  | ok rs =>
    rw [hrs] at hok
    have hall : e.DetectsAll := forall_of_mapM_eq_ok _ _ _ hrs
    obtain ⟨rs', hrs', hmem⟩ := mapM_eq_ok_of_forall e.detected e.candidates hall
    rw [hrs] at hrs'
    cases hrs'
    have hnc : HasteMap.NoClash ps e.Detects := by
      refine (HasteMap.noClash_of_foldlM_register (rs.filterMap id) HasteMap.empty (fun _ _ => False)
        HasteMap.wellFormed_empty HasteMap.holds_empty (fun _ _ _ h => h.elim)
        (fun n en n' en' h₁ h₂ hp => ?_) h hok).mono fun n en h => .inr ((mem_found hmem n en).2 h)
      simp only [false_or, mem_found hmem] at h₁ h₂
      exact detects_unique hR h₁ h₂ hp
    obtain ⟨h', hok', hh, H⟩ := hasteIndex_eq_ok_of_noClash hall hnc
    rw [hasteIndex, hrs, hok] at hok'
    cases hok'
    exact ⟨hall, hnc, hh, H⟩

end Engine

end ModuleBundler
