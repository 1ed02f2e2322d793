import ModuleBundler.Vfs.Crawl
import ModuleBundler.Proofs.Disk

/-!
# What a crawl finds

A crawl of normal roots on a well-formed disk fails at a root that is no directory, or finds
the files strictly below its roots that have a tracked extension and no ignored step between
their root and themselves.

When ignoring is closed below (whatever lies below an ignored path is ignored too), the way to
a file is ignored exactly when the file is, and the crawl finds exactly the normal paths in a
root that are files with a tracked extension and are not ignored (`mem_crawl_iff`).
-/

namespace ModuleBundler

namespace IgnoreRules

/-- Ignoring is closed below: what lies below an ignored path is ignored. -/
def ClosedBelow (I : IgnoreRules) : Prop :=
  ∀ d f : Path, f.startsWith d → I.isIgnored d = true → I.isIgnored f = true

end IgnoreRules

namespace Vfs

/-- Whether a path's extension is one of `exts`. -/
def Tracked (exts : List String) (f : Path) : Bool :=
  match f.extension? with
  | some e => exts.contains e
  | none => false

theorem hasTrackedExtension_eq_tracked (v : Vfs) (f : Path) :
    v.hasTrackedExtension f = Tracked v.extensions f := rfl

/-! ## The three stages of a crawl -/

section Stages

variable {α β ε : Type}

/-- A successful `mapM` succeeds at every input. -/
theorem mapM_ok_members {g : α → Except ε β} :
    ∀ {l : List α} {ys : List β}, l.mapM g = .ok ys → ∀ a ∈ l, ∃ y, g a = .ok y
  | [], _, _ => by simp
  | a :: l, ys, h => by
    simp only [List.mapM_cons] at h
    cases ha : g a with
    | error e => simp [ha, bind, Except.bind] at h
    | ok y =>
      cases hl : l.mapM g with
      | error e => simp [ha, hl, bind, Except.bind] at h
      | ok zs =>
        intro b hb
        rcases List.mem_cons.1 hb with rfl | hb
        · exact ⟨y, ha⟩
        · exact mapM_ok_members hl b hb

/-- What a successful `mapM` of lists gathers: the members of the list each input gives. -/
theorem mem_flatten_of_mapM_ok {g : α → Except ε (List β)} :
    ∀ {l : List α} {ys : List (List β)}, l.mapM g = .ok ys →
      ∀ y, y ∈ ys.flatten ↔ ∃ a ∈ l, ∃ zs, g a = .ok zs ∧ y ∈ zs
  | [], ys, h, y => by
    simp only [List.mapM_nil, pure, Except.pure, Except.ok.injEq] at h
    subst h
    simp
  | a :: l, ys, h, y => by
    simp only [List.mapM_cons] at h
    cases ha : g a with
    | error e => simp [ha, bind, Except.bind] at h
    | ok zs₀ =>
      cases hl : l.mapM g with
      | error e => simp [ha, hl, bind, Except.bind] at h
      | ok zs =>
        simp only [ha, hl, bind, Except.bind, pure, Except.pure, Except.ok.injEq] at h
        subst h
        rw [List.flatten_cons, List.mem_append, mem_flatten_of_mapM_ok hl y]
        constructor
        · rintro (hy | ⟨b, hb, ws, hws, hy⟩)
          · exact ⟨a, List.mem_cons_self, zs₀, ha, hy⟩
          · exact ⟨b, List.mem_cons_of_mem a hb, ws, hws, hy⟩
        · rintro ⟨b, hb, ws, hws, hy⟩
          rcases List.mem_cons.1 hb with rfl | hb
          · rw [ha, Except.ok.injEq] at hws
            exact .inl (hws ▸ hy)
          · exact .inr ⟨b, hb, ws, hws, hy⟩

end Stages

/-- Dropping repeats keeps every member. -/
theorem mem_foldl_dedup {f : Path} :
    ∀ (l acc : List Path), f ∈ l.foldl (fun acc f => if acc.contains f then acc else acc ++ [f]) acc ↔
      f ∈ acc ∨ f ∈ l
  | [], acc => by simp
  | g :: l, acc => by
    rw [List.foldl_cons, mem_foldl_dedup l]
    by_cases hg : acc.contains g
    · have : g ∈ acc := by simpa using hg
      simp only [hg, if_true, List.mem_cons]
      constructor
      · rintro (h | h)
        · exact .inl h
        · exact .inr (.inr h)
      · rintro (h | rfl | h)
        · exact .inl h
        · exact .inl this
        · exact .inr h
    · simp only [hg, Bool.false_eq_true, if_false, List.mem_append, List.mem_cons,
        List.not_mem_nil, or_false]
      constructor
      · rintro ((h | rfl) | h)
        · exact .inl h
        · exact .inr (.inl rfl)
        · exact .inr (.inr h)
      · rintro (h | rfl | h)
        · exact .inl (.inl h)
        · exact .inl (.inr rfl)
        · exact .inr h

variable {D : Disk} {roots : List Path} {exts : List String} {I : IgnoreRules} {fs : List Path}

/-- A crawl that succeeds crawled every root, and found the normal forms of what they gave,
once each, sorted. -/
theorem crawl_eq_ok (h : crawl D roots exts I = .ok fs) :
    ∃ perRoot, roots.mapM (fun r => crawlRoot D r exts I) = .ok perRoot ∧
      ∀ f, f ∈ fs ↔ ∃ g ∈ perRoot.flatten, g.normalize = f := by
  unfold crawl at h
  cases hm : roots.mapM (fun r => crawlRoot D r exts I) with
  | error e => simp [hm, bind, Except.bind] at h
  | ok perRoot =>
    simp only [hm, bind, Except.bind, pure, Except.pure, Except.ok.injEq] at h
    subst h
    refine ⟨perRoot, rfl, fun f => ?_⟩
    simp only [sortPaths, Text.mem_sortBy, mem_foldl_dedup, List.not_mem_nil, false_or,
      List.mem_map]

/-- One root crawled: a directory, and the files below it that are tracked with no ignored
step on the way. -/
theorem crawlRoot_eq_ok {r : Path} {zs : List Path} (h : crawlRoot D r exts I = .ok zs) :
    D.isDir r.normalize = true ∧ ∀ g, g ∈ zs ↔ g ∈ D.filesUnder r.normalize ∧
      Tracked exts g = true ∧
      ((Disk.ancestors g ++ [g]).filter fun a =>
        a.components.length > r.normalize.components.length).any I.isIgnored = false := by
  unfold crawlRoot at h
  dsimp only at h
  split at h
  · cases h
  · rename_i hdir
    simp only [Except.ok.injEq] at h
    subst h
    refine ⟨by simpa using hdir, fun g => List.mem_filter.trans (and_congr_right fun _ => ?_)⟩
    -- the extension test is `Tracked` unfolded, so that half holds by definition
    exact (Bool.and_eq_true _ _).to_iff.trans (and_congr Iff.rfl (Bool.not_eq_true' _).to_iff)

/-- With ignoring closed below, the way from a root to a file strictly below it is ignored
exactly when the file is. -/
theorem any_steps_ignored (hI : I.ClosedBelow) {r g : Path} (hg : g.startsWith r) (hne : g ≠ r) :
    ((Disk.ancestors g ++ [g]).filter fun a =>
      a.components.length > r.components.length).any I.isIgnored = I.isIgnored g := by
  cases hgi : I.isIgnored g with
  | true =>
    -- the file itself is a step, being longer than its root
    refine List.any_eq_true.2 ⟨g, List.mem_filter.2 ⟨by simp, ?_⟩, hgi⟩
    simpa using Path.length_lt_of_startsWith hg hne
  | false =>
    refine List.any_eq_false.2 fun a ha hai => ?_
    have hga : g.startsWith a := by
      rcases List.mem_append.1 (List.mem_filter.1 ha).1 with ha | ha
      · exact (Disk.mem_ancestors ha).1
      · rw [List.mem_singleton.1 ha]; exact Path.startsWith_refl g
    simp [hI a g hga hai] at hgi

/-- Every root of a successful crawl is a directory. -/
theorem crawl_isDir (h : crawl D roots exts I = .ok fs) : ∀ r ∈ roots, D.isDir r.normalize = true := by
  obtain ⟨perRoot, hm, -⟩ := crawl_eq_ok h
  intro r hr
  obtain ⟨zs, hzs⟩ := mapM_ok_members hm r hr
  exact (crawlRoot_eq_ok hzs).1

/-- What a successful crawl of normal roots finds on a well-formed disk, with ignoring closed
below: the normal paths in a root that are tracked files and are not ignored. -/
theorem mem_crawl_iff (hD : D.WellFormed) (hroots : ∀ r ∈ roots, r.normalize.IsNormal)
    (hI : I.ClosedBelow) (h : crawl D roots exts I = .ok fs) (f : Path) :
    f ∈ fs ↔ f.IsNormal ∧ (∃ r ∈ roots, f.startsWith r.normalize) ∧ D.isFile f = true ∧
      Tracked exts f = true ∧ I.isIgnored f = false := by
  obtain ⟨perRoot, hm, hfs⟩ := crawl_eq_ok h
  rw [hfs]
  constructor
  · rintro ⟨g, hg, rfl⟩
    obtain ⟨r, hr, zs, hzs, hgz⟩ := (mem_flatten_of_mapM_ok hm g).1 hg
    obtain ⟨-, hmem⟩ := crawlRoot_eq_ok hzs
    obtain ⟨hunder, htracked, hsteps⟩ := (hmem g).1 hgz
    obtain ⟨⟨b, m, hgf⟩, hgr, hne⟩ := (hD.mem_filesUnder (hroots r hr)).1 hunder
    have hgn : g.IsNormal := hD.isNormal_of_find? hgf
    rw [hgn.normalize_eq]
    exact ⟨hgn, ⟨r, hr, hgr⟩, (hD.isFile_iff hgn).2 ⟨b, m, hgf⟩, htracked,
      by rwa [any_steps_ignored hI hgr hne] at hsteps⟩
  · rintro ⟨hfn, ⟨r, hr, hfr⟩, hfile, htracked, hign⟩
    obtain ⟨zs, hzs⟩ := mapM_ok_members hm r hr
    obtain ⟨hdir, hmem⟩ := crawlRoot_eq_ok hzs
    obtain ⟨b, m, hff⟩ := (hD.isFile_iff hfn).1 hfile
    -- the root is a directory, so the file lies strictly below it
    have hne : f ≠ r.normalize := by
      rintro rfl
      rw [(hD.isDir_iff (hroots r hr)).1 hdir] at hff
      cases hff
    have hunder : f ∈ D.filesUnder r.normalize :=
      (hD.mem_filesUnder (hroots r hr)).2 ⟨⟨b, m, hff⟩, hfr, hne⟩
    refine ⟨f, (mem_flatten_of_mapM_ok hm f).2 ⟨r, hr, zs, hzs, (hmem f).2 ⟨hunder, htracked, ?_⟩⟩,
      hfn.normalize_eq⟩
    rwa [any_steps_ignored hI hfr hne]

end Vfs

end ModuleBundler
