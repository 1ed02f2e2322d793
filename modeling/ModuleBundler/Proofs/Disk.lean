import ModuleBundler.Proofs.Path

/-!
# Well-formed disks

A disk as the operating system keeps it holds one entry per path, every path absolute, normal and
below the root, and the directory above every entry. On such a disk a normal path is looked up
the way `status` walks it, piece by piece from the root, with the same answer as a direct
lookup: `isFile` and `isDir` read the entry itself.

Writing a file or making a directory where the directory above exists, and removing a file or a
whole directory, keep a disk well formed; each changes the entries at its own path (and, for a
removal, below it) and nothing else.
-/

namespace ModuleBundler

/-! ## Lookups in a list of entries -/

section Entries

variable {α β : Type} [DecidableEq α]

theorem find?_map_eq_some_iff {l : List (α × β)} (hl : (l.map Prod.fst).Nodup) {k : α} {b : β} :
    (l.find? (·.1 = k)).map (·.2) = some b ↔ (k, b) ∈ l := by
  induction l with
  | nil => simp
  | cons e l ih =>
    obtain ⟨hnot, hl⟩ := List.nodup_cons.1 hl
    rw [List.find?_cons]
    by_cases hk : e.1 = k
    · -- the first entry has the key, and no later one does
      obtain ⟨k', b'⟩ := e
      simp only at hk
      subst hk
      have : (k', b) ∉ l := fun h => hnot (List.mem_map.2 ⟨_, h, rfl⟩)
      simp [this, eq_comm]
    · have hne : (k, b) ≠ e := fun h => hk (by rw [← h])
      simp [hk, ih hl, hne]

theorem find?_map_eq_none_iff {l : List (α × β)} {k : α} :
    (l.find? (·.1 = k)).map (·.2) = none ↔ k ∉ l.map Prod.fst := by
  simp only [Option.map_eq_none_iff, List.find?_eq_none, decide_eq_true_eq, List.mem_map,
    not_exists, not_and]

/-- Replacing the entry at a key, or appending one when there is none, changes the lookup at
that key only. -/
theorem find?_upsert {l : List (α × β)} {p q : α} {e : β} :
    ((if l.any (·.1 = p) then l.map (fun (k, x) => if k = p then (k, e) else (k, x))
      else l ++ [(p, e)]).find? (·.1 = q)).map (·.2) =
      if q = p then some e else (l.find? (·.1 = q)).map (·.2) := by
  split
  · rename_i hany
    -- the entry at `p` is replaced in place; every key stays where it was
    have hcomp : ((fun x : α × β => decide (x.1 = q)) ∘
        fun x : α × β => if x.1 = p then (x.1, e) else (x.1, x.2)) =
        fun x => decide (x.1 = q) := by
      funext x; by_cases h : x.1 = p <;> simp [h]
    rw [List.find?_map, hcomp, Option.map_map]
    cases hf : l.find? (·.1 = q) with
    | none =>
      by_cases hqp : q = p
      · subst hqp
        obtain ⟨x, hx, hxp⟩ := List.any_eq_true.1 hany
        rw [List.find?_eq_none] at hf
        exact absurd hxp (by simpa using hf x hx)
      · simp [hqp]
    | some x =>
      have hxq : x.1 = q := by simpa using List.find?_some hf
      by_cases hqp : q = p <;> simp [hqp, hxq]
  · rename_i hany
    rw [List.find?_append]
    by_cases hqp : q = p
    · subst hqp
      have : l.find? (·.1 = q) = none := by
        rw [List.find?_eq_none]
        intro x hx hxq
        exact hany (List.any_eq_true.2 ⟨x, hx, by simpa using hxq⟩)
      simp [this]
    · simp [hqp, Ne.symm hqp]

/-- The keys after an upsert: the same keys, with `p` added at the end when it was missing. -/
theorem keys_upsert_nodup {l : List (α × β)} {p : α} {e : β} (hl : (l.map Prod.fst).Nodup) :
    ((if l.any (·.1 = p) then l.map (fun (k, x) => if k = p then (k, e) else (k, x))
      else l ++ [(p, e)]).map Prod.fst).Nodup := by
  split
  · rename_i hany
    have : (l.map (fun (k, x) => if k = p then (k, e) else (k, x))).map Prod.fst = l.map Prod.fst := by
      rw [List.map_map]
      congr 1
      funext x; by_cases h : x.1 = p <;> simp [h]
    rwa [this]
  · rename_i hany
    rw [List.map_append, List.nodup_append]
    refine ⟨hl, by simp, ?_⟩
    simp only [List.mem_map, List.map_cons, List.map_nil, List.mem_singleton, ne_eq]
    rintro _ ⟨x, hx, rfl⟩ _ rfl hxp
    exact hany (List.any_eq_true.2 ⟨x, hx, by simpa using hxp⟩)

theorem mem_upsert {l : List (α × β)} {p : α} {e : β} {x : α × β}
    (hx : x ∈ (if l.any (·.1 = p) then l.map (fun (k, x) => if k = p then (k, e) else (k, x))
      else l ++ [(p, e)])) : x = (p, e) ∨ (x ∈ l ∧ x.1 ≠ p) := by
  split at hx
  · obtain ⟨y, hy, rfl⟩ := List.mem_map.1 hx
    by_cases h : y.1 = p
    · left; simp [h]
    · right; simpa [h] using hy
  · rename_i hany
    rcases List.mem_append.1 hx with hx | hx
    · exact .inr ⟨hx, fun h => hany (List.any_eq_true.2 ⟨x, hx, by simpa using h⟩)⟩
    · exact .inl (List.mem_singleton.1 hx)

end Entries

namespace Disk

/-- A disk as the operating system keeps it: one entry per path, each path normal and below the
root, and the directory above each entry present. -/
structure WellFormed (D : Disk) : Prop where
  nodup : (D.entries.map Prod.fst).Nodup
  normal : ∀ e ∈ D.entries, e.1.IsNormal ∧ e.1 ≠ rootPath
  parent : ∀ e ∈ D.entries, ∀ q, e.1.parent? = some q → D.find? q = some .dir

@[simp] theorem find?_rootPath (D : Disk) : D.find? rootPath = some .dir := by simp [find?]

theorem find?_of_ne_root {D : Disk} {p : Path} (hp : p ≠ rootPath) :
    D.find? p = (D.entries.find? (·.1 = p)).map (·.2) := by
  simp [find?, hp]

namespace WellFormed

variable {D : Disk} (hD : D.WellFormed)
include hD

theorem find?_eq_some_iff {p : Path} {e : DiskEntry} (hp : p ≠ rootPath) :
    D.find? p = some e ↔ (p, e) ∈ D.entries := by
  rw [find?_of_ne_root hp, find?_map_eq_some_iff hD.nodup]

/-- Every path on the disk is normal. -/
theorem isNormal_of_find? {p : Path} {e : DiskEntry} (h : D.find? p = some e) : p.IsNormal := by
  by_cases hp : p = rootPath
  · exact hp ▸ .root
  · exact (hD.normal _ ((hD.find?_eq_some_iff hp).1 h)).1

/-- The directory above a path on the disk is on the disk. -/
theorem find?_parent {p q : Path} {e : DiskEntry} (h : D.find? p = some e)
    (hq : p.parent? = some q) : D.find? q = some .dir := by
  by_cases hp : p = rootPath
  · subst hp; simp at hq
  · exact hD.parent _ ((hD.find?_eq_some_iff hp).1 h) q hq

/-- Every directory above a path on the disk is on the disk. -/
theorem find?_of_startsWith {p a : Path} {e : DiskEntry} (h : D.find? p = some e)
    (ha : p.startsWith a) (hne : a ≠ p) (ha0 : a.components ≠ []) : D.find? a = some .dir := by
  have hp := hD.isNormal_of_find? h
  induction hp generalizing e with
  | root =>
    obtain ⟨ac⟩ := a
    rw [Path.startsWith_iff] at ha
    rcases List.prefix_cons_iff.1 ha with h0 | ⟨t, rfl, htl⟩
    · exact absurd h0 ha0
    · exact absurd (by rw [List.prefix_nil.1 htl]; rfl) hne
  | @child q n hq _ ih =>
    have hdir := hD.find?_parent h (Path.parent?_child q n)
    by_cases haq : a = q
    · exact haq ▸ hdir
    · refine ih hdir ?_ haq
      obtain ⟨ac⟩ := a
      rw [Path.startsWith_iff] at ha ⊢
      rcases List.prefix_concat_iff.1 ha with heq | hpre
      · exact absurd (by simp [Path.child, ← heq]) hne
      · exact hpre

end WellFormed

/-! ## Walking a normal path -/

/-- The pieces of a normal path: the root's empty piece, then its names. -/
theorem pathPieces_child (p : Path) (n : String) :
    pathPieces (p.child n) = pathPieces p ++ [n] := by
  simp [pathPieces, Path.child]

/-- Walking a normal path whose directories are all on the disk ends at the path. -/
theorem walk_eq_ok {D : Disk} {p : Path} (hp : p.IsNormal)
    (hdirs : ∀ a, p.startsWith a → a ≠ p → a.components ≠ [] → D.find? a = some .dir) :
    (pathPieces p).foldlM D.stepInto rootPath = .ok p := by
  induction hp with
  | root => simp [pathPieces, rootPath, stepInto, find?]
  | @child q n hq hn ih =>
    have hq' : ∀ a, q.startsWith a → a ≠ q → a.components ≠ [] → D.find? a = some .dir :=
      fun a ha hne ha0 => hdirs a (Path.startsWith_trans (Path.child_startsWith q n) ha)
        (fun h => Path.child_ne_self q n
          (Path.startsWith_antisymm (Path.child_startsWith q n) (h ▸ ha))) ha0
    have hdir : D.find? q = some .dir :=
      hdirs q (Path.child_startsWith q n) (fun h => Path.child_ne_self q n h.symm)
        hq.components_ne_nil
    obtain ⟨hne, hdot, hdots, _⟩ := hn
    rw [pathPieces_child, List.foldlM_append, ih hq']
    simp [bind, Except.bind, pure, Except.pure, stepInto, hdir, hne, hdot, hdots,
      Path.push_plain hq.components_ne_nil ⟨hne, hdot, hdots, ‹_›⟩]

/-- A walk along a normal path that succeeds ends at the path. -/
theorem walk_eq_of_ok {D : Disk} {p q : Path} (hp : p.IsNormal)
    (h : (pathPieces p).foldlM D.stepInto rootPath = .ok q) : q = p := by
  induction hp generalizing q with
  | root =>
    simp [pathPieces, rootPath, stepInto, find?] at h
    exact h.symm
  | @child r n hr hn ih =>
    rw [pathPieces_child, List.foldlM_append] at h
    cases hw : (pathPieces r).foldlM D.stepInto rootPath with
    | error e => simp [hw] at h; cases h
    | ok y =>
      rw [hw, ih hw] at h
      obtain ⟨hne, hdot, hdots, hsl⟩ := hn
      have hpush := Path.push_plain hr.components_ne_nil ⟨hne, hdot, hdots, hsl⟩
      -- the last step succeeds only from a directory, and then appends the name
      cases hf : D.find? r with
      | none => simp [bind, Except.bind, stepInto, hf] at h
      | some e =>
        cases e <;> simp_all [bind, Except.bind, pure, Except.pure, stepInto]

/-! ## What a path holds -/

section Status

variable {D : Disk} {p : Path} {e : DiskEntry}

theorem WellFormed.status_eq_ok (hD : D.WellFormed) (h : D.find? p = some e) :
    D.status p = .ok e := by
  have hp := hD.isNormal_of_find? h
  have hwalk := walk_eq_ok hp fun a ha hne ha0 => hD.find?_of_startsWith h ha hne ha0
  simp [status, hp.isAbsolute, hwalk, h]

theorem find?_of_status (hp : p.IsNormal) (h : D.status p = .ok e) : D.find? p = some e := by
  unfold status at h
  simp only [hp.isAbsolute, if_true] at h
  split at h
  · cases h
  · rename_i q hq
    rw [walk_eq_of_ok hp hq] at h
    split at h <;> simp_all

theorem WellFormed.isFile_iff (hD : D.WellFormed) (hp : p.IsNormal) :
    D.isFile p = true ↔ ∃ b m, D.find? p = some (.file b m) := by
  cases hs : D.status p with
  | error err =>
    simp only [isFile, hs, Bool.false_eq_true, false_iff, not_exists]
    intro b m hf
    simp [hD.status_eq_ok hf] at hs
  | ok e =>
    have hf := find?_of_status hp hs
    cases e <;> simp [isFile, hs, hf]

theorem WellFormed.isDir_iff (hD : D.WellFormed) (hp : p.IsNormal) :
    D.isDir p = true ↔ D.find? p = some .dir := by
  cases hs : D.status p with
  | error err =>
    simp only [isDir, hs, Bool.false_eq_true, false_iff]
    intro hf
    simp [hD.status_eq_ok hf] at hs
  | ok e =>
    have hf := find?_of_status hp hs
    cases e <;> simp [isDir, hs, hf]

end Status

/-! ## Changing one path -/

theorem locate_normal {D : Disk} {p : Path} (hp : p.IsNormal) : D.locate p = p := by
  simp [locate, Path.join, hp.isAbsolute, hp.normalize_eq]

theorem find?_put {D : Disk} {p q : Path} {e : DiskEntry} (hp : p ≠ rootPath) :
    (D.put p e).find? q = if q = p then some e else D.find? q := by
  by_cases hq : q = rootPath
  · subst hq; simp [Ne.symm hp]
  rw [find?_of_ne_root hq, find?_of_ne_root hq]
  unfold put
  split <;> rename_i hany <;> simpa [hany] using find?_upsert (l := D.entries) (p := p) (q := q) (e := e)

theorem find?_removeAll {D : Disk} {p q : Path} (hp : p.IsNormal) :
    (D.removeAll p).find? q =
      if q ≠ rootPath ∧ q.startsWith p then none else D.find? q := by
  by_cases hq : q = rootPath
  · subst hq; simp
  rw [find?_of_ne_root hq, find?_of_ne_root hq]
  simp only [removeAll, locate_normal hp, ne_eq, hq, not_false_eq_true, true_and]
  rw [List.find?_filter]
  by_cases hqp : q.startsWith p
  · -- every entry at `q` lies below `p` and is gone
    have : D.entries.find? (fun x => !x.1.startsWith p && decide (x.1 = q)) = none := by
      rw [List.find?_eq_none]
      intro x _
      by_cases hx : x.1 = q <;> simp [hx, hqp]
    simp [this, hqp]
  · have hcongr : (fun x : Path × DiskEntry => !x.1.startsWith p && decide (x.1 = q)) =
        fun x => decide (x.1 = q) := by
      funext x; by_cases hx : x.1 = q <;> simp [hx, hqp]
    simp [hcongr, hqp]

namespace WellFormed

variable {D : Disk} (hD : D.WellFormed)
include hD

/-- Writing an entry where the directory above exists keeps a disk well formed, as long as a
directory is only ever replaced by a directory. -/
theorem put {p : Path} {e : DiskEntry} (hp : p.IsNormal) (hp0 : p ≠ rootPath)
    (hpar : ∀ q, p.parent? = some q → D.find? q = some .dir)
    (he : D.find? p = some .dir → e = .dir) : (D.put p e).WellFormed := by
  have hmem : ∀ x ∈ (D.put p e).entries, x = (p, e) ∨ (x ∈ D.entries ∧ x.1 ≠ p) := by
    intro x hx
    unfold Disk.put at hx
    split at hx <;> rename_i hany <;> exact mem_upsert (l := D.entries) (by simpa [hany] using hx)
  refine ⟨?_, ?_, ?_⟩
  · unfold Disk.put
    split <;> rename_i hany <;> simpa [hany] using keys_upsert_nodup (p := p) (e := e) hD.nodup
  · intro x hx
    rcases hmem x hx with rfl | ⟨hx, -⟩
    · exact ⟨hp, hp0⟩
    · exact hD.normal x hx
  · intro x hx q hq
    rw [find?_put hp0]
    rcases hmem x hx with rfl | ⟨hx, hxp⟩
    · -- the new entry's directory is the one the write needs
      have hqp : q ≠ p := by
        rintro rfl
        obtain ⟨-, n, -, hn⟩ := hp.parent? hq
        exact Path.child_ne_self q n hn.symm
      simpa [hqp] using hpar q hq
    · -- an old entry's directory stays, replaced at most by a directory
      have hdir := hD.parent x hx q hq
      by_cases hqp : q = p
      · subst hqp; simp [he hdir]
      · simpa [hqp] using hdir

/-- Removing a path and everything below it keeps a disk well formed. -/
theorem removeAll {p : Path} (hp : p.IsNormal) : (D.removeAll p).WellFormed := by
  have hmem : ∀ x ∈ (D.removeAll p).entries, x ∈ D.entries ∧ x.1.startsWith p = false := by
    intro x hx
    simpa [Disk.removeAll, locate_normal hp] using hx
  refine ⟨?_, ?_, ?_⟩
  · exact (List.filter_sublist.map Prod.fst).nodup hD.nodup
  · exact fun x hx => hD.normal x (hmem x hx).1
  · intro x hx q hq
    obtain ⟨hx, hxp⟩ := hmem x hx
    rw [find?_removeAll hp]
    -- the directory above a kept entry is not below `p`, or the entry would be too
    have hkeep : ¬ (q ≠ rootPath ∧ q.startsWith p) := by
      rintro ⟨-, hqp⟩
      obtain ⟨-, n, -, hn⟩ := (hD.normal x hx).1.parent? hq
      have : x.1.startsWith p := by rw [hn]; exact Path.startsWith_trans (Path.child_startsWith q n) hqp
      simp [this] at hxp
    simpa [hkeep] using hD.parent x hx q hq

/-- Nothing lies strictly below a path that is no directory. -/
theorem find?_below {p q : Path} (hp : D.find? p ≠ some .dir) (hp0 : p.components ≠ [])
    (hq : q.startsWith p) (hne : q ≠ p) : D.find? q = none := by
  cases h : D.find? q with
  | none => rfl
  | some e => exact absurd (hD.find?_of_startsWith h hq (Ne.symm hne) hp0) hp

/-- Two well-formed disks that agree at a normal path agree on whether it is a file. -/
theorem isFile_congr {D' : Disk} (hD' : D'.WellFormed) {q : Path} (hq : q.IsNormal)
    (h : D'.find? q = D.find? q) : D'.isFile q = D.isFile q := by
  apply Bool.eq_iff_iff.2
  rw [hD'.isFile_iff hq, hD.isFile_iff hq, h]

/-- Two well-formed disks that agree at a normal path agree on whether it is a directory. -/
theorem isDir_congr {D' : Disk} (hD' : D'.WellFormed) {q : Path} (hq : q.IsNormal)
    (h : D'.find? q = D.find? q) : D'.isDir q = D.isDir q := by
  apply Bool.eq_iff_iff.2
  rw [hD'.isDir_iff hq, hD.isDir_iff hq, h]

/-- The files below a normal directory are the file entries strictly below it. -/
theorem mem_filesUnder {r f : Path} (hr : r.IsNormal) :
    f ∈ D.filesUnder r ↔ (∃ b m, D.find? f = some (.file b m)) ∧ f.startsWith r ∧ f ≠ r := by
  simp only [Disk.filesUnder, locate_normal hr, hr.isAbsolute, if_true, List.mem_filterMap]
  constructor
  · rintro ⟨⟨q, e⟩, hq, he⟩
    cases e with
    | dir => simp at he
    | file b m =>
      simp only [Bool.and_eq_true, bne_iff_ne, ne_eq] at he
      by_cases hc : q.startsWith r = true ∧ ¬ q = r
      · rw [if_pos hc, Option.some.injEq] at he
        subst he
        exact ⟨⟨b, m, (hD.find?_eq_some_iff (hD.normal _ hq).2).2 hq⟩, hc⟩
      · simp [hc] at he
  · rintro ⟨⟨b, m, hf⟩, hfr, hne⟩
    have hf0 : f ≠ rootPath := by rintro rfl; simp at hf
    exact ⟨(f, .file b m), (hD.find?_eq_some_iff hf0).1 hf, by simp [hfr, hne]⟩

end WellFormed

/-- The proper ancestors of a path lead it and are shorter. -/
theorem mem_ancestors {a g : Path} (h : a ∈ ancestors g) :
    g.startsWith a ∧ a.components.length < g.components.length := by
  obtain ⟨n, hn, rfl⟩ := List.mem_map.1 h
  have hlt : n < g.components.length := List.mem_range.1 (List.mem_of_mem_drop hn)
  refine ⟨Path.startsWith_iff.2 (List.take_prefix n _), ?_⟩
  simp only [List.length_take]
  omega

end Disk

end ModuleBundler
