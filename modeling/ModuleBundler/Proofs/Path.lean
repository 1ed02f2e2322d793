import ModuleBundler.Disk.Basic
import ModuleBundler.Proofs.Text

/-!
# Normal paths

The paths the file tree holds are absolute and normal: the root followed by plain names, each
non-empty, neither `.` nor `..`, and free of `/`. Such a path is built from the root one name at
a time (`Path.child`), and every operation that appends a name by way of its text (`Path.push`)
appends exactly that component.

This module gives the shape of normal paths under `parent?`, `fileName?`, `normalize` and
`startsWith`, which is what the tree and the disk need to walk up and down a path.
-/

namespace ModuleBundler

/-- A name a component holds when it comes from the text of a path: non-empty, neither `.` nor
`..`, and without `/`. -/
def Component.Plain (s : String) : Prop := s ≠ "" ∧ s ≠ "." ∧ s ≠ ".." ∧ '/' ∉ s.toList

instance : DecidablePred Component.Plain :=
  fun s => inferInstanceAs (Decidable (s ≠ "" ∧ s ≠ "." ∧ s ≠ ".." ∧ ('/' ∉ s.toList)))

/-- A component that is a plain name. -/
def Component.PlainName : Component → Prop
  | .name s => Component.Plain s
  | _ => False

instance : DecidablePred Component.PlainName
  | .name s => inferInstanceAs (Decidable (Component.Plain s))
  | .root => isFalse id
  | .current => isFalse id
  | .parent => isFalse id

namespace Path

/-- The path one name below `p`. -/
def child (p : Path) (n : String) : Path := ⟨p.components ++ [.name n]⟩

/-- An absolute path in normal form: the root, then plain names one at a time. -/
inductive IsNormal : Path → Prop
  | root : IsNormal Disk.rootPath
  | child {p : Path} {n : String} : IsNormal p → Component.Plain n → IsNormal (p.child n)

/-! ## Splitting a plain name -/

theorem not_startsWith_of_not_mem {s pre : String} (h : '/' ∉ s.toList) (hpre : '/' ∈ pre.toList) :
    s.startsWith pre = false := by
  rw [String.startsWith_string_eq_false_iff]
  exact fun hp => h (hp.subset hpre)

/-- A plain name reads as the one component it names. -/
theorem ofString_plain {n : String} (hn : Component.Plain n) : ofString n = ⟨[.name n]⟩ := by
  obtain ⟨hne, hdot, hdots, hslash⟩ := hn
  have hpieces : pieces n = [n] := by
    simp [pieces, Text.splitOnChar_of_not_mem hslash, hne, hdot]
  have habs : n.startsWith "/" = false := not_startsWith_of_not_mem hslash (by decide)
  have hdotslash : n.startsWith "./" = false := not_startsWith_of_not_mem hslash (by decide)
  have hcur : leadsWithCurrent n = false := by
    simp [leadsWithCurrent, hdot, hdotslash]
  simp [ofString, hpieces, habs, hcur, Component.ofPiece, hdots]

/-- Pushing a plain name onto a non-empty path appends its component. -/
theorem push_plain {p : Path} {n : String} (hp : p.components ≠ []) (hn : Component.Plain n) :
    p.push n = p.child n := by
  simp [push, join, ofString_plain hn, isAbsolute, isEmpty, hp, child]

/-! ## Parents and names -/

@[simp] theorem parent?_child (p : Path) (n : String) : (p.child n).parent? = some p := by
  simp [parent?, child]

@[simp] theorem fileName?_child (p : Path) (n : String) : (p.child n).fileName? = some n := by
  simp [fileName?, child]

@[simp] theorem child_components (p : Path) (n : String) :
    (p.child n).components = p.components ++ [.name n] := rfl

theorem child_ne_rootPath (p : Path) (n : String) : p.child n ≠ Disk.rootPath := by
  intro h
  have := congrArg (fun q : Path => q.components.getLast?) h
  simp [child, Disk.rootPath] at this

theorem child_ne_self (p : Path) (n : String) : p.child n ≠ p := by
  intro h
  have := congrArg (fun q : Path => q.components.length) h
  simp at this

theorem child_injective {p q : Path} {n m : String} (h : p.child n = q.child m) :
    p = q ∧ n = m := by
  obtain ⟨h1, h2⟩ := List.append_inj' (congrArg Path.components h) rfl
  cases p; cases q
  simp_all

@[simp] theorem parent?_rootPath : Disk.rootPath.parent? = none := rfl

namespace IsNormal

theorem components_ne_nil {p : Path} (h : p.IsNormal) : p.components ≠ [] := by
  cases h <;> simp [Disk.rootPath]

theorem isAbsolute {p : Path} (h : p.IsNormal) : p.isAbsolute = true := by
  have : ∃ t, p.components = .root :: t := by
    induction h with
    | root => exact ⟨[], rfl⟩
    | @child q n _ _ ih => obtain ⟨t, ht⟩ := ih; exact ⟨t ++ [.name n], by simp [ht]⟩
  obtain ⟨t, ht⟩ := this
  simp [Path.isAbsolute, ht]

/-- A normal path is the root or one plain name below a normal path. -/
theorem cases_child {p : Path} (h : p.IsNormal) :
    p = Disk.rootPath ∨ ∃ (q : Path) (n : String), q.IsNormal ∧ Component.Plain n ∧ p = q.child n := by
  cases h with
  | root => exact .inl rfl
  | child hq hn => exact .inr ⟨_, _, hq, hn, rfl⟩

/-- The parent of a normal path is normal, and the path is one name below it. -/
theorem parent? {p q : Path} (h : p.IsNormal) (hq : p.parent? = some q) :
    q.IsNormal ∧ ∃ n, Component.Plain n ∧ p = q.child n := by
  rcases h.cases_child with rfl | ⟨r, n, hr, hn, rfl⟩
  · simp at hq
  · simp only [parent?_child, Option.some.injEq] at hq
    subst hq
    exact ⟨hr, n, hn, rfl⟩

/-- Normalizing a normal path changes nothing. -/
theorem normalize_eq {p : Path} (h : p.IsNormal) : p.normalize = p := by
  have hfold : ∀ {q : Path}, q.IsNormal → q.components.foldl normalize.step [] = q.components := by
    intro q hq
    induction hq with
    | root => rfl
    | child _ _ ih => simp [List.foldl_append, ih, normalize.step]
  simp [normalize, hfold h, h.components_ne_nil]

/-- A non-empty leading part of a normal path is normal. -/
theorem of_prefix {p : Path} {qc : List Component} (h : p.IsNormal) (hq : qc <+: p.components)
    (hne : qc ≠ []) : IsNormal ⟨qc⟩ := by
  induction h with
  | root =>
    rcases List.prefix_cons_iff.1 hq with h0 | ⟨t, rfl, htl⟩
    · exact absurd h0 hne
    · rw [List.prefix_nil.1 htl]; exact .root
  | @child r n hr hn ih =>
    rcases List.prefix_concat_iff.1 hq with rfl | hpre
    · exact .child hr hn
    · exact ih hpre

/-- The last name of a normal path is plain. -/
theorem plain_of_child {p : Path} {n : String} (h : (p.child n).IsNormal) : Component.Plain n := by
  obtain ⟨-, m, hm, heq⟩ := h.parent? (parent?_child p n)
  rw [(child_injective heq).2]
  exact hm

/-- The root followed by plain names is normal. -/
theorem of_names (t : List Component) (h : ∀ c ∈ t, c.PlainName) : IsNormal ⟨.root :: t⟩ := by
  -- build the path up from the root, one name at a time: induction on the number of names
  induction hlen : t.length generalizing t with
  | zero => rw [List.length_eq_zero_iff.1 hlen]; exact .root
  | succ k ih =>
    rcases List.eq_nil_or_concat t with rfl | ⟨t', c, rfl⟩
    · simp at hlen
    · have hc := h c (by simp)
      cases c with
      | name s =>
        have ht := ih t' (fun c hc => h c (by simp [hc])) (by simpa using hlen)
        have heq : (Path.mk (.root :: t')).child s = ⟨.root :: t'.concat (.name s)⟩ := by
          simp only [Path.child, List.concat_eq_append, List.cons_append]
        exact heq ▸ .child ht hc
      | root => exact hc.elim
      | current => exact hc.elim
      | parent => exact hc.elim

/-- A normal path is the root followed by plain names. -/
theorem names {p : Path} (h : p.IsNormal) :
    p.components.head? = some .root ∧ ∀ c ∈ p.components.tail, c.PlainName := by
  induction h with
  | root => simp [Disk.rootPath]
  | @child q n hq hn ih =>
    obtain ⟨hhead, htail⟩ := ih
    obtain ⟨t, ht⟩ : ∃ t, q.components = .root :: t := by
      cases hc : q.components with
      | nil => simp [hc] at hhead
      | cons c t => simp only [hc, List.head?_cons, Option.some.injEq] at hhead; exact ⟨t, by rw [hhead]⟩
    simp only [ht, List.tail_cons] at htail
    refine ⟨by simp [ht], fun c hc => ?_⟩
    simp only [child_components, ht, List.cons_append, List.tail_cons, List.mem_append,
      List.mem_singleton] at hc
    rcases hc with hc | rfl
    · exact htail c hc
    · exact hn

theorem iff_names {p : Path} :
    p.IsNormal ↔ p.components.head? = some .root ∧ ∀ c ∈ p.components.tail, c.PlainName := by
  refine ⟨names, fun ⟨hhead, htail⟩ => ?_⟩
  obtain ⟨pc⟩ := p
  cases pc with
  | nil => simp at hhead
  | cons c t =>
    simp only [List.head?_cons, Option.some.injEq] at hhead
    subst hhead
    exact of_names t htail

end IsNormal

instance : DecidablePred IsNormal := fun _ => decidable_of_iff _ IsNormal.iff_names.symm

/-! ## Leading components -/

theorem startsWith_iff {p q : Path} : p.startsWith q ↔ q.components <+: p.components := by
  simp [startsWith]

@[simp] theorem startsWith_refl (p : Path) : p.startsWith p := by simp [startsWith_iff]

theorem startsWith_trans {p q r : Path} (h₁ : p.startsWith q) (h₂ : q.startsWith r) :
    p.startsWith r := by
  rw [startsWith_iff] at *
  exact h₂.trans h₁

@[simp] theorem child_startsWith (p : Path) (n : String) : (p.child n).startsWith p := by
  simp [startsWith_iff]

/-- What leads a path one name below `r` leads `r`, or is that path. -/
theorem child_startsWith_iff {r p : Path} {n : String} :
    (r.child n).startsWith p ↔ p = r.child n ∨ r.startsWith p := by
  obtain ⟨pc⟩ := p
  simp only [startsWith_iff, child_components, List.prefix_concat_iff]
  constructor
  · rintro (h | h)
    · left; simp [child, h]
    · exact .inr h
  · rintro (h | h)
    · left; simp only [child, Path.mk.injEq] at h; exact h
    · exact .inr h

theorem startsWith_of_startsWith_child {p q : Path} {n : String} (h : q.startsWith (p.child n)) :
    q.startsWith p :=
  startsWith_trans h (child_startsWith p n)

/-- Two leading parts of one path lead one another. -/
theorem startsWith_total {p a b : Path} (ha : p.startsWith a) (hb : p.startsWith b) :
    a.startsWith b ∨ b.startsWith a := by
  simp only [startsWith_iff] at *
  exact List.prefix_or_prefix_of_prefix hb ha

theorem startsWith_antisymm {p q : Path} (h₁ : p.startsWith q) (h₂ : q.startsWith p) : p = q := by
  rw [startsWith_iff] at h₁ h₂
  cases p; cases q
  simpa using h₂.eq_of_length_le h₁.length_le

theorem ne_child_of_startsWith {r a : Path} {n : String} (h : r.startsWith a) : a ≠ r.child n :=
  fun h' => child_ne_self r n (startsWith_antisymm (child_startsWith r n) (h' ▸ h))

theorem length_lt_of_startsWith {p q : Path} (h : p.startsWith q) (hne : p ≠ q) :
    q.components.length < p.components.length := by
  rw [startsWith_iff] at h
  refine Nat.lt_of_le_of_ne h.length_le fun hl => hne ?_
  cases p; cases q
  simpa using (h.eq_of_length hl).symm

/-- A non-empty path leading a normal path is normal. -/
theorem IsNormal.of_startsWith {p a : Path} (hp : p.IsNormal) (h : p.startsWith a)
    (ha : a.components ≠ []) : a.IsNormal := by
  obtain ⟨ac⟩ := a
  exact hp.of_prefix (startsWith_iff.1 h) ha

end Path

end ModuleBundler
