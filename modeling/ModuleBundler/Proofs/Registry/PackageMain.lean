import ModuleBundler.Registry.Package
import ModuleBundler.Proofs.Path

/-!
# A package's main and its replacement map

A package's replacement map (its `react-native` field, else its `browser` field, when that is an
object) redirects requires made from inside the package. An absolute require inside the package
is looked up as `./rel`, `./rel.js` and `./rel.json`, the first key holding `false` or a string
deciding (`redirectRequire_inside`). The main module is looked up under its own spellings: the
main field as written, with `.js` and `.json` appended, without a `.js` or `.json` suffix, and
with a leading `./`; the first key holding a string decides (`Package.main`).

The two agree on a main written as plain names `r` joined by `/`, with or without a leading
`./`, the default `index` included, as long as the map holds no string under a spelling only one
of them tries (`main_follows_redirect`): the main without its `.js` or `.json` suffix, and for a
main written without `./` its bare spellings and `./r.json`. Such a key does decide the main
alone: `lib/main` as it stands moves a main written `lib/main` while a require of its path is
left alone (`main_follows_bare_key`).
-/

namespace ModuleBundler

/-! ## Paths and their text -/

namespace Path

/-- A normal path is the root followed by plain names. -/
theorem IsNormal.exists_names {q : Path} (hq : q.IsNormal) :
    ∃ ns : List String, (∀ n ∈ ns, Component.Plain n) ∧ q = ⟨.root :: ns.map .name⟩ := by
  obtain ⟨hhead, htail⟩ := hq.names
  obtain ⟨qc⟩ := q
  cases qc with
  | nil => simp at hhead
  | cons c t =>
    simp only [List.head?_cons, Option.some.injEq] at hhead
    subst hhead
    -- each later component is a name, and stands for its own text
    have hname : ∀ c ∈ t, Component.name c.text = c ∧ Component.Plain c.text := by
      intro c hc
      have := htail c hc
      cases c with
      | name s => exact ⟨rfl, this⟩
      | root => exact this.elim
      | current => exact this.elim
      | parent => exact this.elim
    refine ⟨t.map Component.text, fun n hn => ?_, ?_⟩
    · obtain ⟨c, hc, rfl⟩ := List.mem_map.1 hn
      exact (hname c hc).2
    · simp only [List.map_map, Path.mk.injEq, List.cons.injEq, true_and]
      exact (List.map_congr_left fun c hc => (hname c hc).1).trans (List.map_id t) |>.symm

/-- Plain names joined by `/` split back into those names, after a leading empty or `.` piece,
which reads as nothing. -/
theorem pieces_plain {first : String} (hfirst : first = "" ∨ first = ".") {rs : List String}
    (hrs : ∀ n ∈ rs, Component.Plain n) : pieces ("/".intercalate (first :: rs)) = rs := by
  have hsplit : Text.splitOnChar ("/".intercalate (first :: rs)) '/' = first :: rs :=
    Text.splitOnChar_intercalate (by simp) fun n hn => by
      rcases List.mem_cons.1 hn with rfl | hn
      · rcases hfirst with rfl | rfl <;> simp
      · exact (hrs n hn).2.2.2
  rw [pieces, hsplit, List.filter_cons]
  have hdrop : (first != "" && first != ".") = false := by rcases hfirst with rfl | rfl <;> rfl
  rw [hdrop, if_neg Bool.false_ne_true]
  exact List.filter_eq_self.2 fun n hn => by
    obtain ⟨hne, hdot, -, -⟩ := hrs n hn
    simp [hne, hdot]

/-- Plain names read as names. -/
theorem map_ofPiece_plain {rs : List String} (hrs : ∀ n ∈ rs, Component.Plain n) :
    rs.map Component.ofPiece = rs.map .name :=
  List.map_congr_left fun n hn => by simp [Component.ofPiece, (hrs n hn).2.2.1]

/-- Plain names joined by `/` split back into those names. -/
theorem pieces_names {rs : List String} (hne : rs ≠ []) (hrs : ∀ n ∈ rs, Component.Plain n) :
    pieces ("/".intercalate rs) = rs := by
  have hsplit : Text.splitOnChar ("/".intercalate rs) '/' = rs :=
    Text.splitOnChar_intercalate hne fun n hn => (hrs n hn).2.2.2
  rw [pieces, hsplit]
  exact List.filter_eq_self.2 fun n hn => by
    obtain ⟨hne, hdot, -, -⟩ := hrs n hn
    simp [hne, hdot]

/-- Plain names joined by `/` do not start with `/`. -/
theorem startsWith_slash_names {rs : List String} (hne : rs ≠ [])
    (hrs : ∀ n ∈ rs, Component.Plain n) : ("/".intercalate rs).startsWith "/" = false := by
  obtain ⟨r, rs', rfl⟩ := List.exists_cons_of_ne_nil hne
  obtain ⟨hr, -, -, hslash⟩ := hrs r List.mem_cons_self
  have htext : ∃ t, "/".intercalate (r :: rs') = r ++ t := by
    cases rs' with
    | nil => exact ⟨"", by simp⟩
    | cons r' rs' => exact ⟨_, by rw [String.intercalate_cons_cons, String.append_assoc]⟩
  obtain ⟨t, ht⟩ := htext
  rw [ht, Bool.eq_false_iff, ne_eq, String.startsWith_string_iff, String.toList_append]
  intro h
  cases hl : r.toList with
  | nil => exact hr (String.toList_eq_nil_iff.1 hl)
  | cons a rest =>
    -- the first character of the first name would be the separator
    have hs : "/".toList = ['/'] := by decide
    rw [hl, hs, List.cons_append, List.cons_prefix_cons] at h
    exact hslash (by rw [hl, h.1]; simp)

theorem intercalate_names (rs : List String) :
    "/".intercalate ((rs.map Component.name).map Component.text) = "/".intercalate rs := by
  simp [List.map_map, Function.comp_def, Component.text]

/-- A text with a leading `/` starts with `/`. -/
theorem startsWith_slash (t : String) : ("/" ++ t).startsWith "/" = true := by
  rw [String.startsWith_string_iff, String.toList_append]
  exact List.prefix_append _ _

/-- A normal path reads back from its text. -/
theorem ofString_toString_names {ns : List String} (hns : ∀ n ∈ ns, Component.Plain n) :
    ofString (Path.mk (.root :: ns.map .name)).toString = ⟨.root :: ns.map .name⟩ := by
  cases ns with
  | nil => decide +kernel
  | cons n ns =>
    have htext : (Path.mk (.root :: (n :: ns).map .name)).toString =
        "/" ++ "/".intercalate (n :: ns) := by
      rw [toString]
      dsimp only
      rw [intercalate_names]
    have hsplit : "/" ++ "/".intercalate (n :: ns) = "/".intercalate ("" :: n :: ns) := by
      rw [String.intercalate_cons_cons, String.empty_append]
    rw [htext, ofString, if_pos (startsWith_slash _), hsplit, pieces_plain (.inl rfl) hns,
      map_ofPiece_plain hns]

/-- A plain name never starts with `./`, whatever follows it. -/
theorem startsWith_dotSlash_plain {r : String} (hr : Component.Plain r) (t : String) :
    (r ++ t).startsWith "./" = false := by
  obtain ⟨hne, hdot, -, hslash⟩ := hr
  rw [Bool.eq_false_iff, ne_eq, String.startsWith_string_iff, String.toList_append]
  intro h
  have hds : "./".toList = ['.', '/'] := by decide
  rw [hds] at h
  cases hr : r.toList with
  | nil => exact hne (String.toList_eq_nil_iff.1 hr)
  | cons a rest =>
    rw [hr, List.cons_append, List.cons_prefix_cons] at h
    cases rest with
    | nil => exact hdot (String.toList_inj.1 (by rw [hr, ← h.1]; decide))
    | cons b rest =>
      -- the second character of the name would be the separator
      have hb := (List.cons_prefix_cons.1 h.2).1
      exact hslash (by rw [hr, ← hb]; simp)

/-- Plain names joined by `/` do not start with `./`. -/
theorem startsWith_dotSlash_names {rs : List String} (hne : rs ≠ [])
    (hrs : ∀ n ∈ rs, Component.Plain n) : ("/".intercalate rs).startsWith "./" = false := by
  obtain ⟨r, rs', rfl⟩ := List.exists_cons_of_ne_nil hne
  have hr := hrs r List.mem_cons_self
  cases rs' with
  | nil => simpa using startsWith_dotSlash_plain hr ""
  | cons r' rs' =>
    rw [String.intercalate_cons_cons, String.append_assoc]
    exact startsWith_dotSlash_plain hr _

theorem startsWith_dotSlash (t : String) : ("./" ++ t).startsWith "./" = true := by
  rw [String.startsWith_string_iff, String.toList_append]
  exact List.prefix_append _ _

/-- Plain names joined by `/` read as those names, relative. -/
theorem ofString_names {rs : List String} (hne : rs ≠ []) (hrs : ∀ n ∈ rs, Component.Plain n) :
    ofString ("/".intercalate rs) = ⟨rs.map .name⟩ := by
  have hcur : leadsWithCurrent ("/".intercalate rs) = false := by
    rw [leadsWithCurrent, startsWith_dotSlash_names hne hrs, Bool.or_false, beq_eq_false_iff_ne]
    -- the text `.` has no pieces, while plain names have some
    intro h
    have hpieces := pieces_names hne hrs
    rw [h] at hpieces
    exact hne (hpieces.symm.trans (by decide +kernel))
  simp only [ofString, startsWith_slash_names hne hrs, hcur, pieces_names hne hrs,
    map_ofPiece_plain hrs]
  rfl

/-- `./` followed by plain names is the current directory followed by those names. -/
theorem ofString_dotSlash {rs : List String} (hne : rs ≠ []) (hrs : ∀ n ∈ rs, Component.Plain n) :
    ofString ("./" ++ "/".intercalate rs) = ⟨.current :: rs.map .name⟩ := by
  obtain ⟨r, rs', rfl⟩ := List.exists_cons_of_ne_nil hne
  have hsplit : "./" ++ "/".intercalate (r :: rs') = "/".intercalate ("." :: r :: rs') := by
    rw [String.intercalate_cons_cons, String.append_assoc]
    rfl
  have hroot : ("./" ++ "/".intercalate (r :: rs')).startsWith "/" = false := by
    have hds : "./".toList = ['.', '/'] := by decide
    have hs : "/".toList = ['/'] := by decide
    rw [Bool.eq_false_iff, ne_eq, String.startsWith_string_iff, String.toList_append, hds, hs,
      List.cons_append, List.cons_prefix_cons]
    simp
  have hcur : leadsWithCurrent ("./" ++ "/".intercalate (r :: rs')) = true := by
    rw [leadsWithCurrent, startsWith_dotSlash, Bool.or_true]
  simp only [ofString, hroot, hcur]
  rw [hsplit, pieces_plain (.inr rfl) hrs, map_ofPiece_plain hrs]
  rfl

/-- Appending `./` and names to a directory of names appends the names. -/
theorem join_names (ns rs : List String) :
    (Path.mk (.root :: ns.map .name)).join ⟨.current :: rs.map .name⟩ =
      ⟨.root :: (ns ++ rs).map .name⟩ := by
  have hkeep : (rs.map Component.name).filter (· != .current) = rs.map .name :=
    List.filter_eq_self.2 fun c hc => by
      obtain ⟨n, -, rfl⟩ := List.mem_map.1 hc
      rfl
  simp [join, isAbsolute, isEmpty, hkeep]

/-- Below a directory of names, the text of further names is that text. -/
theorem relativeSlash?_names (ns rs : List String) :
    (Path.mk (.root :: ns.map .name)).relativeSlash? ⟨.root :: (ns ++ rs).map .name⟩ =
      some ("/".intercalate rs) := by
  simp [relativeSlash?, stripPrefix?, startsWith, List.isPrefixOf_iff_prefix, Function.comp_def,
    Component.text]

/-- Below a normal directory, plain names written with or without a leading `./` name the normal
path that appends them. -/
theorem join_names_normalize {root : Path} {ns rs : List String} {pre : String}
    (hroot : root = ⟨.root :: ns.map .name⟩) (hns : ∀ n ∈ ns, Component.Plain n)
    (hpre : pre = "" ∨ pre = "./") (hne : rs ≠ []) (hrs : ∀ n ∈ rs, Component.Plain n) :
    (root.join (ofString (pre ++ "/".intercalate rs))).normalize =
      ⟨.root :: (ns ++ rs).map .name⟩ := by
  have hjoin : root.join (ofString (pre ++ "/".intercalate rs)) =
      ⟨.root :: (ns ++ rs).map .name⟩ := by
    rcases hpre with rfl | rfl
    · -- bare names: the first is a name, not the root
      obtain ⟨r, rs', rfl⟩ := List.exists_cons_of_ne_nil hne
      rw [String.empty_append, ofString_names hne hrs, hroot]
      simp [join, isAbsolute, isEmpty]

    · rw [ofString_dotSlash hne hrs, hroot, join_names]
  rw [hjoin]
  refine IsNormal.normalize_eq (IsNormal.of_names _ fun c hc => ?_)
  obtain ⟨n, hn, rfl⟩ := List.mem_map.1 hc
  rcases List.mem_append.1 hn with hn | hn
  · exact hns n hn
  · exact hrs n hn

/-- The path plain names name below a normal directory, written with or without a leading `./`,
is absolute, and below the directory it reads as the names again. -/
theorem names_relative {root : Path} (hroot : root.IsNormal) {pre : String}
    (hpre : pre = "" ∨ pre = "./") {rs : List String} (hne : rs ≠ [])
    (hrs : ∀ n ∈ rs, Component.Plain n) :
    let q := (root.join (ofString (pre ++ "/".intercalate rs))).normalize
    q.toString.startsWith "/" = true ∧
      root.relativeSlash? (ofString q.toString) = some ("/".intercalate rs) := by
  intro q
  obtain ⟨ns, hns, hrootEq⟩ := hroot.exists_names
  have hq : q = ⟨.root :: (ns ++ rs).map .name⟩ := join_names_normalize hrootEq hns hpre hne hrs
  refine ⟨by rw [hq]; exact startsWith_slash _, ?_⟩
  rw [hq, ofString_toString_names (List.forall_mem_append.2 ⟨hns, hrs⟩), hrootEq,
    relativeSlash?_names]

end Path

namespace Json

theorem obj?_eq_some {j : Json} {fs : List (String × Json)} : j.obj? = some fs ↔ j = .obj fs := by
  cases j <;> simp [obj?]

end Json

/-! ## The main and the redirect of its path -/

namespace Package

/-- A text after `./` that does not itself start with `./` is what dropping `./` leaves. -/
theorem dropDotSlash_dotSlash {s : String} (hs : s.startsWith "./" = false) :
    dropDotSlash ("./" ++ s) = s := by
  have hlen : ("./" ++ s).length + 1 = (s.length + 1) + 1 + 1 := by
    have h2 : "./".length = 2 := by decide
    rw [String.length_append, h2]
    omega
  have hdrop : String.ofList (("./" ++ s).toList.drop 2) = s := by
    simp [String.toList_append]
  rw [dropDotSlash, hlen, dropDotSlash.go, if_pos (Path.startsWith_dotSlash s), hdrop,
    dropDotSlash.go, hs]
  rfl

/-- A text that does not start with `./` has none to drop. -/
theorem dropDotSlash_of_startsWith {s : String} (hs : s.startsWith "./" = false) :
    dropDotSlash s = s := by
  rw [dropDotSlash, dropDotSlash.go, hs]
  rfl

/-- Plain names written with or without a leading `./` are those names once `./` is dropped. -/
theorem dropDotSlash_names {pre : String} (hpre : pre = "" ∨ pre = "./") {rs : List String}
    (hne : rs ≠ []) (hrs : ∀ n ∈ rs, Component.Plain n) :
    dropDotSlash (pre ++ "/".intercalate rs) = "/".intercalate rs := by
  rcases hpre with rfl | rfl
  · exact dropDotSlash_of_startsWith (Path.startsWith_dotSlash_names hne hrs)
  · exact dropDotSlash_dotSlash (Path.startsWith_dotSlash_names hne hrs)

section Search

variable {α : Type} {f : α → Option String} {g : α → Option Redirect} {T : String → String}

/-- A search that stops at the first redirect or suppression, read with `unchanged` for no hit,
against a search for the first string: when each item is a miss of both, a suppression, or a
redirect to what the second search finds there, a redirect is to what the second finds, and no
hit at all means the second finds nothing either. -/
theorem findSome?_redirect
    (hentry : ∀ a, (g a = none ∧ f a = none) ∨ g a = some .suppressed ∨
      ∃ s, f a = some s ∧ g a = some (.to (T s)))
    (l : List α) :
    (∀ x, (l.findSome? g).getD .unchanged = .to x → ∃ s, l.findSome? f = some s ∧ x = T s) ∧
      ((l.findSome? g).getD .unchanged = .unchanged → l.findSome? f = none) := by
  induction l with
  | nil => exact ⟨fun x hx => (by cases hx), fun _ => rfl⟩
  | cons a l ih =>
    rcases hentry a with ⟨hg, hf⟩ | hg | ⟨s, hf, hg⟩
    · simpa only [List.findSome?_cons, hg, hf] using ih
    · simp only [List.findSome?_cons, hg, Option.getD_some]
      exact ⟨fun x hx => (by cases hx), fun h => (by cases h)⟩
    · simp only [List.findSome?_cons, hg, hf, Option.getD_some]
      exact ⟨fun x hx => ⟨s, rfl, (Redirect.to.inj hx).symm⟩, fun h => (by cases h)⟩

end Search

/-- An absolute require inside the package, `r` below its directory, is redirected to the first
string the map holds under `./r`, `./r.js` and `./r.json`, unless an earlier key suppresses it;
it is left alone when none of them holds a string. -/
theorem redirectRequire_inside {p : Package} {map : List (String × Json)}
    (hmap : p.replacementMap? = some map) {name r : String} (hslash : name.startsWith "/" = true)
    (hrel : p.root.relativeSlash? (Path.ofString name) = some r) :
    (∀ t, p.redirectRequire name = .to t → ∃ s,
      (redirectExts.findSome? fun ext => (map.lookup ("./" ++ r ++ ext)).bind Json.str?) = some s ∧
        t = (p.root.join (Path.ofString s)).normalize.toString) ∧
    (p.redirectRequire name = .unchanged →
      (redirectExts.findSome? fun ext => (map.lookup ("./" ++ r ++ ext)).bind Json.str?) =
        none) := by
  simp only [redirectRequire, hmap, hslash, hrel, Bool.not_true, Bool.false_eq_true, if_false]
  refine findSome?_redirect (fun ext => ?_) redirectExts
  -- an entry `false` suppresses, a string redirects, anything else is a miss
  cases map.lookup ("./" ++ r ++ ext) with
  | none => simp
  | some j =>
    cases j with
    | bool b => cases b <;> simp [Json.str?]
    | _ => simp [Json.str?]

/-- A main written as plain names joined by `/`, with or without a leading `./`, or the default
`index`, honours the replacement map as a require of its path does, when the map holds no string
under a spelling only one of the two lookups tries: the main without its `.js` or `.json` suffix,
and for a main written without `./` its own spellings and `./r.json`. A redirect of the main's
path is where the main goes, and a path left alone is the main. -/
theorem main_follows_redirect (p : Package) (pre : String) (rs : List String)
    (hpre : pre = "" ∨ pre = "./") (hroot : p.root.IsNormal) (hne : rs ≠ [])
    (hrs : ∀ n ∈ rs, Component.Plain n)
    (hmain : (((p.json.field? "main").bind Json.str?).filter (!·.isEmpty)).getD "index" =
      pre ++ "/".intercalate rs)
    (hfield : ∀ j ∈ p.replacements?, j.obj?.isSome) :
    let r := "/".intercalate rs
    let m := pre ++ r
    let s := ((stripSuffix? m ".js").orElse fun _ => stripSuffix? m ".json").getD m
    (∀ map, p.replacementMap? = some map →
      (s ≠ m → (map.lookup s).bind Json.str? = none ∧
        (map.lookup ("./" ++ dropDotSlash s)).bind Json.str? = none) ∧
      (pre = "" → ∀ key ∈ [m, m ++ ".js", m ++ ".json", "./" ++ r ++ ".json"],
        (map.lookup key).bind Json.str? = none)) →
    let q := (p.root.join (Path.ofString m)).normalize
    (∀ t, p.redirectRequire q.toString = .to t → p.main.toString = t) ∧
      (p.redirectRequire q.toString = .unchanged → p.main = q) := by
  intro r m s hkeys q
  have hr : r = "/".intercalate rs := rfl
  have hm : m = pre ++ r := rfl
  have hs : s = ((stripSuffix? m ".js").orElse fun _ => stripSuffix? m ".json").getD m := rfl
  have hqm : q = (p.root.join (Path.ofString m)).normalize := rfl
  clear_value q s m r
  rw [← hr, ← hm] at hmain
  cases hnone : p.replacements? with
  | none =>
    -- without a map nothing is redirected, and the main is the field as written
    have hred : ∀ name, p.redirectRequire name = .unchanged := by
      simp [redirectRequire, replacementMap?, hnone]
    refine ⟨fun t h => ?_, fun _ => ?_⟩
    · rw [hred] at h
      cases h
    · simp [main, hnone, hmain, replacementMap?, hqm, hm]
  | some j =>
    obtain ⟨map, hj⟩ := Option.isSome_iff_exists.1 (hfield j hnone)
    have hobj : p.replacements? = some (.obj map) := by rw [hnone, Json.obj?_eq_some.1 hj]
    have hmap : p.replacementMap? = some map := by simp [replacementMap?, hobj, Json.obj?]
    obtain ⟨hsuffix, hbare⟩ := hkeys map hmap
    -- a require of the main's path is looked up under `./r`, `./r.js` and `./r.json`
    obtain ⟨hslash, hrel⟩ := Path.names_relative hroot hpre hne hrs
    rw [← hr, ← hm, ← hqm] at hslash hrel
    have hsearch := redirectRequire_inside hmap hslash hrel
    have hdrop : dropDotSlash m = r := by rw [hm, hr]; exact dropDotSlash_names hpre hne hrs
    have hmainEq : p.main = (p.root.join (Path.ofString
        (([m, m ++ ".js", m ++ ".json", s, "./" ++ r, "./" ++ r ++ ".js",
          "./" ++ dropDotSlash s].findSome? fun key => (map.lookup key).bind Json.str?).getD m))).normalize := by
      simp only [main, hobj, hmain, hmap, hdrop, ← hs]
    -- every spelling only one of the two tries is a miss, so both find the same string
    have hL : ([m, m ++ ".js", m ++ ".json", s, "./" ++ r, "./" ++ r ++ ".js",
        "./" ++ dropDotSlash s].findSome? fun key => (map.lookup key).bind Json.str?) =
        redirectExts.findSome? fun ext => (map.lookup ("./" ++ r ++ ext)).bind Json.str? := by
      have hsm : ((map.lookup s).bind Json.str? = none ∧
          (map.lookup ("./" ++ dropDotSlash s)).bind Json.str? = none) ∨ s = m := by
        by_cases h : s = m
        · exact .inr h
        · exact .inl (hsuffix h)
      rcases hpre with rfl | rfl
      · -- written bare: the main's own spellings and `./r.json` are misses
        have hb := hbare rfl
        simp only [List.mem_cons, List.not_mem_nil, or_false, forall_eq_or_imp, forall_eq] at hb
        obtain ⟨h₀, h₁, h₂, h₃⟩ := hb
        rcases hsm with ⟨h₄, h₅⟩ | hsm
        · simp only [redirectExts, List.findSome?_cons, List.findSome?_nil, String.append_empty,
            h₀, h₁, h₂, h₃, h₄, h₅]
        · -- without a suffix, the last spelling is `./r` again
          rw [hsm, hdrop]
          simp only [redirectExts, List.findSome?_cons, List.findSome?_nil, String.append_empty,
            h₀, h₁, h₂, h₃]
          cases (map.lookup ("./" ++ r)).bind Json.str? <;> rfl
      · -- written `./r`: the first three spellings are the keys a require tries
        rcases hsm with ⟨h₄, h₅⟩ | hsm
        · rw [hm]
          simp only [redirectExts, List.findSome?_cons, List.findSome?_nil, String.append_empty,
            h₄, h₅]
          cases (map.lookup ("./" ++ r)).bind Json.str? <;>
            cases (map.lookup ("./" ++ r ++ ".js")).bind Json.str? <;>
            cases (map.lookup ("./" ++ r ++ ".json")).bind Json.str? <;> rfl
        · rw [hsm, hdrop, hm]
          simp only [redirectExts, List.findSome?_cons, List.findSome?_nil, String.append_empty]
          cases (map.lookup ("./" ++ r)).bind Json.str? <;>
            cases (map.lookup ("./" ++ r ++ ".js")).bind Json.str? <;>
            cases (map.lookup ("./" ++ r ++ ".json")).bind Json.str? <;> rfl
    refine ⟨fun t ht => ?_, fun ht => ?_⟩
    · obtain ⟨s', hs', rfl⟩ := hsearch.1 t ht
      rw [hmainEq, hL, hs']
      rfl
    · rw [hmainEq, hL, hsearch.2 ht, hqm]
      rfl

/-- A package with no main field and a map sending `./index.js` to `./x.js`: a require of
`/p/index` goes to `/p/x.js`, and so does the default main `index`. -/
theorem main_follows_redirected_index :
    let p := Package.make (Path.ofString "/p/package.json")
      (.obj [("browser", .obj [("./index.js", .str "./x.js")])])
    p.redirectRequire "/p/index" = .to "/p/x.js" ∧ p.main.toString = "/p/x.js" := by
  intro p
  have hmap : p.replacementMap? = some [("./index.js", .str "./x.js")] := rfl
  refine ⟨by decide +kernel, ?_⟩
  exact (main_follows_redirect p "" ["index"] (.inl rfl) (by decide +kernel) (by simp)
    (by decide +kernel) (by decide +kernel) (by decide +kernel) fun map h => by
      rw [hmap, Option.some.injEq] at h
      subst h
      exact ⟨by decide +kernel, by decide +kernel⟩).1 "/p/x.js" (by decide +kernel)

/-- A main written `lib/main` is looked up under its bare spelling, a key no require tries: the
map's entry for it moves the main, while a require of the main's path is left alone. -/
theorem main_follows_bare_key :
    let p := Package.make (Path.ofString "/p/package.json")
      (.obj [("main", .str "lib/main"), ("browser", .obj [("lib/main", .str "./x.js")])])
    let q := (p.root.join (Path.ofString "lib/main")).normalize
    p.redirectRequire q.toString = .unchanged ∧ p.main ≠ q := by
  decide +kernel

end Package

end ModuleBundler
