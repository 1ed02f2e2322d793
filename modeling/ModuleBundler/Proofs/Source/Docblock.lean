import ModuleBundler.Source.Docblock
import ModuleBundler.Proofs.Text

/-!
# Docblocks read back what they state

A docblock written one directive per line, ` * @key value` between `/**` and ` */`, reads back
as the directives it states: a key's value is the last one written for it, and a key not written
has none. This holds for every key that is a non-empty word, every value on one line with no
blank at either end, neither holding the closing `*/`, behind any byte-order marks and blanks and
before any text (`docblock_reads_back`). The global name the file provides is then the first word
of the `@providesModule` value, or of the `@provides` value when there is none.

Reading passes three steps, each with its lemma: the opening, where marks and blanks are dropped
and `/**` is found (`parse_of_opening`); the body up to the first `*/` (`beforeClose_append`);
and the body's lines, each read by `readLine` (`readLine_directiveLine`).
-/

namespace ModuleBundler

namespace Text

theorem blank_space : ∀ c ∈ [' '], isBlank c = true := by
  simp only [List.mem_singleton, forall_eq]
  decide

theorem not_mark_of_isBlank {c : Char} (h : isBlank c = true) : c.toNat ≠ 0xFEFF := by
  intro hc
  simp [isBlank, hc] at h

theorem dropWhile_of_forall {p : Char → Bool} : ∀ {l : List Char}, (∀ c ∈ l, p c = true) →
    l.dropWhile p = []
  | [], _ => rfl
  | c :: l, h => by
    rw [List.dropWhile_cons_of_pos (h c (.head _))]
    exact dropWhile_of_forall fun x hx => h x (.tail _ hx)

theorem dropWhile_of_head {p : Char → Bool} {l : List Char} (h : ∀ c ∈ l.head?, p c = false) :
    l.dropWhile p = l := by
  rcases l with _ | ⟨c, l⟩
  · rfl
  · exact List.dropWhile_cons_of_neg (by simp [h c rfl])

/-- Trimming removes the blanks around a text that starts and ends with no blank. -/
theorem trim_ofList {pre mid post : List Char} (hpre : ∀ c ∈ pre, isBlank c = true)
    (hpost : ∀ c ∈ post, isBlank c = true) (hhead : ∀ c ∈ mid.head?, isBlank c = false)
    (hlast : ∀ c ∈ mid.getLast?, isBlank c = false) :
    trim (String.ofList (pre ++ mid ++ post)) = String.ofList mid := by
  simp only [trim, trimEnd, trimStart, String.toList_ofList, dropBlanks, List.append_assoc,
    List.dropWhile_append_of_pos hpre]
  rcases mid with _ | ⟨c, m⟩
  · rw [List.nil_append, dropWhile_of_forall hpost]
    rfl
  · rw [dropWhile_of_head (l := (c :: m) ++ post) (by simpa using hhead), List.reverse_append,
      List.dropWhile_append_of_pos (by simpa using hpost),
      dropWhile_of_head (by rw [List.head?_reverse]; exact hlast), List.reverse_reverse]

/-- The words of a text, read from a non-empty partial word `cur` (reversed): the first word is
`cur` completed by the letters up to the next blank. -/
theorem words_go_acc (cs cur : List Char) (acc : List String) :
    words.go cs cur acc = acc.reverse ++ words.go cs cur [] := by
  induction cs generalizing cur acc with
  | nil => by_cases h : cur.isEmpty <;> simp [words.go, h]
  | cons c cs ih =>
    by_cases hc : isBlank c
    · simp only [words.go, hc, if_true]
      rw [ih, ih [] (if cur.isEmpty then [] else [_])]
      by_cases h : cur.isEmpty <;> simp [h]
    · simp only [words.go, hc, Bool.false_eq_true, if_false]
      exact ih _ _

theorem words_go_head? (cs : List Char) {cur : List Char} (hcur : cur ≠ []) :
    (words.go cs cur []).head? =
      some (String.ofList (cur.reverse ++ cs.takeWhile fun c => !isBlank c)) := by
  induction cs generalizing cur with
  | nil => simp [words.go, hcur]
  | cons c cs ih =>
    by_cases hc : isBlank c
    · simp [words.go, hc, hcur, words_go_acc cs [] [_]]
    · simp only [words.go, hc, Bool.false_eq_true, if_false]
      rw [ih (List.cons_ne_nil _ _)]
      simp [List.takeWhile_cons_of_pos, hc]

/-- The first word of a text that starts with no blank is its letters up to the first blank;
an empty text has none. -/
theorem words_head? {v : String} (h : ∀ c ∈ v.toList.head?, isBlank c = false) :
    (words v).head? =
      if v = "" then none else some (String.ofList (v.toList.takeWhile fun c => !isBlank c)) := by
  unfold words
  rcases hv : v.toList with _ | ⟨c, cs⟩
  · simp [String.toList_eq_nil_iff.1 hv, words.go]
  · have hc : isBlank c = false := h c (by simp [hv])
    have hne : v ≠ "" := fun he => by simp [he] at hv
    simp only [words.go, hc, Bool.false_eq_true, if_false, hne]
    rw [words_go_head? cs (List.cons_ne_nil _ _)]
    simp [List.takeWhile_cons_of_pos, hc]

end Text

namespace Docblock

/-! ## Writing a docblock -/

/-- A directive's line: ` * @key value`. -/
def directiveLine (d : String × String) : String := " * @" ++ d.1 ++ " " ++ d.2

/-- A docblock stating directives one per line. -/
def render (ds : List (String × String)) : String :=
  "/**" ++ String.join (ds.map fun d => "\n" ++ directiveLine d) ++ "\n */"

/-- A directive a line carries unchanged: a non-empty key without blanks, a value on one line with
no blank at either end, and neither holding the closing `*/`. -/
structure Writable (d : String × String) : Prop where
  key_ne : d.1 ≠ ""
  key_solid : ∀ c ∈ d.1.toList, Text.isBlank c = false
  key_open : ¬ ['*', '/'] <:+: d.1.toList
  value_line : '\n' ∉ d.2.toList
  value_open : ¬ ['*', '/'] <:+: d.2.toList
  value_head : ∀ c ∈ d.2.toList.head?, Text.isBlank c = false
  value_last : ∀ c ∈ d.2.toList.getLast?, Text.isBlank c = false

/-- No character of a list is blank, as a computation says. -/
theorem not_blank_of_all {l : List Char} (h : (l.all fun c => !Text.isBlank c) = true) :
    ∀ c ∈ l, Text.isBlank c = false :=
  fun c hc => by simpa using List.all_eq_true.1 h c hc

theorem not_blank_of_option_all {o : Option Char} (h : (o.all fun c => !Text.isBlank c) = true) :
    ∀ c ∈ o, Text.isBlank c = false := by
  intro c hc
  rw [Option.mem_def] at hc
  subst hc
  simpa using h

theorem directiveLine_toList (d : String × String) :
    (directiveLine d).toList = ' ' :: '*' :: ' ' :: '@' :: (d.1.toList ++ ' ' :: d.2.toList) := by
  simp [directiveLine]

/-! ## The opening -/

/-- After byte-order marks and blanks, a text opening with `/**` is read from what follows. -/
theorem parse_of_opening {marks blanks s : String} {body inner : List Char}
    (hmarks : ∀ c ∈ marks.toList, c = '\uFEFF')
    (hblanks : ∀ c ∈ blanks.toList, Text.isBlank c = true)
    (hs : s.toList = '/' :: '*' :: '*' :: body) (h : beforeClose body = some inner) :
    parse (marks ++ blanks ++ s) =
      ((Text.splitOnChar (String.ofList inner) '\n').foldl readLine (⟨[]⟩, none)).1 := by
  have hmark : (marks ++ blanks ++ s).toList.dropWhile (fun c => decide (c.toNat = 0xFEFF)) =
      blanks.toList ++ '/' :: '*' :: '*' :: body := by
    rw [String.toList_append, String.toList_append, List.append_assoc,
      List.dropWhile_append_of_pos (fun c hc => by simp [hmarks c hc]), hs]
    rcases hb : blanks.toList with _ | ⟨b, bs⟩
    · simp
    · have hbm := Text.not_mark_of_isBlank (hblanks b (by simp [hb]))
      simp [hbm]
  have hopen : Text.dropBlanks (blanks.toList ++ '/' :: '*' :: '*' :: body) =
      '/' :: '*' :: '*' :: body := by
    rw [Text.dropBlanks, List.dropWhile_append_of_pos hblanks,
      List.dropWhile_cons_of_neg (by decide)]
  simp only [parse, hmark, hopen, h]

/-! ## The body -/

/-- Whether the body ends right here: `*/` in front, or else the end further on. -/
theorem beforeClose_cons (c : Char) (cs : List Char) :
    beforeClose (c :: cs) =
      if c = '*' ∧ cs.head? = some '/' then some [] else (beforeClose cs).map (c :: ·) := by
  rcases cs with _ | ⟨c', cs⟩
  · simp [beforeClose]
  · by_cases h : c = '*' ∧ c' = '/'
    · obtain ⟨rfl, rfl⟩ := h
      simp [beforeClose]
    · rw [if_neg (by simpa using h), beforeClose.eq_def]
      split
      · contradiction
      · next heq =>
        simp only [List.cons.injEq] at heq
        obtain ⟨rfl, rfl, rfl⟩ := heq
        simp at h
      · next heq =>
        simp only [List.cons.injEq] at heq
        obtain ⟨rfl, rfl⟩ := heq
        rfl

/-- A text has no end of the body exactly when `*/` does not occur in it. -/
theorem beforeClose_eq_none_iff (cs : List Char) :
    beforeClose cs = none ↔ ¬ ['*', '/'] <:+: cs := by
  induction cs with
  | nil => simp [beforeClose]
  | cons c cs ih =>
    have hslash : ['/'] <+: cs ↔ cs.head? = some '/' := by
      rcases cs with _ | ⟨c', cs⟩ <;> simp [eq_comm]
    rw [beforeClose_cons, List.infix_cons_iff, List.cons_prefix_cons, hslash, not_or, ← ih]
    by_cases h : c = '*' ∧ cs.head? = some '/'
    · simp [h]
    · rw [if_neg h, Option.map_eq_none_iff]
      simp only [eq_comm (a := '*')]
      tauto

/-- A text holding no `*/`, and not ending in `*` before a `/`, is passed over by the search for
the end of the body. -/
theorem beforeClose_append {xs : List Char} (ys : List Char) (hxs : beforeClose xs = none)
    (hjoin : xs.getLast? = some '*' → ys.head? ≠ some '/') :
    beforeClose (xs ++ ys) = (beforeClose ys).map (xs ++ ·) := by
  induction xs with
  | nil => simp
  | cons c xs ih =>
    rw [beforeClose_cons] at hxs
    rw [List.cons_append, beforeClose_cons]
    split at hxs
    · cases hxs
    · next hcx =>
      have hxs' : beforeClose xs = none := by simpa using hxs
      have hjoin' : xs.getLast? = some '*' → ys.head? ≠ some '/' := by
        intro hl
        rcases xs with _ | ⟨x, xs⟩
        · cases hl
        · exact hjoin (by simpa using hl)
      rw [if_neg ?_, ih hxs' hjoin', Option.map_map]
      · rfl
      · rintro ⟨rfl, hy⟩
        rcases xs with _ | ⟨x, xs⟩
        · exact hjoin rfl (by simpa using hy)
        · exact hcx ⟨rfl, by simpa using hy⟩

/-- A directive's line, after its line feed, holds no `*/`. -/
theorem beforeClose_directiveLine {d : String × String} (hd : Writable d) :
    beforeClose ('\n' :: (directiveLine d).toList) = none := by
  have hkey : beforeClose (d.1.toList ++ ' ' :: d.2.toList) = none := by
    rw [beforeClose_append _ ((beforeClose_eq_none_iff _).2 hd.key_open) (by simp),
      beforeClose_cons, if_neg (by simp), (beforeClose_eq_none_iff _).2 hd.value_open]
    rfl
  simp [directiveLine_toList, beforeClose_cons, hkey]

/-- The lines of a docblock, each after a line feed. -/
def bodyChars (ds : List (String × String)) : List Char :=
  ds.flatMap fun d => '\n' :: (directiveLine d).toList

theorem render_append_toList (ds : List (String × String)) (rest : String) :
    (render ds ++ rest).toList =
      '/' :: '*' :: '*' :: (bodyChars ds ++ '\n' :: ' ' :: '*' :: '/' :: rest.toList) := by
  simp [render, bodyChars, String.toList_join, List.flatMap_map]

/-- The body of a rendered docblock ends at its closing line. -/
theorem beforeClose_render {ds : List (String × String)} (hds : ∀ d ∈ ds, Writable d)
    (r : List Char) :
    beforeClose (bodyChars ds ++ '\n' :: ' ' :: '*' :: '/' :: r) =
      some (bodyChars ds ++ ['\n', ' ']) := by
  induction ds with
  | nil => simp [bodyChars, beforeClose_cons]
  | cons d ds ih =>
    have hnext : (bodyChars ds ++ '\n' :: ' ' :: '*' :: '/' :: r).head? = some '\n' := by
      rcases ds with _ | ⟨d', ds⟩ <;> simp [bodyChars]
    simp only [bodyChars, List.flatMap_cons, List.append_assoc] at ih hnext ⊢
    rw [beforeClose_append _ (beforeClose_directiveLine (hds d (.head _))) (by simp [hnext]),
      ih fun d' hd' => hds d' (.tail _ hd')]
    simp

/-! ## The lines -/

theorem intercalate_singleton_cons {α : Type} (x : α) (a : List α) (l : List (List α)) :
    [x].intercalate (a :: l) = a ++ l.flatMap (x :: ·) := by
  induction l generalizing a with
  | nil => simp
  | cons b l ih => rw [List.intercalate_cons_cons, ih]; simp

theorem not_newline_directiveLine {d : String × String} (hd : Writable d) :
    '\n' ∉ (directiveLine d).toList := by
  have hk : '\n' ∉ d.1.toList := fun h => absurd (hd.key_solid _ h) (by decide)
  simp [directiveLine_toList, hk, hd.value_line]

/-- The body of a rendered docblock cut at line feeds: an empty first line, the directives' lines,
and the blank in front of the closing `*/`. -/
theorem splitOnChar_body {ds : List (String × String)} (hds : ∀ d ∈ ds, Writable d) :
    Text.splitOnChar (String.ofList (bodyChars ds ++ ['\n', ' '])) '\n' =
      "" :: ds.map directiveLine ++ [" "] := by
  have hjoin : bodyChars ds ++ ['\n', ' '] =
      ['\n'].intercalate ([] :: (ds.map fun d => (directiveLine d).toList) ++ [[' ']]) := by
    rw [List.cons_append, intercalate_singleton_cons]
    simp [bodyChars, List.flatMap_map]
  rw [Text.splitOnChar_eq_splitOn, String.toList_ofList, hjoin, List.splitOn_intercalate]
  · simp
  · intro l hl
    simp only [List.mem_cons, List.mem_append, List.mem_map, List.not_mem_nil, or_false] at hl
    rcases hl with (rfl | ⟨d, hd, rfl⟩) | rfl
    · simp
    · exact not_newline_directiveLine (hds d hd)
    · simp
  · simp

/-! ## Reading the lines -/

theorem getLast?_cons_of_getLast? {a y : Char} {l : List Char} (h : l.getLast? = some y) :
    (a :: l).getLast? = some y := by
  simp [List.getLast?_cons, h]

/-- The text of a directive's line, without its blanks and leading star: `@`, the key, and a blank
and the value when there is one. -/
theorem lineText_directiveLine {d : String × String} (hd : Writable d) :
    lineText (directiveLine d) =
      String.ofList ('@' :: (d.1.toList ++ if d.2 = "" then [] else ' ' :: d.2.toList)) := by
  obtain ⟨k, v⟩ := d
  have hfirst : ∀ (c : Char) (l : List Char), Text.isBlank c = false →
      ∀ x ∈ (c :: l).head?, Text.isBlank x = false := by
    intro c l hc x hx
    simp only [List.head?_cons, Option.mem_def, Option.some.injEq] at hx
    exact hx ▸ hc
  -- the line's last letter ends the key when the value is empty, and the value otherwise
  obtain ⟨y, hy, hyb⟩ : ∃ y,
      (k.toList ++ if v = "" then [] else ' ' :: v.toList).getLast? = some y ∧
        Text.isBlank y = false := by
    by_cases hv : v = ""
    · have hk : k.toList ≠ [] := fun h => hd.key_ne (String.toList_eq_nil_iff.1 h)
      obtain ⟨y, hy⟩ := Option.isSome_iff_exists.1 (List.getLast?_isSome.2 hk)
      exact ⟨y, by simp [hv, hy], hd.key_solid y (List.mem_of_getLast? hy)⟩
    · have hv' : v.toList ≠ [] := fun h => hv (String.toList_eq_nil_iff.1 h)
      obtain ⟨y, hy⟩ := Option.isSome_iff_exists.1 (List.getLast?_isSome.2 hv')
      refine ⟨y, ?_, hd.value_last y hy⟩
      rw [if_neg hv, List.getLast?_append, getLast?_cons_of_getLast? hy]
      rfl
  have hline : directiveLine (k, v) = String.ofList ([' '] ++
      ('*' :: ' ' :: '@' :: (k.toList ++ if v = "" then [] else ' ' :: v.toList)) ++
      (if v = "" then [' '] else [])) := by
    rw [← String.ofList_toList (s := directiveLine _), directiveLine_toList]
    by_cases hv : v = "" <;> simp [hv]
  have hpost : ∀ x ∈ (if v = "" then [' '] else []), Text.isBlank x = true := by
    by_cases hv : v = ""
    · simp only [hv, if_true, List.mem_singleton, forall_eq]
      decide
    · simp [hv]
  rw [lineText, hline, Text.trim_ofList Text.blank_space hpost (hfirst _ _ (by decide))
      (fun x hx => by rw [getLast?_cons_of_getLast? (getLast?_cons_of_getLast?
        (getLast?_cons_of_getLast? hy))] at hx; cases hx; exact hyb),
    String.toList_ofList, List.dropWhile_cons_of_pos (by decide),
    List.dropWhile_cons_of_neg (by decide),
    show ' ' :: '@' :: (k.toList ++ if v = "" then [] else ' ' :: v.toList) =
      [' '] ++ ('@' :: (k.toList ++ if v = "" then [] else ' ' :: v.toList)) ++ [] by simp,
    Text.trim_ofList Text.blank_space (by simp) (hfirst _ _ (by decide))
      (fun x hx => by rw [getLast?_cons_of_getLast? hy] at hx; cases hx; exact hyb)]

/-- A directive's line sets its key to its value, and makes the key the one continuations
extend. -/
theorem readLine_directiveLine {d : String × String} (hd : Writable d)
    (acc : Docblock × Option String) :
    readLine acc (directiveLine d) = (acc.1.set d.1 d.2, some d.1) := by
  obtain ⟨doc, cur⟩ := acc
  have hsolid : ∀ c ∈ d.1.toList, (fun c => !Text.isBlank c) c = true := fun c hc => by
    simp [hd.key_solid c hc]
  -- what follows the key starts with a blank, and trims to the value
  have htake : (if d.2 = "" then [] else ' ' :: d.2.toList).takeWhile
      (fun c => !Text.isBlank c) = [] := by
    split
    · rfl
    · exact List.takeWhile_cons_of_neg (by decide)
  have hdrop : Text.trim (String.ofList ((if d.2 = "" then [] else ' ' :: d.2.toList).dropWhile
      fun c => !Text.isBlank c)) = d.2 := by
    by_cases hv : d.2 = ""
    · rw [if_pos hv, hv]
      rfl
    · rw [if_neg hv, List.dropWhile_cons_of_neg (by decide),
        show ' ' :: d.2.toList = [' '] ++ d.2.toList ++ [] by simp,
        Text.trim_ofList Text.blank_space (by simp) hd.value_head hd.value_last,
        String.ofList_toList]
  unfold readLine
  rw [lineText_directiveLine hd]
  simp only [String.toList_ofList]
  rw [List.takeWhile_append_of_pos hsolid, htake, List.append_nil, String.ofList_toList,
    List.dropWhile_append_of_pos hsolid, hdrop]

/-- The directives a docblock sets, one after another. -/
def setAll (doc : Docblock) (ds : List (String × String)) : Docblock :=
  ds.foldl (fun doc d => doc.set d.1 d.2) doc

theorem foldl_readLine_directives {ds : List (String × String)} (hds : ∀ d ∈ ds, Writable d)
    (doc : Docblock) (cur : Option String) :
    ∃ cur', (ds.map directiveLine).foldl readLine (doc, cur) = (setAll doc ds, cur') := by
  induction ds generalizing doc cur with
  | nil => exact ⟨cur, rfl⟩
  | cons d ds ih =>
    rw [List.map_cons, List.foldl_cons, readLine_directiveLine (hds d (.head _))]
    exact ih (fun d' hd' => hds d' (.tail _ hd')) _ _

theorem lookup_cons_ite {a k b : String} {l : List (String × String)} :
    ((a, b) :: l).lookup k = if k = a then some b else l.lookup k := by
  by_cases h : k = a
  · subst h; simp
  · have hbeq : (k == a) = false := by simpa using h
    simp [List.lookup_cons, h, hbeq]

/-- Replacing a key's values in a table of directives. -/
theorem lookup_map_set (l : List (String × String)) (k v k' : String) :
    (l.map fun (a, b) => if a = k then (a, v) else (a, b)).lookup k' =
      if k' = k then (l.lookup k).map fun _ => v else l.lookup k' := by
  induction l with
  | nil => simp
  | cons p l ih =>
    obtain ⟨a, b⟩ := p
    simp only [List.map_cons] at ih ⊢
    by_cases ha : a = k
    · subst ha
      rw [if_pos rfl, lookup_cons_ite, lookup_cons_ite, ih]
      by_cases hk : k' = a <;> simp [hk, lookup_cons_ite]
    · rw [if_neg ha, lookup_cons_ite, lookup_cons_ite, ih, lookup_cons_ite]
      by_cases hk : k' = k
      · subst hk
        simp [Ne.symm ha]
      · by_cases hka : k' = a
        · subst hka
          simp [ha]
        · simp [hk, hka]

/-- Setting a directive gives its key the value and leaves the other keys. -/
theorem get?_set (doc : Docblock) (k v k' : String) :
    (doc.set k v).get? k' = if k' = k then some v else doc.get? k' := by
  unfold Docblock.set
  split
  · next hhas =>
    simp only [get?]
    rw [lookup_map_set]
    simp only [has, get?, Option.isSome_iff_exists] at hhas
    obtain ⟨w, hw⟩ := hhas
    by_cases hk : k' = k <;> simp [hk, hw]
  · next hhas =>
    simp only [has, get?, Option.isSome_iff_exists, not_exists] at hhas
    have hnone : doc.directives.lookup k = none := Option.eq_none_iff_forall_ne_some.2 hhas
    simp only [get?, List.lookup_append]
    by_cases hk : k' = k
    · subst hk; simp [hnone]
    · simp [hk]

theorem get?_setAll (doc : Docblock) (ds : List (String × String)) (k : String) :
    (setAll doc ds).get? k = (ds.reverse.lookup k).or (doc.get? k) := by
  induction ds generalizing doc with
  | nil => simp [setAll]
  | cons d ds ih =>
    simp only [setAll, List.foldl_cons] at ih ⊢
    rw [ih, get?_set, List.reverse_cons, List.lookup_append, Option.or_assoc]
    obtain ⟨a, b⟩ := d
    by_cases hk : k = a <;> simp [hk]

/-! ## Reading back -/

/-- Every key of a rendered docblock has the last value written for it. -/
theorem parse_render_get? {ds : List (String × String)} (hds : ∀ d ∈ ds, Writable d)
    {marks blanks : String} (hmarks : ∀ c ∈ marks.toList, c = '\uFEFF')
    (hblanks : ∀ c ∈ blanks.toList, Text.isBlank c = true) (rest k : String) :
    (parse (marks ++ blanks ++ render ds ++ rest)).get? k = ds.reverse.lookup k := by
  rw [String.append_assoc, parse_of_opening hmarks hblanks (render_append_toList ds rest)
    (beforeClose_render hds _), splitOnChar_body hds, List.cons_append, List.foldl_cons,
    List.foldl_append]
  obtain ⟨cur, hcur⟩ := foldl_readLine_directives hds ⟨[]⟩ none
  have hfirst : readLine (⟨[]⟩, none) "" = (⟨[]⟩, none) := rfl
  rw [hfirst, hcur]
  show (setAll ⟨[]⟩ ds).get? k = _
  rw [get?_setAll]
  simp [get?]

theorem mem_of_lookup_eq_some {l : List (String × String)} {k v : String}
    (h : l.lookup k = some v) : (k, v) ∈ l := by
  induction l with
  | nil => cases h
  | cons p l ih =>
    obtain ⟨a, b⟩ := p
    rw [lookup_cons_ite] at h
    by_cases hk : k = a
    · rw [if_pos hk] at h
      cases h
      exact hk ▸ .head _
    · rw [if_neg hk] at h
      exact .tail _ (ih h)

/-- A docblock written one directive per line reads back as what it states: a key has the last
value written for it, a key not written has none, and the global name provided is the first word
of the `@providesModule` value, or of the `@provides` value when there is none. -/
theorem docblock_reads_back {ds : List (String × String)} (hds : ∀ d ∈ ds, Writable d)
    {marks blanks : String} (hmarks : ∀ c ∈ marks.toList, c = '\uFEFF')
    (hblanks : ∀ c ∈ blanks.toList, Text.isBlank c = true) (rest : String) :
    (∀ k, (parse (marks ++ blanks ++ render ds ++ rest)).get? k = ds.reverse.lookup k) ∧
      (parse (marks ++ blanks ++ render ds ++ rest)).providesModule? =
        ((ds.reverse.lookup "providesModule").orElse fun _ => ds.reverse.lookup "provides").bind
          fun v => if v = "" then none
            else some (String.ofList (v.toList.takeWhile fun c => !Text.isBlank c)) := by
  have hget := parse_render_get? hds hmarks hblanks rest
  refine ⟨hget, ?_⟩
  simp only [providesModule?, hget]
  -- the value found is a written one, so it starts with no blank
  have hwritten : ∀ key v, ds.reverse.lookup key = some v → ∀ c ∈ v.toList.head?,
      Text.isBlank c = false := fun key v h =>
    (hds _ (List.mem_reverse.1 (mem_of_lookup_eq_some h))).value_head
  apply Option.bind_congr
  intro v hv
  apply Text.words_head?
  cases hp : ds.reverse.lookup "providesModule" with
  | some w =>
    rw [hp] at hv
    cases hv
    exact hwritten _ _ hp
  | none =>
    rw [hp] at hv
    exact hwritten _ _ hv

/-- Behind a byte-order mark and blanks, a docblock that writes `@providesModule` twice, with an
empty `@flow` between, provides the first word of the name written last. -/
theorem docblock_provides_last_name :
    (parse ("\uFEFF" ++ "\n " ++ render [("providesModule", "Foo old"), ("flow", ""),
      ("providesModule", "Bar.ios x")] ++ "require('x');")).providesModule? = some "Bar.ios" := by
  have hmarks : ("\uFEFF".toList.all fun c => decide (c = '\uFEFF')) = true := by decide +kernel
  rw [(docblock_reads_back ?_ (fun c hc => of_decide_eq_true (List.all_eq_true.1 hmarks c hc))
    (List.all_eq_true.1 (by decide +kernel)) _).2]
  · decide +kernel
  · intro d hd
    simp only [List.mem_cons, List.not_mem_nil, or_false] at hd
    rcases hd with rfl | rfl | rfl <;>
      exact ⟨by decide +kernel, not_blank_of_all (by decide +kernel), by decide +kernel,
        by decide +kernel, by decide +kernel, not_blank_of_option_all (by decide +kernel),
        not_blank_of_option_all (by decide +kernel)⟩

end Docblock

end ModuleBundler
