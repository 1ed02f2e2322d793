import ModuleBundler.Proofs.Source.Sites
import ModuleBundler.Source.Wrap

/-!
# The dependencies of a text of pieces

The scan of `extractRequires` finds exactly what a well-formed text of pieces declares
(`extractRequires_eq_declared`): the non-empty specifiers of its sites loaded with the module,
each once, in order of first appearance, and a group for each non-empty specifier loaded on
demand.

The proof reads the text piece by piece. `surroundings` gets, from `wellFormed`, what each lemma
of `ModuleBundler.Proofs.Source.Sites` needs of the characters around its piece; `scanFrom_piece`
then says that the scan passes each piece and records its specifiers (`Piece.record`), and
`scanFrom_render` strings the pieces together by induction on the pieces still to read. What the
scan records is the first appearance of each new specifier (`reverse_foldl_remember`), which is
what `declared` lists.

The texts outside `wellFormed` are not read this way: the scan does not know where literals are,
and reads a call of `require` inside one (`require_in_literal_is_read`). Inside them, the
rewriting of specifiers before wrapping does not find every site the scan reads: its patterns want
a blank after `import`, so `import{a}from"./b"` keeps its specifier (`packed_import_is_not_rewritten`).
-/

namespace ModuleBundler

namespace Requires

/-! ## What the scan records -/

/-- A specifier added to those seen, newest first, unless it is empty or seen already. -/
def remember (seen : List String) (s : String) : List String :=
  if s.isEmpty || seen.contains s then seen else s :: seen

namespace Found

variable {f : Found} {s : String}

@[simp] theorem addSync_sync : (f.addSync s).sync = remember f.sync s := by
  unfold addSync remember
  split <;> rfl

@[simp] theorem addSync_groups : (f.addSync s).groups = f.groups := by
  unfold addSync
  split <;> rfl

@[simp] theorem addSync_onDemand : (f.addSync s).onDemand = f.onDemand := by
  unfold addSync
  split <;> rfl

@[simp] theorem addGroup_sync : (f.addGroup s).sync = f.sync := by
  unfold addGroup
  split <;> rfl

@[simp] theorem addGroup_onDemand : (f.addGroup s).onDemand = remember f.onDemand s := by
  unfold addGroup remember
  split <;> rfl

/-- One group, of one specifier, for each specifier loaded on demand. -/
def Grouped (f : Found) : Prop := f.groups = f.onDemand.map fun s => [s]

theorem Grouped.addGroup (h : f.Grouped) : (f.addGroup s).Grouped := by
  unfold Grouped Found.addGroup at *
  split
  · exact h
  · simp [h]

theorem Grouped.addSync (h : f.Grouped) : (f.addSync s).Grouped := by
  unfold Grouped
  rw [addSync_groups, addSync_onDemand]
  exact h

end Found

/-- What the scan records for a piece: the specifiers it loads with the module, then those it
loads on demand. -/
def Piece.record (p : Piece) (f : Found) : Found :=
  p.onDemand.foldl Found.addGroup (p.loaded.foldl Found.addSync f)

section Record

theorem foldl_addSync (xs : List String) (f : Found) :
    (xs.foldl Found.addSync f).sync = xs.foldl remember f.sync ∧
      (xs.foldl Found.addSync f).onDemand = f.onDemand ∧
      (xs.foldl Found.addSync f).groups = f.groups := by
  induction xs generalizing f with
  | nil => simp
  | cons x xs ih => simpa using ih (f.addSync x)

theorem foldl_addGroup (xs : List String) (f : Found) (hf : f.Grouped) :
    (xs.foldl Found.addGroup f).sync = f.sync ∧
      (xs.foldl Found.addGroup f).onDemand = xs.foldl remember f.onDemand ∧
      (xs.foldl Found.addGroup f).Grouped := by
  induction xs generalizing f with
  | nil => simpa using hf
  | cons x xs ih => simpa using ih (f.addGroup x) hf.addGroup

/-- Recording pieces in turn remembers their specifiers loaded with the module in one list and
those loaded on demand in another, a group for each. -/
theorem foldl_record (ps : List Piece) (f : Found) (hf : f.Grouped) :
    (ps.foldl (fun f p => p.record f) f).sync = (ps.flatMap Piece.loaded).foldl remember f.sync ∧
      (ps.foldl (fun f p => p.record f) f).onDemand =
        (ps.flatMap Piece.onDemand).foldl remember f.onDemand ∧
      (ps.foldl (fun f p => p.record f) f).Grouped := by
  induction ps generalizing f with
  | nil => simpa using hf
  | cons p ps ih =>
    obtain ⟨hs₁, ho₁, hg₁⟩ := foldl_addSync p.loaded f
    have hg : (p.loaded.foldl Found.addSync f).Grouped := by
      unfold Found.Grouped
      rw [ho₁, hg₁]
      exact hf
    obtain ⟨hs₂, ho₂, hg₂⟩ := foldl_addGroup p.onDemand _ hg
    obtain ⟨hs, ho, hgr⟩ := ih (p.record f) hg₂
    refine ⟨?_, ?_, hgr⟩
    · rw [List.foldl_cons, hs, Piece.record, hs₂, hs₁, List.flatMap_cons, List.foldl_append]
    · rw [List.foldl_cons, ho, Piece.record, ho₂, ho₁, List.flatMap_cons, List.foldl_append]

/-- Remembering specifiers in turn keeps the first appearance of each non-empty one not seen
before. -/
theorem reverse_foldl_remember (xs seen : List String) :
    (xs.foldl remember seen).reverse =
      seen.reverse ++ ((xs.filter (· != "")).filter fun s => !seen.contains s).eraseDups := by
  induction xs generalizing seen with
  | nil => simp
  | cons x xs ih =>
    rw [List.foldl_cons, ih]
    by_cases hx : x = "" ∨ x ∈ seen
    · -- `x` is dropped by the scan and by the filters alike
      have hkeep : remember seen x = seen := by
        unfold remember
        rcases hx with hx | hx <;> simp [hx]
      have hdrop : ((x :: xs).filter (· != "")).filter (fun s => !seen.contains s) =
          (xs.filter (· != "")).filter (fun s => !seen.contains s) := by
        rw [List.filter_cons]
        split
        · rename_i hne
          have hmem : x ∈ seen := hx.resolve_left (by simpa using hne)
          rw [List.filter_cons_of_neg (by simpa using hmem)]
        · rfl
      rw [hkeep, hdrop]
    · rw [not_or] at hx
      have hadd : remember seen x = x :: seen := by
        unfold remember
        simp [hx.1, hx.2]
      have hfirst : (((x :: xs).filter (· != "")).filter fun s => !seen.contains s).eraseDups =
          x :: ((xs.filter (· != "")).filter fun s => !(x :: seen).contains s).eraseDups := by
        rw [List.filter_cons_of_pos (by simpa using hx.1),
          List.filter_cons_of_pos (by simpa using hx.2), List.eraseDups_cons, List.filter_filter]
        congr 3
        funext s
        rw [List.contains_cons, Bool.not_or]
      rw [hadd, hfirst]
      simp

end Record

/-! ## The search for `from` after an `export` -/

section ExportSearch

variable {chars : Array Char} {i : Nat} {stop : Char → Bool} {limit : Nat}

/-- A word ends with an identifier character. -/
theorem getLast_ident {w : List Char} (hw : w ≠ []) (hid : ∀ c ∈ w, isIdent c = true) :
    (w.getLast?.map isIdent).getD false = true := by
  obtain ⟨c, hc⟩ := Option.isSome_iff_exists.1 (List.getLast?_isSome.2 hw)
  rw [hc]
  exact hid c (List.mem_of_getLast? hc)

/-- The search for `from` passes a keyword and the blanks after it, and gives up at the
character after them. -/
theorem fromClause_keyword_then {w b rest : List Char} {c : Char}
    (hs : Spells chars i (w ++ (b ++ c :: rest))) (hw : ∀ d ∈ w, isIdent d = true)
    (hwf : w ≠ fromChars) (hb : blanks b = true) (hc : isIdent c = false) (hcs : stop c = true)
    (hstop : ∀ d, isIdent d = true ∨ Text.isBlank d = true → stop d = false) :
    fromClause chars stop limit i = none := by
  rw [spells_append, spells_append, spells_cons] at hs
  obtain ⟨hsw, hsb, hsc, -⟩ := hs
  rw [fromClause_word hsw hw hwf (notIdentAt_of_blanks hb hsb hsc hc) (hstop · ∘ .inl),
    fromClause_blanks hsb hb (hstop · ∘ .inr), fromClause_of_stop hsc hcs]

/-- What ends the search for `from` after an `export`: `;`, `=`, `(` and quotes. -/
theorem exportStop_of_stops {c : Char} (h : c = ';' ∨ c = '=' ∨ c = '(' ∨ isQuote c = true) :
    (decide (c = ';') || isQuote c || decide (c = '=') || decide (c = '(')) = true := by
  rcases h with rfl | rfl | rfl | hq <;> simp [*]

/-- The search for `from` after an `export` gives up at a piece that ends it. -/
theorem fromClause_stopsExport {p : Piece} (hs : Spells chars i p.render) (hv : p.valid = true)
    (hp : p.stopsExport = true) :
    fromClause chars (fun c => decide (c = ';') || isQuote c || decide (c = '=') || decide (c = '('))
      limit i = none := by
  have hpass : ∀ d, isIdent d = true ∨ Text.isBlank d = true →
      (decide (d = ';') || isQuote d || decide (d = '=') || decide (d = '(')) = false :=
    fun d hd => exportStop_pass (hd.elim .inl (.inr ∘ .inl))
  cases p with
  | punct c =>
    refine fromClause_of_stop (spells_singleton.1 hs) (exportStop_of_stops ?_)
    simp only [Piece.stopsExport, Bool.or_eq_true, beq_iff_eq] at hp
    rcases hp with (h | h) | h <;> simp [h]
  | literal l =>
    simp only [Piece.valid, Bool.and_eq_true] at hv
    exact fromClause_of_stop (Spells.quote_at hs)
      (exportStop_of_stops (.inr (.inr (.inr (Literal.isQuote_of_wellFormed hv.1)))))
  | require b₁ b₂ l b₃ =>
    simp only [Piece.valid, Bool.and_eq_true] at hv
    have hs' : Spells chars i (requireChars ++ (b₁ ++ '(' :: (b₂ ++ l.render ++ b₃ ++ [')']))) := by
      simpa [Piece.render, List.append_assoc] using hs
    exact fromClause_keyword_then hs' (List.all_eq_true.1 (by decide)) (by decide) hv.1.1.1 (by decide)
      (exportStop_of_stops (by simp)) hpass
  | importCall b₁ b₂ l b₃ =>
    simp only [Piece.valid, Bool.and_eq_true] at hv
    have hs' : Spells chars i (importChars ++ (b₁ ++ '(' :: (b₂ ++ l.render ++ b₃ ++ [')']))) := by
      simpa [Piece.render, List.append_assoc] using hs
    exact fromClause_keyword_then hs' (List.all_eq_true.1 (by decide)) (by decide) hv.1.1.1 (by decide)
      (exportStop_of_stops (by simp)) hpass
  | importBare b l =>
    simp only [Piece.valid, Bool.and_eq_true] at hv
    have hq := Literal.isQuote_of_wellFormed hv.2
    have hs' : Spells chars i (importChars ++ (b ++ l.quote :: (l.raw ++ [l.quote]))) := by
      simpa [Piece.render, Literal.render, List.append_assoc] using hs
    exact fromClause_keyword_then hs' (List.all_eq_true.1 (by decide)) (by decide) hv.1 (quote_facts hq).1
      (exportStop_of_stops (.inr (.inr (.inr hq)))) hpass
  | _ => simp [Piece.stopsExport] at hp

/-- The search for `from` after an `export` passes a piece that does not end it. -/
theorem fromClause_inExport {p : Piece} (hs : Spells chars i p.render) (hv : p.valid = true)
    (hp : p.inExport = true)
    (hafter : (p.render.getLast?.map isIdent).getD false = true →
      NotIdentAt chars (i + p.render.length)) :
    fromClause chars (fun c => decide (c = ';') || isQuote c || decide (c = '=') || decide (c = '('))
      limit i =
    fromClause chars (fun c => decide (c = ';') || isQuote c || decide (c = '=') || decide (c = '('))
      limit (i + p.render.length) := by
  cases p with
  | word w =>
    simp only [Piece.valid, isIdentifier, Bool.and_eq_true, Bool.not_eq_true',
      List.isEmpty_eq_false_iff, List.all_eq_true] at hv
    exact fromClause_word hs hv.1.2 (by simpa [Piece.inExport, Piece.render] using hp)
      (hafter (getLast_ident hv.1.1 hv.1.2))
      fun d hd => exportStop_pass (.inl hd)
  | punct c =>
    have hc := spells_singleton.1 hs
    simp only [Piece.valid, isPunct, Bool.and_eq_true, Bool.not_eq_true'] at hv
    simp only [Piece.inExport, Bool.not_eq_true', Bool.or_eq_false_iff, beq_eq_false_iff_ne] at hp
    refine fromClause_step hc ?_ (keywordAt_of_not_ident (.inr rfl) hc hv.1.1)
    simp [hv.2, hp.1.1, hp.1.2, hp.2]
  | blank c =>
    have hc := spells_singleton.1 hs
    exact fromClause_step hc (exportStop_pass (.inr (.inl hv)))
      (keywordAt_of_not_ident (.inr rfl) hc (isIdent_eq_false_of_isBlank hv))
  | _ => simp [Piece.inExport] at hp

end ExportSearch

/-! ## The characters around a piece -/

section Texts

@[simp] theorem render_nil : render [] = [] := rfl

@[simp] theorem render_cons {p : Piece} {ps : List Piece} :
    render (p :: ps) = p.render ++ render ps := rfl

@[simp] theorem render_append {ps qs : List Piece} : render (ps ++ qs) = render ps ++ render qs := by
  simp [render]

/-- A well-formed piece is written with at least one character. -/
theorem Piece.render_ne_nil {p : Piece} (hv : p.valid = true) : p.render ≠ [] := by
  cases p with
  | word w =>
    simp only [Piece.valid, isIdentifier, Bool.and_eq_true, Bool.not_eq_true',
      List.isEmpty_eq_false_iff] at hv
    exact hv.1.1
  | _ => simp [Piece.render, Literal.render, exportChars, requireChars, importChars]

/-- The first character of a well-formed piece is a blank only for a blank, a quote only for a
literal, and a parenthesis only for that punctuation. -/
theorem Piece.head_facts {p : Piece} (hv : p.valid = true) :
    ∃ c cs, p.render = c :: cs ∧ (Text.isBlank c = true → p = .blank c) ∧
      (isQuote c = true → ∃ l, p = .literal l) ∧ (c = '(' ∨ c = ')' → p = .punct c) := by
  have hparen : ∀ c, isIdent c = true → ¬(c = '(' ∨ c = ')') := by
    rintro c hc (rfl | rfl) <;> exact absurd hc (by decide)
  cases p with
  | word w =>
    simp only [Piece.valid, isIdentifier, Bool.and_eq_true, Bool.not_eq_true',
      List.isEmpty_eq_false_iff, List.all_eq_true] at hv
    obtain ⟨c, cs, rfl⟩ := List.exists_cons_of_ne_nil hv.1.1
    have hc := hv.1.2 c List.mem_cons_self
    refine ⟨c, cs, rfl, fun hb => ?_, fun hq => ?_, fun h => absurd h (hparen c hc)⟩
    · rw [not_blank_of_ident hc] at hb
      cases hb
    · rw [not_quote_of_ident hc] at hq
      cases hq
  | punct c =>
    simp only [Piece.valid, isPunct, Bool.and_eq_true, Bool.not_eq_true'] at hv
    refine ⟨c, [], rfl, fun hb => ?_, fun hq => ?_, fun _ => rfl⟩
    · rw [hv.1.2] at hb
      cases hb
    · rw [hv.2] at hq
      cases hq
  | blank c =>
    obtain ⟨-, h₁, -, h₃⟩ := blank_facts hv
    refine ⟨c, [], rfl, fun _ => rfl, fun hq => ?_, fun h => ?_⟩
    · rw [h₃] at hq
      cases hq
    · rcases h with rfl | rfl
      · exact absurd rfl h₁
      · exact absurd hv (by decide)
  | literal l =>
    simp only [Piece.valid, Bool.and_eq_true] at hv
    have hq := Literal.isQuote_of_wellFormed hv.1
    refine ⟨l.quote, _, rfl, fun hb => ?_, fun _ => ⟨l, rfl⟩, fun h => ?_⟩
    · rw [(quote_facts hq).2.1] at hb
      cases hb
    · simp only [isQuote, Bool.or_eq_true, decide_eq_true_eq] at hq
      rcases hq with hq | hq <;> rcases h with h | h <;> rw [hq] at h <;> exact absurd h (by decide)
  | _ => exact ⟨_, _, rfl, fun h => absurd h (by decide), fun h => absurd h (by decide),
      fun h => absurd h (by decide)⟩

theorem isChain_fits {ps : List Piece} (h : (ps.zip ps.tail).all (fun pp => pp.1.fits pp.2) = true) :
    List.IsChain (fun p q => p.fits q = true) ps := by
  induction ps with
  | nil => exact .nil
  | cons p ps ih =>
    cases ps with
    | nil => exact .singleton p
    | cons q ps =>
      simp only [List.tail_cons, List.zip_cons_cons, List.all_cons, Bool.and_eq_true] at h
      exact List.isChain_cons_cons.2 ⟨h.1, ih h.2⟩

section Around

variable {pre rest : List Piece} {p : Piece}

theorem valid_of_wellFormed {ps : List Piece} (h : wellFormed ps = true) {q : Piece} (hq : q ∈ ps) :
    q.valid = true := by
  simp only [wellFormed, Bool.and_eq_true, List.all_eq_true] at h
  exact h.1.1.1 q hq

/-- The piece before a piece fits it. -/
theorem fits_before (h : wellFormed (pre ++ p :: rest) = true) {q : Piece}
    (hq : pre.getLast? = some q) : q.fits p = true := by
  simp only [wellFormed, Bool.and_eq_true] at h
  exact (List.isChain_append.1 (isChain_fits h.1.1.2)).2.2 q hq p rfl

/-- A piece fits the piece after it. -/
theorem fits_after (h : wellFormed (pre ++ p :: rest) = true) {q : Piece}
    (hq : rest.head? = some q) : p.fits q = true := by
  simp only [wellFormed, Bool.and_eq_true] at h
  exact (List.isChain_cons.1 (List.isChain_append.1 (isChain_fits h.1.1.2)).2.1).1 q hq

/-- The piece stands in the text after the pieces before it. -/
theorem spells_piece : Spells (render (pre ++ p :: rest)).toArray (render pre).length p.render := by
  simpa using spells_toArray (render pre) p.render (render rest)

/-- The character before a piece is the last one of the piece before it. -/
theorem char_before (h : wellFormed (pre ++ p :: rest) = true) {q : Piece}
    (hq : pre.getLast? = some q) :
    (render (pre ++ p :: rest)).toArray[(render pre).length - 1]? = q.render.getLast? := by
  obtain ⟨pre', rfl⟩ := List.getLast?_eq_some_iff.1 hq
  have hvq : q.valid = true := valid_of_wellFormed h (by simp)
  have hne := Piece.render_ne_nil hvq
  have hlen : 0 < q.render.length := List.length_pos_of_ne_nil hne
  obtain ⟨c, hc⟩ := Option.isSome_iff_exists.1 (List.getLast?_isSome.2 hne)
  rw [List.getElem?_toArray, render_append, List.getElem?_append_left (by simp; omega),
    ← List.getLast?_eq_getElem?, hc]
  simp [hc]

/-- The character after a piece is the first one of the pieces after it. -/
theorem char_after :
    (render (pre ++ p :: rest)).toArray[(render pre).length + p.render.length]? =
      (render rest).head? := by
  rw [List.getElem?_toArray, render_append, render_cons, ← List.append_assoc,
    List.getElem?_append_right (by simp), List.length_append, Nat.sub_self,
    List.head?_eq_getElem?]

theorem head_render_cons (h : wellFormed (pre ++ p :: q :: rest) = true) :
    (render (q :: rest)).head? = q.render.head? := by
  rw [render_cons, List.head?_append]
  have hvq : q.valid = true := valid_of_wellFormed h (by simp)
  obtain ⟨c, cs, hc⟩ := List.exists_cons_of_ne_nil (Piece.render_ne_nil hvq)
  simp [hc]

/-- Two pieces fit when no identifier runs across their border, a slash opens no comment with the
piece after it, and no dot stands before a site the scan refuses after one. -/
theorem fits_iff {q : Piece} : p.fits q = true ↔
    ¬((p.render.getLast?.map isIdent).getD false = true ∧
      (q.render.head?.map isIdent).getD false = true) ∧
    (p = .punct '/' → q.render.head? ≠ some '/' ∧ q.render.head? ≠ some '*') ∧
    (q.refusesDot = true → p.render.getLast? ≠ some '.') := by
  simp only [Piece.fits, Bool.and_eq_true, Bool.or_eq_true, bne_iff_ne, ne_eq,
    Bool.and_eq_false_imp, Bool.not_eq_eq_eq_not, Bool.not_true]
  constructor
  · rintro ⟨⟨h₁, h₂⟩, h₃⟩
    exact ⟨fun ⟨a, b⟩ => by simp [h₁ a] at b, fun hp => h₂.resolve_left (by simp [hp]),
      fun hd => h₃.resolve_left (by simp [hd])⟩
  · rintro ⟨h₁, h₂, h₃⟩
    refine ⟨⟨fun a => by simpa [a] using h₁, ?_⟩, ?_⟩
    · by_cases hp : p = .punct '/'
      · exact .inr (h₂ hp)
      · exact .inl (by simpa using hp)
    · by_cases hd : q.refusesDot = true
      · exact .inr (h₃ hd)
      · exact .inl (by simpa using hd)

/-- No identifier character stands before a piece that starts with one. -/
theorem before_of_wellFormed (h : wellFormed (pre ++ p :: rest) = true)
    (hp : (p.render.head?.map isIdent).getD false = true) :
    (render pre).length = 0 ∨
      NotIdentAt (render (pre ++ p :: rest)).toArray ((render pre).length - 1) := by
  rcases hq : pre.getLast? with _ | q
  · rw [List.getLast?_eq_none_iff.1 hq]
    exact .inl rfl
  · refine .inr fun c hc => ?_
    rw [char_before h hq] at hc
    have hfits := (fits_iff.1 (fits_before h hq)).1
    rw [hc] at hfits
    simpa [hp] using hfits

/-- No dot stands before a site the scan refuses after one. -/
theorem noDot_of_wellFormed (h : wellFormed (pre ++ p :: rest) = true)
    (hp : p.refusesDot = true) :
    (render pre).length = 0 ∨
      (render (pre ++ p :: rest)).toArray[(render pre).length - 1]? ≠ some '.' := by
  rcases hq : pre.getLast? with _ | q
  · rw [List.getLast?_eq_none_iff.1 hq]
    exact .inl rfl
  · rw [char_before h hq]
    exact .inr ((fits_iff.1 (fits_before h hq)).2.2 hp)

/-- No identifier character stands after a piece that ends with one. -/
theorem after_of_wellFormed (h : wellFormed (pre ++ p :: rest) = true)
    (hp : (p.render.getLast?.map isIdent).getD false = true) :
    NotIdentAt (render (pre ++ p :: rest)).toArray ((render pre).length + p.render.length) := by
  intro c hc
  rw [char_after] at hc
  cases rest with
  | nil => simp at hc
  | cons q rest =>
    rw [head_render_cons h] at hc
    have hfits := (fits_iff.1 (fits_after h rfl)).1
    rw [hc] at hfits
    simpa [hp] using hfits

/-- A slash piece is followed by no slash or star. -/
theorem slash_of_wellFormed (h : wellFormed (pre ++ p :: rest) = true) (hp : p = .punct '/') :
    (render (pre ++ p :: rest)).toArray[(render pre).length + 1]? ≠ some '/' ∧
      (render (pre ++ p :: rest)).toArray[(render pre).length + 1]? ≠ some '*' := by
  have hone : (render pre).length + 1 = (render pre).length + p.render.length := by
    subst hp
    rfl
  rw [hone, char_after]
  cases rest with
  | nil => simp
  | cons q rest =>
    rw [head_render_cons h]
    exact (fits_iff.1 (fits_after h rfl)).2.1 hp

end Around

/-- After an `export` that starts no site, the search for `from` gives up, or runs out, before
any `from`. -/
theorem fromClause_exportEnds (limit : Nat) : ∀ (rest pre : List Piece),
    wellFormed (pre ++ rest) = true → exportEnds rest = true →
    fromClause (render (pre ++ rest)).toArray
      (fun c => decide (c = ';') || isQuote c || decide (c = '=') || decide (c = '(')) limit
      (render pre).length = none
  | [], pre, _, _ => fromClause_of_none (by simp)
  | p :: rest, pre, h, hend => by
    simp only [exportEnds, Bool.or_eq_true, Bool.and_eq_true] at hend
    have hv : p.valid = true := valid_of_wellFormed h (by simp)
    rcases hend with hstop | ⟨hin, hend⟩
    · exact fromClause_stopsExport spells_piece hv hstop
    · rw [fromClause_inExport spells_piece hv hin (after_of_wellFormed h)]
      simpa using fromClause_exportEnds limit rest (pre ++ [p]) (by simpa using h) hend

theorem exportEnds_of_exportsEnd {rest : List Piece} :
    ∀ {pre : List Piece}, exportsEnd (pre ++ .exportWord :: rest) = true → exportEnds rest = true
  | [], h => by
    simp only [List.nil_append, exportsEnd, bne_self_eq_false, Bool.false_or,
      Bool.and_eq_true] at h
    exact h.1
  | q :: pre, h => by
    simp only [List.cons_append, exportsEnd, Bool.and_eq_true] at h
    exact exportEnds_of_exportsEnd h.2

/-- An `export` that starts no site finds no `from` after it. -/
theorem ends_of_wellFormed {pre rest : List Piece} {p : Piece}
    (h : wellFormed (pre ++ p :: rest) = true) (hp : p = .exportWord) :
    exportFrom (render (pre ++ p :: rest)).toArray ((render pre).length + 6) = none := by
  subst hp
  have hends : exportEnds rest = true := by
    simp only [wellFormed, Bool.and_eq_true] at h
    exact exportEnds_of_exportsEnd h.1.2
  have := fromClause_exportEnds (min ((render pre).length + 6 + 500)
    (render (pre ++ .exportWord :: rest)).toArray.size) rest (pre ++ [.exportWord])
    (by simpa using h) hends
  simpa [exportFrom, Piece.render, exportChars] using this

end Texts

/-! ## What follows the word `require` -/

section Calls

variable {pre rest : List Piece}

/-- The character after `pre`: none at the end, or the first of the next piece, which is a blank
only for a blank, a quote only for a literal, and a parenthesis only for that punctuation. -/
theorem char_at_rest (h : wellFormed (pre ++ rest) = true) :
    (rest = [] ∧ (render (pre ++ rest)).toArray[(render pre).length]? = none) ∨
      ∃ p rest' c, rest = p :: rest' ∧ (render (pre ++ rest)).toArray[(render pre).length]? = some c ∧
        (Text.isBlank c = true → p = .blank c) ∧ (isQuote c = true → ∃ l, p = .literal l) ∧
        (c = '(' ∨ c = ')' → p = .punct c) := by
  cases rest with
  | nil => exact .inl ⟨rfl, by simp⟩
  | cons p rest' =>
    obtain ⟨c, cs, hr, hblank, hquote, hparen⟩ :=
      Piece.head_facts (valid_of_wellFormed h (q := p) (by simp))
    refine .inr ⟨p, rest', c, rfl, ?_, hblank, hquote, hparen⟩
    have hs : Spells (render (pre ++ p :: rest')).toArray (render pre).length p.render :=
      spells_piece
    simpa [hr] using hs 0 (by simp [hr])

/-- Past the blanks after pieces that do not close a call stands no `)`. -/
theorem closesCall_false : ∀ (rest pre : List Piece), wellFormed (pre ++ rest) = true →
    closesCall rest = false →
    (render (pre ++ rest)).toArray[skipBlanks (render (pre ++ rest)).toArray (render pre).length]? ≠
      some ')'
  | rest, pre, h, hc => by
    rcases char_at_rest h with ⟨rfl, hnone⟩ | ⟨p, rest', c, rfl, hat, hblank, -, hparen⟩
    · rw [skipBlanks_of_notBlank (fun d hd => by simp [hnone] at hd), hnone]
      simp
    · cases hcb : Text.isBlank c
      · -- only the piece `)` starts with `)`
        rw [skipBlanks_of_notBlank (notBlankAt_of hat hcb), hat]
        intro hclose
        cases hclose
        rw [hparen (.inr rfl)] at hc
        simp [closesCall] at hc
      · -- a blank is skipped
        obtain rfl := hblank hcb
        have hlen : (render (pre ++ [.blank c])).length = (render pre).length + 1 := by
          simp [Piece.render]
        have := closesCall_false rest' (pre ++ [.blank c]) (by rwa [← List.append_cons])
          (by simpa [closesCall] using hc)
        rwa [← List.append_cons, hlen, ← skipBlanks_of_blank hat hcb] at this

/-- After pieces that are no literal followed by `)`, blanks aside, no argument is read. -/
theorem stringArg_of_literalArg : ∀ (rest pre : List Piece), wellFormed (pre ++ rest) = true →
    literalArg rest = false → stringArg (render (pre ++ rest)).toArray (render pre).length = none
  | rest, pre, h, hc => by
    rcases char_at_rest h with ⟨rfl, hnone⟩ | ⟨p, rest', c, rfl, hat, hblank, hquote, -⟩
    · rw [stringArg, skipBlanks_of_notBlank (fun d hd => by simp [hnone] at hd), quoted, hnone]
    · cases hcb : Text.isBlank c
      · rw [stringArg, skipBlanks_of_notBlank (notBlankAt_of hat hcb)]
        cases hcq : isQuote c
        · rw [quoted_of_not_quote hat hcq]
        · -- a literal is read, and no `)` closes the call after it
          obtain ⟨l, rfl⟩ := hquote hcq
          have hl : l.wellFormed = true := by
            have := valid_of_wellFormed h (q := .literal l) (by simp)
            simp only [Piece.valid, Bool.and_eq_true] at this
            exact this.1
          have hlen : (render (pre ++ [.literal l])).length = (render pre).length + l.render.length := by
            simp [Piece.render]
          have hclose := closesCall_false rest' (pre ++ [.literal l]) (by rwa [← List.append_cons])
            (by simpa [literalArg] using hc)
          rw [← List.append_cons, hlen] at hclose
          rw [quoted_spells spells_piece hl]
          simp only [beq_iff_eq, hclose, if_false]
      · obtain rfl := hblank hcb
        have hlen : (render (pre ++ [.blank c])).length = (render pre).length + 1 := by
          simp [Piece.render]
        have := stringArg_of_literalArg rest' (pre ++ [.blank c]) (by rwa [← List.append_cons])
          (by simpa [literalArg] using hc)
        rw [← List.append_cons, hlen] at this
        rw [stringArg, skipBlanks_of_blank hat hcb]
        exact this

/-- After pieces that call no single literal, blanks aside, a `(` opens no argument that is
read. -/
theorem stringArg_of_callsLiteral : ∀ (rest pre : List Piece), wellFormed (pre ++ rest) = true →
    callsLiteral rest = false →
    (render (pre ++ rest)).toArray[skipBlanks (render (pre ++ rest)).toArray (render pre).length]? =
      some '(' →
    stringArg (render (pre ++ rest)).toArray
      (skipBlanks (render (pre ++ rest)).toArray (render pre).length + 1) = none
  | rest, pre, h, hc, hopen => by
    rcases char_at_rest h with ⟨rfl, hnone⟩ | ⟨p, rest', c, rfl, hat, hblank, -, hparen⟩
    · rw [skipBlanks_of_notBlank (fun d hd => by simp [hnone] at hd), hnone] at hopen
      cases hopen
    · cases hcb : Text.isBlank c
      · rw [skipBlanks_of_notBlank (notBlankAt_of hat hcb)] at hopen ⊢
        rw [hat] at hopen
        cases hopen
        -- the `(` is a piece of its own, and what follows it is no literal argument
        obtain rfl := hparen (.inl rfl)
        have hlen : (render (pre ++ [.punct '('])).length = (render pre).length + 1 := by
          simp [Piece.render]
        have := stringArg_of_literalArg rest' (pre ++ [.punct '(']) (by rwa [← List.append_cons])
          (by simpa [callsLiteral] using hc)
        rwa [← List.append_cons, hlen] at this
      · obtain rfl := hblank hcb
        have hlen : (render (pre ++ [.blank c])).length = (render pre).length + 1 := by
          simp [Piece.render]
        rw [skipBlanks_of_blank hat hcb] at hopen ⊢
        have := stringArg_of_callsLiteral rest' (pre ++ [.blank c]) (by rwa [← List.append_cons])
          (by simpa [callsLiteral] using hc) (by rwa [← List.append_cons, hlen])
        rwa [← List.append_cons, hlen] at this

/-- The word `require` in a text that keeps it inert stands after a dot or calls no single
literal. -/
theorem requireWordsInert_split {p : Piece} : ∀ {pre : List Piece} {prev : Option Piece},
    requireWordsInert prev (pre ++ p :: rest) = true → p = .word requireChars →
    ((pre.getLast?.or prev).bind (·.render.getLast?)) = some '.' ∨ callsLiteral rest = false
  | [], prev, h, hp => by
    subst hp
    simp only [List.nil_append, requireWordsInert, bne_self_eq_false, Bool.false_or,
      Bool.and_eq_true, Bool.or_eq_true, beq_iff_eq, Bool.not_eq_true'] at h
    simpa using h.1
  | q :: pre, prev, h, hp => by
    simp only [List.cons_append, requireWordsInert, Bool.and_eq_true] at h
    rcases requireWordsInert_split h.2 hp with hdot | hcall
    · refine .inl ?_
      cases hpre : pre.getLast? with
      | none =>
        rw [List.getLast?_eq_none_iff.1 hpre]
        simpa [hpre] using hdot
      | some r =>
        rw [List.getLast?_cons, hpre]
        simpa [hpre] using hdot
    · exact .inr hcall

/-- In a well-formed text the word `require` stands after a dot, or no call of one literal
follows it. -/
theorem inert_of_wellFormed {p : Piece} (h : wellFormed (pre ++ p :: rest) = true)
    (hp : p = .word requireChars) :
    precededByDot (render (pre ++ p :: rest)).toArray (render pre).length = true ∨
      ((render (pre ++ p :: rest)).toArray[skipBlanks (render (pre ++ p :: rest)).toArray
          ((render pre).length + 7)]? = some '(' →
        stringArg (render (pre ++ p :: rest)).toArray
          (skipBlanks (render (pre ++ p :: rest)).toArray ((render pre).length + 7) + 1) = none) := by
  have hinert : requireWordsInert none (pre ++ p :: rest) = true := by
    simp only [wellFormed, Bool.and_eq_true] at h
    exact h.2
  rcases requireWordsInert_split hinert hp with hdot | hcall
  · -- the piece before ends with a dot
    refine .inl ?_
    obtain ⟨q, hq, hqdot⟩ : ∃ q, pre.getLast? = some q ∧ q.render.getLast? = some '.' := by
      cases hpre : pre.getLast? with
      | none => simp [hpre] at hdot
      | some q => exact ⟨q, rfl, by simpa [hpre] using hdot⟩
    have hpos : 0 < (render pre).length := by
      obtain ⟨pre', rfl⟩ := List.getLast?_eq_some_iff.1 hq
      have hne := Piece.render_ne_nil (valid_of_wellFormed h (q := q) (by simp))
      have := List.length_pos_of_ne_nil hne
      simp only [render_append, render_cons, render_nil, List.append_nil, List.length_append]
      omega
    have hat := char_before h hq
    rw [hqdot] at hat
    simp only [precededByDot, hpos, hat, decide_true, beq_self_eq_true, Bool.and_self]
  · refine .inr ?_
    subst hp
    have hlen : (render (pre ++ [.word requireChars])).length = (render pre).length + 7 := by
      simp [Piece.render, requireChars]
    have := stringArg_of_callsLiteral rest (pre ++ [.word requireChars])
      (by rwa [← List.append_cons]) hcall
    rwa [← List.append_cons, hlen] at this

end Calls

/-! ## The scan of a text of pieces -/

/-- What the scan needs to know of the characters around a piece standing at `i`. -/
structure Surroundings (chars : Array Char) (i : Nat) (p : Piece) : Prop where
  spells : Spells chars i p.render
  /-- No identifier character stands before a piece that starts with one. -/
  before : (p.render.head?.map isIdent).getD false = true → i = 0 ∨ NotIdentAt chars (i - 1)
  /-- No dot stands before a site the scan refuses after a dot. -/
  noDot : p.refusesDot = true → i = 0 ∨ chars[i - 1]? ≠ some '.'
  /-- No identifier character stands after a piece that ends with one. -/
  after : (p.render.getLast?.map isIdent).getD false = true →
    NotIdentAt chars (i + p.render.length)
  /-- A slash opens no comment. -/
  slash : p = .punct '/' → chars[i + 1]? ≠ some '/' ∧ chars[i + 1]? ≠ some '*'
  /-- An `export` that starts no site finds no `from` after it. -/
  ends : p = .exportWord → exportFrom chars (i + 6) = none
  /-- The word `require` stands after a dot, or no call of one literal follows it. -/
  inert : p = .word requireChars → precededByDot chars i = true ∨
    (chars[skipBlanks chars (i + 7)]? = some '(' →
      stringArg chars (skipBlanks chars (i + 7) + 1) = none)

/-- Every piece of a well-formed text has the surroundings the scan needs. -/
theorem surroundings {pre rest : List Piece} {p : Piece} (h : wellFormed (pre ++ p :: rest) = true) :
    Surroundings (render (pre ++ p :: rest)).toArray (render pre).length p where
  spells := spells_piece
  before := before_of_wellFormed h
  noDot := noDot_of_wellFormed h
  after := after_of_wellFormed h
  slash := slash_of_wellFormed h
  ends := ends_of_wellFormed h
  inert := inert_of_wellFormed h

section Scan

variable {chars : Array Char} {i : Nat} {f : Found}

/-- A piece read in one step of the scan. -/
theorem scanFrom_of_scanAt {p : Piece} (hs : Spells chars i p.render) (hne : p.render ≠ [])
    {f' : Found} (h : scanAt chars i f = (i + p.render.length, f')) :
    scanFrom chars i f = scanFrom chars (i + p.render.length) f' :=
  scanFrom_step (hs.lt_size (k := 0) (List.length_pos_of_ne_nil hne))
    h (by have := List.length_pos_of_ne_nil hne; omega)

/-- The scan passes each piece of a text and records its specifiers. -/
theorem scanFrom_piece {p : Piece} (hp : Surroundings chars i p) (hv : p.valid = true) :
    scanFrom chars i f = scanFrom chars (i + p.render.length) (p.record f) := by
  have hne := Piece.render_ne_nil hv
  cases p with
  | word w =>
    simp only [Piece.valid, isIdentifier, Bool.and_eq_true, Bool.or_eq_true, beq_iff_eq,
      Bool.not_eq_true', List.isEmpty_eq_false_iff, List.all_eq_true] at hv
    obtain ⟨⟨hw, hid⟩, hkw⟩ := hv
    have hafter := hp.after (getLast_ident hw hid)
    rcases hkw with rfl | hkw
    · -- the word `require`: the scan passes it after a dot, and reads no call after it
      by_cases hdot : precededByDot chars i = true
      · exact scanFrom_dotRequire hp.spells hdot hafter
      · exact scanFrom_of_scanAt hp.spells hne (scanAt_requireWord hp.spells
          (hp.before (by decide)) hafter (by simpa using hdot) ((hp.inert rfl).resolve_left hdot))
    · -- any other word is no keyword
      have hnot : ∀ kw ∈ keywords, w ≠ kw.toList := fun kw hm heq => by
        rw [← keywordChars_eq, heq] at hkw
        simp [List.mem_map_of_mem hm] at hkw
      exact scanFrom_ident hp.spells hw hid hnot hafter
  | punct c =>
    simp only [Piece.valid, isPunct, Bool.and_eq_true, Bool.not_eq_true'] at hv
    exact scanFrom_of_scanAt hp.spells hne
      (scanAt_char (spells_singleton.1 hp.spells) hv.1.1 fun h => h ▸ hp.slash (h ▸ rfl))
  | blank c =>
    have hslash : c ≠ '/' := (blank_facts hv).2.2.1
    exact scanFrom_of_scanAt hp.spells hne
      (scanAt_char (spells_singleton.1 hp.spells) (isIdent_eq_false_of_isBlank hv)
        (absurd · hslash))
  | literal l =>
    simp only [Piece.valid, Bool.and_eq_true] at hv
    exact scanFrom_literal hp.spells hv.1 hv.2
  | lineComment t =>
    simp only [Piece.valid, Bool.not_eq_true'] at hv
    rw [scanFrom_lineComment hp.spells hv]
    simp [Piece.render, Piece.record, Piece.loaded, Piece.onDemand]
  | blockComment t =>
    simp only [Piece.valid, Bool.not_eq_true'] at hv
    rw [scanFrom_blockComment hp.spells hv]
    simp [Piece.render, Piece.record, Piece.loaded, Piece.onDemand]
  | exportWord =>
    exact scanFrom_of_scanAt hp.spells hne (scanAt_exportWord hp.spells
      (hp.before (by decide)) (hp.after (by decide)) (hp.ends rfl))
  | require b₁ b₂ l b₃ =>
    exact scanFrom_of_scanAt hp.spells hne
      (scanAt_require hp.spells hv (hp.before (by simp [Piece.render, requireChars]; decide))
        (hp.noDot rfl))
  | importCall b₁ b₂ l b₃ =>
    exact scanFrom_of_scanAt hp.spells hne
      (scanAt_importCall hp.spells hv (hp.before (by simp [Piece.render, importChars]; decide)))
  | importBare b l =>
    exact scanFrom_of_scanAt hp.spells hne
      (scanAt_importBare hp.spells hv (hp.before (by simp [Piece.render, importChars]; decide))
        (hp.noDot rfl))
  | importFrom b cl b' l =>
    exact scanFrom_of_scanAt hp.spells hne
      (scanAt_importFrom hp.spells hv (hp.before (by simp [Piece.render, importChars]; decide))
        (hp.noDot rfl))
  | exportFrom cl b l =>
    exact scanFrom_of_scanAt hp.spells hne
      (scanAt_exportFrom hp.spells hv (hp.before (by simp [Piece.render, exportChars]; decide)))

end Scan

/-- The scan of a well-formed text from a piece on records the pieces from there in turn. -/
theorem scanFrom_render : ∀ (rest pre : List Piece) (f : Found), wellFormed (pre ++ rest) = true →
    scanFrom (render (pre ++ rest)).toArray (render pre).length f =
      rest.foldl (fun f p => p.record f) f
  | [], pre, f, _ => scanFrom_of_size (by simp)
  | p :: rest, pre, f, h => by
    rw [scanFrom_piece (surroundings h) (valid_of_wellFormed h (by simp))]
    simpa using scanFrom_render rest (pre ++ [p]) (p.record f) (by simpa using h)

/-- The scan finds exactly what a well-formed text declares: the specifiers of its sites loaded
with the module, each once, in order of first appearance, and one group for each specifier
loaded on demand, the empty ones left out. -/
theorem extractRequires_eq_declared {ps : List Piece} (h : wellFormed ps = true) :
    extractRequires (String.ofList (render ps)) = declared ps := by
  have hscan : scan (render ps).toArray ((render ps).toArray.size + 1) 0 ⟨[], [], []⟩ =
      ps.foldl (fun f p => p.record f) ⟨[], [], []⟩ := by
    rw [scan_eq_scanFrom (by omega)]
    simpa using scanFrom_render ps [] ⟨[], [], []⟩ (by simpa using h)
  obtain ⟨hs, ho, hg⟩ := foldl_record ps ⟨[], [], []⟩ rfl
  simp only [extractRequires, String.toList_ofList, hscan, declared]
  rw [hg, ← List.map_reverse, hs, ho, reverse_foldl_remember, reverse_foldl_remember]
  simp

/-- A text with each kind of site among what the scan passes: a call of `require` after a
declaration, `m.require('m')`, `require(a)` and a bare `require`, none of them a site, a line
comment holding a call, `import b /* b */ from "b"`, `export {c} from 'c'`, and an
`export default` before a call of `import`. -/
def mixedText : List Piece :=
  [.word ['c', 'o', 'n', 's', 't'], .blank ' ', .word ['a'], .blank ' ', .punct '=', .blank ' ',
    .require [] [] ⟨'\'', [.plain 'a']⟩ [], .punct ';', .blank ' ',
    .word ['m'], .punct '.', .word requireChars, .punct '(', .literal ⟨'\'', [.plain 'm']⟩,
    .punct ')', .punct ';', .blank ' ', .word requireChars, .punct '(', .word ['a'], .punct ')',
    .punct ';', .blank ' ', .word ['r'], .blank ' ', .punct '=', .blank ' ', .word requireChars,
    .punct ';', .blank ' ',
    .lineComment [' ', 'r', 'e', 'q', 'u', 'i', 'r', 'e', '(', '\'', 'x', '\'', ')'],
    .importFrom [' '] [.word ['b'], .blank ' ', .punct '/', .punct '*', .blank ' ', .word ['b'],
      .blank ' ', .punct '*', .punct '/', .blank ' '] [' '] ⟨'"', [.plain 'b']⟩, .punct ';',
    .blank ' ',
    .exportFrom [.blank ' ', .punct '{', .word ['c'], .punct '}', .blank ' '] [' ']
      ⟨'\'', [.plain 'c']⟩,
    .punct ';', .blank '\n', .exportWord, .blank ' ', .word ['d', 'e', 'f', 'a', 'u', 'l', 't'],
    .blank ' ', .importCall [] [] ⟨'\'', [.plain 'd']⟩ [], .punct ';']

theorem extractRequires_mixed_text :
    wellFormed mixedText = true ∧
      extractRequires (String.ofList (render mixedText)) = declared mixedText :=
  have h : wellFormed mixedText = true := by decide +kernel
  ⟨h, extractRequires_eq_declared h⟩

/-- `var s = "require('x')";`: identifiers, punctuation, blanks and a literal holding a call
of `require`. -/
def quotedRequire : List Piece :=
  [.word ['v', 'a', 'r'], .blank ' ', .word ['s'], .blank ' ', .punct '=', .blank ' ',
    .literal ⟨'"', ['r', 'e', 'q', 'u', 'i', 'r', 'e', '(', '\'', 'x', '\'', ')'].map .plain⟩,
    .punct ';']

/-- The scan does not know where literals are: it reads the call of `require` inside one, in a
text that declares nothing. -/
theorem require_in_literal_is_read :
    (declared quotedRequire).sync = [] ∧
      (extractRequires (String.ofList (render quotedRequire))).sync = ["x"] := by
  decide +kernel

/-- `import{a}from"./b";`: an `import ... from` site with no blank anywhere. -/
def packedImport : List Piece :=
  [.importFrom [] [.punct '{', .word ['a'], .punct '}'] []
      ⟨'"', [.plain '.', .plain '/', .plain 'b']⟩,
    .punct ';']

/-- A well-formed text whose one specifier the scan reads, and which the rewriting leaves as it
is: resolving `./b` to `B.js` gives a text the scan still reads `./b` from. -/
theorem packed_import_is_not_rewritten :
    wellFormed packedImport = true ∧
      (extractRequires (String.ofList (render packedImport))).sync = ["./b"] ∧
      (extractRequires (Wrap.resolveRequires (String.ofList (render packedImport))
        [("./b", "B.js")])).sync = ["./b"] := by
  decide +kernel

end Requires

end ModuleBundler
