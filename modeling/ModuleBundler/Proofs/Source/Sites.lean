import ModuleBundler.Proofs.Source.Reading

/-!
# Pieces the scan reads whole

How the scan of `ModuleBundler.Source.Requires` meets each kind of piece of a text. Words,
punctuation, blanks and quiet literals are passed a character at a time, comments are skipped
whole, and each dependency site is read in one step that records its specifier. Each lemma takes
the characters around the piece as hypotheses: what stands before a keyword, whether a dot does,
and what follows; `ModuleBundler.Proofs.Source.Extraction` gets them from the text around it.

The sites with a clause (`import ... from`, `export ... from`) go through the search for `from`,
which passes the clause a character at a time (`fromClause_clause`) and reads the literal after
the `from` that ends it (`fromClause_site`).
-/

namespace ModuleBundler

namespace Requires

/-! ## Keywords and characters -/

theorem toList_require : "require".toList = requireChars := rfl

theorem toList_import : "import".toList = importChars := rfl

theorem toList_export : "export".toList = exportChars := rfl

theorem toList_from : "from".toList = fromChars := rfl

theorem keywordChars_eq : keywords.map String.toList = keywordChars := rfl

theorem mem_keywords_or_from {kw : String} (hkw : kw ∈ keywords ∨ kw = "from") :
    kw ∈ ["require", "import", "export", "from"] := by
  simp only [keywords, List.mem_cons, List.not_mem_nil, or_false] at hkw ⊢
  tauto

theorem ident_of_mem_keyword {kw : String} (hkw : kw ∈ keywords ∨ kw = "from") :
    ∀ c ∈ kw.toList, isIdent c = true := by
  have key : ∀ kw ∈ ["require", "import", "export", "from"], kw.toList.all isIdent = true := by
    decide
  exact List.all_eq_true.1 (key kw (mem_keywords_or_from hkw))

theorem keyword_ne_nil {kw : String} (hkw : kw ∈ keywords ∨ kw = "from") : kw.toList ≠ [] := by
  have key : ∀ kw ∈ ["require", "import", "export", "from"], kw.toList.isEmpty = false := by
    decide
  simpa using key kw (mem_keywords_or_from hkw)

/-- No keyword, nor `from`, is found where a character other than an identifier character
stands. -/
theorem keywordAt_of_not_ident {chars : Array Char} {i : Nat} {kw : String}
    (hkw : kw ∈ keywords ∨ kw = "from") {c : Char} (h : chars[i]? = some c)
    (hc : isIdent c = false) : keywordAt chars i kw = false := by
  refine keywordAt_of_head (keyword_ne_nil hkw) h fun hhead => ?_
  obtain ⟨d, ds, hds⟩ := List.exists_cons_of_ne_nil (keyword_ne_nil hkw)
  rw [hds, List.head?_cons, Option.some.injEq] at hhead
  have := ident_of_mem_keyword hkw d (by simp [hds])
  rw [hhead, hc] at this
  exact Bool.false_ne_true this

/-- Within a word spelled at `i` with no identifier character after it, no keyword other than
the word is found. -/
theorem keywordAt_in_word {chars : Array Char} {i : Nat} {w : List Char} (hs : Spells chars i w)
    (hw : ∀ c ∈ w, isIdent c = true) (hafter : NotIdentAt chars (i + w.length)) {kw : String}
    (hkw : kw ∈ keywords ∨ kw = "from") (hne : w ≠ kw.toList) {k : Nat} (hk : k < w.length) :
    keywordAt chars (i + k) kw = false := by
  cases k with
  | zero =>
    cases h : keywordAt chars (i + 0) kw
    · rfl
    · exact absurd (eq_of_keywordAt h hs hw hafter (ident_of_mem_keyword hkw)) hne
  | succ k =>
    have hprev := hs k (by omega)
    exact keywordAt_of_ident_before (by omega) (by simpa [Nat.add_assoc] using hprev)
      (hw _ (List.getElem_mem _))

/-- Whether the character before `j` is `prev`, or, for `none`, no identifier character. -/
def PrevIs (chars : Array Char) (j : Nat) : Option Char → Prop
  | none => j = 0 ∨ NotIdentAt chars (j - 1)
  | some c => 0 < j ∧ chars[j - 1]? = some c

/-- No identifier character stands before a keyword that is found. -/
theorem before_of_keywordAt {chars : Array Char} {i : Nat} {kw : String}
    (h : keywordAt chars i kw = true) : i = 0 ∨ NotIdentAt chars (i - 1) := by
  rcases Nat.eq_zero_or_pos i with hi | hi
  · exact .inl hi
  · refine .inr fun c hc => ?_
    cases hic : isIdent c
    · rfl
    · rw [keywordAt_of_ident_before hi hc hic] at h
      simp at h

/-- A keyword found where quiet characters are spelled stands alone in them. -/
theorem standsAlone_of_keywordAt {chars : Array Char} {j : Nat} {kw : String}
    (hkw : kw ∈ keywords) (hk : keywordAt chars j kw = true) {cs : List Char}
    {prev : Option Char} (hs : Spells chars j cs) (hprev : PrevIs chars j prev)
    (hend : NotIdentAt chars (j + cs.length)) : standsAlone prev cs kw.toList = true := by
  obtain ⟨hskw, hafter⟩ := spells_of_keywordAt hk
  have hid := ident_of_mem_keyword (.inl hkw)
  -- the keyword fits in the characters: their end is no identifier character
  have hlen : kw.toList.length ≤ cs.length := by
    by_contra hlt
    have := hend _ (hskw cs.length (by omega))
    rw [hid _ (List.getElem_mem _)] at this
    simp at this
  have hprev' : (prev.map isIdent).getD false = false := by
    cases prev with
    | none => rfl
    | some c =>
      rcases before_of_keywordAt hk with h0 | hnot
      · exact absurd h0 (Nat.pos_iff_ne_zero.1 hprev.1)
      · simpa using hnot c hprev.2
  have htake : cs.take kw.toList.length = kw.toList := by
    refine List.ext_getElem (by simpa using hlen) fun m hm hm' => ?_
    have h₁ := hs m (by simp at hm; omega)
    rw [hskw m hm', Option.some.injEq] at h₁
    simp [h₁]
  have hdrop : (cs[kw.toList.length]?.map isIdent).getD false = false := by
    rcases Nat.lt_or_ge kw.toList.length cs.length with hlt | hge
    · rw [List.getElem?_eq_getElem hlt]
      simpa using hafter _ (hs _ hlt)
    · rw [List.getElem?_eq_none hge]
      rfl
  simp [standsAlone, hprev', htake, hdrop]

/-! ## Pieces the scan passes -/

section Passing

variable {chars : Array Char} {i : Nat} {f : Found}

/-- A character that is no identifier character, and no slash opening a comment, is passed. -/
theorem scanAt_char {c : Char} (h : chars[i]? = some c) (hc : isIdent c = false)
    (hslash : c = '/' → chars[i + 1]? ≠ some '/' ∧ chars[i + 1]? ≠ some '*') :
    scanAt chars i f = (i + 1, f) := by
  refine scanAt_plain (fun ⟨h₀, h₁⟩ => ?_) fun kw hkw => keywordAt_of_not_ident (.inl hkw) h hc
  rw [h, Option.some.injEq] at h₀
  obtain ⟨n₁, n₂⟩ := hslash h₀
  rcases h₁ with h₁ | h₁
  · exact n₁ h₁
  · exact n₂ h₁

/-- A word that is no keyword is passed, one character at a time. -/
theorem scanFrom_ident {w : List Char} (hs : Spells chars i w) (hne : w ≠ [])
    (hw : ∀ c ∈ w, isIdent c = true) (hkw : ∀ kw ∈ keywords, w ≠ kw.toList)
    (hafter : NotIdentAt chars (i + w.length)) :
    scanFrom chars i f = scanFrom chars (i + w.length) f := by
  have hlen := List.length_pos_of_ne_nil hne
  refine scanFrom_walk (by have := hs.lt_size (k := w.length - 1) (by omega); omega)
    fun k hk => scanAt_plain (fun ⟨h₀, _⟩ => ?_)
      fun kw hm => keywordAt_in_word hs hw hafter (.inl hm) (hkw kw hm) hk
  -- a slash is no identifier character
  rw [hs k hk, Option.some.injEq] at h₀
  have := hw _ (List.getElem_mem hk)
  rw [h₀] at this
  exact absurd this (by decide)

/-- Quiet characters are passed one at a time. -/
theorem scanFrom_quiet : ∀ {cs : List Char} {prev : Option Char} {j : Nat},
    Spells chars j cs → quiet prev cs = true → PrevIs chars j prev →
    NotIdentAt chars (j + cs.length) →
    chars[j + cs.length]? ≠ some '/' ∧ chars[j + cs.length]? ≠ some '*' →
    scanFrom chars j f = scanFrom chars (j + cs.length) f
  | [], _, _, _, _, _, _, _ => rfl
  | c :: cs, prev, j, hs, hq, hprev, hend, hslash => by
    rw [spells_cons] at hs
    simp only [quiet, Bool.and_eq_true, Bool.not_eq_true', List.all_eq_true] at hq
    obtain ⟨⟨hcomment, hkw⟩, hrest⟩ := hq
    have hlen : (c :: cs).length = cs.length + 1 := rfl
    -- the character after `c` is the head of `cs`, or the one after all of them
    have hnext : chars[j + 1]? = cs.head? ∨ (cs = [] ∧ chars[j + 1]? = chars[j + (c :: cs).length]?) := by
      cases cs with
      | nil => exact .inr ⟨rfl, rfl⟩
      | cons d ds => exact .inl (hs.2 0 (by simp))
    have hstep : scanAt chars j f = (j + 1, f) := by
      refine scanAt_plain (fun ⟨h₀, h₁⟩ => ?_) fun kw hm => ?_
      · rw [hs.1, Option.some.injEq] at h₀
        subst h₀
        rcases hnext with hn | ⟨rfl, hn⟩
        · rw [hn] at h₁
          simp only [beq_self_eq_true, Bool.true_and, Bool.or_eq_false_iff, beq_eq_false_iff_ne,
            ne_eq] at hcomment
          rcases h₁ with h₁ | h₁
          · exact hcomment.1 h₁
          · exact hcomment.2 h₁
        · rw [hn] at h₁
          rcases h₁ with h₁ | h₁
          · exact hslash.1 h₁
          · exact hslash.2 h₁
      · cases hk : keywordAt chars j kw
        · rfl
        · have := standsAlone_of_keywordAt hm hk (spells_cons.2 hs) hprev hend
          rw [hkw kw.toList (keywordChars_eq ▸ List.mem_map_of_mem hm)] at this
          simp at this
    have hj : j < chars.size := (Array.getElem?_eq_some_iff.1 hs.1).1
    rw [scanFrom_step hj hstep (Nat.lt_succ_self j)]
    have := scanFrom_quiet hs.2 hrest ⟨Nat.succ_pos j, by simpa using hs.1⟩
      (by simpa [hlen, Nat.add_assoc, Nat.add_comm 1] using hend)
      (by simpa [hlen, Nat.add_assoc, Nat.add_comm 1] using hslash)
    rw [this, hlen, Nat.add_assoc, Nat.add_comm 1]

/-- A quiet literal is passed, quotes and all. -/
theorem scanFrom_literal {l : Literal} (hs : Spells chars i l.render) (hl : l.wellFormed = true)
    (hq : quiet none l.raw = true) : scanFrom chars i f = scanFrom chars (i + l.render.length) f := by
  have hquote := Literal.isQuote_of_wellFormed hl
  obtain ⟨hqid, -, -, -⟩ := quote_facts hquote
  have hqslash : l.quote ≠ '/' := fun h => by simp [h, isQuote] at hquote
  have hqstar : l.quote ≠ '*' := fun h => by simp [h, isQuote] at hquote
  rw [Literal.render, List.cons_append, spells_cons, spells_append, spells_singleton] at hs
  obtain ⟨hopen, hraw, hclose⟩ := hs
  have hopen' : NotIdentAt chars (i + 1 - 1) := fun c hc => by
    rw [Nat.add_sub_cancel, hopen, Option.some.injEq] at hc
    exact hc ▸ hqid
  have hclose' : NotIdentAt chars (i + 1 + l.raw.length) := fun c hc => by
    rw [hclose, Option.some.injEq] at hc
    exact hc ▸ hqid
  have hi : i < chars.size := (Array.getElem?_eq_some_iff.1 hopen).1
  have hi' : i + 1 + l.raw.length < chars.size := (Array.getElem?_eq_some_iff.1 hclose).1
  rw [scanFrom_step hi (scanAt_char hopen hqid (absurd · hqslash)) (Nat.lt_succ_self i),
    scanFrom_quiet hraw hq (.inr hopen') hclose' (by rw [hclose]; simp [hqslash, hqstar]),
    scanFrom_step hi' (scanAt_char hclose hqid (absurd · hqslash)) (Nat.lt_succ_self _)]
  simp [Literal.render, Nat.add_assoc, Nat.add_comm 1]

/-- A line comment is skipped to its line feed, which is then passed. -/
theorem scanFrom_lineComment {t : List Char} (hs : Spells chars i ('/' :: '/' :: t ++ ['\n']))
    (ht : t.contains '\n' = false) : scanFrom chars i f = scanFrom chars (i + (t.length + 3)) f := by
  have hline : lineEnd chars i = i + (t.length + 2) := by
    rw [lineEnd_spells (t := '/' :: '/' :: t) (by simpa using hs) (by simpa using ht)]
    simp
  simp only [List.cons_append, spells_cons, spells_append] at hs
  obtain ⟨h₀, h₁, -, hfeed, -⟩ := hs
  have hi : i < chars.size := (Array.getElem?_eq_some_iff.1 h₀).1
  have hat : scanAt chars i f = (lineEnd chars i, f) := by simp [scanAt, h₀, h₁]
  have hfeed' : chars[i + (t.length + 2)]? = some '\n' := by
    rw [show i + (t.length + 2) = i + 1 + 1 + t.length by omega]
    exact hfeed
  have hj : i + (t.length + 2) < chars.size := (Array.getElem?_eq_some_iff.1 hfeed').1
  rw [scanFrom_step hi (hline ▸ hat) (by omega),
    scanFrom_step hj (scanAt_char hfeed' (by decide) fun h => absurd h (by decide))
      (Nat.lt_succ_self _),
    show i + (t.length + 2) + 1 = i + (t.length + 3) by omega]

/-- A block comment is skipped whole. -/
theorem scanFrom_blockComment {t : List Char} (hs : Spells chars i ('/' :: '*' :: t ++ ['*', '/']))
    (ht : closesComment t = false) : scanFrom chars i f = scanFrom chars (i + (t.length + 4)) f := by
  simp only [List.cons_append, spells_cons] at hs
  obtain ⟨h₀, h₁, hrest⟩ := hs
  have hi : i < chars.size := (Array.getElem?_eq_some_iff.1 h₀).1
  have hat : scanAt chars i f = (blockEnd chars (i + 1 + 1) + 2, f) := by
    simp [scanAt, h₀, h₁]
  rw [blockEnd_spells hrest ht] at hat
  rw [scanFrom_step hi hat (by omega)]
  congr 1
  omega

end Passing

/-! ## Sites -/

section Sites

variable {chars : Array Char} {i : Nat} {f : Found}

theorem blank_facts {c : Char} (hc : Text.isBlank c = true) :
    isIdent c = false ∧ c ≠ '(' ∧ c ≠ '/' ∧ isQuote c = false := by
  refine ⟨isIdent_eq_false_of_isBlank hc, ?_, ?_, ?_⟩
  · rintro rfl
    exact absurd hc (by decide)
  · rintro rfl
    exact absurd hc (by decide)
  · simp only [isQuote, Bool.or_eq_false_iff, decide_eq_false_iff_not]
    constructor <;> rintro rfl <;> exact absurd hc (by decide)

theorem notIdentAt_of {j : Nat} {c : Char} (hc : chars[j]? = some c)
    (hci : isIdent c = false) : NotIdentAt chars j := fun d hd => by
  rw [hc, Option.some.injEq] at hd
  exact hd ▸ hci

theorem notIdentAt_of_blanks_cons {j : Nat} {e : Char} {b : List Char}
    (hb : blanks (e :: b) = true) (hs : Spells chars j (e :: b)) : NotIdentAt chars j := by
  intro d hd
  rw [spells_cons, hd, Option.some.injEq] at hs
  simp only [blanks, List.all_cons, Bool.and_eq_true] at hb
  exact hs.1 ▸ (blank_facts hb.1).1

/-- The character starting blanks followed by `c` is no identifier character when `c` is none. -/
theorem notIdentAt_of_blanks {j : Nat} {b : List Char} (hb : blanks b = true)
    (hs : Spells chars j b) {c : Char} (hc : chars[j + b.length]? = some c)
    (hci : isIdent c = false) : NotIdentAt chars j := by
  intro d hd
  cases b with
  | nil => exact notIdentAt_of (by simpa using hc) hci d hd
  | cons e b => exact notIdentAt_of_blanks_cons hb hs d hd

theorem notBlankAt_of {j : Nat} {c : Char} (hc : chars[j]? = some c)
    (hcb : Text.isBlank c = false) : NotBlankAt chars j := fun d hd => by
  rw [hc, Option.some.injEq] at hd
  exact hd ▸ hcb

theorem keywordAt_of_first {kw : String} (hkw : kw ∈ keywords ∨ kw = "from") {c : Char}
    (h : chars[i]? = some c) (hc : kw.toList.head? ≠ some c) : keywordAt chars i kw = false :=
  keywordAt_of_head (keyword_ne_nil hkw) h hc

theorem precededByDot_eq_false (hdot : i = 0 ∨ chars[i - 1]? ≠ some '.') :
    precededByDot chars i = false := by
  rcases hdot with h0 | hne
  · simp [precededByDot, h0]
  · simp [precededByDot, hne]

/-- A call of `require` is read whole and records its specifier. -/
theorem scanAt_require {b₁ b₂ b₃ : List Char} {l : Literal}
    (hs : Spells chars i (Piece.require b₁ b₂ l b₃).render)
    (hv : (Piece.require b₁ b₂ l b₃).valid = true) (hbefore : i = 0 ∨ NotIdentAt chars (i - 1))
    (hdot : i = 0 ∨ chars[i - 1]? ≠ some '.') :
    scanAt chars i f = (i + (Piece.require b₁ b₂ l b₃).render.length, f.addSync l.text) := by
  simp only [Piece.valid, Bool.and_eq_true] at hv
  obtain ⟨⟨⟨hb₁, hb₂⟩, hl⟩, hb₃⟩ := hv
  have hs' : Spells chars i (requireChars ++ (b₁ ++ ('(' :: (b₂ ++ l.render ++ b₃ ++ [')'])))) := by
    simpa [Piece.render, List.append_assoc] using hs
  rw [spells_append, spells_append, spells_cons] at hs'
  obtain ⟨hkw, hsb₁, hparen, hargs⟩ := hs'
  have h7 : requireChars.length = 7 := rfl
  rw [h7] at hsb₁ hparen hargs
  have hr : chars[i]? = some 'r' := hkw 0 (by decide)
  have hafter : NotIdentAt chars (i + 7) := notIdentAt_of_blanks hb₁ hsb₁ hparen (by decide)
  have hreq : keywordAt chars i "require" = true :=
    keywordAt_eq_true (by decide) (toList_require ▸ hkw) hbefore hafter
  have hskip : skipBlanks chars (i + 7) = i + 7 + b₁.length :=
    skipBlanks_spells hsb₁ hb₁ (notBlankAt_of hparen (by decide))
  have harg := stringArg_spells hargs hb₂ hb₃ hl
  have hnodot := precededByDot_eq_false hdot
  simp only [scanAt, hr,
    keywordAt_of_first (show "import" ∈ keywords ∨ "import" = "from" by decide) hr (by decide),
    keywordAt_of_first (show "export" ∈ keywords ∨ "export" = "from" by decide) hr (by decide),
    hreq, hnodot, hskip, hparen, harg]
  simp [Piece.render, h7]
  omega

/-- The word `require`, with no dot before it and no call of one literal after it, is passed
whole. -/
theorem scanAt_requireWord (hs : Spells chars i requireChars)
    (hbefore : i = 0 ∨ NotIdentAt chars (i - 1)) (hafter : NotIdentAt chars (i + 7))
    (hdot : precededByDot chars i = false)
    (hcall : chars[skipBlanks chars (i + 7)]? = some '(' →
      stringArg chars (skipBlanks chars (i + 7) + 1) = none) :
    scanAt chars i f = (i + 7, f) := by
  have hr : chars[i]? = some 'r' := hs 0 (by decide)
  have hreq : keywordAt chars i "require" = true :=
    keywordAt_eq_true (by decide) (toList_require ▸ hs) hbefore hafter
  simp only [scanAt, hr,
    keywordAt_of_first (show "import" ∈ keywords ∨ "import" = "from" by decide) hr (by decide),
    keywordAt_of_first (show "export" ∈ keywords ∨ "export" = "from" by decide) hr (by decide),
    hreq, hdot]
  by_cases hparen : chars[skipBlanks chars (i + 7)]? = some '('
  · simp [hparen, hcall hparen]
  · simp [hparen]

/-- The word `require` after a dot is passed one character at a time: the dot turns the scan
away from the site, and inside the word no keyword stands alone. -/
theorem scanFrom_dotRequire (hs : Spells chars i requireChars) (hdot : precededByDot chars i = true)
    (hafter : NotIdentAt chars (i + 7)) : scanFrom chars i f = scanFrom chars (i + 7) f := by
  have hr : chars[i]? = some 'r' := hs 0 (by decide)
  have hfirst : scanAt chars i f = (i + 1, f) := by
    simp only [scanAt, hr,
      keywordAt_of_first (show "import" ∈ keywords ∨ "import" = "from" by decide) hr (by decide),
      keywordAt_of_first (show "export" ∈ keywords ∨ "export" = "from" by decide) hr (by decide),
      hdot]
    simp
  have hid : ∀ c ∈ requireChars, isIdent c = true := List.all_eq_true.1 (by decide)
  rw [scanFrom_step (by have := hs.lt_size (k := 0) (by decide); omega) hfirst (by omega)]
  rw [show i + 7 = i + 1 + 6 by omega]
  refine scanFrom_walk (by have := hs.lt_size (k := 6) (by decide); omega) fun k hk => ?_
  have hk' : k + 1 < requireChars.length := by
    have h7 : requireChars.length = 7 := rfl
    omega
  have hat : chars[i + 1 + k]? = some requireChars[k + 1] := by
    rw [Nat.add_assoc, Nat.add_comm 1 k]
    exact hs (k + 1) hk'
  refine scanAt_plain (fun hslash => ?_) fun kw hm => ?_
  · -- a letter is no slash
    have h₀ := hslash.1
    rw [hat, Option.some.injEq] at h₀
    have := hid _ (List.getElem_mem hk')
    rw [h₀] at this
    exact absurd this (by decide)
  · exact keywordAt_of_ident_before (by omega)
      (by simpa [Nat.add_assoc, Nat.add_comm 1 k] using hs k (by omega))
      (hid _ (List.getElem_mem _))

/-- A call of `import` is read whole and records its specifier as loaded on demand. -/
theorem scanAt_importCall {b₁ b₂ b₃ : List Char} {l : Literal}
    (hs : Spells chars i (Piece.importCall b₁ b₂ l b₃).render)
    (hv : (Piece.importCall b₁ b₂ l b₃).valid = true) (hbefore : i = 0 ∨ NotIdentAt chars (i - 1)) :
    scanAt chars i f = (i + (Piece.importCall b₁ b₂ l b₃).render.length, f.addGroup l.text) := by
  simp only [Piece.valid, Bool.and_eq_true] at hv
  obtain ⟨⟨⟨hb₁, hb₂⟩, hl⟩, hb₃⟩ := hv
  have hs' : Spells chars i (importChars ++ (b₁ ++ ('(' :: (b₂ ++ l.render ++ b₃ ++ [')'])))) := by
    simpa [Piece.render, List.append_assoc] using hs
  rw [spells_append, spells_append, spells_cons] at hs'
  obtain ⟨hkw, hsb₁, hparen, hargs⟩ := hs'
  have h6 : importChars.length = 6 := rfl
  rw [h6] at hsb₁ hparen hargs
  have hi : chars[i]? = some 'i' := hkw 0 (by decide)
  have himp : keywordAt chars i "import" = true :=
    keywordAt_eq_true (by decide) (toList_import ▸ hkw) hbefore
      (notIdentAt_of_blanks hb₁ hsb₁ hparen (by decide))
  have hskip : skipBlanks chars (i + 6) = i + 6 + b₁.length :=
    skipBlanks_spells hsb₁ hb₁ (notBlankAt_of hparen (by decide))
  have harg := stringArg_spells hargs hb₂ hb₃ hl
  simp only [scanAt, hi, himp, hskip, hparen, harg]
  simp [Piece.render, h6]
  omega

/-- A bare `import` is read whole and records its specifier. -/
theorem scanAt_importBare {b : List Char} {l : Literal}
    (hs : Spells chars i (Piece.importBare b l).render) (hv : (Piece.importBare b l).valid = true)
    (hbefore : i = 0 ∨ NotIdentAt chars (i - 1)) (hdot : i = 0 ∨ chars[i - 1]? ≠ some '.') :
    scanAt chars i f = (i + (Piece.importBare b l).render.length, f.addSync l.text) := by
  simp only [Piece.valid, Bool.and_eq_true] at hv
  obtain ⟨hb, hl⟩ := hv
  have hq := Literal.isQuote_of_wellFormed hl
  obtain ⟨hqid, hqblank, -, -⟩ := quote_facts hq
  have hs' : Spells chars i (importChars ++ (b ++ l.render)) := by
    simpa [Piece.render, List.append_assoc] using hs
  rw [spells_append, spells_append] at hs'
  obtain ⟨hkw, hsb, hlit⟩ := hs'
  have h6 : importChars.length = 6 := rfl
  rw [h6] at hsb hlit
  have hopen : chars[i + 6 + b.length]? = some l.quote := hlit.quote_at
  have hi : chars[i]? = some 'i' := hkw 0 (by decide)
  have himp : keywordAt chars i "import" = true :=
    keywordAt_eq_true (by decide) (toList_import ▸ hkw) hbefore
      (notIdentAt_of_blanks hb hsb hopen hqid)
  have hskip : skipBlanks chars (i + 6) = i + 6 + b.length :=
    skipBlanks_spells hsb hb (notBlankAt_of hopen hqblank)
  have hnotparen : (chars[i + 6 + b.length]? == some '(') = false := by
    rw [hopen]
    simp only [isQuote, Bool.or_eq_true, decide_eq_true_eq] at hq
    rcases hq with h | h <;> simp [h]
  have hnodot := precededByDot_eq_false hdot
  simp only [scanAt, hi, himp, hskip, hnotparen, hnodot, importStatement, quoted_spells hlit hl]
  simp [Piece.render, h6]
  omega

/-! ### Clauses -/

theorem ident_of_valid_word {stops : List Char} {w : List Char}
    (h : (ClauseTok.word w).valid stops = true) :
    w ≠ [] ∧ (∀ c ∈ w, isIdent c = true) ∧ w ≠ fromChars := by
  simp only [ClauseTok.valid, isIdentifier, Bool.and_eq_true, Bool.not_eq_true',
    List.isEmpty_eq_false_iff, List.all_eq_true, bne_iff_ne, ne_eq] at h
  exact ⟨h.1.1, h.1.2, h.2⟩

/-- A clause token other than a word is one character, no identifier character, that the search
for `from` passes when it passes blanks and punctuation other than the clause's stops. -/
theorem render_of_not_word {stops : List Char} {t : ClauseTok} (hv : t.valid stops = true)
    (hw : t.isWord = false) :
    ∃ c, t.render = [c] ∧ isIdent c = false ∧
      (Text.isBlank c = true ∨ (isPunct c = true ∧ stops.contains c = false)) := by
  cases t with
  | word w => simp [ClauseTok.isWord] at hw
  | punct c =>
    simp only [ClauseTok.valid, Bool.and_eq_true, Bool.not_eq_true'] at hv
    have hid : isIdent c = false := by
      simp only [isPunct, Bool.and_eq_true, Bool.not_eq_true'] at hv
      exact hv.1.1.1
    exact ⟨c, rfl, hid, .inr hv⟩
  | blank c => exact ⟨c, rfl, isIdent_eq_false_of_isBlank hv, .inl hv⟩

theorem clause_cons {stops : List Char} {cap : Nat} {t : ClauseTok} {cl : List ClauseTok}
    (h : clause stops cap (t :: cl) = true) :
    t.valid stops = true ∧ clause stops cap cl = true ∧
      (t.isWord = true → ∃ t' rest, cl = t' :: rest ∧ t'.isWord = false) := by
  simp only [clause, Bool.and_eq_true, List.all_cons, decide_eq_true_eq, List.flatMap_cons,
    List.length_append, List.tail_cons] at h
  obtain ⟨⟨⟨⟨ht, hall⟩, hchain⟩, hlast⟩, hlen⟩ := h
  cases cl with
  | nil =>
    refine ⟨ht, by simp only [List.flatMap_nil, List.length_nil] at hlen; simp [clause]; omega,
      fun hw => ?_⟩
    simp [hw] at hlast
  | cons t' rest =>
    simp only [List.zip_cons_cons, List.all_cons, Bool.and_eq_true, Bool.not_eq_true',
      List.getLast?_cons_cons] at hchain hlast
    refine ⟨ht, ?_, fun hw => ⟨t', rest, rfl, by simpa [hw] using hchain.1⟩⟩
    simp only [clause, Bool.and_eq_true, decide_eq_true_eq, List.tail_cons]
    exact ⟨⟨⟨hall, hchain.2⟩, by simpa using hlast⟩, by omega⟩

/-- The last character of a clause is no identifier character. -/
theorem clause_last {stops : List Char} {cap : Nat} {cl : List ClauseTok}
    (h : clause stops cap cl = true) (hne : cl ≠ []) :
    ∃ c, (cl.flatMap ClauseTok.render).getLast? = some c ∧ isIdent c = false := by
  simp only [clause, Bool.and_eq_true, decide_eq_true_eq] at h
  obtain ⟨⟨⟨hall, -⟩, hlast⟩, -⟩ := h
  obtain ⟨init, t, rfl⟩ := (List.eq_nil_or_concat cl).resolve_left hne
  rw [List.concat_eq_append] at hall hlast ⊢
  have hv := List.all_eq_true.1 hall t (by simp)
  have hw : t.isWord = false := by simpa using hlast
  obtain ⟨c, hc, hid, -⟩ := render_of_not_word hv hw
  exact ⟨c, by simp [List.flatMap_append, hc], hid⟩

/-- The search for `from` passes a word other than `from` that no identifier character
follows. -/
theorem fromClause_word {stop : Char → Bool} {limit : Nat} {w : List Char}
    (hs : Spells chars i w) (hw : ∀ c ∈ w, isIdent c = true) (hwf : w ≠ fromChars)
    (hafter : NotIdentAt chars (i + w.length)) (hstop : ∀ c, isIdent c = true → stop c = false) :
    fromClause chars stop limit i = fromClause chars stop limit (i + w.length) :=
  fromClause_walk fun k hk => ⟨w[k], hs k hk, hstop _ (hw _ (List.getElem_mem hk)),
    keywordAt_in_word hs hw hafter (.inr rfl) (by rw [toList_from]; exact hwf) hk⟩

/-- The search for `from` passes blanks. -/
theorem fromClause_blanks {stop : Char → Bool} {limit : Nat} {b : List Char}
    (hs : Spells chars i b) (hb : blanks b = true)
    (hstop : ∀ c, Text.isBlank c = true → stop c = false) :
    fromClause chars stop limit i = fromClause chars stop limit (i + b.length) :=
  fromClause_walk fun k hk => by
    have hc : Text.isBlank b[k] = true := List.all_eq_true.1 hb _ (List.getElem_mem hk)
    exact ⟨b[k], hs k hk, hstop _ hc,
      keywordAt_of_not_ident (.inr rfl) (hs k hk) (isIdent_eq_false_of_isBlank hc)⟩

/-- The search for `from` passes a clause whose tokens do not stop it. -/
theorem fromClause_clause {stop : Char → Bool} {limit : Nat} {stops : List Char} {cap : Nat}
    (hstop : ∀ c, isIdent c = true ∨ Text.isBlank c = true ∨
      (isPunct c = true ∧ stops.contains c = false) → stop c = false) :
    ∀ {cl : List ClauseTok} {j : Nat}, clause stops cap cl = true →
      Spells chars j (cl.flatMap ClauseTok.render) →
      fromClause chars stop limit j =
        fromClause chars stop limit (j + (cl.flatMap ClauseTok.render).length)
  | [], _, _, _ => rfl
  | t :: cl, j, h, hs => by
    obtain ⟨ht, hcl, hnext⟩ := clause_cons h
    rw [List.flatMap_cons, spells_append] at hs
    have hwalk : fromClause chars stop limit j = fromClause chars stop limit (j + t.render.length) := by
      cases hw : t.isWord with
      | false =>
        obtain ⟨c, hc, hid, hkind⟩ := render_of_not_word ht hw
        rw [hc] at hs ⊢
        have hcj : chars[j]? = some c := spells_singleton.1 hs.1
        exact fromClause_step hcj (hstop c (.inr hkind)) (keywordAt_of_not_ident (.inr rfl) hcj hid)
      | true =>
        cases t with
        | punct c => simp [ClauseTok.isWord] at hw
        | blank c => simp [ClauseTok.isWord] at hw
        | word w =>
          obtain ⟨hne, hid, hnf⟩ := ident_of_valid_word ht
          obtain ⟨t', rest, rfl, hw'⟩ := hnext hw
          obtain ⟨c', hc', hid', -⟩ := render_of_not_word (clause_cons hcl).1 hw'
          -- the word ends where the next token, no identifier character, starts
          have hafter : NotIdentAt chars (j + w.length) := fun d hd => by
            have h0 := hs.2 0 (by simp [hc'])
            simp only [List.flatMap_cons, hc', List.singleton_append, List.getElem_cons_zero,
              Nat.add_zero] at h0
            change chars[j + w.length]? = some c' at h0
            rw [h0, Option.some.injEq] at hd
            exact hd ▸ hid'
          exact fromClause_word hs.1 hid hnf hafter (hstop · ∘ .inl)
    rw [hwalk, fromClause_clause hstop hcl hs.2, List.flatMap_cons, List.length_append,
      Nat.add_assoc]

/-! ### Sites with a clause -/

theorem not_blank_of_ident {c : Char} (h : isIdent c = true) : Text.isBlank c = false := by
  cases hb : Text.isBlank c
  · rfl
  · rw [isIdent_eq_false_of_isBlank hb] at h
    cases h

theorem not_quote_of_ident {c : Char} (h : isIdent c = true) : isQuote c = false := by
  cases hq : isQuote c
  · rfl
  · rw [(quote_facts hq).1] at h
    cases h

/-- The character before the end of characters spelled at `j` is their last one. -/
theorem notIdentAt_last {j : Nat} {cs : List Char} (hs : Spells chars j cs) {c : Char}
    (hc : cs.getLast? = some c) (hid : isIdent c = false) :
    NotIdentAt chars (j + cs.length - 1) := by
  intro d hd
  have hlen : 0 < cs.length := by
    cases cs with
    | nil => simp at hc
    | cons => simp
  rw [List.getLast?_eq_getElem?, List.getElem?_eq_getElem (by omega), Option.some.injEq] at hc
  have hat := hs (cs.length - 1) (by omega)
  rw [show j + (cs.length - 1) = j + cs.length - 1 by omega, hd, Option.some.injEq, hc] at hat
  exact hat ▸ hid

/-- The search for `from` that reaches a `from` standing alone reads the literal after it. -/
theorem fromClause_from {stop : Char → Bool} {limit j : Nat} {b : List Char} {l : Literal}
    (hs : Spells chars j (fromChars ++ (b ++ l.render))) (hb : blanks b = true)
    (hl : l.wellFormed = true) (hlim : j < limit) (hf : stop 'f' = false)
    (hbefore : j = 0 ∨ NotIdentAt chars (j - 1)) :
    fromClause chars stop limit j = some (l.text, j + (fromChars ++ (b ++ l.render)).length) := by
  rw [spells_append, spells_append] at hs
  obtain ⟨hkw, hsb, hlit⟩ := hs
  have h4 : fromChars.length = 4 := rfl
  rw [h4] at hsb hlit
  have hq := Literal.isQuote_of_wellFormed hl
  obtain ⟨hqid, hqblank, -, -⟩ := quote_facts hq
  have hopen : chars[j + 4 + b.length]? = some l.quote := hlit.quote_at
  have hfrom : keywordAt chars j "from" = true :=
    keywordAt_eq_true (by decide) (toList_from ▸ hkw) hbefore
      (notIdentAt_of_blanks hb hsb hopen hqid)
  rw [fromClause_found hlim (hkw 0 (by decide)) hf hfrom,
    skipBlanks_spells hsb hb (notBlankAt_of hopen hqblank), quoted_spells hlit hl]
  simp [h4]
  omega

/-- The search for `from` passes a clause and reads the literal after the `from` ending it. -/
theorem fromClause_site {stop : Char → Bool} {limit j : Nat} {stops : List Char} {cap : Nat}
    {cl : List ClauseTok} {b : List Char} {l : Literal}
    (hstop : ∀ c, isIdent c = true ∨ Text.isBlank c = true ∨
      (isPunct c = true ∧ stops.contains c = false) → stop c = false)
    (hcl : clause stops cap cl = true) (hne : cl ≠ [])
    (hs : Spells chars j (cl.flatMap ClauseTok.render ++ (fromChars ++ (b ++ l.render))))
    (hb : blanks b = true) (hl : l.wellFormed = true)
    (hlim : j + (cl.flatMap ClauseTok.render).length < limit) :
    fromClause chars stop limit j =
      some (l.text, j + (cl.flatMap ClauseTok.render ++ (fromChars ++ (b ++ l.render))).length) := by
  rw [spells_append] at hs
  obtain ⟨e, he, heid⟩ := clause_last hcl hne
  rw [fromClause_clause hstop hcl hs.1, fromClause_from hs.2 hb hl hlim
    (hstop 'f' (.inl (by decide))) (.inr (notIdentAt_last hs.1 he heid))]
  simp only [List.length_append, Nat.add_assoc]

/-- Characters of a clause stop neither search for `from`: they are identifier characters,
blanks, or punctuation other than the stops. -/
theorem clause_char_passes {stops : List Char} {c : Char}
    (h : isIdent c = true ∨ Text.isBlank c = true ∨ (isPunct c = true ∧ stops.contains c = false))
    (hstops' : stops.all (fun s => !isIdent s && !Text.isBlank s) = true) :
    stops.contains c = false ∧ isQuote c = false := by
  have hstops : ∀ s ∈ stops, isIdent s = false ∧ Text.isBlank s = false := fun s hs => by
    simpa using List.all_eq_true.1 hstops' s hs
  rcases h with hid | hb | ⟨hp, hs⟩
  · refine ⟨?_, not_quote_of_ident hid⟩
    simp only [List.contains_eq_mem, decide_eq_false_iff_not]
    exact fun hm => absurd hid (by rw [(hstops c hm).1]; simp)
  · refine ⟨?_, (blank_facts hb).2.2.2⟩
    simp only [List.contains_eq_mem, decide_eq_false_iff_not]
    exact fun hm => absurd hb (by rw [(hstops c hm).2]; simp)
  · simp only [isPunct, Bool.and_eq_true, Bool.not_eq_true'] at hp
    exact ⟨hs, hp.2⟩

/-- What the search for `from` after an `import` passes: identifier characters, blanks and
punctuation other than `;`. -/
theorem importStop_pass {c : Char}
    (h : isIdent c = true ∨ Text.isBlank c = true ∨ (isPunct c = true ∧ [';'].contains c = false)) :
    (decide (c = ';') || isQuote c) = false := by
  obtain ⟨hsemi, hquote⟩ := clause_char_passes h (by decide)
  simpa [hquote] using hsemi

/-- What the search for `from` after an `export` passes: identifier characters, blanks and
punctuation other than `;`, `=` and `(`. -/
theorem exportStop_pass {c : Char}
    (h : isIdent c = true ∨ Text.isBlank c = true ∨
      (isPunct c = true ∧ [';', '=', '('].contains c = false)) :
    (decide (c = ';') || isQuote c || decide (c = '=') || decide (c = '(')) = false := by
  obtain ⟨hstops, hquote⟩ := clause_char_passes h (by decide)
  simp only [List.contains_cons, List.contains_nil, Bool.or_false, Bool.or_eq_false_iff,
    beq_eq_false_iff_ne] at hstops
  simp only [hquote, Bool.or_false, Bool.or_eq_false_iff, decide_eq_false_iff_not]
  exact ⟨⟨hstops.1, hstops.2.1⟩, hstops.2.2⟩

/-- The clause of a well-formed `import ... from` site starts, after its blanks, with a
character that is no blank, parenthesis or quote, and that is no identifier character when there
are no blanks. -/
theorem importFrom_start {b b' : List Char} {cl : List ClauseTok} {l : Literal}
    (hv : (Piece.importFrom b cl b' l).valid = true) :
    ∃ c cs, cl.flatMap ClauseTok.render = c :: cs ∧ Text.isBlank c = false ∧ c ≠ '(' ∧
      isQuote c = false ∧ (b = [] → isIdent c = false) := by
  simp only [Piece.valid, Bool.and_eq_true] at hv
  obtain ⟨⟨⟨⟨-, hcl⟩, hhead⟩, -⟩, -⟩ := hv
  cases cl with
  | nil => simp at hhead
  | cons t cl =>
    cases t with
    | word w =>
      obtain ⟨hne, hid, -⟩ := ident_of_valid_word (clause_cons hcl).1
      obtain ⟨c, cs, rfl⟩ := List.exists_cons_of_ne_nil hne
      have hc := hid c (by simp)
      refine ⟨c, cs ++ cl.flatMap ClauseTok.render, by simp [ClauseTok.render],
        not_blank_of_ident hc, fun h => absurd (h ▸ hc) (by decide), not_quote_of_ident hc,
        fun hb => ?_⟩
      simp [hb] at hhead
    | punct c =>
      have hv := (clause_cons hcl).1
      simp only [ClauseTok.valid, isPunct, Bool.and_eq_true, Bool.not_eq_true'] at hv
      simp only [List.head?_cons, bne_iff_ne, ne_eq] at hhead
      exact ⟨c, cl.flatMap ClauseTok.render, rfl, hv.1.1.2, hhead, hv.1.2, fun _ => hv.1.1.1⟩
    | blank c => simp at hhead

/-- An `import ... from` site is read whole and records its specifier. -/
theorem scanAt_importFrom {b b' : List Char} {cl : List ClauseTok} {l : Literal}
    (hs : Spells chars i (Piece.importFrom b cl b' l).render)
    (hv : (Piece.importFrom b cl b' l).valid = true) (hbefore : i = 0 ∨ NotIdentAt chars (i - 1))
    (hdot : i = 0 ∨ chars[i - 1]? ≠ some '.') :
    scanAt chars i f = (i + (Piece.importFrom b cl b' l).render.length, f.addSync l.text) := by
  obtain ⟨c, cs, hcs, hcb, hcp, hcq, hcid⟩ := importFrom_start hv
  simp only [Piece.valid, Bool.and_eq_true] at hv
  obtain ⟨⟨⟨⟨hb, hcl⟩, -⟩, hb'⟩, hl⟩ := hv
  have hs' : Spells chars i (importChars ++ (b ++ (cl.flatMap ClauseTok.render ++
      (fromChars ++ (b' ++ l.render))))) := by
    simpa [Piece.render, List.append_assoc] using hs
  rw [spells_append, spells_append, spells_append] at hs'
  obtain ⟨hkw, hsb, hscl, hrest⟩ := hs'
  have h6 : importChars.length = 6 := rfl
  rw [h6] at hsb hscl hrest
  have hstart : chars[i + 6 + b.length]? = some c := by
    simpa [hcs] using hscl 0 (by simp [hcs])
  have hi : chars[i]? = some 'i' := hkw 0 (by decide)
  -- the keyword ends at a blank, or at punctuation starting the clause
  have hafter : NotIdentAt chars (i + 6) := by
    cases b with
    | nil => exact notIdentAt_of_blanks hb hsb hstart (hcid rfl)
    | cons e b => exact notIdentAt_of_blanks_cons hb hsb
  have himp : keywordAt chars i "import" = true :=
    keywordAt_eq_true (by decide) (toList_import ▸ hkw) hbefore hafter
  have hskip : skipBlanks chars (i + 6) = i + 6 + b.length :=
    skipBlanks_spells hsb hb (notBlankAt_of hstart hcb)
  have hnotparen : (chars[i + 6 + b.length]? == some '(') = false := by simp [hstart, hcp]
  have hnodot := precededByDot_eq_false hdot
  -- the search for `from` passes the clause and stops at the `from` after it
  have hcl' := hcl
  simp only [clause, Bool.and_eq_true, decide_eq_true_eq] at hcl'
  have hlim : i + 6 + b.length + (cl.flatMap ClauseTok.render).length <
      min (i + 6 + b.length + 1000) chars.size := by
    have := hrest.lt_size (k := 0) (by simp [fromChars])
    omega
  have hsite := fromClause_site (fun _ => importStop_pass) hcl (by rintro rfl; simp at hcs)
    (spells_append.2 ⟨hscl, hrest⟩) hb' hl hlim
  simp only [scanAt, hi, himp, hskip, hnotparen, hnodot, importStatement,
    quoted_of_not_quote hstart hcq, Option.orElse, hsite]
  simp [Piece.render, h6]
  omega

/-- The clause of a well-formed `export ... from` site starts with no identifier character. -/
theorem exportFrom_start {cl : List ClauseTok} {b : List Char} {l : Literal}
    (hv : (Piece.exportFrom cl b l).valid = true) :
    ∃ c cs, cl.flatMap ClauseTok.render = c :: cs ∧ isIdent c = false := by
  simp only [Piece.valid, Bool.and_eq_true] at hv
  obtain ⟨⟨⟨hcl, hhead⟩, -⟩, -⟩ := hv
  cases cl with
  | nil => simp at hhead
  | cons t cl =>
    have hw : t.isWord = false := by simpa using hhead
    obtain ⟨c, hc, hid, -⟩ := render_of_not_word (clause_cons hcl).1 hw
    exact ⟨c, cl.flatMap ClauseTok.render, by simp [hc], hid⟩

/-- An `export ... from` site is read whole and records its specifier. -/
theorem scanAt_exportFrom {cl : List ClauseTok} {b : List Char} {l : Literal}
    (hs : Spells chars i (Piece.exportFrom cl b l).render)
    (hv : (Piece.exportFrom cl b l).valid = true) (hbefore : i = 0 ∨ NotIdentAt chars (i - 1)) :
    scanAt chars i f = (i + (Piece.exportFrom cl b l).render.length, f.addSync l.text) := by
  obtain ⟨c, cs, hcs, hcid⟩ := exportFrom_start hv
  simp only [Piece.valid, Bool.and_eq_true] at hv
  obtain ⟨⟨⟨hcl, -⟩, hb⟩, hl⟩ := hv
  have hs' : Spells chars i (exportChars ++ (cl.flatMap ClauseTok.render ++
      (fromChars ++ (b ++ l.render)))) := by
    simpa [Piece.render, List.append_assoc] using hs
  rw [spells_append] at hs'
  obtain ⟨hkw, hrest⟩ := hs'
  have h6 : exportChars.length = 6 := rfl
  rw [h6] at hrest
  have he : chars[i]? = some 'e' := hkw 0 (by decide)
  have hstart : chars[i + 6]? = some c := by
    simpa [hcs] using hrest 0 (by simp [hcs])
  have hexp : keywordAt chars i "export" = true :=
    keywordAt_eq_true (by decide) (toList_export ▸ hkw) hbefore (notIdentAt_of hstart hcid)
  have hcl' := hcl
  simp only [clause, Bool.and_eq_true, decide_eq_true_eq] at hcl'
  have hlim : i + 6 + (cl.flatMap ClauseTok.render).length < min (i + 6 + 500) chars.size := by
    have := hrest.lt_size (k := (cl.flatMap ClauseTok.render).length) (by simp [fromChars])
    omega
  have hsite := fromClause_site (fun _ => exportStop_pass) hcl (by rintro rfl; simp at hcs)
    hrest hb hl hlim
  simp only [scanAt, he,
    keywordAt_of_first (show "import" ∈ keywords ∨ "import" = "from" by decide) he (by decide),
    hexp, exportFrom, hsite]
  simp [Piece.render, h6]
  omega

/-- An `export` starting no site is passed. -/
theorem scanAt_exportWord (hs : Spells chars i exportChars)
    (hbefore : i = 0 ∨ NotIdentAt chars (i - 1)) (hafter : NotIdentAt chars (i + 6))
    (hnone : exportFrom chars (i + 6) = none) : scanAt chars i f = (i + 6, f) := by
  have he : chars[i]? = some 'e' := hs 0 (by decide)
  have hexp : keywordAt chars i "export" = true :=
    keywordAt_eq_true (by decide) (toList_export ▸ hs) hbefore hafter
  simp [scanAt, he,
    keywordAt_of_first (show "import" ∈ keywords ∨ "import" = "from" by decide) he (by decide),
    hexp, hnone]

end Sites

end Requires

end ModuleBundler
