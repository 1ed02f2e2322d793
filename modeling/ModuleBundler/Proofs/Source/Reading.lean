import ModuleBundler.Proofs.Source.Pieces

/-!
# Reading characters

What each reader of the dependency scan does on characters laid out in a known way. `Spells`
says that a list of characters stands in the scanned array from a position on; on that, blanks
are skipped exactly (`skipBlanks_spells`), a line and a block comment end where their text ends
(`lineEnd_spells`, `blockEnd_spells`), a well-formed literal is read whole as the text it stands
for (`quoted_spells`), a parenthesised literal as well (`stringArg_spells`), and a keyword is
found exactly where it is spelled with no identifier character on either side
(`keywordAt_eq_true`, `eq_of_keywordAt`).

The scan itself runs on fuel; `scanFrom` is the same scan with the fuel taken away
(`scan_eq_scanFrom`), which steps past characters it does not act on one at a time
(`scanFrom_walk`).
-/

namespace ModuleBundler

namespace Requires

/-! ## Characters -/

/-- No blank is an identifier character. -/
theorem isIdent_eq_false_of_isBlank {c : Char} (h : Text.isBlank c = true) :
    isIdent c = false := by
  have hc : Char.ofNat c.toNat = c := Char.ofNat_toNat c
  simp only [Text.isBlank, Bool.or_eq_true, Bool.and_eq_true, decide_eq_true_eq, beq_iff_eq] at h
  rw [← hc]
  generalize c.toNat = n at h
  rcases h with ((((((((((⟨h1, h2⟩ | rfl) | rfl) | rfl) | rfl) | ⟨h1, h2⟩) | rfl) | rfl) | rfl) |
    rfl) | rfl)
  -- each blank code point is looked up in the identifier ranges
  all_goals first | decide +kernel | interval_cases n <;> decide +kernel

/-- A quote is neither an identifier character nor a blank. -/
theorem quote_facts {q : Char} (hq : isQuote q = true) :
    isIdent q = false ∧ Text.isBlank q = false ∧ q ≠ '\\' ∧ q ≠ '\n' := by
  simp only [isQuote, Bool.or_eq_true, decide_eq_true_eq] at hq
  rcases hq with rfl | rfl <;> decide

/-! ## Spelled characters -/

/-- The characters `cs` stand in `chars` from position `i` on. -/
def Spells (chars : Array Char) (i : Nat) (cs : List Char) : Prop :=
  ∀ k (hk : k < cs.length), chars[i + k]? = some cs[k]

/-- The character at `j`, if there is one, is no identifier character. -/
def NotIdentAt (chars : Array Char) (j : Nat) : Prop :=
  ∀ c, chars[j]? = some c → isIdent c = false

/-- The character at `j`, if there is one, is no blank. -/
def NotBlankAt (chars : Array Char) (j : Nat) : Prop :=
  ∀ c, chars[j]? = some c → Text.isBlank c = false

section Spells

variable {chars : Array Char} {i : Nat}

@[simp] theorem spells_nil : Spells chars i [] := fun _ hk => absurd hk (Nat.not_lt_zero _)

theorem spells_cons {c : Char} {cs : List Char} :
    Spells chars i (c :: cs) ↔ chars[i]? = some c ∧ Spells chars (i + 1) cs := by
  constructor
  · intro h
    refine ⟨h 0 (by simp), fun k hk => ?_⟩
    have := h (k + 1) (by simpa using hk)
    rwa [show i + (k + 1) = i + 1 + k by omega] at this
  · rintro ⟨h₀, h⟩ k hk
    cases k with
    | zero => exact h₀
    | succ k =>
      have := h k (by simpa using hk)
      rwa [show i + 1 + k = i + (k + 1) by omega] at this

theorem spells_append {a b : List Char} :
    Spells chars i (a ++ b) ↔ Spells chars i a ∧ Spells chars (i + a.length) b := by
  induction a generalizing i with
  | nil => simp
  | cons c a ih =>
    rw [List.cons_append, spells_cons, spells_cons, ih, List.length_cons, and_assoc,
      Nat.add_assoc, Nat.add_comm 1]

theorem spells_singleton {c : Char} : Spells chars i [c] ↔ chars[i]? = some c := by
  simp [spells_cons]

theorem Spells.lt_size {cs : List Char} (h : Spells chars i cs) {k : Nat} (hk : k < cs.length) :
    i + k < chars.size := by
  have := h k hk
  rw [Array.getElem?_eq_some_iff] at this
  exact this.1

/-- A text spells each of its parts at its offset. -/
theorem spells_toArray (a b c : List Char) : Spells (a ++ b ++ c).toArray a.length b := by
  intro k hk
  rw [List.getElem?_toArray, List.append_assoc, List.getElem?_append_right (by omega),
    Nat.add_sub_cancel_left, List.getElem?_append_left hk, List.getElem?_eq_getElem hk]

end Spells

/-! ## Keywords -/

section Keywords

variable {chars : Array Char} {i : Nat}

/-- The characters from `i` on, taken `k.length` at a time, are `k` exactly when they spell it. -/
theorem extract_eq_iff_spells {k : List Char} :
    (chars.extract i (i + k.length)).toList = k ↔ Spells chars i k := by
  rw [Array.toList_extract, List.extract_eq_take_drop, Nat.add_sub_cancel_left]
  constructor
  · intro h j hj
    have := congrArg (·[j]?) h
    simp only [List.getElem?_take, hj, if_true, List.getElem?_drop, Array.getElem?_toList] at this
    rw [this, List.getElem?_eq_getElem hj]
  · intro h
    refine List.ext_getElem? fun j => ?_
    by_cases hj : j < k.length
    · rw [List.getElem?_take, if_pos hj, List.getElem?_drop, Array.getElem?_toList, h j hj,
        List.getElem?_eq_getElem hj]
    · rw [List.getElem?_take, if_neg hj, List.getElem?_eq_none (by omega)]

/-- A keyword found at `i` is spelled there, with no identifier character right after it. -/
theorem spells_of_keywordAt {kw : String} (h : keywordAt chars i kw = true) :
    Spells chars i kw.toList ∧ NotIdentAt chars (i + kw.toList.length) := by
  simp only [keywordAt, Bool.and_eq_true, Bool.not_eq_true', decide_eq_true_eq, beq_iff_eq] at h
  obtain ⟨⟨⟨hle, -⟩, hex⟩, hafter⟩ := h
  refine ⟨extract_eq_iff_spells.1 hex, fun c hc => ?_⟩
  simpa [hc] using hafter

/-- A keyword spelled at `i`, with no identifier character on either side, is found there. -/
theorem keywordAt_eq_true {kw : String} (hne : kw.toList ≠ []) (hs : Spells chars i kw.toList)
    (hbefore : i = 0 ∨ NotIdentAt chars (i - 1)) (hafter : NotIdentAt chars (i + kw.toList.length)) :
    keywordAt chars i kw = true := by
  have hle : i + kw.toList.length ≤ chars.size := by
    have := hs.lt_size (k := kw.toList.length - 1) (by
      have := List.length_pos_of_ne_nil hne
      omega)
    omega
  have hb : ¬(i > 0 ∧ (chars[i - 1]?.map isIdent).getD false = true) := by
    rintro ⟨hi, hid⟩
    rcases hbefore with rfl | hnot
    · exact absurd hi (Nat.lt_irrefl 0)
    · cases hc : chars[i - 1]? with
      | none => simp [hc] at hid
      | some c => simp [hc, hnot c hc] at hid
  have ha : ¬(chars[i + kw.toList.length]?.map isIdent).getD false = true := by
    cases hc : chars[i + kw.toList.length]? with
    | none => simp
    | some c => simp [hafter c hc]
  simp only [keywordAt, Bool.and_eq_true, Bool.not_eq_true', decide_eq_true_eq, beq_iff_eq]
  refine ⟨⟨⟨hle, ?_⟩, extract_eq_iff_spells.2 hs⟩, ?_⟩
  · simpa using hb
  · simpa using ha

/-- No keyword is found right after an identifier character. -/
theorem keywordAt_of_ident_before {kw : String} (hi : 0 < i) {c : Char}
    (h : chars[i - 1]? = some c) (hc : isIdent c = true) : keywordAt chars i kw = false := by
  simp [keywordAt, hi, h, hc]

/-- No keyword is found where a character other than its first stands. -/
theorem keywordAt_of_head {kw : String} (hne : kw.toList ≠ []) {c : Char}
    (h : chars[i]? = some c) (hc : kw.toList.head? ≠ some c) : keywordAt chars i kw = false := by
  cases hk : keywordAt chars i kw
  · rfl
  · have := (spells_of_keywordAt hk).1 0 (List.length_pos_of_ne_nil hne)
    rw [Nat.add_zero, h] at this
    obtain ⟨d, ds, hds⟩ := List.exists_cons_of_ne_nil hne
    simp only [hds, List.getElem_cons_zero, Option.some.injEq] at this
    simp [hds, this] at hc

/-- A keyword found at the start of a word spelled there, with no identifier character after the
word, is that word. -/
theorem eq_of_keywordAt {kw : String} (h : keywordAt chars i kw = true) {w : List Char}
    (hw : Spells chars i w) (hident : ∀ c ∈ w, isIdent c = true)
    (hend : NotIdentAt chars (i + w.length)) (hkw : ∀ c ∈ kw.toList, isIdent c = true) :
    w = kw.toList := by
  obtain ⟨hs, hafter⟩ := spells_of_keywordAt h
  -- the shorter of the two ends where the longer has an identifier character
  rcases Nat.lt_trichotomy w.length kw.toList.length with hlt | heq | hgt
  · have := hend _ (hs _ hlt)
    rw [hkw _ (List.getElem_mem hlt)] at this
    simp at this
  · refine List.ext_getElem heq fun j hj hj' => ?_
    have h₁ := hw j hj
    rw [hs j hj', Option.some.injEq] at h₁
    exact h₁.symm
  · have := hafter _ (hw _ hgt)
    rw [hident _ (List.getElem_mem hgt)] at this
    simp at this

end Keywords

/-! ## Blanks, comments and literals -/

section Readers

variable {chars : Array Char} {i : Nat}

theorem skipBlanks_of_blank {c : Char} (h : chars[i]? = some c) (hc : Text.isBlank c = true) :
    skipBlanks chars i = skipBlanks chars (i + 1) := by
  obtain ⟨hi, rfl⟩ := Array.getElem?_eq_some_iff.1 h
  rw [skipBlanks, dif_pos hi, if_pos hc]

theorem skipBlanks_of_notBlank (h : NotBlankAt chars i) : skipBlanks chars i = i := by
  rw [skipBlanks]
  split
  · rename_i hi
    rw [if_neg (by simp [h _ (Array.getElem?_eq_getElem hi)])]
  · rfl

/-- Blanks spelled at `i` and no blank after them: the scan skips exactly them. -/
theorem skipBlanks_spells {b : List Char} (hs : Spells chars i b) (hb : blanks b = true)
    (hend : NotBlankAt chars (i + b.length)) : skipBlanks chars i = i + b.length := by
  induction b generalizing i with
  | nil => exact skipBlanks_of_notBlank hend
  | cons c b ih =>
    rw [spells_cons] at hs
    simp only [blanks, List.all_cons, Bool.and_eq_true] at hb
    rw [skipBlanks_of_blank hs.1 hb.1, ih hs.2 hb.2 (by simpa [Nat.add_assoc, Nat.add_comm 1] using hend)]
    simp [Nat.add_assoc, Nat.add_comm 1]

/-- A line read from `i` ends at its line feed. -/
theorem lineEnd_spells {t : List Char} (hs : Spells chars i (t ++ ['\n']))
    (ht : t.contains '\n' = false) : lineEnd chars i = i + t.length := by
  induction t generalizing i with
  | nil =>
    have h := spells_singleton.1 (by simpa using hs)
    obtain ⟨hi, hc⟩ := Array.getElem?_eq_some_iff.1 h
    rw [lineEnd, dif_pos hi, if_pos hc]
    rfl
  | cons c t ih =>
    rw [List.cons_append, spells_cons] at hs
    simp only [List.contains_cons, Bool.or_eq_false_iff, beq_eq_false_iff_ne] at ht
    obtain ⟨hi, hc⟩ := Array.getElem?_eq_some_iff.1 hs.1
    rw [lineEnd, dif_pos hi, if_neg (by rw [hc]; exact Ne.symm ht.1), ih hs.2 ht.2]
    simp [Nat.add_assoc, Nat.add_comm 1]

theorem closesComment_cons (c : Char) (cs : List Char) :
    closesComment (c :: cs) = ((c == '*' && cs.head? == some '/') || closesComment cs) := by
  by_cases hc : c = '*'
  · subst hc
    rcases cs with _ | ⟨d, cs⟩
    · rfl
    · by_cases hd : d = '/'
      · subst hd
        rfl
      · simp [closesComment, hd]
  · simp [closesComment, hc]

/-- A block comment's text read from `i` ends where its `*/` starts. -/
theorem blockEnd_spells {t : List Char} (hs : Spells chars i (t ++ ['*', '/']))
    (ht : closesComment t = false) : blockEnd chars i = i + t.length := by
  induction t generalizing i with
  | nil =>
    simp only [List.nil_append, spells_cons, spells_nil, and_true] at hs
    obtain ⟨hi, h₀⟩ := Array.getElem?_eq_some_iff.1 hs.1
    obtain ⟨hi', h₁⟩ := Array.getElem?_eq_some_iff.1 hs.2
    rw [blockEnd, dif_pos hi', if_pos ⟨h₀, h₁⟩]
    rfl
  | cons c t ih =>
    rw [List.cons_append, spells_cons] at hs
    rw [closesComment_cons, Bool.or_eq_false_iff] at ht
    have hnext := hs.2 0 (by simp)
    have hi' : i + 1 < chars.size := by simpa using hs.2.lt_size (k := 0) (by simp)
    -- the character after `c` is the head of `t`, or the star of `*/`; neither closes here
    have hno : ¬(chars[i] = '*' ∧ chars[i + 1] = '/') := by
      rintro ⟨h₀, h₁⟩
      rw [Array.getElem?_eq_getElem (by omega), Option.some.injEq] at hs
      have hc : c = '*' := hs.1 ▸ h₀
      rw [Nat.add_zero, Array.getElem?_eq_getElem hi', Option.some.injEq, h₁] at hnext
      cases t with
      | nil => simp at hnext
      | cons d t =>
        simp [hc] at ht
        exact ht.1 hnext.symm
    rw [blockEnd, dif_pos hi', if_neg hno, ih hs.2 ht.2]
    simp [Nat.add_assoc, Nat.add_comm 1]

/-- The body of a literal and its closing quote, read from `j` with `acc` read before. -/
theorem literalBody_spells {q : Char} (hq : isQuote q = true) :
    ∀ {body : List LitChar} {j : Nat} (acc : List Char),
      Spells chars j (body.flatMap LitChar.raw ++ [q]) → body.all (LitChar.fits q) = true →
      literalBody chars q j acc =
        some (String.ofList (acc.reverse ++ body.map LitChar.char),
          j + (body.flatMap LitChar.raw).length + 1)
  | [], j, acc, hs, _ => by
    obtain ⟨hj, hc⟩ := Array.getElem?_eq_some_iff.1 (spells_singleton.1 (by simpa using hs))
    rw [literalBody, dif_pos hj]
    simp [hc]
  | .plain c :: body, j, acc, hs, hfit => by
    simp only [List.flatMap_cons, LitChar.raw, List.cons_append, spells_cons] at hs
    simp only [List.all_cons, LitChar.fits, Bool.and_eq_true, bne_iff_ne, ne_eq] at hfit
    obtain ⟨⟨⟨hcq, hcn⟩, hcb⟩, hrest⟩ := hfit
    obtain ⟨hj, hc⟩ := Array.getElem?_eq_some_iff.1 hs.1
    rw [literalBody, dif_pos hj]
    simp only [hc, hcq, hcn, hcb, false_and, if_false, dif_neg, not_false_eq_true]
    rw [literalBody_spells hq (c :: acc) hs.2 hrest]
    simp [LitChar.char, LitChar.raw]
    omega
  | .escaped c :: body, j, acc, hs, hfit => by
    simp only [List.flatMap_cons, LitChar.raw, List.cons_append, List.nil_append,
      spells_cons] at hs
    simp only [List.all_cons, LitChar.fits, Bool.true_and] at hfit
    obtain ⟨hj, hc⟩ := Array.getElem?_eq_some_iff.1 hs.1
    obtain ⟨hj', hc'⟩ := Array.getElem?_eq_some_iff.1 hs.2.1
    obtain ⟨-, -, hqb, -⟩ := quote_facts hq
    rw [literalBody, dif_pos hj]
    simp only [hc, Ne.symm hqb, if_false, show ('\\' : Char) ≠ '\n' by decide, true_and]
    rw [dif_pos hj', hc', literalBody_spells hq (c :: acc) hs.2.2 hfit]
    simp [LitChar.char, LitChar.raw]
    omega

theorem Literal.isQuote_of_wellFormed {l : Literal} (hl : l.wellFormed = true) :
    isQuote l.quote = true := by
  simp only [Literal.wellFormed, Bool.and_eq_true] at hl
  exact hl.1

/-- A literal spelled at `i` opens with its quote there. -/
theorem Spells.quote_at {l : Literal} (hs : Spells chars i l.render) :
    chars[i]? = some l.quote :=
  hs 0 (by simp [Literal.render])

/-- A well-formed literal spelled at `i` is read whole, as the text it stands for. -/
theorem quoted_spells {l : Literal} (hs : Spells chars i l.render) (hl : l.wellFormed = true) :
    quoted chars i = some (l.text, i + l.render.length) := by
  simp only [Literal.wellFormed, Bool.and_eq_true] at hl
  rw [Literal.render, List.cons_append, spells_cons] at hs
  rw [quoted, hs.1]
  simp only [hl.1, if_true]
  rw [literalBody_spells hl.1 [] hs.2 hl.2]
  simp [Literal.text, Literal.render, Literal.raw, Nat.add_assoc, Nat.add_comm 1]

theorem quoted_of_not_quote {c : Char} (h : chars[i]? = some c) (hc : isQuote c = false) :
    quoted chars i = none := by
  simp [quoted, h, hc]

theorem notBlankAt_of_quote {q : Char} (h : chars[i]? = some q) (hq : isQuote q = true) :
    NotBlankAt chars i := by
  intro c hc
  rw [h, Option.some.injEq] at hc
  exact hc ▸ (quote_facts hq).2.1

/-- `( 'spec' )` after its opening parenthesis, blanks around the literal. -/
theorem stringArg_spells {b₂ b₃ : List Char} {l : Literal}
    (hs : Spells chars i (b₂ ++ l.render ++ b₃ ++ [')'])) (hb₂ : blanks b₂ = true)
    (hb₃ : blanks b₃ = true) (hl : l.wellFormed = true) :
    stringArg chars i = some (l.text, i + (b₂ ++ l.render ++ b₃ ++ [')']).length) := by
  simp only [spells_append, spells_singleton, List.length_append, ← Nat.add_assoc] at hs
  obtain ⟨⟨⟨hs₂, hsl⟩, hs₃⟩, hclose⟩ := hs
  have hq := Literal.isQuote_of_wellFormed hl
  have hquote : chars[i + b₂.length]? = some l.quote := hsl.quote_at
  have hskip₂ := skipBlanks_spells hs₂ hb₂ (notBlankAt_of_quote hquote hq)
  have hskip₃ := skipBlanks_spells hs₃ hb₃ (fun c hc => by
    rw [hclose, Option.some.injEq] at hc
    subst hc
    decide)
  rw [stringArg, hskip₂, quoted_spells hsl hl]
  simp only
  rw [hskip₃, hclose]
  simp [Nat.add_assoc]

/-! ### The search for `from` -/

section FromClause

variable {stop : Char → Bool} {limit : Nat}

theorem fromClause_step {c : Char} (hc : chars[i]? = some c) (hs : stop c = false)
    (hk : keywordAt chars i "from" = false) :
    fromClause chars stop limit i = fromClause chars stop limit (i + 1) := by
  by_cases hi : i < limit
  · rw [fromClause, dif_pos hi, hc]
    simp only [hs, hk, Bool.false_eq_true, if_false]
  · rw [fromClause, dif_neg hi, fromClause, dif_neg (by omega)]

/-- The search passes characters that neither stop it nor start a `from`. -/
theorem fromClause_walk {n : Nat}
    (hwalk : ∀ k < n, ∃ c, chars[i + k]? = some c ∧ stop c = false ∧
      keywordAt chars (i + k) "from" = false) :
    fromClause chars stop limit i = fromClause chars stop limit (i + n) := by
  induction n with
  | zero => rfl
  | succ n ih =>
    obtain ⟨c, hc, hs, hk⟩ := hwalk n (Nat.lt_succ_self n)
    rw [ih fun k hk' => hwalk k (Nat.lt_succ_of_lt hk'), fromClause_step hc hs hk, Nat.add_assoc]

theorem fromClause_of_stop {c : Char} (hc : chars[i]? = some c) (hs : stop c = true) :
    fromClause chars stop limit i = none := by
  rw [fromClause]
  split
  · simp [hc, hs]
  · rfl

theorem fromClause_of_none (hc : chars[i]? = none) : fromClause chars stop limit i = none := by
  rw [fromClause]
  split
  · simp [hc]
  · rfl

/-- The search finds a `from` before its limit and reads the literal after it. -/
theorem fromClause_found (hi : i < limit) {c : Char} (hc : chars[i]? = some c)
    (hs : stop c = false) (hk : keywordAt chars i "from" = true) :
    fromClause chars stop limit i = quoted chars (skipBlanks chars (i + 4)) := by
  rw [fromClause, dif_pos hi, hc]
  simp only [hs, hk, Bool.false_eq_true, if_false, if_true]

end FromClause

end Readers

/-! ## The scan without fuel -/

/-- The scan from `i` on: each step moves forward, so no fuel is needed. -/
def scanFrom (chars : Array Char) (i : Nat) (f : Found) : Found :=
  if i < chars.size then
    scanFrom chars (max (scanAt chars i f).1 (i + 1)) (scanAt chars i f).2
  else f
termination_by chars.size - i
decreasing_by
  have := le_max_right (scanAt chars i f).1 (i + 1)
  omega

section Scan

variable {chars : Array Char} {i : Nat} {f : Found}

/-- Fuel above the characters left runs the scan to the end. -/
theorem scan_eq_scanFrom : ∀ {fuel i : Nat} {f : Found}, chars.size - i ≤ fuel →
    scan chars fuel i f = scanFrom chars i f
  | 0, i, f, h => by
    rw [scan, scanFrom, if_neg (by omega)]
  | fuel + 1, i, f, h => by
    rw [scan, scanFrom]
    split
    · rcases hs : scanAt chars i f with ⟨next, f'⟩
      simp only
      exact scan_eq_scanFrom (by have := le_max_right next (i + 1); omega)
    · rfl

theorem scanFrom_of_size (h : chars.size ≤ i) : scanFrom chars i f = f := by
  rw [scanFrom, if_neg (by omega)]

/-- A step that moves forward, taken by the scan. -/
theorem scanFrom_step (hi : i < chars.size) {next : Nat} {f' : Found}
    (h : scanAt chars i f = (next, f')) (hnext : i < next) :
    scanFrom chars i f = scanFrom chars next f' := by
  rw [scanFrom, if_pos hi, h]
  simp only
  rw [max_eq_left hnext]

/-- Characters the scan passes one by one. -/
theorem scanFrom_walk {n : Nat} (hn : i + n ≤ chars.size)
    (hwalk : ∀ k < n, scanAt chars (i + k) f = (i + k + 1, f)) :
    scanFrom chars i f = scanFrom chars (i + n) f := by
  induction n with
  | zero => rfl
  | succ n ih =>
    rw [ih (by omega) fun k hk => hwalk k (Nat.lt_succ_of_lt hk),
      scanFrom_step (by omega) (hwalk n (Nat.lt_succ_self n)) (by omega), Nat.add_assoc]

/-- Where no comment opens and no keyword stands, the scan moves one character on. -/
theorem scanAt_plain
    (hslash : ¬(chars[i]? = some '/' ∧ (chars[i + 1]? = some '/' ∨ chars[i + 1]? = some '*')))
    (hk : ∀ kw ∈ keywords, keywordAt chars i kw = false) : scanAt chars i f = (i + 1, f) := by
  have h₁ := hk "import" (by simp [keywords])
  have h₂ := hk "export" (by simp [keywords])
  have h₃ := hk "require" (by simp [keywords])
  have hc : ¬(chars[i]? = some '/' ∧ chars[i + 1]? = some '/') := fun h => hslash ⟨h.1, .inl h.2⟩
  have hb : ¬(chars[i]? = some '/' ∧ chars[i + 1]? = some '*') := fun h => hslash ⟨h.1, .inr h.2⟩
  simp only [scanAt, h₁, h₂, h₃, Bool.false_and, Bool.false_eq_true, if_false]
  simp only [Bool.and_eq_true, beq_iff_eq]
  rw [if_neg hc, if_neg hb]

end Scan

end Requires

end ModuleBundler
