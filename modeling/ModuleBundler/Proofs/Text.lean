import ModuleBundler.Text.Split
import Mathlib.Data.List.Sort
import Mathlib.Data.String.Basic

/-!
# Cutting and sorting agree with the library

Cutting text at one character gives what the library's `String.splitOn` gives for the
one-character separator (`splitOn_singleton`), and the stable sort is the library's insertion
sort, hence its merge sort for an order that is total, transitive and antisymmetric
(`sortBy_eq_mergeSort`). Text without the separator is one piece.
-/

namespace ModuleBundler

namespace Text

/-! ## Cutting -/

theorem splitCharsAux_of_not_mem {sep : Char} {cs : List Char} (h : sep ∉ cs) (cur : List Char)
    (done : List (List Char)) :
    splitCharsAux sep cs cur done = ((cur.reverse ++ cs) :: done).reverse := by
  induction cs generalizing cur with
  | nil => simp [splitCharsAux]
  | cons c cs ih =>
    have hc : c ≠ sep := fun hc => h (hc ▸ List.mem_cons_self)
    rw [splitCharsAux, if_neg hc, ih (fun hm => h (List.mem_cons_of_mem c hm))]
    simp

/-- Text without the separator is one piece. -/
theorem splitOnChar_of_not_mem {s : String} {sep : Char} (h : sep ∉ s.toList) :
    splitOnChar s sep = [s] := by
  simp [splitOnChar, splitCharsAux_of_not_mem h]

/-- The library's scan for a one-character separator, started after the characters `l` with the
piece `m` read so far, cuts what is left as `splitCharsAux` does. -/
theorem splitOnAux_singleton (sep : Char) (l m r : List Char) (done : List (List Char)) :
    String.splitOnAux (String.ofList (l ++ m ++ r)) (String.singleton sep) ⟨String.utf8Len l⟩
        ⟨String.utf8Len l + String.utf8Len m⟩ 0 (done.map String.ofList) =
      (splitCharsAux sep r m.reverse done).map String.ofList := by
  induction r generalizing l m done with
  | nil =>
    have hx := String.extract_of_valid l m []
    rw [String.splitOnAux, if_pos (by simp only [String.atEnd_iff, String.rawEndPos_ofList,
      String.utf8Len_append, String.utf8Len_nil, String.Pos.Raw.mk_le_mk]; omega), hx]
    simp [splitCharsAux]
  | cons c r ih =>
    -- the scan reads `c` and compares it with the separator
    have hget : String.Pos.Raw.get (String.ofList (l ++ m ++ c :: r))
        ⟨String.utf8Len l + String.utf8Len m⟩ = c := by
      simpa [List.append_assoc] using String.get_of_valid (l ++ m) (c :: r)
    have hnext : String.Pos.Raw.next (String.ofList (l ++ m ++ c :: r))
        ⟨String.utf8Len l + String.utf8Len m⟩ = ⟨String.utf8Len l + String.utf8Len (m ++ [c])⟩ := by
      simpa [List.append_assoc, Nat.add_assoc] using String.next_of_valid (l ++ m) c r
    have hsep : String.Pos.Raw.get (String.singleton sep) 0 = sep := by
      simpa using String.get_of_valid [] [sep]
    have hmore : ¬ (String.ofList (l ++ m ++ c :: r)).rawEndPos ≤
        ⟨String.utf8Len l + String.utf8Len m⟩ := by
      simp only [String.rawEndPos_ofList, String.utf8Len_append, String.utf8Len_cons,
        String.Pos.Raw.mk_le_mk]
      have := c.utf8Size_pos
      omega
    rw [String.splitOnAux, if_neg (by simpa [String.atEnd_iff] using hmore), hget, hsep]
    by_cases hc : c = sep
    · -- a separator: the piece `m` is cut and the next one starts after it
      subst hc
      have hsepnext : String.Pos.Raw.next (String.singleton c) 0 = ⟨c.utf8Size⟩ := by
        simpa using String.next_of_valid [] c []
      have hcut : String.Pos.Raw.extract (String.ofList (l ++ m ++ c :: r))
          ⟨String.utf8Len l⟩ ⟨String.utf8Len l + String.utf8Len m⟩ = String.ofList m := by
        simpa using String.extract_of_valid l m (c :: r)
      have hend : String.Pos.Raw.atEnd (String.singleton c) ⟨c.utf8Size⟩ = true := by
        rw [String.atEnd_iff, String.singleton_eq_ofList, String.rawEndPos_ofList]
        simp
      have hback : (String.Pos.Raw.mk (String.utf8Len l + String.utf8Len (m ++ [c]))).unoffsetBy
          ⟨c.utf8Size⟩ = ⟨String.utf8Len l + String.utf8Len m⟩ := by
        simp [String.Pos.Raw.unoffsetBy, String.utf8Len_append]
        omega
      rw [if_pos (by simp), hnext, hsepnext, if_pos hend, hback, hcut]
      have := ih (l ++ m ++ [c]) [] (m :: done)
      simp only [List.append_nil, List.append_assoc, List.singleton_append, String.utf8Len_nil,
        Nat.add_zero, List.map_cons, List.reverse_nil] at this ⊢
      simpa [splitCharsAux, String.utf8Len_append, Nat.add_assoc] using this
    · -- another character joins the piece being read
      rw [if_neg (by simpa using hc), String.Pos.Raw.unoffsetBy_zero, hnext]
      simpa [splitCharsAux, hc, List.append_assoc] using ih l (m ++ [c]) done

/-- Cutting at a character is the library's `splitOn` with that one character. -/
theorem splitOn_singleton (s : String) (sep : Char) :
    s.splitOn (String.singleton sep) = splitOnChar s sep := by
  have := splitOnAux_singleton sep [] [] s.toList []
  simpa [String.splitOn, splitOnChar] using this

/-- Cutting with pieces already read is the list library's cut, those pieces in front. -/
theorem splitCharsAux_eq_splitOnPPrepend (sep : Char) (cs cur : List Char)
    (done : List (List Char)) :
    splitCharsAux sep cs cur done = done.reverse ++ cs.splitOnPPrepend (· == sep) cur := by
  induction cs generalizing cur done with
  | nil => simp [splitCharsAux]
  | cons c cs ih =>
    by_cases hc : c = sep
    · rw [splitCharsAux, if_pos hc, ih, List.splitOnPPrepend_cons_pos (by simpa using hc)]
      simp
    · rw [splitCharsAux, if_neg hc, ih, List.splitOnPPrepend_cons_neg (by simpa using hc)]

/-- Cutting lists joined by a separator cuts each of them. -/
theorem splitOn_intercalate_sep {α : Type} [BEq α] [LawfulBEq α] (x : α) :
    ∀ {ls : List (List α)}, ls ≠ [] → ([x].intercalate ls).splitOn x = ls.flatMap (·.splitOn x)
  | [], h => absurd rfl h
  | [a], _ => by simp
  | a :: b :: t, _ => by
    rw [List.intercalate_cons_cons, List.append_assoc, List.singleton_append,
      List.splitOn_append_cons_self, splitOn_intercalate_sep x (List.cons_ne_nil b t)]
    simp

/-- No piece of a cut holds the separator. -/
theorem not_mem_of_mem_splitOnPPrepend {α : Type} [BEq α] [LawfulBEq α] {x : α} :
    ∀ {xs acc l : List α}, x ∉ acc → l ∈ xs.splitOnPPrepend (· == x) acc → x ∉ l
  | [], acc, l, hacc, hl => by
    rw [List.splitOnPPrepend_nil, List.mem_singleton] at hl
    simpa [hl] using hacc
  | a :: t, acc, l, hacc, hl => by
    by_cases ha : a = x
    · rw [List.splitOnPPrepend_cons_pos (by simpa using ha), List.mem_cons] at hl
      rcases hl with rfl | hl
      · simpa using hacc
      · exact not_mem_of_mem_splitOnPPrepend List.not_mem_nil hl
    · rw [List.splitOnPPrepend_cons_neg (by simpa using ha)] at hl
      refine not_mem_of_mem_splitOnPPrepend ?_ hl
      simp [hacc, Ne.symm ha]

theorem not_mem_of_mem_splitOn {α : Type} [BEq α] [LawfulBEq α] {x : α} {xs l : List α}
    (hl : l ∈ xs.splitOn x) : x ∉ l :=
  not_mem_of_mem_splitOnPPrepend List.not_mem_nil hl

/-- Cutting at a character is the list library's `splitOn` of the characters. -/
theorem splitOnChar_eq_splitOn (s : String) (sep : Char) :
    splitOnChar s sep = (s.toList.splitOn sep).map String.ofList := by
  simp [splitOnChar, splitCharsAux_eq_splitOnPPrepend, List.splitOn]

/-- Texts without the separator, joined by it, cut back into themselves. -/
theorem splitOnChar_intercalate {sep : Char} {l : List String} (hl : l ≠ [])
    (h : ∀ s ∈ l, sep ∉ s.toList) : splitOnChar ((String.singleton sep).intercalate l) sep = l := by
  rw [splitOnChar_eq_splitOn, String.toList_intercalate, String.toList_singleton,
    List.splitOn_intercalate sep (by simpa using h) (by simpa using hl)]
  simp

/-! ## Sorting -/

section Sorting

variable {α : Type} (le : α → α → Bool)

theorem insertBy_eq_orderedInsert (x : α) (l : List α) :
    insertBy le x l = l.orderedInsert (fun a b => le a b = true) x := by
  induction l with
  | nil => rfl
  | cons y ys ih => simp [insertBy, ih]

/-- The stable sort is the library's insertion sort. -/
theorem sortBy_eq_insertionSort (xs : List α) :
    sortBy xs le = xs.insertionSort (fun a b => le a b = true) := by
  induction xs with
  | nil => rfl
  | cons x xs ih => simp [sortBy, ← ih, insertBy_eq_orderedInsert]

@[simp] theorem mem_sortBy {xs : List α} {z : α} : z ∈ sortBy xs le ↔ z ∈ xs := by
  rw [sortBy_eq_insertionSort, List.mem_insertionSort]

/-- For an order that is total, transitive and antisymmetric the stable sort is the library's
merge sort. -/
theorem sortBy_eq_mergeSort [Std.Total fun a b : α => le a b = true]
    [IsTrans α fun a b => le a b = true] [Std.Antisymm fun a b : α => le a b = true]
    (xs : List α) : sortBy xs le = xs.mergeSort le := by
  rw [sortBy_eq_insertionSort, ← List.mergeSort_eq_insertionSort]
  simp

end Sorting

end Text

end ModuleBundler
