import Mathlib
import ModuleBundler.Proofs.Bundle.MapReading

/-!
# Mapping values read back

A value of a mapping is a signed 64-bit integer. Its sign is folded into the lowest bit
(`signFold`), and the folded word is cut into five-bit groups, low groups first, each written as
a base64 digit with `32` added when more groups follow (`vlqDigits`).

Main statements: the digits of every folded word are its base-32 digits, each but the last
marked as continued and no group of zeros at the end (`vlqDigits_canonical`); the reader of the
version 3 rules gives back every value of a segment of encoded values
(`segmentValues_join_vlq`), for every value but the least one, whose negation wraps
(`segmentValues_vlq_eq_iff`); so a value of magnitude below `2 ^ 62` reads back from an encoding
whose last digit is the only one not continued (`vlq_reads_back`).
-/

namespace ModuleBundler

namespace SourceMap

/-! ## Folding the sign -/

/-- The bits of a value read as an unsigned number: the value itself when it is not negative,
else the value plus `2 ^ 64`. -/
theorem toNat_toBitVec_eq (v : Int64) :
    (v.toBitVec.toNat : Int) = if v.toInt < 0 then v.toInt + 2 ^ 64 else v.toInt := by
  have hbv := BitVec.toInt_eq_toNat_cond v.toBitVec
  rw [Int64.toInt_toBitVec] at hbv
  have hlt := v.toBitVec.isLt
  split <;> split at hbv <;> omega

/-- Shifting a word left by one doubles it, modulo `2 ^ 64`. -/
theorem toNat_shiftLeft_one (x : Int64) :
    (x <<< 1).toBitVec.toNat = x.toBitVec.toNat * 2 ^ 1 % 2 ^ 64 := by
  have hshift : ((1 : Int64).toBitVec.smod 64).toNat = 1 := by decide
  rw [Int64.toBitVec_shiftLeft, BitVec.shiftLeft_eq', BitVec.toNat_shiftLeft, hshift,
    Nat.shiftLeft_eq]

/-- Away from the least value the fold is exact: twice the magnitude, plus one for a negative
value. Negating any other value stays in range, and doubling a magnitude below `2 ^ 63` stays
below `2 ^ 64`. -/
theorem toNat_signFold {v : Int64} (hv : v ≠ Int64.minValue) :
    (signFold v).toNat = 2 * v.toInt.natAbs + (if v.toInt < 0 then 1 else 0) := by
  have hlo := Int64.le_toInt v
  have hhi : v.toInt ≤ 2 ^ 63 - 1 := Int64.toInt_le v
  have hmin : v.toInt ≠ -2 ^ 63 := fun h =>
    hv (by rw [← Int64.toInt_inj, h, Int64.toInt_minValue])
  have hbits := toNat_toBitVec_eq v
  unfold signFold
  rw [← UInt64.toNat_toBitVec, Int64.toBitVec_toUInt64]
  split
  · next hneg =>
    rw [Int64.lt_iff_toInt_lt, Int64.toInt_zero] at hneg
    rw [if_pos hneg] at hbits
    have hm : (-v).toBitVec.toNat = v.toInt.natAbs := by
      rw [Int64.toBitVec_neg, BitVec.toNat_neg]
      omega
    -- the doubled magnitude leaves the lowest bit free for the sign
    have hdouble : v.toInt.natAbs * 2 ^ 1 % 2 ^ 64 = 2 * v.toInt.natAbs := by omega
    have hor := Nat.two_pow_add_eq_or_of_lt (i := 1) (b := 1) (by decide) v.toInt.natAbs
    rw [Int64.toBitVec_or, BitVec.toNat_or, toNat_shiftLeft_one, hm, hdouble, Int64.toBitVec_one,
      BitVec.toNat_one, ← hor, if_pos hneg]
    omega
  · next hneg =>
    rw [Int64.lt_iff_toInt_lt, Int64.toInt_zero] at hneg
    rw [if_neg hneg] at hbits
    rw [toNat_shiftLeft_one, if_neg hneg]
    omega

/-- The sign read back from the lowest bit undoes the fold. -/
theorem signed_signFold {v : Int64} (hv : v ≠ Int64.minValue) :
    signed (signFold v).toNat = v.toInt := by
  rw [toNat_signFold hv, signed]
  split <;> split <;> omega

/-- The least value folds to `1`, which reads back as zero. -/
theorem signFold_minValue : signFold Int64.minValue = 1 := by decide

/-! ## The digit loop -/

/-- The loop's fuel only has to exceed the value: each turn divides the value by `32`. -/
theorem vlqDigits_go_congr (fuel : Nat) :
    ∀ (fuel' v : Nat), v < fuel → v < fuel' → vlqDigits.go fuel v = vlqDigits.go fuel' v := by
  induction fuel with
  | zero => intro _ _ h; omega
  | succ fuel ih =>
    intro fuel' v h h'
    obtain ⟨fuel', rfl⟩ : ∃ f, fuel' = f + 1 := ⟨fuel' - 1, by omega⟩
    simp only [vlqDigits.go]
    split
    · rw [ih fuel' (v / 32) (by omega) (by omega)]
    · rfl

/-- One turn of the digit loop: the low five bits, marked as continued when higher bits remain. -/
theorem vlqDigits_eq (v : Nat) :
    vlqDigits v = if 0 < v / 32 then digit (v % 32 + 32) :: vlqDigits (v / 32)
      else [digit (v % 32)] := by
  rw [vlqDigits, vlqDigits.go]
  split
  · rw [vlqDigits, vlqDigits_go_congr v (v / 32 + 1) (v / 32) (by omega) (by omega)]
  · rfl

/-- The digits of a folded word are its base-32 digits, low first: every digit but the last is
marked as continued, and when there are several the last is not zero, so no shorter digit string
spells the word. -/
theorem vlqDigits_canonical (v : Nat) :
    ∃ init last, vlqDigits v = (init.map (· + 32) ++ [last]).map digit ∧
      (∀ d ∈ init, d < 32) ∧ last < 32 ∧ (init ≠ [] → last ≠ 0) ∧
      Nat.ofDigits 32 (init ++ [last]) = v := by
  induction v using Nat.strong_induction_on with
  | _ v ih =>
    rw [vlqDigits_eq]
    split
    · next hmore =>
      obtain ⟨init, last, hdigits, hinit, hlast, hzero, hvalue⟩ := ih (v / 32) (by omega)
      refine ⟨v % 32 :: init, last, by simp [hdigits], ?_, hlast, fun _ => ?_, ?_⟩
      · intro d hd
        rcases List.mem_cons.1 hd with rfl | hd
        · omega
        · exact hinit d hd
      · -- a single digit left is the whole quotient, which is not zero
        rcases init with _ | ⟨d, init⟩
        · simp only [List.nil_append, Nat.ofDigits_singleton] at hvalue
          omega
        · exact hzero (List.cons_ne_nil _ _)
      · rw [List.cons_append, Nat.ofDigits_cons, hvalue]
        omega
    · next hone =>
      exact ⟨[], v % 32, by simp, by simp, by omega, fun h => absurd rfl h,
        by simp only [List.nil_append, Nat.ofDigits_singleton]; omega⟩

/-! ## Reading the digits -/

/-- Every digit the encoder writes is read as the value it was written for. -/
theorem mapM_digitValue_map_digit {ns : List Nat} (h : ∀ n ∈ ns, n < 64) :
    (ns.map digit).mapM digitValue = some ns := by
  induction ns with
  | nil => rfl
  | cons n ns ih =>
    have hn := digitValue_digit n (h n List.mem_cons_self)
    have hns := ih fun m hm => h m (List.mem_cons_of_mem _ hm)
    simp [hn, hns]

/-- Reading groups marked as continued and then a last group gathers them into one value, low
group first at the running weight, and pushes that value with its sign. -/
theorem foldl_readDigit_groups {last : Nat} (hlast : last < 32) (vals : List Int)
    (init : List Nat) (hinit : ∀ d ∈ init, d < 32) (acc w : Nat) :
    (init.map (· + 32) ++ [last]).foldl readDigit (vals, acc, w) =
      (signed (acc + w * Nat.ofDigits 32 (init ++ [last])) :: vals, 0, 1) := by
  -- the weight grows by `32` with each group read, the value gathered so far rides along
  induction init generalizing acc w with
  | nil => simp [readDigit, hlast, Nat.mul_comm]
  | cons d init ih =>
    have hstep : readDigit (vals, acc, w) (d + 32) = (vals, acc + d * w, w * 32) := by
      simp [readDigit]
    rw [List.map_cons, List.cons_append, List.foldl_cons, hstep,
      ih (fun e he => hinit e (List.mem_cons_of_mem _ he)), List.cons_append, Nat.ofDigits_cons]
    congr 3
    ring

/-! ## Values read back -/

/-- The digits of a value are base64 digits, and reading them, followed by anything, pushes the
value and starts the next one afresh. -/
theorem vlq_groups {v : Int64} (hv : v ≠ Int64.minValue) :
    ∃ gs : List Nat, (vlq v).toList = gs.map digit ∧ (∀ g ∈ gs, g < 64) ∧
      ∀ vals rest, (gs ++ rest).foldl readDigit (vals, 0, 1) =
        rest.foldl readDigit (v.toInt :: vals, 0, 1) := by
  obtain ⟨init, last, hdigits, hinit, hlast, -, hvalue⟩ := vlqDigits_canonical (signFold v).toNat
  refine ⟨init.map (· + 32) ++ [last], by simp [vlq, hdigits], ?_, fun vals rest => ?_⟩
  · intro g hg
    simp only [List.mem_append, List.mem_map, List.mem_singleton] at hg
    rcases hg with ⟨d, hd, rfl⟩ | rfl
    · have := hinit d hd
      omega
    · omega
  · rw [List.foldl_append, foldl_readDigit_groups hlast vals init hinit 0 1, hvalue,
      Nat.zero_add, Nat.one_mul, signed_signFold hv]

/-- Encoded values written one after another, as a segment holds them, read back in turn. -/
theorem join_vlq_groups {vs : List Int64} (h : ∀ v ∈ vs, v ≠ Int64.minValue) :
    ∃ gs : List Nat, (String.join (vs.map vlq)).toList = gs.map digit ∧ (∀ g ∈ gs, g < 64) ∧
      ∀ vals, gs.foldl readDigit (vals, 0, 1) = ((vs.map Int64.toInt).reverse ++ vals, 0, 1) := by
  induction vs with
  | nil => exact ⟨[], rfl, by simp, fun _ => rfl⟩
  | cons v vs ih =>
    obtain ⟨gs, hchars, hgs, hread⟩ := vlq_groups (h v List.mem_cons_self)
    obtain ⟨gs', hchars', hgs', hread'⟩ := ih fun w hw => h w (List.mem_cons_of_mem _ hw)
    refine ⟨gs ++ gs', ?_, ?_, fun vals => ?_⟩
    · rw [List.map_cons, String.join_cons, String.toList_append, hchars, hchars', List.map_append]
    · intro g hg
      rcases List.mem_append.1 hg with hg | hg
      · exact hgs g hg
      · exact hgs' g hg
    · rw [hread, hread']
      simp

/-- The reader gives back every value of a segment of encoded values, none of them the least. -/
theorem segmentValues_join_vlq {vs : List Int64} (h : ∀ v ∈ vs, v ≠ Int64.minValue) :
    segmentValues (String.join (vs.map vlq)) = some (vs.map Int64.toInt) := by
  obtain ⟨gs, hchars, hgs, hread⟩ := join_vlq_groups h
  rw [segmentValues, hchars, mapM_digitValue_map_digit hgs]
  simp [hread]

example : String.join ([0, 1, -1, 16].map vlq) = "ACDgB" ∧
    segmentValues "ACDgB" = some [0, 1, -1, 16] := by
  decide

/-- A value alone reads back. -/
theorem segmentValues_vlq {v : Int64} (hv : v ≠ Int64.minValue) :
    segmentValues (vlq v) = some [v.toInt] := by
  have hone : ∀ w ∈ [v], w ≠ Int64.minValue := by simpa using hv
  simpa using segmentValues_join_vlq hone

/-- The least value is the one that does not read back: its negation wraps, its fold is `1`,
and that reads as zero. -/
theorem segmentValues_vlq_eq_iff (v : Int64) :
    segmentValues (vlq v) = some [v.toInt] ↔ v ≠ Int64.minValue := by
  refine ⟨fun h hmin => ?_, segmentValues_vlq⟩
  subst hmin
  have hzero : segmentValues (vlq Int64.minValue) = some [0] := by
    rw [vlq, signFold_minValue]
    decide
  rw [hzero] at h
  exact absurd h (by decide)

/-- Read digit by digit, an encoding carries the continuation bit on every digit but the last,
and when it has several digits its last is not zero. -/
theorem vlq_continued (v : Int64) :
    ∃ init last, (vlq v).toList = init ++ [last] ∧
      (∀ c ∈ init, ∃ d, digitValue c = some d ∧ 32 ≤ d) ∧
      ∃ d, digitValue last = some d ∧ d < 32 ∧ (init ≠ [] → d ≠ 0) := by
  obtain ⟨init, last, hdigits, hinit, hlast, hzero, -⟩ := vlqDigits_canonical (signFold v).toNat
  refine ⟨init.map fun d => digit (d + 32), digit last, by simp [vlq, hdigits], ?_,
    last, digitValue_digit last (by omega), hlast, fun hne => hzero (by simpa using hne)⟩
  intro c hc
  obtain ⟨d, hd, rfl⟩ := List.mem_map.1 hc
  have := hinit d hd
  exact ⟨d + 32, digitValue_digit _ (by omega), by omega⟩

/-- Every value of magnitude below `2 ^ 62` reads back from its encoding, whose last digit is the
only one without the continuation bit and is not zero when there are several. -/
theorem vlq_reads_back (v : Int64) (hv : v.toInt.natAbs < 2 ^ 62) :
    segmentValues (vlq v) = some [v.toInt] ∧
      ∃ init last, (vlq v).toList = init ++ [last] ∧
        (∀ c ∈ init, ∃ d, digitValue c = some d ∧ 32 ≤ d) ∧
        ∃ d, digitValue last = some d ∧ d < 32 ∧ (init ≠ [] → d ≠ 0) := by
  have hmin : v ≠ Int64.minValue := by
    rintro rfl
    exact absurd hv (by decide)
  exact ⟨segmentValues_vlq hmin, vlq_continued v⟩

/-- The negative value nearest the bound reads back. -/
theorem vlq_reads_back_near_bound :
    segmentValues (vlq (-4611686018427387903)) = some [-4611686018427387903] := by
  have h := (vlq_reads_back (-4611686018427387903) (by decide)).1
  rwa [show (-4611686018427387903 : Int64).toInt = -4611686018427387903 by decide] at h

end SourceMap

end ModuleBundler
