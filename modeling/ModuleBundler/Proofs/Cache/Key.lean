import Mathlib
import ModuleBundler.Cache.Memo

/-!
# Cache keys determine their parts

A key is the digest of a list of text parts, each fed as its byte length in eight little-endian
bytes followed by its bytes. The length in front says where a part ends, so the fed bytes are
read back part by part: two lists fed as the same bytes are the same list (`keyBytes_injective`).
The eight bytes hold a length exactly below `2 ^ 64`, which every text held in memory is.

A key is the hex text of the digest, and the hex text gives the digest back (`hex_injective`).
So two memo namespaces with different versions or roots get different keys, unless the digests
of what they feed collide (`cacheKey_parts_injective`).
-/

namespace ModuleBundler

/-- The list of a byte array is its data's list. -/
theorem ByteArray.toList_loop_eq (bs : ByteArray) (i : Nat) (r : List UInt8) :
    ByteArray.toList.loop bs i r = r.reverse ++ bs.data.toList.drop i := by
  fun_induction ByteArray.toList.loop bs i r with
  | case1 i r h ih =>
    have hi : i < bs.data.toList.length := by simpa using h
    rw [ih, List.drop_eq_getElem_cons hi]
    simp [ByteArray.get!, h]
  | case2 i r h => simp; omega

theorem ByteArray.toList_eq_data (bs : ByteArray) : bs.toList = bs.data.toList := by
  simp [ByteArray.toList, ByteArray.toList_loop_eq]

@[simp] theorem String.length_toByteArray_toList (s : String) :
    s.toByteArray.toList.length = s.utf8ByteSize := by
  simp [ByteArray.toList_eq_data]

/-- A text is determined by its UTF-8 bytes. -/
theorem String.eq_of_toUTF8_toList {s t : String} (h : s.toUTF8.toList = t.toUTF8.toList) :
    s = t := by
  rw [ByteArray.toList_eq_data, ByteArray.toList_eq_data, Array.toList_inj] at h
  exact String.toByteArray_inj.1 (by simpa [String.toUTF8_eq_toByteArray] using ByteArray.ext h)

namespace Blake3

/-- The number that little-endian bytes stand for. -/
def ofLengthBytes (bs : List UInt8) : Nat := bs.foldr (fun b n => b.toNat + 256 * n) 0

theorem ofLengthBytes_lengthBytes (n : Nat) : ofLengthBytes (lengthBytes n) = n % 2 ^ 64 := by
  simp [ofLengthBytes, lengthBytes, List.range_succ]
  omega

@[simp] theorem length_lengthBytes (n : Nat) : (lengthBytes n).length = 8 := by
  simp [lengthBytes]

/-- Lengths below `2 ^ 64` have different length bytes. -/
theorem lengthBytes_injective {n m : Nat} (hn : n < 2 ^ 64) (hm : m < 2 ^ 64)
    (h : lengthBytes n = lengthBytes m) : n = m := by
  have h' := congrArg ofLengthBytes h
  rwa [ofLengthBytes_lengthBytes, ofLengthBytes_lengthBytes, Nat.mod_eq_of_lt hn,
    Nat.mod_eq_of_lt hm] at h'

@[simp] theorem keyBytes_nil : keyBytes [] = [] := rfl

theorem keyBytes_cons (p : String) (ps : List String) :
    keyBytes (p :: ps) = lengthBytes p.utf8ByteSize ++ (p.toUTF8.toList ++ keyBytes ps) := by
  simp [keyBytes]

/-- A part fed in front of two byte strings is read back from its length: the parts agree, and
so do the rests. -/
theorem part_split {p q : String} {u v : List UInt8} (hp : p.utf8ByteSize < 2 ^ 64)
    (hq : q.utf8ByteSize < 2 ^ 64)
    (h : lengthBytes p.utf8ByteSize ++ (p.toUTF8.toList ++ u) =
      lengthBytes q.utf8ByteSize ++ (q.toUTF8.toList ++ v)) : p = q ∧ u = v := by
  obtain ⟨hlen, hrest⟩ := List.append_inj h (by simp)
  have hsize : p.utf8ByteSize = q.utf8ByteSize := lengthBytes_injective hp hq hlen
  obtain ⟨htext, huv⟩ := List.append_inj hrest (by simp [hsize])
  exact ⟨String.eq_of_toUTF8_toList htext, huv⟩

/-- Lists of parts shorter than `2 ^ 64` bytes each are fed as different bytes. -/
theorem keyBytes_injective : ∀ {xs ys : List String}, (∀ s ∈ xs, s.utf8ByteSize < 2 ^ 64) →
    (∀ s ∈ ys, s.utf8ByteSize < 2 ^ 64) → keyBytes xs = keyBytes ys → xs = ys
  | [], [], _, _, _ => rfl
  | [], q :: ys, _, _, h => by
    have := congrArg List.length h.symm
    simp [keyBytes_cons] at this
  | p :: xs, [], _, _, h => by
    have := congrArg List.length h
    simp [keyBytes_cons] at this
  | p :: xs, q :: ys, hx, hy, h => by
    rw [keyBytes_cons, keyBytes_cons] at h
    obtain ⟨rfl, hrest⟩ := part_split (hx p (.head _)) (hy q (.head _)) h
    rw [keyBytes_injective (fun s hs => hx s (.tail _ hs)) (fun s hs => hy s (.tail _ hs)) hrest]

theorem hexDigit_toNat : ∀ n < 16, (hexDigit n).toNat = if n < 10 then 48 + n else 87 + n := by
  decide

theorem hexDigit_injective {n m : Nat} (hn : n < 16) (hm : m < 16)
    (h : hexDigit n = hexDigit m) : n = m := by
  have h' := congrArg Char.toNat h
  rw [hexDigit_toNat n hn, hexDigit_toNat m hm] at h'
  split at h' <;> split at h' <;> omega

/-- The two hex digits of a byte give the byte back. -/
theorem hexPair_injective {a b : UInt8}
    (h : hexDigit (a.toNat / 16) = hexDigit (b.toNat / 16) ∧
      hexDigit (a.toNat % 16) = hexDigit (b.toNat % 16)) : a = b := by
  have ha := a.toNat_lt
  have hb := b.toNat_lt
  have hhi := hexDigit_injective (by omega) (by omega) h.1
  have hlo := hexDigit_injective (by omega) (by omega) h.2
  exact UInt8.toNat_inj.1 (by omega)

/-- The hex text of a byte string gives the bytes back. -/
theorem hex_injective : ∀ {a b : List UInt8}, hex a = hex b → a = b
  | [], [], _ => rfl
  | [], _ :: _, h => by simp [hex] at h
  | _ :: _, [], h => by simp [hex] at h
  | x :: a, y :: b, h => by
    simp only [hex, String.ofList_inj, List.flatMap_cons, List.cons_append, List.nil_append,
      List.cons.injEq] at h
    obtain ⟨hhi, hlo, hrest⟩ := h
    rw [hexPair_injective ⟨hhi, hlo⟩, hex_injective (String.ofList_inj.2 hrest)]

end Blake3

/-- The bytes fed for a key decide its parts, for parts shorter than `2 ^ 64` bytes. The version
key of a memo then decides the version and the roots: two namespaces get the same key only when
the digests of the different bytes they feed collide. -/
theorem cacheKey_parts_injective :
    (∀ xs ys : List String, (∀ s ∈ xs, s.utf8ByteSize < 2 ^ 64) →
      (∀ s ∈ ys, s.utf8ByteSize < 2 ^ 64) →
        Blake3.keyBytes xs = Blake3.keyBytes ys → xs = ys) ∧
    ∀ (v v' : String) (r r' : List String), (∀ s ∈ v :: r, s.utf8ByteSize < 2 ^ 64) →
      (∀ s ∈ v' :: r', s.utf8ByteSize < 2 ^ 64) →
      (Blake3.hash (Blake3.keyBytes (ContentCache.versionParts v r none)) =
          Blake3.hash (Blake3.keyBytes (ContentCache.versionParts v' r' none)) →
        Blake3.keyBytes (ContentCache.versionParts v r none) =
          Blake3.keyBytes (ContentCache.versionParts v' r' none)) →
      ContentCache.versionKey v r none = ContentCache.versionKey v' r' none →
        (v, r) = (v', r') := by
  refine ⟨fun xs ys hx hy h => Blake3.keyBytes_injective hx hy h, ?_⟩
  intro v v' r r' hv hv' hcollide hkey
  -- the mtime part is the same `0` on both sides, and fits as well
  have hfits : ∀ (w : String) (ws : List String), (∀ s ∈ w :: ws, s.utf8ByteSize < 2 ^ 64) →
      ∀ s ∈ ContentCache.versionParts w ws none, s.utf8ByteSize < 2 ^ 64 := by
    intro w ws hw s hs
    simp only [ContentCache.versionParts, List.cons_append, List.mem_cons, List.mem_append,
      List.not_mem_nil, or_false] at hs
    rcases hs with rfl | hs | rfl
    · exact hw _ (.head _)
    · exact hw s (.tail _ hs)
    · decide
  have hdigest := Blake3.hex_injective hkey
  have hparts := Blake3.keyBytes_injective (hfits v r hv) (hfits v' r' hv') (hcollide hdigest)
  simp only [ContentCache.versionParts, List.cons_append, List.cons.injEq,
    List.append_cancel_right_eq] at hparts
  rw [hparts.1, hparts.2]

/-- The parts `ab`, `c` and `a`, `bc` are fed as different bytes, and two namespaces of one
version with the roots `/a` and `/b` get different keys. -/
theorem keys_separate_boundaries_and_roots :
    Blake3.keyBytes ["ab", "c"] ≠ Blake3.keyBytes ["a", "bc"] ∧
      ContentCache.versionKey "1" ["/a"] none ≠ ContentCache.versionKey "1" ["/b"] none := by
  constructor
  · intro h
    have hparts := cacheKey_parts_injective.1 ["ab", "c"] ["a", "bc"] (by decide) (by decide) h
    exact absurd hparts (by decide)
  · intro h
    have hdigests : Blake3.hash (Blake3.keyBytes (ContentCache.versionParts "1" ["/a"] none)) ≠
        Blake3.hash (Blake3.keyBytes (ContentCache.versionParts "1" ["/b"] none)) := by
      decide +kernel
    have hpair := cacheKey_parts_injective.2 "1" "1" ["/a"] ["/b"] (by decide) (by decide)
      (fun hd => absurd hd hdigests) h
    exact absurd hpair (by decide)

end ModuleBundler
