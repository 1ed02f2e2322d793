/-!
# Base64

The standard alphabet (`A`–`Z`, `a`–`z`, `0`–`9`, `+`, `/`) with `=` padding to a multiple of
four characters.

`decode` is strict, and says where a text goes wrong the way the usual strict decoder does. Every
group of four but the last must be four symbols; a `=` among them is a bad symbol. The last group
holds two to four symbols and then padding up to four characters. A lone trailing character is
a bad symbol when it is not one, and otherwise makes the length wrong. The unused low bits of the
last symbol must be zero. `decode?` is lenient: it drops padding and reads the rest.
-/

namespace ModuleBundler

namespace Base64

/-- The character of a six-bit value. -/
def digit (n : Nat) : Char :=
  if n < 26 then Char.ofNat (65 + n)
  else if n < 52 then Char.ofNat (71 + n)
  else if n < 62 then Char.ofNat (n - 4)
  else if n = 62 then '+'
  else '/'

/-- The six-bit value of a character of the alphabet. -/
def value? (c : Char) : Option Nat :=
  if 'A' ≤ c ∧ c ≤ 'Z' then some (c.toNat - 65)
  else if 'a' ≤ c ∧ c ≤ 'z' then some (c.toNat - 71)
  else if '0' ≤ c ∧ c ≤ '9' then some (c.toNat + 4)
  else if c = '+' then some 62
  else if c = '/' then some 63
  else none

/-- Encode groups of three bytes as four characters, padding the last group. -/
def encodeList : List UInt8 → List Char
  | [] => []
  | [a] =>
    let n := a.toNat * 65536
    [digit (n / 262144), digit (n / 4096 % 64), '=', '=']
  | [a, b] =>
    let n := a.toNat * 65536 + b.toNat * 256
    [digit (n / 262144), digit (n / 4096 % 64), digit (n / 64 % 64), '=']
  | a :: b :: c :: rest =>
    let n := a.toNat * 65536 + b.toNat * 256 + c.toNat
    [digit (n / 262144), digit (n / 4096 % 64), digit (n / 64 % 64), digit (n % 64)] ++ encodeList rest

/-- The padded encoding of bytes. -/
def encode (bytes : List UInt8) : String := String.ofList (encodeList bytes)

/-- The padded encoding of a text's UTF-8 bytes. -/
def encodeText (s : String) : String := encode s.toUTF8.toList

/-- Decode groups of up to four values into bytes. -/
def decodeValues : List Nat → List UInt8
  | a :: b :: c :: d :: rest =>
    let n := ((a * 64 + b) * 64 + c) * 64 + d
    [(n / 65536).toUInt8, (n / 256 % 256).toUInt8, (n % 256).toUInt8] ++ decodeValues rest
  | [a, b, c] =>
    let n := ((a * 64 + b) * 64 + c) * 64
    [(n / 65536).toUInt8, (n / 256 % 256).toUInt8]
  | [a, b] =>
    let n := (a * 64 + b) * 4096
    [(n / 65536).toUInt8]
  | _ => []

/-- The bytes of an encoded text; none when a character is outside the alphabet. -/
def decode? (s : String) : Option (List UInt8) :=
  let cs := s.toList.filter (· != '=')
  (cs.mapM value?).map decodeValues

/-- Why a text is not strict base64; offsets count bytes of the text. -/
inductive DecodeError where
  | invalidByte (offset byte : Nat)
  | invalidLength (length : Nat)
  | invalidLastSymbol (offset byte : Nat)
  | invalidPadding
  deriving DecidableEq, Repr

/-- The text of a decoding failure. -/
def DecodeError.message : DecodeError → String
  | .invalidByte i b => "Invalid symbol " ++ toString b ++ ", offset " ++ toString i ++ "."
  | .invalidLength n => "Invalid input length: " ++ toString n
  | .invalidLastSymbol i b => "Invalid last symbol " ++ toString b ++ ", offset " ++ toString i ++ "."
  | .invalidPadding => "Invalid padding"

/-- The six-bit value of a byte of the alphabet. -/
def byteValue? (b : UInt8) : Option Nat := if b < 128 then value? (Char.ofNat b.toNat) else none

/-- The padding byte `=`. -/
def padByte : UInt8 := 61

/-- The values of the bytes of whole groups, the first at `offset`; the first byte outside the
alphabet fails. -/
def groupValues (offset : Nat) : List UInt8 → Except DecodeError (List Nat)
  | [] => .ok []
  | b :: rest =>
    match byteValue? b with
    | some v => (groupValues (offset + 1) rest).map (v :: ·)
    | none => .error (.invalidByte offset b.toNat)

/-- What reading the last group has met: its symbols' values (reversed), the padding bytes so far,
the offset of the first of them, and the last symbol. -/
structure Tail where
  values : List Nat
  padding : Nat
  firstPad : Nat
  last : Nat

/-- Read the last group, which starts at offset `start`, byte by byte from its index `i`. -/
def readTail (start : Nat) (i : Nat) (t : Tail) : List UInt8 → Except DecodeError Tail
  | [] => .ok t
  | b :: rest =>
    if b = padByte then
      if i < 2 then .error (.invalidByte (start + i) b.toNat)
      else
        let t := if t.padding = 0 then { t with firstPad := i } else t
        readTail start (i + 1) { t with padding := t.padding + 1 } rest
    else if t.padding > 0 then .error (.invalidByte (start + t.firstPad) padByte.toNat)
    else
      match byteValue? b with
      | some v => readTail start (i + 1) { t with values := v :: t.values, last := b.toNat } rest
      | none => .error (.invalidByte (start + i) b.toNat)

/-- The bytes of the last group, which starts at offset `start`. -/
def decodeTail (start : Nat) (group : List UInt8) (whole : Bool) : Except DecodeError (List UInt8) := do
  let t ← readTail start 0 ⟨[], 0, 0, 0⟩ group
  let n := t.values.length
  if whole && n < 2 then throw (.invalidLength (start + n))
  if (t.padding + n) % 4 != 0 then throw .invalidPadding
  let vs := t.values.reverse ++ List.replicate (4 - n) 0
  let num := vs.foldl (fun acc v => acc * 64 + v) 0
  let keep := n * 6 / 8
  -- the bits below the kept bytes must be zero
  if num % Nat.pow 2 (24 - 8 * keep) != 0 then throw (.invalidLastSymbol (start + n - 1) t.last)
  return (decodeValues vs).take keep

/-- The bytes of a strict base64 text. -/
def decode (s : String) : Except DecodeError (List UInt8) := do
  let input := s.toUTF8.toList
  let len := input.length
  let rem := len % 4
  if rem = 1 then
    match input.getLast? with
    | some b => if b != padByte && (byteValue? b).isNone then throw (.invalidByte (len - 1) b.toNat)
    | none => pure ()
  -- every group but the last, which may hold padding
  let body := len - rem - (if rem = 0 then 4 else 0)
  let values ← groupValues 0 (input.take body)
  let tail ← decodeTail body (input.drop body) (!input.isEmpty)
  return decodeValues values ++ tail

end Base64

end ModuleBundler
