/-!
# Reading UTF-8 with replacement

Bytes are read as UTF-8, and every maximal run of bytes that starts a character but cannot be
completed, and every byte that cannot start one, becomes one U+FFFD. A run is maximal when it
is the longest prefix of a well-formed sequence: after `E0` only `A0`–`BF` may follow, after
`ED` only `80`–`9F`, after `F0` only `90`–`BF`, after `F4` only `80`–`8F`, and otherwise
continuation bytes are `80`–`BF`.
-/

namespace ModuleBundler

namespace Utf8

/-- The replacement character. -/
def replacement : Char := Char.ofNat 0xFFFD

/-- Whether a byte lies in an inclusive range. -/
def within (b : UInt8) (lo hi : Nat) : Bool := lo ≤ b.toNat && b.toNat ≤ hi

/-- Whether a byte continues a character. -/
def isTail (b : UInt8) : Bool := within b 0x80 0xBF

/-- For a leading byte: how many bytes follow, and the range of the first of them. -/
def leadShape (b : UInt8) : Option (Nat × Nat × Nat) :=
  let n := b.toNat
  if 0xC2 ≤ n ∧ n ≤ 0xDF then some (1, 0x80, 0xBF)
  else if n = 0xE0 then some (2, 0xA0, 0xBF)
  else if (0xE1 ≤ n ∧ n ≤ 0xEC) ∨ n = 0xEE ∨ n = 0xEF then some (2, 0x80, 0xBF)
  else if n = 0xED then some (2, 0x80, 0x9F)
  else if n = 0xF0 then some (3, 0x90, 0xBF)
  else if 0xF1 ≤ n ∧ n ≤ 0xF3 then some (3, 0x80, 0xBF)
  else if n = 0xF4 then some (3, 0x80, 0x8F)
  else none

/-- The payload bits of a leading byte that announces `more` following bytes. -/
def leadBits (b : UInt8) (more : Nat) : Nat :=
  match more with
  | 1 => b.toNat % 0x20
  | 2 => b.toNat % 0x10
  | _ => b.toNat % 0x08

/-- Append the payload of a continuation byte. -/
def addTail (value : Nat) (b : UInt8) : Nat := value * 64 + b.toNat % 64

/-- Decode bytes, replacing every ill-formed part. -/
def decodeLossy : List UInt8 → List Char
  | [] => []
  | b :: rest =>
    if b.toNat < 0x80 then Char.ofNat b.toNat :: decodeLossy rest
    else
      match leadShape b with
      | none => replacement :: decodeLossy rest
      | some (more, lo, hi) =>
        match rest with
        | [] => [replacement]
        | c1 :: r1 =>
          if !within c1 lo hi then replacement :: decodeLossy (c1 :: r1)
          else
            let v1 := addTail (leadBits b more) c1
            if more = 1 then Char.ofNat v1 :: decodeLossy r1
            else
              match r1 with
              | [] => [replacement]
              | c2 :: r2 =>
                if !isTail c2 then replacement :: decodeLossy (c2 :: r2)
                else
                  let v2 := addTail v1 c2
                  if more = 2 then Char.ofNat v2 :: decodeLossy r2
                  else
                    match r2 with
                    | [] => [replacement]
                    | c3 :: r3 =>
                      if !isTail c3 then replacement :: decodeLossy (c3 :: r3)
                      else Char.ofNat (addTail v2 c3) :: decodeLossy r3

/-- The text of bytes read as UTF-8 with replacement. -/
def decode (bytes : ByteArray) : String := String.ofList (decodeLossy bytes.toList)

end Utf8

end ModuleBundler
