/-
# Reading UTF-8

Bytes are read as UTF-8 in one pass. The first byte of a character fixes which
ranges the bytes after it may lie in; overlong forms, surrogates and numbers
past U+10FFFF are ruled out by these ranges. A fault names the byte at which
the character in question starts, and how many of its bytes were in order.

Key definitions: `Utf8.Fault`, `Utf8.decode`.
-/

namespace DeadBranch
namespace Utf8

/-- Why bytes are not UTF-8. -/
inductive Fault where
  /-- The bytes end inside a character that starts at `start`. -/
  | incomplete (start : Nat)
  /-- `count` bytes from `start` on begin no character. -/
  | invalid (count start : Nat)
deriving DecidableEq, Repr

/-- The fault in words. -/
def Fault.message : Fault → String
  | incomplete start => s!"incomplete utf-8 byte sequence from index {start}"
  | invalid count start => s!"invalid utf-8 sequence of {count} bytes from index {start}"

/-- What the first byte of a character contributes to its number, and the
ranges for the bytes after it. -/
def lead (b : UInt8) : Option (Nat × List (UInt8 × UInt8)) :=
  if b < 0x80 then some (b.toNat, [])
  else if b < 0xc2 then none
  else if b < 0xe0 then some (b.toNat - 0xc0, [(0x80, 0xbf)])
  else if b < 0xf0 then
    let second := if b = 0xe0 then (0xa0, 0xbf) else if b = 0xed then (0x80, 0x9f) else (0x80, 0xbf)
    some (b.toNat - 0xe0, [second, (0x80, 0xbf)])
  else if b < 0xf5 then
    let second := if b = 0xf0 then (0x90, 0xbf) else if b = 0xf4 then (0x80, 0x8f) else (0x80, 0xbf)
    some (b.toNat - 0xf0, [second, (0x80, 0xbf), (0x80, 0xbf)])
  else none

/-- The characters of the bytes that follow, where `seen` bytes of a character
that starts at `start` have been read, with the number `value` so far, and
`pending` are the ranges for the rest of it. -/
def decodeFrom (start seen value : Nat) (pending : List (UInt8 × UInt8)) :
    List UInt8 → Except Fault (List Char)
  | [] => if pending.isEmpty then .ok [] else .error (.incomplete start)
  | b :: rest =>
    match pending with
    | [] =>
      match lead b with
      | none => .error (.invalid 1 start)
      | some (n, []) => (decodeFrom (start + 1) 0 0 [] rest).map (Char.ofNat n :: ·)
      | some (n, ranges) => decodeFrom start 1 n ranges rest
    | (low, high) :: later =>
      if low ≤ b ∧ b ≤ high then
        let n := value * 64 + b.toNat % 64
        if later.isEmpty then
          (decodeFrom (start + seen + 1) 0 0 [] rest).map (Char.ofNat n :: ·)
        else decodeFrom start (seen + 1) n later rest
      else .error (.invalid seen start)

/-- The text that bytes are the UTF-8 form of. -/
def decode (bytes : List UInt8) : Except Fault String :=
  (decodeFrom 0 0 0 [] bytes).map String.ofList

/-- The UTF-8 form of a text. -/
def encode (s : String) : List UInt8 := s.toUTF8.data.toList

end Utf8
end DeadBranch
