/-!
UTF-8, written and read. Reading says where the bytes stop being UTF-8, and how far into a sequence.
-/

set_option autoImplicit false

namespace ScriptOutline.Text

abbrev Bytes := List UInt8

def encodeUtf8 (s : List Char) : Bytes := s.flatMap String.utf8EncodeChar

/-- Where bytes stop being UTF-8. `length` counts the bytes of the broken sequence that a longer
one could have begun with, and is absent when the bytes end inside a sequence. -/
structure Utf8Error where
  index : Nat
  length : Option Nat
  deriving DecidableEq, Repr

def Utf8Error.message (e : Utf8Error) : String :=
  match e.length with
  | some n => s!"invalid utf-8 sequence of {n} bytes from index {e.index}"
  | none => s!"incomplete utf-8 byte sequence from index {e.index}"

/-- For a lead byte, how many bytes follow and the range of the first of them. The ranges leave
out longer spellings of shorter sequences, surrogates and what lies past the last code point. -/
def lead (a : UInt8) : Option (Nat × UInt8 × UInt8) :=
  if a < 0xC2 then none
  else if a < 0xE0 then some (1, 0x80, 0xBF)
  else if a = 0xE0 then some (2, 0xA0, 0xBF)
  else if a = 0xED then some (2, 0x80, 0x9F)
  else if a < 0xF0 then some (2, 0x80, 0xBF)
  else if a = 0xF0 then some (3, 0x90, 0xBF)
  else if a < 0xF4 then some (3, 0x80, 0xBF)
  else if a = 0xF4 then some (3, 0x80, 0x8F)
  else none

def isTail (b : UInt8) : Bool := 0x80 ≤ b && b ≤ 0xBF

def low (b : UInt8) : Nat := b.toNat % 0x40

/-- Reads bytes whose first one stands at `index`. -/
def decodeFrom (index : Nat) : Bytes → Except Utf8Error (List Char)
  | [] => .ok []
  | a :: rest =>
    if a < 0x80 then (decodeFrom (index + 1) rest).map (Char.ofNat a.toNat :: ·)
    else match lead a with
    | none => .error ⟨index, some 1⟩
    | some (more, lo, hi) =>
      match rest with
      | [] => .error ⟨index, none⟩
      | b :: rest =>
        if b < lo || hi < b then .error ⟨index, some 1⟩
        else if more = 1 then
          (decodeFrom (index + 2) rest).map (Char.ofNat (a.toNat % 0x20 * 0x40 + low b) :: ·)
        else match rest with
        | [] => .error ⟨index, none⟩
        | c :: rest =>
          if !isTail c then .error ⟨index, some 2⟩
          else if more = 2 then
            (decodeFrom (index + 3) rest).map
              (Char.ofNat ((a.toNat % 0x10 * 0x40 + low b) * 0x40 + low c) :: ·)
          else match rest with
          | [] => .error ⟨index, none⟩
          | d :: rest =>
            if !isTail d then .error ⟨index, some 3⟩
            else (decodeFrom (index + 4) rest).map
              (Char.ofNat (((a.toNat % 0x8 * 0x40 + low b) * 0x40 + low c) * 0x40 + low d) :: ·)

def decodeUtf8 (bytes : Bytes) : Except Utf8Error (List Char) := decodeFrom 0 bytes

end ScriptOutline.Text
