/-!
# Reading bytes as text

Bytes that are not UTF-8 still make text: every longest stretch that starts a character and cannot
go on is read as one replacement character.
-/

namespace SkillCompiler

namespace Text

/-- A character that has begun: its bits so far, how many bytes it still needs, and the bounds of
the next one. -/
structure Begun where
  code : Nat
  needed : Nat
  low : Nat
  high : Nat
  deriving DecidableEq, Repr

/-- What a byte can begin. -/
inductive Lead where
  | whole (c : Char)
  | begun (b : Begun)
  | nothing
  deriving DecidableEq, Repr

def lead (byte : Nat) : Lead :=
  if byte < 0x80 then .whole (Char.ofNat byte)
  else if 0xC2 ≤ byte && byte ≤ 0xDF then .begun ⟨byte - 0xC0, 1, 0x80, 0xBF⟩
  else if byte = 0xE0 then .begun ⟨0, 2, 0xA0, 0xBF⟩
  else if byte = 0xED then .begun ⟨0xD, 2, 0x80, 0x9F⟩
  else if 0xE1 ≤ byte && byte ≤ 0xEF then .begun ⟨byte - 0xE0, 2, 0x80, 0xBF⟩
  else if byte = 0xF0 then .begun ⟨0, 3, 0x90, 0xBF⟩
  else if byte = 0xF4 then .begun ⟨4, 3, 0x80, 0x8F⟩
  else if 0xF1 ≤ byte && byte ≤ 0xF3 then .begun ⟨byte - 0xF0, 3, 0x80, 0xBF⟩
  else .nothing

/-- The character that stands for bytes that are none. -/
def replacement : Char := '�'

/-- What a byte that begins anew adds to the text, and the character it begins. -/
def beginWith (byte : Nat) : List Char × Option Begun :=
  match lead byte with
  | .whole c => ([c], none)
  | .begun b => ([], some b)
  | .nothing => ([replacement], none)

/-- What the next byte adds to the text, with a character begun before it or not. -/
def readByte (open? : Option Begun) (byte : Nat) : List Char × Option Begun :=
  match open? with
  | none => beginWith byte
  | some b =>
    if b.low ≤ byte && byte ≤ b.high then
      let code := b.code * 64 + (byte - 0x80)
      if b.needed = 1 then ([Char.ofNat code], none)
      else ([], some ⟨code, b.needed - 1, 0x80, 0xBF⟩)
    else (replacement :: (beginWith byte).1, (beginWith byte).2)

/-- Reads bytes, with a character begun before them or not. -/
def decodeFrom (open? : Option Begun) : List UInt8 → List Char
  | [] => if open?.isSome then [replacement] else []
  | byte :: rest => (readByte open? byte.toNat).1 ++ decodeFrom (readByte open? byte.toNat).2 rest

/-- The text that bytes make. -/
def decodeLossy (bytes : ByteArray) : String :=
  String.ofList (decodeFrom none bytes.toList)

end Text

end SkillCompiler
