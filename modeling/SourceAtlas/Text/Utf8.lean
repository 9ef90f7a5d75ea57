/- Text from bytes that may not be valid UTF-8. -/

namespace SourceAtlas.Text

/-- The character that stands for bytes that make none. -/
def replacement : Char := '�'

/-- How a byte may start a character: the number of bytes that follow, the bits it
contributes, and the range of the second byte. -/
structure Lead where
  follow : Nat
  bits : Nat
  low : Nat
  high : Nat

/-- The role of a byte at the start of a character; `none` when it cannot start one. -/
def Lead.of? (byte : UInt8) : Option Lead :=
  let b := byte.toNat
  if b < 0x80 then some ⟨0, b, 0, 0⟩
  else if 0xC2 ≤ b ∧ b ≤ 0xDF then some ⟨1, b % 0x20, 0x80, 0xBF⟩
  else if b = 0xE0 then some ⟨2, b % 0x10, 0xA0, 0xBF⟩
  else if b = 0xED then some ⟨2, b % 0x10, 0x80, 0x9F⟩
  else if 0xE1 ≤ b ∧ b ≤ 0xEF then some ⟨2, b % 0x10, 0x80, 0xBF⟩
  else if b = 0xF0 then some ⟨3, b % 0x08, 0x90, 0xBF⟩
  else if 0xF1 ≤ b ∧ b ≤ 0xF3 then some ⟨3, b % 0x08, 0x80, 0xBF⟩
  else if b = 0xF4 then some ⟨3, b % 0x08, 0x80, 0x8F⟩
  else none

/-- A character that is being read: the bytes still to come, the bits so far, and the range
of the next byte. -/
structure Pending where
  missing : Nat
  bits : Nat
  low : Nat
  high : Nat

/-- One step of lossy decoding: the characters finished by a byte, and what is pending after it.
A byte that cannot go on with the pending character ends it with a replacement and is
looked at again as a first byte. -/
def decodeStep (done : List Char) (pending : Option Pending) (byte : UInt8) :
    List Char × Option Pending :=
  let start (done : List Char) : List Char × Option Pending :=
    match Lead.of? byte with
    | none => (replacement :: done, none)
    | some lead =>
      if lead.follow = 0 then (Char.ofNat lead.bits :: done, none)
      else (done, some ⟨lead.follow, lead.bits, lead.low, lead.high⟩)
  match pending with
  | none => start done
  | some pending =>
    if pending.low ≤ byte.toNat ∧ byte.toNat ≤ pending.high then
      let bits := pending.bits * 0x40 + byte.toNat % 0x40
      if pending.missing = 1 then (Char.ofNat bits :: done, none)
      else (done, some ⟨pending.missing - 1, bits, 0x80, 0xBF⟩)
    else start (replacement :: done)

/-- The text of a sequence of bytes, with a replacement for each longest part that starts a
character and cannot be finished. -/
def decodeLossy (bytes : List UInt8) : String :=
  let (done, pending) := bytes.foldl (fun (done, pending) byte => decodeStep done pending byte)
    ([], none)
  String.ofList (if pending.isSome then replacement :: done else done).reverse

/-- The text of a sequence of bytes, and whether it had to be mended. -/
def decode (bytes : ByteArray) : String × Bool :=
  match String.fromUTF8? bytes with
  | some text => (text, false)
  | none => (decodeLossy bytes.toList, true)

end SourceAtlas.Text
