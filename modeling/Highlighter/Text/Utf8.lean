/-
Texts as bytes.

A text is written down as the UTF-8 forms of its characters.  Bytes that are the
form of a text are read back by `decode?`, which fails on any others.  `decodeLossy`
reads all bytes: it puts one replacement character for every part that is not
well-formed, where such a part is a byte that cannot begin a character, or the
bytes of a character that breaks off.  It looks at one byte at a time and keeps
what it still expects.
-/
import Highlighter.Text.Basic

namespace Highlighter
namespace Text

def encode (s : Text) : List UInt8 := s.flatMap String.utf8EncodeChar

def decode? (bytes : List UInt8) : Option Text :=
  (String.fromUTF8? ⟨bytes.toArray⟩).map String.toList

/-- The bytes of a text are read back as that text, and no others are. -/
theorem decode?_eq_some_iff {bytes : List UInt8} {s : Text} :
    decode? bytes = some s ↔ encode s = bytes := by
  have hbytes : ∀ t : Text, t.utf8Encode = ⟨(encode t).toArray⟩ := fun t =>
    ByteArray.ext (by simp [List.utf8Encode, encode])
  constructor
  · intro h
    obtain ⟨t, ht, rfl⟩ := Option.map_eq_some_iff.mp h
    rw [String.fromUTF8?] at ht
    split at ht
    · case isTrue hvalid =>
      cases ht
      have hform : (String.fromUTF8 ⟨bytes.toArray⟩ hvalid).toList.utf8Encode = ⟨bytes.toArray⟩ :=
        String.utf8Encode_toList
      rw [hbytes] at hform
      exact Array.toList_inj.mpr (ByteArray.mk.inj hform)
    · cases ht
  · rintro rfl
    have hvalid : ByteArray.IsValidUTF8 ⟨(encode s).toArray⟩ := .intro s (hbytes s).symm
    have htext : String.fromUTF8 ⟨(encode s).toArray⟩ hvalid = String.ofList s :=
      String.toByteArray_inj.mp (hbytes s).symm
    rw [decode?, String.fromUTF8?, dif_pos hvalid, htext, Option.map_some, String.toList_ofList]

theorem length_encode (s : Text) : (encode s).length = byteLength s := by
  induction s with
  | nil => rfl
  | cons c s ih =>
    rw [encode, List.flatMap_cons, List.length_append, String.length_utf8EncodeChar]
    exact congrArg (c.utf8Size + ·) ih

theorem encode_append (s t : Text) : encode (s ++ t) = encode s ++ encode t := List.flatMap_append

/-- The bytes of a part of a line are the bytes of the line between the two offsets. -/
theorem encode_of_slice? {line t : Text} {start stop : Nat}
    (h : slice? line start stop = some t) : encode t = (encode line).extract start stop := by
  obtain ⟨before, after, rfl, rfl, rfl⟩ := slice?_eq_some_iff.mp h
  rw [encode_append, encode_append, List.extract_eq_take_drop, List.append_assoc,
    ← length_encode before, List.drop_left, Nat.add_sub_cancel_left, ← length_encode t,
    List.take_left]

def replacement : Char := '\uFFFD'

/-- A character of which the first bytes have been read. -/
structure Unfinished where
  value : Nat
  missing : Nat
  /-- The least byte that may come next. -/
  least : Nat
  greatest : Nat

/-- What the first byte of a character promises.  Four of them narrow down the byte
after them, so that no character has a longer form than it needs, none is half of a
pair, and none lies beyond the last code point. -/
def Unfinished.ofLead? (b : Nat) : Option Unfinished :=
  if 0xC2 ≤ b ∧ b ≤ 0xDF then some ⟨b - 0xC0, 1, 0x80, 0xBF⟩
  else if b = 0xE0 then some ⟨0, 2, 0xA0, 0xBF⟩
  else if b = 0xED then some ⟨0xD, 2, 0x80, 0x9F⟩
  else if 0xE1 ≤ b ∧ b ≤ 0xEF then some ⟨b - 0xE0, 2, 0x80, 0xBF⟩
  else if b = 0xF0 then some ⟨0, 3, 0x90, 0xBF⟩
  else if b = 0xF4 then some ⟨4, 3, 0x80, 0x8F⟩
  else if 0xF1 ≤ b ∧ b ≤ 0xF3 then some ⟨b - 0xF0, 3, 0x80, 0xBF⟩
  else none

/-- What a byte at the beginning of a character gives: characters that are complete,
and the character that it is the first byte of. -/
def decodeLead (b : Nat) : Text × Option Unfinished :=
  if b < 0x80 then ([Char.ofNat b], none)
  else
    match Unfinished.ofLead? b with
    | some u => ([], some u)
    | none => ([replacement], none)

/-- What the next byte gives, after an unfinished character if there is one. -/
def decodeByte (pending : Option Unfinished) (b : Nat) : Text × Option Unfinished :=
  match pending with
  | none => decodeLead b
  | some u =>
    if u.least ≤ b ∧ b ≤ u.greatest then
      let value := 64 * u.value + (b - 0x80)
      if u.missing = 1 then ([Char.ofNat value], none)
      else ([], some ⟨value, u.missing - 1, 0x80, 0xBF⟩)
    else
      let (complete, pending) := decodeLead b
      (replacement :: complete, pending)

def decodeFrom (pending : Option Unfinished) : List UInt8 → Text
  | [] => if pending.isSome then [replacement] else []
  | b :: rest =>
    let (complete, pending) := decodeByte pending b.toNat
    complete ++ decodeFrom pending rest

/-- Reads any bytes, with a replacement character for every part that is not
well-formed. -/
def decodeLossy (bytes : List UInt8) : Text := decodeFrom none bytes

end Text
end Highlighter
