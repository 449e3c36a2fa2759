import SqlLayout.Text.Raw

/-!
# Text from bytes, and bytes from text

Files hold UTF-8. Where they do not, the fault is the shortest start of a sequence that cannot go
on, and its place is counted in bytes. Line ends of any form read as line feeds. Halves of surrogate
pairs have no bytes, except that in the name of a file some of them stand for a byte that is no part
of a character.
-/

namespace SqlLayout

abbrev Bytes := List UInt8

inductive DecodeReason where
  | startByte
  | continuationByte
  | endOfData
deriving DecidableEq

structure DecodeFault where
  reason : DecodeReason
  /-- The first byte at fault. -/
  byte : UInt8
  position : Nat
  /-- The number of bytes at fault. -/
  size : Nat
deriving DecidableEq

/-- Code points that have no bytes. -/
structure EncodeFault where
  /-- The first code point at fault. -/
  half : Fin 2048
  position : Nat
  /-- The number of code points at fault. -/
  size : Nat
deriving DecidableEq

/-- Where a fault lies: a single item is shown, and more than one are only named. -/
def faultPlace (single several : Text) (position size : Nat) : Text :=
  if size = 1 then single ++ " in position ".toList ++ Text.ofNat position
  else
    several ++ " in position ".toList ++ Text.ofNat position ++ ['-'] ++
      Text.ofNat (position + size - 1)

def DecodeFault.message (f : DecodeFault) : Text :=
  let byte := "byte 0x".toList ++ Text.hexDigits 2 f.byte.toNat
  let reason :=
    match f.reason with
    | .startByte => "invalid start byte"
    | .continuationByte => "invalid continuation byte"
    | .endOfData => "unexpected end of data"
  "'utf-8' codec can't decode ".toList ++ faultPlace byte "bytes".toList f.position f.size ++
    ": ".toList ++ reason.toList

def EncodeFault.message (f : EncodeFault) : Text :=
  let character := "character '".toList ++ (CodePoint.half f.half).escaped ++ ['\x27']
  "'utf-8' codec can't encode ".toList ++
    faultPlace character "characters".toList f.position f.size ++ ": surrogates not allowed".toList

namespace Utf8

/-- What a start byte announces: how many bytes follow, the range of the first of them, and the
bits that the start byte contributes. -/
structure Announcement where
  following : Nat
  low : Nat
  high : Nat
  bits : Nat

/-- What a byte announces as the start of a sequence. -/
def announce? (b : UInt8) : Option Announcement :=
  let n := b.toNat
  if n < 0x80 then some ⟨0, 0, 0, n⟩
  else if 0xc2 ≤ n ∧ n ≤ 0xdf then some ⟨1, 0x80, 0xbf, n - 0xc0⟩
  else if n = 0xe0 then some ⟨2, 0xa0, 0xbf, 0⟩
  else if n = 0xed then some ⟨2, 0x80, 0x9f, 0xd⟩
  else if 0xe1 ≤ n ∧ n ≤ 0xef then some ⟨2, 0x80, 0xbf, n - 0xe0⟩
  else if n = 0xf0 then some ⟨3, 0x90, 0xbf, 0⟩
  else if 0xf1 ≤ n ∧ n ≤ 0xf3 then some ⟨3, 0x80, 0xbf, n - 0xf0⟩
  else if n = 0xf4 then some ⟨3, 0x80, 0x8f, 4⟩
  else none

/-- Reads the bytes that follow a start byte: the code point, or how many of them were read and
what is wrong with the next one. -/
def readFollowing (low high bits read : Nat) :
    (following : Nat) → Bytes → Except (DecodeReason × Nat) Nat
  | 0, _ => .ok bits
  | _ + 1, [] => .error (.endOfData, read)
  | following + 1, b :: bs =>
    if low ≤ b.toNat ∧ b.toNat ≤ high then
      readFollowing 0x80 0xbf (bits * 64 + (b.toNat - 0x80)) (read + 1) following bs
    else .error (.continuationByte, read)

/-- The text that bytes from a position on stand for. -/
def decodeFrom (position : Nat) (bs : Bytes) : Except DecodeFault Text :=
  match bs with
  | [] => .ok []
  | b :: rest =>
    match announce? b with
    | none => .error ⟨.startByte, b, position, 1⟩
    | some a =>
      match readFollowing a.low a.high a.bits 0 a.following rest with
      | .error (reason, read) => .error ⟨reason, b, position, read + 1⟩
      | .ok code =>
        match decodeFrom (position + a.following + 1) (rest.drop a.following) with
        | .error f => .error f
        | .ok t => .ok (Char.ofNat code :: t)
termination_by bs.length
decreasing_by simp only [List.length_drop, List.length_cons]; omega

def decode (bs : Bytes) : Except DecodeFault Text :=
  decodeFrom 0 bs

/-- The sign for bytes that stand for nothing. -/
def replacement : Char := '\ufffd'

/-- The text that bytes stand for, with a sign in place of every fault. -/
def mend (bs : Bytes) : Text :=
  match bs with
  | [] => []
  | b :: rest =>
    match announce? b with
    | none => replacement :: mend rest
    | some a =>
      match readFollowing a.low a.high a.bits 0 a.following rest with
      | .error (_, read) => replacement :: mend (rest.drop read)
      | .ok code => Char.ofNat code :: mend (rest.drop a.following)
termination_by bs.length
decreasing_by all_goals (simp only [List.length_drop, List.length_cons]; omega)

/-- The bytes of a raw text from a position on, given those that stand for halves. -/
def encodeFrom (byte? : Fin 2048 → Option UInt8) (position : Nat) :
    RawText → Except EncodeFault Bytes
  | [] => .ok []
  | .char c :: cs => (encodeFrom byte? (position + 1) cs).map (String.utf8EncodeChar c ++ ·)
  | .half n :: cs =>
    match byte? n with
    | some b => (encodeFrom byte? (position + 1) cs).map (b :: ·)
    | none => .error ⟨n, position, (cs.takeWhile CodePoint.isHalf).length + 1⟩

/-- The bytes of a raw text, which must not hold halves. -/
def encode (t : RawText) : Except EncodeFault Bytes :=
  encodeFrom (fun _ => none) 0 t

/-- The byte from 128 on that a half stands for in the name of a file. -/
def strayByte? (n : Fin 2048) : Option UInt8 :=
  if 0x480 ≤ n.val ∧ n.val < 0x500 then some (n.val - 0x400).toUInt8 else none

def encodeName (t : RawText) : Except EncodeFault Bytes :=
  encodeFrom strayByte? 0 t

end Utf8

def Text.bytes (t : Text) : Bytes :=
  t.flatMap String.utf8EncodeChar

/-- Writes every line end as a line feed. -/
def Text.unifyLineEnds : Text → Text
  | [] => []
  | '\r' :: '\n' :: cs => '\n' :: unifyLineEnds cs
  | '\r' :: cs => '\n' :: unifyLineEnds cs
  | c :: cs => c :: unifyLineEnds cs

def Bytes.toText (bs : Bytes) : Except DecodeFault Text :=
  match Utf8.decode bs with
  | .error f => .error f
  | .ok t => .ok t.unifyLineEnds

end SqlLayout
