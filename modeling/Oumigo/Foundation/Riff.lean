import Mathlib.Algebra.Group.Nat.Defs
import Mathlib.Data.List.Basic

/-!
# RIFF/WAVE files

The container that PCM audio comes in: a header, then chunks with a name, a size and a body,
each padded to an even length.  A `Wave` is a well-formed file up to the header of its data
chunk; what follows that header is any bytes, as in a file that was streamed and whose sizes
were never filled in.
-/

namespace Riff

/-- The bytes of a chunk's name. -/
def tag (name : String) : List UInt8 := name.toList.map fun c => UInt8.ofNat c.toNat

/-- A number as four bytes, the lowest one first. -/
def le32 (n : Nat) : List UInt8 :=
  [UInt8.ofNat n, UInt8.ofNat (n / 256), UInt8.ofNat (n / 65536), UInt8.ofNat (n / 16777216)]

/-- The number that bytes stand for, the lowest one first. -/
def leNat (bytes : List UInt8) : Nat := bytes.foldr (fun b n => b.toNat + 256 * n) 0

@[simp]
theorem le32_length (n : Nat) : (le32 n).length = 4 := rfl

theorem leNat_le32 {n : Nat} (small : n < 2 ^ 32) : leNat (le32 n) = n := by
  simp only [leNat, le32, List.foldr_cons, List.foldr_nil, UInt8.toNat_ofNat']
  omega

/-- A chunk of a file. -/
structure WaveChunk where
  name : List UInt8
  body : List UInt8
  /-- The byte that makes an odd body even. -/
  pad : UInt8
  name_length : name.length = 4
  body_small : body.length < 2 ^ 32

namespace WaveChunk

variable (chunk : WaveChunk)

/-- The pad byte, where there is one. -/
def padding : List UInt8 := if chunk.body.length % 2 = 1 then [chunk.pad] else []

/-- The bytes of a chunk. -/
def bytes : List UInt8 :=
  chunk.name ++ (le32 chunk.body.length ++ (chunk.body ++ chunk.padding))

theorem padding_length : chunk.padding.length = chunk.body.length % 2 := by
  unfold padding
  split
  · next odd => rw [odd, List.length_singleton]
  · next even =>
    rw [List.length_nil]
    omega

theorem bytes_length :
    chunk.bytes.length = 8 + chunk.body.length + chunk.body.length % 2 := by
  simp only [bytes, List.length_append, le32_length, chunk.name_length, chunk.padding_length]
  omega

end WaveChunk

/-- A well-formed file. -/
structure Wave where
  /-- The size in the header, which need not be right. -/
  size : Nat
  lead : List WaveChunk
  fmt : WaveChunk
  between : List WaveChunk
  /-- The size that the data chunk declares. -/
  declared : Nat
  /-- What follows the header of the data chunk. -/
  rest : List UInt8
  fmt_name : fmt.name = tag "fmt "
  fmt_length : 12 ≤ fmt.body.length
  rate_pos : 0 < leNat ((fmt.body.drop 8).take 4)
  others : ∀ chunk ∈ lead ++ between, chunk.name ≠ tag "fmt " ∧ chunk.name ≠ tag "data"
  declared_small : declared < 2 ^ 32
  rest_ne_nil : rest ≠ []

namespace Wave

variable (wave : Wave)

/-- The field `byte_rate` of the format. -/
def byteRate : Nat := leNat ((wave.fmt.body.drop 8).take 4)

/-- The chunks before the data chunk. -/
def chunks : List WaveChunk := wave.lead ++ wave.fmt :: wave.between

/-- The bytes before the data chunk. -/
def front : List UInt8 :=
  tag "RIFF" ++ (le32 wave.size ++ (tag "WAVE" ++ wave.chunks.flatMap WaveChunk.bytes))

/-- The data chunk and whatever comes after it. -/
def tail : List UInt8 := tag "data" ++ (le32 wave.declared ++ wave.rest)

/-- The bytes of a file. -/
def bytes : List UInt8 := wave.front ++ wave.tail

/-- How long the data is: the declared size counts when the file holds more than that. -/
def dataLength : Nat :=
  if 0 < wave.declared ∧ wave.declared < wave.rest.length then wave.declared
  else wave.rest.length

/-- How long the audio is, in seconds. -/
def seconds : Rat := wave.dataLength / wave.byteRate

theorem dataLength_pos : 0 < wave.dataLength := by
  unfold dataLength
  split
  · next declared => exact declared.1
  · exact List.length_pos_iff.mpr wave.rest_ne_nil

theorem bytes_eq : wave.bytes =
    tag "RIFF" ++ (le32 wave.size ++ (tag "WAVE" ++ (wave.chunks.flatMap WaveChunk.bytes ++
      wave.tail))) := by
  simp only [bytes, front, List.append_assoc]

theorem front_length : wave.front.length = 12 + (wave.chunks.flatMap WaveChunk.bytes).length := by
  have riff : (tag "RIFF").length = 4 := rfl
  have kind : (tag "WAVE").length = 4 := rfl
  simp only [front, List.length_append, le32_length, riff, kind]
  omega

theorem bytes_length : wave.bytes.length = wave.front.length + 8 + wave.rest.length := by
  have name : (tag "data").length = 4 := rfl
  simp only [bytes, tail, List.length_append, le32_length, name]
  omega

end Wave

end Riff
