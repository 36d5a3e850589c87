import Chargeback.Text.Blank

/-!
# Compressed bodies

The algorithms with which a sender may compress a body, the content encoding that names each of
them to a receiver, and the way back.

The algorithms themselves are those of libraries. What is built upon them takes them as they come:
it is stated for all of them, with what a library promises as a hypothesis where it is needed.
-/

namespace Chargeback.Codec

open Text

/-! ## Algorithms -/

/-- An algorithm of a library. -/
structure Algorithm where
  /-- The data compressed, unless the encoder refuses them. -/
  encode? : List UInt8 → Option (List UInt8)
  /-- The data that a body holds, if it can be read. -/
  decode? : List UInt8 → Option (List UInt8)

/-- The decoder gives back what the encoder was given. -/
def Algorithm.Inverts (a : Algorithm) : Prop :=
  ∀ data body, a.encode? data = some body → a.decode? body = some data

/-- The algorithm that leaves data as they are. -/
def Algorithm.identity : Algorithm := ⟨some, some⟩

theorem Algorithm.identity_inverts : Algorithm.identity.Inverts := fun _ _ h => h.symm

/-- The algorithms that libraries bring along. -/
class Codecs where
  gzip : Algorithm
  zstd : Algorithm
  zlib : Algorithm
  snappy : Algorithm

/-! ## Names -/

/-- A way of compressing. -/
inductive Compression where
  | none
  | gzip
  | zstd
  | zlib
  | snappy
  deriving DecidableEq, Repr

/-- Why a body could not be compressed or decompressed. -/
inductive CodecError where
  | unsupportedCompression (name : String)
  | unsupportedEncoding (name : String)
  | refused (c : Compression)
  | corrupt (c : Compression)
  deriving DecidableEq, Repr

namespace Compression

/-- The name in the configuration. -/
def name : Compression → String
  | .none => "none"
  | .gzip => "gzip"
  | .zstd => "zstd"
  | .zlib => "zlib"
  | .snappy => "snappy"

/-- All algorithms. -/
def all : List Compression := [.none, .gzip, .zstd, .zlib, .snappy]

/-- The algorithm that a name stands for; no name stands for none. -/
def ofName (s : String) : Except CodecError Compression :=
  if s.isEmpty then .ok .none
  else match all.find? (·.name == s) with
    | some c => .ok c
    | Option.none => .error (.unsupportedCompression s)

/-- The content encoding of a compressed body. -/
def contentEncoding : Compression → Option String
  | .none => Option.none
  | .gzip => some "gzip"
  | .zstd => some "zstd"
  | .zlib => some "deflate"
  | .snappy => some "snappy"

/-- The algorithm that a content encoding stands for. Blanks at its ends do not count. -/
def ofEncoding (encoding : Option String) : Except CodecError Compression :=
  match encoding with
  | Option.none => .ok .none
  | some s =>
    let e := String.ofList (trim s.toList)
    if e == "" || e == "identity" then .ok .none
    else match all.find? (·.contentEncoding == some e) with
      | some c => .ok c
      | Option.none => .error (.unsupportedEncoding e)

/-- The algorithm itself. -/
def algorithm [Codecs] : Compression → Algorithm
  | .none => .identity
  | .gzip => Codecs.gzip
  | .zstd => Codecs.zstd
  | .zlib => Codecs.zlib
  | .snappy => Codecs.snappy

/-- What compressing is called in a message. -/
def encoding : Compression → String
  | .gzip | .zlib => "write"
  | .none | .zstd | .snappy => "encode"

end Compression

/-- What is said about the fault. -/
def CodecError.message : CodecError → String
  | .unsupportedCompression name => "unsupported compression: " ++ name
  | .unsupportedEncoding name => "unsupported content encoding: " ++ name
  | .refused c => c.name ++ " " ++ c.encoding
  | .corrupt c => c.name ++ " decode"

/-! ## Bodies -/

section Bodies

variable [Codecs]

/-- Compresses a body with the algorithm of a name. -/
def compress (name : String) (data : List UInt8) : Except CodecError (List UInt8) :=
  match Compression.ofName name with
  | .error e => .error e
  | .ok c => match c.algorithm.encode? data with
    | some body => .ok body
    | none => .error (.refused c)

/-- Decompresses the body of a request with a content encoding. -/
def decompress (encoding : Option String) (body : List UInt8) : Except CodecError (List UInt8) :=
  match Compression.ofEncoding encoding with
  | .error e => .error e
  | .ok c => match c.algorithm.decode? body with
    | some data => .ok data
    | none => .error (.corrupt c)

end Bodies

end Chargeback.Codec
