import Chargeback.Codec.Compression
import Chargeback.Codec.Gzip
import Chargeback.Codec.Snappy
import Chargeback.Codec.Zstd

/-!
# Algorithms without a library

Algorithms with which the program runs by itself. They read the whole of their formats, but for
dictionaries; what they write is mostly longer than what a library writes, and can be read by any
reader of the format.
-/

namespace Chargeback.Codec

/-- The algorithms of the program itself. Data of which the length cannot be stated are refused. -/
instance standard : Codecs where
  gzip := { encode? := some ∘ Gzip.encode, decode? := Gzip.decode? }
  zstd := { encode? := some ∘ Zstd.encode, decode? := Zstd.decode? }
  zlib := { encode? := some ∘ Zlib.encode, decode? := Zlib.decode? }
  snappy := {
    encode? := fun data =>
      if data.length ≤ Snappy.lengthLimit then some (Snappy.encode data) else none
    decode? := Snappy.decode? }

end Chargeback.Codec
