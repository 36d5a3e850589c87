import Chargeback.Export.Exporter

/-!
# Receiving records from collectors

A request holds records as lines of JSON, possibly compressed, and is answered with one status:
either all of its records were handed to the exporter, or none was. A body that cannot be
decoded is refused; one that the exporter could not store may be sent again.
-/

namespace Chargeback

/-- A request to the service. -/
structure Request where
  method : String
  path : String
  /-- The content encoding, if one is given that can be read as text. -/
  encoding : Option String
  body : List UInt8
  deriving Repr

/-- The answer to a request. -/
structure Response where
  status : Nat
  body : String
  deriving DecidableEq, Repr

namespace Ingest

/-- Why a body was refused. -/
inductive BodyFault where
  | codec (e : Codec.CodecError)
  /-- The decompressed body is longer than some number of bytes. -/
  | tooLong (limit : Nat)
  /-- A line is not a record. -/
  | line (number : Nat)
  deriving DecidableEq, Repr

/-- What is said about the fault. -/
def BodyFault.message : BodyFault → String
  | .codec e => e.message
  | .tooLong limit => "decoded body exceeds " ++ toString limit ++ " bytes"
  | .line n => "decoding record on line " ++ toString n

/-- The records in a body. -/
def readBody [Codec.Codecs] (limit : Nat) (encoding : Option String) (body : List UInt8) :
    Except BodyFault (List CostRecord) := do
  let data ← (Codec.decompress encoding body).mapError .codec
  if limit < data.length then .error (.tooLong limit)
  else (Ndjson.decode data).mapError .line

/-- What became of a request for storage. -/
inductive Verdict where
  /-- All records were handed to the exporter. -/
  | accepted (n : Nat)
  /-- The exporter failed, so that none was stored. -/
  | failed (n : Nat) (fault : ExporterFault)
  /-- The body was refused. -/
  | rejected (fault : BodyFault)
  deriving DecidableEq, Repr

/-- The answer for a verdict. -/
def Verdict.response : Verdict → Response
  | .accepted _ => ⟨200, ""⟩
  | .failed _ fault => ⟨503, fault.message⟩
  | .rejected fault => ⟨400, fault.message⟩

/-- Counts a verdict. -/
def Verdict.count (m : Metrics) : Verdict → Metrics
  | .accepted n => m.consumedAs "accepted" n
  | .failed n _ => m.consumedAs "failed" n
  | .rejected _ => m.consumedAs "rejected" 1

/-- Stores the records of a body. -/
def store [Codec.Codecs] (limit : Nat) (encoding : Option String) (body : List UInt8) (e : Exporter)
    (s : Surroundings) : Verdict × Exporter × Surroundings :=
  let (verdict, e, s) := match readBody limit encoding body with
    | .error fault => (Verdict.rejected fault, e, s)
    | .ok rs => match e.acceptBatch rs s with
      | (.ok (), e, s) => (.accepted rs.length, e, s)
      | (.error fault, e, s) => (.failed rs.length fault, e, s)
  (verdict, e, { s with metrics := verdict.count s.metrics })

end Ingest

end Chargeback
