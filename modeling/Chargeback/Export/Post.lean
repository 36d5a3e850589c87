import Chargeback.Codec.Compression
import Chargeback.Config.Settings
import Chargeback.Net.Url
import Chargeback.Record.Ndjson

/-!
# Batches on the wire

A batch is sent to a collector in the body of one request: the records as lines of JSON,
compressed as configured. A request whose headers or address are not well-formed, or whose
compression is unknown, is not sent at all.
-/

namespace Chargeback

open Text

/-- A request with a batch. Of several headers with one name the first counts. -/
structure Post where
  url : Url
  headers : List (String × String)
  body : List UInt8
  deriving DecidableEq, Repr

namespace Post

/-- The character may stand in the name of a header. -/
def isTokenChar (c : Char) : Bool := isLetter c || isDigit c || "!#$%&'*+-.^_`|~".toList.contains c

/-- The name of a header can be sent. -/
def isHeaderName (s : String) : Bool := !s.isEmpty && s.toList.all isTokenChar

/-- The value of a header can be sent: it holds no control characters but tabs. -/
def isHeaderValue (s : String) : Bool :=
  s.toList.all fun c => c == '\t' || (0x20 ≤ c.toNat && c.toNat != 0x7F)

/-- The text holds visible characters of ASCII, spaces and tabs only. -/
def isVisibleAscii (s : String) : Bool :=
  s.toList.all fun c => c == '\t' || (0x20 ≤ c.toNat && c.toNat < 0x7F)

/-- A value as it arrives: without blanks at the ends. -/
def arrived (s : String) : String :=
  let isSpace (c : Char) : Bool := c == ' ' || c == '\t'
  String.ofList (((s.toList.dropWhile isSpace).reverse.dropWhile isSpace).reverse)

/-- The headers of every request. -/
def headersOf (s : HttpSettings) : List (String × String) :=
  let encoding := ((Codec.Compression.ofName s.compression).toOption.bind (·.contentEncoding)).toList
  let lower (k : String) : String := String.ofList (k.toList.map lowerAscii)
  ("content-type", "application/x-ndjson") :: (encoding.map fun e => ("content-encoding", e)) ++
    s.headers.entries.map fun (k, v) => (lower k, arrived v)

/-- Every header configured can be sent. -/
def hasSendableHeaders (s : HttpSettings) : Bool :=
  s.headers.entries.all fun (k, v) => isHeaderName k && isHeaderValue v

/-- The request for a batch of records. -/
def ofRecords? [Codec.Codecs] (s : HttpSettings) (rs : List CostRecord) : Option Post := do
  let body ← (Codec.compress s.compression (Ndjson.encode rs)).toOption
  let url ← Url.read? s.address
  if hasSendableHeaders s then return { url, headers := headersOf s, body } else none

/-- The value of a header, if it can be read as text. -/
def header? (name : String) (p : Post) : Option String :=
  (p.headers.lookup name).filter isVisibleAscii

/-- The records in the body, if it can be read. -/
def records? [Codec.Codecs] (p : Post) : Option (List CostRecord) := do
  let bytes ← (Codec.decompress (p.header? "content-encoding") p.body).toOption
  (Ndjson.decode bytes).toOption

end Post

/-- A collector that takes note of what it receives, and answers every request with one status. -/
structure Collector where
  host : String
  port : Nat
  isListening : Bool
  status : Nat
  received : List Post
  /-- The time that an answer takes. -/
  delay : Span := ⟨0⟩
  deriving DecidableEq, Repr

namespace Collector

/-- A status that says that a request succeeded. -/
def isSuccess (status : Nat) : Bool := 200 ≤ status && status < 300

/-- The collector gets requests to an address. -/
def isAt (u : Url) (c : Collector) : Bool :=
  c.isListening && u.scheme == "http" && u.host == c.host && u.port.getD 80 == c.port

/-- An answer comes before the sender gives up. -/
def isInTime (s : HttpSettings) (c : Collector) : Bool := c.delay.nanos < s.exportTimeout.nanos

/-- Sends a batch: whether its delivery succeeded, and the collector afterwards. A request that the
sender has given up was received all the same. -/
def deliver [Codec.Codecs] (s : HttpSettings) (rs : List CostRecord) (c : Collector) :
    Bool × Collector :=
  match Post.ofRecords? s rs with
  | none => (false, c)
  | some p =>
    if c.isAt p.url then
      (c.isInTime s && isSuccess c.status, { c with received := c.received ++ [p] })
    else (false, c)

end Collector

end Chargeback
