import Chargeback.Serve.Ingest

/-!
# The service over HTTP

Every process serves its metrics and a sign of life; one that aggregates receives records, too.
What is served depends on the path of a request, and only some methods are allowed on each.
-/

namespace Chargeback.Service

/-- The path that records are sent to. -/
def ingestPath : String := "/v1/costs"

/-- The path of a request without the query. -/
def pathOf (target : String) : String :=
  String.ofList (target.toList.takeWhile fun c => c != '?' && c != '#')

/-- The answer to a request that only reads. -/
def reading (method body : String) : Response :=
  if method == "GET" then ⟨200, body⟩
  else if method == "HEAD" then ⟨200, ""⟩
  else ⟨405, ""⟩

/-- The answer to a request about health, if the path is one for it. -/
def health? (r : Request) (m : Metrics) : Option Response :=
  match pathOf r.path with
  | "/metrics" => some (reading r.method m.render)
  | "/healthz" => some (reading r.method "ok")
  | _ => none

/-- Answers a request about health. -/
def answerHealth (r : Request) (m : Metrics) : Response := (health? r m).getD ⟨404, ""⟩

/-- Answers any request, with an exporter that the records received are handed to. A body that is
longer than the limit already as it was sent is not looked at. -/
def answer [Codec.Codecs] (limit : Nat) (r : Request) (e : Exporter) (s : Surroundings) :
    Response × Exporter × Surroundings :=
  match health? r s.metrics with
  | some response => (response, e, s)
  | none =>
    if pathOf r.path != ingestPath then (⟨404, ""⟩, e, s)
    else if r.method != "POST" then (⟨405, ""⟩, e, s)
    else if limit < r.body.length then (⟨413, ""⟩, e, s)
    else
      let (verdict, e, s) := Ingest.store limit r.encoding r.body e s
      (verdict.response, e, s)

end Chargeback.Service
