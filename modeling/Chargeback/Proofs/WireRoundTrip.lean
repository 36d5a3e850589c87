import Chargeback.Proofs.BatchLines
import Chargeback.Proofs.CodecRoundTrip
import Chargeback.Proofs.InstantText
import Chargeback.Proofs.JsonReading
import Chargeback.Proofs.ValidatedSettings

/-!
# Batches survive the wire

What a collector sends is what the receiver reads: the same records in the same order, whatever is in
their texts. A record is read back from its table, since the table has every field once and the
dimensions are in order already. A line of a batch holds no line end and begins with a brace, so it is
neither cut nor taken for blank. The compression in between is undone by the decoder that the content
encoding names.
-/

namespace Chargeback

/-! ## One record -/

namespace CostRecord

/-- The amount has sixty-four bits and the end is an instant that can be written. -/
structure InRange (r : CostRecord) : Prop where
  low : -2 ^ 63 ≤ r.value
  high : r.value < 2 ^ 63
  real : r.endTime.IsReal

theorem plainEntries_texts (l : List (String × String)) :
    Json.PlainEntries (l.map fun e => (Key.text e.1, Datum.text e.2)) := by
  induction l with
  | nil => trivial
  | cons e l ih => exact ⟨trivial, ih⟩

theorem plain_toDatum {r : CostRecord} (h : r.InRange) : Json.Plain r.toDatum := by
  have hvalue : Json.IsInteger r.value := ⟨h.low, Int.lt_trans h.high (by decide)⟩
  have hdimensions : Json.Plain (.ofFields (r.dimensions.entries.map fun e => (e.1, .text e.2))) := by
    rw [Datum.ofFields, List.map_map]
    exact plainEntries_texts r.dimensions.entries
  exact ⟨trivial, trivial, hvalue, hdimensions, trivial, trivial⟩

theorem ofName?_name (k : CostKind) : CostKind.ofName? k.name = some k := by
  cases k <;> rfl

theorem mapM_texts (l : List (String × String)) :
    (l.map fun e => (Key.text e.1, Datum.text e.2)).mapM (fun e => match e.1 with
      | .text k => (Datum.text? e.2).map fun v => (k, v)
      | _ => none) = some l := by
  induction l with
  | nil => rfl
  | cons e l ih =>
      rw [List.map_cons, List.mapM_cons, ih]
      rfl

/-- The dimensions are in order, so they are put together to the map that was written. -/
theorem assocOf?_texts (m : Labels) :
    Datum.assocOf? Datum.text? (.ofFields (m.entries.map fun (k, v) => (k, .text v))) = some m := by
  rw [Datum.ofFields, List.map_map, Datum.assocOf?]
  exact (congrArg (· >>= fun es => pure (Assoc.ofList es)) (mapM_texts m.entries)).trans
    (congrArg some (Assoc.ofList_entries m))

theorem ofDatum?_toDatum {r : CostRecord} (h : r.InRange) : ofDatum? r.toDatum = some r := by
  have hamount : amount? (.integer r.value) = some r.value := by
    have hle : r.value ≤ 2 ^ 63 - 1 := by
      have := h.high
      omega
    rw [amount?, if_pos hle]
  have hfields : Datum.fields? ["kind", "strategy", "value", "dimensions", "endTime"] r.toDatum =
      some [some (.text r.kind.name), some (.text r.strategy), some (.integer r.value),
        some (.ofFields (r.dimensions.entries.map fun (k, v) => (k, .text v))),
        some (.text r.endTime.toText)] := rfl
  rw [ofDatum?, hfields]
  simp [Datum.required?, Datum.optional?, Datum.wordOf?, Datum.text?, ofName?_name, hamount,
    assocOf?_texts, Instant.read?_toText h.real]

end CostRecord

/-! ## The lines of a batch -/

namespace Ndjson

open Text

theorem encode_cons (r : CostRecord) (rs : List CostRecord) :
    encode (r :: rs) = Text.encode (Json.render r.toDatum) ++ 0x0A :: encode rs := by
  have hline : (encodeText (r :: rs)).toList =
      (Json.render r.toDatum).toList ++ '\n' :: (encodeText rs).toList := by
    simp [encodeText, line, String.join_cons]
  rw [encode, encode, encode_eq_bytes, encode_eq_bytes, encode_eq_bytes, hline, bytes_append,
    bytes_cons]
  rfl

theorem decodeLines_encode {rs : List CostRecord} (h : ∀ r ∈ rs, r.InRange) (n : Nat) :
    decodeLines n (splitLines (encode rs)) = .ok rs := by
  induction rs generalizing n with
  | nil => rfl
  | cons r rs ih =>
      obtain ⟨hr, hrs⟩ := List.forall_mem_cons.1 h
      have hplain := CostRecord.plain_toDatum hr
      have hbrace : (Text.encode (Json.render r.toDatum)).all isBlankByte = false := by
        rw [encode_eq_bytes, Json.render, String.toList_ofList]
        rfl
      have hline : decodeLine? (Text.encode (Json.render r.toDatum)) = some r := by
        rw [decodeLine?, Json.read?_render hplain, Option.bind_some, CostRecord.ofDatum?_toDatum hr]
      rw [encode_cons, splitLines_append_lineEnd,
        splitLines_of_notMem (Json.linefeed_notMem_render hplain), List.singleton_append, decodeLines,
        hbrace, hline]
      simp [ih hrs, Except.map]

/-- **What is sent is what is received.** Records in range, written as a batch and compressed as
validated settings say, come back whole and in order from what is sent, once it is decompressed by
its content encoding. This takes of the algorithms only that each of their decoders gives back what
its encoder was given. A batch is not sent only if the encoder refuses it. -/
theorem decode_decompress_compress [Codec.Codecs]
    (hinverts : ∀ c : Codec.Compression, c.algorithm.Inverts) {s : Settings}
    (hvalid : s.validate = .ok ()) (henabled : s.exporters.http.enabled = true)
    {rs : List CostRecord} (hrs : ∀ r ∈ rs, r.InRange) :
    ∃ c : Codec.Compression, Codec.Compression.ofName s.exporters.http.compression = .ok c ∧
      ((∃ body, Codec.compress s.exporters.http.compression (encode rs) = .ok body) ↔
        (c.algorithm.encode? (encode rs)).isSome = true) ∧
      ∀ body, Codec.compress s.exporters.http.compression (encode rs) = .ok body →
        (Codec.decompress c.contentEncoding body).map decode = .ok (.ok rs) := by
  obtain ⟨-, -, -, -, -, hhttp, -⟩ := Settings.validate_eq_ok.1 hvalid
  obtain ⟨-, -, -, -, c, hc⟩ := Settings.checkHttp_eq_ok.1 (hhttp henabled)
  have hname : Codec.Compression.ofName s.exporters.http.compression = .ok c := by
    rw [← hc, Codec.Compression.ofName_name]
  have hcompress (body : List UInt8) :
      Codec.compress s.exporters.http.compression (encode rs) = .ok body ↔
        c.algorithm.encode? (encode rs) = some body := Codec.compress_eq_ok hname
  refine ⟨c, hname, ?_, fun body hbody => ?_⟩
  · simp only [hcompress, Option.isSome_iff_exists]
  · have hdata := hinverts c (encode rs) body ((hcompress body).1 hbody)
    rw [Codec.decompress, Codec.Compression.ofEncoding_contentEncoding]
    simp only [hdata]
    change Except.ok (decode (encode rs)) = _
    rw [decode, decodeLines_encode hrs]

/-- A record with the least amount, a line end, a quote and a control character comes back through
a compression that states the length of the data. No four bytes of its text occur twice, so there is
nothing to copy, and the body is one literal. -/
theorem decode_decompress_snappy :
    let r : CostRecord := {
      kind := .gpu, strategy := "line\nend", value := -2 ^ 63,
      dimensions := Assoc.empty.put "\"" "\u0001\u20ac\\", endTime := ⟨-1, 123456789⟩ }
    let s : Settings :=
      { exporters := { http := { enabled := true, address := "collector", compression := "snappy" } } }
    (∀ c : Codec.Compression, c.algorithm.Inverts) ∧ s.validate = .ok () ∧ r.InRange ∧
      ∃ body, Codec.compress "snappy" (encode [r]) = .ok body ∧
        (Codec.decompress (some "snappy") body).map decode = .ok (.ok [r]) := by
  intro r s
  have hr : r.InRange := ⟨by decide, by decide, Instant.isReal_iff.2 (by decide)⟩
  have hrs : ∀ r' ∈ [r], r'.InRange := List.forall_mem_singleton.2 hr
  obtain ⟨c, hname, hsent, hread⟩ :=
    decode_decompress_compress Codec.standard_inverts (s := s) rfl rfl hrs
  obtain rfl : Codec.Compression.snappy = c := Except.ok.inj hname
  obtain ⟨body, hbody⟩ := hsent.2 (by decide +kernel)
  exact ⟨Codec.standard_inverts, rfl, hr, body, hbody, hread body hbody⟩

end Ndjson

end Chargeback
