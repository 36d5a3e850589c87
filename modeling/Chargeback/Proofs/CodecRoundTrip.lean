import Chargeback.Codec.Standard
import Mathlib.Data.List.Basic

/-!
# Decoders invert encoders

The program's own algorithms do what is asked of a library: a decoder gives back the data that its
encoder was given (`standard_inverts`). An encoder writes numbers in little-endian order and pieces
of data with their lengths, so what is shown of each reader is that it takes off just what was
written in front of any further bytes. The readers and writers of blocks are given fuel; the
induction is on that of the writer, and any fuel of the reader that exceeds what is written is
enough.
-/

namespace Chargeback.Codec

/-! ## Numbers and pieces at the front -/

theorem length_littleEndian (n v : Nat) : (littleEndian n v).length = n := by
  induction n generalizing v with
  | zero => rfl
  | succ n ih => rw [littleEndian, List.length_cons, ih]

theorem ofLittleEndian_littleEndian {n v : Nat} (h : v < 256 ^ n) :
    ofLittleEndian (littleEndian n v) = v := by
  induction n generalizing v with
  | zero =>
      have hv : v = 0 := by simpa using h
      rw [hv]
      rfl
  | succ n ih =>
      have hdiv : v / 256 < 256 ^ n := by
        rw [Nat.pow_succ, Nat.mul_comm] at h
        exact Nat.div_lt_of_lt_mul h
      rw [littleEndian, ofLittleEndian, ih hdiv, UInt8.toNat_ofNat']
      omega

theorem splitNumber?_littleEndian {n v : Nat} (h : v < 256 ^ n) (rest : List UInt8) :
    splitNumber? n (littleEndian n v ++ rest) = some (v, rest) := by
  have hlength := length_littleEndian n v
  have henough : ¬(littleEndian n v ++ rest).length < n := by
    rw [List.length_append]
    omega
  rw [splitNumber?, if_neg henough, List.take_left' hlength, List.drop_left' hlength,
    ofLittleEndian_littleEndian h]

theorem splitBytes?_append (front rest : List UInt8) :
    splitBytes? front.length (front ++ rest) = some (front, rest) := by
  simp [splitBytes?]

theorem append_take_drop (out : Array UInt8) (n : Nat) (s : List UInt8) :
    out ++ (s.take n).toArray ++ (s.drop n).toArray = out ++ s.toArray := by
  simp [Array.append_assoc]

/-- Without its first bytes a piece of data that has more of them is shorter. -/
theorem length_drop_lt {n fuel : Nat} {s : List UInt8} (hn : 0 < n) (hrest : s.drop n ≠ [])
    (hs : s.length < fuel + 1) : (s.drop n).length < fuel := by
  have hlonger : ¬s.length ≤ n := fun h => hrest (List.drop_eq_nil_iff.2 h)
  rw [List.length_drop]
  omega

/-! ## Bits -/

theorem bitsOf_cons (b : UInt8) (s : List UInt8) : bitsOf (b :: s) = bitsOfByte b ++ bitsOf s := rfl

theorem length_bitsOfByte (b : UInt8) : (bitsOfByte b).length = 8 := rfl

theorem length_bitsOf (s : List UInt8) : (bitsOf s).length = 8 * s.length := by
  induction s with
  | nil => rfl
  | cons b s ih =>
      rw [bitsOf_cons, List.length_append, length_bitsOfByte, ih, List.length_cons]
      omega

theorem bitsOf_append (s t : List UInt8) : bitsOf (s ++ t) = bitsOf s ++ bitsOf t :=
  List.flatMap_append

theorem ofBits_append (s t : List Bool) : ofBits (s ++ t) = ofBits s + 2 ^ s.length * ofBits t := by
  induction s with
  | nil => simp [ofBits]
  | cons b s ih =>
      rw [List.cons_append, ofBits, ofBits, ih, List.length_cons, Nat.pow_succ, Nat.mul_comm _ 2,
        Nat.mul_assoc, Nat.mul_add, Nat.add_assoc]

theorem ofBits_bitsOfByte (b : UInt8) : ofBits (bitsOfByte b) = b.toNat := by
  have hall : ∀ n : Fin 256, ofBits (bitsOfByte (UInt8.ofNat n.val)) = n.val := by decide +kernel
  have hb := hall ⟨b.toNat, b.toNat_lt⟩
  rwa [UInt8.ofNat_toNat] at hb

theorem ofBits_bitsOf (s : List UInt8) : ofBits (bitsOf s) = ofLittleEndian s := by
  induction s with
  | nil => rfl
  | cons b s ih =>
      have hweight : 2 ^ (bitsOfByte b).length = 256 := by simp [length_bitsOfByte]
      rw [bitsOf_cons, ofBits_append, ofBits_bitsOfByte, hweight, ih, ofLittleEndian]

theorem bytesOfBits_append {bits : List Bool} (h : bits.length = 8) (rest : List Bool) :
    bytesOfBits (bits ++ rest) = UInt8.ofNat (ofBits bits) :: bytesOfBits rest := by
  match bits, h with
  | [_, _, _, _, _, _, _, _], _ => rfl

theorem bytesOfBits_bitsOf (s : List UInt8) : bytesOfBits (bitsOf s) = s := by
  induction s with
  | nil => rfl
  | cons b s ih =>
      rw [bitsOf_cons, bytesOfBits_append (length_bitsOfByte b), ofBits_bitsOfByte, UInt8.ofNat_toNat,
        ih]

theorem splitBits?_append (s rest : List Bool) :
    splitBits? s.length (s ++ rest) = some (ofBits s, rest) := by
  induction s with
  | nil => rfl
  | cons b s ih => simp [splitBits?, ih, ofBits]

theorem splitBits?_littleEndian {n v : Nat} (h : v < 256 ^ n) (rest : List Bool) :
    splitBits? (8 * n) (bitsOf (littleEndian n v) ++ rest) = some (v, rest) := by
  have hsplit := splitBits?_append (bitsOf (littleEndian n v)) rest
  rwa [length_bitsOf, length_littleEndian, ofBits_bitsOf, ofLittleEndian_littleEndian h] at hsplit

/-! ## Deflated data -/

namespace Deflate

theorem align_append (pad : List Bool) (hpad : pad.length < 8) (s : List UInt8) :
    align (pad ++ bitsOf s) = bitsOf s := by
  have hdrop : (pad ++ bitsOf s).length % 8 = pad.length := by
    rw [List.length_append, length_bitsOf]
    omega
  rw [align, hdrop, List.drop_left]

/-- A stored block after its head. -/
theorem readStored_append {pad : List Bool} (hpad : pad.length < 8) {front : List UInt8}
    (hfront : front.length ≤ storedLimit) (rest : List UInt8) (out : Array UInt8) :
    readStored (pad ++ bitsOf (littleEndian 2 front.length ++
      (littleEndian 2 (65535 - front.length) ++ (front ++ rest)))) out =
      some (bitsOf rest, out ++ front.toArray) := by
  have hlimit : front.length ≤ 65535 := hfront
  have hsize : front.length < 256 ^ 2 := by omega
  have hcheck : 65535 - front.length < 256 ^ 2 := by omega
  have hsum : front.length + (65535 - front.length) = 65535 := by omega
  have hbits := length_bitsOf front
  rw [readStored, align_append pad hpad, bitsOf_append, bitsOf_append, bitsOf_append,
    splitBits?_littleEndian (n := 2) hsize]
  simp only [bind, Option.bind, splitBits?_littleEndian (n := 2) hcheck, hsum, ne_eq,
    not_true_eq_false, if_false, List.take_left' hbits, List.drop_left' hbits, bytesOfBits_bitsOf]
  simp

/-- The head of a stored block: the block is the last one or not. -/
theorem readBlocks_stored (fuel : Nat) (isLast : Bool) {s : List UInt8} {out out' : Array UInt8}
    {rest : List Bool} (h : ∀ pad : List Bool, pad.length = 5 →
      readStored (pad ++ bitsOf s) out = some (rest, out')) :
    readBlocks (fuel + 1) (bitsOf ((if isLast then 1 else 0) :: s)) out =
      if isLast then some (rest, out') else readBlocks fuel rest out' := by
  have hstored := h [false, false, false, false, false] rfl
  cases isLast
  all_goals
    change (readStored ([false, false, false, false, false] ++ bitsOf s) out >>= _) = _
    rw [hstored]
    rfl

theorem readBlocks_storedBlocks {fuel : Nat} {s : List UInt8} (hs : s.length < fuel) {n : Nat}
    (hn : (storedBlocks fuel s).length ≤ n) (rest : List UInt8) (out : Array UInt8) :
    readBlocks n (bitsOf (storedBlocks fuel s ++ rest)) out =
      some (bitsOf rest, out ++ s.toArray) := by
  induction fuel generalizing s n out with
  | zero => omega
  | succ fuel ih =>
      cases n with
      | zero => simp [storedBlocks] at hn
      | succ n =>
          have hfront : (s.take storedLimit).length ≤ storedLimit := List.length_take_le _ _
          -- Three bits are read of the head, and five more lie before the next whole byte.
          have hread (tail : List UInt8) (pad : List Bool) (hpad : pad.length = 5) :=
            readStored_append (by omega : pad.length < 8) hfront tail out
          by_cases hlast : s.drop storedLimit = []
          · have hstep := readBlocks_stored n true (hread rest)
            have htake := List.take_of_length_le (List.drop_eq_nil_iff.1 hlast)
            simpa [storedBlocks, hlast, htake] using hstep
          · have hstep := readBlocks_stored n false
              (hread (storedBlocks fuel (s.drop storedLimit) ++ rest))
            have hfuel : (storedBlocks fuel (s.drop storedLimit)).length ≤ n := by
              simp only [storedBlocks, List.length_cons, List.length_append, List.isEmpty_iff, hlast,
                if_false] at hn
              omega
            have hrest := ih (length_drop_lt (by decide) hlast hs) hfuel
              (out ++ (s.take storedLimit).toArray)
            rw [append_take_drop] at hrest
            rw [if_neg (by decide), hrest] at hstep
            simpa [storedBlocks, hlast] using hstep

theorem inflate_deflate (data rest : List UInt8) :
    inflate (deflate data ++ rest) = some (data, rest) := by
  have hfuel : (deflate data).length ≤ (bitsOf (deflate data ++ rest)).length + 1 := by
    rw [length_bitsOf, List.length_append]
    omega
  have hblocks := readBlocks_storedBlocks (Nat.lt_succ_self data.length) hfuel rest #[]
  have halign := align_append [] (by decide) rest
  rw [List.nil_append] at halign
  rw [← deflate] at hblocks
  rw [inflate, hblocks]
  simp [halign, bytesOfBits_bitsOf]

end Deflate

/-! ## Containers of deflated data -/

theorem crc32_lt (data : List UInt8) : crc32 data < 256 ^ 4 := UInt32.toNat_lt _

theorem Gzip.decode?_encode (data : List UInt8) : Gzip.decode? (Gzip.encode data) = some data := by
  have hheader (s : List UInt8) : Gzip.skipHeader? ([0x1F, 0x8B, 8, 0, 0, 0, 0, 0, 0, 255] ++ s) =
      some s := rfl
  have hsum := splitNumber?_littleEndian (crc32_lt data)
  have hsize : data.length % 2 ^ 32 < 256 ^ 4 := Nat.mod_lt _ (by decide)
  have hlength := splitNumber?_littleEndian hsize []
  rw [List.append_nil] at hlength
  simp only [Gzip.decode?, Gzip.encode, List.append_assoc, hheader, Deflate.inflate_deflate, hsum,
    hlength, bind, Option.bind]
  simp

/-- Both sums of the checksum stay below the modulus. -/
theorem foldl_adlerByte_lt {sums : Nat × Nat} (hlow : sums.1 < 65521) (hhigh : sums.2 < 65521)
    (s : List UInt8) : (s.foldl adlerByte sums).1 < 65521 ∧ (s.foldl adlerByte sums).2 < 65521 := by
  induction s generalizing sums with
  | nil => exact ⟨hlow, hhigh⟩
  | cons b s ih => exact ih (Nat.mod_lt _ (by decide)) (Nat.mod_lt _ (by decide))

theorem adler32_lt (data : List UInt8) : adler32 data < 256 ^ 4 := by
  obtain ⟨hlow, hhigh⟩ := foldl_adlerByte_lt (by decide : (1, 0).1 < 65521) (by decide) data
  rw [adler32]
  omega

theorem Zlib.decode?_encode (data : List UInt8) : Zlib.decode? (Zlib.encode data) = some data := by
  have hsum := splitNumber?_littleEndian (adler32_lt data) []
  rw [List.append_nil] at hsum
  have htake : (littleEndian 4 (adler32 data)).reverse.take 4 =
      (littleEndian 4 (adler32 data)).reverse :=
    List.take_of_length_le (Nat.le_of_eq (by rw [List.length_reverse, length_littleEndian]))
  simp only [Zlib.encode, Zlib.decode?, List.cons_append, List.nil_append]
  simp [Deflate.inflate_deflate, htake, hsum]

/-! ## Frames of raw blocks -/

namespace Zstd

theorem readHeader_encode (rest : List UInt8) :
    readHeader (0 :: 0x58 :: rest) =
      some ({ blockMax := blockLimit, size := none, hasSum := false }, rest) := by
  have hdescriptor := splitNumber?_littleEndian (n := 1) (v := 0) (by decide) (0x58 :: rest)
  have hwindow := splitNumber?_littleEndian (n := 1) (v := 0x58) (by decide) rest
  change splitNumber? 1 (0 :: 0x58 :: rest) = _ at hdescriptor
  change splitNumber? 1 (0x58 :: rest) = _ at hwindow
  simp only [readHeader, hdescriptor, hwindow, bind, Option.bind]
  rfl

/-- A raw block is the last one or not. -/
theorem readBlocks_raw (isLast : Bool) {front : List UInt8} (hfront : front.length ≤ blockLimit)
    (fuel : Nat) (memory : Memory) (rest : List UInt8) (out : Array UInt8) :
    readBlocks blockLimit (fuel + 1) memory
      (littleEndian 3 (front.length * 8 + isLast.toNat) ++ (front ++ rest)) out =
      if isLast then some (out ++ front.toArray, rest)
      else readBlocks blockLimit fuel memory rest (out ++ front.toArray) := by
  have hlimit : front.length ≤ 131072 := hfront
  have hbit := Bool.toNat_lt isLast
  have hhead : front.length * 8 + isLast.toNat < 256 ^ 3 := by omega
  have hsize : (front.length * 8 + isLast.toNat) / 8 = front.length := by omega
  have hkind : (front.length * 8 + isLast.toNat) / 2 % 4 = 0 := by omega
  have hlast : (front.length * 8 + isLast.toNat) % 2 = isLast.toNat := by omega
  simp only [readBlocks, splitNumber?_littleEndian hhead, bind, Option.bind, hsize, hkind, hlast,
    Nat.not_lt.2 hfront, if_false, splitBytes?_append, Option.map_some]
  cases isLast <;> rfl

theorem readBlocks_rawBlocks {fuel : Nat} {s : List UInt8} (hs : s.length < fuel) {n : Nat}
    (hn : (rawBlocks fuel s).length ≤ n) (memory : Memory) (out : Array UInt8) :
    readBlocks blockLimit n memory (rawBlocks fuel s) out = some (out ++ s.toArray, []) := by
  -- Every block is longer than its data, so the reader's fuel outlasts what is left to read.
  induction fuel generalizing s n out with
  | zero => omega
  | succ fuel ih =>
      rw [rawBlocks] at hn ⊢
      by_cases hlast : s.length < blockLimit
      · rw [if_pos hlast, List.length_append, length_littleEndian] at hn
        obtain ⟨n, rfl⟩ : ∃ m, n = m + 1 := ⟨n - 1, by omega⟩
        have hstep := readBlocks_raw true (Nat.le_of_lt hlast) n memory [] out
        rw [List.append_nil] at hstep
        rw [if_pos hlast]
        exact hstep
      · rw [if_neg hlast, List.length_append, List.length_append, length_littleEndian] at hn
        obtain ⟨n, rfl⟩ : ∃ m, n = m + 1 := ⟨n - 1, by omega⟩
        have hlength : (s.take blockLimit).length = blockLimit :=
          List.length_take_of_le (Nat.not_lt.1 hlast)
        have hstep := readBlocks_raw false (Nat.le_of_eq hlength) n memory
          (rawBlocks fuel (s.drop blockLimit)) out
        have hshorter : (s.drop blockLimit).length < fuel := by
          have hpos : 0 < blockLimit := by decide
          rw [List.length_drop]
          omega
        rw [hlength, ih hshorter (by omega), append_take_drop] at hstep
        rw [if_neg hlast, List.append_assoc]
        exact hstep

theorem decode?_encode (data : List UInt8) : decode? (encode data) = some data := by
  have hmagic := splitNumber?_littleEndian (n := 4) (v := 0xFD2FB528) (by decide)
    ([0, 0x58] ++ rawBlocks (data.length + 1) data)
  have hblocks := readBlocks_rawBlocks (Nat.lt_succ_self data.length)
    (Nat.le_succ (rawBlocks (data.length + 1) data).length) {} #[]
  have hframe : readFrame (encode data) = some (data, []) := by
    rw [encode, List.append_assoc, readFrame, hmagic]
    simp only [List.cons_append, List.nil_append, bind, Option.bind, readHeader_encode, hblocks]
    simp
  rw [decode?, readFrames, hframe]
  rfl

end Zstd

/-! ## Literals -/

namespace Snappy

theorem readVarint_varint {fuel n : Nat} (h : n < 128 ^ fuel) (hfuel : 0 < fuel)
    (rest : List UInt8) : readVarint fuel (varint fuel n ++ rest) = some (n, rest) := by
  induction fuel generalizing n with
  | zero => omega
  | succ fuel ih =>
      rw [varint]
      split
      next hsmall =>
        have hbyte : UInt8.ofNat n < 0x80 := by
          rw [UInt8.lt_iff_toNat_lt, UInt8.toNat_ofNat']
          change n % 256 < 128
          omega
        have hvalue : (UInt8.ofNat n).toNat = n := by
          rw [UInt8.toNat_ofNat']
          omega
        simp [readVarint, hbyte, hvalue]
      next hlarge =>
        have hvalue : (UInt8.ofNat (n % 128 + 128)).toNat = n % 128 + 128 := by
          rw [UInt8.toNat_ofNat']
          omega
        have hbyte : ¬UInt8.ofNat (n % 128 + 128) < 0x80 := by
          rw [UInt8.lt_iff_toNat_lt, hvalue]
          change ¬n % 128 + 128 < 128
          omega
        have hdiv : n / 128 < 128 ^ fuel := by
          rw [Nat.pow_succ, Nat.mul_comm] at h
          exact Nat.div_lt_of_lt_mul h
        have hmore : 0 < fuel := by
          cases fuel with
          | zero => rw [Nat.zero_add, Nat.pow_one] at h; omega
          | succ => omega
        rw [List.cons_append, readVarint, if_neg hbyte, ih hdiv hmore]
        simp only [Option.map_some, hvalue, Nat.add_sub_cancel, Nat.mod_add_div]

/-- A literal, whose head says its length in one of three ways. -/
theorem readElements_literal {front : List UInt8} (hpos : 0 < front.length)
    (hfront : front.length ≤ literalLimit) {total : Nat} {out : Array UInt8}
    (htotal : out.size + front.length ≤ total) (fuel : Nat) (rest : List UInt8) :
    readElements total (fuel + 1) (literalHead front.length ++ (front ++ rest)) out =
      readElements total fuel rest (out ++ front.toArray) := by
  have hlimit : front.length ≤ 65536 := hfront
  have hfit : ¬total < out.size + front.length := by omega
  have hless : front.length - 1 + 1 = front.length := by omega
  have hbytes := splitBytes?_append front rest
  unfold literalHead
  split
  next hshort =>
    have htag : (UInt8.ofNat ((front.length - 1) * 4)).toNat = (front.length - 1) * 4 := by
      rw [UInt8.toNat_ofNat']
      omega
    have hkind : (front.length - 1) * 4 % 4 = 0 := by omega
    have hlength : (front.length - 1) * 4 / 4 + 1 = front.length := by omega
    simp only [List.cons_append, List.nil_append, readElements, htag, hkind, hlength, hshort, if_true,
      pure, bind, Option.bind, hbytes, hfit, if_false]
  next hlong =>
    split
    next hbyte =>
      have hsplit := splitNumber?_littleEndian (n := 1) (v := front.length - 1) (by omega)
        (front ++ rest)
      simp only [littleEndian, Nat.mod_eq_of_lt (by omega : front.length - 1 < 256),
        List.cons_append, List.nil_append] at hsplit
      simp [readElements, hsplit, hless, hbytes, hfit]
    next hword =>
      have hsplit := splitNumber?_littleEndian (n := 2) (v := front.length - 1) (by omega)
        (front ++ rest)
      simp [readElements, hsplit, hless, hbytes, hfit]

theorem length_literalHead_pos (n : Nat) : 0 < (literalHead n).length := by
  unfold literalHead
  split
  · exact Nat.one_pos
  · split <;> exact Nat.succ_pos _

theorem readElements_literals {fuel : Nat} {s : List UInt8} (hs : s.length ≤ fuel) {n : Nat}
    (hn : (literals fuel s).length ≤ n) {total : Nat} {out : Array UInt8}
    (htotal : out.size + s.length = total) :
    readElements total n (literals fuel s) out = some (out ++ s.toArray) := by
  induction fuel generalizing s n out with
  | zero =>
      have hempty : s = [] := List.eq_nil_of_length_eq_zero (by omega)
      subst hempty
      cases n <;> simp_all [literals, readElements]
  | succ fuel ih =>
      cases s with
      | nil => cases n <;> simp_all [literals, readElements]
      | cons b s =>
          have hsome : 0 < ((b :: s).take literalLimit).length := by
            rw [List.length_take, List.length_cons]
            exact Nat.lt_min.2 ⟨by decide, Nat.succ_pos _⟩
          have hfront : ((b :: s).take literalLimit).length ≤ literalLimit := List.length_take_le _ _
          have hpieces : ((b :: s).take literalLimit).length +
              ((b :: s).drop literalLimit).length = (b :: s).length := by
            rw [← List.length_append, List.take_append_drop]
          have hhead := length_literalHead_pos ((b :: s).take literalLimit).length
          rw [literals, List.length_append, List.length_append] at hn
          obtain ⟨n, rfl⟩ : ∃ m, n = m + 1 := ⟨n - 1, by omega⟩
          have hroom : out.size + ((b :: s).take literalLimit).length ≤ total := by omega
          have hstep := readElements_literal hsome hfront hroom n
            (literals fuel ((b :: s).drop literalLimit))
          have hadded : ((b :: s).take literalLimit).toArray.size =
              ((b :: s).take literalLimit).length := List.size_toArray
          have hsize : (out ++ ((b :: s).take literalLimit).toArray).size +
              ((b :: s).drop literalLimit).length = total := by
            rw [Array.size_append, hadded, Nat.add_assoc, hpieces, htotal]
          rw [literals, hstep, ih (by omega) (by omega) hsize, append_take_drop]

theorem decode?_encode {data : List UInt8} (hdata : data.length ≤ lengthLimit) :
    decode? (encode data) = some data := by
  have hlength : data.length < 128 ^ 10 := Nat.lt_of_le_of_lt hdata (by decide)
  have hvarint : readVarint 10 (varint 10 data.length ++ literals data.length data) =
      some (data.length, literals data.length data) :=
    readVarint_varint hlength (by decide) _
  have helements : readElements data.length (literals data.length data).length
      (literals data.length data) #[] = some (#[] ++ data.toArray) :=
    readElements_literals (Nat.le_refl _) (Nat.le_refl _) (by simp)
  simp [decode?, encode, hvarint, Nat.not_lt.2 hdata, helements]

end Snappy

/-! ## Every algorithm -/

/-- A body is what the algorithm of the name makes of the data. -/
theorem compress_eq_ok [Codecs] {name : String} {c : Compression} {data body : List UInt8}
    (hname : Compression.ofName name = .ok c) :
    compress name data = .ok body ↔ c.algorithm.encode? data = some body := by
  simp only [compress, hname]
  cases c.algorithm.encode? data with
  | none => simp
  | some encoded => simp

theorem Compression.ofEncoding_contentEncoding (c : Compression) :
    ofEncoding c.contentEncoding = .ok c := by
  cases c <;> rfl

/-- An encoder that refuses nothing is inverted by a decoder that gives its data back. -/
theorem Algorithm.inverts_of_total {encode : List UInt8 → List UInt8}
    {decode? : List UInt8 → Option (List UInt8)} (h : ∀ data, decode? (encode data) = some data) :
    Algorithm.Inverts ⟨some ∘ encode, decode?⟩ := by
  intro data body hbody
  obtain rfl : encode data = body := Option.some.inj hbody
  exact h data

/-- The program's own algorithms read what they write. -/
theorem standard_inverts (c : Compression) : (@Compression.algorithm standard c).Inverts := by
  cases c with
  | none => exact Algorithm.identity_inverts
  | gzip => exact Algorithm.inverts_of_total Gzip.decode?_encode
  | zstd => exact Algorithm.inverts_of_total Zstd.decode?_encode
  | zlib => exact Algorithm.inverts_of_total Zlib.decode?_encode
  | snappy =>
      intro data body hbody
      obtain ⟨hdata, hencode⟩ := Option.ite_none_right_eq_some.1 hbody
      obtain rfl : Snappy.encode data = body := Option.some.inj hencode
      exact Snappy.decode?_encode hdata

end Chargeback.Codec
