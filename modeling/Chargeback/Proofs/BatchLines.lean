import Chargeback.Record.Ndjson
import Mathlib.Data.List.Forall2

/-!
# The lines of a batch

A sender that reads "line 7 is not a record" looks at the seventh line of what it sent. The number is
counted over all lines, blank ones included, and the lines are those between the line ends, whatever
the bytes in them: a batch may lack its last line end, have it twice or hold bytes that are no text.

Lines do not reach across a line end (`splitLines_append_lineEnd`), so decoding two batches with a
line end between them is decoding one and then the other, with the second numbered from where the
first stopped (`decodeLines_append`, `decodeLines_add`). The number in an error is the place of a line
that is the first of its kind (`decodeLines_eq_error_iff`). What a reader says of that line is
determined by its bytes, so a fault is taken here as the number with the line.
-/

namespace Chargeback.Ndjson

/-! ## Cutting at line ends -/

/-- Parts of a text without a line end in them, which give the text with line ends between them. -/
structure AreLines (ls : List (List UInt8)) (data : List UInt8) : Prop where
  nonempty : ls ≠ []
  closed : ∀ l ∈ ls, 0x0A ∉ l
  joined : [0x0A].intercalate ls = data

theorem splitLines_ne_nil (data : List UInt8) : splitLines data ≠ [] := by
  fun_cases splitLines data <;> simp [*]

theorem splitLines_cons_of_ne {b : UInt8} (hb : b ≠ 0x0A) {data l : List UInt8}
    {ls : List (List UInt8)} (h : splitLines data = l :: ls) :
    splitLines (b :: data) = (b :: l) :: ls := by
  rw [splitLines, if_neg (by simpa using hb), h]

/-- No line reaches across a line end. -/
theorem splitLines_append_lineEnd (a b : List UInt8) :
    splitLines (a ++ 0x0A :: b) = splitLines a ++ splitLines b := by
  induction a with
  | nil => simp [splitLines]
  | cons c a ih =>
      rw [List.cons_append]
      by_cases hc : c = 0x0A
      · simp [splitLines, hc, ih]
      · obtain ⟨l, ls, hls⟩ := List.exists_cons_of_ne_nil (splitLines_ne_nil a)
        rw [splitLines_cons_of_ne hc hls, splitLines_cons_of_ne hc (ih.trans (by rw [hls]; rfl))]
        rfl

theorem splitLines_of_notMem {l : List UInt8} (h : 0x0A ∉ l) : splitLines l = [l] := by
  induction l with
  | nil => rfl
  | cons b l ih =>
      obtain ⟨hb, hl⟩ := not_or.1 (mt List.mem_cons.2 h)
      exact splitLines_cons_of_ne (Ne.symm hb) (ih hl)

theorem length_splitLines (data : List UInt8) :
    (splitLines data).length = data.count 0x0A + 1 := by
  induction data with
  | nil => rfl
  | cons b data ih =>
      by_cases hb : b = 0x0A
      · simp [splitLines, hb, ih]
      · obtain ⟨l, ls, hls⟩ := List.exists_cons_of_ne_nil (splitLines_ne_nil data)
        rw [splitLines_cons_of_ne hb hls, List.count_cons_of_ne hb, ← ih, hls]
        rfl

theorem areLines_splitLines (data : List UInt8) : AreLines (splitLines data) data := by
  induction data with
  | nil => exact ⟨by simp [splitLines], by simp [splitLines], rfl⟩
  | cons b data ih =>
      obtain ⟨l, ls, hls⟩ := List.exists_cons_of_ne_nil ih.nonempty
      obtain ⟨-, hclosed, hjoined⟩ := hls ▸ ih
      by_cases hb : b = 0x0A
      · have hcut : splitLines (b :: data) = [] :: l :: ls := by simp [splitLines, hb, hls]
        refine hcut ▸ ⟨List.cons_ne_nil _ _, ?_, ?_⟩
        · exact List.forall_mem_cons.2 ⟨List.not_mem_nil, hclosed⟩
        · rw [List.intercalate_cons_cons, hjoined, hb]
          rfl
      · refine splitLines_cons_of_ne hb hls ▸ ⟨List.cons_ne_nil _ _, ?_, ?_⟩
        · obtain ⟨hl, hclosed⟩ := List.forall_mem_cons.1 hclosed
          exact List.forall_mem_cons.2 ⟨by simp [Ne.symm hb, hl], hclosed⟩
        · rw [← hjoined]
          cases ls <;> simp [List.intercalate]

/-- There is one way to cut a text at its line ends. -/
theorem areLines_iff {ls : List (List UInt8)} {data : List UInt8} :
    AreLines ls data ↔ splitLines data = ls := by
  refine ⟨fun h => ?_, fun h => h ▸ areLines_splitLines data⟩
  obtain ⟨hne, hclosed, rfl⟩ := h
  induction ls with
  | nil => exact absurd rfl hne
  | cons l ls ih =>
      obtain ⟨hl, hrest⟩ := List.forall_mem_cons.1 hclosed
      cases ls with
      | nil => simpa [List.intercalate] using splitLines_of_notMem hl
      | cons l' ls =>
          rw [List.intercalate_cons_cons, List.append_assoc, List.singleton_append,
            splitLines_append_lineEnd, splitLines_of_notMem hl, ih (List.cons_ne_nil _ _) hrest,
            List.singleton_append]

/-! ## Decoding part by part -/

/-- Lines that are counted from a later number are reported by later numbers. -/
theorem decodeLines_add (n k : Nat) (ls : List (List UInt8)) :
    decodeLines (n + k) ls = (decodeLines n ls).mapError (· + k) := by
  induction ls generalizing n with
  | nil => rfl
  | cons l ls ih =>
      rw [decodeLines, decodeLines, Nat.add_right_comm, ih]
      by_cases hblank : l.all isBlankByte = true
      · simp [hblank]
      · cases hline : decodeLine? l with
        | none => simp [hblank, Except.mapError]
        | some r => cases hrest : decodeLines (n + 1) ls <;> simp [hblank, Except.mapError, Except.map]

theorem decodeLines_append (n : Nat) (as bs : List (List UInt8)) :
    decodeLines n (as ++ bs) =
      match decodeLines n as with
      | .error k => .error k
      | .ok rs => (decodeLines (n + as.length) bs).map (rs ++ ·) := by
  induction as generalizing n with
  | nil => cases h : decodeLines n bs <;> simp [decodeLines, h, Except.map]
  | cons l as ih =>
      rw [List.cons_append, decodeLines, decodeLines, ih, List.length_cons, Nat.add_comm as.length,
        ← Nat.add_assoc]
      by_cases hblank : l.all isBlankByte = true
      · simp [hblank]
      · cases hline : decodeLine? l with
        | none => simp [hblank]
        | some r =>
            cases decodeLines (n + 1) as with
            | error k => simp [hblank, Except.map]
            | ok rs => cases decodeLines (n + 1 + as.length) bs <;> simp [hblank, Except.map]

/-! ## The records -/

/-- The lines of a batch that are not blank. -/
def written (data : List UInt8) : List (List UInt8) :=
  (splitLines data).filter fun l => !l.all isBlankByte

theorem decodeLines_eq_ok {n : Nat} {ls : List (List UInt8)} {rs : List CostRecord} :
    decodeLines n ls = .ok rs ↔ List.Forall₂ (fun l r => decodeLine? l = some r)
      (ls.filter fun l => !l.all isBlankByte) rs := by
  induction ls generalizing n rs with
  | nil => simp [decodeLines, eq_comm]
  | cons l ls ih =>
      rw [decodeLines, List.filter_cons]
      by_cases hblank : l.all isBlankByte = true
      · simp [hblank, ih]
      · rw [if_neg hblank, if_pos (by simpa using hblank), List.forall₂_cons_left_iff]
        cases hline : decodeLine? l with
        | none => simp
        | some r =>
            cases hrest : decodeLines (n + 1) ls with
            | error k => simp [Except.map, ← ih (n := n + 1), hrest]
            | ok rs' => simpa [Except.map, ← ih (n := n + 1), hrest] using eq_comm

/-! ## The first fault -/

/-- A line that is neither blank nor a record. -/
def Faulty (l : List UInt8) : Prop := l.all isBlankByte = false ∧ decodeLine? l = none

/-- The line of this number, counted from one over all the lines, is the first that is faulty. -/
def FirstFault (ls : List (List UInt8)) (number : Nat) (line : List UInt8) : Prop :=
  ∃ before after, ls = before ++ line :: after ∧ number = before.length + 1 ∧
    Faulty line ∧ ∀ l ∈ before, ¬Faulty l

theorem firstFault_cons {l line : List UInt8} {ls : List (List UInt8)} {number : Nat} :
    FirstFault (l :: ls) number line ↔
      (Faulty l ∧ number = 1 ∧ line = l) ∨
      (¬Faulty l ∧ ∃ k, number = k + 1 ∧ FirstFault ls k line) := by
  constructor
  · rintro ⟨before, after, hls, rfl, hline, hbefore⟩
    cases before with
    | nil =>
        obtain ⟨rfl, -⟩ := List.cons.inj hls
        exact .inl ⟨hline, rfl, rfl⟩
    | cons c before =>
        obtain ⟨rfl, rfl⟩ := List.cons.inj hls
        obtain ⟨hl, hbefore⟩ := List.forall_mem_cons.1 hbefore
        exact .inr ⟨hl, _, rfl, before, after, rfl, rfl, hline, hbefore⟩
  · rintro (⟨hl, rfl, rfl⟩ | ⟨hl, k, rfl, before, after, rfl, rfl, hline, hbefore⟩)
    · exact ⟨[], ls, rfl, rfl, hl, by simp⟩
    · exact ⟨l :: before, after, rfl, rfl, hline, List.forall_mem_cons.2 ⟨hl, hbefore⟩⟩

theorem firstFault_append {as bs : List (List UInt8)} {number : Nat} {line : List UInt8} :
    FirstFault (as ++ bs) number line ↔
      FirstFault as number line ∨
      (∀ l ∈ as, ¬Faulty l) ∧ ∃ k, FirstFault bs k line ∧ number = k + as.length := by
  induction as generalizing number with
  | nil => simp [FirstFault]
  | cons l as ih =>
      rw [List.cons_append, firstFault_cons, firstFault_cons]
      simp only [ih, List.forall_mem_cons, List.length_cons]
      grind

/-- A line that is not faulty is counted, and the search goes on. -/
theorem exists_firstFault_skip {l : List UInt8} {ls : List (List UInt8)} {n number : Nat}
    (hl : ¬Faulty l) :
    (∃ k line, FirstFault (l :: ls) k line ∧ number = n + k) ↔
      ∃ k line, FirstFault ls k line ∧ number = n + 1 + k := by
  constructor
  · rintro ⟨k, line, h, rfl⟩
    rcases firstFault_cons.1 h with ⟨hfault, -⟩ | ⟨-, k, rfl, hrest⟩
    · exact absurd hfault hl
    · exact ⟨k, line, hrest, by omega⟩
  · rintro ⟨k, line, h, rfl⟩
    exact ⟨k + 1, line, firstFault_cons.2 (.inr ⟨hl, k, rfl, h⟩), by omega⟩

theorem decodeLines_eq_error_iff {ls : List (List UInt8)} {n number : Nat} :
    decodeLines (n + 1) ls = .error number ↔
      ∃ k line, FirstFault ls k line ∧ number = n + k := by
  induction ls generalizing n with
  | nil => simp [decodeLines, FirstFault]
  | cons l ls ih =>
      rw [decodeLines]
      by_cases hblank : l.all isBlankByte = true
      · have hl : ¬Faulty l := by simp [Faulty, hblank]
        rw [if_pos hblank, ih, exists_firstFault_skip hl]
      · rw [if_neg hblank]
        cases hline : decodeLine? l with
        | none =>
            have hl : Faulty l := ⟨by simpa using hblank, hline⟩
            simp only [firstFault_cons, hl, not_true_eq_false, false_and, or_false, true_and,
              Except.error.injEq]
            exact ⟨fun h => ⟨1, l, ⟨rfl, rfl⟩, h.symm⟩, fun ⟨_, _, ⟨hk, _⟩, h⟩ => by rw [h, hk]⟩
        | some r =>
            have hl : ¬Faulty l := by simp [Faulty, hline]
            rw [exists_firstFault_skip hl, ← ih]
            cases decodeLines (n + 1 + 1) ls <;> simp [Except.map]

theorem exists_decodeLines_eq_error {n : Nat} {ls : List (List UInt8)} :
    (∃ k, decodeLines n ls = .error k) ↔
      ∃ l ∈ ls.filter fun l => !l.all isBlankByte, decodeLine? l = none := by
  induction ls generalizing n with
  | nil => simp [decodeLines]
  | cons l ls ih =>
      rw [decodeLines, List.filter_cons]
      by_cases hblank : l.all isBlankByte = true
      · simp [hblank, ih]
      · rw [if_neg hblank, if_pos (by simpa using hblank)]
        cases hline : decodeLine? l with
        | none => simp [hline]
        | some r =>
            rw [List.exists_mem_cons_iff, ← ih (n := n + 1)]
            cases hrest : decodeLines (n + 1) ls with
            | error k => simp [Except.map]
            | ok rs => simp [Except.map, hline]

/-! ## Batches with a line end between them -/

/-- The fault of a batch: the first of its lines that is neither blank nor a record, with its number. -/
def Fault (data : List UInt8) (number : Nat) (line : List UInt8) : Prop :=
  ∃ ls, AreLines ls data ∧ FirstFault ls number line

theorem fault_iff {data line : List UInt8} {number : Nat} :
    Fault data number line ↔ FirstFault (splitLines data) number line := by
  simp [Fault, areLines_iff]

theorem decode_eq_error_iff {data : List UInt8} {number : Nat} :
    decode data = .error number ↔ ∃ line, Fault data number line := by
  rw [decode, ← Nat.zero_add 1, decodeLines_eq_error_iff]
  simp only [fault_iff, Nat.zero_add]
  exact ⟨fun ⟨k, line, hfirst, h⟩ => ⟨line, h ▸ hfirst⟩, fun ⟨line, h⟩ => ⟨number, line, h, rfl⟩⟩

theorem decode_eq_ok_iff {data : List UInt8} {rs : List CostRecord} :
    decode data = .ok rs ↔
      List.Forall₂ (fun l r => decodeLine? l = some r) (written data) rs :=
  decodeLines_eq_ok

/-- A batch is decoded when none of its lines is faulty. -/
theorem exists_decode_eq_ok {data : List UInt8} :
    (∃ rs, decode data = .ok rs) ↔ ∀ l ∈ splitLines data, ¬Faulty l := by
  have herror : (∃ n, decode data = .error n) ↔ ∃ l ∈ written data, decodeLine? l = none :=
    exists_decodeLines_eq_error
  cases hdata : decode data with
  | error n =>
      obtain ⟨l, hl, hnone⟩ := herror.1 ⟨n, hdata⟩
      obtain ⟨hl, hwritten⟩ := List.mem_filter.1 hl
      exact iff_of_false nofun fun h => h l hl ⟨by simpa using hwritten, hnone⟩
  | ok rs =>
      refine iff_of_true ⟨rs, rfl⟩ fun l hl hfault => ?_
      obtain ⟨n, hn⟩ := herror.2 ⟨l, List.mem_filter.2 ⟨hl, by simpa using hfault.1⟩, hfault.2⟩
      cases hdata.symm.trans hn

theorem fault_append_lineEnd {a b : List UInt8} {number : Nat} {line : List UInt8} :
    Fault (a ++ 0x0A :: b) number line ↔
      Fault a number line ∨
      (∃ rs, decode a = .ok rs) ∧
        ∃ k, Fault b k line ∧ number = k + (1 + a.count 0x0A) := by
  simp only [fault_iff, splitLines_append_lineEnd, firstFault_append, exists_decode_eq_ok,
    length_splitLines, Nat.add_comm (a.count 0x0A)]

theorem decode_append_lineEnd (a b : List UInt8) :
    decode (a ++ 0x0A :: b) =
      match decode a, decode b with
      | .error n, _ => .error n
      | .ok _, .error n => .error (n + (1 + a.count 0x0A))
      | .ok rs, .ok rs' => .ok (rs ++ rs') := by
  have hb : decodeLines (1 + (splitLines a).length) (splitLines b) =
      (decode b).mapError (· + (1 + a.count 0x0A)) := by
    rw [decodeLines_add, decode, length_splitLines, Nat.add_comm (a.count 0x0A)]
  rw [decode, splitLines_append_lineEnd, decodeLines_append, hb, ← decode]
  cases decode a with
  | error n => rfl
  | ok rs => cases decode b <;> rfl

/-- **Two batches with a line end between them.** The records of both are decoded, or else the fault
is that of the first batch, or else that of the second with its number moved by the lines of the
first: one more than it has line ends. The number is at all times the place, counted from one over
all lines, of the first line that is neither blank nor a record, and blank lines add no record. -/
theorem decode_parts :
    (∀ a b : List UInt8,
      (decode (a ++ 0x0A :: b) =
        match decode a, decode b with
        | .error n, _ => .error n
        | .ok _, .error n => .error (n + (1 + a.count 0x0A))
        | .ok rs, .ok rs' => .ok (rs ++ rs')) ∧
      ∀ number line, Fault (a ++ 0x0A :: b) number line ↔
        Fault a number line ∨
        (∃ rs, decode a = .ok rs) ∧
          ∃ k, Fault b k line ∧ number = k + (1 + a.count 0x0A)) ∧
    ∀ data : List UInt8,
      (∀ ls, AreLines ls data ↔ splitLines data = ls) ∧
      (∀ number, decode data = .error number ↔ ∃ line, Fault data number line) ∧
      ∀ rs, decode data = .ok rs ↔
        List.Forall₂ (fun l r => decodeLine? l = some r) (written data) rs :=
  ⟨fun a b => ⟨decode_append_lineEnd a b, fun _ _ => fault_append_lineEnd⟩,
    fun _ => ⟨fun _ => areLines_iff, fun _ => decode_eq_error_iff, fun _ => decode_eq_ok_iff⟩⟩

/-- Two blank lines stand before the one that cannot be read, and both are counted. -/
example : decode [0x0A, 0x20, 0x0D, 0x0A, 0xFF, 0x0A] = .error 3 := by decide

end Chargeback.Ndjson
