import Chargeback.Number.Decimal
import Chargeback.Proofs.TextSpan
import Chargeback.Time.Rfc3339
import Mathlib.Data.List.Basic

/-!
# Numbers in decimal digits

The digits that are written for a natural number are decimal digits, there is at least one of them,
and they denote the number again, also with zeros in front. So a number that is written and followed
by something that is no digit is read back as it was.
-/

namespace Chargeback

namespace Text

theorem isDigit_eq (c : Char) : isDigit c = c.isDigit := by
  rw [Bool.eq_iff_iff]
  simp [isDigit, Char.isDigit, Char.le_def, UInt32.le_iff_toNat_le]

theorem isDigit_of_mem_toDigits {n : Nat} {c : Char} (h : c ∈ Nat.toDigits 10 n) :
    isDigit c = true := by
  rw [isDigit_eq]
  exact Nat.isDigit_of_mem_toDigits (by decide) (by decide) h

theorem digitsValue_toDigits (n : Nat) : digitsValue (Nat.toDigits 10 n) = n :=
  Nat.ofDigitChars_ten_toDigits

/-- Zeros in front of digits do not count. -/
theorem digitsValue_replicate_append (k : Nat) (ds : List Char) :
    digitsValue (List.replicate k '0' ++ ds) = digitsValue ds := by
  rw [digitsValue, List.foldl_append]
  have hzeros : (List.replicate k '0').foldl (fun n d => 10 * n + digitValue d) 0 = 0 := by
    induction k with
    | zero => rfl
    | succ k ih => rw [List.replicate_succ, List.foldl_cons]; exact ih
  rw [hzeros]
  rfl

theorem toNat_of_isDigit {c : Char} (h : isDigit c = true) : 0x30 ≤ c.toNat ∧ c.toNat ≤ 0x39 := by
  simpa [isDigit, Char.le_def, UInt32.le_iff_toNat_le] using h

theorem digitValue_lt {c : Char} (h : isDigit c = true) : digitValue c < 10 := by
  have hrange := toNat_of_isDigit h
  have hzero : '0'.toNat = 0x30 := rfl
  rw [digitValue, hzero]
  omega

theorem digitsValue_lt {ds : List Char} (h : ∀ c ∈ ds, isDigit c = true) :
    digitsValue ds < 10 ^ ds.length := by
  -- With some number read before, the value stays below that number's successor times the power.
  suffices hfold : ∀ n, ds.foldl (fun n d => 10 * n + digitValue d) n < (n + 1) * 10 ^ ds.length by
    simpa [digitsValue] using hfold 0
  induction ds with
  | nil => simp
  | cons c ds ih =>
      obtain ⟨hc, hds⟩ := List.forall_mem_cons.1 h
      intro n
      have hdigit := digitValue_lt hc
      have hrest := ih hds (10 * n + digitValue c)
      have hstep : 10 * n + digitValue c + 1 ≤ (n + 1) * 10 := by omega
      calc (c :: ds).foldl (fun n d => 10 * n + digitValue d) n
          < (10 * n + digitValue c + 1) * 10 ^ ds.length := hrest
        _ ≤ (n + 1) * 10 * 10 ^ ds.length := Nat.mul_le_mul_right _ hstep
        _ = (n + 1) * 10 ^ (c :: ds).length := by
          rw [List.length_cons, Nat.pow_succ, Nat.mul_assoc, Nat.mul_comm 10]

/-- The digits written for a number have no superfluous zero in front. -/
theorem eq_nil_of_leading_zero {n : Nat} {ds : List Char} (h : Nat.toDigits 10 n = '0' :: ds) :
    ds = [] := by
  by_contra hne
  have hpos : 0 < ds.length := List.length_pos_iff.2 hne
  have hdigits : ∀ c ∈ ds, isDigit c = true := fun c hc =>
    isDigit_of_mem_toDigits (h ▸ List.mem_cons_of_mem _ hc)
  have hvalue : digitsValue ds = n := by
    rw [← digitsValue_toDigits n, h]
    exact (digitsValue_replicate_append 1 ds).symm
  have hlt : n < 10 ^ ds.length := hvalue ▸ digitsValue_lt hdigits
  have hshort := (Nat.length_toDigits_le_iff (by decide) hpos).2 hlt
  rw [h, List.length_cons] at hshort
  omega

/-! ## Digits at the front of a text -/

/-- The text does not go on with a digit. -/
def EndsDigits (rest : List Char) : Prop := ∀ c ∈ rest.head?, isDigit c = false

theorem takeWhile_isDigit {ds rest : List Char} (hds : ∀ c ∈ ds, isDigit c = true)
    (hrest : EndsDigits rest) :
    (ds ++ rest).takeWhile isDigit = ds ∧ (ds ++ rest).dropWhile isDigit = rest :=
  takeWhile_span hds hrest

end Text

open Text

/-! ## Integers -/

theorem toList_toString_natCast (n : Nat) : (toString (n : Int)).toList = Nat.toDigits 10 n :=
  Nat.toList_repr

theorem toList_toString_negSucc (n : Nat) :
    (toString (Int.negSucc n)).toList = '-' :: Nat.toDigits 10 (n + 1) := by
  change ("-" ++ (n + 1).repr).toList = _
  rw [String.toList_append, Nat.toList_repr]
  rfl

/-- An integer is read back from its digits. -/
theorem Decimal.readInt?_toString (i : Int) : Decimal.readInt? (toString i).toList = some i := by
  have hempty (n : Nat) : (Nat.toDigits 10 n).isEmpty = false := by simp
  have hall (n : Nat) : (Nat.toDigits 10 n).all isDigit = true :=
    List.all_eq_true.2 fun c hc => isDigit_of_mem_toDigits hc
  cases i with
  | ofNat n =>
      have hsign : splitSign (Nat.toDigits 10 n) = (false, Nat.toDigits 10 n) := by
        have hdigits := hall n
        unfold splitSign
        split
        next h => simp [h, isDigit] at hdigits
        next h => simp [h, isDigit] at hdigits
        next => rfl
      rw [Int.ofNat_eq_natCast, toList_toString_natCast, readInt?, hsign]
      simp [hempty, hall, digitsValue_toDigits]
  | negSucc n =>
      rw [toList_toString_negSucc, readInt?, splitSign]
      simp [hempty, hall, digitsValue_toDigits, Int.negSucc_eq]

namespace Instant

theorem toList_padded (width n : Nat) : (padded width n).toList =
    List.replicate (width - (Nat.toDigits 10 n).length) '0' ++ Nat.toDigits 10 n := by
  rw [padded, String.toList_ofList]

theorem isDigit_of_mem_padded {width n : Nat} {c : Char} (h : c ∈ (padded width n).toList) :
    isDigit c = true := by
  rw [toList_padded, List.mem_append] at h
  rcases h with h | h
  · rw [(List.mem_replicate.1 h).2]
    rfl
  · exact isDigit_of_mem_toDigits h

theorem digitsValue_padded (width n : Nat) : digitsValue (padded width n).toList = n := by
  rw [toList_padded, digitsValue_replicate_append, digitsValue_toDigits]

/-- A number that fits the width is padded to just this width. -/
theorem length_padded {width n : Nat} (hwidth : 0 < width) (h : n < 10 ^ width) :
    (padded width n).toList.length = width := by
  have hle : (Nat.toDigits 10 n).length ≤ width :=
    (Nat.length_toDigits_le_iff (by decide) hwidth).2 h
  rw [toList_padded, List.length_append, List.length_replicate]
  omega

end Instant

end Chargeback
