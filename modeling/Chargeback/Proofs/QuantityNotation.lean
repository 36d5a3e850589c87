import Chargeback.Inventory.Quantity
import Chargeback.Proofs.DigitText
import Chargeback.Proofs.TextSpan
import Mathlib.Algebra.Field.Rat
import Mathlib.Tactic.NormNum

/-!
# The notation of quantities

A quantity is written as an optional sign, decimal digits, perhaps a point with more digits, and an
optional suffix. Here is what such a text denotes, said without the reader: a sign is a factor
(`Quantity.Sign`), a suffix is one of sixteen rational numbers (`Quantity.Suffix`), and digits around a
point are a decimal fraction (`Quantity.decimalValue`).

Reading takes a written quantity apart into these pieces: the number and the factor of the suffix
(`Quantity.splitSuffix_append`), the integer if there is no point (`Quantity.readInt?_digits`), and the
digits with the place of the point otherwise (`Quantity.read?_point`).
-/

namespace Chargeback

open Text

namespace Quantity

/-! ## Signs and suffixes -/

/-- The sign in front of a number, which may be absent. -/
inductive Sign where
  | absent
  | plus
  | minus
  deriving DecidableEq, Repr

/-- How a sign is written. -/
def Sign.text : Sign → List Char
  | .absent => []
  | .plus => ['+']
  | .minus => ['-']

/-- The factor that a sign stands for. -/
def Sign.factor : Sign → ℤ
  | .absent => 1
  | .plus => 1
  | .minus => -1

/-- Only the minus is told from no sign at all. -/
def Sign.isMinus : Sign → Bool
  | .absent => false
  | .plus => false
  | .minus => true

/-- The suffixes of a quantity, with `one` for none. -/
inductive Suffix where
  | one
  | nano
  | micro
  | milli
  | kilo
  | mega
  | giga
  | tera
  | peta
  | exa
  | kibi
  | mebi
  | gibi
  | tebi
  | pebi
  | exbi
  deriving DecidableEq, Repr

namespace Suffix

/-- How a suffix is written. -/
def text : Suffix → List Char
  | .one => []
  | .nano => ['n']
  | .micro => ['u']
  | .milli => ['m']
  | .kilo => ['k']
  | .mega => ['M']
  | .giga => ['G']
  | .tera => ['T']
  | .peta => ['P']
  | .exa => ['E']
  | .kibi => ['K', 'i']
  | .mebi => ['M', 'i']
  | .gibi => ['G', 'i']
  | .tebi => ['T', 'i']
  | .pebi => ['P', 'i']
  | .exbi => ['E', 'i']

/-- The number that a suffix stands for. -/
def value : Suffix → ℚ
  | .one => 1
  | .nano => 1 / 1000000000
  | .micro => 1 / 1000000
  | .milli => 1 / 1000
  | .kilo => 1000
  | .mega => 1000000
  | .giga => 1000000000
  | .tera => 1000000000000
  | .peta => 1000000000000000
  | .exa => 1000000000000000000
  | .kibi => 1024
  | .mebi => 1024 ^ 2
  | .gibi => 1024 ^ 3
  | .tebi => 1024 ^ 4
  | .pebi => 1024 ^ 5
  | .exbi => 1024 ^ 6

/-- The factor of a suffix, as a fraction. -/
def scale : Suffix → Scale
  | .one => ⟨1, 1⟩
  | .nano => ⟨1, 10 ^ 9⟩
  | .micro => ⟨1, 10 ^ 6⟩
  | .milli => ⟨1, 10 ^ 3⟩
  | .kilo => ⟨10 ^ 3, 1⟩
  | .mega => ⟨10 ^ 6, 1⟩
  | .giga => ⟨10 ^ 9, 1⟩
  | .tera => ⟨10 ^ 12, 1⟩
  | .peta => ⟨10 ^ 15, 1⟩
  | .exa => ⟨10 ^ 18, 1⟩
  | .kibi => ⟨2 ^ 10, 1⟩
  | .mebi => ⟨2 ^ 20, 1⟩
  | .gibi => ⟨2 ^ 30, 1⟩
  | .tebi => ⟨2 ^ 40, 1⟩
  | .pebi => ⟨2 ^ 50, 1⟩
  | .exbi => ⟨2 ^ 60, 1⟩

theorem value_eq (u : Suffix) : u.value = u.scale.num / u.scale.den := by
  cases u <;> norm_num [value, scale]

theorem scale_bounds (u : Suffix) : 0 < u.scale.num ∧ 0 < u.scale.den ∧ u.scale.num ≤ 2 ^ 60 ∧
    u.scale.den ≤ 2 ^ 30 := by
  cases u <;> decide

end Suffix

/-! ## Taking a quantity apart -/

/-- A text that ends with a digit or a point, and so with no suffix. -/
def EndsNumber (number : List Char) : Prop :=
  ∃ front c, number = front ++ [c] ∧ (c = '.' ∨ isDigit c = true)

theorem decimalScale?_eq_none {c : Char} (h : c = '.' ∨ isDigit c = true) :
    decimalScale? c = none := by
  unfold decimalScale?
  split
  -- No suffix is a digit or a point.
  all_goals first
    | rfl
    | exact absurd h (by decide)

/-- The number and the factor of the suffix. -/
theorem splitSuffix_append {number : List Char} (h : EndsNumber number) (u : Suffix) :
    splitSuffix (number ++ u.text) = (number, u.scale) := by
  obtain ⟨front, c, rfl, hc⟩ := h
  cases u with
  | one =>
      have hback : (front ++ [c] ++ Suffix.text .one).reverse = c :: front.reverse := by
        simp [Suffix.text]
      rw [splitSuffix, hback]
      split
      next heq =>
        obtain rfl : c = 'i' := (List.cons.inj heq).1
        exact absurd hc (by decide)
      next =>
        rw [splitDecimal, decimalScale?_eq_none hc]
        simp [Suffix.scale]
  | _ =>
      simp [splitSuffix, Suffix.text, splitDecimal, decimalScale?, binaryExponent?, Suffix.scale]

/-- A result within the range of amounts, or a fault that quotes the quantity. -/
def bounded (written : String) : Option Int → Except QuantityError Int
  | some m => if Amount.InRange m then .ok m else .error (.outOfRange written)
  | none => .error (.outOfRange written)

section Reading

variable {q : Quantity} {number : List Char} {u : Suffix}

theorem milli_of_written (h : EndsNumber number)
    (hwritten : trim q.text.toList = number ++ u.text) {written : String}
    (hstring : written = String.ofList (number ++ u.text)) :
    q.milli =
      match (Decimal.readInt? number).filter fitsWide with
      | some i => bounded written (wholeMilli? i u.scale)
      | none =>
        match Decimal.read? number with
        | some x =>
          if x.isFinite then bounded written (doubleMilli? x u.scale) else .error (.invalid written)
        | none => .error (.invalid written) := by
  obtain ⟨hnumber, hsome⟩ : number.isEmpty = false ∧ (number ++ u.text).isEmpty = false := by
    obtain ⟨front, c, rfl, -⟩ := h
    simp
  subst hstring
  unfold milli
  simp only [hwritten, hsome, splitSuffix_append h, hnumber, Bool.false_eq_true, if_false]
  cases (Decimal.readInt? number).filter fitsWide with
  | some i =>
      simp only
      cases wholeMilli? i u.scale with
      | none => rfl
      | some m => rfl
  | none =>
      simp only
      cases Decimal.read? number with
      | none => rfl
      | some x =>
          simp only
          cases doubleMilli? x u.scale with
          | none => rfl
          | some m => rfl

/-- A whole number in range is scaled exactly. -/
theorem milli_of_whole (h : EndsNumber number) (hwritten : trim q.text.toList = number ++ u.text)
    {i : Int} (hread : Decimal.readInt? number = some i) (hfits : fitsWide i = true) :
    q.milli = bounded (String.ofList (number ++ u.text)) (wholeMilli? i u.scale) := by
  rw [milli_of_written h hwritten rfl, hread, Option.filter_some_pos hfits]

/-- Every other number is scaled as a double. -/
theorem milli_of_double (h : EndsNumber number) (hwritten : trim q.text.toList = number ++ u.text)
    (hread : ∀ i, Decimal.readInt? number = some i → fitsWide i = false) {x : Binary64}
    (hx : Decimal.read? number = some x) :
    q.milli =
      if x.isFinite then bounded (String.ofList (number ++ u.text)) (doubleMilli? x u.scale)
      else .error (.invalid (String.ofList (number ++ u.text))) := by
  have hnone : (Decimal.readInt? number).filter fitsWide = none := by
    rw [Option.filter_eq_none_iff]
    intro i hi
    rw [hread i hi]
    decide
  rw [milli_of_written h hwritten rfl, hnone, hx]

end Reading

/-! ## Numbers -/

/-- The exact number that a sign, digits, a point and more digits denote. -/
def decimalValue (s : Sign) (ds fs : List Char) : ℚ :=
  s.factor * digitsValue (ds ++ fs) / 10 ^ fs.length

/-- A text that begins as a number without its sign does. -/
def StartsNumber (rest : List Char) : Prop := ∃ c r, rest = c :: r ∧ (c = '.' ∨ isDigit c = true)

theorem splitSign_text {rest : List Char} (h : StartsNumber rest) (s : Sign) :
    Decimal.splitSign (s.text ++ rest) = (s.isMinus, rest) := by
  cases s with
  | absent =>
      obtain ⟨c, r, rfl, hc⟩ := h
      show Decimal.splitSign (c :: r) = (false, c :: r)
      unfold Decimal.splitSign
      split
      next heq =>
        obtain rfl : c = '-' := (List.cons.inj heq).1
        exact absurd hc (by decide)
      next heq =>
        obtain rfl : c = '+' := (List.cons.inj heq).1
        exact absurd hc (by decide)
      next => rfl
  | plus => rfl
  | minus => rfl

theorem factor_mul (s : Sign) (n : ℕ) : s.factor * n = if s.isMinus then -(n : ℤ) else n := by
  cases s <;> simp [Sign.factor, Sign.isMinus]

section Digits

variable {ds fs : List Char}

theorem startsNumber_digits (hds : ∀ c ∈ ds, isDigit c = true) (hne : ds ≠ []) :
    StartsNumber ds := by
  obtain ⟨c, r, rfl⟩ := List.exists_cons_of_ne_nil hne
  exact ⟨c, r, rfl, .inr (hds c List.mem_cons_self)⟩

theorem startsNumber_point (hds : ∀ c ∈ ds, isDigit c = true) (fs : List Char) :
    StartsNumber (ds ++ '.' :: fs) := by
  cases ds with
  | nil => exact ⟨'.', fs, rfl, .inl rfl⟩
  | cons c r => exact ⟨c, r ++ '.' :: fs, rfl, .inr (hds c List.mem_cons_self)⟩

/-- A whole number is read as the integer that it denotes. -/
theorem readInt?_digits (s : Sign) (hds : ∀ c ∈ ds, isDigit c = true) (hne : ds ≠ []) :
    Decimal.readInt? (s.text ++ ds) = some (s.factor * digitsValue ds) := by
  have hsome : ds.isEmpty = false := by simpa using hne
  have hall : ds.all isDigit = true := List.all_eq_true.2 hds
  rw [Decimal.readInt?, splitSign_text (startsNumber_digits hds hne), factor_mul]
  simp [hsome, hall]

/-- A number with a point is no integer. -/
theorem readInt?_point (s : Sign) (hds : ∀ c ∈ ds, isDigit c = true) (fs : List Char) :
    Decimal.readInt? (s.text ++ (ds ++ '.' :: fs)) = none := by
  have hall : (ds ++ '.' :: fs).all isDigit = false := by
    rw [List.all_eq_false]
    exact ⟨'.', by simp, by decide⟩
  rw [Decimal.readInt?, splitSign_text (startsNumber_point hds fs)]
  simp [hall]

theorem lowerAscii_ne {c : Char} (h : c = '.' ∨ isDigit c = true) :
    lowerAscii c ≠ 'i' ∧ lowerAscii c ≠ 'n' := by
  have hsame : lowerAscii c = c := by
    rw [lowerAscii, if_neg]
    simp only [Bool.and_eq_true, decide_eq_true_eq, not_and]
    intro hle
    have hupper : 0x41 ≤ c.toNat := hle
    rcases h with rfl | h
    · exact absurd hupper (by decide)
    · have := toNat_of_isDigit h
      omega
  rw [hsame]
  constructor
  · rintro rfl
    exact absurd h (by decide)
  · rintro rfl
    exact absurd h (by decide)

/-- What begins with a digit or a point is none of the words for special numbers. -/
theorem read?_text {rest : List Char} (h : StartsNumber rest) (s : Sign) :
    Decimal.read? (s.text ++ rest) =
      (Decimal.unsigned? rest).map (Decimal.toBinary64 s.isMinus) := by
  have hword (w : String) (hw : w = "inf" ∨ w = "infinity" ∨ w = "nan") :
      (String.ofList (rest.map lowerAscii) == w) = false := by
    obtain ⟨c, r, rfl, hc⟩ := h
    rw [beq_eq_false_iff_ne]
    intro heq
    have hlist : w.toList = lowerAscii c :: r.map lowerAscii := by
      rw [← heq, String.toList_ofList, List.map_cons]
    have hnot : lowerAscii c ≠ 'i' ∧ lowerAscii c ≠ 'n' := lowerAscii_ne hc
    rcases hw with rfl | rfl | rfl
    · exact hnot.1 (List.cons.inj hlist).1.symm
    · exact hnot.1 (List.cons.inj hlist).1.symm
    · exact hnot.2 (List.cons.inj hlist).1.symm
  rw [Decimal.read?, splitSign_text h]
  simp [hword]

theorem unsigned?_digits (hds : ∀ c ∈ ds, isDigit c = true) (hne : ds ≠ []) :
    Decimal.unsigned? ds = some ⟨digitsValue ds, 0⟩ := by
  have hsome : ds.isEmpty = false := by simpa using hne
  obtain ⟨htake, hdrop⟩ := takeWhile_span hds StopsAt.nil
  rw [List.append_nil] at htake hdrop
  simp [Decimal.unsigned?, htake, hdrop, hsome, Decimal.exponentPart?]

theorem unsigned?_point (hds : ∀ c ∈ ds, isDigit c = true) (hfs : ∀ c ∈ fs, isDigit c = true)
    (hne : ds ++ fs ≠ []) :
    Decimal.unsigned? (ds ++ '.' :: fs) = some ⟨digitsValue (ds ++ fs), -fs.length⟩ := by
  have hsome : (ds.isEmpty && fs.isEmpty) = false := by
    rw [← Bool.not_eq_true, Bool.and_eq_true, List.isEmpty_iff, List.isEmpty_iff]
    rintro ⟨rfl, rfl⟩
    exact hne rfl
  obtain ⟨htake, hdrop⟩ := takeWhile_span hds (stopsAt_cons.2 (by decide) : StopsAt isDigit ('.' :: fs))
  obtain ⟨htake', hdrop'⟩ := takeWhile_span hfs StopsAt.nil
  rw [List.append_nil] at htake' hdrop'
  simp [Decimal.unsigned?, htake, hdrop, htake', hdrop', hsome, Decimal.exponentPart?]

/-- A whole number as a double. -/
theorem read?_digits (s : Sign) (hds : ∀ c ∈ ds, isDigit c = true) (hne : ds ≠ []) :
    Decimal.read? (s.text ++ ds) =
      some (Decimal.toBinary64 s.isMinus ⟨digitsValue ds, 0⟩) := by
  rw [read?_text (startsNumber_digits hds hne), unsigned?_digits hds hne, Option.map_some]

/-- The places after the point count against the digits. -/
theorem read?_point (s : Sign) (hds : ∀ c ∈ ds, isDigit c = true)
    (hfs : ∀ c ∈ fs, isDigit c = true) (hne : ds ++ fs ≠ []) :
    Decimal.read? (s.text ++ (ds ++ '.' :: fs)) =
      some (Decimal.toBinary64 s.isMinus ⟨digitsValue (ds ++ fs), -fs.length⟩) := by
  rw [read?_text (startsNumber_point hds fs), unsigned?_point hds hfs hne, Option.map_some]

theorem endsNumber_digits (s : Sign) (hds : ∀ c ∈ ds, isDigit c = true) (hne : ds ≠ []) :
    EndsNumber (s.text ++ ds) := by
  refine ⟨s.text ++ ds.dropLast, ds.getLast hne, ?_, .inr (hds _ (List.getLast_mem hne))⟩
  rw [List.append_assoc, List.dropLast_append_getLast]

theorem endsNumber_point (s : Sign) (ds : List Char) (hfs : ∀ c ∈ fs, isDigit c = true) :
    EndsNumber (s.text ++ (ds ++ '.' :: fs)) := by
  by_cases hne : fs = []
  · subst hne
    exact ⟨s.text ++ ds, '.', (List.append_assoc _ _ _).symm, .inl rfl⟩
  · have hlast : isDigit (fs.getLast hne) = true := hfs _ (List.getLast_mem hne)
    refine ⟨s.text ++ (ds ++ '.' :: fs.dropLast), fs.getLast hne, ?_, .inr hlast⟩
    rw [List.append_assoc, List.append_assoc, List.cons_append, List.dropLast_append_getLast]

end Digits

end Quantity

end Chargeback
