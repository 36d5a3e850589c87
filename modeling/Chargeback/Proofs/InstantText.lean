import Chargeback.Proofs.CalendarDays
import Chargeback.Proofs.DigitText

/-!
# The text of an instant is read back

The text of an instant is a row of numbers with marks between them. Each number is padded to its
width, so the reader of numbers takes all of it and nothing more, and each mark is what the reader
looks for there. The fraction ends at the zone, and a year that needs more than four digits has a sign
and ends at its hyphen.

Instants may have any year in the range of dates, and any nanosecond, also one in a leap second.
-/

namespace Chargeback.Instant

open Text

/-! ## Numbers and marks -/

/-- A number is read up to its width, or up to where its digits end. -/
theorem number?_append {width : Nat} {ds rest : List Char} (hds : ∀ c ∈ ds, isDigit c = true)
    (hne : ds ≠ []) (hwidth : ds.length ≤ width) (hrest : EndsDigits (rest.take (width - ds.length))) :
    number? width (ds ++ rest) = some (digitsValue ds, rest) := by
  have htaken : ((ds ++ rest).take width).takeWhile isDigit = ds := by
    rw [List.take_append, List.take_of_length_le hwidth]
    exact (takeWhile_isDigit hds hrest).1
  have hempty : ds.isEmpty = false := by simpa using hne
  simp [number?, htaken, hempty]

theorem isBlank_of_isDigit {c : Char} (h : isDigit c = true) : isBlank c = false := by
  have hrange := toNat_of_isDigit h
  simp only [isBlank, Bool.or_eq_false_iff, Bool.and_eq_false_iff, decide_eq_false_iff_not,
    beq_eq_false_iff_ne, ne_eq]
  omega

theorem trimStart_cons {c : Char} (h : isBlank c = false) (rest : List Char) :
    trimStart (c :: rest) = c :: rest := by
  rw [trimStart, List.dropWhile_cons_of_neg (by simp [h])]

theorem trimStart_digits {ds : List Char} (hds : ∀ c ∈ ds, isDigit c = true) (hne : ds ≠ [])
    (rest : List Char) : trimStart (ds ++ rest) = ds ++ rest := by
  obtain ⟨c, ds, rfl⟩ := List.exists_cons_of_ne_nil hne
  exact trimStart_cons (isBlank_of_isDigit (hds c List.mem_cons_self)) _

theorem toList_padded_ne_nil (width n : Nat) : (padded width n).toList ≠ [] := by
  simp [toList_padded]

/-- A number of two digits is read back. -/
theorem shortNumber?_padded {n : Nat} (h : n < 100) (rest : List Char) :
    shortNumber? ((padded 2 n).toList ++ rest) = some (n, rest) := by
  have hdigits : ∀ c ∈ (padded 2 n).toList, isDigit c = true := fun c => isDigit_of_mem_padded
  have hlength : (padded 2 n).toList.length = 2 := length_padded (by decide) h
  rw [shortNumber?, trimStart_digits hdigits (toList_padded_ne_nil 2 n),
    number?_append hdigits (toList_padded_ne_nil 2 n) (Nat.le_of_eq hlength), digitsValue_padded]
  simp [hlength, EndsDigits]

theorem separator?_cons {c : Char} (h : isBlank c = false) (rest : List Char) :
    separator? c (c :: rest) = some rest := by
  rw [separator?, trimStart_cons h]
  simp

/-! ## The year -/

theorem padded_digits (width n : Nat) : ∀ c ∈ (padded width n).toList, isDigit c = true :=
  fun _ => isDigit_of_mem_padded

/-- A year ends at its hyphen. -/
theorem number?_padded_hyphen {width n : Nat} (hwidth : (padded 4 n).toList.length ≤ width)
    (rest : List Char) :
    number? width ((padded 4 n).toList ++ '-' :: rest) = some (n, '-' :: rest) := by
  have hhyphen (k : Nat) : EndsDigits (('-' :: rest).take k) := by
    cases k with
    | zero => simp [EndsDigits]
    | succ k =>
        intro c hc
        rw [List.take_succ_cons, List.head?_cons, Option.mem_some_iff] at hc
        exact hc ▸ rfl
  rw [number?_append (padded_digits 4 n) (toList_padded_ne_nil 4 n) hwidth (hhyphen _),
    digitsValue_padded]

/-- Digits begin with no sign. -/
theorem digits_ne_cons {ds rest : List Char} (hds : ∀ c ∈ ds, isDigit c = true) (hne : ds ≠ [])
    {c : Char} (hc : isDigit c = false) (r : List Char) : ds ++ rest ≠ c :: r := by
  obtain ⟨d, ds, rfl⟩ := List.exists_cons_of_ne_nil hne
  intro heq
  have hd := hds d List.mem_cons_self
  rw [(List.cons.inj heq).1, hc] at hd
  cases hd

theorem year?_yearText (y : Int) (rest : List Char) :
    year? ((yearText y).toList ++ '-' :: rest) = some (y, '-' :: rest) := by
  have hsigned (n : Nat) : number? ((padded 4 n).toList ++ '-' :: rest).length
      ((padded 4 n).toList ++ '-' :: rest) = some (n, '-' :: rest) :=
    number?_padded_hyphen (by simp) rest
  unfold yearText
  split
  · next hrange =>
      obtain ⟨hlow, hhigh⟩ : 0 ≤ y ∧ y ≤ 9999 := by simpa using hrange
      have hlength : (padded 4 y.toNat).toList.length = 4 := length_padded (by decide) (by omega)
      have hplain {c : Char} (hc : isDigit c = false) (r : List Char) :
          (padded 4 y.toNat).toList ++ '-' :: rest ≠ c :: r :=
        digits_ne_cons (padded_digits 4 y.toNat) (toList_padded_ne_nil 4 _) hc r
      rw [year?, trimStart_digits (padded_digits 4 _) (toList_padded_ne_nil 4 _)]
      split
      · next h => exact absurd h (hplain rfl _)
      · next h => exact absurd h (hplain rfl _)
      · rw [number?_padded_hyphen (Nat.le_of_eq hlength)]
        simp [Int.toNat_of_nonneg hlow]
  · next hrange =>
      by_cases hneg : y < 0
      · have htext : ((if y < 0 then "-" else "+") ++ padded 4 y.natAbs).toList ++ '-' :: rest =
            '-' :: ((padded 4 y.natAbs).toList ++ '-' :: rest) := by simp [hneg]
        rw [htext, year?, trimStart_cons rfl]
        simp only [hsigned, Option.map_some, Option.some.injEq, Prod.mk.injEq, and_true]
        omega
      · have htext : ((if y < 0 then "-" else "+") ++ padded 4 y.natAbs).toList ++ '-' :: rest =
            '+' :: ((padded 4 y.natAbs).toList ++ '-' :: rest) := by simp [hneg]
        rw [htext, year?, trimStart_cons rfl]
        simp only [hsigned, Option.map_some, Option.some.injEq, Prod.mk.injEq, and_true]
        omega

/-! ## The fraction and the zone -/

theorem fraction?_digits {width n : Nat} (hpos : 0 < width) (hwidth : width ≤ 9)
    (hn : n < 10 ^ width) :
    fraction? ('.' :: ((padded width n).toList ++ ['Z'])) = some (n * 10 ^ (9 - width), ['Z']) := by
  have hlength := length_padded hpos hn
  have hzone : EndsDigits ['Z'] := by simp [EndsDigits, isDigit]
  obtain ⟨htake, hdrop⟩ := takeWhile_isDigit (padded_digits width n) hzone
  have hnine : (padded width n).toList.take 9 = (padded width n).toList :=
    List.take_of_length_le (by omega)
  have hempty : (padded width n).toList.isEmpty = false := by
    simpa using toList_padded_ne_nil width n
  simp only [fraction?, htake, hdrop, hnine, hempty, Bool.false_eq_true, if_false,
    digitsValue_padded, hlength, Option.pure_def]

theorem fraction?_fractionText {n : Nat} (h : n < Span.perSecond) :
    fraction? ((fractionText n).toList ++ ['Z']) = some (n, ['Z']) := by
  have hbound : n < 10 ^ 9 := h
  have hpoint (s : String) : ("." ++ s).toList ++ ['Z'] = '.' :: (s.toList ++ ['Z']) := by simp
  unfold fractionText
  split
  · next hzero => rw [hzero]; rfl
  split
  · next hmillis =>
      rw [hpoint, fraction?_digits (by decide) (by decide) (by omega)]
      simp only [Option.some.injEq, Prod.mk.injEq, and_true]
      omega
  split
  · next hmicros =>
      rw [hpoint, fraction?_digits (by decide) (by decide) (by omega)]
      simp only [Option.some.injEq, Prod.mk.injEq, and_true]
      omega
  · rw [hpoint, fraction?_digits (by decide) (by decide) hbound]
    simp

theorem offset?_zone : offset? (trimStart ['Z']) = some (0, []) := by decide

/-! ## The whole text -/

/-- What is written for an instant, mark by mark. -/
theorem toList_toText (t : Instant) : t.toText.toList =
    (yearText t.date.year).toList ++ '-' :: ((padded 2 t.date.month).toList ++
    '-' :: ((padded 2 t.date.day).toList ++ 'T' :: ((padded 2 (t.secondOfDay / 3600)).toList ++
    ':' :: ((padded 2 (t.secondOfDay / 60 % 60)).toList ++
    ':' :: ((padded 2 (t.secondOfDay % 60 + t.nanos / Span.perSecond)).toList ++
    ((fractionText (t.nanos % Span.perSecond)).toList ++ ['Z'])))))) := by
  simp [toText, dateText, clockText]

/-- The instant exists: its year is in the range of dates, and its nanoseconds are those of a second
or, at the end of a minute, of the leap second after it. -/
def IsReal (t : Instant) : Prop := ofUnix? t.seconds t.nanos = some t

theorem isReal_iff {t : Instant} : t.IsReal ↔ Date.yearInRange t.date.year = true ∧
    t.nanos < 2 * Span.perSecond ∧ (t.nanos < Span.perSecond ∨ t.seconds % 60 = 59) := by
  have hsame : (⟨t.seconds, t.nanos⟩ : Instant) = t := rfl
  simp only [IsReal, ofUnix?, hsame, Option.ite_none_right_eq_some, Bool.and_eq_true, Bool.or_eq_true,
    decide_eq_true_eq, beq_iff_eq, and_true, and_assoc]

/-- The second of the day and the second written, which is the sixtieth in a leap second. -/
theorem clock_of_isReal {t : Instant} (h : t.IsReal) :
    (t.secondOfDay : Int) = t.seconds % perDay ∧ t.secondOfDay < 86400 ∧
      (t.nanos < Span.perSecond ∧ t.nanos / Span.perSecond = 0 ∨
        t.nanos = t.nanos % Span.perSecond + Span.perSecond ∧ t.nanos / Span.perSecond = 1 ∧
          t.secondOfDay % 60 = 59) := by
  obtain ⟨-, hnanos, hleap⟩ := isReal_iff.1 h
  have hday : perDay = 86400 := rfl
  have hperSecond : Span.perSecond = 1000000000 := rfl
  have hsecond : (t.secondOfDay : Int) = t.seconds % perDay := by
    rw [secondOfDay, Int.toNat_of_nonneg (Int.emod_nonneg _ (by decide))]
  rw [hday] at hsecond
  rw [hperSecond] at hnanos hleap ⊢
  refine ⟨hsecond, by omega, ?_⟩
  by_cases hplain : t.nanos < 1000000000
  · exact .inl ⟨hplain, by omega⟩
  · exact .inr ⟨by omega, by omega, by omega⟩

/-- **The text of an instant is read back**, to the nanosecond. -/
theorem read?_toText {t : Instant} (h : t.IsReal) : read? t.toText.toList = some t := by
  obtain ⟨hyear, -, -⟩ := isReal_iff.1 h
  obtain ⟨hsecond, hbound, hclock⟩ := clock_of_isReal h
  have hvalid : t.date.isValid = true := Date.isValid_ofDays hyear
  obtain ⟨hmonth, hday⟩ := Date.lt_of_isValid hvalid
  have hsixty : t.secondOfDay % 60 + t.nanos / Span.perSecond ≤ 60 := by omega
  have hdays : t.date.toDays = t.seconds / perDay := Date.toDays_ofDays _
  have hfraction := fraction?_fractionText (Nat.mod_lt t.nanos (by decide : 0 < Span.perSecond))
  have hhour : t.secondOfDay / 3600 < 100 := by omega
  have hminute : t.secondOfDay / 60 % 60 < 100 := by omega
  rw [toList_toText, read?]
  -- The parts are taken off one after the other, down to the zone.
  refine Option.bind_eq_some_iff.2 ⟨_, year?_yearText _ _, ?_⟩
  refine Option.bind_eq_some_iff.2 ⟨_, separator?_cons rfl _, ?_⟩
  refine Option.bind_eq_some_iff.2 ⟨_, shortNumber?_padded hmonth _, ?_⟩
  refine Option.bind_eq_some_iff.2 ⟨_, separator?_cons rfl _, ?_⟩
  refine Option.bind_eq_some_iff.2 ⟨_, shortNumber?_padded hday _, ?_⟩
  change (if ('T' == 'T' || 'T' == 't' || 'T' == ' ') = true then _ else _) = _
  rw [if_pos (by decide)]
  refine Option.bind_eq_some_iff.2 ⟨_, rfl, ?_⟩
  refine Option.bind_eq_some_iff.2 ⟨_, shortNumber?_padded hhour _, ?_⟩
  refine Option.bind_eq_some_iff.2 ⟨_, separator?_cons rfl _, ?_⟩
  refine Option.bind_eq_some_iff.2 ⟨_, shortNumber?_padded hminute _, ?_⟩
  refine Option.bind_eq_some_iff.2 ⟨_, separator?_cons rfl _, ?_⟩
  refine Option.bind_eq_some_iff.2 ⟨_, shortNumber?_padded (by omega) _, ?_⟩
  refine Option.bind_eq_some_iff.2 ⟨_, hfraction, ?_⟩
  refine Option.bind_eq_some_iff.2 ⟨_, offset?_zone, ?_⟩
  -- What was read is put together to the second and the nanosecond that were written.
  have hwritten : (if (t.secondOfDay % 60 + t.nanos / Span.perSecond == 60) = true then 59
      else t.secondOfDay % 60 + t.nanos / Span.perSecond) = t.secondOfDay % 60 := by
    simp only [beq_iff_eq]
    split <;> omega
  have hnanos : t.nanos % Span.perSecond +
      (if (t.secondOfDay % 60 + t.nanos / Span.perSecond == 60) = true then Span.perSecond else 0) =
      t.nanos := by
    simp only [beq_iff_eq]
    rcases hclock with ⟨hplain, hnone⟩ | ⟨hleap, hone, hlast⟩
    · rw [if_neg (by omega), Nat.mod_eq_of_lt hplain, Nat.add_zero]
    · rw [if_pos (by omega), ← hleap]
  have hseconds : t.seconds / perDay * perDay + ((t.secondOfDay / 3600 : Nat) * 3600 +
      (t.secondOfDay / 60 % 60 : Nat) * 60 + (t.secondOfDay % 60 : Nat)) - 0 = t.seconds := by
    have hday : perDay = 86400 := rfl
    rw [hday] at hsecond ⊢
    omega
  have hguard : ((trimStart []).isEmpty && t.date.isValid && decide (t.secondOfDay / 3600 < 24) &&
      decide (t.secondOfDay / 60 % 60 < 60) &&
      decide (t.secondOfDay % 60 + t.nanos / Span.perSecond ≤ 60) &&
      decide (Int.natAbs 0 < 86400)) = true := by
    simp only [hvalid, Bool.and_eq_true, decide_eq_true_eq, and_true]
    exact ⟨⟨⟨⟨by decide, by omega⟩, by omega⟩, hsixty⟩, by decide⟩
  simp only [hguard, if_true, hwritten, hnanos, hdays, hseconds, hyear]

end Chargeback.Instant
