import Chargeback.Text.Blank
import Mathlib.Data.List.TakeWhile

/-!
# Parts of a text

Where a text is cut by a property of its characters. A part at the front, all of whose characters have
the property, is found if the character after it has not (`takeWhile_span`). Cutting off the blanks at
both ends gives the one part between them that neither begins nor ends with a blank (`trim_eq_iff`).
-/

namespace Chargeback.Text

/-- A text does not go on with a character that has the property. -/
def StopsAt (p : Char → Bool) (rest : List Char) : Prop := ∀ c ∈ rest.head?, p c = false

theorem StopsAt.nil {p : Char → Bool} : StopsAt p [] := by
  intro c hc
  cases hc

theorem stopsAt_cons {p : Char → Bool} {c : Char} {rest : List Char} :
    StopsAt p (c :: rest) ↔ p c = false := by
  constructor
  · intro h
    exact h c rfl
  · intro h d hd
    cases hd
    exact h

section Span

variable {p : Char → Bool} {s front rest : List Char}

theorem dropWhile_of_stopsAt (h : StopsAt p rest) : rest.dropWhile p = rest := by
  cases rest with
  | nil => rfl
  | cons c r => simp [stopsAt_cons.1 h]

/-- A part at the front of a text is taken whole, and nothing after it. -/
theorem takeWhile_span (hfront : ∀ c ∈ front, p c = true) (hrest : StopsAt p rest) :
    (front ++ rest).takeWhile p = front ∧ (front ++ rest).dropWhile p = rest := by
  have hstop : rest.takeWhile p = [] := by
    cases rest with
    | nil => rfl
    | cons c r => simp [stopsAt_cons.1 hrest]
  rw [List.takeWhile_append_of_pos hfront, List.dropWhile_append_of_pos hfront, hstop,
    dropWhile_of_stopsAt hrest, List.append_nil]
  exact ⟨rfl, rfl⟩

/-- What is taken ends before a part that does not go on with the property. -/
theorem takeWhile_append_of_stopsAt (hrest : StopsAt p rest) :
    (s ++ rest).takeWhile p = s.takeWhile p := by
  have hnone : rest.takeWhile p = [] := (takeWhile_span (List.forall_mem_nil (p ·)) hrest).1
  rw [List.takeWhile_append, hnone, List.append_nil]
  split
  · next h => exact ((List.takeWhile_prefix p).eq_of_length h).symm
  · rfl

theorem stopsAt_dropWhile (p : Char → Bool) (s : List Char) : StopsAt p (s.dropWhile p) := by
  intro c hc
  have hfirst := List.head?_dropWhile_not p s
  rw [Option.mem_def.1 hc] at hfirst
  exact hfirst

theorem drop_length_takeWhile (p : Char → Bool) (s : List Char) :
    s.drop (s.takeWhile p).length = s.dropWhile p := by
  have hsplit : s = s.takeWhile p ++ s.dropWhile p := List.takeWhile_append_dropWhile.symm
  calc s.drop (s.takeWhile p).length
      = (s.takeWhile p ++ s.dropWhile p).drop (s.takeWhile p).length := by rw [← hsplit]
    _ = s.dropWhile p := List.drop_left

end Span

/-! ## Blanks at the ends -/

/-- A text without blanks at its ends, and the text with them. -/
def IsTrimOf (t s : List Char) : Prop :=
  ∃ before after, s = before ++ (t ++ after) ∧ (∀ c ∈ before, isBlank c = true) ∧
    (∀ c ∈ after, isBlank c = true) ∧ StopsAt isBlank t ∧ StopsAt isBlank t.reverse

theorem trimEnd_append {t after : List Char} (hafter : ∀ c ∈ after, isBlank c = true)
    (ht : StopsAt isBlank t.reverse) : trimEnd (t ++ after) = t := by
  have hblank : ∀ c ∈ after.reverse, isBlank c = true := by
    intro c hc
    exact hafter c (List.mem_reverse.1 hc)
  rw [trimEnd, List.reverse_append, (takeWhile_span hblank ht).2, List.reverse_reverse]

/-- The blanks at the end are blanks, and what stands before them does not end with one. -/
theorem exists_trimEnd (s : List Char) : ∃ after, s = trimEnd s ++ after ∧
    (∀ c ∈ after, isBlank c = true) ∧ StopsAt isBlank (trimEnd s).reverse := by
  refine ⟨(s.reverse.takeWhile isBlank).reverse, ?_, ?_, ?_⟩
  · rw [trimEnd, ← List.reverse_append, List.takeWhile_append_dropWhile, List.reverse_reverse]
  · intro c hc
    exact List.mem_takeWhile_imp (List.mem_reverse.1 hc)
  · rw [trimEnd, List.reverse_reverse]
    exact stopsAt_dropWhile _ _

/-- Trimming a text gives the part of it between the blanks at its ends. -/
theorem trim_eq_iff {s t : List Char} : trim s = t ↔ IsTrimOf t s := by
  constructor
  · rintro rfl
    obtain ⟨after, hsplit, hafter, hlast⟩ := exists_trimEnd (trimStart s)
    refine ⟨s.takeWhile isBlank, after, ?_, fun c hc => List.mem_takeWhile_imp hc, hafter, ?_, hlast⟩
    · rw [trim, ← hsplit, trimStart, List.takeWhile_append_dropWhile]
    · -- What is left begins as the text without its leading blanks does.
      intro c hc
      refine stopsAt_dropWhile isBlank s c ?_
      rw [← trimStart, hsplit]
      rw [trim] at hc
      cases h : trimEnd (trimStart s) with
      | nil => rw [h] at hc; cases hc
      | cons d r => rw [h] at hc; exact hc
  · rintro ⟨before, after, rfl, hbefore, hafter, hfirst, hlast⟩
    cases t with
    | nil =>
        have hblank : ∀ c ∈ before ++ after, isBlank c = true := by
          intro c hc
          rcases List.mem_append.1 hc with h | h
          · exact hbefore c h
          · exact hafter c h
        have hnone : trimStart (before ++ after ++ []) = [] :=
          (takeWhile_span hblank StopsAt.nil).2
        rw [List.append_nil] at hnone
        rw [List.nil_append, trim, hnone]
        rfl
    | cons c t =>
        have hstart : trimStart (before ++ (c :: t ++ after)) = c :: t ++ after :=
          (takeWhile_span hbefore (stopsAt_cons.2 (stopsAt_cons.1 hfirst))).2
        rw [trim, hstart, trimEnd_append hafter hlast]

end Chargeback.Text
