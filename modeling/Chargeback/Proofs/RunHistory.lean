import Chargeback.Proofs.Counting
import Mathlib.Data.List.Perm.Basic

/-!
# The history of a run

A run is a list of events, each of which makes a step of a state or cannot happen in it. What
happened in a run is read off its steps: its HISTORY is what is observed of each of them, one after
the other (`observed`). In particular the history of a list in the state is everything that was
appended to it, in order, whether it is still there or was taken out again (`appended`).

What one step says about its observations and its states, a run says about its histories. There
is one such law for lines, where nothing passes anything else (`Kept.line`), one for lists that only
grow (`Kept.grown`), one for places where order does not count (`Kept.perm`), one for what is true of
everything observed (`Kept.each`), and one for counters (`Kept.count`). What the events bring may be
carried on by the states in any way (`runs?_carried`).

A state may have another inside it and do nothing but let that make its steps. Then its runs are
runs of the state inside (`runs?_inside`, `runs?_through`). A state that uses up work with every step
comes to rest (`comes_to_rest`).
-/

namespace Chargeback

/-! ## Lists that a step changes at their ends -/

section Appended

variable {α : Type} {l l' : List α}

/-- What a step has put at the end of a list, if it has not taken anything out of it. -/
def appended (old new : List α) : List α := new.drop old.length

@[simp] theorem appended_self (l : List α) : appended l l = [] := List.drop_length

@[simp] theorem appended_append (l k : List α) : appended l (l ++ k) = k := List.drop_left

@[simp] theorem appended_tail (a : α) (l : List α) : appended (a :: l) l = [] :=
  List.drop_eq_nil_of_le (Nat.le_succ _)

@[simp] theorem appended_eraseIdx (l : List α) (place : Nat) :
    appended l (l.eraseIdx place) = [] :=
  List.drop_eq_nil_of_le (List.length_eraseIdx_le l place)

end Appended

/-! ## Batches that failed -/

/-- The records of the batches that failed, of some that were attempted. -/
def failedRecords (attempted : List (List CostRecord × Bool)) : List CostRecord :=
  ((attempted.filter fun p => !p.2).map (·.1)).flatten

theorem failedRecords_append (as bs : List (List CostRecord × Bool)) :
    failedRecords (as ++ bs) = failedRecords as ++ failedRecords bs := by
  simp [failedRecords]

/-- What a single attempt adds to the records that failed. -/
theorem failedRecords_singleton (b : List CostRecord) (succeeded : Bool) :
    failedRecords [(b, succeeded)] = if succeeded then [] else b := by
  cases succeeded with
  | true => rfl
  | false => simp [failedRecords]

/-! ## Runs -/

section Run

variable {ε σ α β : Type} {step? : ε → σ → Option σ} {es es' : List ε} {s s' s'' : σ}

/-- What a list of events makes of a state; none if one of them cannot happen. -/
def runs? (step? : ε → σ → Option σ) (es : List ε) (s : σ) : Option σ :=
  es.foldlM (fun s e => step? e s) s

/-- What is observed of the steps of a run, one after the other. -/
def observed (step? : ε → σ → Option σ) (f : σ → ε → σ → List α) : List ε → σ → List α
  | [], _ => []
  | e :: es, s => match step? e s with
    | some s' => f s e s' ++ observed step? f es s'
    | none => []

theorem runs?_cons {e : ε} (h : runs? step? (e :: es) s = some s'') :
    ∃ s', step? e s = some s' ∧ runs? step? es s' = some s'' := Option.bind_eq_some_iff.1 h

theorem runs?_step {e : ε} (hstep : step? e s = some s') (h : runs? step? es s' = some s'') :
    runs? step? (e :: es) s = some s'' := Option.bind_eq_some_iff.2 ⟨s', hstep, h⟩

theorem runs?_append (h : runs? step? es s = some s') (h' : runs? step? es' s' = some s'') :
    runs? step? (es ++ es') s = some s'' := by
  rw [runs?, List.foldlM_append]
  exact Option.bind_eq_some_iff.2 ⟨s', h, h'⟩

theorem observed_cons {f : σ → ε → σ → List α} {e : ε} (h : step? e s = some s') :
    observed step? f (e :: es) s = f s e s' ++ observed step? f es s' := by
  rw [observed, h]

/-- What is made of every observation may be made of the whole history. -/
theorem observed_map_list (φ : List α → List β) (hnil : φ [] = [])
    (happend : ∀ as bs, φ (as ++ bs) = φ as ++ φ bs) (f : σ → ε → σ → List α) (es : List ε)
    (s : σ) :
    observed step? (fun s e s' => φ (f s e s')) es s = φ (observed step? f es s) := by
  induction es generalizing s with
  | nil => exact hnil.symm
  | cons e es ih =>
      cases hstep : step? e s with
      | none => rw [observed, observed, hstep, hnil]
      | some s' => rw [observed_cons hstep, observed_cons hstep, ih, happend]

/-- What is observed of the events alone does not depend on the states. -/
theorem observed_events {f : σ → ε → σ → List α} {g : ε → List α}
    (hevent : ∀ e s s', step? e s = some s' → f s e s' = g e) (h : runs? step? es s = some s') :
    observed step? f es s = es.flatMap g := by
  induction es generalizing s with
  | nil => rfl
  | cons e es ih =>
      obtain ⟨next, hstep, hrest⟩ := runs?_cons h
      rw [observed_cons hstep, hevent e s next hstep, ih hrest, List.flatMap_cons]

/-- Two histories observed together are those two, but for the order. -/
theorem observed_append_perm (f g : σ → ε → σ → List α) (es : List ε) (s : σ) :
    (observed step? (fun s e s' => f s e s' ++ g s e s') es s).Perm
      (observed step? f es s ++ observed step? g es s) := by
  induction es generalizing s with
  | nil => exact .refl _
  | cons e es ih =>
      cases hstep : step? e s with
      | none => simp [observed, hstep]
      | some s' =>
          rw [observed_cons hstep, observed_cons hstep, observed_cons hstep, List.append_assoc,
            List.append_assoc]
          refine List.Perm.append_left _ ((List.Perm.append_left _ (ih s')).trans ?_)
          rw [← List.append_assoc, ← List.append_assoc]
          exact List.perm_append_comm.append_right _

/-! ## What a step says, a run says -/

/-- Every step keeps a property of states. -/
def Kept (step? : ε → σ → Option σ) (P : σ → Prop) : Prop :=
  ∀ e s s', P s → step? e s = some s' → P s'

namespace Kept

variable {P : σ → Prop}

theorem run (hP : Kept step? P) (hs : P s) (hrun : runs? step? es s = some s') : P s' := by
  induction es generalizing s with
  | nil =>
      cases hrun
      exact hs
  | cons e es ih =>
      obtain ⟨next, hstep, hrest⟩ := runs?_cons hrun
      exact ih (hP e s next hs hstep) hrest

/-- What comes out of a line, followed by what is in it, is what was in it, followed by what went
into it. -/
theorem line (hP : Kept step? P) (held : σ → List α) {into out : σ → ε → σ → List α}
    (hline : ∀ e s s', P s → step? e s = some s' →
      out s e s' ++ held s' = held s ++ into s e s')
    (hs : P s) (hrun : runs? step? es s = some s') :
    observed step? out es s ++ held s' = held s ++ observed step? into es s := by
  induction es generalizing s with
  | nil =>
      cases hrun
      exact (List.append_nil _).symm
  | cons e es ih =>
      obtain ⟨next, hstep, hrest⟩ := runs?_cons hrun
      rw [observed_cons hstep, observed_cons hstep, List.append_assoc,
        ih (hP e s next hs hstep) hrest, ← List.append_assoc, hline e s next hs hstep,
        List.append_assoc]

/-- What is only ever put at the end of a list is there, after what was there before. -/
theorem grown (hP : Kept step? P) (held : σ → List α) {into : σ → ε → σ → List α}
    (hgrown : ∀ e s s', P s → step? e s = some s' → held s' = held s ++ into s e s')
    (hs : P s) (hrun : runs? step? es s = some s') :
    held s' = held s ++ observed step? into es s := by
  induction es generalizing s with
  | nil =>
      cases hrun
      exact (List.append_nil _).symm
  | cons e es ih =>
      obtain ⟨next, hstep, hrest⟩ := runs?_cons hrun
      rw [observed_cons hstep, ← List.append_assoc, ← hgrown e s next hs hstep]
      exact ih (hP e s next hs hstep) hrest

/-- Where order does not count, what came out and what is there is what was there and what went
in. -/
theorem perm (hP : Kept step? P) (held : σ → List α) {into out : σ → ε → σ → List α}
    (hperm : ∀ e s s', P s → step? e s = some s' →
      (held s' ++ out s e s').Perm (held s ++ into s e s'))
    (hs : P s) (hrun : runs? step? es s = some s') :
    (held s' ++ observed step? out es s).Perm (held s ++ observed step? into es s) := by
  induction es generalizing s with
  | nil =>
      cases hrun
      exact .refl _
  | cons e es ih =>
      obtain ⟨next, hstep, hrest⟩ := runs?_cons hrun
      have hfirst := hperm e s next hs hstep
      have hothers := ih (hP e s next hs hstep) hrest
      rw [observed_cons hstep, observed_cons hstep]
      have hswap (as bs cs : List α) : (as ++ (bs ++ cs)).Perm (bs ++ (as ++ cs)) := by
        rw [← List.append_assoc, ← List.append_assoc]
        exact List.perm_append_comm.append_right _
      have hmiddle : (out s e next ++ (held next ++ observed step? into es next)).Perm
          (held s ++ (into s e next ++ observed step? into es next)) := by
        refine (hswap _ _ _).trans ?_
        rw [← List.append_assoc, ← List.append_assoc]
        exact hfirst.append_right _
      exact (hswap _ _ _).trans ((hothers.append_left _).trans hmiddle)

/-- What is true of everything that a step shows is true of everything in the history. -/
theorem each (hP : Kept step? P) {f : σ → ε → σ → List α} {Q : α → Prop}
    (hstep : ∀ e s s', P s → step? e s = some s' → ∀ a ∈ f s e s', Q a)
    (hs : P s) (hrun : runs? step? es s = some s') : ∀ a ∈ observed step? f es s, Q a := by
  induction es generalizing s with
  | nil => simp [observed]
  | cons e es ih =>
      obtain ⟨next, hnext, hrest⟩ := runs?_cons hrun
      rw [observed_cons hnext]
      intro a ha
      rcases List.mem_append.1 ha with ha | ha
      · exact hstep e s next hs hnext a ha
      · exact ih (hP e s next hs hnext) hrest a ha

/-- A counter that every step raises by the number of what it shows is raised by the number of what
the history shows. -/
theorem count (hP : Kept step? P) (counter : σ → Binary64) {f : σ → ε → σ → List α}
    (hcount : ∀ e s s', P s → step? e s = some s' →
      GrownBy (f s e s').length (counter s) (counter s'))
    (hs : P s) (hrun : runs? step? es s = some s') :
    GrownBy (observed step? f es s).length (counter s) (counter s') := by
  induction es generalizing s with
  | nil =>
      cases hrun
      exact .refl _
  | cons e es ih =>
      obtain ⟨next, hstep, hrest⟩ := runs?_cons hrun
      rw [observed_cons hstep, List.length_append]
      exact (hcount e s next hs hstep).trans (ih (hP e s next hs hstep) hrest)

end Kept

/-- If every step carries on what a state carries, with what its event brings, so does a run with all
that its events bring. -/
theorem runs?_carried {Carries : List α → σ → Prop} (brings : List ε → List α)
    (hnil : brings [] = []) (hcons : ∀ e es, brings (e :: es) = brings [e] ++ brings es)
    (hstep : ∀ as e s s', Carries as s → step? e s = some s' → Carries (as ++ brings [e]) s')
    {as : List α} (hs : Carries as s) (hrun : runs? step? es s = some s') :
    Carries (as ++ brings es) s' := by
  induction es generalizing as s with
  | nil =>
      cases hrun
      rwa [hnil, List.append_nil]
  | cons e es ih =>
      obtain ⟨next, hfirst, hothers⟩ := runs?_cons hrun
      rw [hcons, ← List.append_assoc]
      exact ih (hstep as e s next hs hfirst) hothers

end Run

/-! ## A run inside a state -/

section Inside

variable {ε σ τ : Type} {step? : ε → σ → Option σ} {Around : τ → σ → Prop} {es : List ε}
  {s : σ} {t t' : τ}

/-- If every step of a state is a step of the state inside it, so is every run. -/
theorem runs?_inside {outer? : ε → τ → Option τ}
    (hstep : ∀ e t t' s, Around t s → outer? e t = some t' →
      ∃ s', step? e s = some s' ∧ Around t' s')
    (hts : Around t s) (hrun : runs? outer? es t = some t') :
    ∃ s', runs? step? es s = some s' ∧ Around t' s' := by
  induction es generalizing t s with
  | nil =>
      cases hrun
      exact ⟨s, rfl, hts⟩
  | cons e es ih =>
      obtain ⟨next, hfirst, hothers⟩ := runs?_cons hrun
      obtain ⟨s₁, hstep₁, hnext⟩ := hstep e t next s hts hfirst
      obtain ⟨s', hrest, ht'⟩ := ih hnext hothers
      exact ⟨s', Option.bind_eq_some_iff.2 ⟨s₁, hstep₁, hrest⟩, ht'⟩

/-- If every step of a state is some steps of the state inside it, a run is all of these, one after
the other. -/
theorem runs?_through {ω : Type} {outer? : ω → τ → Option τ} {inner : τ → ω → List ε} {os : List ω}
    (hstep : ∀ o t t' s, Around t s → outer? o t = some t' →
      ∃ s', runs? step? (inner t o) s = some s' ∧ Around t' s')
    (hts : Around t s) (hrun : runs? outer? os t = some t') :
    ∃ s', runs? step? (observed outer? (fun t o _ => inner t o) os t) s = some s' ∧
      Around t' s' := by
  induction os generalizing t s with
  | nil =>
      cases hrun
      exact ⟨s, rfl, hts⟩
  | cons o os ih =>
      obtain ⟨next, hfirst, hothers⟩ := runs?_cons hrun
      obtain ⟨s₁, hstep₁, hnext⟩ := hstep o t next s hts hfirst
      obtain ⟨s', hrest, ht'⟩ := ih hnext hothers
      rw [observed_cons hfirst]
      exact ⟨s', runs?_append hstep₁ hrest, ht'⟩

end Inside

/-! ## A run left to itself -/

section Rest

variable {ε σ : Type} {step? : ε → σ → Option σ} {s : σ} {P : σ → Prop} {Quiet : ε → Prop}

/-- A state left to itself long enough comes to rest, if each of its steps is that of a quiet event
and uses up work. -/
theorem comes_to_rest (next? : σ → Option σ) (iterate : Nat → σ → σ) (work : σ → Nat)
    (hzero : ∀ s, iterate 0 s = s)
    (hsucc : ∀ n s, iterate (n + 1) s = (next? s).elim s (iterate n))
    (hnext : ∀ s s', P s → next? s = some s' →
      P s' ∧ work s' < work s ∧ ∃ e, Quiet e ∧ step? e s = some s')
    (hs : P s) {n : Nat} (hn : work s ≤ n) :
    ∃ es, (∀ e ∈ es, Quiet e) ∧ runs? step? es s = some (iterate n s) ∧
      next? (iterate n s) = none := by
  induction n generalizing s with
  | zero =>
      rw [hzero]
      cases hstep : next? s with
      | none => exact ⟨[], by simp, rfl, rfl⟩
      | some s' =>
          obtain ⟨-, hless, -⟩ := hnext s s' hs hstep
          omega
  | succ n ih =>
      rw [hsucc]
      cases hstep : next? s with
      | none => exact ⟨[], by simp, rfl, hstep⟩
      | some s' =>
          obtain ⟨hs', hless, e, hquiet, he⟩ := hnext s s' hs hstep
          obtain ⟨es, hquiets, hrest, hidle⟩ := ih hs' (by omega)
          exact ⟨e :: es, List.forall_mem_cons.2 ⟨hquiet, hquiets⟩, runs?_step he hrest, hidle⟩

end Rest

end Chargeback
