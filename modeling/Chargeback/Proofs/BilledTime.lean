import Chargeback.Cycle.Emission
import Mathlib.Algebra.BigOperators.Group.List.Basic
import Mathlib.Tactic.Ring

/-!
# The time that a coster bills

A coster is called again and again, at any times and with any answers of the inventory. Each
cycle that succeeds prices a span of time: the first one the configured interval, every later one
the time since the last that succeeded. A cycle that fails moves nothing.

So the spans priced TELESCOPE: they sum to the interval plus the time from the first cycle that
succeeded to the last, and no time is billed twice or lost. The invariant is that the bills of a
run are consecutive (`Consecutive`): each covers the time since the one before it, and takes
some.
-/

namespace Chargeback

/-! ## Instants as numbers -/

namespace Instant

/-- The nanoseconds since the start of 1970, leap seconds left out. -/
def toNanos (t : Instant) : Int := t.seconds * Span.perSecond + t.nanos

theorem secondOfDay_cast (t : Instant) : (t.secondOfDay : Int) = t.seconds % perDay :=
  Int.toNat_of_nonneg (Int.emod_nonneg _ (by decide))

/-- Between instants that are in no leap second, the time passed is the difference of the
numbers. -/
theorem nanosSince_eq {t s : Instant} (ht : t.nanos < Span.perSecond)
    (hs : s.nanos < Span.perSecond) : t.nanosSince s = t.toNanos - s.toNanos := by
  -- The correction for leap seconds asks for an instant in one.
  have hleap (a b : Nat) : (if b < a && Span.perSecond ≤ s.nanos then (1 : Int)
      else if a < b && Span.perSecond ≤ t.nanos then -1 else 0) = 0 := by
    simp [Nat.not_le.2 ht, Nat.not_le.2 hs]
  have hdays (u : Instant) : u.seconds = u.seconds / perDay * perDay + u.secondOfDay := by
    rw [secondOfDay_cast, Int.ediv_mul_add_emod]
  rw [nanosSince, hleap, toNanos, toNanos]
  conv_rhs => rw [hdays t, hdays s]
  ring

end Instant

/-! ## Bills -/

/-- What a cycle that succeeds bills: the time at which it ran, and the span that it prices. -/
structure Bill where
  time : Instant
  span : Span
  deriving DecidableEq, Repr

namespace Bill

/-- The time to be billed since the last cycle that succeeded; before any, the interval. -/
def due (interval : Span) (last : Option Instant) (now : Instant) : Int :=
  match last with
  | none => interval.nanos
  | some last => now.toNanos - last.toNanos

/-- Each bill covers the time since the one before it, and takes some. -/
def Consecutive (interval : Span) : Option Instant → List Bill → Prop
  | _, [] => True
  | last, b :: bs =>
    (b.span.nanos : Int) = due interval last b.time ∧ 0 < b.span.nanos ∧
      Consecutive interval (some b.time) bs

/-- The time of the last bill, or an earlier time if there is none. -/
def lastTime (last : Option Instant) (bs : List Bill) : Option Instant :=
  bs.foldl (fun _ b => some b.time) last

variable {interval : Span} {bs : List Bill}

theorem lastTime_eq (last : Option Instant) (bs : List Bill) :
    lastTime last bs = (bs.getLast?.map time).or last := by
  induction bs generalizing last with
  | nil => rfl
  | cons b bs ih =>
      rw [lastTime, List.foldl_cons, ← lastTime, ih]
      cases bs with
      | nil => rfl
      | cons c cs => simp [List.getLast?_cons]

theorem Consecutive.span_pos {last : Option Instant} (h : Consecutive interval last bs) :
    ∀ b ∈ bs, 0 < b.span.nanos := by
  induction bs generalizing last with
  | nil => simp
  | cons b bs ih =>
      obtain ⟨-, hpos, hrest⟩ := h
      exact List.forall_mem_cons.2 ⟨hpos, ih hrest⟩

/-- Bills since some time are later than it. -/
theorem Consecutive.lt_time {t : Instant} (h : Consecutive interval (some t) bs) :
    ∀ b ∈ bs, t.toNanos < b.time.toNanos := by
  induction bs generalizing t with
  | nil => simp
  | cons b bs ih =>
      obtain ⟨hspan, hpos, hrest⟩ := h
      have hlt : t.toNanos < b.time.toNanos := by
        simp only [due] at hspan
        omega
      exact List.forall_mem_cons.2 ⟨hlt, fun c hc => hlt.trans (ih hrest c hc)⟩

theorem Consecutive.sorted {last : Option Instant} (h : Consecutive interval last bs) :
    bs.Pairwise fun b c => b.time.toNanos < c.time.toNanos := by
  induction bs generalizing last with
  | nil => exact .nil
  | cons b bs ih =>
      obtain ⟨-, -, hrest⟩ := h
      exact .cons hrest.lt_time (ih hrest)

/-- The spans of the bills since some time sum to the time up to the last of them. -/
theorem Consecutive.sum_since {t : Instant} (h : Consecutive interval (some t) bs) :
    (bs.map fun b => (b.span.nanos : Int)).sum =
      ((bs.getLast?.map time).getD t).toNanos - t.toNanos := by
  induction bs generalizing t with
  | nil => simp
  | cons b bs ih =>
      obtain ⟨hspan, -, hrest⟩ := h
      have hlast : ((b :: bs).getLast?.map time).getD t = (bs.getLast?.map time).getD b.time := by
        cases bs with
        | nil => rfl
        | cons c cs => simp [List.getLast?_cons]
      rw [List.map_cons, List.sum_cons, ih hrest, hlast, hspan, due]
      omega

/-- The spans of the bills of a new coster sum to the interval and the time from the first of
them to the last. -/
theorem Consecutive.sum_eq (h : Consecutive interval none bs) {first last : Bill}
    (hfirst : bs.head? = some first) (hlast : bs.getLast? = some last) :
    (bs.map fun b => (b.span.nanos : Int)).sum =
      interval.nanos + (last.time.toNanos - first.time.toNanos) := by
  cases bs with
  | nil => cases hfirst
  | cons b bs =>
      obtain ⟨hspan, -, hrest⟩ := h
      obtain rfl : b = first := by simpa using hfirst
      have hend : (bs.getLast?.map time).getD b.time = last.time := by
        cases bs with
        | nil => simpa using congrArg (Option.map time) hlast
        | cons c cs => simp [List.getLast?_cons] at hlast ⊢; rw [hlast]
      rw [List.map_cons, List.sum_cons, hrest.sum_since, hend, hspan, due]

end Bill

/-! ## Calls -/

namespace Coster

/-- What a cycle bills, if it succeeds. -/
def bill? (c : Coster) (input : CycleInput) : Option Bill :=
  match c.price input with
  | .error _ => none
  | .ok p => some ⟨input.now, p.elapsed⟩

/-- A call of a coster: what it was given, how it ended, and what it billed. -/
structure Call where
  input : CycleInput
  /-- The number of records, or why the cycle failed. -/
  result : Except CycleFault Nat
  bill : Option Bill

/-- Calls a coster again and again. -/
def emitAll : List CycleInput → Coster → List Exporter → Surroundings →
    List Call × Coster × List Exporter × Surroundings
  | [], c, es, s => ([], c, es, s)
  | input :: inputs, c, es, s =>
    let (result, next, es, s) := c.emit input es s
    let (calls, after) := emitAll inputs next es s
    (⟨input, result, c.bill? input⟩ :: calls, after)

/-- The bills of some calls, in order. -/
def bills (calls : List Call) : List Bill := calls.filterMap (·.bill)

/-- A call bills exactly if it succeeds. Then its time is that of the last cycle; else nothing of
the coster is moved. -/
theorem emit_cases (c : Coster) (input : CycleInput) (es : List Exporter) (s : Surroundings) :
    (c.bill? input = none ∧ (∃ fault, (c.emit input es s).1 = .error fault) ∧
        (c.emit input es s).2.1 = { c with phase := .idle }) ∨
      ∃ b, c.bill? input = some b ∧ (∃ n, (c.emit input es s).1 = .ok n) ∧
        (c.emit input es s).2.1 = { c with phase := .idle, lastRun := some b.time } := by
  have hphase : { c with phase := .calculating }.price input = c.price input := rfl
  cases h : c.price input with
  | error fault =>
      refine .inl ⟨by rw [bill?, h], ⟨fault, ?_⟩, ?_⟩ <;> rw [emit, cycle, hphase, h]
  | ok p =>
      refine .inr ⟨⟨input.now, p.elapsed⟩, by rw [bill?, h], ⟨p.records.length, ?_⟩, ?_⟩ <;>
        rw [emit, cycle, hphase, h]

/-- A cycle that succeeds prices the time since the last one. -/
theorem elapsed_of_price {c : Coster} {input : CycleInput} {p : Priced}
    (h : c.price input = .ok p) : c.elapsed input.now = .ok p.elapsed := by
  obtain ⟨now, workloads, nodes⟩ := input
  cases workloads with
  | error cause => cases h
  | ok workloads =>
      cases nodes with
      | error cause => cases h
      | ok nodes =>
          cases helapsed : c.elapsed now with
          | error fault => simp [price, Except.mapError, helapsed, bind, Except.bind] at h
          | ok span =>
              simp only [price, Except.mapError, helapsed, bind, Except.bind, pure, Except.pure,
                Except.ok.injEq] at h
              rw [← h]

/-- A bill covers the time since the last cycle, and takes some. -/
theorem bill?_eq_some {c : Coster} {input : CycleInput} {b : Bill}
    (hinterval : 0 < c.interval.nanos) (hnow : input.now.nanos < Span.perSecond)
    (hlast : ∀ t ∈ c.lastRun, t.nanos < Span.perSecond) (h : c.bill? input = some b) :
    b.time = input.now ∧ (b.span.nanos : Int) = Bill.due c.interval c.lastRun b.time ∧
      0 < b.span.nanos := by
  cases hprice : c.price input with
  | error fault => simp [bill?, hprice] at h
  | ok p =>
      obtain rfl : ⟨input.now, p.elapsed⟩ = b := by simpa [bill?, hprice] using h
      have helapsed := elapsed_of_price hprice
      refine ⟨rfl, ?_⟩
      cases hrun : c.lastRun with
      | none =>
          have hspan : c.interval = p.elapsed := by simpa [elapsed, hrun] using helapsed
          rw [← hspan]
          exact ⟨rfl, hinterval⟩
      | some last =>
          have hsince := Instant.nanosSince_eq hnow (hlast last hrun)
          simp only [elapsed, hrun] at helapsed
          split at helapsed
          · cases helapsed
          · injection helapsed with hspan
            rw [← hspan, Bill.due]
            simp only
            omega

/-! ## A run -/

/-- Whatever the calls, the bills of a run are consecutive, and the time of the last of them is that
of the last cycle. -/
theorem bills_emitAll (inputs : List CycleInput) {c : Coster} (hinterval : 0 < c.interval.nanos)
    (hnow : ∀ input ∈ inputs, input.now.nanos < Span.perSecond)
    (hlast : ∀ t ∈ c.lastRun, t.nanos < Span.perSecond) (es : List Exporter) (s : Surroundings) :
    Bill.Consecutive c.interval c.lastRun (bills (emitAll inputs c es s).1) ∧
      (emitAll inputs c es s).2.1.lastRun =
        Bill.lastTime c.lastRun (bills (emitAll inputs c es s).1) := by
  induction inputs generalizing c es s with
  | nil => exact ⟨trivial, rfl⟩
  | cons input inputs ih =>
      obtain ⟨hnow, hrest⟩ := List.forall_mem_cons.1 hnow
      -- A cycle that fails leaves the last time as it was; any other sets it to that of its bill.
      rcases emit_cases c input es s with ⟨hbill, -, hnext⟩ | ⟨b, hbill, -, hnext⟩
      · simpa [emitAll, bills, hbill, hnext] using
          ih (c := { c with phase := .idle }) hinterval hrest hlast _ _
      · obtain ⟨htime, hspan, hpos⟩ := bill?_eq_some hinterval hnow hlast hbill
        have hafter : ∀ t ∈ some b.time, t.nanos < Span.perSecond := by
          rintro t ⟨⟩
          exact htime ▸ hnow
        obtain ⟨hchain, hrun⟩ :=
          ih (c := { c with phase := .idle, lastRun := some b.time }) hinterval hrest hafter
            (c.emit input es s).2.2.1 (c.emit input es s).2.2.2
        simp only [emitAll, hnext, bills, List.filterMap_cons, hbill]
        exact ⟨⟨hspan, hpos, hchain⟩, hrun⟩

theorem time_of_bill? {c : Coster} {input : CycleInput} :
    ∀ b ∈ c.bill? input, b.time = input.now := by
  rintro b hb
  cases h : c.price input with
  | error fault => simp [bill?, h] at hb
  | ok p =>
      obtain rfl : ⟨input.now, p.elapsed⟩ = b := by simpa [bill?, h] using hb
      rfl

theorem input_emitAll (inputs : List CycleInput) (c : Coster) (es : List Exporter)
    (s : Surroundings) : (emitAll inputs c es s).1.map Call.input = inputs := by
  induction inputs generalizing c es s with
  | nil => rfl
  | cons input inputs ih => exact congrArg (input :: ·) (ih _ _ _)

/-- A call succeeds if and only if it bills, and then it bills for its own time. -/
theorem isOk_emitAll (inputs : List CycleInput) (c : Coster) (es : List Exporter)
    (s : Surroundings) :
    ∀ call ∈ (emitAll inputs c es s).1,
      call.result.isOk = call.bill.isSome ∧ ∀ b ∈ call.bill, b.time = call.input.now := by
  induction inputs generalizing c es s with
  | nil => simp [emitAll]
  | cons input inputs ih =>
      have hfirst : (c.emit input es s).1.isOk = (c.bill? input).isSome := by
        rcases emit_cases c input es s with ⟨hbill, ⟨fault, hout⟩, -⟩ | ⟨b, hbill, ⟨n, hout⟩, -⟩
        · rw [hbill, hout]
          rfl
        · rw [hbill, hout]
          rfl
      exact List.forall_mem_cons.2 ⟨⟨hfirst, time_of_bill?⟩, ih _ _ _⟩

/-- **Billed time telescopes.** Whatever the times of the calls of a new coster and the answers of
the inventory, the cycles that succeed are in strict order of time, each prices some time, the last
of them is the last cycle that the coster knows, and the spans priced sum to one interval and the
time from the first of them to the last, to the nanosecond. -/
theorem billed_time_telescopes (c : Coster) (hnew : c.lastRun = none)
    (hinterval : 0 < c.interval.nanos) (inputs : List CycleInput)
    (hnow : ∀ input ∈ inputs, input.now.nanos < Span.perSecond) (es : List Exporter)
    (s : Surroundings) :
    let run := emitAll inputs c es s
    run.1.map Call.input = inputs ∧
      (∀ call ∈ run.1,
        call.result.isOk = call.bill.isSome ∧ ∀ b ∈ call.bill, b.time = call.input.now) ∧
      (bills run.1).Pairwise (fun b b' => b.time.toNanos < b'.time.toNanos) ∧
      (∀ b ∈ bills run.1, 0 < b.span.nanos) ∧
      run.2.1.lastRun = (bills run.1).getLast?.map (·.time) ∧
      ∀ first ∈ (bills run.1).head?, ∀ last ∈ (bills run.1).getLast?,
        ((bills run.1).map fun b => (b.span.nanos : Int)).sum =
          c.interval.nanos + (last.time.toNanos - first.time.toNanos) := by
  intro run
  have hlast : ∀ t ∈ c.lastRun, t.nanos < Span.perSecond := by simp [hnew]
  obtain ⟨hchain, hrun⟩ := bills_emitAll inputs hinterval hnow hlast es s
  rw [hnew] at hchain
  rw [hnew, Bill.lastTime_eq, Option.or_none] at hrun
  exact ⟨input_emitAll inputs c es s, isOk_emitAll inputs c es s, hchain.sorted, hchain.span_pos,
    hrun, fun first hfirst last hl => hchain.sum_eq hfirst hl⟩

/-- A coster that bills five minutes at first. -/
def fiveMinutely : Coster where
  interval := .ofSeconds 300
  table := {}
  mapping := {}
  strategies := []
  filters := []

/-- A call in the second given, at which nothing runs. -/
def callAt (seconds : Int) : CycleInput where
  now := ⟨seconds, 0⟩
  workloads := .ok []
  nodes := .ok []

/-- A listing that fails, a cycle, a clock that runs back, and a cycle seven minutes after the
other: twelve minutes are billed. -/
theorem billed_twelve_minutes :
    let s : Surroundings := ⟨.fresh, .silent "" 0 [], ⟨"", 0, true, 200, [], ⟨0⟩⟩, 0, 0⟩
    let inputs :=
      [{ callAt 500 with nodes := .error "timeout" }, callAt 1000, callAt 900, callAt 1420]
    let run := emitAll inputs fiveMinutely [] s
    fiveMinutely.lastRun = none ∧ 0 < fiveMinutely.interval.nanos ∧
      (∀ input ∈ inputs, input.now.nanos < Span.perSecond) ∧
      run.2.1.lastRun = some ⟨1420, 0⟩ ∧
      ((bills run.1).map fun b => (b.span.nanos : Int)).sum = (Span.ofSeconds 720).nanos := by
  intro s inputs run
  have hinterval : 0 < fiveMinutely.interval.nanos := by decide
  have hnow : ∀ input ∈ inputs, input.now.nanos < Span.perSecond := by decide
  obtain ⟨-, -, -, -, hrun, hsum⟩ :=
    billed_time_telescopes fiveMinutely rfl hinterval inputs hnow [] s
  exact ⟨rfl, hinterval, hnow, hrun.trans (by decide),
    (hsum ⟨⟨1000, 0⟩, .ofSeconds 300⟩ (by decide) ⟨⟨1420, 0⟩, .ofSeconds 420⟩ (by decide)).trans
      (by decide)⟩

end Coster

end Chargeback
