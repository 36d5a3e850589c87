import Chargeback.Agent.TaskGroup
import Chargeback.Proofs.RunHistory

/-!
# How a group of tasks ends

A run of a group is the order in which its tasks end (`ended`). Whatever the order, three things are
true of the group after any part of it. The tasks that ended and those that run are the tasks that
were spawned. The token is cancelled from the first end on. And the fault that is kept is that of the
first task, in this order, that has one: a later fault finds the place taken (`Account`).

The outcome is read off the group when nothing runs any more, and so it is that of the first fault in
the order of the ends, or none (`outcome_of_ends`). That nothing is left running is the work of the
token: once it is cancelled, the tasks that still run can end in every order (`exists_run_of_perm`).
-/

namespace Chargeback

namespace Task

/-- What a group says about a task that ended with a fault: the name of the task, which is lost if
the task broke down, and then what led to the fault within the task, or what the runtime reports of
the break-down. -/
def Reports (t : Task) (causes : Causes) : Prop :=
  (∃ inner, t.ends = .failed inner ∧ causes = ("task " ++ t.name ++ " failed") :: inner) ∨
    ∃ report, t.ends = .panicked report ∧ causes = ["task unknown failed", abortion report]

theorem fault?_eq_none_iff {t : Task} : t.fault? = none ↔ t.ends = .ok := by
  obtain ⟨name, waits, ends⟩ := t
  cases ends <;> simp [fault?]

theorem exists_fault?_iff {t : Task} {causes : Causes} :
    (∃ fault, t.fault? = some fault ∧ fault.causes = causes) ↔ t.Reports causes := by
  obtain ⟨name, waits, ends⟩ := t
  cases ends with
  | ok => simp [fault?, Reports]
  | failed inner => simp [fault?, Reports, TaskFault.causes, eq_comm]
  | panicked report => simp [fault?, Reports, TaskFault.causes, eq_comm]

end Task

namespace TaskGroup

variable {g g' : TaskGroup} {place : Nat} {places : List Nat}

/-! ## One end -/

/-- A task ends if it runs and need not wait any longer. Then the token is cancelled, and a fault of
the task is kept if it is the first. -/
theorem end?_eq_some_iff :
    g.end? place = some g' ↔ ∃ t, g.running[place]? = some t ∧ g.canEnd t = true ∧
      g' = ⟨true, g.running.eraseIdx place, g.firstFault.or t.fault?⟩ := by
  unfold end?
  cases g.running[place]? with
  | none => simp
  | some t =>
      by_cases hcan : g.canEnd t = true
      · simp only [hcan, ite_true, Option.some.injEq, exists_eq_left', true_and]
        exact eq_comm
      · simp [hcan]

theorem canEnd_of_isCancelled (h : g.isCancelled = true) (t : Task) : g.canEnd t = true := by
  simp [canEnd, h]

/-- Taking a task out of a list leaves the others. -/
theorem cons_eraseIdx_perm {l : List Task} {t : Task} (h : l[place]? = some t) :
    (t :: l.eraseIdx place).Perm l := by
  obtain ⟨hlt, rfl⟩ := List.getElem?_eq_some_iff.1 h
  exact List.getElem_cons_eraseIdx_perm hlt

/-! ## Runs -/

/-- The tasks that end in a run, in the order in which they do. -/
def ended (places : List Nat) (g : TaskGroup) : List Task :=
  observed end? (fun g place _ => g.running[place]?.toList) places g

theorem run?_cons (h : g.run? (place :: places) = some g') :
    ∃ t next, g.running[place]? = some t ∧ g.end? place = some next ∧
      next.run? places = some g' ∧ ended (place :: places) g = t :: ended places next := by
  obtain ⟨next, hend, hrest⟩ : ∃ next, g.end? place = some next ∧
      runs? end? places next = some g' := runs?_cons h
  obtain ⟨t, hplace, -, -⟩ := end?_eq_some_iff.1 hend
  refine ⟨t, next, hplace, hend, hrest, ?_⟩
  rw [ended, observed_cons hend, hplace]
  rfl

/-- What a run makes of a group, in terms of the tasks that ended in it. -/
structure Account (g : TaskGroup) (order : List Task) (g' : TaskGroup) : Prop where
  tasks : (order ++ g'.running).Perm g.running
  cancelled : g'.isCancelled = true ↔ g.isCancelled = true ∨ order ≠ []
  fault : g'.firstFault = g.firstFault.or (order.findSome? Task.fault?)

/-- Every run keeps the account. -/
theorem account_of_run (hrun : g.run? places = some g') : Account g (ended places g) g' := by
  induction places generalizing g with
  | nil =>
      cases hrun
      exact {
        tasks := .refl _
        cancelled := by simp [ended, observed]
        fault := by simp [ended, observed] }
  | cons place places ih =>
      obtain ⟨t, next, hplace, hend, hrest, horder⟩ := run?_cons hrun
      obtain ⟨u, hplace', -, rfl⟩ := end?_eq_some_iff.1 hend
      obtain rfl : t = u := Option.some.inj (hplace.symm.trans hplace')
      have hothers := ih hrest
      rw [horder]
      exact {
        tasks := (hothers.tasks.cons t).trans (cons_eraseIdx_perm hplace)
        cancelled := by simp [hothers.cancelled]
        fault := by
          rw [hothers.fault, Option.or_assoc, List.findSome?_cons]
          cases t.fault? <;> rfl }

/-- A task that runs and need not wait ends next. -/
theorem exists_end {t : Task} (ht : t ∈ g.running) (hcan : g.canEnd t = true) :
    ∃ place g', g.running[place]? = some t ∧ g.end? place = some g' ∧ g'.isCancelled = true ∧
      (t :: g'.running).Perm g.running := by
  obtain ⟨place, hplace⟩ := List.mem_iff_getElem?.1 ht
  exact ⟨place, _, hplace, end?_eq_some_iff.2 ⟨t, hplace, hcan, rfl⟩, rfl,
    cons_eraseIdx_perm hplace⟩

/-- Every order of some of the tasks that run happens, if the first of them can end. -/
theorem exists_run_of_perm {order rest : List Task} (hperm : (order ++ rest).Perm g.running)
    (hfirst : ∀ t ∈ order.head?, g.canEnd t = true) :
    ∃ places g', g.run? places = some g' ∧ ended places g = order ∧ rest.Perm g'.running := by
  induction order generalizing g with
  | nil => exact ⟨[], g, rfl, rfl, hperm⟩
  | cons t order ih =>
      have ht : t ∈ g.running := hperm.subset List.mem_cons_self
      obtain ⟨place, next, hplace, hend, hcancelled, hothers⟩ := exists_end ht (hfirst t rfl)
      obtain ⟨places, g', hrun, horder, hrest⟩ :=
        ih (List.Perm.cons_inv (hperm.trans hothers.symm))
          fun u _ => canEnd_of_isCancelled hcancelled u
      have hsteps : runs? end? (place :: places) g = some g' := runs?_step hend hrun
      refine ⟨place :: places, g', hsteps, ?_, hrest⟩
      rw [ended, observed_cons hend, hplace, ← ended, horder]
      rfl

/-! ## The outcome -/

theorem outcome?_isSome_iff : g.outcome?.isSome = true ↔ g.running = [] := by
  cases h : g.running <;> simp [outcome?, h]

theorem outcome?_eq_ok_iff :
    g.outcome? = some (.ok ()) ↔ g.running = [] ∧ g.firstFault = none := by
  cases h : g.running <;> cases h' : g.firstFault <;> simp [outcome?, h, h']

theorem outcome?_eq_error_iff {fault : TaskFault} :
    g.outcome? = some (.error fault) ↔ g.running = [] ∧ g.firstFault = some fault := by
  cases h : g.running <;> cases h' : g.firstFault <;> simp [outcome?, h, h']

/-- No fault among some tasks, all of which succeeded. -/
theorem findSome?_fault?_eq_none_iff {order : List Task} :
    order.findSome? Task.fault? = none ↔ ∀ t ∈ order, t.ends = .ok := by
  simp [List.findSome?_eq_none_iff, Task.fault?_eq_none_iff]

/-- The first fault among some tasks: all before it succeeded. -/
theorem exists_findSome?_fault?_iff {order : List Task} {causes : Causes} :
    (∃ fault, order.findSome? Task.fault? = some fault ∧ fault.causes = causes) ↔
      ∃ before t after, order = before ++ t :: after ∧ (∀ u ∈ before, u.ends = .ok) ∧
        t.Reports causes := by
  simp only [List.findSome?_eq_some_iff, Task.fault?_eq_none_iff, ← Task.exists_fault?_iff]
  constructor
  · rintro ⟨fault, ⟨before, t, after, horder, hfault, hbefore⟩, hcauses⟩
    exact ⟨before, t, after, horder, hbefore, fault, hfault, hcauses⟩
  · rintro ⟨before, t, after, horder, hbefore, fault, hfault, hcauses⟩
    exact ⟨fault, ⟨before, t, after, horder, hfault, hbefore⟩, hcauses⟩

/-- **The first fault counts, and nothing is left behind.** Whatever the tasks of a group, and in
whatever order they end: the token is cancelled from the first end on, however that task ended, and
then each of the other tasks can end next. The group has an outcome exactly when all tasks have
ended. It succeeds if and only if all of them did, and otherwise its fault is that of the task that
was the first in the order of the ends to have one. -/
theorem outcome_of_ends {isCancelled : Bool} {tasks : List Task}
    (hrun : (spawn isCancelled tasks).run? places = some g) :
    let order := ended places (spawn isCancelled tasks)
    (order ++ g.running).Perm tasks ∧
      (g.isCancelled = true ↔ isCancelled = true ∨ order ≠ []) ∧
      (order ≠ [] → ∀ others, others.Perm g.running → ∃ places g',
        g.run? places = some g' ∧ ended places g = others ∧ g'.running = []) ∧
      (g.outcome?.isSome = true ↔ order.Perm tasks) ∧
      (g.outcome? = some (.ok ()) ↔ order.Perm tasks ∧ ∀ t ∈ tasks, t.ends = .ok) ∧
      ∀ causes, (∃ fault, g.outcome? = some (.error fault) ∧ fault.causes = causes) ↔
        order.Perm tasks ∧ ∃ before t after, order = before ++ t :: after ∧
          (∀ u ∈ before, u.ends = .ok) ∧ t.Reports causes := by
  intro order
  obtain ⟨htasks, hcancelled, hfault⟩ := account_of_run hrun
  change (order ++ g.running).Perm tasks at htasks
  change g.isCancelled = true ↔ isCancelled = true ∨ order ≠ [] at hcancelled
  change g.firstFault = order.findSome? Task.fault? at hfault
  have hall : g.running = [] ↔ order.Perm tasks := by
    constructor
    · intro hnone
      simpa [hnone] using htasks
    · intro hperm
      have hlength := htasks.length_eq
      rw [List.length_append, hperm.length_eq] at hlength
      exact List.eq_nil_of_length_eq_zero (by omega)
  refine ⟨htasks, hcancelled, ?_, ?_, ?_, ?_⟩
  · intro hsome others hothers
    have hperm : (others ++ []).Perm g.running := by simpa using hothers
    obtain ⟨places, g', hrun, horder, hrest⟩ := exists_run_of_perm hperm
      fun t _ => canEnd_of_isCancelled (hcancelled.2 (.inr hsome)) t
    exact ⟨places, g', hrun, horder, hrest.nil_eq.symm⟩
  · rw [outcome?_isSome_iff, hall]
  · rw [outcome?_eq_ok_iff, hall, hfault, findSome?_fault?_eq_none_iff]
    exact and_congr_right fun hperm => forall_congr' fun t => by rw [hperm.mem_iff]
  · intro causes
    rw [← exists_findSome?_fault?_iff, ← hall, ← hfault]
    simp only [outcome?_eq_error_iff, and_assoc, exists_and_left]

/-- A task that waits for the token, one that breaks down and one that fails. -/
def threeTasks : List Task :=
  [⟨"waiter", true, .ok⟩, ⟨"breaker", false, .panicked "task 3 panicked"⟩,
    ⟨"failer", false, .failed ["boom"]⟩]

/-- The one that fails ends first, then the one that waited, and the one that breaks down last: the
fault is that of the first. -/
theorem outcome_of_ends_fails_first :
    ∃ g, (spawn false threeTasks).run? [2, 0, 0] = some g ∧
      ∃ fault, g.outcome? = some (.error fault) ∧ fault.causes = ["task failer failed", "boom"] := by
  have hrun : (spawn false threeTasks).run? [2, 0, 0] =
      some ⟨true, [], some ⟨"failer", ["boom"]⟩⟩ := rfl
  obtain ⟨-, -, -, hends, -, hfault⟩ := outcome_of_ends hrun
  exact ⟨_, hrun, (hfault _).2 ⟨hends.1 rfl, [], _, _, rfl, by simp, .inl ⟨["boom"], rfl, rfl⟩⟩⟩

end TaskGroup

end Chargeback
