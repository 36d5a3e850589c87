import Chargeback.Causes

/-!
# Groups of tasks

Tasks of a group live and die together: the first one to end, however it ends, cancels the token
that all of them watch. The group ends when every task has ended, and its outcome is the fault
of the task that failed first, if one did.
-/

namespace Chargeback

/-- How a task ends. -/
inductive TaskEnd where
  | ok
  | failed (causes : Causes)
  /-- It broke down, and its name with it. The runtime reports what happened; nothing is said of it
  if the report is left out. -/
  | panicked (report : String := "")
  deriving DecidableEq, Repr

/-- A task of a group. -/
structure Task where
  name : String
  /-- It ends only after the token was cancelled. -/
  waits : Bool
  ends : TaskEnd
  deriving DecidableEq, Repr

/-- The fault of a task. -/
structure TaskFault where
  name : String
  /-- What led to it within the task. -/
  inner : Causes
  deriving DecidableEq, Repr

/-- What led to the fault. -/
def TaskFault.causes (f : TaskFault) : Causes := ("task " ++ f.name ++ " failed") :: f.inner

/-- What is said about the fault. -/
def TaskFault.message (f : TaskFault) : String := f.causes.text

/-- What is said of a task that broke down. -/
def abortion (report : String) : String :=
  if report.isEmpty then "task aborted" else "task aborted: " ++ report

/-- The fault of a task that ends, if it has one. -/
def Task.fault? (t : Task) : Option TaskFault :=
  match t.ends with
  | .ok => none
  | .failed causes => some ⟨t.name, causes⟩
  | .panicked report => some ⟨"unknown", [abortion report]⟩

/-- A group of tasks. -/
structure TaskGroup where
  isCancelled : Bool
  running : List Task
  firstFault : Option TaskFault
  deriving DecidableEq, Repr

namespace TaskGroup

/-- A group whose tasks were just spawned. -/
def spawn (isCancelled : Bool) (tasks : List Task) : TaskGroup :=
  { isCancelled, running := tasks, firstFault := none }

/-- A task can end now. -/
def canEnd (g : TaskGroup) (t : Task) : Bool := !t.waits || g.isCancelled

/-- The task at a place among those that run ends; `none` if it cannot. -/
def end? (place : Nat) (g : TaskGroup) : Option TaskGroup :=
  match g.running[place]? with
  | none => none
  | some t =>
    if g.canEnd t then
      some { isCancelled := true, running := g.running.eraseIdx place,
             firstFault := g.firstFault.or t.fault? }
    else none

/-- The tasks at some places end, one after the other; `none` if one of them cannot. -/
def run? (places : List Nat) (g : TaskGroup) : Option TaskGroup :=
  places.foldlM (fun g place => g.end? place) g

/-- The outcome of the group, once every task has ended. -/
def outcome? (g : TaskGroup) : Option (Except TaskFault Unit) :=
  if g.running.isEmpty then
    some (match g.firstFault with
      | some fault => .error fault
      | none => .ok ())
  else none

/-- The place of the task that ends next when the group is left to itself: tasks that do not wait
come first. -/
def next? (g : TaskGroup) : Option Nat :=
  g.running.findIdx? (!·.waits) <|> g.running.findIdx? g.canEnd

/-- At most `n` tasks end. -/
def advance : Nat → TaskGroup → TaskGroup
  | 0, g => g
  | n + 1, g => match g.next?.bind fun place => g.end? place with
    | none => g
    | some g => advance n g

/-- Leaves the group to itself. -/
def settle (g : TaskGroup) : TaskGroup := advance g.running.length g

end TaskGroup

end Chargeback
