/-
Timing of tasks.

Tasks are started and completed by name. `Timings` holds a record for each task that was ever
started, in ascending order of the names. Starting a task again forgets how long it took;
completing it again only replaces the length. A task can be completed only after it was started.

* `find?_start_self`, `find?_start_of_ne` — what starting a task changes;
* `complete_eq_ok_iff` — when a task can be completed.
-/
namespace LintDiscovery

/-- The record of a task: when it was last started, and how long it took once it is complete. -/
structure TimingRecord where
  task : String
  start : Nat
  length : Option Nat
  deriving DecidableEq, Repr

/-- Whether the task has been completed since it was last started. -/
def TimingRecord.isComplete (r : TimingRecord) : Bool :=
  r.length.isSome

/-- The records of the tasks ever started, one for each, in the order of their names. -/
structure Timings where
  records : List TimingRecord
  ascending : records.Pairwise fun a b => a.task < b.task
  deriving DecidableEq

/-- A task is completed that was never started. -/
inductive TimingViolation where
  | noRecords (task : String)
  | neverStarted (task : String)
  deriving DecidableEq, Repr

/-- The wording of a violation by an extension. -/
def TimingViolation.text (extension : String) : TimingViolation → String
  | noRecords task =>
    "extension `" ++ extension ++ "` has no profiles; cannot complete task `" ++ task ++ "`"
  | neverStarted task =>
    "extension `" ++ extension ++ "` never started profile task `" ++ task ++ "`"

namespace Timings

/-- Nothing started. -/
def empty : Timings := ⟨[], .nil⟩

/-- The number of records. -/
def size (t : Timings) : Nat :=
  t.records.length

/-- The record of a task. -/
def find? (t : Timings) (task : String) : Option TimingRecord :=
  t.records.find? fun r => r.task == task

/-! ### Records in order -/

/-- Puts a record into its place among ascending ones; it replaces the one of the same task. -/
def insertRecord (r : TimingRecord) : List TimingRecord → List TimingRecord
  | [] => [r]
  | x :: rest =>
    if r.task < x.task then r :: x :: rest
    else if r.task = x.task then r :: rest
    else x :: insertRecord r rest

theorem eq_or_mem_of_mem_insertRecord {r x : TimingRecord} {l : List TimingRecord}
    (h : x ∈ insertRecord r l) : x = r ∨ x ∈ l := by
  induction l with
  | nil => simpa [insertRecord] using h
  | cons y rest ih =>
    rw [insertRecord] at h
    split at h
    · simpa using h
    · split at h
      · simp only [List.mem_cons] at h ⊢
        exact h.imp_right .inr
      · simp only [List.mem_cons] at h ⊢
        rcases h with h | h
        · exact .inr (.inl h)
        · exact (ih h).imp_right .inr

theorem ascending_insertRecord (r : TimingRecord) {l : List TimingRecord}
    (h : l.Pairwise fun a b => a.task < b.task) :
    (insertRecord r l).Pairwise fun a b => a.task < b.task := by
  induction l with
  | nil => simp [insertRecord]
  | cons x rest ih =>
    obtain ⟨hx, hrest⟩ := List.pairwise_cons.1 h
    rw [insertRecord]
    split
    · rename_i hlt
      refine .cons (fun y hy => ?_) h
      rcases List.mem_cons.1 hy with rfl | hy
      · exact hlt
      · exact String.lt_trans hlt (hx y hy)
    · split
      · rename_i heq
        exact .cons (fun y hy => heq ▸ hx y hy) hrest
      · rename_i hlt hne
        refine .cons (fun y hy => ?_) (ih hrest)
        rcases eq_or_mem_of_mem_insertRecord hy with rfl | hy
        · grind
        · exact hx y hy

theorem find?_insertRecord_self (r : TimingRecord) (l : List TimingRecord) :
    (insertRecord r l).find? (fun x => x.task == r.task) = some r := by
  induction l with
  | nil => simp [insertRecord]
  | cons x rest ih =>
    rw [insertRecord]
    split
    · simp
    · split
      · simp
      · rename_i hne
        rw [List.find?_cons_of_neg (by simpa using Ne.symm hne), ih]

theorem find?_insertRecord_of_ne {r : TimingRecord} {task : String} (h : r.task ≠ task)
    (l : List TimingRecord) :
    (insertRecord r l).find? (fun x => x.task == task) = l.find? (fun x => x.task == task) := by
  induction l with
  | nil => simp [insertRecord, h]
  | cons x rest ih =>
    rw [insertRecord]
    split
    · rw [List.find?_cons_of_neg (by simpa using h)]
    · split
      · rename_i heq
        rw [List.find?_cons_of_neg (by simpa using h),
          List.find?_cons_of_neg (by simpa [← heq] using h)]
      · simp only [List.find?_cons, ih]

/-- The timings with a record of a task. -/
def insert (t : Timings) (r : TimingRecord) : Timings :=
  ⟨insertRecord r t.records, ascending_insertRecord r t.ascending⟩

/-! ### Starting and completing -/

/-- Starts a task at a time. -/
def start (t : Timings) (now : Nat) (task : String) : Timings :=
  t.insert ⟨task, now, none⟩

/-- Completes a task at a time. -/
def complete (t : Timings) (now : Nat) (task : String) : Except TimingViolation Timings :=
  if t.records.isEmpty then .error (.noRecords task)
  else
    match t.find? task with
    | none => .error (.neverStarted task)
    | some r => .ok (t.insert ⟨task, r.start, some (now - r.start)⟩)

/-- A task that has just been started has a record without a length. -/
theorem find?_start_self (t : Timings) (now : Nat) (task : String) :
    (t.start now task).find? task = some ⟨task, now, none⟩ :=
  find?_insertRecord_self ⟨task, now, none⟩ t.records

/-- Starting a task leaves the others alone. -/
theorem find?_start_of_ne (t : Timings) (now : Nat) {task other : String} (h : task ≠ other) :
    (t.start now task).find? other = t.find? other :=
  find?_insertRecord_of_ne h t.records

/-- A task can be completed exactly when it has a record. -/
theorem complete_eq_ok_iff (t : Timings) (now : Nat) (task : String) (t' : Timings) :
    t.complete now task = .ok t' ↔
      ∃ r, t.find? task = some r ∧ t' = t.insert ⟨task, r.start, some (now - r.start)⟩ := by
  unfold complete
  split
  · rename_i h
    simp [find?, List.isEmpty_iff.1 h]
  · cases t.find? task with
    | none => simp
    | some r => simp [eq_comm]

end Timings

end LintDiscovery
