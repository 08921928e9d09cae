/-
Keeping the timings of extensions.

Every extension has a timekeeper, which serves requests to start a task or to complete one. A
request takes hold of the timings, which nobody else can do as long as they are held, and works on
them. It lets go of them when the work is done, and just as well when the work panics.

* `Timekeeper.serve` — one request;
* `serveCall`, `serveAll` — requests to one of several timekeepers, and such requests in sequence.
-/
import LintDiscovery.Module.Descriptor
import LintDiscovery.Panic

namespace LintDiscovery

/-- What can be done about a task. -/
inductive TimingRequest where
  | start (task : String)
  | complete (task : String)
  deriving DecidableEq, Repr

/-- The task that a request is about. -/
def TimingRequest.task : TimingRequest → String
  | start task => task
  | complete task => task

/-- The timings of an extension, and whether somebody holds them. -/
structure Timekeeper where
  extension : String
  timings : Timings
  held : Bool
  deriving DecidableEq

namespace Timekeeper

/-- Takes hold of the timings. Timings that are held cannot be had. -/
def hold (k : Timekeeper) : Except Panic Timekeeper :=
  if k.held then .error (.text "already borrowed") else .ok ⟨k.extension, k.timings, true⟩

/-- Lets go of the timings. -/
def release (k : Timekeeper) : Timekeeper :=
  ⟨k.extension, k.timings, false⟩

/-- Works on the timings at a time. Completing a task that was never started is a panic. -/
def work (now : Nat) (k : Timekeeper) : TimingRequest → Except Panic Unit × Timekeeper
  | .start task => (.ok (), ⟨k.extension, k.timings.start now task, k.held⟩)
  | .complete task =>
    match k.timings.complete now task with
    | .ok timings => (.ok (), ⟨k.extension, timings, k.held⟩)
    | .error violation => (.error (.text (violation.text k.extension)), k)

/-- Serves a request at a time. -/
def serve (now : Nat) (request : TimingRequest) (k : Timekeeper) :
    Except Panic Unit × Timekeeper :=
  match k.hold with
  | .error p => (.error p, k)
  | .ok k =>
    let (result, k) := k.work now request
    (result, k.release)

end Timekeeper

/-- The timekeeper of an extension, while nobody holds its timings. -/
def Descriptor.timekeeper {κ : Type} (d : Descriptor κ) : Timekeeper :=
  ⟨d.name, d.timings, false⟩

/-- A request to one of several timekeepers, at a time of the one clock that they share. -/
structure TimingCall (ι : Type) where
  keeper : ι
  now : Nat
  request : TimingRequest
  deriving DecidableEq, Repr

variable {ι : Type} [DecidableEq ι]

/-- Serves a call, with which the other timekeepers have nothing to do. -/
def serveCall (c : TimingCall ι) (ks : ι → Timekeeper) : Except Panic Unit × (ι → Timekeeper) :=
  let (result, k) := (ks c.keeper).serve c.now c.request
  (result, fun i => if i = c.keeper then k else ks i)

/-- Serves calls in sequence. A panic ends one call only. -/
def serveAll : List (TimingCall ι) → (ι → Timekeeper) →
    List (Except Panic Unit) × (ι → Timekeeper)
  | [], ks => ([], ks)
  | c :: rest, ks =>
    let (result, ks) := serveCall c ks
    let (results, ks) := serveAll rest ks
    (result :: results, ks)

end LintDiscovery
