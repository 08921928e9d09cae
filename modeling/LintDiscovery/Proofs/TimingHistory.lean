/-
What timings say of the past.

Tasks of several extensions are started and completed by calls in any order, some of which panic.
What is on record afterwards can be read off the calls themselves: there is a record for each task
that was ever started; it has the time of its latest start, and a length exactly when the task has
been completed since then, which is that to the latest completion. Only a call itself suffers from
its panic.

* `Tells`, `Tells.unique` — what calls tell of a task;
* `Keeps`, `Keeps.serve` — a timekeeper that has on record what calls tell, and one more request;
* `Answered`, `Keeps.answered` — how a call is answered, by the calls before it;
* `keeps_serveCall`, `keeps_serveAll` — several timekeepers, and calls in sequence;
* `records_of_calls` — what is on record, and what is answered, at any call of a sequence.
-/
import LintDiscovery.Module.Timekeeping
import Mathlib.Data.List.Induction
import Mathlib.Data.List.Nodup

namespace LintDiscovery

/-! ### Records -/

namespace Timings

variable {t : Timings} {r : TimingRecord} {task : String}

/-- Records are found under their own tasks. -/
theorem task_of_find? (h : t.find? task = some r) : r.task = task := by
  simpa using List.find?_some h

/-- Every record is the one that is found under its task. -/
theorem find?_of_mem (hr : r ∈ t.records) : t.find? r.task = some r := by
  obtain ⟨r', hr'⟩ : ∃ r', t.find? r.task = some r' :=
    Option.isSome_iff_exists.mp (List.find?_isSome.mpr ⟨r, hr, by simp⟩)
  have hnodup : (t.records.map TimingRecord.task).Nodup := by
    refine List.pairwise_map.mpr (t.ascending.imp fun {a b} hlt heq => ?_)
    rw [heq] at hlt
    exact String.lt_irrefl _ hlt
  have heq : r' = r :=
    List.inj_on_of_nodup_map hnodup (List.mem_of_find?_eq_some hr') hr (task_of_find? hr')
  rw [hr', heq]

theorem mem_tasks_iff : task ∈ t.records.map TimingRecord.task ↔ t.find? task ≠ none := by
  rw [Option.ne_none_iff_exists', List.mem_map]
  constructor
  · rintro ⟨r, hr, rfl⟩
    exact ⟨r, find?_of_mem hr⟩
  · rintro ⟨r, hr⟩
    exact ⟨r, List.mem_of_find?_eq_some hr, task_of_find? hr⟩

/-- A record that was put in is found under its task. -/
theorem find?_insert_self (t : Timings) (r : TimingRecord) :
    (t.insert r).find? r.task = some r :=
  find?_insertRecord_self r t.records

/-- Putting a record in leaves the other tasks alone. -/
theorem find?_insert_of_ne (t : Timings) (h : r.task ≠ task) :
    (t.insert r).find? task = t.find? task :=
  find?_insertRecord_of_ne h t.records

/-- Without records, no task is found. -/
theorem isEmpty_iff : t.records.isEmpty = true ↔ ∀ task, t.find? task = none := by
  constructor
  · intro h task
    rw [find?, List.isEmpty_iff.mp h, List.find?_nil]
  · intro h
    rcases hrecords : t.records with _ | ⟨r, rest⟩
    · rfl
    · have hfound : t.find? r.task = some r := find?_of_mem (by simp [hrecords])
      rw [h] at hfound
      cases hfound

end Timings

/-- The two violations are told apart by their wording. -/
theorem TimingViolation.text_ne (extension task : String) :
    (noRecords task).text extension ≠ (neverStarted task).text extension := by
  intro h
  have hwords : "extension `" ++ extension ++ "` has no profiles; cannot complete task `" ++ task ++
      "`" = "extension `" ++ extension ++ "` never started profile task `" ++ task ++ "`" := h
  have hlength := congrArg String.length hwords
  have hfirst : "` has no profiles; cannot complete task `".length = 41 := by decide
  have hsecond : "` never started profile task `".length = 30 := by decide
  simp only [String.length_append, hfirst, hsecond] at hlength
  omega

variable {κ ι : Type} {calls : List (TimingCall ι)} {i : ι} {task : String}

/-! ### What calls tell -/

/-- A call that is about a task of an extension. -/
def TimingCall.IsAbout (c : TimingCall ι) (i : ι) (task : String) : Prop :=
  c.keeper = i ∧ c.request.task = task

/-- Whether one of the calls makes a request to an extension. -/
def Requested (calls : List (TimingCall ι)) (i : ι) (request : TimingRequest) : Prop :=
  ∃ now, ⟨i, now, request⟩ ∈ calls

theorem requested_of_eq {before after : List (TimingCall ι)} {now : Nat} {request : TimingRequest}
    (h : calls = before ++ ⟨i, now, request⟩ :: after) : Requested calls i request :=
  ⟨now, by simp [h]⟩

/-- The last of the calls that make a request is at one place only. -/
theorem eq_of_last {before after before' after' : List (TimingCall ι)} {now now' : Nat}
    {request : TimingRequest}
    (h : before ++ ⟨i, now, request⟩ :: after = before' ++ ⟨i, now', request⟩ :: after')
    (hlast : ¬Requested after i request) (hlast' : ¬Requested after' i request) :
    now = now' ∧ after = after' := by
  rcases List.append_eq_append_iff.mp h with ⟨front, -, hrest⟩ | ⟨front, -, hrest⟩
  · rcases front with _ | ⟨c, front⟩
    · obtain ⟨hcall, hafter⟩ := List.cons.inj hrest
      exact ⟨congrArg TimingCall.now hcall, hafter⟩
    · exact absurd (requested_of_eq (List.cons.inj hrest).2) hlast
  · rcases front with _ | ⟨c, front⟩
    · obtain ⟨hcall, hafter⟩ := List.cons.inj hrest
      exact ⟨(congrArg TimingCall.now hcall).symm, hafter.symm⟩
    · exact absurd (requested_of_eq (List.cons.inj hrest).2) hlast'

theorem requested_concat {c : TimingCall ι} {request : TimingRequest} :
    Requested (calls ++ [c]) i request ↔
      Requested calls i request ∨ c.keeper = i ∧ c.request = request := by
  constructor
  · rintro ⟨now, h⟩
    rcases List.mem_append.mp h with h | h
    · exact .inl ⟨now, h⟩
    · rw [← List.mem_singleton.mp h]
      exact .inr ⟨rfl, rfl⟩
  · rintro (⟨now, h⟩ | ⟨rfl, rfl⟩)
    · exact ⟨now, List.mem_append_left _ h⟩
    · exact ⟨c.now, by simp⟩

/-- What calls tell of a task of an extension: nothing unless it was ever started. From its latest
start on it is running until it is completed, and every further completion takes the place of the
one before. -/
inductive Tells (calls : List (TimingCall ι)) (i : ι) (task : String) :
    Option TimingRecord → Prop
  | never (hnever : ¬Requested calls i (.start task)) : Tells calls i task none
  | running {before after : List (TimingCall ι)} {start : Nat}
      (hcalls : calls = before ++ ⟨i, start, .start task⟩ :: after)
      (hlatest : ¬Requested after i (.start task))
      (hrunning : ¬Requested after i (.complete task)) :
      Tells calls i task (some ⟨task, start, none⟩)
  | complete {before after between behind : List (TimingCall ι)} {start length : Nat}
      (hcalls : calls = before ++ ⟨i, start, .start task⟩ :: after)
      (hlatest : ¬Requested after i (.start task))
      (hafter : after = between ++ ⟨i, start + length, .complete task⟩ :: behind)
      (hlast : ¬Requested behind i (.complete task)) :
      Tells calls i task (some ⟨task, start, some length⟩)

namespace Tells

variable {r r' : Option TimingRecord}

/-- There is a record exactly of what was started. -/
theorem eq_none_iff (h : Tells calls i task r) : r = none ↔ ¬Requested calls i (.start task) := by
  cases h with
  | never hnever => exact iff_of_true rfl hnever
  | running hcalls _ _ => exact iff_of_false (by simp) fun h => h (requested_of_eq hcalls)
  | complete hcalls _ _ _ => exact iff_of_false (by simp) fun h => h (requested_of_eq hcalls)

/-- Calls do not tell two things of one task. -/
theorem unique (h : Tells calls i task r) (h' : Tells calls i task r') : r = r' := by
  cases h with
  | never hnever => exact (h'.eq_none_iff.mpr hnever).symm
  | running hcalls hlatest hrunning =>
    cases h' with
    | never hnever => exact absurd (requested_of_eq hcalls) hnever
    | running hcalls' hlatest' _ =>
      obtain ⟨rfl, -⟩ := eq_of_last (hcalls.symm.trans hcalls') hlatest hlatest'
      rfl
    | complete hcalls' hlatest' hafter _ =>
      obtain ⟨-, rfl⟩ := eq_of_last (hcalls.symm.trans hcalls') hlatest hlatest'
      exact absurd (requested_of_eq hafter) hrunning
  | complete hcalls hlatest hafter hlast =>
    cases h' with
    | never hnever => exact absurd (requested_of_eq hcalls) hnever
    | running hcalls' hlatest' hrunning =>
      obtain ⟨-, rfl⟩ := eq_of_last (hcalls.symm.trans hcalls') hlatest hlatest'
      exact absurd (requested_of_eq hafter) hrunning
    | complete hcalls' hlatest' hafter' hlast' =>
      obtain ⟨rfl, rfl⟩ := eq_of_last (hcalls.symm.trans hcalls') hlatest hlatest'
      obtain ⟨hdone, -⟩ := eq_of_last (hafter.symm.trans hafter') hlast hlast'
      rw [Nat.add_left_cancel hdone]

/-- The time on record is that of the latest start. -/
theorem latest_start {r : TimingRecord} (h : Tells calls i task (some r)) :
    ∃ before after, calls = before ++ ⟨i, r.start, .start task⟩ :: after ∧
      ¬Requested after i (.start task) := by
  cases h with
  | running hcalls hlatest _ => exact ⟨_, _, hcalls, hlatest⟩
  | complete hcalls hlatest _ _ => exact ⟨_, _, hcalls, hlatest⟩

/-! ### One more call -/

/-- A call that is about something else tells nothing. -/
theorem concat_of_not_isAbout {r : Option TimingRecord} {c : TimingCall ι}
    (h : Tells calls i task r) (hc : ¬c.IsAbout i task) : Tells (calls ++ [c]) i task r := by
  have hnot {calls : List (TimingCall ι)} {request : TimingRequest} (hrequest : request.task = task)
      (h : ¬Requested calls i request) : ¬Requested (calls ++ [c]) i request := by
    rw [requested_concat, not_or]
    exact ⟨h, fun ⟨hkeeper, heq⟩ => hc ⟨hkeeper, heq ▸ hrequest⟩⟩
  cases h with
  | never hnever => exact .never (hnot rfl hnever)
  | running hcalls hlatest hrunning =>
    exact .running (by rw [hcalls, List.append_assoc, List.cons_append]) (hnot rfl hlatest)
      (hnot rfl hrunning)
  | complete hcalls hlatest hafter hlast =>
    exact .complete (by rw [hcalls, List.append_assoc, List.cons_append]) (hnot rfl hlatest)
      (by rw [hafter, List.append_assoc, List.cons_append]) (hnot rfl hlast)

/-- From the start of a task on it is running. -/
theorem concat_start (now : Nat) :
    Tells (calls ++ [⟨i, now, .start task⟩]) i task (some ⟨task, now, none⟩) :=
  .running rfl (by simp [Requested]) (by simp [Requested])

/-- The completion of a task that was started makes its length that to the latest start. -/
theorem concat_complete {r : TimingRecord} {now : Nat} (h : Tells calls i task (some r))
    (hclock : ∀ c ∈ calls, c.now ≤ now) :
    Tells (calls ++ [⟨i, now, .complete task⟩]) i task
      (some ⟨task, r.start, some (now - r.start)⟩) := by
  obtain ⟨before, after, hcalls, hlatest⟩ := h.latest_start
  have hstart : r.start ≤ now := hclock ⟨i, r.start, .start task⟩ (by simp [hcalls])
  have hlatest' : ¬Requested (after ++ [⟨i, now, .complete task⟩]) i (.start task) := by
    simpa [requested_concat] using hlatest
  have hafter : after ++ [⟨i, now, .complete task⟩] =
      after ++ [⟨i, r.start + (now - r.start), .complete task⟩] := by
    rw [Nat.add_sub_cancel' hstart]
  have hlast : ¬Requested ([] : List (TimingCall ι)) i (.complete task) := by simp [Requested]
  exact .complete (by rw [hcalls, List.append_assoc, List.cons_append]) hlatest' hafter hlast

end Tells

/-! ### Requests -/

namespace Timekeeper

variable {k : Timekeeper} {now : Nat} {extension : String} {t : Timings}

theorem serve_start :
    serve now (.start task) ⟨extension, t, false⟩ =
      (.ok (), ⟨extension, t.start now task, false⟩) := rfl

/-- A task on record is completed. -/
theorem serve_complete_of_some {r : TimingRecord} (h : t.find? task = some r) :
    serve now (.complete task) ⟨extension, t, false⟩ =
      (.ok (), ⟨extension, t.insert ⟨task, r.start, some (now - r.start)⟩, false⟩) := by
  have hcomplete : t.complete now task = .ok (t.insert ⟨task, r.start, some (now - r.start)⟩) :=
    (t.complete_eq_ok_iff now task _).mpr ⟨r, h, rfl⟩
  simp [serve, hold, work, release, hcomplete]

/-- Completing a task that is not on record is a panic, which depends on whether any task is. -/
theorem serve_complete_of_none (h : t.find? task = none) :
    serve now (.complete task) ⟨extension, t, false⟩ =
      (.error (.text ((if t.records.isEmpty then TimingViolation.noRecords task
        else .neverStarted task).text extension)), ⟨extension, t, false⟩) := by
  have hcomplete : t.complete now task =
      .error (if t.records.isEmpty then .noRecords task else .neverStarted task) := by
    rw [Timings.complete, h]
    split <;> rfl
  simp [serve, hold, work, release, hcomplete]

/-- A request that panics changes nothing. -/
theorem serve_eq_of_error {request : TimingRequest} {p : Panic}
    (h : (k.serve now request).1 = .error p) : (k.serve now request).2 = k := by
  obtain ⟨extension, t, held⟩ := k
  cases held with
  | true => rfl
  | false =>
    cases request with
    | start task => cases h
    | complete task =>
      rcases hfound : t.find? task with _ | r
      · rw [serve_complete_of_none hfound]
      · rw [serve_complete_of_some hfound] at h
        cases h

end Timekeeper

variable {extension : String} {k : Timekeeper}

/-- A timekeeper that is at hand, and has on record what calls tell of its extension. -/
structure Keeps (calls : List (TimingCall ι)) (i : ι) (extension : String) (k : Timekeeper) :
    Prop where
  named : k.extension = extension
  free : k.held = false
  /-- There are records of the tasks that were ever started, and of no others. -/
  tasks : ∀ task, task ∈ k.timings.records.map TimingRecord.task ↔ Requested calls i (.start task)
  /-- A record is found under the task that it names. -/
  filed : ∀ r ∈ k.timings.records, k.timings.find? r.task = some r
  told : ∀ task r, k.timings.find? task = r ↔ Tells calls i task r

/-- It is enough that what is found of a task is what calls tell of it. -/
theorem Keeps.of_tells {t : Timings} (h : ∀ task, Tells calls i task (t.find? task)) :
    Keeps calls i extension ⟨extension, t, false⟩ where
  named := rfl
  free := rfl
  tasks task := by
    rw [Timings.mem_tasks_iff, ne_eq, (h task).eq_none_iff, not_not]
  filed _ := Timings.find?_of_mem
  told task r := ⟨fun hfound => hfound ▸ h task, fun h' => (h task).unique h'⟩

/-- How a call is answered, by what was started in the calls before it. -/
structure Answered (calls : List (TimingCall ι)) (extension : String) (c : TimingCall ι)
    (result : Except Panic Unit) : Prop where
  started : ∀ task, c.request = .start task → result = .ok ()
  panics_iff : ∀ task, c.request = .complete task →
    ((∃ p, result = .error p) ↔ ¬Requested calls c.keeper (.start task))
  noRecords_iff : ∀ task, c.request = .complete task →
    (result = .error (.text ((TimingViolation.noRecords task).text extension)) ↔
      ∀ other, ¬Requested calls c.keeper (.start other))
  neverStarted_iff : ∀ task, c.request = .complete task →
    (result = .error (.text ((TimingViolation.neverStarted task).text extension)) ↔
      ¬Requested calls c.keeper (.start task) ∧ ∃ other, Requested calls c.keeper (.start other))

namespace Answered

variable {now : Nat}

/-- A task that was started is completed. -/
theorem completed (h : Requested calls i (.start task)) :
    Answered calls extension ⟨i, now, .complete task⟩ (.ok ()) := by
  refine ⟨?_, ?_, ?_, ?_⟩ <;> rintro _ ⟨⟩
  · exact iff_of_false (by simp) fun hnever => hnever h
  · exact iff_of_false (by simp) fun hnever => hnever task h
  · exact iff_of_false (by simp) fun hnever => hnever.1 h

/-- No task can be completed before one was started. -/
theorem noRecords (h : ∀ other, ¬Requested calls i (.start other)) :
    Answered calls extension ⟨i, now, .complete task⟩
      (.error (.text ((TimingViolation.noRecords task).text extension))) := by
  refine ⟨?_, ?_, ?_, ?_⟩ <;> rintro _ ⟨⟩
  · exact iff_of_true ⟨_, rfl⟩ (h task)
  · exact iff_of_true rfl h
  · refine iff_of_false (fun heq => ?_) fun ⟨_, other, hother⟩ => h other hother
    exact TimingViolation.text_ne _ task (Panic.text.inj (Except.error.inj heq))

/-- A task that was never started cannot be completed when others were started either. -/
theorem neverStarted {other : String} (h : ¬Requested calls i (.start task))
    (hother : Requested calls i (.start other)) :
    Answered calls extension ⟨i, now, .complete task⟩
      (.error (.text ((TimingViolation.neverStarted task).text extension))) := by
  refine ⟨?_, ?_, ?_, ?_⟩ <;> rintro _ ⟨⟩
  · exact iff_of_true ⟨_, rfl⟩ h
  · refine iff_of_false (fun heq => ?_) fun hall => hall other hother
    exact TimingViolation.text_ne _ task (Panic.text.inj (Except.error.inj heq)).symm
  · exact iff_of_true rfl ⟨h, other, hother⟩

end Answered

namespace Keeps

/-- What is found of a task is what calls tell of it. -/
theorem tells (h : Keeps calls i extension k) (task : String) :
    Tells calls i task (k.timings.find? task) :=
  (h.told task _).mp rfl

theorem find?_eq_none_iff (h : Keeps calls i extension k) :
    k.timings.find? task = none ↔ ¬Requested calls i (.start task) :=
  (h.tells task).eq_none_iff

theorem isEmpty_iff (h : Keeps calls i extension k) :
    k.timings.records.isEmpty = true ↔ ∀ task, ¬Requested calls i (.start task) :=
  Timings.isEmpty_iff.trans (forall_congr' fun _ => h.find?_eq_none_iff)

/-- What is told of one extension is nothing to the others. -/
theorem concat_of_ne {c : TimingCall ι} (h : Keeps calls i extension k) (hne : c.keeper ≠ i) :
    Keeps (calls ++ [c]) i extension k := by
  obtain ⟨_, t, _⟩ := k
  obtain rfl := h.named
  obtain rfl := h.free
  exact .of_tells fun task => (h.tells task).concat_of_not_isAbout fun habout => hne habout.1

/-- **Step of a run.** A timekeeper serves a request, and keeps what calls tell with this one. -/
theorem serve {now : Nat} (h : Keeps calls i extension k) (hclock : ∀ c ∈ calls, c.now ≤ now)
    (request : TimingRequest) :
    Keeps (calls ++ [⟨i, now, request⟩]) i extension (k.serve now request).2 := by
  obtain ⟨_, t, _⟩ := k
  obtain rfl := h.named
  obtain rfl := h.free
  -- Of another task than that of the request there is nothing new to tell.
  have hother {task : String} (hne : request.task ≠ task) :
      Tells (calls ++ [⟨i, now, request⟩]) i task (t.find? task) :=
    (h.tells task).concat_of_not_isAbout fun habout => hne habout.2
  cases request with
  | start started =>
    rw [Timekeeper.serve_start]
    refine .of_tells fun task => ?_
    rcases eq_or_ne started task with rfl | hne
    · rw [t.find?_start_self]
      exact .concat_start now
    · rw [t.find?_start_of_ne now hne]
      exact hother hne
  | complete completed =>
    rcases hfound : t.find? completed with _ | r
    · rw [Timekeeper.serve_complete_of_none hfound]
      refine .of_tells fun task => ?_
      rcases eq_or_ne completed task with rfl | hne
      · rw [hfound]
        refine .never ?_
        simpa [requested_concat] using h.find?_eq_none_iff.mp hfound
      · exact hother hne
    · rw [Timekeeper.serve_complete_of_some hfound]
      refine .of_tells fun task => ?_
      rcases eq_or_ne completed task with rfl | hne
      · rw [t.find?_insert_self ⟨completed, _, _⟩]
        exact ((h.told completed _).mp hfound).concat_complete hclock
      · rw [t.find?_insert_of_ne hne]
        exact hother hne

/-- A timekeeper answers by what calls have told. -/
theorem answered {now : Nat} (h : Keeps calls i extension k) (request : TimingRequest) :
    Answered calls extension ⟨i, now, request⟩ (k.serve now request).1 := by
  obtain ⟨_, t, _⟩ := k
  obtain rfl := h.named
  obtain rfl := h.free
  cases request with
  | start task =>
    refine ⟨fun _ _ => rfl, ?_, ?_, ?_⟩ <;> rintro _ ⟨⟩
  | complete task =>
    rcases hfound : t.find? task with _ | r
    · rw [Timekeeper.serve_complete_of_none hfound]
      by_cases hempty : t.records.isEmpty
      · rw [if_pos hempty]
        exact .noRecords (h.isEmpty_iff.mp hempty)
      · obtain ⟨other, hother⟩ : ∃ other, Requested calls i (.start other) := by
          simpa using h.isEmpty_iff.not.mp hempty
        rw [if_neg hempty]
        exact .neverStarted (h.find?_eq_none_iff.mp hfound) hother
    · rw [Timekeeper.serve_complete_of_some hfound]
      refine .completed ?_
      by_contra hnever
      rw [h.find?_eq_none_iff.mpr hnever] at hfound
      cases hfound

end Keeps

/-! ### Calls in sequence -/

variable [DecidableEq ι] {ks : ι → Timekeeper}

/-- A call that panics leaves every timekeeper as it was. -/
theorem serveCall_eq_of_error {c : TimingCall ι} {p : Panic}
    (h : (serveCall c ks).1 = .error p) : (serveCall c ks).2 = ks := by
  funext i
  rcases eq_or_ne i c.keeper with rfl | hne
  · exact (if_pos rfl).trans (Timekeeper.serve_eq_of_error h)
  · exact if_neg hne

theorem serveAll_append (calls calls' : List (TimingCall ι)) (ks : ι → Timekeeper) :
    serveAll (calls ++ calls') ks =
      ((serveAll calls ks).1 ++ (serveAll calls' (serveAll calls ks).2).1,
        (serveAll calls' (serveAll calls ks).2).2) := by
  induction calls generalizing ks with
  | nil => rfl
  | cons c rest ih => simp only [List.cons_append, serveAll, ih]

variable {ds : ι → Descriptor κ}

/-- **Step of a run.** Timekeepers that keep what calls tell keep what one more call tells. -/
theorem keeps_serveCall {c : TimingCall ι} (h : ∀ i, Keeps calls i (ds i).name (ks i))
    (hclock : ∀ c' ∈ calls, c'.now ≤ c.now) (i : ι) :
    Keeps (calls ++ [c]) i (ds i).name ((serveCall c ks).2 i) := by
  rcases eq_or_ne i c.keeper with rfl | hne
  · have hself : (serveCall c ks).2 c.keeper = ((ks c.keeper).serve c.now c.request).2 :=
      if_pos rfl
    rw [hself]
    exact (h c.keeper).serve hclock c.request
  · have hother : (serveCall c ks).2 i = ks i := if_neg hne
    rw [hother]
    exact (h i).concat_of_ne hne.symm

/-- What calls tell is what extensions, of which nothing is on record at first, have on record after
the calls. -/
theorem keeps_serveAll (hds : ∀ i, (ds i).timings = .empty)
    (hclock : calls.Pairwise fun a b => a.now ≤ b.now) (i : ι) :
    Keeps calls i (ds i).name ((serveAll calls fun i => (ds i).timekeeper).2 i) := by
  -- The calls are taken one by one from the front, as they are served.
  induction calls using List.reverseRecOn generalizing i with
  | nil =>
    have hempty : (ds i).timekeeper = ⟨(ds i).name, .empty, false⟩ := by
      rw [Descriptor.timekeeper, hds]
    simp only [serveAll]
    rw [hempty]
    exact .of_tells fun task => .never (by simp [Requested])
  | append_singleton calls c ih =>
    obtain ⟨hbefore, -, hlast⟩ := List.pairwise_append.mp hclock
    rw [serveAll_append]
    exact keeps_serveCall (ih hbefore) (fun c' hc' => hlast c' hc' c (List.mem_singleton_self c)) i

/-- **What is on record of the past.** Let tasks of extensions, of which nothing is on record at
first, be started and completed by calls in any order, by a clock that does not run backwards. At
each call, before and after it:

* every extension has on record what the calls so far tell: there is a record for each task that was
  ever started and for no other, under the name of the task and with the time of its latest start;
  it has no length until the task is completed, and then the time to the latest completion;
* the call is answered by what was started before it: starting a task always succeeds, and
  completing one panics exactly when it was never started, with one wording if no task of that
  extension was started and another if one was;
* a call that panics leaves all the records of all extensions as they were, and the later calls are
  served like all others. -/
theorem records_of_calls (ds : ι → Descriptor κ) (hds : ∀ i, (ds i).timings = .empty)
    (before after : List (TimingCall ι)) (c : TimingCall ι)
    (hclock : (before ++ c :: after).Pairwise fun a b => a.now ≤ b.now) :
    let past := serveAll before fun i => (ds i).timekeeper
    let present := serveCall c past.2
    let future := serveAll after present.2
    (∀ i, Keeps before i (ds i).name (past.2 i)) ∧
    (∀ i, Keeps (before ++ [c]) i (ds i).name (present.2 i)) ∧
    Answered before (ds c.keeper).name c present.1 ∧
    (∀ p, present.1 = .error p → present.2 = past.2) ∧
    (serveAll (before ++ c :: after) fun i => (ds i).timekeeper) =
      (past.1 ++ present.1 :: future.1, future.2) := by
  have hsplit : before ++ c :: after = (before ++ [c]) ++ after := by simp
  obtain ⟨hclock, -, -⟩ := List.pairwise_append.mp (hsplit ▸ hclock)
  obtain ⟨hbefore, -, hlast⟩ := List.pairwise_append.mp hclock
  have hkeeps := keeps_serveAll hds hbefore
  refine ⟨hkeeps, ?_, (hkeeps c.keeper).answered c.request, fun p => serveCall_eq_of_error, ?_⟩
  · exact keeps_serveCall hkeeps fun c' hc' => hlast c' hc' c (List.mem_singleton_self c)
  · rw [serveAll_append]
    rfl

/-- Two extensions of which nothing is on record. -/
def timedPair (i : Bool) : Descriptor Unit :=
  ⟨if i then "late" else "early", none, .syntactic, .walker (), .empty⟩

/-- A task of one extension is restarted and completed twice, and one of the other never started. -/
def timedCalls : List (TimingCall Bool) :=
  [⟨false, 1, .start "walk"⟩, ⟨false, 3, .complete "walk"⟩, ⟨true, 3, .complete "walk"⟩,
    ⟨false, 4, .start "walk"⟩, ⟨false, 6, .complete "walk"⟩, ⟨false, 9, .complete "walk"⟩]

/-- The length on record is that of the last completion since the last start, and it stays when the
completion of another task panics. -/
theorem records_of_timedCalls :
    let past := serveAll timedCalls fun i => (timedPair i).timekeeper
    let present := serveCall ⟨false, 9, .complete "parse"⟩ past.2
    (past.2 false).timings.find? "walk" = some ⟨"walk", 4, some 5⟩ ∧
    (past.2 true).timings.find? "walk" = none ∧
    present = (.error (.text "extension `early` never started profile task `parse`"), past.2) ∧
    (serveAll (timedCalls ++ [⟨false, 9, .complete "parse"⟩, ⟨true, 9, .start "walk"⟩])
      fun i => (timedPair i).timekeeper).1 = past.1 ++ [present.1, .ok ()] := by
  intro past present
  obtain ⟨hkeeps, -, hanswered, hunchanged, hrest⟩ :=
    records_of_calls timedPair (fun _ => rfl) timedCalls [⟨true, 9, .start "walk"⟩]
      ⟨false, 9, .complete "parse"⟩ (by decide)
  -- The task was started at 4 for the last time, and completed at 9 for the last time.
  have hstart : timedCalls = [⟨false, 1, .start "walk"⟩, ⟨false, 3, .complete "walk"⟩,
      ⟨true, 3, .complete "walk"⟩] ++ ⟨false, 4, .start "walk"⟩ ::
      ([⟨false, 6, .complete "walk"⟩] ++ ⟨false, 4 + 5, .complete "walk"⟩ :: []) := rfl
  have hcomplete : Tells timedCalls false "walk" (some ⟨"walk", 4, some 5⟩) :=
    .complete hstart (by simp [Requested]) rfl (by simp [Requested])
  have hnever : ¬Requested timedCalls false (.start "parse") := by simp [Requested, timedCalls]
  have hresult := (hanswered.neverStarted_iff "parse" rfl).mpr
    ⟨hnever, "walk", 1, by simp [timedCalls]⟩
  refine ⟨((hkeeps false).told _ _).mpr hcomplete, ?_,
    Prod.ext hresult (hunchanged _ hresult), congrArg Prod.fst hrest⟩
  exact ((hkeeps true).told _ _).mpr (.never (by simp [Requested, timedCalls]))

end LintDiscovery
