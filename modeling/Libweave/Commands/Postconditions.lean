import Libweave.Commands.Json
import Libweave.Commands.Lifecycle

/-!
# Calls whose observers make no call back

With observers that make no call back into the instance, a call has the one outcome `Call.run`
computes.

* From a live status, every call whose document passes its checks succeeds and leaves exactly the
  members it is described as setting (`run_live_postconditions`): the progress and the results are
  replaced whole, and the error is the chain passed in.
* The notifications log the changes of the status, the progress and the results exactly: each
  fires once when its member changed and never otherwise (`run_notifications`).  The recorded
  error is the one visible member whose change no notification announces: `SetError` on a command
  already in `error`, or `Abort` on an aborted one, replaces it silently.
-/

namespace Libweave

variable {S : SchemaUtils}

/-- What a call with observers that make no call does, from what its condition says. -/
lemma Call.run_of_wp (cl : Call S) {c : CommandInstance S}
    {Q : Reply → CommandInstance S → List (Entry S) → Prop} (h : cl.body.WP cl (Run 0) Q c []) :
    Q (cl.run c).result (cl.run c).state (cl.run c).trace := by
  simpa using Prog.wp_sound id h (cl.exec_run c)

/-! ### Accepted calls from live statuses -/

section Live

open CommandInstance Prog

variable {call : Call S} {c : CommandInstance S} {acc : List (Entry S)} {s : CommandStatus}
  {Q : Reply → CommandInstance S → List (Entry S) → Prop}

/-- From a live status, with observers that make no call, `SetStatus` towards any status but
`queued` succeeds and leaves the members with that status. -/
lemma wp_setStatus_live (hlive : c.status.isTerminal = false) (hs : s ≠ .queued)
    (hQ : ∀ acc', Q (true, []) { c with status := s } acc') :
    (setStatus s).WP call (Run 0) Q c acc := by
  refine wp_setStatus.2 ⟨fun he => ?_, fun _ hr => (hr.elim hs fun h => nomatch hlive.symm.trans h).elim,
    fun _ _ _ _ _ ⟨h, _⟩ => h ▸ hQ _⟩
  subst he
  exact hQ acc

variable (hlive : c.status.isTerminal = false)
include hlive

lemma wp_setProgress_live {progress : DictionaryValue} {commandDefinition : CommandDefinition S}
    {obj : S.ValueMap} (hd : c.commandDefinition = some commandDefinition)
    (hv : S.typedValueFromJson commandDefinition.progress (.dictionary progress) = .ok obj) :
    (setProgress progress).WP call (Run 0) (fun r c' _ =>
      r = (true, []) ∧ c' = { c with status := .inProgress, progress := obj }) c acc := by
  refine wp_setProgress_of_ok hd hv (wp_setStatus_live hlive nofun fun _ =>
    ⟨fun _ => ⟨fun he => ?unchanged, fun _ _ _ ⟨h, _⟩ => ?replaced⟩, nofun⟩)
  case unchanged => exact ⟨rfl, he ▸ rfl⟩
  case replaced => exact ⟨rfl, h⟩

lemma wp_setResults_live {results : DictionaryValue} {commandDefinition : CommandDefinition S}
    {obj : S.ValueMap} (hd : c.commandDefinition = some commandDefinition)
    (hv : S.typedValueFromJson commandDefinition.results (.dictionary results) = .ok obj) :
    (setResults results).WP call (Run 0) (fun r c' _ =>
      r = (true, []) ∧ c' = { c with status := .done, results := obj }) c acc := by
  refine wp_setResults_of_ok hd hv (fun he => ?unchanged) fun _ _ _ ⟨h, _⟩ => ?replaced
  case unchanged =>
    exact wp_setStatus_live hlive nofun fun _ =>
      wp_removeFromQueue_of_members fun _ => ⟨rfl, he ▸ rfl⟩
  case replaced =>
    subst h
    exact wp_setStatus_live hlive nofun fun _ => wp_removeFromQueue_of_members fun _ => ⟨rfl, rfl⟩

lemma wp_setError_live (commandError : ErrorPtr) :
    (setError commandError).WP call (Run 0) (fun r c' _ =>
      r = (true, []) ∧ c' = { c with status := .error, error := commandError }) c acc :=
  wp_setError.2 (wp_setStatus_live hlive nofun fun _ => ⟨rfl, rfl⟩)

lemma wp_pause_live :
    pause.WP call (Run 0) (fun r c' _ => r = (true, []) ∧ c' = { c with status := .paused }) c acc :=
  wp_setStatus_live hlive nofun fun _ => ⟨rfl, rfl⟩

lemma wp_abort_live (commandError : ErrorPtr) :
    (abort commandError).WP call (Run 0) (fun r c' _ =>
      r = (true, []) ∧ c' = { c with status := .aborted, error := commandError }) c acc :=
  wp_abort.2 (wp_setStatus_live hlive nofun fun _ =>
    wp_removeFromQueue_of_members fun _ => ⟨rfl, rfl⟩)

lemma wp_cancel_live :
    cancel.WP call (Run 0) (fun r c' _ => r = (true, []) ∧ c' = { c with status := .cancelled })
      c acc :=
  wp_cancel.2 (wp_setStatus_live hlive nofun fun _ =>
    wp_removeFromQueue_of_members fun _ => ⟨rfl, rfl⟩)

end Live

/-- The postconditions of the calls from a live reachable status, with observers that make no
call: every call whose document converts succeeds, sets the status it targets, replaces the
progress or the results whole by the converted document, records the error chain passed to
`SetError` and `Abort`, and leaves every other member as it was. -/
theorem run_live_postconditions {c : CommandInstance S} (hc : Reachable c)
    (hlive : c.status.isTerminal = false) :
    ∃ commandDefinition, c.commandDefinition = some commandDefinition ∧
      (∀ progress obj,
        S.typedValueFromJson commandDefinition.progress (.dictionary progress) = .ok obj →
        ((Call.setProgress progress).run c).result = (true, []) ∧
        ((Call.setProgress progress).run c).state = { c with status := .inProgress, progress := obj }) ∧
      (∀ results obj,
        S.typedValueFromJson commandDefinition.results (.dictionary results) = .ok obj →
        ((Call.setResults results).run c).result = (true, []) ∧
        ((Call.setResults results).run c).state = { c with status := .done, results := obj }) ∧
      (∀ commandError, ((Call.setError commandError).run c).result = (true, []) ∧
        ((Call.setError commandError).run c).state =
          { c with status := .error, error := commandError }) ∧
      ((Call.pause.run c).result = (true, []) ∧
        (Call.pause.run c).state = { c with status := .paused }) ∧
      (∀ commandError, ((Call.abort commandError).run c).result = (true, []) ∧
        ((Call.abort commandError).run c).state =
          { c with status := .aborted, error := commandError }) ∧
      ((Call.cancel.run c).result = (true, []) ∧
        (Call.cancel.run c).state = { c with status := .cancelled }) := by
  obtain ⟨commandDefinition, hd⟩ := Option.isSome_iff_exists.1 hc.commandDefinition_isSome
  exact ⟨commandDefinition, hd,
    fun progress _ hv => Call.run_of_wp (.setProgress progress) (wp_setProgress_live hlive hd hv),
    fun results _ hv => Call.run_of_wp (.setResults results) (wp_setResults_live hlive hd hv),
    fun commandError => Call.run_of_wp (.setError commandError) (wp_setError_live hlive _),
    Call.run_of_wp .pause (wp_pause_live hlive),
    fun commandError => Call.run_of_wp (.abort commandError) (wp_abort_live hlive _),
    Call.run_of_wp .cancel (wp_cancel_live hlive)⟩

/-- The postconditions from a `lock.setConfig` command that `Pause` has paused: `SetProgress`
resumes it. -/
theorem run_live_postconditions_lock :
    let c := (Call.pause.run CommandInstance.lockCommand).state
    Reachable c ∧ c.status.isTerminal = false ∧
    ∃ commandDefinition, c.commandDefinition = some commandDefinition ∧
      (∀ progress obj,
        SchemaUtils.stringObjects.typedValueFromJson commandDefinition.progress
          (.dictionary progress) = .ok obj →
        ((Call.setProgress progress).run c).result = (true, []) ∧
        ((Call.setProgress progress).run c).state = { c with status := .inProgress, progress := obj }) ∧
      (∀ results obj,
        SchemaUtils.stringObjects.typedValueFromJson commandDefinition.results
          (.dictionary results) = .ok obj →
        ((Call.setResults results).run c).result = (true, []) ∧
        ((Call.setResults results).run c).state = { c with status := .done, results := obj }) ∧
      (∀ commandError, ((Call.setError commandError).run c).result = (true, []) ∧
        ((Call.setError commandError).run c).state =
          { c with status := .error, error := commandError }) ∧
      ((Call.pause.run c).result = (true, []) ∧ (Call.pause.run c).state = { c with status := .paused }) ∧
      (∀ commandError, ((Call.abort commandError).run c).result = (true, []) ∧
        ((Call.abort commandError).run c).state =
          { c with status := .aborted, error := commandError }) ∧
      ((Call.cancel.run c).result = (true, []) ∧
        (Call.cancel.run c).state = { c with status := .cancelled }) :=
  have hc : Reachable (Call.pause.run CommandInstance.lockCommand).state :=
    .run (.new _ _ _ _) (Run.of_exec (Call.exec_run _ _))
  ⟨hc, rfl, run_live_postconditions hc rfl⟩

/-- The postconditions need observers that make no call back: an observer that cancels the
command when it is told its status changed makes `SetProgress` succeed on a command left
`cancelled`, whose progress it replaces after the cancellation. -/
theorem setProgress_cancelled_by_observer :
    ∃ o, (Call.setProgress [("lockedState", .string "unlocking")]).Exec (Run 1)
        CommandInstance.lockCommand o ∧
      o.result = (true, []) ∧ o.state.status = .cancelled ∧
      o.state.progress = [("lockedState", "unlocking")] := by
  let observers : CommandInstance SchemaUtils.stringObjects → Notification →
      CommandInstance SchemaUtils.stringObjects × List (Entry SchemaUtils.stringObjects) :=
    fun c n => if n = .onStatusChanged then ((Call.cancel.run c).state, (Call.cancel.run c).trace)
      else (c, [])
  have h : ∀ c n, Run 1 c (observers c n).1 (observers c n).2 := by
    intro c n
    by_cases hn : n = .onStatusChanged
    · simp only [observers, hn, if_true]
      exact Run.of_exec (Call.exec_run _ _)
    · simp only [observers, hn, if_false]
      exact Calls.nil c
  exact ⟨_, Prog.sem_runWith h _ _, rfl, rfl, rfl⟩

/-! ### Notifications as a change log -/

/-- The notifications along `t` log the changes from `c` to `c'`: `OnStatusChanged`,
`OnProgressChanged` and `OnResultsChanged` each fire once if their member changed, and never
otherwise. -/
def ChangeLog (c c' : CommandInstance S) (t : List (Entry S)) : Prop :=
  (notifications t).count .onStatusChanged = (if c'.status = c.status then 0 else 1) ∧
  (notifications t).count .onProgressChanged = (if c'.progress = c.progress then 0 else 1) ∧
  (notifications t).count .onResultsChanged = (if c'.results = c.results then 0 else 1)

open CommandInstance in
/-- With observers that make no call, the notifications of every call log its changes exactly. -/
theorem Call.wp_changeLog (cl : Call S) (c : CommandInstance S) :
    cl.body.WP cl (Run 0) (fun _ c' t => ChangeLog c c' t) c [] := by
  cases cl <;>
    simp only [Call.body, wp_setProgress, wp_setResults, wp_setError, CommandInstance.pause,
      wp_abort, wp_cancel, wp_setStatus, wp_removeFromQueue, run_zero] <;>
    simp +contextual [ChangeLog]

/-- Notifications with observers that make no call: `OnStatusChanged`, `OnProgressChanged` and
`OnResultsChanged` each fire once when their member changed and never otherwise; and when the
record `ToJson` writes changes, a notification fired or the recorded error changed. -/
theorem run_notifications (cl : Call S) (c : CommandInstance S)
    (errorInfoToJson : ErrorPtr → DictionaryValue) :
    (notifications (cl.run c).trace).count .onStatusChanged =
        (if (cl.run c).state.status = c.status then 0 else 1) ∧
      (notifications (cl.run c).trace).count .onProgressChanged =
        (if (cl.run c).state.progress = c.progress then 0 else 1) ∧
      (notifications (cl.run c).trace).count .onResultsChanged =
        (if (cl.run c).state.results = c.results then 0 else 1) ∧
      ((cl.run c).state.toJson errorInfoToJson ≠ c.toJson errorInfoToJson →
        notifications (cl.run c).trace ≠ [] ∨ (cl.run c).state.error ≠ c.error) := by
  have hl := Call.run_of_wp cl (cl.wp_changeLog c)
  have hf := (Run.of_exec (cl.exec_run c)).steps.frame_advance.1
  refine ⟨hl.1, hl.2.1, hl.2.2, fun hne => or_iff_not_imp_left.2 fun hn herr => hne ?_⟩
  have unchanged : ∀ {p : Prop} [Decidable p], 0 = (if p then 0 else 1) → p := fun h =>
    by_contra fun hp => by simp [hp] at h
  obtain ⟨hs, hp, hr⟩ := hl
  rw [not_ne_iff.1 hn] at hs hp hr
  exact CommandInstance.toJson_congr hf.id hf.name hf.parameters (unchanged hp) (unchanged hr)
    (unchanged hs) herr

/-- A `lock.setConfig` command put in `error` with no error recorded, then given the error of the
example daemon by `SetError`: the record `ToJson` writes gains an `error` member, and no observer
is told, whatever `ErrorInfoToJson` writes. -/
theorem setError_unannounced :
    Reachable ((Call.setError []).run CommandInstance.lockCommand).state ∧
      ((Call.setError []).run CommandInstance.lockCommand).state.status = .error ∧
      notifications ((Call.setError CommandInstance.invalidParameters).run
        ((Call.setError []).run CommandInstance.lockCommand).state).trace = [] ∧
      ∀ errorInfoToJson : ErrorPtr → DictionaryValue,
        ((Call.setError CommandInstance.invalidParameters).run
          ((Call.setError []).run CommandInstance.lockCommand).state).state.toJson errorInfoToJson ≠
          ((Call.setError []).run CommandInstance.lockCommand).state.toJson errorInfoToJson :=
  ⟨.run (.new _ _ _ _) (Run.of_exec (Call.exec_run _ _)), rfl, rfl,
    fun errorInfoToJson => CommandInstance.toJson_ne_of_error_isEmpty errorInfoToJson rfl rfl⟩

end Libweave
