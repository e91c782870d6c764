import Libweave.Commands.Refusals
import Libweave.Commands.Postconditions

/-!
# What a call replies, and calls repeated after they succeeded

`CommandInstance`'s methods return a `bool` and add errors to the chain their caller passes.  A
call fails for one of three reasons, and its reply says which (`exec_reply`): the definition is
detached (`ReportDestroyedError`), the document does not convert under the definition's schema
(the schema's errors), or `SetStatus` refuses the transition, which it does only from a terminal
status other than the call's target (`ReportInvalidStateTransition`).  The first two are checked
before anything is assigned, so a call they reject changes nothing and tells no observer,
`SetResults` included.  Every other reply is `true` with no error.  This holds whatever calls the
observers make.

A call that succeeded leaves the members settled: the status it targets and the member it sets
holding its argument.  Repeating it from there succeeds again, changes no member and tells no
observer, so that its observers never run (`run_run_of_success`).  The repeat is not silent
towards the queue: a repeated `SetResults`, `Abort` or `Cancel` of a command attached to a queue
asks the queue once more to remove it.
-/

namespace Libweave

variable {S : SchemaUtils}

namespace Call

/-- What `SetProgress` and `SetResults` make of their document under the definition's progress or
results schema; the other calls convert nothing. -/
def conversion : Call S → CommandDefinition S → Option (Except ErrorPtr S.ValueMap)
  | .setProgress progress, commandDefinition =>
    some (S.typedValueFromJson commandDefinition.progress (.dictionary progress))
  | .setResults results, commandDefinition =>
    some (S.typedValueFromJson commandDefinition.results (.dictionary results))
  | _, _ => none

/-- The replies a call may give from the members `c`, with the members `c'` and the steps `t` it
leaves: rejected by its checks, it changes nothing and returns the destroyed-command error or the
schema's errors; accepted, it returns `true` with no error, or the `InvalidStateTransition` error
from a terminal status other than its target. -/
def Replies (cl : Call S) (c : CommandInstance S) (r : Reply) (c' : CommandInstance S)
    (t : List (Entry S)) : Prop :=
  (cl.accepted c = false → c' = c ∧ t = [] ∧
    (c.commandDefinition = none ∧ r = CommandInstance.reportDestroyedError ∨
      ∃ commandDefinition error, c.commandDefinition = some commandDefinition ∧
        cl.conversion commandDefinition = some (.error error) ∧ r = (false, error))) ∧
  (cl.accepted c = true → r = (true, []) ∨
    ∃ status, status.isTerminal = true ∧ status ≠ cl.target ∧
      r = CommandInstance.reportInvalidStateTransition status cl.target)

namespace Replies

variable {cl : Call S} {c c' : CommandInstance S} {r : Reply} {t : List (Entry S)}

lemma of_accepted (ha : cl.accepted c = true)
    (hr : r = (true, []) ∨ ∃ status, status.isTerminal = true ∧ status ≠ cl.target ∧
      r = CommandInstance.reportInvalidStateTransition status cl.target) :
    cl.Replies c r c' t :=
  ⟨fun hf => absurd (hf.symm.trans ha) Bool.false_ne_true, fun _ => hr⟩

lemma of_rejected (ha : cl.accepted c = false)
    (hr : c.commandDefinition = none ∧ r = CommandInstance.reportDestroyedError ∨
      ∃ commandDefinition error, c.commandDefinition = some commandDefinition ∧
        cl.conversion commandDefinition = some (.error error) ∧ r = (false, error)) :
    cl.Replies c r c [] :=
  ⟨fun _ => ⟨rfl, rfl, hr⟩, fun ht => absurd (ha.symm.trans ht) Bool.false_ne_true⟩

end Replies

end Call

section Rules

open CommandInstance Prog

variable {call : Call S} {R : CommandInstance S → CommandInstance S → List (Entry S) → Prop}
  {c : CommandInstance S} {acc : List (Entry S)} {s : CommandStatus}
  {Q : Reply → CommandInstance S → List (Entry S) → Prop}

/-- `SetStatus` towards a status other than `queued` returns `true` with no error, or refuses a
transition out of a terminal status other than the requested one. -/
lemma wp_setStatus_reply (hs : s ≠ .queued)
    (hQ : ∀ r c₁ acc₁, (r = (true, []) ∨ ∃ status, status.isTerminal = true ∧ status ≠ s ∧
      r = reportInvalidStateTransition status s) → Q r c₁ acc₁) :
    (setStatus s).WP call R Q c acc :=
  wp_setStatus_of_success (fun _ _ => hQ _ _ _ (.inl rfl))
    fun hne hr => hQ _ _ _ (.inr ⟨c.status, hr.resolve_left hs, Ne.symm hne, rfl⟩)

lemma wp_setStatus_removeFromQueue_reply (hs : s ≠ .queued)
    (hQ : ∀ r c₁ acc₁, (r = (true, []) ∨ ∃ status, status.isTerminal = true ∧ status ≠ s ∧
      r = reportInvalidStateTransition status s) → Q r c₁ acc₁) :
    (setStatus s).WP call R (fun r c₁ acc₁ =>
      removeFromQueue.WP call R (fun _ c₂ acc₂ => Q r c₂ acc₂) c₁ acc₁) c acc :=
  wp_setStatus_reply hs fun _ _ _ hr =>
    wp_removeFromQueue_of_members fun _ => hQ _ _ _ hr

end Rules

namespace Call

open CommandInstance

/-- Every call replies as `Replies` says, whatever the observers of its broadcasts do. -/
theorem wp_reply (cl : Call S) (c : CommandInstance S)
    {R : CommandInstance S → CommandInstance S → List (Entry S) → Prop} :
    cl.body.WP cl R (fun r c' t => cl.Replies c r c' t) c [] := by
  cases cl with
  | setProgress progress =>
    refine wp_setProgress.2 ⟨fun hd => .of_rejected (by simp [accepted, hd]) (.inl ⟨hd, rfl⟩),
      fun commandDefinition hd => ⟨fun error hv => .of_rejected
        (by simp [accepted, hd, hv, Except.toBool])
        (.inr ⟨commandDefinition, error, hd, by rw [conversion, hv], rfl⟩), fun _ hv => ?_⟩⟩
    have ha : (Call.setProgress progress).accepted c = true := by
      simp [accepted, hd, hv, Except.toBool]
    exact wp_setStatus_reply nofun fun _ _ _ hr =>
      ⟨fun _ => ⟨fun _ => .of_accepted ha (.inl rfl), fun _ _ _ _ => .of_accepted ha (.inl rfl)⟩,
        fun _ => .of_accepted ha hr⟩
  | setResults results =>
    refine wp_setResults.2 ⟨fun hd => .of_rejected (by simp [accepted, hd]) (.inl ⟨hd, rfl⟩),
      fun commandDefinition hd => ⟨fun error hv => .of_rejected
        (by simp [accepted, hd, hv, Except.toBool])
        (.inr ⟨commandDefinition, error, hd, by rw [conversion, hv], rfl⟩), fun _ hv => ?_⟩⟩
    have ha : (Call.setResults results).accepted c = true := by
      simp [accepted, hd, hv, Except.toBool]
    exact ⟨fun _ => wp_setStatus_removeFromQueue_reply nofun fun _ _ _ => .of_accepted ha,
      fun _ _ _ _ => wp_setStatus_removeFromQueue_reply nofun fun _ _ _ => .of_accepted ha⟩
  | setError commandError =>
    have ha : (Call.setError commandError).accepted c = true := rfl
    exact wp_setError.2 (wp_setStatus_reply nofun fun _ _ _ => .of_accepted ha)
  | pause =>
    have ha : (Call.pause : Call S).accepted c = true := rfl
    exact wp_setStatus_reply nofun fun _ _ _ => .of_accepted ha
  | abort commandError =>
    have ha : (Call.abort commandError).accepted c = true := rfl
    exact wp_abort.2 (wp_setStatus_removeFromQueue_reply nofun fun _ _ _ => .of_accepted ha)
  | cancel =>
    have ha : (Call.cancel : Call S).accepted c = true := rfl
    exact wp_cancel.2 (wp_setStatus_removeFromQueue_reply nofun fun _ _ _ => .of_accepted ha)

end Call

/-- Every reply of every call, whatever calls the observers make: a call its checks reject — the
definition detached, or the document not converting under its schema — changes nothing, tells no
observer, and returns the destroyed-command error or the schema's errors; any other call returns
`true` with no error, or `false` with the `InvalidStateTransition` error from a terminal status
other than its target to its target. -/
theorem exec_reply {nested : CommandInstance S → CommandInstance S → List (Entry S) → Prop}
    {cl : Call S} {c : CommandInstance S} {o : Outcome S Reply} (h : cl.Exec nested c o) :
    (cl.accepted c = false → o.state = c ∧ o.trace = [] ∧
      (c.commandDefinition = none ∧ o.result = CommandInstance.reportDestroyedError ∨
        ∃ commandDefinition error, c.commandDefinition = some commandDefinition ∧
          cl.conversion commandDefinition = some (.error error) ∧ o.result = (false, error))) ∧
    (cl.accepted c = true → o.result = (true, []) ∨
      ∃ status, status.isTerminal = true ∧ status ≠ cl.target ∧
        o.result = CommandInstance.reportInvalidStateTransition status cl.target) := by
  exact (by simpa using Prog.wp_sound id (cl.wp_reply c) h : cl.Replies c o.result o.state o.trace)

/-- `Cancel` on a `lock.setConfig` command that is `done`: accepted, and refused from `done`. -/
theorem exec_reply_cancel :
    let c := ((Call.setResults [("lockedState", .string "locked")]).run
      CommandInstance.lockCommand).state
    let cl : Call SchemaUtils.stringObjects := .cancel
    let o := cl.run c
    cl.Exec (Run 0) c o ∧
      (cl.accepted c = false → o.state = c ∧ o.trace = [] ∧
        (c.commandDefinition = none ∧ o.result = CommandInstance.reportDestroyedError ∨
          ∃ commandDefinition error, c.commandDefinition = some commandDefinition ∧
            cl.conversion commandDefinition = some (.error error) ∧ o.result = (false, error))) ∧
      (cl.accepted c = true → o.result = (true, []) ∨
        ∃ status, status.isTerminal = true ∧ status ≠ cl.target ∧
          o.result = CommandInstance.reportInvalidStateTransition status cl.target) :=
  ⟨Call.exec_run _ _, exec_reply (Call.exec_run _ _)⟩

/-! ### Repeating a call that succeeded -/

namespace Call

/-- The members a call leaves when it succeeds: the status it targets, and the member it sets
holding its argument, converted under the definition's schema. -/
def Settled : Call S → CommandInstance S → Prop
  | .setProgress progress, c => c.status = .inProgress ∧ ∃ commandDefinition,
      c.commandDefinition = some commandDefinition ∧
      S.typedValueFromJson commandDefinition.progress (.dictionary progress) = .ok c.progress
  | .setResults results, c => c.status = .done ∧ ∃ commandDefinition,
      c.commandDefinition = some commandDefinition ∧
      S.typedValueFromJson commandDefinition.results (.dictionary results) = .ok c.results
  | .setError commandError, c => c.status = .error ∧ c.error = commandError
  | .pause, c => c.status = .paused
  | .abort commandError, c => c.status = .aborted ∧ c.error = commandError
  | .cancel, c => c.status = .cancelled

end Call

section Settle

open CommandInstance Prog

variable {call : Call S} {R : CommandInstance S → CommandInstance S → List (Entry S) → Prop}
  {c : CommandInstance S} {acc : List (Entry S)} {s : CommandStatus}
  {Q : Reply → CommandInstance S → List (Entry S) → Prop}

/-- With observers that make no call, `SetStatus` either succeeds and leaves the members with the
requested status, or fails and leaves them as they were. -/
lemma wp_setStatus_run0 (hQ : ∀ r c₁ acc₁,
      r = (true, []) ∧ c₁ = { c with status := s } ∨ r.1 = false ∧ c₁ = c → Q r c₁ acc₁) :
    (setStatus s).WP call (Run 0) Q c acc :=
  wp_setStatus.2 ⟨fun he => hQ _ _ _ (.inl ⟨rfl, by subst he; rfl⟩),
    fun _ _ => hQ _ _ _ (.inr ⟨rfl, rfl⟩), fun _ _ _ _ _ ⟨hc, _⟩ => hQ _ _ _ (.inl ⟨rfl, hc⟩)⟩

lemma wp_setStatus_removeFromQueue_run0 (hQ : ∀ r c₁ acc₁,
      r = (true, []) ∧ c₁ = { c with status := s } ∨ r.1 = false ∧ c₁ = c → Q r c₁ acc₁) :
    (setStatus s).WP call (Run 0) (fun r c₁ acc₁ =>
      removeFromQueue.WP call (Run 0) (fun _ c₂ acc₂ => Q r c₂ acc₂) c₁ acc₁) c acc :=
  wp_setStatus_run0 fun _ _ _ h => wp_removeFromQueue_of_members fun _ => hQ _ _ _ h

lemma of_success {P : CommandInstance S → Prop} {r : Reply} {c₁ : CommandInstance S}
    (h : r = (true, []) ∧ c₁ = { c with status := s } ∨ r.1 = false ∧ c₁ = c)
    (hP : P { c with status := s }) (hr : r.1 = true) : P c₁ := by
  rcases h with ⟨_, rfl⟩ | ⟨hf, _⟩
  exacts [hP, absurd (hf.symm.trans hr) Bool.false_ne_true]

lemma wp_setStatus_same (hs : c.status = s) (hQ : Q (true, []) c acc) :
    (setStatus s).WP call R Q c acc :=
  wp_setStatus.2 ⟨fun _ => hQ, fun hne => absurd hs.symm hne, fun hne => absurd hs.symm hne⟩

end Settle

namespace Call

open CommandInstance

/-- A call that succeeds, with observers that make no call, leaves the members settled. -/
theorem wp_settled (cl : Call S) (c : CommandInstance S) :
    cl.body.WP cl (Run 0) (fun r c' _ => r.1 = true → cl.Settled c') c [] := by
  have fails : ∀ {r : Reply} {P : Prop}, r.1 = false → r.1 = true → P :=
    fun hf hr => absurd (hf.symm.trans hr) Bool.false_ne_true
  cases cl with
  | setProgress progress =>
    refine wp_setProgress.2 ⟨fun _ => fails rfl, fun commandDefinition hd =>
      ⟨fun _ _ => fails rfl, fun _ hv => wp_setStatus_run0 fun _ _ _ h => ?_⟩⟩
    rcases h with ⟨rfl, rfl⟩ | ⟨hf, rfl⟩
    · -- `inProgress` was set: the progress is the converted document, replaced or not
      refine ⟨fun _ => ⟨fun he _ => ?unchanged, fun _ _ _ ⟨hc, _⟩ _ => ?replaced⟩, nofun⟩
      case unchanged => exact ⟨rfl, commandDefinition, hd, he ▸ hv⟩
      case replaced =>
        subst hc
        exact ⟨rfl, commandDefinition, hd, hv⟩
    · exact ⟨fails hf, fun _ => fails hf⟩
  | setResults results =>
    refine wp_setResults.2 ⟨fun _ => fails rfl, fun commandDefinition hd =>
      ⟨fun _ _ => fails rfl, fun _ hv => ⟨fun he => ?unchanged, fun _ _ _ ⟨hc, _⟩ => ?replaced⟩⟩⟩
    case unchanged =>
      exact wp_setStatus_removeFromQueue_run0 fun _ _ _ h =>
        of_success h ⟨rfl, commandDefinition, hd, he ▸ hv⟩
    case replaced =>
      subst hc
      exact wp_setStatus_removeFromQueue_run0 fun _ _ _ h =>
        of_success h ⟨rfl, commandDefinition, hd, hv⟩
  | setError commandError =>
    exact wp_setError.2 (wp_setStatus_run0 fun _ _ _ h => of_success h ⟨rfl, rfl⟩)
  | pause => exact wp_setStatus_run0 fun _ _ _ h => of_success h rfl
  | abort commandError =>
    exact wp_abort.2 (wp_setStatus_removeFromQueue_run0 fun _ _ _ h => of_success h ⟨rfl, rfl⟩)
  | cancel => exact wp_cancel.2 (wp_setStatus_removeFromQueue_run0 fun _ _ _ h => of_success h rfl)

/-- From settled members, the call succeeds again, changes nothing and tells no observer, so its
observers never run. -/
theorem wp_of_settled {cl : Call S} {c : CommandInstance S} (h : cl.Settled c)
    {R : CommandInstance S → CommandInstance S → List (Entry S) → Prop} :
    cl.body.WP cl R (fun r c' t => r = (true, []) ∧ c' = c ∧ notifications t = []) c [] := by
  have removed : removeFromQueue.WP cl R
      (fun _ c' t => ((true, []) : Reply) = (true, []) ∧ c' = c ∧ notifications t = []) c [] :=
    wp_removeFromQueue.2 ⟨fun _ => ⟨rfl, rfl, rfl⟩, fun _ => ⟨rfl, rfl, rfl⟩⟩
  cases cl with
  | setProgress progress =>
    -- the progress converted is the one held: nothing to replace
    obtain ⟨hs, commandDefinition, hd, hv⟩ := h
    exact wp_setProgress_of_ok hd hv (wp_setStatus_same hs
      ⟨fun _ => ⟨fun _ => ⟨rfl, rfl, rfl⟩, fun hne => absurd rfl hne⟩, nofun⟩)
  | setResults results =>
    obtain ⟨hs, commandDefinition, hd, hv⟩ := h
    exact wp_setResults_of_ok hd hv (fun _ => wp_setStatus_same hs removed)
      fun hne => absurd rfl hne
  | setError commandError =>
    obtain ⟨hs, rfl⟩ := h
    exact wp_setError.2 (wp_setStatus_same hs ⟨rfl, rfl, rfl⟩)
  | pause => exact wp_setStatus_same h ⟨rfl, rfl, rfl⟩
  | abort commandError =>
    obtain ⟨hs, rfl⟩ := h
    exact wp_abort.2 (wp_setStatus_same hs (wp_removeFromQueue.2
      ⟨fun _ => ⟨rfl, rfl, rfl⟩, fun _ => ⟨rfl, rfl, rfl⟩⟩))
  | cancel => exact wp_cancel.2 (wp_setStatus_same h removed)

end Call

/-- After a call that succeeded with observers that make no call back, the same call again
succeeds, changes no member and tells no observer, whatever calls its observers would make —
whatever the call, its argument and the members it started from.  A repeated `SetResults`,
`Abort` or `Cancel` still asks the queue again to remove a command attached to it. -/
theorem run_run_of_success (cl : Call S) (c : CommandInstance S) (h : (cl.run c).result.1 = true)
    {nested : CommandInstance S → CommandInstance S → List (Entry S) → Prop}
    {o : Outcome S Reply} (ho : cl.Exec nested (cl.run c).state o) :
    o.result = (true, []) ∧ o.state = (cl.run c).state ∧ notifications o.trace = [] := by
  simpa using Prog.wp_sound id (Call.wp_of_settled (Call.run_of_wp cl (cl.wp_settled c) h)) ho

/-- New progress for a queued `lock.setConfig` command, sent twice. -/
theorem run_run_of_success_setProgress :
    let cl : Call SchemaUtils.stringObjects := .setProgress [("lockedState", .string "unlocking")]
    let c := CommandInstance.lockCommand
    let o := cl.run (cl.run c).state
    (cl.run c).result.1 = true ∧ cl.Exec (Run 0) (cl.run c).state o ∧
      o.result = (true, []) ∧ o.state = (cl.run c).state ∧ notifications o.trace = [] :=
  ⟨rfl, Call.exec_run _ _, run_run_of_success (.setProgress [("lockedState", .string "unlocking")])
    CommandInstance.lockCommand rfl (Call.exec_run _ _)⟩

end Libweave
