import Libweave.Commands.Lifecycle

/-!
# Refused calls and terminal commands

From a terminal status `SetStatus` changes nothing and broadcasts nothing.  So from a terminal
command every call keeps the status and the progress and, unless it asks for the status the
command already has, returns `false` (`exec_terminal_final`).  The results are the exception:
`SetResults` replaces them and tells the observers before it calls `SetStatus`, so on a `done`
command it even succeeds with new results.

A call that returns `false` has broadcast nothing and changed nothing, except for `SetError` and
`Abort`, which record their error before they try the transition (`exec_refused`), and for
`SetResults`, which replaces its results and tells the observers before it tries the transition.
Both results hold whatever calls the observers make.

Conversely, a call towards a terminal status whose document passes its checks — `SetResults`,
`Abort`, `Cancel` — always leaves the command terminal (`Call.wp_ends`).
-/

namespace Libweave

variable {S : SchemaUtils}

namespace Call

/-- Whether the document of a call passes the checks its body makes before `SetStatus`: the
definition is still attached and the document converts under its progress or results schema.  The
other calls check nothing. -/
def accepted : Call S → CommandInstance S → Bool
  | .setProgress progress, c => c.commandDefinition.any fun commandDefinition =>
      (S.typedValueFromJson commandDefinition.progress (.dictionary progress)).toBool
  | .setResults results, c => c.commandDefinition.any fun commandDefinition =>
      (S.typedValueFromJson commandDefinition.results (.dictionary results)).toBool
  | _, _ => true

end Call

section Rules

open CommandInstance Prog

variable {call : Call S} {R : CommandInstance S → CommandInstance S → List (Entry S) → Prop}
  {c : CommandInstance S} {acc : List (Entry S)} {s : CommandStatus}
  {Q : Reply → CommandInstance S → List (Entry S) → Prop}

/-- From a terminal status `SetStatus` changes nothing and broadcasts nothing: it succeeds when
asked for the status the command has, and is refused otherwise. -/
lemma wp_setStatus_of_terminal (ht : c.status.isTerminal = true)
    (h₁ : s = c.status → Q (true, []) c acc)
    (h₂ : s ≠ c.status → Q (reportInvalidStateTransition c.status s) c acc) :
    (setStatus s).WP call R Q c acc :=
  wp_setStatus.2 ⟨h₁, fun hne _ => h₂ hne, fun _ _ hnt => nomatch ht.symm.trans hnt⟩

/-- From a terminal status, `SetStatus` and then `RemoveFromQueue` change nothing and broadcast
nothing. -/
lemma wp_setStatus_removeFromQueue_of_terminal (ht : c.status.isTerminal = true)
    (h₁ : s = c.status → ∀ acc', Q (true, []) c acc')
    (h₂ : s ≠ c.status → ∀ acc', Q (reportInvalidStateTransition c.status s) c acc') :
    (setStatus s).WP call R (fun r c₁ acc₁ =>
      removeFromQueue.WP call R (fun _ c₂ acc₂ => Q r c₂ acc₂) c₁ acc₁) c acc :=
  wp_setStatus_of_terminal ht (fun he => wp_removeFromQueue_of_members (h₁ he))
    fun hne => wp_removeFromQueue_of_members (h₂ hne)

end Rules

/-! ### Terminal finality -/

/-- A stretch of a run that starts at a terminal status keeps the status and the progress. -/
def TerminalFixed (c c' : CommandInstance S) (_ : List (Entry S)) : Prop :=
  c.status.isTerminal = true → c'.status = c.status ∧ c'.progress = c.progress

namespace Call

open CommandInstance Prog

/-- From a terminal status, a call keeps the status and the progress, keeps the results unless it
is `SetResults`, and, unless it asks for the status the command has, returns `false`: with the
refused transition when its document passes its checks. -/
theorem wp_terminal (cl : Call S) {c : CommandInstance S} (ht : c.status.isTerminal = true) :
    cl.body.WP cl TerminalFixed (fun r c' _ => c'.status = c.status ∧ c'.progress = c.progress ∧
      ((∀ results, cl ≠ .setResults results) → c'.results = c.results) ∧
      (cl.target ≠ c.status → r.1 = false ∧
        (cl.accepted c = true → r = reportInvalidStateTransition c.status cl.target))) c [] := by
  cases cl with
  | setProgress progress =>
    refine wp_setProgress.2 ⟨fun hd => ?destroyed, fun _ hd => ⟨fun _ hv => ?invalid,
      fun _ _ => wp_setStatus_of_terminal ht (fun he => ?same) fun _ => ?refused⟩⟩
    case destroyed | invalid =>
      -- the checks reject the call: it is not accepted
      refine ⟨rfl, rfl, fun _ => rfl, fun _ => ⟨rfl, fun ha => ?_⟩⟩
      simp [accepted, Except.toBool, *] at ha
    case same =>
      rw [← he] at ht
      nomatch ht
    case refused => exact ⟨nofun, fun _ => ⟨rfl, rfl, fun _ => rfl, fun _ => ⟨rfl, fun _ => rfl⟩⟩⟩
  | setResults results =>
    refine wp_setResults.2 ⟨fun hd => ?destroyed, fun _ hd => ⟨fun _ hv => ?invalid,
      fun _ _ => ⟨fun _ => ?unchanged, fun _ c₁ _ hf => ?replaced⟩⟩⟩
    case destroyed | invalid =>
      refine ⟨rfl, rfl, fun h => absurd rfl (h results), fun _ => ⟨rfl, fun ha => ?_⟩⟩
      simp [accepted, Except.toBool, *] at ha
    case unchanged =>
      exact wp_setStatus_removeFromQueue_of_terminal ht
        (fun he _ => ⟨rfl, rfl, fun h => absurd rfl (h results), fun hne => absurd he hne⟩)
        fun _ _ => ⟨rfl, rfl, fun h => absurd rfl (h results), fun _ => ⟨rfl, fun _ => rfl⟩⟩
    case replaced =>
      -- the observers told of the new results keep the status and the progress
      obtain ⟨hs, hp⟩ := hf ht
      refine wp_setStatus_removeFromQueue_of_terminal (hs ▸ ht) (fun he _ => ?same)
        fun _ _ => ?refused
      case same =>
        exact ⟨hs, hp, fun h => absurd rfl (h results), fun hne => absurd (he.trans hs) hne⟩
      case refused =>
        exact ⟨hs, hp, fun h => absurd rfl (h results), fun _ => ⟨rfl, fun _ => by rw [hs]; rfl⟩⟩
  | setError commandError =>
    refine wp_setError.2 (wp_setStatus_of_terminal ht (fun he => ?same) fun _ => ?refused)
    case same => exact ⟨rfl, rfl, fun _ => rfl, fun hne => absurd he hne⟩
    case refused => exact ⟨rfl, rfl, fun _ => rfl, fun _ => ⟨rfl, fun _ => rfl⟩⟩
  | pause =>
    refine wp_setStatus_of_terminal ht (fun he => ?same) fun _ => ?refused
    case same => exact ⟨rfl, rfl, fun _ => rfl, fun hne => absurd he hne⟩
    case refused => exact ⟨rfl, rfl, fun _ => rfl, fun _ => ⟨rfl, fun _ => rfl⟩⟩
  | abort commandError =>
    refine wp_abort.2 (wp_setStatus_removeFromQueue_of_terminal ht (fun he _ => ?same)
      fun _ _ => ?refused)
    case same => exact ⟨rfl, rfl, fun _ => rfl, fun hne => absurd he hne⟩
    case refused => exact ⟨rfl, rfl, fun _ => rfl, fun _ => ⟨rfl, fun _ => rfl⟩⟩
  | cancel =>
    refine wp_cancel.2 (wp_setStatus_removeFromQueue_of_terminal ht (fun he _ => ?same)
      fun _ _ => ?refused)
    case same => exact ⟨rfl, rfl, fun _ => rfl, fun hne => absurd he hne⟩
    case refused => exact ⟨rfl, rfl, fun _ => rfl, fun _ => ⟨rfl, fun _ => rfl⟩⟩

lemma exec_terminalFixed {nested : CommandInstance S → CommandInstance S → List (Entry S) → Prop}
    (hn : ∀ {c c' t}, nested c c' t → TerminalFixed c c' t) {cl : Call S} {c : CommandInstance S}
    {o : Outcome S Reply} (h : cl.Exec nested c o) : TerminalFixed c o.state o.trace :=
  fun ht => have h' := Prog.wp_sound hn (cl.wp_terminal ht) h
  ⟨h'.1, h'.2.1⟩

end Call

/-- Every run, with calls nested to any depth, is `TerminalFixed`. -/
theorem Run.terminalFixed {d : Nat} {c c' : CommandInstance S} {t : List (Entry S)}
    (h : Run d c c' t) : TerminalFixed c c' t := by
  refine Run.induction (fun _ _ => ⟨rfl, rfl⟩) (fun h₁ h₂ ht => ?_) Call.exec_terminalFixed h
  obtain ⟨hs₁, hp₁⟩ := h₁ ht
  obtain ⟨hs₂, hp₂⟩ := h₂ (hs₁ ▸ ht)
  exact ⟨hs₂.trans hs₁, hp₂.trans hp₁⟩

/-! ### The calls that end a command -/

section Ends

open CommandInstance Prog

/-- `SetStatus` towards a terminal target, then `RemoveFromQueue`, leave the command terminal:
the transition is made, or the status is already the target, or it is terminal already. -/
lemma wp_setStatus_removeFromQueue_ends {cl : Call S} {c₀ c : CommandInstance S}
    {acc : List (Entry S)} (hT : cl.target.isTerminal = true) (h : Steps c₀ c acc) :
    (setStatus cl.target).WP cl Steps (fun _ c₁ acc₁ =>
      removeFromQueue.WP cl Steps (fun _ c₂ _ => c₂.status.isTerminal = true) c₁ acc₁) c acc :=
  wp_setStatus_steps h fun _ _ _ _ ht => wp_removeFromQueue_of_members fun _ => ht hT

/-- A call towards a terminal status whose document passes its checks — `SetResults` with
results its definition accepts, `Abort`, `Cancel` — leaves the command terminal, whatever the
observers call. -/
theorem Call.wp_ends (cl : Call S) (c : CommandInstance S) (hT : cl.target.isTerminal = true)
    (ha : cl.accepted c = true) :
    cl.body.WP cl Steps (fun _ c' _ => c'.status.isTerminal = true) c [] := by
  have nil := Steps.nil c
  cases cl with
  | setResults results =>
    refine wp_setResults.2 ⟨fun hd => ?_, fun _ hd => ⟨fun _ hv => ?_, fun _ _ =>
      ⟨fun _ => wp_setStatus_removeFromQueue_ends hT nil,
        fun _ _ _ ht => wp_setStatus_removeFromQueue_ends hT
          (nil.assign_notify (Entry.allowed_document .results) ht)⟩⟩⟩
    · simp [Call.accepted, hd] at ha
    · simp [Call.accepted, hd, hv, Except.toBool] at ha
  | abort commandError =>
    exact wp_abort.2 (wp_setStatus_removeFromQueue_ends hT
      (nil.assign (Entry.allowed_error ⟨_, .inr rfl⟩)))
  | cancel => exact wp_cancel.2 (wp_setStatus_removeFromQueue_ends hT nil)
  | setProgress | setError | pause => exact absurd hT Bool.false_ne_true

end Ends

/-- Terminal finality: from a terminal status, with observers making calls nested to any depth,
a call keeps the status and the progress, keeps the results unless it is `SetResults`, and, unless
it asks for the status the command has, returns `false` — with the refused transition as its error
when its document passes its checks. -/
theorem exec_terminal_final {d : Nat} {cl : Call S} {c : CommandInstance S} {o : Outcome S Reply}
    (h : cl.Exec (Run d) c o) (ht : c.status.isTerminal = true) :
    o.state.status = c.status ∧ o.state.progress = c.progress ∧
      ((∀ results, cl ≠ .setResults results) → o.state.results = c.results) ∧
      (cl.target ≠ c.status → o.result.1 = false ∧
        (cl.accepted c = true → o.result = CommandInstance.reportInvalidStateTransition c.status cl.target)) :=
  Prog.wp_sound Run.terminalFixed (cl.wp_terminal ht) h

/-- `Cancel` on a `lock.setConfig` command that is `done`. -/
theorem exec_terminal_final_cancel :
    let c := ((Call.setResults [("lockedState", .string "locked")]).run CommandInstance.lockCommand).state
    let cl : Call SchemaUtils.stringObjects := .cancel
    let o := cl.run c
    cl.Exec (Run 0) c o ∧ c.status.isTerminal = true ∧
      o.state.status = c.status ∧ o.state.progress = c.progress ∧
      ((∀ results, cl ≠ .setResults results) → o.state.results = c.results) ∧
      (cl.target ≠ c.status → o.result.1 = false ∧
        (cl.accepted c = true → o.result = CommandInstance.reportInvalidStateTransition c.status cl.target)) :=
  ⟨Call.exec_run _ _, rfl, exec_terminal_final (Call.exec_run _ _) rfl⟩

/-- The results are not final: a `lock.setConfig` command that is `done` takes new results from
`SetResults`, which succeeds and announces them. -/
theorem setResults_after_done :
    let c := ((Call.setResults [("lockedState", .string "locked")]).run CommandInstance.lockCommand).state
    let o := (Call.setResults [("lockedState", .string "unlocked")]).run c
    Reachable c ∧ c.status = .done ∧ o.result = (true, []) ∧ o.state.results ≠ c.results ∧
      notifications o.trace = [.onResultsChanged] :=
  ⟨.run (.new _ _ _ _) (Run.of_exec (Call.exec_run _ _)), rfl, rfl, by decide, rfl⟩

/-! ### Failing calls -/

namespace Call

open CommandInstance Prog

/-- A call other than `SetResults` either succeeds, or has broadcast nothing and changed nothing
but, for `SetError` and `Abort`, the recorded error. -/
theorem wp_refused (cl : Call S) (hcl : ∀ results, cl ≠ .setResults results)
    (c : CommandInstance S) {R : CommandInstance S → CommandInstance S → List (Entry S) → Prop} :
    cl.body.WP cl R (fun r c' t => r.1 = true ∨
      (c' = c ∨ ∃ commandError, (cl = .setError commandError ∨ cl = .abort commandError) ∧
        c' = { c with error := commandError }) ∧ ∀ e ∈ t, ∀ n, e.event ≠ .notify n) c [] := by
  cases cl with
  | setProgress progress =>
    refine wp_setProgress.2 ⟨fun _ => ?destroyed, fun _ _ => ⟨fun _ _ => ?invalid, fun _ _ =>
      wp_setStatus_of_success (fun _ _ => ?succeeded) fun _ _ => ⟨nofun, fun _ => ?refused⟩⟩⟩
    case destroyed | invalid | refused => exact .inr ⟨.inl rfl, fun _ h => nomatch h⟩
    case succeeded => exact ⟨fun _ => ⟨fun _ => .inl rfl, fun _ _ _ _ => .inl rfl⟩, nofun⟩
  | setResults results => exact absurd rfl (hcl results)
  | setError commandError =>
    exact wp_setError.2 (wp_setStatus_of_success (fun _ _ => .inl rfl)
      fun _ _ => .inr ⟨.inr ⟨commandError, .inl rfl, rfl⟩, by simp⟩)
  | pause =>
    exact wp_setStatus_of_success (fun _ _ => .inl rfl)
      fun _ _ => .inr ⟨.inl rfl, fun _ h => nomatch h⟩
  | abort commandError =>
    refine wp_abort.2 (wp_setStatus_of_success (fun _ _ => ?succeeded) fun _ _ => ?refused)
    case succeeded => exact wp_removeFromQueue_of_members fun _ => .inl rfl
    case refused =>
      -- only the error is recorded, and the removal asked for broadcasts nothing
      refine wp_removeFromQueue.2 ⟨fun _ => ?_, fun _ => ?_⟩ <;>
        exact .inr ⟨.inr ⟨commandError, .inr rfl, rfl⟩, by simp⟩
  | cancel =>
    refine wp_cancel.2 (wp_setStatus_of_success (fun _ _ => ?succeeded) fun _ _ => ?refused)
    case succeeded => exact wp_removeFromQueue_of_members fun _ => .inl rfl
    case refused =>
      refine wp_removeFromQueue.2 ⟨fun _ => ?_, fun _ => ?_⟩ <;> exact .inr ⟨.inl rfl, by simp⟩

end Call

/-- Atomicity of refused calls, whatever the observers do: a call other than `SetResults` that
returns `false` has broadcast no notification, and has left the members as they were, but for the
error `SetError` and `Abort` record before they try the transition. -/
theorem exec_refused {nested : CommandInstance S → CommandInstance S → List (Entry S) → Prop}
    {cl : Call S} {c : CommandInstance S} {o : Outcome S Reply} (h : cl.Exec nested c o)
    (hcl : ∀ results, cl ≠ .setResults results) (hr : o.result.1 = false) :
    (o.state = c ∨ ∃ commandError, (cl = .setError commandError ∨ cl = .abort commandError) ∧
      o.state = { c with error := commandError }) ∧ ∀ e ∈ o.trace, ∀ n, e.event ≠ .notify n := by
  have h' := Prog.wp_sound (R := fun _ _ _ => True) (fun _ => trivial) (cl.wp_refused hcl c) h
  rw [List.nil_append, hr] at h'
  exact h'.resolve_left nofun

/-- `Pause` refused on a `lock.setConfig` command that is `done`. -/
theorem exec_refused_pause :
    let c := ((Call.setResults [("lockedState", .string "locked")]).run CommandInstance.lockCommand).state
    let cl : Call SchemaUtils.stringObjects := .pause
    let o := cl.run c
    cl.Exec (Run 0) c o ∧ (∀ results, cl ≠ .setResults results) ∧ o.result.1 = false ∧
      (o.state = c ∨ ∃ commandError, (cl = .setError commandError ∨ cl = .abort commandError) ∧
        o.state = { c with error := commandError }) ∧ ∀ e ∈ o.trace, ∀ n, e.event ≠ .notify n :=
  ⟨Call.exec_run _ _, nofun, rfl, exec_refused (Call.exec_run _ _) nofun rfl⟩

/-- `SetResults` is not atomic: on a cancelled `lock.setConfig` command it fails, after replacing
the results and announcing them. -/
theorem setResults_after_cancel :
    let c := (Call.cancel.run CommandInstance.lockCommand).state
    let o := (Call.setResults [("lockedState", .string "unlocked")]).run c
    Reachable c ∧ o.result.1 = false ∧ o.state.results ≠ c.results ∧
      notifications o.trace = [.onResultsChanged] :=
  ⟨.run (.new _ _ _ _) (Run.of_exec (Call.exec_run _ _)), rfl, by decide, rfl⟩

end Libweave
