import Libweave.Commands.Lifecycle

/-!
# Removal from the queue

`CommandInstance::RemoveFromQueue` asks the owning queue to `DelayedRemove` the command; the queue
destroys it later.  `SetResults`, `Abort` and `Cancel` end with it, whatever `SetStatus` gave.

By the run invariant, a removal request names the command and is made at a terminal status, so
the status is still terminal when the call that asked returns: a live command is never scheduled
for destruction.  Conversely, `RemovalRequested` says that a stretch of a run that takes a live
command attached to a queue to a terminal status contains a request for its removal.  It holds of
every call, with observers that make calls of their own (`exec_removal`): the status becomes
terminal only by a call of `SetResults`, `Abort` or `Cancel`, and each of these asks for the
removal before it returns.
-/

namespace Libweave

variable {S : SchemaUtils}

/-- A removal request in a run names the command, and the run ends at a terminal status. -/
lemma Steps.delayedRemove_terminal {c c' : CommandInstance S} {t : List (Entry S)}
    (h : Steps c c' t) {e : Entry S} (he : e ∈ t) {id : String}
    (hev : e.event = .delayedRemove id) : id = c.id ∧ c'.status.isTerminal = true := by
  obtain ⟨t₁, t₂, rfl⟩ := List.append_of_mem he
  obtain ⟨h₁, ha, h₂⟩ := Steps.append_cons_iff.1 h
  obtain ⟨call, state, event⟩ := e
  subst hev
  obtain ⟨hid, hT⟩ := ha
  exact ⟨hid.trans h₁.frame_advance.1.id, (h₂.terminal_stable hT).symm ▸ hT⟩

/-- A stretch of a run that takes a live command attached to a queue to a terminal status asks
the queue to remove it. -/
def RemovalRequested (c c' : CommandInstance S) (t : List (Entry S)) : Prop :=
  c.queue = true → c.status.isTerminal = false → c'.status.isTerminal = true →
    ∃ e ∈ t, e.event = .delayedRemove c.id

namespace RemovalRequested

variable {c₀ c₁ c₂ : CommandInstance S} {t t₁ t₂ : List (Entry S)}

lemma of_status_eq (h : c₁.status = c₀.status) : RemovalRequested c₀ c₁ t :=
  fun _ hnt hT => (Bool.eq_false_iff.1 hnt (h ▸ hT)).elim

lemma of_live (h : c₁.status.isTerminal = false) : RemovalRequested c₀ c₁ t :=
  fun _ _ hT => (Bool.eq_false_iff.1 h hT).elim

lemma mono (h : RemovalRequested c₀ c₁ t₁) (ht : t₁ ⊆ t₂) : RemovalRequested c₀ c₁ t₂ :=
  fun hq hnt hT => (h hq hnt hT).imp fun _ ⟨he, hev⟩ => ⟨ht he, hev⟩

/-- Two stretches, between which the frame is kept: when the command is terminal where they meet,
the first asked for the removal; otherwise the second did. -/
lemma append (hf : Frame c₀ c₁) (h₁ : RemovalRequested c₀ c₁ t₁)
    (h₂ : RemovalRequested c₁ c₂ t₂) : RemovalRequested c₀ c₂ (t₁ ++ t₂) := by
  intro hq hnt hT
  cases hT₁ : c₁.status.isTerminal with
  | false =>
    obtain ⟨e, he, hev⟩ := h₂ (hf.queue.trans hq) hT₁ hT
    exact ⟨e, List.mem_append_right _ he, hf.id ▸ hev⟩
  | true =>
    obtain ⟨e, he, hev⟩ := h₁ hq hnt hT₁
    exact ⟨e, List.mem_append_left _ he, hev⟩

lemma broadcast {acc : List (Entry S)} (hf : Frame c₀ c₁) (h₁ : RemovalRequested c₀ c₁ acc)
    (h₂ : RemovalRequested c₁ c₂ t) {e₁ e₂ : Entry S} :
    RemovalRequested c₀ c₂ (acc ++ e₁ :: e₂ :: t) :=
  (h₁.append hf h₂).mono fun e he => by
    simp only [List.mem_append, List.mem_cons] at he ⊢
    tauto

end RemovalRequested

/-- The runs that keep the invariant and leave no command they make terminal without a removal
request: what the observers' calls are assumed to do, and what each call is shown to do. -/
def QueueSafe (c c' : CommandInstance S) (t : List (Entry S)) : Prop :=
  Steps c c' t ∧ RemovalRequested c c' t

section Rules

open CommandInstance Prog

variable {cl : Call S} {c₀ c : CommandInstance S} {acc : List (Entry S)}

/-- `SetStatus` towards a live target: whatever the observers do, the stretch up to its return
asks for the removal if it ends the command. -/
lemma wp_setStatus_requested {Q : Reply → CommandInstance S → List (Entry S) → Prop}
    (hT : cl.target.isTerminal = false) (h : Steps c₀ c acc) (hr : RemovalRequested c₀ c acc)
    (hQ : ∀ r c₁ acc₁, Steps c₀ c₁ acc₁ → RemovalRequested c₀ c₁ acc₁ → Q r c₁ acc₁) :
    (setStatus cl.target).WP cl QueueSafe Q c acc :=
  wp_setStatus.2 ⟨fun _ => hQ _ _ _ h hr, fun _ _ => hQ _ _ _ h hr,
    fun _ _ hnt _ _ hs => hQ _ _ _ (h.assign_notify (Entry.allowed_status hnt) hs.1)
      (RemovalRequested.broadcast (h.frame_advance.1.trans Frame.update) (.of_live hT) hs.2)⟩

lemma wp_removeFromQueue_requested
    {R : CommandInstance S → CommandInstance S → List (Entry S) → Prop} (hf : Frame c₀ c) :
    removeFromQueue.WP cl R (fun _ c' t => RemovalRequested c₀ c' t) c acc :=
  wp_removeFromQueue.2 ⟨fun _ _ _ _ => ⟨_, List.mem_append_right _ (List.mem_singleton_self _),
      congrArg Event.delayedRemove hf.id⟩,
    fun hq hq₀ => absurd (hf.queue.trans hq₀) (by simp [hq])⟩

/-- `SetStatus` towards a terminal target, then `RemoveFromQueue`: the tail of `SetResults`,
`Abort` and `Cancel` asks for the removal whenever the command is attached to a queue. -/
lemma wp_setStatus_removeFromQueue_requested (h : Steps c₀ c acc) :
    (setStatus cl.target).WP cl QueueSafe (fun _ c₁ acc₁ =>
      removeFromQueue.WP cl QueueSafe (fun _ c₂ acc₂ => RemovalRequested c₀ c₂ acc₂) c₁ acc₁)
      c acc :=
  wp_of_rely (fun h => h.1) (wp_setStatus_steps h fun _ _ _ h₁ _ =>
    wp_removeFromQueue_requested h₁.frame_advance.1)

end Rules

namespace Call

/-- Every call asks for the removal of the command it ends, when its observers' calls do. -/
theorem wp_requested (cl : Call S) (c : CommandInstance S) :
    cl.body.WP cl QueueSafe (fun _ c' t => RemovalRequested c c' t) c [] := by
  have nil := Steps.nil c
  have same : ∀ {c' t}, c'.status = c.status → RemovalRequested c c' t :=
    RemovalRequested.of_status_eq
  cases cl with
  | setProgress progress =>
    refine CommandInstance.wp_setProgress.2 ⟨fun _ => same rfl, fun _ _ =>
      ⟨fun _ _ => same rfl, fun _ _ => ?_⟩⟩
    exact wp_setStatus_requested rfl nil (same rfl)
      fun _ _ _ h hr => ⟨fun _ => ⟨fun _ => hr, fun _ _ _ hn =>
        hr.broadcast (h.frame_advance.1.trans Frame.update) hn.2⟩, fun _ => hr⟩
  | setResults results =>
    refine CommandInstance.wp_setResults.2 ⟨fun _ => same rfl, fun _ _ =>
      ⟨fun _ _ => same rfl, fun _ _ => ⟨fun _ => ?_, fun _ _ _ hn => ?_⟩⟩⟩
    · exact wp_setStatus_removeFromQueue_requested nil
    · exact wp_setStatus_removeFromQueue_requested
        (nil.assign_notify (Entry.allowed_document .results) hn.1)
  | setError commandError =>
    exact CommandInstance.wp_setError.2 (wp_setStatus_requested
      rfl (nil.assign (Entry.allowed_error ⟨_, .inl rfl⟩)) (same rfl) fun _ _ _ _ hr => hr)
  | pause => exact wp_setStatus_requested rfl nil (same rfl) fun _ _ _ _ hr => hr
  | abort commandError =>
    exact CommandInstance.wp_abort.2 (wp_setStatus_removeFromQueue_requested
      (nil.assign (Entry.allowed_error ⟨_, .inr rfl⟩)))
  | cancel =>
    exact CommandInstance.wp_cancel.2 (wp_setStatus_removeFromQueue_requested nil)

lemma exec_queueSafe {nested : CommandInstance S → CommandInstance S → List (Entry S) → Prop}
    (hn : ∀ {c c' t}, nested c c' t → QueueSafe c c' t) {cl : Call S} {c : CommandInstance S}
    {o : Outcome S Reply} (h : cl.Exec nested c o) : QueueSafe c o.state o.trace :=
  ⟨exec_steps (fun h => (hn h).1) h, by simpa using Prog.wp_sound hn (cl.wp_requested c) h⟩

end Call

/-- Every run, with calls nested to any depth, is `QueueSafe`. -/
theorem Run.queueSafe {d : Nat} {c c' : CommandInstance S} {t : List (Entry S)}
    (h : Run d c c' t) : QueueSafe c c' t :=
  Run.induction (fun c => ⟨Steps.nil c, .of_status_eq rfl⟩)
    (fun h₁ h₂ => ⟨h₁.1.append h₂.1, h₁.2.append h₁.1.frame_advance.1 h₂.2⟩)
    Call.exec_queueSafe h

/-- Removal is requested exactly for terminal commands: in every call, with observers making calls
nested to any depth, a removal request names the command and the status is terminal when the call
returns; and a call that takes a live command attached to a queue to a terminal status requests
its removal before it returns. -/
theorem exec_removal {d : Nat} {cl : Call S} {c : CommandInstance S} {o : Outcome S Reply}
    (h : cl.Exec (Run d) c o) :
    (∀ e ∈ o.trace, ∀ id, e.event = .delayedRemove id →
      id = c.id ∧ o.state.status.isTerminal = true) ∧
    (c.queue = true → c.status.isTerminal = false → o.state.status.isTerminal = true →
      ∃ e ∈ o.trace, e.event = .delayedRemove c.id) :=
  have hs := Call.exec_queueSafe Run.queueSafe h
  ⟨fun _ he _ hev => hs.1.delayedRemove_terminal he hev, hs.2⟩

/-- A `lock.setConfig` command attached to a queue and cancelled from `queued`. -/
theorem exec_removal_cancel :
    let c := CommandInstance.lockCommand.setCommandQueue true
    let o := Call.cancel.run c
    Call.cancel.Exec (Run 0) c o ∧
      (∀ e ∈ o.trace, ∀ id, e.event = .delayedRemove id →
        id = c.id ∧ o.state.status.isTerminal = true) ∧
      (c.queue = true → c.status.isTerminal = false → o.state.status.isTerminal = true →
        ∃ e ∈ o.trace, e.event = .delayedRemove c.id) :=
  ⟨Call.exec_run _ _, exec_removal (Call.exec_run _ _)⟩

end Libweave
