import Libweave.Commands.Conditions
import Mathlib.Data.List.Chain

/-!
# The status machine over whole runs

Along any run of the state-machine methods — with observers calling the methods again from inside
any broadcast, nested to any depth — every step the trace records is one a call may take
(`Entry.Allowed`): an assignment keeps the members no method assigns (`Frame`) and changes the
status only from a non-terminal status to the target of the call that makes it; a removal request
names the command and comes at a terminal status.  The steps are chained: each is taken at the
members the one before left.

From these, `run_status_trail` is the law of the state machine: along the statuses a run passes
through, no status returns to `queued` once it has left it, and a terminal status never changes.
`run_members` says which call a run changes each member in: the progress only in `SetProgress`,
the results only in `SetResults`, the error only in `SetError` and `Abort`.  And every call either
returns before it assigns anything or ends with a `SetStatus` away from `queued`, so a command
still `queued` is as the constructor made it (`Reachable.queued_pristine`).
-/

namespace Libweave

variable {S : SchemaUtils}

/-- The members no state-machine method assigns. -/
structure Frame (c c' : CommandInstance S) : Prop where
  id : c'.id = c.id
  name : c'.name = c.name
  origin : c'.origin = c.origin
  commandDefinition : c'.commandDefinition = c.commandDefinition
  parameters : c'.parameters = c.parameters
  queue : c'.queue = c.queue

namespace Frame

@[simp] lemma iff {c c' : CommandInstance S} :
    Frame c c' ↔ c'.id = c.id ∧ c'.name = c.name ∧ c'.origin = c.origin ∧
      c'.commandDefinition = c.commandDefinition ∧ c'.parameters = c.parameters ∧
      c'.queue = c.queue :=
  ⟨fun h => ⟨h.1, h.2, h.3, h.4, h.5, h.6⟩, fun h => ⟨h.1, h.2.1, h.2.2.1, h.2.2.2.1,
    h.2.2.2.2.1, h.2.2.2.2.2⟩⟩

lemma refl (c : CommandInstance S) : Frame c c := ⟨rfl, rfl, rfl, rfl, rfl, rfl⟩

lemma update {c : CommandInstance S} {status : CommandStatus} {progress results : S.ValueMap}
    {error : ErrorPtr} :
    Frame c { c with status := status, progress := progress, results := results, error := error } :=
  ⟨rfl, rfl, rfl, rfl, rfl, rfl⟩

lemma trans {c₁ c₂ c₃ : CommandInstance S} (h₁ : Frame c₁ c₂) (h₂ : Frame c₂ c₃) :
    Frame c₁ c₃ :=
  ⟨h₂.1.trans h₁.1, h₂.2.trans h₁.2, h₂.3.trans h₁.3, h₂.4.trans h₁.4, h₂.5.trans h₁.5,
    h₂.6.trans h₁.6⟩

end Frame

/-- How a status may evolve: it does not return to `queued` once it has left it, and a terminal
status does not change. -/
def StatusAdvance (s s' : CommandStatus) : Prop :=
  (s ≠ .queued → s' ≠ .queued) ∧ (s.isTerminal = true → s' = s)

instance : IsTrans CommandStatus StatusAdvance :=
  ⟨fun _ _ _ h₁ h₂ => ⟨fun h => h₂.1 (h₁.1 h), fun h => (h₂.2 (h₁.2 h ▸ h)).trans (h₁.2 h)⟩⟩

lemma StatusAdvance.refl (s : CommandStatus) : StatusAdvance s s :=
  ⟨id, fun _ => rfl⟩

lemma Call.target_ne_queued (cl : Call S) : cl.target ≠ .queued := by
  cases cl <;> simp [Call.target]

/-- The two members a method replaces by a document converted under the definition's schema:
`progress_` in `SetProgress`, `results_` in `SetResults`. -/
inductive Document where
  | progress
  | results
  deriving DecidableEq, Repr

namespace Document

/-- The member's value. -/
def member : Document → CommandInstance S → S.ValueMap
  | .progress, c => c.progress
  | .results, c => c.results

/-- The members with the member replaced. -/
def update : Document → CommandInstance S → S.ValueMap → CommandInstance S
  | .progress, c, obj => { c with progress := obj }
  | .results, c, obj => { c with results := obj }

/-- The definition's schema for the member. -/
def schema : Document → CommandDefinition S → S.ObjectSchema
  | .progress, commandDefinition => commandDefinition.progress
  | .results, commandDefinition => commandDefinition.results

/-- The call that replaces the member by a document. -/
def call : Document → DictionaryValue → Call S
  | .progress, document => .setProgress document
  | .results, document => .setResults document

end Document

namespace Entry

/-- The members after a step. -/
def next (e : Entry S) : CommandInstance S :=
  match e.event with
  | .assign after => after
  | _ => e.state

/-- A step some call may take: an assignment keeps the frame, changes the status only from a
non-terminal status to the call's target, and changes the progress only in `SetProgress`, the
results only in `SetResults` and the error only in `SetError` and `Abort`; a removal request names
the command and comes at a terminal status. -/
def Allowed (e : Entry S) : Prop :=
  match e.event with
  | .assign after => Frame e.state after ∧
      (after.status = e.state.status ∨
        (e.state.status.isTerminal = false ∧ after.status = e.call.target)) ∧
      (after.progress = e.state.progress ∨ ∃ progress, e.call = .setProgress progress) ∧
      (after.results = e.state.results ∨ ∃ results, e.call = .setResults results) ∧
      (after.error = e.state.error ∨
        ∃ commandError, e.call = .setError commandError ∨ e.call = .abort commandError)
  | .notify _ => True
  | .delayedRemove id => id = e.state.id ∧ e.state.status.isTerminal = true

@[simp] lemma next_assign {cl : Call S} {c after : CommandInstance S} :
    (⟨cl, c, .assign after⟩ : Entry S).next = after := rfl

@[simp] lemma next_notify {cl : Call S} {c : CommandInstance S} {n : Notification} :
    (⟨cl, c, .notify n⟩ : Entry S).next = c := rfl

@[simp] lemma next_delayedRemove {cl : Call S} {c : CommandInstance S} {id : String} :
    (⟨cl, c, .delayedRemove id⟩ : Entry S).next = c := rfl

@[simp] lemma allowed_assign {cl : Call S} {c after : CommandInstance S} :
    (⟨cl, c, .assign after⟩ : Entry S).Allowed ↔ Frame c after ∧
      (after.status = c.status ∨ (c.status.isTerminal = false ∧ after.status = cl.target)) ∧
      (after.progress = c.progress ∨ ∃ progress, cl = .setProgress progress) ∧
      (after.results = c.results ∨ ∃ results, cl = .setResults results) ∧
      (after.error = c.error ∨ ∃ commandError, cl = .setError commandError ∨ cl = .abort commandError) :=
  Iff.rfl

@[simp] lemma allowed_notify {cl : Call S} {c : CommandInstance S} {n : Notification} :
    (⟨cl, c, .notify n⟩ : Entry S).Allowed := trivial

@[simp] lemma allowed_delayedRemove {cl : Call S} {c : CommandInstance S} {id : String} :
    (⟨cl, c, .delayedRemove id⟩ : Entry S).Allowed ↔ id = c.id ∧ c.status.isTerminal = true :=
  Iff.rfl

lemma allowed_status {cl : Call S} {c : CommandInstance S} (h : c.status.isTerminal = false) :
    (⟨cl, c, .assign { c with status := cl.target }⟩ : Entry S).Allowed :=
  allowed_assign.2 ⟨Frame.update, .inr ⟨h, rfl⟩, .inl rfl, .inl rfl, .inl rfl⟩

/-- The assignment of `progress_` in `SetProgress` and of `results_` in `SetResults`. -/
lemma allowed_document (m : Document) {document : DictionaryValue} {c : CommandInstance S}
    {obj : S.ValueMap} : (⟨m.call document, c, .assign (m.update c obj)⟩ : Entry S).Allowed := by
  cases m
  exacts [allowed_assign.2 ⟨Frame.update, .inl rfl, .inr ⟨_, rfl⟩, .inl rfl, .inl rfl⟩,
    allowed_assign.2 ⟨Frame.update, .inl rfl, .inl rfl, .inr ⟨_, rfl⟩, .inl rfl⟩]

lemma allowed_error {cl : Call S} {c : CommandInstance S} {commandError : ErrorPtr}
    (h : ∃ commandError, cl = .setError commandError ∨ cl = .abort commandError) :
    (⟨cl, c, .assign { c with error := commandError }⟩ : Entry S).Allowed :=
  allowed_assign.2 ⟨Frame.update, .inl rfl, .inl rfl, .inl rfl, .inr h⟩

lemma Allowed.frame {e : Entry S} (h : e.Allowed) : Frame e.state e.next := by
  obtain ⟨call, state, event⟩ := e
  cases event with
  | assign after => exact h.1
  | notify n => exact Frame.refl _
  | delayedRemove id => exact Frame.refl _

lemma Allowed.advance {e : Entry S} (h : e.Allowed) :
    StatusAdvance e.state.status e.next.status := by
  obtain ⟨call, state, event⟩ := e
  cases event with
  | assign after =>
    rcases h.2.1 with h' | ⟨hnt, h'⟩
    · exact h' ▸ StatusAdvance.refl _
    · exact ⟨fun _ => h' ▸ call.target_ne_queued, fun ht => by simp [hnt] at ht⟩
  | notify n => exact StatusAdvance.refl _
  | delayedRemove id => exact StatusAdvance.refl _

end Entry

/-- The trace goes from `c` to `c'`, each step taken at the members the step before left. -/
def Chained : CommandInstance S → List (Entry S) → CommandInstance S → Prop
  | c, [], c' => c' = c
  | c, e :: t, c' => e.state = c ∧ Chained e.next t c'

@[simp] lemma chained_nil {c c' : CommandInstance S} : Chained c [] c' ↔ c' = c := Iff.rfl

@[simp] lemma chained_cons {c c' : CommandInstance S} {e : Entry S} {t : List (Entry S)} :
    Chained c (e :: t) c' ↔ e.state = c ∧ Chained e.next t c' := Iff.rfl

@[simp] lemma chained_append {c c'' : CommandInstance S} {t₁ t₂ : List (Entry S)} :
    Chained c (t₁ ++ t₂) c'' ↔ ∃ c', Chained c t₁ c' ∧ Chained c' t₂ c'' := by
  induction t₁ generalizing c with
  | nil => simp
  | cons e t₁ ih => simp [ih, and_assoc]

/-- The invariant of runs: the trace is chained and each of its steps is allowed. -/
def Steps (c c' : CommandInstance S) (t : List (Entry S)) : Prop :=
  Chained c t c' ∧ ∀ e ∈ t, e.Allowed

namespace Steps

lemma nil (c : CommandInstance S) : Steps c c [] := ⟨rfl, by simp⟩

@[simp] lemma nil_iff {c c' : CommandInstance S} : Steps c c' [] ↔ c' = c := by
  simp [Steps]

@[simp] lemma cons_iff {c c' : CommandInstance S} {e : Entry S} {t : List (Entry S)} :
    Steps c c' (e :: t) ↔ e.state = c ∧ e.Allowed ∧ Steps e.next c' t := by
  simp only [Steps, chained_cons, List.forall_mem_cons]
  tauto

lemma append_iff {c c'' : CommandInstance S} {t₁ t₂ : List (Entry S)} :
    Steps c c'' (t₁ ++ t₂) ↔ ∃ c', Steps c c' t₁ ∧ Steps c' c'' t₂ := by
  induction t₁ generalizing c with
  | nil => simp
  | cons e t₁ ih => simp [ih, and_assoc]

@[simp] lemma append_cons_iff {c c'' : CommandInstance S} {t₁ t₂ : List (Entry S)}
    {e : Entry S} :
    Steps c c'' (t₁ ++ e :: t₂) ↔ Steps c e.state t₁ ∧ e.Allowed ∧ Steps e.next c'' t₂ := by
  rw [append_iff]
  constructor
  · rintro ⟨_, h₁, h₂⟩
    rw [cons_iff] at h₂
    obtain ⟨rfl, ha, h₂⟩ := h₂
    exact ⟨h₁, ha, h₂⟩
  · rintro ⟨h₁, ha, h₂⟩
    exact ⟨e.state, h₁, cons_iff.2 ⟨rfl, ha, h₂⟩⟩

section Extend

variable {cl : Call S} {c₀ c c₁ c₂ : CommandInstance S} {acc t : List (Entry S)}

lemma assign (h : Steps c₀ c acc) (ha : (⟨cl, c, .assign c₁⟩ : Entry S).Allowed) :
    Steps c₀ c₁ (acc ++ [⟨cl, c, .assign c₁⟩]) :=
  append_cons_iff.2 ⟨h, ha, nil_iff.2 rfl⟩

lemma assign_notify (h : Steps c₀ c acc) (ha : (⟨cl, c, .assign c₁⟩ : Entry S).Allowed)
    (ht : Steps c₁ c₂ t) {n : Notification} :
    Steps c₀ c₂ (acc ++ ⟨cl, c, .assign c₁⟩ :: ⟨cl, c₁, .notify n⟩ :: t) :=
  append_cons_iff.2 ⟨h, ha, cons_iff.2 ⟨rfl, trivial, ht⟩⟩

lemma delayedRemove (h : Steps c₀ c acc) (ht : c.status.isTerminal = true) :
    Steps c₀ c (acc ++ [⟨cl, c, .delayedRemove c.id⟩]) :=
  append_cons_iff.2 ⟨h, ⟨rfl, ht⟩, nil_iff.2 rfl⟩

end Extend

lemma append {c₁ c₂ c₃ : CommandInstance S} {t₁ t₂ : List (Entry S)}
    (h₁ : Steps c₁ c₂ t₁) (h₂ : Steps c₂ c₃ t₂) : Steps c₁ c₃ (t₁ ++ t₂) :=
  ⟨chained_append.2 ⟨c₂, h₁.1, h₂.1⟩, List.forall_mem_append.2 ⟨h₁.2, h₂.2⟩⟩

/-- Allowed steps keep the frame and let the status only advance. -/
lemma frame_advance {c c' : CommandInstance S} {t : List (Entry S)} (h : Steps c c' t) :
    Frame c c' ∧ StatusAdvance c.status c'.status := by
  obtain ⟨hc, ha⟩ := h
  induction t generalizing c with
  | nil =>
    subst hc
    exact ⟨Frame.refl _, StatusAdvance.refl _⟩
  | cons e t ih =>
    obtain ⟨rfl, hc⟩ := hc
    have he := ha e (by simp)
    obtain ⟨hf, hs⟩ := ih hc fun e' h' => ha e' (by simp [h'])
    exact ⟨he.frame.trans hf, IsTrans.trans _ _ _ he.advance hs⟩

lemma terminal_stable {c c' : CommandInstance S} {t : List (Entry S)} (h : Steps c c' t)
    (ht : c.status.isTerminal = true) : c'.status = c.status :=
  h.frame_advance.2.2 ht

end Steps

/-! ### Every call keeps the invariant -/


section Rules

open CommandInstance Prog

variable {cl : Call S} {c₀ c : CommandInstance S} {acc : List (Entry S)}

/-- `SetStatus` towards the call's target keeps the run invariant; when the target is terminal,
it is still the status when `SetStatus` returns, whatever the observers did meanwhile. -/
lemma wp_setStatus_steps {Q : Reply → CommandInstance S → List (Entry S) → Prop}
    (h : Steps c₀ c acc)
    (hQ : ∀ r c₁ acc₁, Steps c₀ c₁ acc₁ →
      (cl.target.isTerminal = true → c₁.status.isTerminal = true) → Q r c₁ acc₁) :
    (setStatus cl.target).WP cl Steps Q c acc := by
  refine wp_setStatus.2 ⟨fun he => hQ _ _ _ h (he ▸ id),
    fun _ hr => hQ _ _ _ h fun _ => hr.resolve_left cl.target_ne_queued,
    fun _ _ hnt _ _ ht => hQ _ _ _ (h.assign_notify (Entry.allowed_status hnt) ht) fun hT => ?_⟩
  rw [ht.terminal_stable hT]
  exact hT

/-- `SetStatus` towards a terminal target, then `RemoveFromQueue`: the tail of `SetResults`,
`Abort` and `Cancel` keeps the run invariant. -/
lemma wp_setStatus_removeFromQueue_steps (hT : cl.target.isTerminal = true)
    (h : Steps c₀ c acc) :
    (setStatus cl.target).WP cl Steps (fun _ c₁ acc₁ =>
      removeFromQueue.WP cl Steps (fun _ c₂ acc₂ => Steps c₀ c₂ acc₂) c₁ acc₁) c acc :=
  wp_setStatus_steps h fun _ _ _ h₁ ht =>
    wp_removeFromQueue.2 ⟨fun _ => h₁.delayedRemove (ht hT), fun _ => h₁⟩

end Rules

namespace Call

/-- Every call keeps the run invariant when its observers' calls keep it. -/
theorem wp_steps (cl : Call S) (c : CommandInstance S) :
    cl.body.WP cl Steps (fun _ c' t => Steps c c' t) c [] := by
  have nil := Steps.nil c
  cases cl with
  | setProgress progress =>
    refine CommandInstance.wp_setProgress.2 ⟨fun _ => nil, fun _ _ => ⟨fun _ _ => nil, fun _ _ =>
      wp_setStatus_steps nil fun _ _ _ h _ =>
        ⟨fun _ => ⟨fun _ => h, fun _ _ _ ht => ?replaced⟩, fun _ => h⟩⟩⟩
    case replaced => exact h.assign_notify (Entry.allowed_document .progress) ht
  | setResults results =>
    refine CommandInstance.wp_setResults.2 ⟨fun _ => nil, fun _ _ =>
      ⟨fun _ _ => nil, fun _ _ => ⟨fun _ => ?unchanged, fun _ _ _ ht => ?replaced⟩⟩⟩
    case unchanged => exact wp_setStatus_removeFromQueue_steps rfl nil
    case replaced =>
      exact wp_setStatus_removeFromQueue_steps rfl
        (nil.assign_notify (Entry.allowed_document .results) ht)
  | setError commandError =>
    exact CommandInstance.wp_setError.2
      (wp_setStatus_steps (nil.assign (Entry.allowed_error ⟨_, .inl rfl⟩))
        fun _ _ _ h _ => h)
  | pause => exact wp_setStatus_steps nil fun _ _ _ h _ => h
  | abort commandError =>
    exact CommandInstance.wp_abort.2 (wp_setStatus_removeFromQueue_steps
      rfl (nil.assign (Entry.allowed_error ⟨_, .inr rfl⟩)))
  | cancel => exact CommandInstance.wp_cancel.2 (wp_setStatus_removeFromQueue_steps rfl nil)

lemma exec_steps {nested : CommandInstance S → CommandInstance S → List (Entry S) → Prop}
    (hn : ∀ {c c' t}, nested c c' t → Steps c c' t) {cl : Call S} {c : CommandInstance S}
    {o : Outcome S Reply} (h : cl.Exec nested c o) : Steps c o.state o.trace := by
  simpa using Prog.wp_sound hn (cl.wp_steps c) h

end Call

/-- Every run, with calls nested to any depth, keeps the invariant. -/
theorem Run.steps {d : Nat} {c c' : CommandInstance S} {t : List (Entry S)} (h : Run d c c' t) :
    Steps c c' t :=
  Run.induction Steps.nil Steps.append Call.exec_steps h

/-! ### Reachable members -/

/-- The members a command can have: those `CommandInstance::CommandInstance` gives it (`FromJson`
builds it so), with an ID and a queue assigned, then whatever runs of calls make of them. -/
inductive Reachable : CommandInstance S → Prop
  | new (name : String) (origin : CommandOrigin) (commandDefinition : CommandDefinition S)
      (parameters : S.ValueMap) :
      Reachable (CommandInstance.new name origin commandDefinition parameters)
  | setID {c : CommandInstance S} (id : String) : Reachable c → Reachable (c.setID id)
  | setCommandQueue {c : CommandInstance S} (queue : Bool) :
      Reachable c → Reachable (c.setCommandQueue queue)
  | run {d : Nat} {c c' : CommandInstance S} {t : List (Entry S)} :
      Reachable c → Run d c c' t → Reachable c'

/-- A reachable command has its definition: the check of `SetProgress` and `SetResults` for a
destroyed command never fires. -/
lemma Reachable.commandDefinition_isSome {c : CommandInstance S} (h : Reachable c) :
    c.commandDefinition.isSome := by
  induction h with
  | new => rfl
  | setID _ _ ih => exact ih
  | setCommandQueue _ _ ih => exact ih
  | run _ hr ih => rwa [hr.steps.frame_advance.1.commandDefinition]

/-! ### A queued command is untouched -/

section Queued

open CommandInstance Prog

variable {cl : Call S} {c : CommandInstance S} {acc : List (Entry S)}

/-- `SetStatus` towards a status other than `queued` leaves the command out of `queued`: it finds
the status already there, refuses from a terminal status, or makes the transition, after which the
observers cannot bring the command back. -/
lemma wp_setStatus_unqueued {s : CommandStatus} (hs : s ≠ .queued)
    {Q : Reply → CommandInstance S → List (Entry S) → Prop}
    (hQ : ∀ r c₁ acc₁, c₁.status ≠ .queued → Q r c₁ acc₁) :
    (setStatus s).WP cl Steps Q c acc :=
  wp_setStatus.2 ⟨fun he => hQ _ _ _ (he ▸ hs),
    fun _ hr => hQ _ _ _ fun hq => by simp [hq, CommandStatus.isTerminal, hs] at hr,
    fun _ _ _ _ _ ht => hQ _ _ _ (ht.frame_advance.2.1 hs)⟩

lemma wp_setStatus_removeFromQueue_unqueued {s : CommandStatus} (hs : s ≠ .queued)
    {Q : Reply → CommandInstance S → List (Entry S) → Prop}
    (hQ : ∀ r c₁ acc₁, c₁.status ≠ .queued → Q r c₁ acc₁) :
    (setStatus s).WP cl Steps (fun r c₁ acc₁ =>
      removeFromQueue.WP cl Steps (fun _ c₂ acc₂ => Q r c₂ acc₂) c₁ acc₁) c acc :=
  wp_setStatus_unqueued hs fun _ _ _ h =>
    wp_removeFromQueue_of_members fun _ => hQ _ _ _ h

/-- A call either returns before it assigns anything or ends with a `SetStatus` away from
`queued`: one that leaves the command queued leaves it untouched. -/
theorem Call.wp_untouched (cl : Call S) (c : CommandInstance S) :
    cl.body.WP cl Steps (fun _ c' _ => c' = c ∨ c'.status ≠ .queued) c [] := by
  cases cl with
  | setProgress progress =>
    refine wp_setProgress.2 ⟨fun _ => .inl rfl, fun _ _ => ⟨fun _ _ => .inl rfl, fun _ _ => ?_⟩⟩
    exact wp_setStatus_unqueued (by decide) fun _ _ _ h =>
      ⟨fun _ => ⟨fun _ => .inr h, fun _ _ _ ht => .inr (ht.frame_advance.2.1 h)⟩, fun _ => .inr h⟩
  | setResults results =>
    exact wp_setResults.2 ⟨fun _ => .inl rfl, fun _ _ => ⟨fun _ _ => .inl rfl, fun _ _ =>
      ⟨fun _ => wp_setStatus_removeFromQueue_unqueued (by decide) fun _ _ _ => .inr,
        fun _ _ _ _ => wp_setStatus_removeFromQueue_unqueued (by decide) fun _ _ _ => .inr⟩⟩⟩
  | setError commandError =>
    exact wp_setError.2 (wp_setStatus_unqueued (by decide) fun _ _ _ => .inr)
  | pause => exact wp_setStatus_unqueued (by decide) fun _ _ _ => .inr
  | abort commandError =>
    exact wp_abort.2 (wp_setStatus_removeFromQueue_unqueued (by decide) fun _ _ _ => .inr)
  | cancel =>
    exact wp_cancel.2 (wp_setStatus_removeFromQueue_unqueued (by decide) fun _ _ _ => .inr)

end Queued

/-- A run that leaves the command queued leaves it untouched, whatever the observers call. -/
lemma Run.untouched {d : Nat} {c c' : CommandInstance S} {t : List (Entry S)} (h : Run d c c' t) :
    c' = c ∨ c'.status ≠ .queued :=
  (Run.induction (P := fun c c' t => Steps c c' t ∧ (c' = c ∨ c'.status ≠ .queued))
    (fun c => ⟨Steps.nil c, .inl rfl⟩)
    (fun h₁ h₂ => ⟨h₁.1.append h₂.1, h₂.2.elim (fun e => e ▸ h₁.2) .inr⟩)
    (fun hn _ _ _ h => ⟨Call.exec_steps (fun h => (hn h).1) h,
      by simpa using Prog.wp_sound (fun h => (hn h).1) (Call.wp_untouched _ _) h⟩) h).2

/-- A command still queued is as `CommandInstance::CommandInstance` made it: no progress, no
results and no error, whatever calls were made on it and whatever the observers called. -/
theorem Reachable.queued_pristine {c : CommandInstance S} (h : Reachable c)
    (hq : c.status = .queued) : c.progress = S.empty ∧ c.results = S.empty ∧ c.error = [] := by
  induction h with
  | new => exact ⟨rfl, rfl, rfl⟩
  | setID _ _ ih => exact ih hq
  | setCommandQueue _ _ ih => exact ih hq
  | run _ hr ih =>
    rcases hr.untouched with rfl | hne
    · exact ih hq
    · exact absurd hq hne

/-- A `lock.setConfig` command whose new progress the schema refused (a boolean where a string is
expected): still queued, and pristine. -/
theorem queued_pristine_lock :
    let c := ((Call.setProgress [("lockedState", .boolean true)]).run
      CommandInstance.lockCommand).state
    Reachable c ∧ c.status = .queued ∧ c.progress = SchemaUtils.stringObjects.empty ∧
      c.results = SchemaUtils.stringObjects.empty ∧ c.error = [] :=
  have h : Reachable ((Call.setProgress [("lockedState", .boolean true)]).run
      CommandInstance.lockCommand).state :=
    .run (.new _ _ _ _) (Run.of_exec (Call.exec_run _ _))
  ⟨h, rfl, Reachable.queued_pristine h rfl⟩

/-! ### The law of the state machine -/

/-- The statuses a run passes through: the status at its start, then the status after each of its
steps. -/
def statusTrail (c : CommandInstance S) (t : List (Entry S)) : List CommandStatus :=
  c.status :: t.map fun e => e.next.status

@[simp] lemma statusTrail_nil (c : CommandInstance S) : statusTrail c [] = [c.status] := rfl

@[simp] lemma statusTrail_cons (c : CommandInstance S) (e : Entry S) (t : List (Entry S)) :
    statusTrail c (e :: t) = c.status :: statusTrail e.next t := rfl

lemma Steps.chain_statusTrail {c c' : CommandInstance S} {t : List (Entry S)} (h : Steps c c' t) :
    (statusTrail c t).Chain' StatusAdvance := by
  induction t generalizing c with
  | nil => exact List.chain'_singleton _
  | cons e t ih =>
    obtain ⟨rfl, he, h⟩ := Steps.cons_iff.1 h
    exact List.chain'_cons'.2 ⟨by simpa [statusTrail] using he.advance, ih h⟩

/-- A status change is made from a non-terminal status, to the target of the call making it. -/
lemma Entry.Allowed.status_change {e : Entry S} (h : e.Allowed) {after : CommandInstance S}
    (hev : e.event = .assign after) (hne : after.status ≠ e.state.status) :
    e.state.status.isTerminal = false ∧ after.status = e.call.target := by
  obtain ⟨call, state, event⟩ := e
  subst hev
  exact h.2.1.resolve_left hne

/-- The law of the state machine along every run, whatever calls the observers make from inside
their notifications: the steps are chained from the start; along the statuses passed through, one
that has left `queued` never returns to it and a terminal one never changes; and each status change
is made from a non-terminal status to the target of the call that makes it. -/
theorem run_status_trail {d : Nat} {c c' : CommandInstance S} {t : List (Entry S)}
    (h : Run d c c' t) :
    Chained c t c' ∧ (statusTrail c t).Pairwise StatusAdvance ∧
      ∀ e ∈ t, ∀ after, e.event = .assign after → after.status ≠ e.state.status →
        e.state.status.isTerminal = false ∧ after.status = e.call.target :=
  have hs := h.steps
  ⟨hs.1, List.chain'_iff_pairwise.1 hs.chain_statusTrail,
    fun e he _ hev hne => (hs.2 e he).status_change hev hne⟩

/-- The law at a run of one call: a `lock.setConfig` command cancelled from `queued`. -/
theorem run_status_trail_cancel :
    let c := CommandInstance.lockCommand
    let o := Call.cancel.run c
    Run 1 c o.state o.trace ∧ Chained c o.trace o.state ∧
      (statusTrail c o.trace).Pairwise StatusAdvance ∧
      ∀ e ∈ o.trace, ∀ after, e.event = .assign after → after.status ≠ e.state.status →
        e.state.status.isTerminal = false ∧ after.status = e.call.target :=
  have h := Run.of_exec (Call.exec_run .cancel CommandInstance.lockCommand)
  ⟨h, run_status_trail h⟩

/-! ### Which call changes which member -/

/-- A member that only certain calls may assign changes over allowed steps only if one of those
calls is among them. -/
lemma Steps.changed_by {β : Type} (f : CommandInstance S → β) (P : Call S → Prop)
    (hf : ∀ cl c after, (⟨cl, c, .assign after⟩ : Entry S).Allowed → f after ≠ f c → P cl)
    {c c' : CommandInstance S} {t : List (Entry S)} (h : Steps c c' t) (hne : f c' ≠ f c) :
    ∃ e ∈ t, P e.call := by
  induction t generalizing c with
  | nil => exact absurd (congrArg f (nil_iff.1 h)) hne
  | cons e t ih =>
    obtain ⟨rfl, he, h⟩ := Steps.cons_iff.1 h
    by_cases hn : f e.next = f e.state
    · obtain ⟨e', he', hp⟩ := ih h (hn ▸ hne)
      exact ⟨e', List.mem_cons_of_mem _ he', hp⟩
    · refine ⟨e, List.mem_cons_self _ _, ?_⟩
      obtain ⟨call, state, event⟩ := e
      cases event with
      | assign after => exact hf call state after he hn
      | notify => exact absurd rfl hn
      | delayedRemove => exact absurd rfl hn

/-- Which call a run changes each member in, whatever the observers call: the members no method
assigns stay those at the start; the progress changes only if `SetProgress` is among the run's
calls, the results only if `SetResults` is, and the error only if `SetError` or `Abort` is. -/
theorem run_members {d : Nat} {c c' : CommandInstance S} {t : List (Entry S)} (h : Run d c c' t) :
    Frame c c' ∧
      (c'.progress ≠ c.progress → ∃ e ∈ t, ∃ progress, e.call = .setProgress progress) ∧
      (c'.results ≠ c.results → ∃ e ∈ t, ∃ results, e.call = .setResults results) ∧
      (c'.error ≠ c.error → ∃ e ∈ t, ∃ commandError,
        e.call = .setError commandError ∨ e.call = .abort commandError) :=
  have hs := h.steps
  ⟨hs.frame_advance.1,
    hs.changed_by _ (fun cl => ∃ progress, cl = .setProgress progress)
      fun _ _ _ ha hne => (Entry.allowed_assign.1 ha).2.2.1.resolve_left hne,
    hs.changed_by _ (fun cl => ∃ results, cl = .setResults results)
      fun _ _ _ ha hne => (Entry.allowed_assign.1 ha).2.2.2.1.resolve_left hne,
    hs.changed_by _
      (fun cl => ∃ commandError, cl = .setError commandError ∨ cl = .abort commandError)
      fun _ _ _ ha hne => (Entry.allowed_assign.1 ha).2.2.2.2.resolve_left hne⟩

/-- The attribution at a run of one call: new progress for a queued `lock.setConfig` command. -/
theorem run_members_setProgress :
    let c := CommandInstance.lockCommand
    let o := (Call.setProgress [("lockedState", .string "unlocking")]).run c
    Run 1 c o.state o.trace ∧ Frame c o.state ∧
      (o.state.progress ≠ c.progress → ∃ e ∈ o.trace, ∃ progress, e.call = .setProgress progress) ∧
      (o.state.results ≠ c.results → ∃ e ∈ o.trace, ∃ results, e.call = .setResults results) ∧
      (o.state.error ≠ c.error → ∃ e ∈ o.trace, ∃ commandError,
        e.call = .setError commandError ∨ e.call = .abort commandError) :=
  have h := Run.of_exec (Call.exec_run (.setProgress [("lockedState", .string "unlocking")])
    CommandInstance.lockCommand)
  ⟨h, run_members h⟩

end Libweave
