import Libweave.Commands.Semantics

/-!
# Verification conditions of the methods, with re-entrant observers

`p.WP call R Q c acc` is the weakest condition under which every outcome of the body `p`, run
from the members `c` after the steps `acc`, satisfies `Q` — where the observers of each broadcast
may take the members from `c` to `c'` with the steps `t` only if `R c c' t`.  The postcondition
sees the result, the final members and the whole trace, so both properties of states and
properties of traces are verification conditions.

`Prog.wp_sound` says that the condition is sound for `Prog.Sem`, and `Prog.wp_bind` splits it
along a sequence.  One lemma per method of `CommandInstance` states its condition with the case
analysis of its body done once; every property of the methods is then a matter of these lemmas.
-/

namespace Libweave

variable {S : SchemaUtils} {α β : Type}

namespace Prog

/-- The weakest condition under which the outcomes of a body satisfy `Q`, the observers of its
broadcasts making only changes `R` allows. -/
def WP (call : Call S) (R : CommandInstance S → CommandInstance S → List (Entry S) → Prop)
    (Q : α → CommandInstance S → List (Entry S) → Prop) :
    Prog S α → CommandInstance S → List (Entry S) → Prop
  | .ret a, c, acc => Q a c acc
  | .read k, c, acc => (k c).WP call R Q c acc
  | .update f k, c, acc => k.WP call R Q (f c) (acc ++ [⟨call, c, .assign (f c)⟩])
  | .notify n k, c, acc =>
    ∀ c' t, R c c' t → k.WP call R Q c' (acc ++ ⟨call, c, .notify n⟩ :: t)
  | .delayedRemove id k, c, acc => k.WP call R Q c (acc ++ [⟨call, c, .delayedRemove id⟩])

variable {call : Call S} {R : CommandInstance S → CommandInstance S → List (Entry S) → Prop}
  {c : CommandInstance S} {acc : List (Entry S)}

/-- The condition is sound: when the observers' changes are among those `R` allows, every
outcome satisfies the postcondition. -/
theorem wp_sound {nested : CommandInstance S → CommandInstance S → List (Entry S) → Prop}
    (hR : ∀ {c c' t}, nested c c' t → R c c' t) {p : Prog S α}
    {Q : α → CommandInstance S → List (Entry S) → Prop} {o : Outcome S α}
    (hp : p.WP call R Q c acc) (h : p.Sem nested call c o) : Q o.result o.state (acc ++ o.trace) := by
  induction p generalizing c acc o with
  | ret a =>
    subst h
    simpa using hp
  | read k ih => exact ih c hp h
  | update f k ih =>
    obtain ⟨o', h', rfl⟩ := h
    simpa using ih hp h'
  | notify n k ih =>
    obtain ⟨c', t, o', hn, h', rfl⟩ := h
    simpa using ih (hp c' t (hR hn)) h'
  | delayedRemove id k ih =>
    obtain ⟨o', h', rfl⟩ := h
    simpa using ih hp h'

/-- The condition of a sequence is the condition of its first part for the condition of the
rest. -/
@[simp] theorem wp_bind {p : Prog S α} {f : α → Prog S β}
    {Q : β → CommandInstance S → List (Entry S) → Prop} :
    (p.bind f).WP call R Q c acc ↔
      p.WP call R (fun a c' acc' => (f a).WP call R Q c' acc') c acc := by
  induction p generalizing c acc with
  | ret a => rfl
  | read k ih => exact ih c
  | update g k ih => exact ih
  | notify n k ih => exact forall₂_congr fun _ _ => imp_congr_right fun _ => ih
  | delayedRemove id k ih => exact ih

theorem wp_of_rely {R' : CommandInstance S → CommandInstance S → List (Entry S) → Prop}
    (hR : ∀ {c c' t}, R c c' t → R' c c' t) {p : Prog S α}
    {Q : α → CommandInstance S → List (Entry S) → Prop} (hp : p.WP call R' Q c acc) :
    p.WP call R Q c acc := by
  induction p generalizing c acc with
  | ret a => exact hp
  | read k ih => exact ih c hp
  | update f k ih => exact ih hp
  | notify n k ih => exact fun c' t h => ih (hp c' t (hR h))
  | delayedRemove id k ih => exact ih hp

section Primitives

variable {Q : α → CommandInstance S → List (Entry S) → Prop}

@[simp] lemma wp_ret {a : α} : (Prog.ret a).WP call R Q c acc ↔ Q a c acc := Iff.rfl

@[simp] lemma wp_current {Q : CommandInstance S → CommandInstance S → List (Entry S) → Prop} :
    current.WP call R Q c acc ↔ Q c c acc := Iff.rfl

@[simp] lemma wp_modifyMembers {g : CommandInstance S → CommandInstance S}
    {Q : Unit → CommandInstance S → List (Entry S) → Prop} :
    (modifyMembers g).WP call R Q c acc ↔ Q () (g c) (acc ++ [⟨call, c, .assign (g c)⟩]) :=
  Iff.rfl

@[simp] lemma wp_forEachObserver {n : Notification}
    {Q : Unit → CommandInstance S → List (Entry S) → Prop} :
    (forEachObserver n).WP call R Q c acc ↔
      ∀ c' t, R c c' t → Q () c' (acc ++ ⟨call, c, .notify n⟩ :: t) := Iff.rfl

@[simp] lemma wp_ite {b : Prop} [Decidable b] {p q : Prog S α} :
    (if b then p else q).WP call R Q c acc ↔ (b → p.WP call R Q c acc) ∧ (¬b → q.WP call R Q c acc) := by
  by_cases hb : b <;> simp [hb]

@[simp] lemma wp_queueDelayedRemove {id : String} {Q : Unit → CommandInstance S → List (Entry S) → Prop} :
    (queueDelayedRemove id).WP call R Q c acc ↔
      Q () c (acc ++ [⟨call, c, .delayedRemove id⟩]) := Iff.rfl

end Primitives

end Prog

namespace CommandInstance

open Prog

variable {call : Call S} {R : CommandInstance S → CommandInstance S → List (Entry S) → Prop}
  {c : CommandInstance S} {acc : List (Entry S)}

/-- `SetStatus`: nothing happens when the status is already the requested one; the transition
is refused towards `queued` and from a terminal status; otherwise the status is assigned and the
observers are told. -/
theorem wp_setStatus {s : CommandStatus} {Q : Reply → CommandInstance S → List (Entry S) → Prop} :
    (setStatus s).WP call R Q c acc ↔
      (s = c.status → Q (true, []) c acc) ∧
      (s ≠ c.status → (s = .queued ∨ c.status.isTerminal = true) →
        Q (reportInvalidStateTransition c.status s) c acc) ∧
      (s ≠ c.status → s ≠ .queued → c.status.isTerminal = false →
        ∀ c' t, R { c with status := s } c' t →
          Q (true, []) c' (acc ++ ⟨call, c, .assign { c with status := s }⟩ ::
            ⟨call, { c with status := s }, .notify .onStatusChanged⟩ :: t)) := by
  simp only [setStatus, bind_def, pure_def, wp_bind, wp_current]
  by_cases h₁ : s = c.status
  · simp [h₁]
  by_cases h₂ : s = .queued
  · subst h₂
    simp [h₁]
  simp only [h₁, h₂, if_false]
  cases hc : c.status <;> rw [hc] at h₁ <;>
    simp [hc, CommandStatus.isTerminal, h₁, h₂, List.append_assoc]

/-- `SetStatus`, for a postcondition every success meets whatever the observers did: only the
refusal is left. -/
lemma wp_setStatus_of_success {s : CommandStatus}
    {Q : Reply → CommandInstance S → List (Entry S) → Prop} (hok : ∀ c' t, Q (true, []) c' t)
    (hrefused : s ≠ c.status → (s = .queued ∨ c.status.isTerminal = true) →
      Q (reportInvalidStateTransition c.status s) c acc) :
    (setStatus s).WP call R Q c acc :=
  wp_setStatus.2 ⟨fun _ => hok _ _, hrefused, fun _ _ _ _ _ _ => hok _ _⟩

/-- `RemoveFromQueue`: a removal request exactly when the queue pointer is set. -/
theorem wp_removeFromQueue {Q : Unit → CommandInstance S → List (Entry S) → Prop} :
    removeFromQueue.WP call R Q c acc ↔
      (c.queue = true → Q () c (acc ++ [⟨call, c, .delayedRemove c.id⟩])) ∧
      (c.queue = false → Q () c acc) := by
  cases hq : c.queue <;> simp [removeFromQueue, hq]

lemma wp_removeFromQueue_of_members {Q : Unit → CommandInstance S → List (Entry S) → Prop}
    (h : ∀ acc', Q () c acc') : removeFromQueue.WP call R Q c acc :=
  wp_removeFromQueue.2 ⟨fun _ => h _, fun _ => h _⟩

/-- `SetProgress`: a destroyed command and a document that does not validate change nothing;
otherwise the status is set to `inProgress` and, when that succeeds, the progress is replaced and
announced if it differs. -/
theorem wp_setProgress {progress : DictionaryValue}
    {Q : Reply → CommandInstance S → List (Entry S) → Prop} :
    (setProgress progress).WP call R Q c acc ↔
      (c.commandDefinition = none → Q reportDestroyedError c acc) ∧
      ∀ commandDefinition, c.commandDefinition = some commandDefinition →
        (∀ error, S.typedValueFromJson commandDefinition.progress (.dictionary progress) =
          .error error → Q (false, error) c acc) ∧
        (∀ obj, S.typedValueFromJson commandDefinition.progress (.dictionary progress) = .ok obj →
          (setStatus .inProgress).WP call R (fun result c₁ acc₁ =>
            (result.1 = true →
              (obj = c₁.progress → Q (true, []) c₁ acc₁) ∧
              (obj ≠ c₁.progress → ∀ c₂ t, R { c₁ with progress := obj } c₂ t →
                Q (true, []) c₂ (acc₁ ++ ⟨call, c₁, .assign { c₁ with progress := obj }⟩ ::
                  ⟨call, { c₁ with progress := obj }, .notify .onProgressChanged⟩ :: t))) ∧
            (result.1 = false → Q result c₁ acc₁)) c acc) := by
  simp only [setProgress, bind_def, pure_def, wp_bind, wp_current]
  cases hd : c.commandDefinition with
  | none => simp
  | some commandDefinition =>
    cases hv : S.typedValueFromJson commandDefinition.progress (.dictionary progress) <;>
      simp [hd, hv, List.append_assoc]

/-- `SetResults`: a destroyed command and a document that does not validate change nothing;
otherwise the results are replaced and announced if they differ, the status is set to `done`,
and removal is requested, whatever the transition gave. -/
theorem wp_setResults {results : DictionaryValue}
    {Q : Reply → CommandInstance S → List (Entry S) → Prop} :
    (setResults results).WP call R Q c acc ↔
      (c.commandDefinition = none → Q reportDestroyedError c acc) ∧
      ∀ commandDefinition, c.commandDefinition = some commandDefinition →
        (∀ error, S.typedValueFromJson commandDefinition.results (.dictionary results) =
          .error error → Q (false, error) c acc) ∧
        (∀ obj, S.typedValueFromJson commandDefinition.results (.dictionary results) = .ok obj →
          (obj = c.results → (setStatus .done).WP call R (fun result c₁ acc₁ =>
            removeFromQueue.WP call R (fun _ c₂ acc₂ => Q result c₂ acc₂) c₁ acc₁) c acc) ∧
          (obj ≠ c.results → ∀ c₁ t, R { c with results := obj } c₁ t →
            (setStatus .done).WP call R (fun result c₂ acc₂ =>
              removeFromQueue.WP call R (fun _ c₃ acc₃ => Q result c₃ acc₃) c₂ acc₂) c₁
              (acc ++ ⟨call, c, .assign { c with results := obj }⟩ ::
                ⟨call, { c with results := obj }, .notify .onResultsChanged⟩ :: t))) := by
  simp only [setResults, bind_def, pure_def, wp_bind, wp_current]
  cases hd : c.commandDefinition with
  | none => simp
  | some commandDefinition =>
    cases hv : S.typedValueFromJson commandDefinition.results (.dictionary results) <;>
      simp [hd, hv, List.append_assoc]

lemma wp_setProgress_of_ok {progress : DictionaryValue} {commandDefinition : CommandDefinition S}
    {obj : S.ValueMap} {Q : Reply → CommandInstance S → List (Entry S) → Prop}
    (hd : c.commandDefinition = some commandDefinition)
    (hv : S.typedValueFromJson commandDefinition.progress (.dictionary progress) = .ok obj)
    (h : (setStatus .inProgress).WP call R (fun result c₁ acc₁ =>
      (result.1 = true →
        (obj = c₁.progress → Q (true, []) c₁ acc₁) ∧
        (obj ≠ c₁.progress → ∀ c₂ t, R { c₁ with progress := obj } c₂ t →
          Q (true, []) c₂ (acc₁ ++ ⟨call, c₁, .assign { c₁ with progress := obj }⟩ ::
            ⟨call, { c₁ with progress := obj }, .notify .onProgressChanged⟩ :: t))) ∧
      (result.1 = false → Q result c₁ acc₁)) c acc) :
    (setProgress progress).WP call R Q c acc := by
  refine wp_setProgress.2 ⟨fun hn => (nomatch hd.symm.trans hn), fun _ hd' => ?_⟩
  cases hd.symm.trans hd'
  exact ⟨fun _ hv' => (nomatch hv.symm.trans hv'),
    fun _ hv' => Except.ok.inj (hv.symm.trans hv') ▸ h⟩

lemma wp_setResults_of_ok {results : DictionaryValue} {commandDefinition : CommandDefinition S}
    {obj : S.ValueMap} {Q : Reply → CommandInstance S → List (Entry S) → Prop}
    (hd : c.commandDefinition = some commandDefinition)
    (hv : S.typedValueFromJson commandDefinition.results (.dictionary results) = .ok obj)
    (hunchanged : obj = c.results → (setStatus .done).WP call R (fun result c₁ acc₁ =>
      removeFromQueue.WP call R (fun _ c₂ acc₂ => Q result c₂ acc₂) c₁ acc₁) c acc)
    (hreplaced : obj ≠ c.results → ∀ c₁ t, R { c with results := obj } c₁ t →
      (setStatus .done).WP call R (fun result c₂ acc₂ =>
        removeFromQueue.WP call R (fun _ c₃ acc₃ => Q result c₃ acc₃) c₂ acc₂) c₁
        (acc ++ ⟨call, c, .assign { c with results := obj }⟩ ::
          ⟨call, { c with results := obj }, .notify .onResultsChanged⟩ :: t)) :
    (setResults results).WP call R Q c acc := by
  refine wp_setResults.2 ⟨fun hn => (nomatch hd.symm.trans hn), fun _ hd' => ?_⟩
  cases hd.symm.trans hd'
  refine ⟨fun _ hv' => (nomatch hv.symm.trans hv'), fun _ hv' => ?_⟩
  cases hv.symm.trans hv'
  exact ⟨hunchanged, hreplaced⟩

/-- `SetError`: the error is recorded, then the status is set to `error`. -/
theorem wp_setError {commandError : ErrorPtr}
    {Q : Reply → CommandInstance S → List (Entry S) → Prop} :
    (setError commandError).WP call R Q c acc ↔
      (setStatus .error).WP call R Q { c with error := commandError }
        (acc ++ [⟨call, c, .assign { c with error := commandError }⟩]) := by
  simp [setError]

/-- `Abort`: the error is recorded, the status is set to `aborted`, and removal is requested,
whatever the transition gave. -/
theorem wp_abort {commandError : ErrorPtr}
    {Q : Reply → CommandInstance S → List (Entry S) → Prop} :
    (abort commandError).WP call R Q c acc ↔
      (setStatus .aborted).WP call R (fun result c₁ acc₁ =>
        removeFromQueue.WP call R (fun _ c₂ acc₂ => Q result c₂ acc₂) c₁ acc₁)
        { c with error := commandError }
        (acc ++ [⟨call, c, .assign { c with error := commandError }⟩]) := by
  simp [abort]

/-- `Cancel`: the status is set to `cancelled`, and removal is requested, whatever the
transition gave. -/
theorem wp_cancel {Q : Reply → CommandInstance S → List (Entry S) → Prop} :
    cancel.WP call R Q c acc ↔
      (setStatus .cancelled).WP call R (fun result c₁ acc₁ =>
        removeFromQueue.WP call R (fun _ c₂ acc₂ => Q result c₂ acc₂) c₁ acc₁) c acc := by
  simp [cancel]

end CommandInstance

end Libweave
