import Libweave.Commands.Lifecycle

/-!
# What a reachable command can hold

Two invariants of every command the constructor builds and runs of the methods then change,
whatever calls the observers make from inside their notifications.

* The status is never `expired` (`Reachable.status_ne_expired`): a status changes only to the
  target of the call that changes it, and no method targets `expired`.  Only code outside the
  instance could mark a command expired.
* The progress and the results hold only values the definition's schemas made of some document,
  or the empty objects the constructor set; and a `done` command's results are always such a value
  (`Reachable.validated`).  `SetProgress` and `SetResults` store what `TypedValueFromJson` returned,
  and `SetResults` stores its results before it calls `SetStatus(kDone)`: the observers it tells
  meanwhile can only store converted results in turn.

The second rests on a trace property, `Entry.Converts`: every assignment that changes the progress
or the results stores a converted value, and every one that makes the command `done` leaves
converted results.  It holds of every step of every run (`Run.converting`), proved from one
condition per method as the run invariant is.
-/

namespace Libweave

variable {S : SchemaUtils}

/-! ### `expired` is never reached -/

/-- An allowed step leaves the status it found, or the target of the call taking it. -/
lemma Entry.Allowed.next_status {e : Entry S} (h : e.Allowed) :
    e.next.status = e.state.status ∨ e.next.status = e.call.target := by
  obtain ⟨call, state, event⟩ := e
  cases event with
  | assign after => exact (Entry.allowed_assign.1 h).2.1.imp_right And.right
  | notify => exact .inl rfl
  | delayedRemove => exact .inl rfl

/-- A property of the members that every allowed step of a trace keeps holds at its end. -/
lemma Steps.preserve {P : CommandInstance S → Prop} {c c' : CommandInstance S}
    {t : List (Entry S)} (h : Steps c c' t) (hP : ∀ e ∈ t, e.Allowed → P e.state → P e.next)
    (h₀ : P c) : P c' := by
  induction t generalizing c with
  | nil => rwa [Steps.nil_iff.1 h]
  | cons e t ih =>
    obtain ⟨rfl, he, h⟩ := Steps.cons_iff.1 h
    exact ih h (fun e' h' => hP e' (List.mem_cons_of_mem _ h'))
      (hP e (List.mem_cons_self _ _) he h₀)

/-- After allowed steps, the status is the one at the start or the target of one of the calls
that took them. -/
lemma Steps.status_mem {c c' : CommandInstance S} {t : List (Entry S)} (h : Steps c c' t) :
    c'.status = c.status ∨ ∃ e ∈ t, c'.status = e.call.target :=
  h.preserve (P := fun c' => c'.status = c.status ∨ ∃ e ∈ t, c'.status = e.call.target)
    (fun e he ha hs => ha.next_status.elim (fun hn => by simp only [hn]; exact hs)
      fun hn => .inr ⟨e, he, hn⟩)
    (.inl rfl)

lemma Call.target_ne_expired (cl : Call S) : cl.target ≠ .expired := by
  cases cl <;> simp [Call.target]

/-- No command the constructor builds is ever `expired`, whatever calls are made on it and
whatever the observers call: no method targets `expired`. -/
theorem Reachable.status_ne_expired {c : CommandInstance S} (h : Reachable c) :
    c.status ≠ .expired := by
  induction h with
  | new => nofun
  | setID _ _ ih => exact ih
  | setCommandQueue _ _ ih => exact ih
  | run _ hr ih =>
    rcases hr.steps.status_mem with hs | ⟨e, _, hs⟩
    · exact hs ▸ ih
    · exact hs ▸ e.call.target_ne_expired

/-- A `lock.setConfig` command cancelled from `queued`. -/
theorem status_ne_expired_cancel :
    let c := (Call.cancel.run CommandInstance.lockCommand).state
    Reachable c ∧ c.status ≠ .expired :=
  have h : Reachable (Call.cancel.run CommandInstance.lockCommand).state :=
    .run (.new _ _ _ _) (Run.of_exec (Call.exec_run _ _))
  ⟨h, Reachable.status_ne_expired h⟩

/-! ### Converted values -/

/-- The member `m` is what the definition's schema for it made of some document. -/
def Converted (m : Document) (c : CommandInstance S) : Prop :=
  ∃ commandDefinition document, c.commandDefinition = some commandDefinition ∧
    S.typedValueFromJson (m.schema commandDefinition) (.dictionary document) = .ok (m.member c)

/-- The progress is what the definition's progress schema made of some document. -/
def ProgressConverted (c : CommandInstance S) : Prop := Converted .progress c

/-- The results are what the definition's results schema made of some document. -/
def ResultsConverted (c : CommandInstance S) : Prop := Converted .results c

lemma Converted.of_eq {m : Document} {c c' : CommandInstance S} (h : Converted m c)
    (hd : c'.commandDefinition = c.commandDefinition) (hm : m.member c' = m.member c) :
    Converted m c' := by
  obtain ⟨commandDefinition, document, hc, hv⟩ := h
  exact ⟨commandDefinition, document, hd.trans hc, hm ▸ hv⟩

/-- The members hold only converted values or the constructor's empty objects, and a `done`
command's results are converted. -/
def Validated (c : CommandInstance S) : Prop :=
  (c.progress = S.empty ∨ ProgressConverted c) ∧ (c.results = S.empty ∨ ResultsConverted c) ∧
    (c.status = .done → ResultsConverted c)

/-- A step stores only converted values: an assignment that changes the progress or the results
stores a converted value, and one that makes the command `done` leaves converted results. -/
def Entry.Converts (e : Entry S) : Prop :=
  match e.event with
  | .assign after =>
    (after.progress = e.state.progress ∨ ProgressConverted after) ∧
    (after.results = e.state.results ∨ ResultsConverted after) ∧
    (after.status = .done → after.status = e.state.status ∨ ResultsConverted after)
  | _ => True

namespace Entry

variable {cl : Call S} {c : CommandInstance S}

@[simp] lemma converts_assign {after : CommandInstance S} :
    (⟨cl, c, .assign after⟩ : Entry S).Converts ↔
      (after.progress = c.progress ∨ ProgressConverted after) ∧
      (after.results = c.results ∨ ResultsConverted after) ∧
      (after.status = .done → after.status = c.status ∨ ResultsConverted after) :=
  Iff.rfl

lemma converts_status {s : CommandStatus} (h : s = .done → ResultsConverted c) :
    (⟨cl, c, .assign { c with status := s }⟩ : Entry S).Converts :=
  ⟨.inl rfl, .inl rfl, fun hs => .inr (h hs)⟩

lemma converts_document (m : Document) {obj : S.ValueMap} (h : Converted m (m.update c obj)) :
    (⟨cl, c, .assign (m.update c obj)⟩ : Entry S).Converts := by
  cases m
  exacts [⟨.inr h, .inl rfl, fun _ => .inl rfl⟩, ⟨.inl rfl, .inr h, fun _ => .inl rfl⟩]

lemma converts_error {commandError : ErrorPtr} :
    (⟨cl, c, .assign { c with error := commandError }⟩ : Entry S).Converts :=
  ⟨.inl rfl, .inl rfl, fun _ => .inl rfl⟩

/-- An allowed step that stores only converted values keeps the results converted. -/
lemma Converts.keeps_resultsConverted {e : Entry S} (hc : e.Converts) (ha : e.Allowed)
    (h : ResultsConverted e.state) : ResultsConverted e.next := by
  obtain ⟨call, state, event⟩ := e
  cases event with
  | assign after =>
    exact (converts_assign.1 hc).2.1.elim (h.of_eq ha.frame.commandDefinition) id
  | notify => exact h
  | delayedRemove => exact h

/-- An allowed step that stores only converted values keeps the members validated. -/
lemma Converts.keeps_validated {e : Entry S} (hc : e.Converts) (ha : e.Allowed)
    (h : Validated e.state) : Validated e.next := by
  obtain ⟨call, state, event⟩ := e
  cases event with
  | assign after =>
    obtain ⟨hp, hr, hdone⟩ := converts_assign.1 hc
    have hd := ha.frame.commandDefinition
    have results : ResultsConverted state → ResultsConverted after := fun h' =>
      hr.elim (h'.of_eq hd) id
    refine ⟨hp.elim (fun he => h.1.imp (he.trans ·) (·.of_eq hd he)) .inr,
      hr.elim (fun he => h.2.1.imp (he.trans ·) (·.of_eq hd he)) .inr, fun hs => ?_⟩
    rcases hdone hs with hs' | hc'
    exacts [results (h.2.2 (hs'.symm.trans hs)), hc']
  | notify => exact h
  | delayedRemove => exact h

end Entry

/-! ### Every call stores only converted values -/

/-- The runs that keep the run invariant and store only converted values. -/
def Converting (c c' : CommandInstance S) (t : List (Entry S)) : Prop :=
  Steps c c' t ∧ ∀ e ∈ t, e.Converts

namespace Converting

variable {cl : Call S} {c₀ c c₁ c₂ : CommandInstance S} {acc t : List (Entry S)}

lemma nil (c : CommandInstance S) : Converting c c [] := ⟨Steps.nil c, by simp⟩

lemma append {c₃ : CommandInstance S} {t₁ t₂ : List (Entry S)} (h₁ : Converting c₁ c₂ t₁)
    (h₂ : Converting c₂ c₃ t₂) : Converting c₁ c₃ (t₁ ++ t₂) :=
  ⟨h₁.1.append h₂.1, List.forall_mem_append.2 ⟨h₁.2, h₂.2⟩⟩

lemma assign (h : Converting c₀ c acc) (ha : (⟨cl, c, .assign c₁⟩ : Entry S).Allowed)
    (hc : (⟨cl, c, .assign c₁⟩ : Entry S).Converts) :
    Converting c₀ c₁ (acc ++ [⟨cl, c, .assign c₁⟩]) :=
  ⟨h.1.assign ha, List.forall_mem_append.2 ⟨h.2, List.forall_mem_singleton.2 hc⟩⟩

lemma assign_notify (h : Converting c₀ c acc) (ha : (⟨cl, c, .assign c₁⟩ : Entry S).Allowed)
    (hc : (⟨cl, c, .assign c₁⟩ : Entry S).Converts) (ht : Converting c₁ c₂ t)
    {n : Notification} :
    Converting c₀ c₂ (acc ++ ⟨cl, c, .assign c₁⟩ :: ⟨cl, c₁, .notify n⟩ :: t) :=
  ⟨h.1.assign_notify ha ht.1, List.forall_mem_append.2 ⟨h.2,
    List.forall_mem_cons.2 ⟨hc, List.forall_mem_cons.2 ⟨trivial, ht.2⟩⟩⟩⟩

lemma delayedRemove (h : Converting c₀ c acc) (hT : c.status.isTerminal = true) :
    Converting c₀ c (acc ++ [⟨cl, c, .delayedRemove c.id⟩]) :=
  ⟨h.1.delayedRemove hT, List.forall_mem_append.2 ⟨h.2, List.forall_mem_singleton.2 trivial⟩⟩

end Converting

section Rules

open CommandInstance Prog

variable {cl : Call S} {c₀ c : CommandInstance S} {acc : List (Entry S)}

/-- `SetStatus` towards the call's target, from converted results when the target is `done`,
stores only converted values; when the target is terminal, it is still the status when
`SetStatus` returns. -/
lemma wp_setStatus_converting {Q : Reply → CommandInstance S → List (Entry S) → Prop}
    (h : Converting c₀ c acc) (hdone : cl.target = .done → ResultsConverted c)
    (hQ : ∀ r c₁ acc₁, Converting c₀ c₁ acc₁ →
      (cl.target.isTerminal = true → c₁.status.isTerminal = true) → Q r c₁ acc₁) :
    (setStatus cl.target).WP cl Converting Q c acc := by
  refine wp_setStatus.2 ⟨fun he => hQ _ _ _ h (he ▸ id),
    fun _ hr => hQ _ _ _ h fun _ => hr.resolve_left cl.target_ne_queued,
    fun _ _ hnt _ _ ht => hQ _ _ _ (h.assign_notify (Entry.allowed_status hnt)
      (Entry.converts_status hdone) ht) fun hT => ?_⟩
  rw [ht.1.terminal_stable hT]
  exact hT

lemma wp_setStatus_removeFromQueue_converting (hT : cl.target.isTerminal = true)
    (h : Converting c₀ c acc) (hdone : cl.target = .done → ResultsConverted c) :
    (setStatus cl.target).WP cl Converting (fun _ c₁ acc₁ =>
      removeFromQueue.WP cl Converting (fun _ c₂ acc₂ => Converting c₀ c₂ acc₂) c₁ acc₁) c acc :=
  wp_setStatus_converting h hdone fun _ _ _ h₁ ht =>
    wp_removeFromQueue.2 ⟨fun _ => h₁.delayedRemove (ht hT), fun _ => h₁⟩

end Rules

namespace Call

open CommandInstance

/-- Every call stores only converted values when its observers' calls do. -/
theorem wp_converting (cl : Call S) (c : CommandInstance S) :
    cl.body.WP cl Converting (fun _ c' t => Converting c c' t) c [] := by
  have nil := Converting.nil c
  cases cl with
  | setProgress progress =>
    refine wp_setProgress.2 ⟨fun _ => nil, fun commandDefinition hd =>
      ⟨fun _ _ => nil, fun obj hv => wp_setStatus_converting nil nofun fun _ c₁ _ h _ =>
        ⟨fun _ => ⟨fun _ => h, fun _ _ _ ht => ?replaced⟩, fun _ => h⟩⟩⟩
    case replaced =>
      -- the definition is still the one whose schema converted the document
      have hc : ProgressConverted { c₁ with progress := obj } :=
        ⟨commandDefinition, progress, h.1.frame_advance.1.commandDefinition.trans hd, hv⟩
      exact h.assign_notify (Entry.allowed_document .progress)
        (Entry.converts_document .progress hc) ht
  | setResults results =>
    refine wp_setResults.2 ⟨fun _ => nil, fun commandDefinition hd =>
      ⟨fun _ _ => nil, fun obj hv => ⟨fun he => ?unchanged, fun _ _ _ ht => ?replaced⟩⟩⟩
    case unchanged =>
      exact wp_setStatus_removeFromQueue_converting rfl nil
        fun _ => ⟨commandDefinition, results, hd, hv.trans (congrArg _ he)⟩
    case replaced =>
      -- the observers told of the new results store only converted results in turn
      have hc : ResultsConverted { c with results := obj } := ⟨commandDefinition, results, hd, hv⟩
      exact wp_setStatus_removeFromQueue_converting rfl
        (nil.assign_notify (Entry.allowed_document .results)
          (Entry.converts_document .results hc) ht)
        fun _ => ht.1.preserve (fun e he ha => (ht.2 e he).keeps_resultsConverted ha) hc
  | setError commandError =>
    exact wp_setError.2 (wp_setStatus_converting
      (nil.assign (Entry.allowed_error ⟨_, .inl rfl⟩) Entry.converts_error) nofun
      fun _ _ _ h _ => h)
  | pause => exact wp_setStatus_converting nil nofun fun _ _ _ h _ => h
  | abort commandError =>
    exact wp_abort.2 (wp_setStatus_removeFromQueue_converting rfl
      (nil.assign (Entry.allowed_error ⟨_, .inr rfl⟩) Entry.converts_error) nofun)
  | cancel => exact wp_cancel.2 (wp_setStatus_removeFromQueue_converting rfl nil nofun)

end Call

/-- Every run, with calls nested to any depth, stores only converted values. -/
lemma Run.converting {d : Nat} {c c' : CommandInstance S} {t : List (Entry S)}
    (h : Run d c c' t) : Converting c c' t :=
  Run.induction Converting.nil Converting.append
    (fun hn _ _ _ h => by simpa using Prog.wp_sound hn (Call.wp_converting _ _) h) h

/-- In every command the constructor builds and calls then change, whatever the observers call:
the progress and the results are each the empty object the constructor set or a value the
definition's schema made of some document, and a `done` command's results are such a value. -/
theorem Reachable.validated {c : CommandInstance S} (h : Reachable c) :
    (c.progress = S.empty ∨ ProgressConverted c) ∧ (c.results = S.empty ∨ ResultsConverted c) ∧
      (c.status = .done → ResultsConverted c) := by
  induction h with
  | new => exact ⟨.inl rfl, .inl rfl, nofun⟩
  | setID _ _ ih => exact ih
  | setCommandQueue _ _ ih => exact ih
  | run _ hr ih =>
    obtain ⟨hs, hc⟩ := hr.converting
    exact hs.preserve (fun e he ha => (hc e he).keeps_validated ha) ih

/-- A `lock.setConfig` command completed with results. -/
theorem validated_setResults :
    let c := ((Call.setResults [("lockedState", .string "locked")]).run
      CommandInstance.lockCommand).state
    Reachable c ∧
      (c.progress = SchemaUtils.stringObjects.empty ∨ ProgressConverted c) ∧
      (c.results = SchemaUtils.stringObjects.empty ∨ ResultsConverted c) ∧
      (c.status = .done → ResultsConverted c) :=
  have h : Reachable ((Call.setResults [("lockedState", .string "locked")]).run
      CommandInstance.lockCommand).state :=
    .run (.new _ _ _ _) (Run.of_exec (Call.exec_run _ _))
  ⟨h, Reachable.validated h⟩

end Libweave
