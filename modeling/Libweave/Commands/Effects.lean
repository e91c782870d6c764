import Libweave.Commands.Postconditions

/-!
# What each call does, said directly

With observers that make no call back, a method of `CommandInstance` is a plain function of the
members: its reply, the members after it, the notifications it broadcasts, in order, and the
removals it asks of the queue.  `Call.effect` writes that function down method by method.  The
switch of `SetStatus` is one condition, `switchPossible`: every method targets a status other than
`queued`, which is reached from itself or from any status that is not terminal, and refused from
every other.

`Call.run_effect` proves that the body, run step by step, has exactly this effect, for every call
and all members.  The corner cases are plain to read there: `SetResults` replaces the results and
announces them before its transition is refused; `SetError` and `Abort` record their error
whatever the transition gives; and `SetResults`, `Abort` and `Cancel` ask for the removal of a
command attached to a queue whether or not their transition succeeded.
-/

namespace Libweave

variable {S : SchemaUtils}

/-- What a call does: its reply, the members after it, the notifications it broadcasts, in
order, and the IDs of the commands it asks the queue to remove. -/
structure Effect (S : SchemaUtils) where
  reply : Reply
  state : CommandInstance S
  notifications : List Notification
  removals : List String

/-- The removal requests along a trace, by the ID each names. -/
def removals (t : List (Entry S)) : List String :=
  t.filterMap fun e => match e.event with
    | .delayedRemove id => some id
    | _ => none

section Removals

variable {cl : Call S} {c a : CommandInstance S} {t t' : List (Entry S)}

@[simp] lemma removals_nil : removals ([] : List (Entry S)) = [] := rfl

@[simp] lemma removals_append : removals (t ++ t') = removals t ++ removals t' :=
  List.filterMap_append _ _ _

@[simp] lemma removals_assign : removals (⟨cl, c, .assign a⟩ :: t) = removals t := rfl

@[simp] lemma removals_notify {n : Notification} :
    removals (⟨cl, c, .notify n⟩ :: t) = removals t := rfl

@[simp] lemma removals_delayedRemove {id : String} :
    removals (⟨cl, c, .delayedRemove id⟩ :: t) = id :: removals t := rfl

end Removals

/-- What an outcome shows of a call. -/
def Outcome.effect (o : Outcome S Reply) : Effect S :=
  ⟨o.result, o.state, notifications o.trace, removals o.trace⟩

@[simp] lemma Outcome.effect_mk {r : Reply} {c : CommandInstance S} {t : List (Entry S)} :
    Outcome.effect ⟨r, c, t⟩ = ⟨r, c, notifications t, removals t⟩ := rfl

open CommandInstance

/-- Whether `SetStatus` switches from `status` to `target`, a status other than `queued`: the
command already has it, or is not in a terminal status. -/
def switchPossible (status target : CommandStatus) : Bool :=
  target == status || !status.isTerminal

/-- The notification `n`, when its member changed. -/
def announce (changed : Bool) (n : Notification) : List Notification :=
  if changed then [n] else []

/-- `SetStatus` towards `target`, then the removals `removals`. -/
def statusEffect (c : CommandInstance S) (target : CommandStatus) (removals : List String) :
    Effect S :=
  if switchPossible c.status target then
    ⟨(true, []), { c with status := target }, announce (target != c.status) .onStatusChanged,
      removals⟩
  else
    ⟨reportInvalidStateTransition c.status target, c, [], removals⟩

@[simp] lemma statusEffect_of_possible {c : CommandInstance S} {target : CommandStatus}
    {removals : List String} (h : switchPossible c.status target = true) :
    statusEffect c target removals = ⟨(true, []), { c with status := target },
      announce (target != c.status) .onStatusChanged, removals⟩ := by
  simp [statusEffect, h]

@[simp] lemma statusEffect_of_impossible {c : CommandInstance S} {target : CommandStatus}
    {removals : List String} (h : switchPossible c.status target = false) :
    statusEffect c target removals =
      ⟨reportInvalidStateTransition c.status target, c, [], removals⟩ := by
  simp [statusEffect, h]

/-- `RemoveFromQueue`: the command's ID when it is attached to a queue. -/
@[simp] def queueRemoval (c : CommandInstance S) : List String :=
  if c.queue then [c.id] else []

/-- What each call does from the members `c`, its observers making no call. -/
def Call.effect : Call S → CommandInstance S → Effect S
  | .setProgress progress, c =>
    match c.commandDefinition with
    | none => ⟨reportDestroyedError, c, [], []⟩
    | some commandDefinition =>
      match S.typedValueFromJson commandDefinition.progress (.dictionary progress) with
      | .error error => ⟨(false, error), c, [], []⟩
      | .ok obj =>
        if switchPossible c.status .inProgress then
          ⟨(true, []), { c with status := .inProgress, progress := obj },
            announce (.inProgress != c.status) .onStatusChanged ++
              announce (obj != c.progress) .onProgressChanged, []⟩
        else ⟨reportInvalidStateTransition c.status .inProgress, c, [], []⟩
  | .setResults results, c =>
    match c.commandDefinition with
    | none => ⟨reportDestroyedError, c, [], []⟩
    | some commandDefinition =>
      match S.typedValueFromJson commandDefinition.results (.dictionary results) with
      | .error error => ⟨(false, error), c, [], []⟩
      | .ok obj =>
        let effect := statusEffect { c with results := obj } .done (queueRemoval c)
        { effect with
          notifications := announce (obj != c.results) .onResultsChanged ++ effect.notifications }
  | .setError commandError, c => statusEffect { c with error := commandError } .error []
  | .pause, c => statusEffect c .paused []
  | .abort commandError, c =>
    statusEffect { c with error := commandError } .aborted (queueRemoval c)
  | .cancel, c => statusEffect c .cancelled (queueRemoval c)

section Rules

open Prog

variable {call : Call S} {c : CommandInstance S} {acc : List (Entry S)} {s : CommandStatus}
  {Q : Reply → CommandInstance S → List (Entry S) → Prop}

/-- `SetStatus` towards a status other than `queued` switches exactly when `switchPossible` says,
telling the observers when the status changed; it asks for no removal. -/
lemma wp_setStatus_effect (hs : s ≠ .queued)
    (hok : switchPossible c.status s = true → ∀ t,
      notifications t = announce (s != c.status) .onStatusChanged → removals t = [] →
        Q (true, []) { c with status := s } (acc ++ t))
    (hfail : switchPossible c.status s = false →
      Q (reportInvalidStateTransition c.status s) c acc) :
    (setStatus s).WP call (Run 0) Q c acc := by
  refine wp_setStatus.2 ⟨fun he => ?_, fun hne hr => ?_, fun hne _ hT _ _ ⟨hc, ht⟩ => ?_⟩
  · subst he
    simpa [announce] using hok (by simp [switchPossible]) [] (by simp [announce]) rfl
  · exact hfail (by simp [switchPossible, hne, hr.resolve_left hs])
  · subst hc ht
    exact hok (by simp [switchPossible, hT]) _ (by simp [announce, hne]) rfl

lemma wp_setStatus_removeFromQueue_effect (hs : s ≠ .queued)
    (hok : switchPossible c.status s = true → ∀ t,
      notifications t = announce (s != c.status) .onStatusChanged → removals t = queueRemoval c →
        Q (true, []) { c with status := s } (acc ++ t))
    (hfail : switchPossible c.status s = false → ∀ t, notifications t = [] →
      removals t = queueRemoval c → Q (reportInvalidStateTransition c.status s) c (acc ++ t)) :
    (setStatus s).WP call (Run 0) (fun r c₁ acc₁ =>
      removeFromQueue.WP call (Run 0) (fun _ c₂ acc₂ => Q r c₂ acc₂) c₁ acc₁) c acc := by
  have removed : ∀ {c₁ : CommandInstance S} {acc₁ : List (Entry S)}
      {P : CommandInstance S → List (Entry S) → Prop},
      (∀ t, notifications t = [] → removals t = queueRemoval c₁ → P c₁ (acc₁ ++ t)) →
        removeFromQueue.WP call (Run 0) (fun _ c₂ acc₂ => P c₂ acc₂) c₁ acc₁ := fun h =>
    wp_removeFromQueue.2 ⟨fun hq => h _ rfl (by simp [hq]),
      fun hq => by simpa using h [] rfl (by simp [hq])⟩
  refine wp_setStatus_effect hs (fun hp t hn hr => removed fun t' hn' hr' => ?_)
    fun hp => removed (hfail hp)
  simpa using hok hp (t ++ t') (by simp [hn, hn']) (by simp [hr, hr'])

end Rules

namespace Call

/-- Every call, its observers making no call, has the effect `Call.effect` says. -/
theorem wp_effect (cl : Call S) (c : CommandInstance S) :
    cl.body.WP cl (Run 0) (fun r c' t => Outcome.effect ⟨r, c', t⟩ = cl.effect c) c [] := by
  cases cl with
  | setProgress progress =>
    refine wp_setProgress.2 ⟨fun hd => by simp [effect, hd], fun commandDefinition hd =>
      ⟨fun error hv => by simp [effect, hd, hv], fun obj hv => wp_setStatus_effect nofun
        (fun hp t hn hr => ⟨fun _ => ⟨fun he => ?_, fun hne _ _ ⟨hc, ht⟩ => ?_⟩, nofun⟩)
        fun hp => ⟨nofun, fun _ => by simp [effect, hd, hv, hp]⟩⟩⟩
    · dsimp only at he
      subst he
      simp [effect, hd, hv, hp, hn, hr, announce]
    · dsimp only at hne
      subst hc ht
      simp [effect, hd, hv, hp, hn, hr, announce, hne]
  | setResults results =>
    refine wp_setResults.2 ⟨fun hd => by simp [effect, hd], fun commandDefinition hd =>
      ⟨fun error hv => by simp [effect, hd, hv],
        fun obj hv => ⟨fun he => ?_, fun hne _ _ ⟨hc, ht⟩ => ?_⟩⟩⟩
    · subst he
      refine wp_setStatus_removeFromQueue_effect nofun
        (fun hp t hn hr => by simp [effect, hd, hv, hp, hn, hr, announce])
        fun hp t hn hr => ?_
      simp [effect, hd, hv, hp, hn, hr, announce]
      rw [← hd]
    · subst hc ht
      refine wp_setStatus_removeFromQueue_effect nofun ?_ ?_ <;>
        intro hp t hn hr <;> simp [effect, hd, hv, hp, hn, hr, announce, hne]
  | setError commandError =>
    exact wp_setError.2 (wp_setStatus_effect nofun
      (fun hp t hn hr => by simp [effect, hp, hn, hr]) fun hp => by simp [effect, hp])
  | pause =>
    exact wp_setStatus_effect nofun (fun hp t hn hr => by simp [effect, hp, hn, hr])
      fun hp => by simp [effect, hp]
  | abort commandError =>
    refine wp_abort.2 (wp_setStatus_removeFromQueue_effect nofun ?_ ?_) <;>
      intro hp t hn hr <;> simp [effect, hp, hn, hr]
  | cancel =>
    refine wp_cancel.2 (wp_setStatus_removeFromQueue_effect nofun ?_ ?_) <;>
      intro hp t hn hr <;> simp [effect, hp, hn, hr]

end Call

/-- The body of every call, run step by step with observers that make no call back, has the
effect `Call.effect` describes: the same reply, the same members after it, the same
notifications in the same order, and the same removal requests. -/
theorem Call.run_effect (cl : Call S) (c : CommandInstance S) : (cl.run c).effect = cl.effect c :=
  Call.run_of_wp cl (cl.wp_effect c)

/-- `SetResults` on a cancelled command attached to a queue: the results are replaced and
announced, the transition is refused, and the removal is asked for again. -/
example :
    let c := (Call.cancel.run (CommandInstance.lockCommand.setCommandQueue true)).state
    let effect := (Call.setResults [("lockedState", .string "locked")]).effect c
    effect.reply.1 = false ∧ effect.notifications = [.onResultsChanged] ∧ effect.removals = [""] := by
  decide

end Libweave
