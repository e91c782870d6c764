import Libweave.Commands.Removal
import Libweave.Commands.Refusals
import Libweave.Commands.Documents
import Libweave.Commands.Integrity

/-!
# The example lock daemon's command handler

`examples/daemon/lock/lock.cc` registers the command `lock.setConfig` and handles it in
`LockHandler::OnLockSetConfig`: it reads the requested `lockedState` from the command's
parameters and converts it with `StringToEnum` over `kLockMapMethod`.  When the parameter is
missing or names no lock state, it aborts the command with an `invalid_parameter_value` error.
Otherwise it takes the new state, reports it to the device by `UpdateLockState` when it differs
from `lock_state_`, and completes the command with empty results.

`Complete` is the name the `TODO` of `weave/command.h` gives `SetResults`; the model makes that
call.  `StringToEnum` and `EnumToString` (`weave/enum_to_string.h`, not among the sources) look a
value up in the map.  The device keeps, for each state property, the value set last.

Main results:
* `onLockSetConfig_ends`: the call the handler makes ends the command, and asks the queue to
  remove it, whatever the observers call, provided the definition accepts empty results.
* `handleAll_lockedState`: after `Register` and any commands handled in turn, the state the
  device holds for `lock.lockedState` is the name of the handler's `lock_state_`.
* `onLockSetConfig_reported`: from the cloud's document to the record: every command `FromJson`
  accepts with the daemon's dictionary, attached to the queue and handled, ends `done`,
  `cancelled` or `aborted` in the record `ToJson` writes, and is asked to leave the queue.
-/

namespace Libweave

namespace lockstate

/-- `lockstate::LockState`. -/
inductive LockState where
  | unlocked
  | locked
  | partiallyLocked
  deriving DecidableEq, Repr

/-- `kLockMapMethod`: the names of the lock states. -/
def kLockMapMethod : List (LockState × String) :=
  [(.locked, "locked"), (.unlocked, "unlocked"), (.partiallyLocked, "partiallyLocked")]

/-- `EnumToString` over `kLockMapMethod`: the name of the first entry for the state. -/
def LockState.enumToString (lockState : LockState) : String :=
  ((kLockMapMethod.find? fun entry => entry.1 == lockState).map Prod.snd).getD ""

/-- `StringToEnum` over `kLockMapMethod`: the state of the first entry with the name. -/
def stringToEnum (name : String) : Option LockState :=
  (kLockMapMethod.find? fun entry => entry.2 == name).map Prod.fst

end lockstate

open lockstate

/-- The state properties `Register` sets with `SetStatePropertiesFromJson`. -/
def registeredState : DictionaryValue :=
  DictionaryValue.empty.set "lock" (.dictionary
    ((DictionaryValue.empty.setString "lockedState" "locked").set "isLockingSupported"
      (.boolean true)))

/-- `UpdateLockState`: the state properties sent to the device.  `SetString` expands the path
`lock.lockedState`, putting the name under `lockedState` in the dictionary `lock`. -/
def updateLockState (lockState : LockState) : DictionaryValue :=
  DictionaryValue.empty.set "lock" (.dictionary
    (DictionaryValue.empty.setString "lockedState" lockState.enumToString))

/-- The `lock.lockedState` a set of state properties gives, if any. -/
def lockedStateOf (state : DictionaryValue) : Option String :=
  match state.get "lock" with
  | some (.dictionary lock) => DictionaryValue.getString lock "lockedState"
  | _ => none

@[simp] lemma lockedStateOf_updateLockState (lockState : LockState) :
    lockedStateOf (updateLockState lockState) = some lockState.enumToString := by
  simp [lockedStateOf, updateLockState, DictionaryValue.getString, DictionaryValue.setString]

variable {S : SchemaUtils}

/-- What `OnLockSetConfig` leaves: the handler's `lock_state_`, the state properties it sent the
device by `UpdateLockState` if it did, and the call it made on the command. -/
structure Handled (S : SchemaUtils) where
  lockState : LockState
  update : Option DictionaryValue
  call : Call S

/-- `LockHandler::OnLockSetConfig`, on a command that is still alive, from the handler's
`lock_state_`. -/
def onLockSetConfig (lockState : LockState) (c : CommandInstance S) : Handled S :=
  match (S.typedValueToJson c.parameters).getString "lockedState" with
  | some requestedState =>
    match stringToEnum requestedState with
    | none => ⟨lockState, none, .abort CommandInstance.invalidParameters⟩
    | some newLockStatus =>
      if newLockStatus ≠ lockState then
        ⟨newLockStatus, some (updateLockState newLockStatus), .setResults DictionaryValue.empty⟩
      else
        ⟨lockState, none, .setResults DictionaryValue.empty⟩
  | none => ⟨lockState, none, .abort CommandInstance.invalidParameters⟩

/-- The handler aborts the command or completes it with empty results; it sends the device its new
state exactly when `lock_state_` changes. -/
lemma onLockSetConfig_cases (lockState : LockState) (c : CommandInstance S) :
    ((onLockSetConfig lockState c).call = .abort CommandInstance.invalidParameters ∨
      (onLockSetConfig lockState c).call = .setResults DictionaryValue.empty) ∧
    ((onLockSetConfig lockState c).update = none ∧
        (onLockSetConfig lockState c).lockState = lockState ∨
      (onLockSetConfig lockState c).update =
        some (updateLockState (onLockSetConfig lockState c).lockState)) := by
  unfold onLockSetConfig
  split
  · split
    · exact ⟨.inl rfl, .inl ⟨rfl, rfl⟩⟩
    · split
      · exact ⟨.inr rfl, .inr rfl⟩
      · exact ⟨.inr rfl, .inl ⟨rfl, rfl⟩⟩
  · exact ⟨.inl rfl, .inl ⟨rfl, rfl⟩⟩

/-- The call `OnLockSetConfig` makes leaves the command terminal, whatever the observers call,
provided the definition accepts empty results. -/
lemma onLockSetConfig_terminal (lockState : LockState) {c : CommandInstance S}
    (hc : (Call.setResults DictionaryValue.empty).accepted c = true) {d : Nat}
    {o : Outcome S Reply} (h : (onLockSetConfig lockState c).call.Exec (Run d) c o) :
    o.state.status.isTerminal = true := by
  have hcall : (onLockSetConfig lockState c).call.target.isTerminal = true ∧
      (onLockSetConfig lockState c).call.accepted c = true := by
    rcases (onLockSetConfig_cases lockState c).1 with he | he <;> rw [he]
    exacts [⟨rfl, rfl⟩, ⟨rfl, hc⟩]
  simpa using Prog.wp_sound Run.steps (Call.wp_ends _ c hcall.1 hcall.2) h

/-- Whatever the parameters, the call `OnLockSetConfig` makes — `Abort`, or `Complete` with empty
results the definition accepts — leaves the command terminal and, when it was live and attached to
a queue, asks the queue to remove it, whatever calls the observers make. -/
theorem onLockSetConfig_ends (lockState : LockState) {c : CommandInstance S}
    (hc : (Call.setResults DictionaryValue.empty).accepted c = true) {d : Nat}
    {o : Outcome S Reply} (h : (onLockSetConfig lockState c).call.Exec (Run d) c o) :
    o.state.status.isTerminal = true ∧
      (c.queue = true → c.status.isTerminal = false → ∃ e ∈ o.trace, e.event = .delayedRemove c.id) := by
  have hT := onLockSetConfig_terminal lockState hc h
  exact ⟨hT, fun hq hl => (Call.exec_queueSafe Run.queueSafe h).2 hq hl hT⟩

/-- The handler asked to unlock a queued `lock.setConfig` command attached to a queue. -/
theorem onLockSetConfig_ends_unlock :
    let c := (CommandInstance.new "lock.setConfig" .cloud lockSetConfig
      [("lockedState", "unlocked")]).setCommandQueue true
    let o := (onLockSetConfig .locked c).call.run c
    (Call.setResults DictionaryValue.empty).accepted c = true ∧
      (onLockSetConfig .locked c).call.Exec (Run 0) c o ∧
      o.state.status.isTerminal = true ∧
      (c.queue = true → c.status.isTerminal = false → ∃ e ∈ o.trace, e.event = .delayedRemove c.id) :=
  ⟨rfl, Call.exec_run _ _, onLockSetConfig_ends .locked (by decide) (Call.exec_run _ _)⟩

/-- The handler run on commands in turn, from `lock_state_`: its `lock_state_` at the end, and
the state properties it sent the device, in order. -/
def handleAll (lockState : LockState) : List (CommandInstance S) → LockState × List DictionaryValue
  | [] => (lockState, [])
  | c :: cs =>
    let handled := onLockSetConfig lockState c
    let rest := handleAll handled.lockState cs
    (rest.1, handled.update.toList ++ rest.2)

/-- From state properties that name `lock_state_`, the last ones the device is sent still name the
handler's `lock_state_`. -/
lemma handleAll_last (lockState : LockState) (state : DictionaryValue)
    (h : lockedStateOf state = some lockState.enumToString) (cs : List (CommandInstance S)) :
    ((state :: (handleAll lockState cs).2).getLast?.bind lockedStateOf) =
      some (handleAll lockState cs).1.enumToString := by
  induction cs generalizing lockState state with
  | nil => simpa [handleAll] using h
  | cons c cs ih =>
    rcases (onLockSetConfig_cases lockState c).2 with ⟨hu, hl⟩ | hu
    · simpa [handleAll, hu, hl] using ih lockState state h
    · simpa [handleAll, hu, List.getLast?_cons_cons] using
        ih _ _ (lockedStateOf_updateLockState (onLockSetConfig lockState c).lockState)

/-- After `Register` and any commands handled in turn, the `lock.lockedState` the device holds —
the one set last — is the name of the handler's `lock_state_`: the device never shows a stale lock
state. -/
theorem handleAll_lockedState (cs : List (CommandInstance S)) :
    ((registeredState :: (handleAll .locked cs).2).getLast?.bind lockedStateOf) =
      some (handleAll .locked cs).1.enumToString :=
  handleAll_last .locked registeredState (by decide) cs

/-! ### From the cloud's document to the record -/

open SchemaUtils in
/-- Over string objects every command definition is `lock.setConfig`'s, and it accepts empty
results. -/
lemma setResults_empty_accepted {c : CommandInstance stringObjects}
    (hd : c.commandDefinition.isSome = true) :
    (Call.setResults DictionaryValue.empty).accepted c = true := by
  obtain ⟨commandDefinition, hc⟩ := Option.isSome_iff_exists.1 hd
  simp only [Call.accepted, hc]
  rfl

open SchemaUtils in
/-- The call `OnLockSetConfig` makes on a live command attached to the queue ends it `done`,
`cancelled` or `aborted`, and asks the queue to remove it, whatever the observers call. -/
lemma onLockSetConfig_final (lockState : LockState) {c : CommandInstance stringObjects}
    (hd : c.commandDefinition.isSome = true) (hq : c.queue = true)
    (hl : c.status.isTerminal = false) {d : Nat} {o : Outcome stringObjects Reply}
    (h : (onLockSetConfig lockState c).call.Exec (Run d) c o) :
    (o.state.status = .done ∨ o.state.status = .cancelled ∨ o.state.status = .aborted) ∧
      ∃ e ∈ o.trace, e.event = .delayedRemove c.id := by
  have hends := onLockSetConfig_terminal lockState (setResults_empty_accepted hd) h
  refine ⟨?_, (Call.exec_queueSafe Run.queueSafe h).2 hq hl hends⟩
  rcases (Call.exec_steps Run.steps h).status_mem with hs | ⟨e, -, hs⟩
  · rw [hs, hl] at hends
    exact absurd hends Bool.false_ne_true
  · have hx := e.call.target_ne_expired
    rw [hs] at hends ⊢
    revert hends hx
    cases e.call.target <;> simp [CommandStatus.isTerminal]

open SchemaUtils attributes in
/-- From the cloud to the record: a `lock.setConfig` document that `FromJson` accepts with the
daemon's dictionary, once the command is attached to the queue and `OnLockSetConfig` has made its
call, leaves a record whose `state` is `done`, `cancelled` or `aborted`, and the queue is asked to
remove the command; whatever the handler's `lock_state_`, the parameters, and the calls the
observers make. -/
theorem onLockSetConfig_reported (value : Value) (origin : CommandOrigin) (lockState : LockState)
    {c : CommandInstance stringObjects}
    (hc : (CommandInstance.fromJson value origin lockDictionary).command = some c) {d : Nat}
    {o : Outcome stringObjects Reply}
    (h : (onLockSetConfig lockState (c.setCommandQueue true)).call.Exec (Run d)
      (c.setCommandQueue true) o)
    (errorInfoToJson : ErrorPtr → DictionaryValue) :
    ((o.state.toJson errorInfoToJson).get kCommandState = some (.string "done") ∨
      (o.state.toJson errorInfoToJson).get kCommandState = some (.string "cancelled") ∨
      (o.state.toJson errorInfoToJson).get kCommandState = some (.string "aborted")) ∧
    ∃ e ∈ o.trace, e.event = .delayedRemove c.id := by
  obtain ⟨json, name, commandDefinition, parameters, -, -, -, -, rfl⟩ :=
    (CommandInstance.fromJson_command_eq_some _ _ _).1 hc
  obtain ⟨hfinal, hremoved⟩ := onLockSetConfig_final lockState (by rfl) (by rfl) (by rfl) h
  refine ⟨?_, hremoved⟩
  rcases hfinal with hs | hs | hs <;> simp [hs, CommandStatus.enumToString]

/-- The cloud asks to unlock a locked door. -/
theorem onLockSetConfig_reported_unlock :
    let value : Value := .dictionary [("name", .string "lock.setConfig"),
      ("parameters", .dictionary [("lockedState", .string "unlocked")])]
    let c := CommandInstance.new "lock.setConfig" .cloud lockSetConfig [("lockedState", "unlocked")]
    let o := (onLockSetConfig .locked (c.setCommandQueue true)).call.run (c.setCommandQueue true)
    (CommandInstance.fromJson value .cloud lockDictionary).command = some c ∧
      (onLockSetConfig .locked (c.setCommandQueue true)).call.Exec (Run 0)
        (c.setCommandQueue true) o ∧
      ((o.state.toJson fun _ => DictionaryValue.empty).get attributes.kCommandState =
          some (.string "done") ∨
        (o.state.toJson fun _ => DictionaryValue.empty).get attributes.kCommandState =
          some (.string "cancelled") ∨
        (o.state.toJson fun _ => DictionaryValue.empty).get attributes.kCommandState =
          some (.string "aborted")) ∧
      ∃ e ∈ o.trace, e.event = .delayedRemove c.id :=
  have hc : (CommandInstance.fromJson (.dictionary [("name", .string "lock.setConfig"),
        ("parameters", .dictionary [("lockedState", .string "unlocked")])]) .cloud
        lockDictionary).command =
      some (CommandInstance.new "lock.setConfig" .cloud lockSetConfig [("lockedState", "unlocked")]) :=
    rfl
  ⟨hc, Call.exec_run _ _, onLockSetConfig_reported _ .cloud .locked hc (Call.exec_run _ _) _⟩

end Libweave
