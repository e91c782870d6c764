import Libweave.Commands.Definition

/-!
# The command instance and its methods

A `CommandInstance` is the record of the members its methods read and write.  A method body is a
`Prog`: a tree of the effects the C++ body has, in program order — reading the members, assigning
them, broadcasting a notification to the observers (`FOR_EACH_OBSERVER`), and asking the owning
queue for a `DelayedRemove`.  The observers are code outside the instance and may call its methods
again from inside a broadcast; keeping the broadcasts as nodes of the tree lets
`Libweave.Commands.Semantics` run the same bodies once with observers that make no call and once
with observers that do.

The bodies below follow `CommandInstance::SetStatus`, `SetProgress`, `SetResults`, `SetError`,
`Pause`, `Abort`, `Cancel` and `RemoveFromQueue` line by line.  In particular a body reads the
members again after each broadcast, as the C++ code does when it reads `progress_`, `status_` or
`queue_` after `FOR_EACH_OBSERVER` returns.
-/

namespace Libweave

variable {S : SchemaUtils}

/-- The members of a `CommandInstance` that its methods read or write.  The observer list is not
kept: what the observers do is the business of the semantics. -/
structure CommandInstance (S : SchemaUtils) where
  /-- `id_`. -/
  id : String
  /-- `name_`. -/
  name : String
  /-- `origin_`. -/
  origin : CommandOrigin
  /-- `command_definition_`; `none` once the definition has been detached. -/
  commandDefinition : Option (CommandDefinition S)
  /-- `parameters_`. -/
  parameters : S.ValueMap
  /-- `progress_`. -/
  progress : S.ValueMap
  /-- `results_`. -/
  results : S.ValueMap
  /-- `status_`. -/
  status : CommandStatus
  /-- `error_`. -/
  error : ErrorPtr
  /-- Whether `queue_` is set. -/
  queue : Bool

namespace CommandInstance

/-- The constructor `CommandInstance::CommandInstance`, whose `CHECK` makes the definition
non-null; the other members take their default values. -/
def new (name : String) (origin : CommandOrigin) (commandDefinition : CommandDefinition S)
    (parameters : S.ValueMap) : CommandInstance S where
  id := ""
  name := name
  origin := origin
  commandDefinition := some commandDefinition
  parameters := parameters
  progress := S.empty
  results := S.empty
  status := .queued
  error := []
  queue := false

/-- A `lock.setConfig` command from the cloud asking the example lock daemon to lock. -/
def lockCommand : CommandInstance SchemaUtils.stringObjects :=
  new "lock.setConfig" .cloud lockSetConfig [("lockedState", "locked")]

/-- The error chain the example lock daemon passes to `Abort` when the parameters are invalid. -/
def invalidParameters : ErrorPtr :=
  [⟨.other "example", .other "invalid_parameter_value", "Invalid parameters"⟩]

/-- `SetID`. -/
def setID (c : CommandInstance S) (id : String) : CommandInstance S := { c with id := id }

/-- `SetCommandQueue`, by whether the queue pointer it stores is set. -/
def setCommandQueue (c : CommandInstance S) (queue : Bool) : CommandInstance S :=
  { c with queue := queue }

end CommandInstance

/-- The notifications a `CommandInstance` broadcasts from its state-machine methods. -/
inductive Notification where
  | onStatusChanged
  | onProgressChanged
  | onResultsChanged
  deriving DecidableEq, Repr

/-- A method body: the tree of its effects on the instance, ending in its return value. -/
inductive Prog (S : SchemaUtils) (α : Type) : Type where
  | ret (a : α)
  /-- Read the members, and go on with what they are. -/
  | read (k : CommandInstance S → Prog S α)
  /-- Assign members. -/
  | update (f : CommandInstance S → CommandInstance S) (k : Prog S α)
  /-- `FOR_EACH_OBSERVER(Observer, observers_, n())`. -/
  | notify (n : Notification) (k : Prog S α)
  /-- `queue_->DelayedRemove(id)`. -/
  | delayedRemove (id : String) (k : Prog S α)

namespace Prog

variable {α β : Type}

/-- Sequencing of method bodies. -/
def bind : Prog S α → (α → Prog S β) → Prog S β
  | .ret a, f => f a
  | .read k, f => .read fun c => (k c).bind f
  | .update g k, f => .update g (k.bind f)
  | .notify n k, f => .notify n (k.bind f)
  | .delayedRemove id k, f => .delayedRemove id (k.bind f)

instance : Monad (Prog S) where
  pure := .ret
  bind := .bind

@[simp] lemma pure_def (a : α) : (pure a : Prog S α) = .ret a := rfl

@[simp] lemma bind_def (p : Prog S α) (f : α → Prog S β) : p >>= f = p.bind f := rfl

@[simp] lemma ret_bind (a : α) (f : α → Prog S β) : (Prog.ret a).bind f = f a := rfl

/-- The members as they are now. -/
def current : Prog S (CommandInstance S) := .read .ret

/-- Assign members. -/
def modifyMembers (f : CommandInstance S → CommandInstance S) : Prog S Unit := .update f (.ret ())

/-- `FOR_EACH_OBSERVER`. -/
def forEachObserver (n : Notification) : Prog S Unit := .notify n (.ret ())

/-- `queue_->DelayedRemove(id)`. -/
def queueDelayedRemove (id : String) : Prog S Unit := .delayedRemove id (.ret ())

end Prog

/-- What a state-machine method hands back: its `bool` result, and the errors it adds to the
chain its caller passes as `ErrorPtr* error`. -/
abbrev Reply := Bool × ErrorPtr

namespace CommandInstance

open Prog (current modifyMembers forEachObserver queueDelayedRemove)

/-- `ReportDestroyedError`. -/
def reportDestroyedError : Reply :=
  (false, [⟨.commands, .commandDestroyed, "Command has been destroyed"⟩])

/-- `ReportInvalidStateTransition`. -/
def reportInvalidStateTransition (fromStatus toStatus : CommandStatus) : Reply :=
  (false, [⟨.commands, .invalidState, "State switch impossible: \x27" ++
    fromStatus.enumToString ++ "\x27 -> \x27" ++ toStatus.enumToString ++ "\x27"⟩])

/-- `CommandInstance::SetStatus`. -/
def setStatus (status : CommandStatus) : Prog S Reply := do
  let c ← current
  if status = c.status then
    return (true, [])
  else if status = .queued then
    return reportInvalidStateTransition c.status status
  else
    match c.status with
    | .done | .cancelled | .aborted | .expired =>
      return reportInvalidStateTransition c.status status
    | .queued | .inProgress | .paused | .error =>
      modifyMembers fun c => { c with status := status }
      forEachObserver .onStatusChanged
      return (true, [])

/-- `CommandInstance::RemoveFromQueue`. -/
def removeFromQueue : Prog S Unit := do
  let c ← current
  if c.queue then queueDelayedRemove c.id

/-- `CommandInstance::SetProgress`. -/
def setProgress (progress : DictionaryValue) : Prog S Reply := do
  let c ← current
  match c.commandDefinition with
  | none => return reportDestroyedError
  | some commandDefinition =>
    match S.typedValueFromJson commandDefinition.progress (.dictionary progress) with
    | .error error => return (false, error)
    | .ok obj =>
      -- Change status even if progress unchanged, e.g. 0% -> 0%.
      let result ← setStatus .inProgress
      if result.1 then
        let c ← current
        if obj ≠ c.progress then
          modifyMembers fun c => { c with progress := obj }
          forEachObserver .onProgressChanged
        return (true, [])
      else
        return result

/-- `CommandInstance::SetResults`. -/
def setResults (results : DictionaryValue) : Prog S Reply := do
  let c ← current
  match c.commandDefinition with
  | none => return reportDestroyedError
  | some commandDefinition =>
    match S.typedValueFromJson commandDefinition.results (.dictionary results) with
    | .error error => return (false, error)
    | .ok obj =>
      if obj ≠ c.results then
        modifyMembers fun c => { c with results := obj }
        forEachObserver .onResultsChanged
      -- Change status even if result is unchanged.
      let result ← setStatus .done
      removeFromQueue
      return result

/-- `CommandInstance::SetError`; `commandError` is the chain `command_error` points to. -/
def setError (commandError : ErrorPtr) : Prog S Reply := do
  modifyMembers fun c => { c with error := commandError }
  setStatus .error

/-- `CommandInstance::Pause`. -/
def pause : Prog S Reply :=
  setStatus .paused

/-- `CommandInstance::Abort`. -/
def abort (commandError : ErrorPtr) : Prog S Reply := do
  modifyMembers fun c => { c with error := commandError }
  let result ← setStatus .aborted
  removeFromQueue
  return result

/-- `CommandInstance::Cancel`. -/
def cancel : Prog S Reply := do
  let result ← setStatus .cancelled
  removeFromQueue
  return result

end CommandInstance

/-- A call of one of the methods that drive the state machine, with its argument. -/
inductive Call (S : SchemaUtils) where
  | setProgress (progress : DictionaryValue)
  | setResults (results : DictionaryValue)
  | setError (commandError : ErrorPtr)
  | pause
  | abort (commandError : ErrorPtr)
  | cancel

namespace Call

/-- The body the call runs. -/
def body : Call S → Prog S Reply
  | .setProgress progress => CommandInstance.setProgress progress
  | .setResults results => CommandInstance.setResults results
  | .setError commandError => CommandInstance.setError commandError
  | .pause => CommandInstance.pause
  | .abort commandError => CommandInstance.abort commandError
  | .cancel => CommandInstance.cancel

/-- The status the call asks `SetStatus` for. -/
def target : Call S → CommandStatus
  | .setProgress _ => .inProgress
  | .setResults _ => .done
  | .setError _ => .error
  | .pause => .paused
  | .abort _ => .aborted
  | .cancel => .cancelled

end Call

end Libweave
