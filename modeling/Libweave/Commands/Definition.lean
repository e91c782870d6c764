import Libweave.Base.Values

/-!
# Statuses, command definitions and the schema layer

The enumerations of `weave/command.h`, the status strings of `kMapStatus`, the keys of a command
document, and what `libweave/src/commands/command_instance.cc` uses of the schema layer and of the
command dictionary.  The schema layer (`prop_types.h`, `schema_utils.h`) and `CommandDictionary` are not
among the sources: they are a parameter of the model, `SchemaUtils`, and a lookup function.
-/

namespace Libweave

/-- `weave::CommandStatus`. -/
inductive CommandStatus where
  | queued
  | inProgress
  | paused
  | error
  | done
  | cancelled
  | aborted
  | expired
  deriving DecidableEq, Repr

/-- `weave::CommandOrigin`. -/
inductive CommandOrigin where
  | «local»
  | cloud
  deriving DecidableEq, Repr

namespace CommandStatus

/-- `EnumToString` over the table `kMapStatus`. -/
def enumToString : CommandStatus → String
  | .queued => "queued"
  | .inProgress => "inProgress"
  | .paused => "paused"
  | .error => "error"
  | .done => "done"
  | .cancelled => "cancelled"
  | .aborted => "aborted"
  | .expired => "expired"

/-- The terminal statuses: those the `switch` of `CommandInstance::SetStatus` refuses to leave. -/
def isTerminal : CommandStatus → Bool
  | .done | .cancelled | .aborted | .expired => true
  | .queued | .inProgress | .paused | .error => false

end CommandStatus

namespace attributes

/-- Modelled from the spec: `commands::attributes::kCommand_Id`, whose value lies in
`schema_constants.cc`, outside the sources; the spec's command document is
`{id, name, parameters, progress, results, state, error}`. -/
def kCommandId : String := "id"

/-- Modelled from the spec: `commands::attributes::kCommand_Name`. -/
def kCommandName : String := "name"

/-- Modelled from the spec: `commands::attributes::kCommand_Parameters`. -/
def kCommandParameters : String := "parameters"

/-- Modelled from the spec: `commands::attributes::kCommand_Progress`. -/
def kCommandProgress : String := "progress"

/-- Modelled from the spec: `commands::attributes::kCommand_Results`. -/
def kCommandResults : String := "results"

/-- Modelled from the spec: `commands::attributes::kCommand_State`. -/
def kCommandState : String := "state"

/-- Modelled from the spec: `commands::attributes::kCommand_Error`. -/
def kCommandError : String := "error"

end attributes

/-- What the command instance uses of the schema layer: the object schemas of a command
definition, the typed values (`ValueMap`) they build, and the two conversions
`TypedValueFromJson` (under an `ObjectPropType` holding a schema) and `TypedValueToJson`.
`ValueMap`s are compared structurally, as the spec's `TypedValue` equality is. -/
structure SchemaUtils where
  ObjectSchema : Type
  ValueMap : Type
  [decEqValueMap : DecidableEq ValueMap]
  /-- The empty `ValueMap`, the value of a default-constructed member. -/
  empty : ValueMap
  /-- `TypedValueFromJson`: the value a document converts to under a schema, or the errors it
  reports. -/
  typedValueFromJson : ObjectSchema → Value → Except ErrorPtr ValueMap
  /-- `TypedValueToJson`. -/
  typedValueToJson : ValueMap → DictionaryValue

instance (S : SchemaUtils) : DecidableEq S.ValueMap := S.decEqValueMap

/-- A `CommandDefinition`, by the three object schemas `command_instance.cc` asks it for. -/
structure CommandDefinition (S : SchemaUtils) where
  parameters : S.ObjectSchema
  progress : S.ObjectSchema
  results : S.ObjectSchema

/-- A `CommandDictionary`, by its lookup `FindCommand`. -/
structure CommandDictionary (S : SchemaUtils) where
  findCommand : String → Option (CommandDefinition S)

namespace SchemaUtils

/-- A schema layer for flat objects whose properties are all strings: it has a single object
schema, and a document converts when it is a dictionary of strings. -/
def stringObjects : SchemaUtils where
  ObjectSchema := Unit
  ValueMap := List (String × String)
  empty := []
  typedValueFromJson _ value :=
    match value with
    | .dictionary entries =>
      entries.mapM fun entry =>
        match entry.2 with
        | .string text => .ok (entry.1, text)
        | _ => .error [⟨.commands, .other "type_mismatch", "Unable to convert value to string"⟩]
    | _ => .error [⟨.json, .objectExpected, "Object expected"⟩]
  typedValueToJson properties := properties.map fun property => (property.1, .string property.2)

lemma stringObjects_fromJson_toJson (schema : Unit) (properties : List (String × String)) :
    stringObjects.typedValueFromJson schema
      (.dictionary (stringObjects.typedValueToJson properties)) = .ok properties := by
  induction properties with
  | nil => rfl
  | cons property properties ih =>
    simp only [stringObjects, List.map_cons, List.mapM_cons] at ih ⊢
    rw [ih]
    rfl

end SchemaUtils

open SchemaUtils in
/-- `lock.setConfig`, the command the example lock daemon (`examples/daemon/lock/lock.cc`)
registers, over string objects. -/
def lockSetConfig : CommandDefinition stringObjects := ⟨(), (), ()⟩

open SchemaUtils in
/-- The dictionary of the example lock daemon. -/
def lockDictionary : CommandDictionary stringObjects :=
  ⟨fun name => if name = "lock.setConfig" then some lockSetConfig else none⟩

end Libweave
