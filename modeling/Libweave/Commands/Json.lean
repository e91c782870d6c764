import Libweave.Commands.Instance

/-!
# Command documents

`CommandInstance::FromJson`, with its helper `GetCommandParameters`, builds an instance from a
command document received from the cloud or a local peer; `CommandInstance::ToJson` writes the
externally visible record of an instance.  `ErrorInfoToJson` (`src/utils.h`) is not among the
sources and is a parameter of `toJson`.  The lemmas of the section `Record` read each member of
the record back; the record has an `error` member exactly when an error is recorded.
-/

namespace Libweave

variable {S : SchemaUtils}

open attributes

/-- The helper `GetCommandParameters`: the `parameters` property of a command document, an empty
object when it is absent, validated against the definition's parameter schema. -/
def getCommandParameters (json : DictionaryValue) (commandDef : CommandDefinition S) :
    Except ErrorPtr S.ValueMap := do
  let params ← match json.get kCommandParameters with
    | some (.dictionary params) => pure params
    | some _ => throw [⟨.json, .objectExpected,
        "Property \x27" ++ kCommandParameters ++ "\x27 must be a JSON object"⟩]
    | none => pure DictionaryValue.empty
  S.typedValueFromJson commandDef.parameters (.dictionary params)

/-- What `CommandInstance::FromJson` hands back: the instance, or `none` for the null pointer;
the value left in `*command_id`; and the errors added to `*error`. -/
structure FromJsonResult (S : SchemaUtils) where
  command : Option (CommandInstance S)
  commandId : String
  error : ErrorPtr

namespace CommandInstance

/-- `CommandInstance::FromJson`. -/
def fromJson (value : Value) (origin : CommandOrigin) (dictionary : CommandDictionary S) :
    FromJsonResult S :=
  match value with
  | .dictionary (json : DictionaryValue) =>
    let commandId := (json.getString kCommandId).getD ""
    match json.getString kCommandName with
    | none => ⟨none, commandId, [⟨.commands, .propertyMissing, "Command name is missing"⟩]⟩
    | some commandName =>
      match dictionary.findCommand commandName with
      | none => ⟨none, commandId,
          [⟨.commands, .invalidCommandName, "Unknown command received: " ++ commandName⟩]⟩
      | some commandDef =>
        match getCommandParameters json commandDef with
        | .error error => ⟨none, commandId, ⟨.commands, .commandFailed,
            "Failed to validate command \x27" ++ commandName ++ "\x27"⟩ :: error⟩
        | .ok parameters =>
          let command := CommandInstance.new commandName origin commandDef parameters
          ⟨some (if commandId.isEmpty then command else command.setID commandId), commandId, []⟩
  | _ => ⟨none, "", [⟨.json, .objectExpected, "Command instance is not a JSON object"⟩]⟩

/-- `CommandInstance::ToJson`, given `ErrorInfoToJson`. -/
def toJson (errorInfoToJson : ErrorPtr → DictionaryValue) (c : CommandInstance S) :
    DictionaryValue :=
  let json := DictionaryValue.empty
    |>.setString kCommandId c.id
    |>.setString kCommandName c.name
    |>.set kCommandParameters (.dictionary (S.typedValueToJson c.parameters))
    |>.set kCommandProgress (.dictionary (S.typedValueToJson c.progress))
    |>.set kCommandResults (.dictionary (S.typedValueToJson c.results))
    |>.setString kCommandState c.status.enumToString
  if c.error.isEmpty then json else json.set kCommandError (.dictionary (errorInfoToJson c.error))

/-- The record depends only on the ID, the name, the parameters, the progress, the results, the
status and the error. -/
lemma toJson_congr {errorInfoToJson : ErrorPtr → DictionaryValue} {c c' : CommandInstance S}
    (hid : c'.id = c.id) (hname : c'.name = c.name) (hparameters : c'.parameters = c.parameters)
    (hprogress : c'.progress = c.progress) (hresults : c'.results = c.results)
    (hstatus : c'.status = c.status) (herror : c'.error = c.error) :
    c'.toJson errorInfoToJson = c.toJson errorInfoToJson := by
  simp only [toJson, hid, hname, hparameters, hprogress, hresults, hstatus, herror]

section Record

open DictionaryValue

variable (errorInfoToJson : ErrorPtr → DictionaryValue) (c : CommandInstance S)

@[simp] lemma toJson_get_id : (c.toJson errorInfoToJson).get kCommandId = some (.string c.id) := by
  unfold toJson
  split <;> simp [setString, kCommandId, kCommandName, kCommandParameters, kCommandProgress,
    kCommandResults, kCommandState, kCommandError]

@[simp] lemma toJson_get_name :
    (c.toJson errorInfoToJson).get kCommandName = some (.string c.name) := by
  unfold toJson
  split <;> simp [setString, kCommandName, kCommandParameters, kCommandProgress,
    kCommandResults, kCommandState, kCommandError]

@[simp] lemma toJson_get_parameters : (c.toJson errorInfoToJson).get kCommandParameters =
    some (.dictionary (S.typedValueToJson c.parameters)) := by
  unfold toJson
  split <;> simp [setString, kCommandParameters, kCommandProgress, kCommandResults,
    kCommandState, kCommandError]

@[simp] lemma toJson_get_state :
    (c.toJson errorInfoToJson).get kCommandState = some (.string c.status.enumToString) := by
  unfold toJson
  split <;> simp [setString, kCommandState, kCommandError]

/-- The record has an `error` member exactly when an error is recorded. -/
lemma toJson_get_error : (c.toJson errorInfoToJson).get kCommandError =
    if c.error.isEmpty then none else some (.dictionary (errorInfoToJson c.error)) := by
  unfold toJson
  split <;> simp_all [setString, kCommandId, kCommandName, kCommandParameters, kCommandProgress,
    kCommandResults, kCommandState, kCommandError]

/-- Recording an error where none was recorded changes the record, whatever `ErrorInfoToJson`
writes. -/
lemma toJson_ne_of_error_isEmpty {c c' : CommandInstance S} (h : c.error.isEmpty = true)
    (h' : c'.error.isEmpty = false) : c'.toJson errorInfoToJson ≠ c.toJson errorInfoToJson :=
  fun he => by simpa [toJson_get_error, h, h'] using congrArg (·.get kCommandError) he

end Record

end CommandInstance

end Libweave
