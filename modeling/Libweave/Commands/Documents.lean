import Mathlib.Data.String.Basic
import Libweave.Commands.Json
import Libweave.Commands.Lifecycle

/-!
# What `FromJson` accepts, and the round trip through `ToJson`

`getCommandParameters_eq_ok` and the `fromJson_*` lemmas say what `CommandInstance::FromJson`
does on every input: the ID it hands back on every path, when it builds an instance and which one,
and that it reports an error exactly when it builds none.  `fromJson_contract` gathers them,
giving the instance built member by member (`eq_setID_new_iff`).

`fromJson_toJson_roundTrip` reads back the record `ToJson` writes: for an instance `FromJson`
built, after any run of calls, `FromJson` accepts the record under the same dictionary and builds
a fresh instance with the same ID, name and parameters.  The members the record adds (progress,
results, state, error) are not read.  It assumes the round-trip law of the schema layer: a value
converted from a document under the parameter schema of the definition found converts back from
`TypedValueToJson` of it.
-/

namespace Libweave

variable {S : SchemaUtils}

open attributes

/-- `GetCommandParameters` succeeds when the `parameters` member is an object, or absent and taken
as the empty object, and that object converts under the parameter schema. -/
lemma getCommandParameters_eq_ok {json : DictionaryValue} {commandDefinition : CommandDefinition S}
    {parameters : S.ValueMap} :
    getCommandParameters json commandDefinition = .ok parameters ↔
      ∃ params, (json.get kCommandParameters = some (.dictionary params) ∨
          json.get kCommandParameters = none ∧ params = DictionaryValue.empty) ∧
        S.typedValueFromJson commandDefinition.parameters (.dictionary params) = .ok parameters := by
  unfold getCommandParameters
  cases h : json.get kCommandParameters with
  | none => simp [bind, Except.bind, pure, Except.pure]
  | some value =>
    cases value <;> simp [bind, Except.bind, pure, Except.pure, throw, throwThe, MonadExceptOf.throw]

namespace CommandInstance

/-- Setting the ID only when it is not empty, as `FromJson` does, is setting it: the constructor
leaves the ID empty. -/
lemma setID_new_eq (name : String) (origin : CommandOrigin)
    (commandDefinition : CommandDefinition S) (parameters : S.ValueMap) (commandId : String) :
    (if commandId.isEmpty then new name origin commandDefinition parameters
      else (new name origin commandDefinition parameters).setID commandId) =
      (new name origin commandDefinition parameters).setID commandId := by
  split
  · rename_i h
    rw [(String.isEmpty_iff _).1 h]
    rfl
  · rfl

/-- The instance the constructor builds, given an ID, member by member. -/
lemma eq_setID_new_iff {c : CommandInstance S} {name : String} {origin : CommandOrigin}
    {commandDefinition : CommandDefinition S} {parameters : S.ValueMap} {commandId : String} :
    c = (new name origin commandDefinition parameters).setID commandId ↔
      c.name = name ∧ c.origin = origin ∧ c.id = commandId ∧ c.status = .queued ∧
        c.progress = S.empty ∧ c.results = S.empty ∧ c.error = [] ∧ c.parameters = parameters ∧
        c.commandDefinition = some commandDefinition ∧ c.queue = false := by
  constructor
  · rintro rfl
    exact ⟨rfl, rfl, rfl, rfl, rfl, rfl, rfl, rfl, rfl, rfl⟩
  · obtain ⟨⟩ := c
    rintro ⟨rfl, rfl, rfl, rfl, rfl, rfl, rfl, rfl, rfl, rfl⟩
    rfl

variable (value : Value) (origin : CommandOrigin) (dictionary : CommandDictionary S)

/-- On every path, `*command_id` is the `id` member of the document when it is a string, and empty
otherwise. -/
lemma fromJson_commandId : (fromJson value origin dictionary).commandId =
    match value with
    | .dictionary json => (DictionaryValue.getString json kCommandId).getD ""
    | _ => "" := by
  cases value with
  | dictionary json =>
    simp only [fromJson]
    (repeat' split) <;> rfl
  | _ => rfl

/-- `FromJson` reports an error exactly when it builds no instance. -/
lemma fromJson_command_eq_none_iff : (fromJson value origin dictionary).command = none ↔
    (fromJson value origin dictionary).error ≠ [] := by
  cases value with
  | dictionary json =>
    simp only [fromJson]
    (repeat' split) <;> simp
  | _ => simp [fromJson]

/-- `FromJson` builds an instance exactly when the document is an object whose `name` is a command
of the dictionary and whose parameters convert; the instance is the one the constructor builds from
them, with the document's ID. -/
lemma fromJson_command_eq_some {c : CommandInstance S} :
    (fromJson value origin dictionary).command = some c ↔
      ∃ (json : DictionaryValue) (name : String) (commandDefinition : CommandDefinition S)
        (parameters : S.ValueMap), value = .dictionary json ∧
        json.getString kCommandName = some name ∧
        dictionary.findCommand name = some commandDefinition ∧
        getCommandParameters json commandDefinition = .ok parameters ∧
        c = (new name origin commandDefinition parameters).setID
          ((json.getString kCommandId).getD "") := by
  constructor
  · intro h
    cases value with
    | dictionary json =>
      simp only [fromJson] at h
      split at h
      · cases h
      · rename_i name h₁
        split at h
        · cases h
        · rename_i commandDefinition h₂
          split at h
          · cases h
          · rename_i parameters h₃
            exact ⟨json, name, commandDefinition, parameters, rfl, h₁, h₂, h₃,
              by rw [← Option.some.inj h, setID_new_eq]⟩
    | _ => cases h
  · rintro ⟨json, name, commandDefinition, parameters, rfl, h₁, h₂, h₃, rfl⟩
    simp only [fromJson, h₁, h₂, h₃, setID_new_eq]

end CommandInstance

open CommandInstance

/-- The contract of `FromJson`, for every value, origin and dictionary: `*command_id` is the `id`
member of an object when it is a string, and empty otherwise, on every path; an instance is built
exactly when the value is an object whose `name` string the dictionary resolves and whose
`parameters` member, an object or absent and taken as empty, converts under the parameter schema;
the instance has that name, the origin, the ID handed back, status `queued`, empty progress and
results, no error and the converted parameters (and the definition found, no queue); otherwise
none is built, and an error is reported exactly then. -/
theorem fromJson_contract (value : Value) (origin : CommandOrigin)
    (dictionary : CommandDictionary S) :
    (fromJson value origin dictionary).commandId =
        (match value with
          | .dictionary json => (DictionaryValue.getString json kCommandId).getD ""
          | _ => "") ∧
      (∀ c, (fromJson value origin dictionary).command = some c ↔
        ∃ (json : DictionaryValue) (name : String) (commandDefinition : CommandDefinition S)
          (params : DictionaryValue) (parameters : S.ValueMap),
          value = .dictionary json ∧ json.getString kCommandName = some name ∧
          dictionary.findCommand name = some commandDefinition ∧
          (json.get kCommandParameters = some (.dictionary params) ∨
            json.get kCommandParameters = none ∧ params = DictionaryValue.empty) ∧
          S.typedValueFromJson commandDefinition.parameters (.dictionary params) = .ok parameters ∧
          c.name = name ∧ c.origin = origin ∧ c.id = (fromJson value origin dictionary).commandId ∧
          c.status = .queued ∧ c.progress = S.empty ∧ c.results = S.empty ∧ c.error = [] ∧
          c.parameters = parameters ∧ c.commandDefinition = some commandDefinition ∧
          c.queue = false) ∧
      ((fromJson value origin dictionary).command = none ↔
        (fromJson value origin dictionary).error ≠ []) := by
  refine ⟨fromJson_commandId value origin dictionary, fun c => ?_,
    fromJson_command_eq_none_iff value origin dictionary⟩
  rw [fromJson_command_eq_some]
  constructor
  · rintro ⟨json, name, commandDefinition, parameters, rfl, h₁, h₂, h₃, rfl⟩
    obtain ⟨params, hp, hv⟩ := getCommandParameters_eq_ok.1 h₃
    exact ⟨json, name, commandDefinition, params, parameters, rfl, h₁, h₂, hp, hv,
      eq_setID_new_iff.1 (by rw [fromJson_commandId])⟩
  · rintro ⟨json, name, commandDefinition, params, parameters, rfl, h₁, h₂, hp, hv, hc⟩
    exact ⟨json, name, commandDefinition, parameters, rfl, h₁, h₂,
      getCommandParameters_eq_ok.2 ⟨params, hp, hv⟩,
      eq_setID_new_iff.2 (by rwa [fromJson_commandId] at hc)⟩

/-- The round trip: for an instance `FromJson` built, after any run of calls, `FromJson` accepts
the record `ToJson` writes, under the same dictionary and with any origin, and builds an instance
with the same ID, name and parameters, in status `queued` with empty progress and results — given
the round-trip law of the schema layer under the parameter schema of the definition found. -/
theorem fromJson_toJson_roundTrip
    {value : Value} {origin : CommandOrigin} {dictionary : CommandDictionary S}
    {c c' : CommandInstance S} {d : Nat} {t : List (Entry S)}
    (hc : (fromJson value origin dictionary).command = some c)
    (hS : ∀ commandDefinition, c.commandDefinition = some commandDefinition →
      ∀ json parameters, S.typedValueFromJson commandDefinition.parameters json = .ok parameters →
        S.typedValueFromJson commandDefinition.parameters
          (.dictionary (S.typedValueToJson parameters)) = .ok parameters)
    (hrun : Run d c c' t) (origin' : CommandOrigin) (errorInfoToJson : ErrorPtr → DictionaryValue) :
    ∃ c'', (fromJson (.dictionary (c'.toJson errorInfoToJson)) origin' dictionary).command = some c'' ∧
      c''.id = c.id ∧ c''.name = c.name ∧ c''.parameters = c.parameters ∧
      c''.status = .queued ∧ c''.progress = S.empty ∧ c''.results = S.empty := by
  obtain ⟨json, name, commandDefinition, parameters, rfl, -, h₂, h₃, rfl⟩ :=
    (fromJson_command_eq_some _ _ _).1 hc
  obtain ⟨params, -, hv⟩ := getCommandParameters_eq_ok.1 h₃
  have hf := hrun.steps.frame_advance.1
  refine ⟨(new name origin' commandDefinition parameters).setID c'.id,
    (fromJson_command_eq_some _ _ _).2 ⟨_, name, commandDefinition, parameters, rfl,
      DictionaryValue.getString_eq_some.2 (by rw [toJson_get_name, hf.name]; rfl), h₂,
      getCommandParameters_eq_ok.2 ⟨_, .inl (toJson_get_parameters _ _), ?parameters⟩, ?id⟩,
    hf.id, rfl, rfl, rfl, rfl, rfl⟩
  case parameters =>
    rw [hf.parameters]
    exact hS _ rfl _ _ hv
  case id =>
    rw [DictionaryValue.getString_eq_some.2 (toJson_get_id _ _)]
    rfl

/-- The round trip for a `lock.setConfig` command with ID `1` received from the cloud, completed
by `SetResults`, then read back as a local command. -/
theorem fromJson_toJson_roundTrip_lock :
    let value : Value := .dictionary [("id", .string "1"), ("name", .string "lock.setConfig"),
      ("parameters", .dictionary [("lockedState", .string "locked")])]
    let c := CommandInstance.lockCommand.setID "1"
    let o := (Call.setResults [("lockedState", .string "locked")]).run c
    (fromJson value .cloud lockDictionary).command = some c ∧
      (∀ commandDefinition, c.commandDefinition = some commandDefinition →
        ∀ json parameters,
          SchemaUtils.stringObjects.typedValueFromJson commandDefinition.parameters json =
            .ok parameters →
          SchemaUtils.stringObjects.typedValueFromJson commandDefinition.parameters
            (.dictionary (SchemaUtils.stringObjects.typedValueToJson parameters)) = .ok parameters) ∧
      Run 1 c o.state o.trace ∧
      ∃ c'', (fromJson (.dictionary (o.state.toJson fun _ => DictionaryValue.empty)) .local
          lockDictionary).command = some c'' ∧
        c''.id = c.id ∧ c''.name = c.name ∧ c''.parameters = c.parameters ∧
        c''.status = .queued ∧ c''.progress = SchemaUtils.stringObjects.empty ∧
        c''.results = SchemaUtils.stringObjects.empty :=
  have hc : (fromJson (.dictionary [("id", .string "1"), ("name", .string "lock.setConfig"),
      ("parameters", .dictionary [("lockedState", .string "locked")])]) .cloud
      lockDictionary).command = some (CommandInstance.lockCommand.setID "1") := rfl
  have hS : ∀ commandDefinition : CommandDefinition SchemaUtils.stringObjects,
      (CommandInstance.lockCommand.setID "1").commandDefinition = some commandDefinition →
      ∀ json parameters,
        SchemaUtils.stringObjects.typedValueFromJson commandDefinition.parameters json =
          .ok parameters →
        SchemaUtils.stringObjects.typedValueFromJson commandDefinition.parameters
          (.dictionary (SchemaUtils.stringObjects.typedValueToJson parameters)) = .ok parameters :=
    fun commandDefinition _ _ parameters _ =>
      SchemaUtils.stringObjects_fromJson_toJson commandDefinition.parameters parameters
  have hrun := Run.of_exec (Call.exec_run (.setResults [("lockedState", .string "locked")])
    (CommandInstance.lockCommand.setID "1"))
  ⟨hc, hS, hrun, fromJson_toJson_roundTrip hc hS hrun .local _⟩

end Libweave
