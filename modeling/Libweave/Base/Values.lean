import Mathlib.Data.List.Basic

/-!
# Values and error chains

`libweave/src/commands/command_instance.cc` reads and writes untyped documents as `base::Value`
trees and reports failures through chains of `weave::Error`.  Neither library is among the
modelled sources.
This file keeps what the command instance uses of them: the kind of a value, the lookup and the
insertion of a dictionary entry under a key, and the domain, code and message of each link of an
error chain.  Every key the command instance uses is free of dots, so the path expansion of
`base::DictionaryValue::Get` and `Set` never splits one, and both are lookups and insertions
under the key itself.
-/

namespace Libweave

/-- A `base::Value`.  A double is kept as its bit pattern and a binary value as its bytes:
no code modelled here reads either. -/
inductive Value where
  | null
  | boolean (value : Bool)
  | integer (value : Int)
  | double (bits : UInt64)
  | string (value : String)
  | binary (bytes : List UInt8)
  | dictionary (entries : List (String × Value))
  | list (items : List Value)
  deriving Inhabited, Repr

/-- A `base::DictionaryValue`, by its entries, the one set last first. -/
def DictionaryValue := List (String × Value)

namespace DictionaryValue

/-- The empty dictionary. -/
def empty : DictionaryValue := []

/-- `GetWithoutPathExpansion`: the value stored under `key`. -/
def get (json : DictionaryValue) (key : String) : Option Value :=
  List.lookup key json

/-- `GetString`: the value stored under `key`, when it is a string. -/
def getString (json : DictionaryValue) (key : String) : Option String :=
  match json.get key with
  | some (.string value) => some value
  | _ => none

/-- `SetWithoutPathExpansion`: store `value` under `key`, in place of what was there. -/
def set (json : DictionaryValue) (key : String) (value : Value) : DictionaryValue :=
  (key, value) :: List.filter (fun entry => entry.1 != key) json

/-- `SetString`. -/
def setString (json : DictionaryValue) (key value : String) : DictionaryValue :=
  json.set key (.string value)

@[simp] lemma get_empty (key : String) : empty.get key = none := rfl

@[simp] lemma get_set_self (json : DictionaryValue) (key : String) (value : Value) :
    (json.set key value).get key = some value := by
  simp [get, set]

lemma lookup_filter_of_ne {key key' : String} (h : key' ≠ key) (json : List (String × Value)) :
    List.lookup key' (List.filter (fun entry => entry.1 != key) json) = List.lookup key' json := by
  induction json with
  | nil => rfl
  | cons entry json ih =>
    obtain ⟨k, v⟩ := entry
    by_cases hk : k = key
    · subst hk
      have : (key' == k) = false := by simpa using h
      simp [List.filter, List.lookup_cons, ih, this]
    · have : (k != key) = true := by simpa using hk
      simp only [List.filter, this, List.lookup_cons, ih]

@[simp] lemma get_set_of_ne {key key' : String} (h : key' ≠ key) (json : DictionaryValue)
    (value : Value) : (json.set key value).get key' = json.get key' := by
  have : (key' == key) = false := by simpa using h
  simp only [get, set, List.lookup_cons, this]
  exact lookup_filter_of_ne h json

lemma getString_eq_some {json : DictionaryValue} {key value : String} :
    json.getString key = some value ↔ json.get key = some (.string value) := by
  unfold getString
  split <;> simp_all

end DictionaryValue

/-- The domain of a `weave::Error`: the two `command_instance.cc` reports under, by the names of
their constants, and the others by their text. -/
inductive ErrorDomain where
  /-- `errors::commands::kDomain`. -/
  | commands
  /-- `errors::json::kDomain`. -/
  | json
  | other (domain : String)
  deriving DecidableEq, Repr

/-- The code of a `weave::Error`: those `command_instance.cc` reports, by the names of their
constants, and the others by their text. -/
inductive ErrorCode where
  | commandDestroyed
  | invalidState
  | propertyMissing
  | invalidCommandName
  | commandFailed
  | objectExpected
  | other (code : String)
  deriving DecidableEq, Repr

/-- One link of a `weave::Error` chain. -/
structure Error where
  domain : ErrorDomain
  code : ErrorCode
  message : String
  deriving DecidableEq, Repr

/-- A `weave::ErrorPtr`: a chain of errors, the one added last first; the null pointer is the
empty chain.  A `const Error*` argument and its `Clone()` are the same chain. -/
abbrev ErrorPtr := List Error

end Libweave
