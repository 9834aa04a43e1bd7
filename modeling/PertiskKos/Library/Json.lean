import PertiskKos.Library.Strings

/-!
# JSON values

Values as `serde_json` holds them, and how a field is looked up in them.
-/

namespace PertiskKos.Json

open Strings

inductive Value where
  | null
  | bool (value : Bool)
  /-- A number, as it is written. -/
  | number (text : Text)
  | string (text : Text)
  | array (items : List Value)
  | object (fields : List (Text × Value))

namespace Value

def asStr : Value → Option Text
  | .string text => some text
  | _ => none

def asArray : Value → Option (List Value)
  | .array items => some items
  | _ => none

def get (key : Text) : Value → Option Value
  | .object fields => (fields.find? fun field => field.1 = key).map Prod.snd
  | _ => none

/-- The value below the keys. -/
def pointer : List Text → Value → Option Value
  | [], value => some value
  | key :: keys, value => (value.get key).bind (pointer keys)

theorem asStr_eq_some {value : Value} {text : Text} :
    value.asStr = some text ↔ value = .string text := by
  cases value with
  | string other => simp [asStr]
  | _ => simp [asStr]

theorem asArray_eq_some {value : Value} {items : List Value} :
    value.asArray = some items ↔ value = .array items := by
  cases value with
  | array other => simp [asArray]
  | _ => simp [asArray]

theorem bind_asStr {found : Option Value} {text : Text} :
    found.bind asStr = some text ↔ found = some (.string text) := by
  simp only [Option.bind_eq_some_iff, asStr_eq_some, exists_eq_right]

theorem bind_asArray {found : Option Value} {items : List Value} :
    found.bind asArray = some items ↔ found = some (.array items) := by
  simp only [Option.bind_eq_some_iff, asArray_eq_some, exists_eq_right]

theorem pointer_pair (first second : Text) (value : Value) :
    value.pointer [first, second] = ((value.get first).getD .null).get second := by
  simp only [pointer]
  cases value.get first with
  | none => rfl
  | some inner =>
      cases hsecond : inner.get second with
      | none => simp [hsecond]
      | some found => simp [hsecond]

end Value

end PertiskKos.Json
