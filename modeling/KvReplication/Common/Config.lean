import KvReplication.Common.Server

/-! # Values read from a config file

A cluster config is parsed YAML before it is checked. The conversions `int(...)`
and `float(...)` are followed through the shapes a YAML value can have; how
Python reads a number out of a text, rounds an integer to a float and renders a
value as text is left to a `PythonText`.
-/

namespace KvReplication

/-- A value `yaml.safe_load` returns. Mapping entries whose key is not a string
are never looked up and are left out. -/
inductive Yaml where
  | null
  | bool (value : Bool)
  | int (value : Int)
  | float (value : PyFloat)
  | str (value : String)
  | seq (items : List Yaml)
  | map (entries : List (String × Yaml))

/-- Python's own conversions between texts and values. -/
structure PythonText where
  /-- `str(value)`, as an f-string interpolates it. -/
  strOf : Yaml → String
  /-- `int(text)`; nothing when it raises `ValueError`. -/
  intOf : String → Option Int
  /-- `float(text)`; nothing when it raises `ValueError`. -/
  floatOf : String → Option PyFloat
  /-- `float(number)`, rounded; nothing when it raises `OverflowError`. -/
  floatOfInt : Int → Option PyFloat

namespace Yaml

/-- `entries.get(name, default)`. -/
def getD (entries : List (String × Yaml)) (name : String) (default : Yaml) : Yaml :=
  (entries.lookup name).getD default

/-- `value[name]` for a string `name`. -/
def item (name : String) : Yaml → Except PyError Yaml
  | map entries =>
      match entries.lookup name with
      | some value => .ok value
      | none => .error .keyError
  | _ => .error .typeError

/-- The items a `for` clause runs over. -/
def iterate : Yaml → Except PyError (List Yaml)
  | seq items => .ok items
  | map entries => .ok (entries.map fun entry => str entry.1)
  | str text => .ok (text.toList.map fun char => str (String.singleton char))
  | _ => .error .typeError

/-- `int(value)`: numbers are truncated toward zero. -/
def toInt (text : PythonText) : Yaml → Except PyError Int
  | bool value => .ok (if value then 1 else 0)
  | int value => .ok value
  | float (.finite value) => .ok (if 0 ≤ value then value.floor else value.ceil)
  | float .nan => .error .valueError
  | float _ => .error .overflowError
  | str value =>
      match text.intOf value with
      | some number => .ok number
      | none => .error .valueError
  | _ => .error .typeError

/-- `float(value)`. -/
def toFloat (text : PythonText) : Yaml → Except PyError PyFloat
  | bool value => .ok (.finite (if value then 1 else 0))
  | int value =>
      match text.floatOfInt value with
      | some number => .ok number
      | none => .error .overflowError
  | float value => .ok value
  | str value =>
      match text.floatOf value with
      | some number => .ok number
      | none => .error .valueError
  | _ => .error .typeError

end Yaml

/-- Why a config is refused: a failed check with what its message interpolates,
or an exception of Python's own. -/
inductive ConfigError where
  /-- `{name} must be positive, got {value}` -/
  | notPositive (name : String) (value : PyFloat)
  /-- `{name} ({value}) must be between {lo} and the number of {label} ({hi})` -/
  | notInRange (name : String) (value lo hi : Int) (label : String)
  /-- `{name} must be a non-empty string` -/
  | emptyString (name : String)
  /-- `num_partitions must be >= 1, got {value}` -/
  | numPartitions (value : Int)
  | python (error : PyError)

/-- An exception of Python's own leaves the config loader as it is. -/
def liftPython {α : Type} : Except PyError α → Except ConfigError α
  | .ok value => .ok value
  | .error error => .error (.python error)

/-- `value <= 0`, false on NaN. -/
def PyFloat.nonPositive : PyFloat → Bool
  | .finite value => decide (value ≤ 0)
  | .negInf => true
  | _ => false

def requirePositive (value : PyFloat) (name : String) : Except ConfigError Unit :=
  if value.nonPositive then .error (.notPositive name value) else .ok ()

def requireInRange (value : Int) (name : String) (lo hi : Int) (label : String) :
    Except ConfigError Unit :=
  if lo ≤ value ∧ value ≤ hi then .ok () else .error (.notInRange name value lo hi label)

theorem requireInRange_eq_ok_iff {value lo hi : Int} {name label : String} :
    requireInRange value name lo hi label = .ok () ↔ lo ≤ value ∧ value ≤ hi := by
  unfold requireInRange
  split
  · next hrange => simp [hrange]
  · next hrange => simp [hrange]

/-- Reading one step of a computation that ended well. -/
theorem bind_eq_ok {ε α β : Type} {first : Except ε α} {rest : α → Except ε β} {result : β} :
    first >>= rest = .ok result ↔ ∃ value, first = .ok value ∧ rest value = .ok result := by
  cases first with
  | error error => simp [bind, Except.bind]
  | ok value => simp [bind, Except.bind]

end KvReplication
