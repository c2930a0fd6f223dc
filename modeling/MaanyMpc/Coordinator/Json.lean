import Mathlib.Algebra.Group.Int.Defs
import Mathlib.Data.Rat.Defs

/-! # JSON values and JavaScript numbers

What `JSON.parse` can return, and the operations of the language that the coordinator
applies to it without looking at its type first. -/

namespace MaanyMpc

/-- The two zeros are one number, as they are for `===` and for `Map` keys. -/
inductive JsNumber where
  | finite (value : ℚ)
  | infinity (negative : Bool)
  | nan
  deriving DecidableEq

/-- The value of a column of type `Int`, when the number is one. -/
def JsNumber.toInt32? : JsNumber → Option ℤ
  | .finite value =>
    if value.den = 1 ∧ -2 ^ 31 ≤ value.num ∧ value.num < 2 ^ 31 then some value.num else none
  | _ => none

theorem JsNumber.eq_of_toInt32? {n : JsNumber} {i : ℤ} (h : n.toInt32? = some i) :
    JsNumber.finite i = n := by
  cases n with
  | finite value =>
      simp only [toInt32?, Option.ite_none_right_eq_some, Option.some.injEq] at h
      obtain ⟨⟨whole, _⟩, rfl⟩ := h
      rw [Rat.coe_int_num_of_den_eq_one whole]
  | infinity negative => cases h
  | nan => cases h

inductive Json where
  | null
  | bool (value : Bool)
  | number (value : JsNumber)
  | string (value : String)
  | array (items : List Json)
  | object (fields : List (String × Json))

namespace Json

/-- The property of this name, `none` for `undefined`. On `null` the access throws instead. -/
def get? : Json → String → Option Json
  | .object fields, name => fields.lookup name
  | _, _ => none

def truthy : Json → Bool
  | .null => false
  | .bool value => value
  | .number value => decide (value ≠ .finite 0 ∧ value ≠ .nan)
  | .string value => value != ""
  | .array _ | .object _ => true

def isNull : Json → Bool
  | .null => true
  | _ => false

/-- The text of a string. -/
def asString? : Json → Option String
  | .string value => some value
  | _ => none

theorem eq_of_asString? {v : Json} {text : String} (h : v.asString? = some text) :
    v = .string text := by
  cases v with
  | string value => simpa [asString?] using h
  | _ => simp [asString?] at h

end Json

/-- `!!value` for a property, which may be missing. -/
def truthy? (value : Option Json) : Bool := value.any Json.truthy

/-- `value === text`. -/
def isText (value : Option Json) (text : String) : Bool :=
  value.any fun v => v.asString? == some text

/-- `a ?? b`. -/
def coalesce : Option Json → Option Json → Option Json
  | none, b | some .null, b => b
  | a, _ => a

end MaanyMpc
