import JunoMiner.Hex
import Mathlib.Algebra.Order.Floor
import Mathlib.Data.Rat.Floor

/-!
# The node's reply as a JsonCpp value

`parse_block_template` reads the `getblocktemplate` result through JsonCpp: `isMember`, the
`const` `operator[]`, and the conversions `asUInt`, `asUInt64` and `asString`; `main` reads the
`getblockchaininfo` result through the non-`const` `operator[]`. Each of them raises
`Json::LogicError` on a value of the wrong type, so they are modelled with their exceptions.
-/

namespace JunoMiner

/-- A `Json::Value`. A number with a fraction or an exponent is a double, kept with the text
JsonCpp's `valueToString` prints for it; object members are looked up by name, first match. -/
inductive Json where
  | null
  | bool (value : Bool)
  | int (value : Int)
  | uint (value : Nat)
  | real (value : ℚ) (text : Bytes)
  | string (value : Bytes)
  | array (items : List Json)
  | object (members : List (String × Json))

namespace Json

/-- The decimal digits JsonCpp prints for an integer. -/
def decimal (value : Int) : Bytes := ascii (toString value)

/-- `Value::find`: the member named `key`, on an object or on null only. -/
def find : Json → String → Except CppException (Option Json)
  | null, _ => pure none
  | object members, key => pure (members.lookup key)
  | _, _ => throw (.jsonLogicError
      "in Json::Value::find(begin, end): requires objectValue or nullValue")

/-- `Value::isMember(key)`. -/
def isMember (value : Json) (key : String) : Except CppException Bool :=
  (value.find key).map Option.isSome

/-- The `const` `Value::operator[](key)`: a missing member reads as null. -/
def get (value : Json) (key : String) : Except CppException Json :=
  (value.find key).map (·.getD null)

/-- The non-`const` `Value::operator[](key)` on a value that is read once and dropped, as `main`
uses it: a member of an object (null when absent), null on null, and `resolveReference`'s
exception on anything else. -/
def member : Json → String → Except CppException Json
  | null, _ => pure null
  | object members, key => pure ((members.lookup key).getD null)
  | _, _ => throw (.jsonLogicError
      "in Json::Value::resolveReference(key, end): requires objectValue")

/-- `Value::isArray()`. -/
def isArray : Json → Bool
  | array _ => true
  | _ => false

/-- `Value::asUInt()`: 32-bit range checked, a double truncated. -/
def asUInt : Json → Except CppException UInt32
  | null => pure 0
  | bool value => pure (if value then 1 else 0)
  | int value =>
    if 0 ≤ value ∧ value < 2 ^ 32 then pure (UInt32.ofNat value.toNat)
    else throw (.jsonLogicError "LargestInt out of UInt range")
  | uint value =>
    if value < 2 ^ 32 then pure (UInt32.ofNat value)
    else throw (.jsonLogicError "LargestUInt out of UInt range")
  | real value _ =>
    if 0 ≤ value ∧ value ≤ 2 ^ 32 - 1 then pure (UInt32.ofNat ⌊value⌋.toNat)
    else throw (.jsonLogicError "double out of UInt range")
  | _ => throw (.jsonLogicError "Value is not convertible to UInt.")

/-- `Value::asUInt64()`. -/
def asUInt64 : Json → Except CppException UInt64
  | null => pure 0
  | bool value => pure (if value then 1 else 0)
  | int value =>
    if 0 ≤ value then pure (UInt64.ofNat value.toNat)
    else throw (.jsonLogicError "LargestInt out of UInt64 range")
  | uint value => pure (UInt64.ofNat value)
  | real value _ =>
    if 0 ≤ value ∧ value < 2 ^ 64 then pure (UInt64.ofNat ⌊value⌋.toNat)
    else throw (.jsonLogicError "double out of UInt64 range")
  | _ => throw (.jsonLogicError "Value is not convertible to UInt64.")

/-- `Value::asString()`: scalars print, arrays and objects raise. -/
def asString : Json → Except CppException Bytes
  | null => pure []
  | string value => pure value
  | bool value => pure (ascii (if value then "true" else "false"))
  | int value => pure (decimal value)
  | uint value => pure (decimal value)
  | real _ text => pure text
  | _ => throw (.jsonLogicError "Type is not convertible to string")

end Json

end JunoMiner
