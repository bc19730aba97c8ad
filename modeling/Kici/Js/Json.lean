import Kici.Js.Str

/-!
# Values of the JavaScript runtime

The values that JSON holds, and `undefined`, with what the language does with them:
truth, property access, strict equality. An object is the list of its entries in the
order of their enumeration.

What the language converts (`MatchRuntime.toStr` and the like) is left to the runtime.
-/

namespace Kici

inductive Json
  | undefined
  | null
  | bool (b : Bool)
  | num (x : Rat)
  | str (s : JsString)
  | arr (values : List Json)
  | obj (entries : List (JsString × Json))

namespace Json

/-- Whether a value is `undefined` or `null`. -/
def isNullish : Json → Bool
  | .undefined | .null => true
  | _ => false

/-- Whether a condition on the value holds. -/
def truthy : Json → Bool
  | .undefined | .null => false
  | .bool b => b
  | .num x => x ≠ 0
  | .str s => s ≠ []
  | .arr _ | .obj _ => true

/-- `value ?? other`. -/
def orElse (value other : Json) : Json := if value.isNullish then other else value

/-- The entries of an object; other values have none. -/
def entries : Json → List (JsString × Json)
  | .obj es => es
  | _ => []

/-- `value?.key`, for a key that is no property of other values than objects. -/
def prop (value : Json) (key : JsString) : Json := (value.entries.lookup key).getD .undefined

/-- Whether a value is the string `s`. -/
def isStr (s : JsString) : Json → Bool
  | .str t => t = s
  | _ => false

/-- `a === b`, for values of which none is a part of the other. -/
def strictEq : Json → Json → Bool
  | .undefined, .undefined | .null, .null => true
  | .bool a, .bool b => a = b
  | .num a, .num b => a = b
  | .str a, .str b => a = b
  -- Objects and arrays are compared by identity.
  | _, _ => false

end Json

namespace JsString

/-- `JSON.stringify` of one code unit of a string; `paired` says whether a surrogate is a half of a
pair. -/
def quoteUnit (paired : Bool) (c : UInt16) : JsString :=
  if c = 0x22 then js "\\\""
  else if c = 0x5C then js "\\\\"
  else if c = 0x08 then js "\\b"
  else if c = 0x09 then js "\\t"
  else if c = 0x0A then js "\\n"
  else if c = 0x0C then js "\\f"
  else if c = 0x0D then js "\\r"
  else if c < 0x20 ∨ (0xD800 ≤ c ∧ c < 0xE000 ∧ ¬ paired) then
    js "\\u" ++ List.replicate (4 - (hex c.toNat).length) '0'.toNat.toUInt16 ++ hex c.toNat
  else [c]

/-- The inside of `JSON.stringify(s)`: a surrogate pair stays, a lone surrogate is escaped. -/
def quoteUnits : JsString → JsString
  | [] => []
  | [c] => quoteUnit false c
  | c :: d :: rest =>
    if 0xD800 ≤ c ∧ c < 0xDC00 ∧ 0xDC00 ≤ d ∧ d < 0xE000 then
      quoteUnit true c ++ quoteUnit true d ++ quoteUnits rest
    else quoteUnit false c ++ quoteUnits (d :: rest)

/-- `JSON.stringify(s)`. -/
def stringify (s : JsString) : JsString := js "\"" ++ quoteUnits s ++ js "\""

end JsString

end Kici
