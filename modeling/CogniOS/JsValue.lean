/-
# Values of the monitor's scripts

The values that the scripts under `functions/` compute with, and the built-in functions of the
language that they call.

* a number is an exact rational, NaN or an infinity; the sign of zero is not kept;
* a text is a sequence of Unicode scalar values, its `length` is counted in UTF-16 units;
* `Runtime` holds the built-in functions whose result depends on the engine (number and date
  syntax, `JSON.parse`), and `Runtime.Lawful` what their documentation says.
-/
import CogniOS.Rounding
import CogniOS.Util

/-- A number. -/
inductive JsNum
  | finite (q : ℚ)
  | nan
  | infinity (negative : Bool)
  deriving DecidableEq

namespace JsNum

/-- `Number.isFinite`. -/
def finite? : JsNum → Option ℚ
  | finite q => some q
  | _ => none

/-- `Number.isInteger`. -/
def integer? : JsNum → Option ℤ
  | finite q => if q.den = 1 then some q.num else none
  | _ => none

/-- `Number.isSafeInteger`. -/
def safeInteger? (n : JsNum) : Option ℤ := n.integer?.filter fun k => k.natAbs < 2 ^ 53

/-- `a <= b`, which is not true of NaN. -/
def le : JsNum → JsNum → Bool
  | finite p, finite q => p ≤ q
  | infinity true, infinity _ => true
  | infinity true, finite _ => true
  | infinity false, infinity negative => !negative
  | finite _, infinity negative => !negative
  | _, _ => false

instance (n : ℕ) : OfNat JsNum n := ⟨finite n⟩

end JsNum

/-- `Math.round`. -/
def mathRound (q : ℚ) : ℤ := Rounding.halfUp q

/-- A value. -/
inductive Js
  | undefined
  | null
  | bool (b : Bool)
  | num (n : JsNum)
  | str (s : String)
  | arr (items : List Js)
  | obj (props : List (String × Js))

/-! ## Text -/

namespace JsText

/-- `length`: a character outside the basic plane counts twice. -/
def length (s : String) : ℕ := (s.toList.map fun c => if c.toNat < 0x10000 then 1 else 2).sum

/-- White space and line terminators, as `trim` strips them. -/
def isSpace (c : Char) : Bool :=
  [0x09, 0x0a, 0x0b, 0x0c, 0x0d, 0x20, 0xa0, 0x1680, 0x2000, 0x2001, 0x2002, 0x2003, 0x2004,
    0x2005, 0x2006, 0x2007, 0x2008, 0x2009, 0x200a, 0x2028, 0x2029, 0x202f, 0x205f, 0x3000,
    0xfeff].contains c.toNat

/-- `trim`. -/
def trim (s : String) : String :=
  String.ofList ((s.toList.dropWhile isSpace).rdropWhile isSpace)

/-- The control characters `[\u0000-\u0008\u000b\u000c\u000e-\u001f]`. -/
def isControl (c : Char) : Bool :=
  c.toNat < 0x20 && c.toNat != 0x09 && c.toNat != 0x0a && c.toNat != 0x0d

/-- `startsWith` and `slice`: what follows the given beginning. -/
def dropStart? (start s : String) : Option String :=
  if start.toList.isPrefixOf s.toList then some (String.ofList (s.toList.drop start.toList.length))
  else none

/-- `/^[..]{min,max}$/` for a class of characters. -/
def isWord (allowed : Char → Bool) (min max : ℕ) (s : String) : Bool :=
  min ≤ s.toList.length && s.toList.length ≤ max && s.toList.all allowed

theorem length_le_length_encode (s : String) : length s ≤ (Utf8.encode s.toList).length := by
  unfold length
  induction s.toList with
  | nil => exact le_rfl
  | cons c cs ih =>
    rw [List.map_cons, List.sum_cons, Utf8.encode_cons, List.length_append]
    have hc : (if c.toNat < 0x10000 then 1 else 2) ≤ (String.utf8EncodeChar c).length := by
      rw [String.length_utf8EncodeChar]
      have hsize := c.utf8Size_pos
      split
      · exact hsize
      · rename_i hlarge
        have hone : c.utf8Size ≠ 1 := by
          rw [Ne, Char.utf8Size_eq_one_iff, UInt32.le_iff_toNat_le]
          have hval : c.toNat = c.val.toNat := rfl
          have hbound : (127 : UInt32).toNat = 127 := rfl
          omega
        omega
    omega

end JsText

/-! ## Properties -/

namespace Js

/-- The property of an object, `undefined` where there is none. -/
def get (v : Js) (name : String) : Js :=
  match v with
  | obj props => (props.lookup name).getD undefined
  | _ => undefined

mutual

/-- `JSON.parse(JSON.stringify(v))` of a value that came from `JSON.parse`. -/
def clone : Js → Js
  | num .nan => null
  | num (.infinity _) => null
  | arr items => arr (cloneItems items)
  | obj props => obj (cloneProps props)
  | v => v

def cloneItems : List Js → List Js
  | [] => []
  | v :: items => clone v :: cloneItems items

def cloneProps : List (String × Js) → List (String × Js)
  | [] => []
  | (k, v) :: props => (k, clone v) :: cloneProps props

end

/-- The properties of an object after an assignment. -/
def assign (props : List (String × Js)) (name : String) (value : Js) : List (String × Js) :=
  if props.any (·.1 == name) then props.map fun p => if p.1 == name then (name, value) else p
  else props ++ [(name, value)]

/-- `{ ...v, name: value }`. -/
def set (v : Js) (name : String) (value : Js) : Js :=
  match v with
  | obj props => obj (assign props name value)
  | _ => v

def isObject : Js → Bool
  | obj _ => true
  | _ => false

def asStr? : Js → Option String
  | str s => some s
  | _ => none

def asNum? : Js → Option JsNum
  | num n => some n
  | _ => none

def asArr? : Js → Option (List Js)
  | arr items => some items
  | _ => none

/-- Whether `!value` is false. -/
def truthy : Js → Bool
  | undefined => false
  | null => false
  | bool b => b
  | num n => n != 0 && n != .nan
  | str s => s != ""
  | arr _ => true
  | obj _ => true

/-- `String(value || "")`. -/
def textOr (string : Js → String) (v : Js) : String :=
  match v with
  | str s => s
  | v => if v.truthy then string v else ""

/-- `value === s`. -/
def isStr (v : Js) (s : String) : Bool := v.asStr? == some s

/-- `value === b`. -/
def isBool (v : Js) (b : Bool) : Bool :=
  match v with
  | bool b' => b' == b
  | _ => false

/-- `value === n`. -/
def isInt (v : Js) (n : ℤ) : Bool := v.asNum? == some (.finite n)

def isUndefined : Js → Bool
  | undefined => true
  | _ => false

/-- `value === null || value === undefined`. -/
def isNullish : Js → Bool
  | undefined => true
  | null => true
  | _ => false

/-- `set.has(value)` of a set of texts. -/
def isIn (v : Js) (texts : List String) : Bool := v.asStr?.any texts.contains

def isBoolean : Js → Bool
  | bool _ => true
  | _ => false

/-- `value ?? null`. -/
def orNull : Js → Js
  | undefined => null
  | v => v

/-- One assignment after the other. -/
def setAll (v : Js) (props : List (String × Js)) : Js :=
  props.foldl (fun v p => v.set p.1 p.2) v

theorem isObject_setAll {v : Js} (hv : v.isObject = true) (props : List (String × Js)) :
    (v.setAll props).isObject = true := by
  induction props generalizing v with
  | nil => exact hv
  | cons p props ih => exact ih (by cases v <;> first | rfl | cases hv)

theorem isObject_set {v : Js} (hv : v.isObject = true) (name : String) (value : Js) :
    (v.set name value).isObject = true := by
  cases v with
  | obj props => rfl
  | _ => cases hv

end Js

/-! ## The engine -/

/-- The parts of a URL that the scripts read. -/
structure Url where
  protocol : String
  username : String
  password : String
  port : String
  pathname : String
  search : String
  hash : String
  hostname : String

/-- Built-in functions that depend on the engine. -/
structure Runtime where
  /-- `Number(text)`. -/
  number : String → JsNum
  /-- `String(value)`. -/
  string : Js → String
  /-- `toLowerCase`. -/
  lower : String → String
  /-- `Date.parse`. -/
  dateParse : String → JsNum
  /-- `new Date(milliseconds).toISOString()`. -/
  isoString : ℤ → String
  /-- `JSON.parse`, where it does not throw. -/
  jsonParse : String → Option Js
  /-- The double that stands for an exact result. -/
  double : ℚ → ℚ
  /-- `new URL(text)`, where it does not throw. -/
  parseUrl : String → Option Url

/-- What the language says of the built-in functions. -/
structure Runtime.Lawful (rt : Runtime) : Prop where
  /-- Only letters change in an ASCII text. -/
  lower_ascii : ∀ s : String, (∀ c ∈ s.toList, c.toNat < 0x80) →
    rt.lower s = String.ofList (s.toList.map Char.toLower)
  /-- A JSON text has no control characters but tabs and line ends. -/
  jsonParse_printable : ∀ s v, rt.jsonParse s = some v → s.toList.any JsText.isControl = false
  /-- The text of an object has its two braces. -/
  jsonParse_object : ∀ s props, rt.jsonParse s = some (.obj props) → 2 ≤ JsText.length s
