/-!
# JSON documents

The values of a `jsonb` column and of a Python dictionary that `json.dumps` accepts.
The leaves of the parameter type `ω` are the objects that are not JSON; a pure
document has none.
-/

set_option autoImplicit false

namespace AiStudio.Data

/-- Characters of `repr` of a Python `float`. -/
def isFloatChar (c : Char) : Bool := "0123456789.e+-NaInfity".toList.contains c

/-- The text `repr` gives for a float: `1.0`, `1e+16`, `NaN`, `-Infinity`. It never
reads as an integer. -/
def isFloatRepr (s : List Char) : Bool :=
  s.all isFloatChar && s.head?.any ("0123456789-NI".toList.contains ·) &&
    s.any (".eNI".toList.contains ·)

/-- A float, under the text `repr` gives for it. -/
structure FloatRepr where
  text : List Char
  isRepr : isFloatRepr text = true
  deriving DecidableEq

/-- A JSON value with foreign leaves in `ω`. Object keys are in insertion order. -/
inductive Json (ω : Type) where
  | null
  | bool (b : Bool)
  | int (n : Int)
  | float (x : FloatRepr)
  | str (s : String)
  | arr (items : List (Json ω))
  | obj (fields : List (String × Json ω))
  | foreign (x : ω)

/-- A JSON object without foreign leaves. -/
abbrev Doc := List (String × Json Empty)

/-- A Python object that is not JSON, under its class and its `str`. -/
structure PyObject where
  className : String
  str : String
  deriving DecidableEq

/-- The keyword arguments of a call. -/
abbrev Kwargs (ω : Type) := List (String × Json ω)

namespace Json

variable {ω : Type}

/-- The text of a string value. -/
def asStr? : Json ω → Option String
  | .str s => some s
  | _ => none

@[simp] theorem asStr?_str (s : String) : (str s : Json ω).asStr? = some s := rfl

/-- A missing value is `null`. -/
def ofOption {α : Type} (f : α → Json ω) : Option α → Json ω
  | none => .null
  | some a => f a

/-- `bool(value)`; a foreign object is true. -/
def truthy : Json ω → Bool
  | .null => false
  | .bool b => b
  | .int n => n ≠ 0
  | .float x => x.text ≠ "0.0".toList && x.text ≠ "-0.0".toList
  | .str s => s ≠ ""
  | .arr items => !items.isEmpty
  | .obj fields => !fields.isEmpty
  | .foreign _ => true

mutual

/-- The same value with other foreign leaves; `none` when a leaf has no image. -/
def mapForeign? {ω' : Type} (f : ω → Option ω') : Json ω → Option (Json ω')
  | .null => some .null
  | .bool b => some (.bool b)
  | .int n => some (.int n)
  | .float x => some (.float x)
  | .str s => some (.str s)
  | .arr items => (mapItems? f items).map .arr
  | .obj fields => (mapFields? f fields).map .obj
  | .foreign x => (f x).map .foreign

/-- The items of an array. -/
def mapItems? {ω' : Type} (f : ω → Option ω') : List (Json ω) → Option (List (Json ω'))
  | [] => some []
  | item :: items => do
      let item ← mapForeign? f item
      let items ← mapItems? f items
      return item :: items

/-- The fields of an object. -/
def mapFields? {ω' : Type} (f : ω → Option ω') :
    List (String × Json ω) → Option (List (String × Json ω'))
  | [] => some []
  | (key, value) :: fields => do
      let value ← mapForeign? f value
      let fields ← mapFields? f fields
      return (key, value) :: fields

end

/-- The value as pure JSON; `none` when it has a foreign leaf. -/
def pure? (value : Json ω) : Option (Json Empty) := value.mapForeign? fun _ => none

/-- Pure JSON among values with foreign leaves. -/
def ofPure (value : Json Empty) : Json ω := (value.mapForeign? Empty.elim).getD .null

end Json

/-- `doc.get(key, default)`. -/
def Doc.getD (doc : Doc) (key : String) (default : Json Empty) : Json Empty :=
  (doc.lookup key).getD default

/-- `doc.get(key)`, when it is a string. -/
def Doc.getStr? (doc : Doc) (key : String) : Option String := (doc.lookup key).bind Json.asStr?

end AiStudio.Data
