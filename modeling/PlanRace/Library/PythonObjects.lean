import PlanRace.Library.JsonText

/-!
# Objects of a dynamic language

What the built-in operations make of an object whose type is not known: its
attributes, its numeric value, its text. Each of them may raise. A small type of
literals behaves as the built-in types do.
-/

namespace PythonObjects

open JsonText

/-- An exception, by the classes that are told apart. -/
inductive Raised where
  | valueError (message : Text)
  | typeError (message : Text)
  | overflowError
  | zeroDivisionError
  | indexError
  | runtimeError (message : Text)
  | other (name : Text)
deriving DecidableEq

/-- `type(error).__name__`. -/
def Raised.name : Raised → Text
  | valueError _ => "ValueError".toList
  | typeError _ => "TypeError".toList
  | overflowError => "OverflowError".toList
  | zeroDivisionError => "ZeroDivisionError".toList
  | indexError => "IndexError".toList
  | runtimeError _ => "RuntimeError".toList
  | other name => name

/-- A floating-point value in exact arithmetic. -/
inductive Number (K : Type) where
  | finite (x : K)
  | infinite (negative : Bool)
  | nan
deriving DecidableEq

/-- `x`, when `math.isfinite(x)`. -/
def Number.finite? {K : Type} : Number K → Option K
  | finite x => some x
  | _ => none

/-- The built-in operations on the objects of type `V`. -/
class PythonObject (V : Type) where
  isNone : V → Bool
  /-- The value of an instance of `bool`. -/
  asBool : V → Option Bool
  /-- Whether it is an instance of `str`, `bytes` or `bytearray`. -/
  isText : V → Bool
  /-- `hasattr(value, "__int__")`. -/
  hasInt : V → Bool
  int : V → Except Raised Int
  str : V → Except Raised Text
  truth : V → Except Raised Bool
  /-- The elements of a `Sequence` other than `str` and `bytes`. -/
  elements : V → Option (List V)
  isMapping : V → Bool
  /-- `mapping.get(key)`, at an integer or a string. -/
  get : V → Int ⊕ Text → Except Raised (Option V)
  /-- `mapping.items()`. -/
  items : V → Except Raised (List (V × V))
  getattr : V → Text → Except Raised (Option V)

/-- `float(value)`, in the field `K`. -/
class PythonFloat (V K : Type) where
  float : V → Except Raised (Number K)

section Literals

/-- Literals of the built-in types. -/
inductive Literal (K : Type) where
  | none
  | bool (b : Bool)
  | int (i : Int)
  | float (x : K)
  | str (s : Text)
  | list (elements : List (Literal K))
  | dict (items : List (Literal K × Literal K))

variable {K : Type}

def Literal.hasKey : Int ⊕ Text → Literal K × Literal K → Bool
  | .inl i, (.int j, _) => decide (i = j)
  | .inr s, (.str t, _) => decide (s = t)
  | _, _ => false

/-- Numbers keep their value, and texts do not convert. -/
def Literal.number [IntCast K] : Literal K → Except Raised (Number K)
  | bool b => .ok (.finite (if b then ((1 : Int) : K) else ((0 : Int) : K)))
  | int i => .ok (.finite (i : K))
  | float x => .ok (.finite x)
  | str _ => .error (.valueError "could not convert string to float".toList)
  | _ => .error (.typeError "float() argument must be a string or a real number".toList)

def Literal.integer : Literal K → Except Raised Int
  | bool b => .ok (if b then 1 else 0)
  | int i => .ok i
  | str _ => .error (.valueError "invalid literal for int()".toList)
  | _ => .error (.typeError "int() argument must be a string or a real number".toList)

def Literal.text : Literal K → Except Raised Text
  | none => .ok "None".toList
  | bool b => .ok (if b then "True".toList else "False".toList)
  | int i => .ok (intText i)
  | str s => .ok s
  | _ => .error (.other "NotImplementedError".toList)

def Literal.truth : Literal K → Except Raised Bool
  | none => .ok false
  | bool b => .ok b
  | int i => .ok (decide (i ≠ 0))
  | float _ => .error (.other "NotImplementedError".toList)
  | str s => .ok (!s.isEmpty)
  | list elements => .ok (!elements.isEmpty)
  | dict items => .ok (!items.isEmpty)

instance literalObject : PythonObject (Literal K) where
  isNone
    | .none => true
    | _ => false
  asBool
    | .bool b => some b
    | _ => Option.none
  isText
    | .str _ => true
    | _ => false
  hasInt
    | .bool _ => true
    | .int _ => true
    | .float _ => true
    | _ => false
  int := Literal.integer
  str := Literal.text
  truth := Literal.truth
  elements
    | .list elements => some elements
    | _ => Option.none
  isMapping
    | .dict _ => true
    | _ => false
  get value key :=
    match value with
    | .dict items => .ok ((items.find? (Literal.hasKey key)).map Prod.snd)
    | _ => .error (.other "AttributeError".toList)
  items
    | .dict items => .ok items
    | _ => .error (.other "AttributeError".toList)
  getattr _ _ := .ok Option.none

instance literalFloat [IntCast K] : PythonFloat (Literal K) K := ⟨Literal.number⟩

end Literals

end PythonObjects
