/-
# `Json.Reader` — reading JSON

The tokens of a value drive a machine that keeps a stack of the arrays and
objects still open.  Of two fields of one name in an object the last value
counts, in the place of the first.  Too many open arrays and objects stop the
machine, whatever follows.
-/
import SignatureSearch.Json.Token

namespace SignatureSearch.Json

/-- What holds further values. -/
inductive Container where
  | array
  | object
deriving DecidableEq, Repr

/-- Why a text or bytes are no value. -/
inductive ReadError where
  /-- The bytes are not text in the encoding they show. -/
  | encoding
  /-- The text is not a value. -/
  | malformed
  /-- The container would be nested too deep. -/
  | tooDeep (container : Container)
deriving DecidableEq, Repr

/-- How many arrays and objects may be open at a time. -/
def deepest : Nat := 970

def Container.tooDeepMessage (c : Container) : String :=
  let name := match c with
    | .array => "array"
    | .object => "object"
  s!"maximum recursion depth exceeded while decoding a JSON {name} from a unicode string"

/-- An array or object that is still open, its parts in reverse order. -/
inductive Frame where
  | array (items : List Json)
  | object (fields : Fields) (name : String)

/-- What may come next. -/
inductive Mode where
  /-- A value. -/
  | value (stack : List Frame)
  /-- The first item of an array, or its end. -/
  | firstItem (stack : List Frame)
  /-- A comma after an item, or the end of the array. -/
  | afterItem (items : List Json) (stack : List Frame)
  /-- The first key of an object, or its end. -/
  | firstKey (stack : List Frame)
  /-- A key, after a comma. -/
  | key (fields : Fields) (stack : List Frame)
  /-- The colon after a key. -/
  | colon (name : String) (fields : Fields) (stack : List Frame)
  /-- A comma after a field, or the end of the object. -/
  | afterField (fields : Fields) (stack : List Frame)
  /-- Nothing: the value is complete. -/
  | done (v : Json)

namespace Mode

/-- Puts a complete value into what it is a part of. -/
def deliver (v : Json) : List Frame → Mode
  | [] => .done v
  | .array items :: stack => .afterItem (v :: items) stack
  | .object fields name :: stack => .afterField ((name, v) :: fields) stack

/-- Opens a container, unless too many are open. -/
def opened (stack : List Frame) (c : Container) : Except ReadError Mode :=
  if deepest ≤ stack.length then .error (.tooDeep c)
  else match c with
    | .array => .ok (.firstItem stack)
    | .object => .ok (.firstKey stack)

def start (stack : List Frame) : Token → Except ReadError Mode
  | .value v => .ok (deliver v stack)
  | .leftBracket => opened stack .array
  | .leftBrace => opened stack .object
  | _ => .error .malformed

/-- An object of fields in reverse order, repeated names merged. -/
def close (fields : Fields) : Json :=
  .obj (fields.reverse.foldl (fun merged (name, v) => setField merged name v) [])

def step : Mode → Token → Except ReadError Mode
  | .value stack, t => start stack t
  | .firstItem stack, .rightBracket => .ok (deliver (.arr []) stack)
  | .firstItem stack, t => start (.array [] :: stack) t
  | .afterItem items stack, .comma => .ok (.value (.array items :: stack))
  | .afterItem items stack, .rightBracket => .ok (deliver (.arr items.reverse) stack)
  | .firstKey stack, .rightBrace => .ok (deliver (.obj []) stack)
  | .firstKey stack, .value (.str name) => .ok (.colon name [] stack)
  | .key fields stack, .value (.str name) => .ok (.colon name fields stack)
  | .colon name fields stack, .colon => .ok (.value (.object fields name :: stack))
  | .afterField fields stack, .comma => .ok (.key fields stack)
  | .afterField fields stack, .rightBrace => .ok (deliver (close fields) stack)
  | _, _ => .error .malformed

end Mode

/-- Reads a text that holds one value.  An integer may have any number of digits, and half a
surrogate pair is read as a replacement character (U+FFFD). -/
def read (cs : List Char) : Except ReadError Json := do
  match ← (Token.scan cs).foldlM Mode.step (.value []) with
  | .done v => return v
  | _ => throw .malformed

/-- Reads bytes, in the encoding they show, that hold one value. -/
def readBytes (bytes : List UInt8) : Except ReadError Json :=
  match Text.Encoding.decodeDetected? bytes with
  | none => .error .encoding
  | some cs => read cs

end SignatureSearch.Json
