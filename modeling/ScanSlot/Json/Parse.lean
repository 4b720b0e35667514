import ScanSlot.Json.Token
import ScanSlot.Json.Value

/-! Reading a document from tokens with a stack of open arrays and objects. -/
namespace ScanSlot.Json

/-- An open array or object, the parts read so far in reverse. -/
inductive Frame where
  | array (done : List Value)
  | object (done : List (Option String × Value)) (name : Option String)

/-- What may come next. -/
inductive State where
  | value (stack : List Frame)
  | firstItem (stack : List Frame)
  | firstName (stack : List Frame)
  | name (done : List (Option String × Value)) (stack : List Frame)
  | colon (done : List (Option String × Value)) (name : Option String) (stack : List Frame)
  | complete (value : Value) (stack : List Frame)

/-- Reads the first token of a value. -/
def begin (stack : List Frame) : Token → Option State
  | .null => some (.complete .null stack)
  | .bool b => some (.complete (.bool b) stack)
  | .number n => some (.complete (.number n) stack)
  | .text t => some (.complete (.text t) stack)
  | .openArray => some (.firstItem stack)
  | .openObject => some (.firstName stack)
  | _ => none

def step : State → Token → Option State
  | .value stack, token => begin stack token
  | .firstItem stack, .closeArray => some (.complete (.array []) stack)
  | .firstItem stack, token => begin (.array [] :: stack) token
  | .firstName stack, .closeObject => some (.complete (.object []) stack)
  | .firstName stack, .text name => some (.colon [] name stack)
  | .name done stack, .text name => some (.colon done name stack)
  | .colon done name stack, .colon => some (.value (.object done name :: stack))
  | .complete v (.array done :: stack), .comma => some (.value (.array (v :: done) :: stack))
  | .complete v (.array done :: stack), .closeArray =>
      some (.complete (.array (v :: done).reverse) stack)
  | .complete v (.object done name :: stack), .comma => some (.name ((name, v) :: done) stack)
  | .complete v (.object done name :: stack), .closeObject =>
      some (.complete (.object ((name, v) :: done).reverse) stack)
  | _, _ => none

def State.result? : State → Option Value
  | .complete v [] => some v
  | _ => none

def Value.ofTokens? (tokens : List Token) : Option Value :=
  (tokens.foldlM step (.value [])).bind State.result?

/-- The value that a text holds, blanks aside. -/
def Value.parse? (text : List Char) : Option Value :=
  (tokens? text).bind ofTokens?

end ScanSlot.Json
