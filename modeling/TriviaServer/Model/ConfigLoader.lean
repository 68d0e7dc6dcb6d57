import TriviaServer.Model.Json
import TriviaServer.Regex.Pattern

/-! # The config file

Opening the file and parsing it belong to the standard library and nlohmann::json: what has come
of them is an argument of the model. -/

namespace TriviaServer

def defaultPort : Int32 := 8826
def defaultIP : String := "0.0.0.0"

structure Endpoint where
  address : String
  port : UInt16
  deriving DecidableEq, Repr

/-- `Endpoint(address, port)`: kissnet takes the `int` for a `uint16_t`. -/
def Endpoint.new (address : String) (port : Int32) : Endpoint where
  address := address
  port := port.toUInt32.toUInt16

inductive ConfigFile where
  /-- `file.is_open()` is false. -/
  | notOpen
  /-- `file >> root` throws a `parse_error`. -/
  | parseError
  /-- `file >> root` throws an `out_of_range`, which is no `parse_error`: the text has a number
  that overflows a `double`. -/
  | numberOverflow
  | parsed (root : Json)

namespace Json

/-- `j[key]` of a value that can be changed, with what becomes of it: a null turns into an
object, a missing key is added with null, and what is no object throws a `type_error`. -/
def subscript (key : String) : Json → Except Fault (Json × Json)
  | .null => .ok (.null, .object [(key, .null)])
  | .object fields =>
      match fields.lookup key with
      | some j => .ok (j, .object fields)
      | none => .ok (.null, .object (fields ++ [(key, .null)]))
  | _ => .error .jsonType

/-- `is_number_integer()`, true of unsigned integers too. -/
def isNumberInteger : Json → Bool
  | .numberUnsigned _ | .numberInteger _ => true
  | _ => false

/-- `get<int>()`, which narrows as the conversion to `unsigned int` does. -/
def toInt32 : Json → Except Fault Int32
  | .numberUnsigned n => .ok n.toUInt32.toInt32
  | .numberInteger n => .ok n.toInt32
  | .numberFloat x => .ok (Int32.ofInt (x.num.tdiv x.den))
  | .boolean b => .ok (if b then 1 else 0)
  | _ => .error .jsonType

end Json

namespace ConfigLoader

open Regex

/-- `25[0-5]|(2[0-4]|1\d|[1-9]|)\d`. -/
def octetRegex : Pattern Char :=
  .alt (.seq (single '2') (.seq (single '5') (range '0' '5')))
    (.seq
      (.group 3 (.alt (.seq (single '2') (range '0' '4'))
        (.alt (.seq (single '1') digit) (.alt (range '1' '9') .empty))))
      digit)

/-- `(25[0-5]|(2[0-4]|1\d|[1-9]|)\d)\.?\b`. -/
def dottedOctetRegex : Pattern Char :=
  .seq (.group 2 octetRegex) (.seq (.optional (single '.')) wordBoundary)

/-- `^((25[0-5]|(2[0-4]|1\d|[1-9]|)\d)\.?\b){4}$`. -/
def ipRegex : Pattern Char :=
  .seq .start (.seq (.repeated (.group 1 dottedOctetRegex) 4 0) .stop)

def isValidIP (ip : String) : Bool := (ipRegex.regexMatch ip.toList).isSome

def isValidPort (port : Int32) : Bool := 0 < port && port < 65535

/-! `loadConfig`, one definition for each `if` that tests a field. -/

def loadIP (field : Json) : Except Fault String :=
  if field.isString then do
    let ip ← field.toString
    return if isValidIP ip then ip else defaultIP
  else
    return defaultIP

def loadPort (field : Json) : Except Fault Int32 :=
  if field.isNumberInteger then do
    let port ← field.toInt32
    return if isValidPort port then port else defaultPort
  else
    return defaultPort

def loadConfig : ConfigFile → Except Fault Endpoint
  | .notOpen => return .new defaultIP defaultPort
  | .parseError => return .new defaultIP defaultPort
  | .numberOverflow => throw .jsonOutOfRange
  | .parsed root => do
      let (field, root) ← root.subscript "ip"
      let ip ← loadIP field
      let (field, _) ← root.subscript "port"
      let port ← loadPort field
      return .new ip port

end ConfigLoader

end TriviaServer
