import DocRun.Decimal.Shortest
import DocRun.Json.Basic
import DocRun.Text.Quoted

namespace DocRun.Json

-- What a message tells about a value: its kind, and its content unless it is a list or an object.
inductive Shape where
  | null
  | bool (value : Bool)
  | int (value : Int)
  | float (value : Float)
  | str (value : String)
  | sequence
  | map

def shape : Json → Shape
  | .null => .null
  | .bool value => .bool value
  | .int value => .int value
  | .float value => .float value
  | .str text => .str text
  | .arr _ => .sequence
  | .obj _ => .map

def Shape.describe (hidden : Char → Bool) : Shape → String
  | .null => "null"
  | .bool true => "boolean `true`"
  | .bool false => "boolean `false`"
  | .int value => "integer `" ++ String.ofList (Decimal.ofInt value) ++ "`"
  | .float value => "floating point `" ++ String.ofList (Decimal.renderFloat value) ++ "`"
  | .str value => "string " ++ String.ofList (Quoted.text hidden value.toList)
  | .sequence => "sequence"
  | .map => "map"

end DocRun.Json
