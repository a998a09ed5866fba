import OpenApiClient.Yaml.Value
import OpenApiClient.Json.Writer

/-!
# From YAML values to raw values

A raw value knows no tags, no numbers but finite ones and no keys but texts. So tags are dropped, a
number that is not finite becomes null, and a key is replaced by the text that it is written as; of
entries whose keys are written alike, the last value stands at the first place.
-/

namespace OpenApiClient.Yaml

namespace Value

def doubleKey (d : Double) : String :=
  if d.isNaN then ".nan"
  else if d.isFinite then d.text .key
  else if d.isNegative then "-.inf" else ".inf"

def jsonKey : Json → String
  | .str s => s
  | v => v.compact

mutual

def toJson : Value → Json
  | .null => .null
  | .bool b => .bool b
  | .int n => .num (.int n)
  | .double d => if d.isFinite then .num (.double d) else .null
  | .str s => .str s
  | .sequence items => .arr (itemsToJson items)
  | .mapping entries => .obj (entriesToJson [] entries)
  | .tagged _ v => toJson v

def itemsToJson : List Value → List Json
  | [] => []
  | v :: rest => toJson v :: itemsToJson rest

def entriesToJson (entered : List (String × Json)) : List (Value × Value) → List (String × Json)
  | [] => entered
  | (k, v) :: rest => entriesToJson (Entries.insert (keyText k) (toJson v) entered) rest

def keyText : Value → String
  | .str s => s
  | .bool b => toString b
  | .int n => toString n
  | .double d => doubleKey d
  | .null => "null"
  | .sequence items => jsonKey (.arr (itemsToJson items))
  | .mapping entries => jsonKey (.obj (entriesToJson [] entries))
  | .tagged _ v => jsonKey (toJson v)

end

end Value

end OpenApiClient.Yaml
