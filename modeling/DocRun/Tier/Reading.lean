import DocRun.Json.Shape
import DocRun.Tier
import DocRun.Utf8

namespace DocRun.Tier

inductive Wanted where
  | stringOrMap
  | name
  | unit
  deriving DecidableEq, Repr

def Wanted.describe : Wanted → String
  | stringOrMap => "string or map"
  | name => "variant identifier"
  | unit => "unit"

inductive Problem where
  | unknownName (name : String)
  | unknownIndex (index : Nat)
  | unexpected (found : Json.Shape) (wanted : Wanted)
  | notOneMember

def Problem.message (hidden : Char → Bool) : Problem → String
  | unknownName name =>
    "unknown variant `" ++ name ++ "`, expected one of `full`, `online`, `server`"
  | unknownIndex index =>
    "invalid value: integer `" ++ String.ofList (Decimal.ofNat index)
      ++ "`, expected variant index 0 <= i < 3"
  | unexpected found wanted =>
    "invalid type: " ++ found.describe hidden ++ ", expected " ++ wanted.describe
  | notOneMember => "invalid value: map, expected map with a single key"

def ofName (name : String) : Except Problem Tier :=
  match ofName? name with
  | some tier => .ok tier
  | none => .error (.unknownName name)

def ofIndex (index : Nat) : Except Problem Tier :=
  match all[index]? with
  | some tier => .ok tier
  | none => .error (.unknownIndex index)

def ofBytes (bytes : List UInt8) : Except Problem Tier :=
  match all.find? fun tier => Utf8.encode tier.name.toList = bytes with
  | some tier => .ok tier
  | none => .error (.unknownName (String.ofList (Utf8.lossy bytes)))

-- A tier is its name, or an object whose one member has the name as its key and null as its value.
-- The key is looked at first.
def ofJson : Json → Except Problem Tier
  | .str name => ofName name
  | .obj [(key, value)] => do
    let tier ← ofName key
    match value with
    | .null => .ok tier
    | value => .error (.unexpected value.shape .unit)
  | .obj _ => .error .notOneMember
  | value => .error (.unexpected value.shape .stringOrMap)

end DocRun.Tier
