import DocRun.Config.Basic
import DocRun.Json.Writer

namespace DocRun

-- A path can only be dumped as text.
inductive DumpError where
  | pathNotText
  deriving DecidableEq, Repr

def DumpError.message : DumpError → String
  | pathNotText => "path contains invalid UTF-8 characters"

def Path.toJson (path : Path) : Except DumpError Json :=
  match path.text? with
  | some text => .ok (.str text)
  | none => .error .pathNotText

def Tier.toJson (tier : Tier) : Json := .str tier.name

def FieldValue.toJson : FieldValue → Except DumpError Json
  | flag value => .ok (.bool value)
  | number value => .ok (.int value.toNat)
  | tier value => .ok value.toJson
  | path value => value.toJson
  | text value => .ok (.str value)
  | textOrNone none => .ok .null
  | textOrNone (some value) => .ok (.str value)
  | pathOrNone none => .ok .null
  | pathOrNone (some value) => value.toJson
  | texts values => .ok (.arr (values.map .str))
  | paths values => do
    let items ← values.mapM Path.toJson
    .ok (.arr items)

def Settings.memberOf (settings : Settings) (field : Field) : Except DumpError (String × Json) := do
  let value ← (settings.value field).toJson
  .ok (field.key, value)

-- One member for each field. Whether the settings are initialized is not dumped.
def Settings.toJson (settings : Settings) : Except DumpError Json := do
  let members ← Field.all.mapM settings.memberOf
  .ok (.obj members)

def Config.dump (config : Config) : Except DumpError (List Char) :=
  config.toJson.map Json.compact

def Config.dumpPretty (config : Config) : Except DumpError (List Char) :=
  config.toJson.map (Json.pretty 0)

end DocRun
