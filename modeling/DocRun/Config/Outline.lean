import DocRun.Config.Basic
import DocRun.Decimal.Basic
import DocRun.Outline
import DocRun.Text.Quoted

namespace DocRun

-- `hidden` says which characters are shown by their number.
variable (hidden : Char → Bool)

def Outline.ofText (text : String) : Outline := .literal (Quoted.text hidden text.toList)

def Outline.ofPath (path : Path) : Outline := .literal (Quoted.bytes hidden path.bytes)

def Tier.outline (tier : Tier) : Outline := .word tier.label

def FieldValue.outline : FieldValue → Outline
  | flag value => .flag value
  | number value => .word (String.ofList (Decimal.ofNat value.toNat))
  | tier value => value.outline
  | path value => .ofPath hidden value
  | text value => .ofText hidden value
  | textOrNone value => .optional (value.map (.ofText hidden))
  | pathOrNone value => .optional (value.map (.ofPath hidden))
  | texts values => .list (values.map (.ofText hidden))
  | paths values => .list (values.map (.ofPath hidden))

def Config.outline (config : Config) : Outline :=
  .record "Config" (("initialized", .flag config.initialized) ::
    Field.all.map fun field => (field.key, (config.value field).outline hidden))

def Settings.outline (settings : Settings) : Outline :=
  .record "ConfigBuilder" [("config", settings.draft.outline hidden)]

def ConfigError.outline (error : ConfigError) : Outline :=
  match error with
  | missingField field => .wrapped error.label (.ofText hidden field)
  | localSaveNotPermitted tier => .wrapped error.label tier.outline
  | source name reason =>
    .record error.label
      [("source_name", .ofText hidden name), ("reason", .ofText hidden reason)]

end DocRun
