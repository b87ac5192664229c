import DocRun.Settings.Edit

namespace DocRun

-- Settings that are handed out. Only a build that finds nothing wrong marks them initialized.
structure Config extends Settings where
  initialized : Bool
  deriving DecidableEq, Repr

def Settings.draft (settings : Settings) : Config where
  toSettings := settings
  initialized := false

def Config.blank : Config := Settings.draft {}

inductive ConfigError where
  | missingField (field : String)
  | localSaveNotPermitted (tier : Tier)
  | source (name reason : String)
  deriving DecidableEq, Repr

namespace ConfigError

def label : ConfigError → String
  | missingField _ => "MissingField"
  | localSaveNotPermitted _ => "LocalSaveNotPermitted"
  | source _ _ => "Source"

def message : ConfigError → String
  | missingField field => "required configuration value `" ++ field ++ "` is missing"
  | localSaveNotPermitted tier =>
    "saving documentation locally is not permitted for the " ++ tier.name ++ " binary"
  | source name reason => "configuration source " ++ name ++ " failed: " ++ reason

end ConfigError

-- A tier that saves locally needs an output directory, any other tier must not have one.
def Settings.build (settings : Settings) : Except ConfigError Config :=
  if settings.rootDir.isEmpty then .error (.missingField Field.rootDir.key)
  else if settings.compileCommands.isEmpty then .error (.missingField Field.compileCommands.key)
  else if settings.projectName.isEmpty then .error (.missingField Field.projectName.key)
  else if settings.tier.canSaveLocally && settings.outputDir.isEmpty then
    .error (.missingField Field.outputDir.key)
  else if !settings.tier.canSaveLocally && !settings.outputDir.isEmpty then
    .error (.localSaveNotPermitted settings.tier)
  else .ok { toSettings := settings, initialized := true }

end DocRun
