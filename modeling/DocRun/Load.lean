import DocRun.Load.Run

namespace DocRun.Load

inductive Action where
  | edit (edit : Edit)
  | fail (error : ConfigError)
  | see
  | reset
  | check
  deriving DecidableEq, Repr

structure Source where
  name : String
  actions : List Action
  deriving DecidableEq, Repr

def initializedEvent (config : Config) : Event := .initialized config.projectName config.tier

def detailsEvent (config : Config) : Event :=
  .details config.numThreads config.includePaths.length config.ignorePaths.length
    config.ignoreNames.length config.markdownPaths.length

def build (log : Log) (settings : Settings) : Run Config :=
  match settings.build with
  | .error error => .fail error
  | .ok config => do
    Run.event log (initializedEvent config)
    Run.event log (detailsEvent config)
    return config

-- A check builds a copy, and only its failure matters.
def Action.run (log : Log) (settings : Settings) : Action → Run Settings
  | edit change => return settings.apply change
  | fail error => .fail error
  | see => do
    Run.call (.seen settings.draft)
    return settings
  | reset => return {}
  | check => do
    let _ ← build log settings
    return settings

def Action.runAll (log : Log) (settings : Settings) : List Action → Run Settings
  | [] => return settings
  | action :: actions => do
    let settings ← action.run log settings
    runAll log settings actions

-- The name of a source is asked for only to write the event.
def announce (log : Log) (source : Source) : Run Unit :=
  if log.wanted.includes .debug then do
    Run.call (.name source.name)
    Run.event log (.applying source.name)
  else return ()

def Source.populate (log : Log) (source : Source) (settings : Settings) : Run Settings := do
  Run.call (.populate source.name)
  Action.runAll log settings source.actions

def gather (log : Log) (settings : Settings) : List Source → Run Settings
  | [] => return settings
  | source :: sources => do
    announce log source
    let settings ← source.populate log settings
    gather log settings sources

def load (log : Log) (sources : List Source) : Run Config := do
  let settings ← gather log {} sources
  build log settings

end DocRun.Load
