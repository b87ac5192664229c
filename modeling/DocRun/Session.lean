import DocRun.Config.Dump
import DocRun.Config.Outline
import DocRun.Config.Same
import DocRun.Config.View
import DocRun.Slots
import DocRun.Text.Hidden

namespace DocRun.Session

inductive Query where
  | read
  | title
  | indexing (available : Count)
  | rendering
  | workers (available : Count)
  | availableWorkers
  | dump
  | dumpPretty
  | debug
  | debugPretty

-- Where a step makes a configuration, `keep` names the slot that it is kept in.
-- Where a step looks at one, no name stands for a draft of the current settings.
inductive Step where
  | edit (edit : Edit)
  | renew
  | save (slot : String)
  | restore (slot : String)
  | blank (keep : Option String)
  | draft (keep : Option String)
  | build (keep : Option String)
  | query (slot : Option String) (query : Query)
  | debugSettings
  | same (left right : Option String)

inductive Answer where
  | done
  | changed (field : Field) (value : FieldValue)
  | config (config : Config)
  | failed (error : ConfigError)
  | text (text : String)
  | indexing (view : IndexingView)
  | rendering (view : RenderingView)
  | workers (count : Count)
  -- no number of threads was asked for, so that the machine decides
  | machineDecides
  | dump (dump : Except DumpError String)
  | truth (value : Bool)
  | emptySlot (name : String)

structure State where
  settings : Settings := {}
  savedSettings : Slots Settings := []
  configs : Slots Config := []

def State.keep (state : State) (slot : Option String) (config : Config) : State :=
  match slot with
  | none => state
  | some name => { state with configs := state.configs.put name config }

def State.config? (state : State) (slot : Option String) : Except String Config :=
  match slot with
  | none => .ok state.settings.draft
  | some name =>
    match state.configs.get? name with
    | some config => .ok config
    | none => .error name

def Query.answer (config : Config) : Query → Answer
  | read => .config config
  | title => .text config.pageTitleSuffix
  | indexing available => .indexing (config.indexing available)
  | rendering => .rendering config.rendering
  | workers available => .workers (config.workerThreads available)
  | availableWorkers =>
    match config.ownThreads with
    | some count => .workers count
    | none => .machineDecides
  | dump => .dump (config.dump.map String.ofList)
  | dumpPretty => .dump (config.dumpPretty.map String.ofList)
  | debug => .text (String.ofList (config.outline isHidden).inline)
  | debugPretty => .text (String.ofList ((config.outline isHidden).stacked 0))

def State.step (state : State) : Step → State × Answer
  | .edit edit =>
    let settings := state.settings.apply edit
    ({ state with settings := settings }, .changed edit.field (settings.value edit.field))
  | .renew => ({ state with settings := {} }, .done)
  | .save slot =>
    ({ state with savedSettings := state.savedSettings.put slot state.settings }, .done)
  | .restore slot =>
    match state.savedSettings.get? slot with
    | some settings => ({ state with settings := settings }, .done)
    | none => (state, .emptySlot slot)
  | .blank slot => (state.keep slot .blank, .config .blank)
  | .draft slot => (state.keep slot state.settings.draft, .config state.settings.draft)
  | .build slot =>
    match state.settings.build with
    | .ok config => (state.keep slot config, .config config)
    | .error error => (state, .failed error)
  | .query slot query =>
    match state.config? slot with
    | .ok config => (state, query.answer config)
    | .error name => (state, .emptySlot name)
  | .debugSettings =>
    (state, .text (String.ofList (state.settings.outline isHidden).inline))
  | .same left right =>
    match state.config? left, state.config? right with
    | .ok c, .ok d => (state, .truth (c.same d))
    | .error name, _ => (state, .emptySlot name)
    | _, .error name => (state, .emptySlot name)

def State.run (state : State) : List Step → State × List Answer
  | [] => (state, [])
  | step :: steps =>
    let (next, answer) := state.step step
    let (last, answers) := next.run steps
    (last, answer :: answers)

end DocRun.Session
