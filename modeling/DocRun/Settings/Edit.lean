import DocRun.Settings.Field

namespace DocRun

-- The four `add` edits append to a list, all others replace.
inductive Edit where
  | useSystemIncludes (value : Bool)
  | numThreads (value : UInt32)
  | tier (value : Tier)
  | rootDir (value : Path)
  | compileCommands (value : Path)
  | outputDir (value : Path)
  | projectName (value : String)
  | projectVersion (value : String)
  | timestamp (value : String)
  | toolVersion (value : String)
  | gitRepoUrl (value : String)
  | gitDefaultBranch (value : String)
  | includePaths (values : List String)
  | addIncludePath (value : String)
  | ignorePaths (values : List String)
  | addIgnorePath (value : String)
  | ignoreNames (values : List String)
  | addIgnoreName (value : String)
  | ignorePrivateMembers (value : Bool)
  | homepage (value : Path)
  | markdownPaths (values : List Path)
  | addMarkdownPath (value : Path)
  | hideToolMenu (value : Bool)
  | fileLimit (value : UInt32)
  | dumpPayload (value : Bool)
  deriving DecidableEq, Repr

def Edit.field : Edit → Field
  | useSystemIncludes _ => .useSystemIncludes
  | numThreads _ => .numThreads
  | tier _ => .tier
  | rootDir _ => .rootDir
  | compileCommands _ => .compileCommands
  | outputDir _ => .outputDir
  | projectName _ => .projectName
  | projectVersion _ => .projectVersion
  | timestamp _ => .timestamp
  | toolVersion _ => .toolVersion
  | gitRepoUrl _ => .gitRepoUrl
  | gitDefaultBranch _ => .gitDefaultBranch
  | includePaths _ | addIncludePath _ => .includePaths
  | ignorePaths _ | addIgnorePath _ => .ignorePaths
  | ignoreNames _ | addIgnoreName _ => .ignoreNames
  | ignorePrivateMembers _ => .ignorePrivateMembers
  | homepage _ => .homepage
  | markdownPaths _ | addMarkdownPath _ => .markdownPaths
  | hideToolMenu _ => .hideToolMenu
  | fileLimit _ => .fileLimit
  | dumpPayload _ => .dumpPayload

-- An empty version or homepage clears the field.
def Settings.apply (settings : Settings) : Edit → Settings
  | .useSystemIncludes value => { settings with useSystemIncludes := value }
  | .numThreads value => { settings with numThreads := value }
  | .tier value => { settings with tier := value }
  | .rootDir value => { settings with rootDir := value }
  | .compileCommands value => { settings with compileCommands := value }
  | .outputDir value => { settings with outputDir := value }
  | .projectName value => { settings with projectName := value }
  | .projectVersion value =>
    { settings with projectVersion := if value.isEmpty then none else some value }
  | .timestamp value => { settings with timestamp := value }
  | .toolVersion value => { settings with toolVersion := value }
  | .gitRepoUrl value => { settings with gitRepoUrl := value }
  | .gitDefaultBranch value => { settings with gitDefaultBranch := value }
  | .includePaths values => { settings with includePaths := values }
  | .addIncludePath value => { settings with includePaths := settings.includePaths ++ [value] }
  | .ignorePaths values => { settings with ignorePaths := values }
  | .addIgnorePath value => { settings with ignorePaths := settings.ignorePaths ++ [value] }
  | .ignoreNames values => { settings with ignoreNames := values }
  | .addIgnoreName value => { settings with ignoreNames := settings.ignoreNames ++ [value] }
  | .ignorePrivateMembers value => { settings with ignorePrivateMembers := value }
  | .homepage value => { settings with homepage := if value.isEmpty then none else some value }
  | .markdownPaths values => { settings with markdownPaths := values }
  | .addMarkdownPath value =>
    { settings with markdownPaths := settings.markdownPaths ++ [value] }
  | .hideToolMenu value => { settings with hideToolMenu := value }
  | .fileLimit value => { settings with fileLimit := value }
  | .dumpPayload value => { settings with dumpPayload := value }

def Settings.applyAll (settings : Settings) (edits : List Edit) : Settings :=
  edits.foldl Settings.apply settings

end DocRun
