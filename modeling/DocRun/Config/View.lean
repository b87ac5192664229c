import DocRun.Config.Basic

namespace DocRun

abbrev Count := { n : Nat // 0 < n }

def Count.ofNat? (n : Nat) : Option Count := if h : 0 < n then some ⟨n, h⟩ else none

namespace Config

def pageTitleSuffix (config : Config) : String :=
  match config.projectVersion with
  | some version => config.projectName ++ " " ++ version ++ " documentation"
  | none => config.projectName ++ " documentation"

def ownThreads (config : Config) : Option Count := Count.ofNat? config.numThreads.toNat

def workerThreads (config : Config) (available : Count) : Count :=
  config.ownThreads.getD available

def indexedFileLimit (config : Config) : Option Count := Count.ofNat? config.fileLimit.toNat

def canSaveLocally (config : Config) : Bool := config.tier.canSaveLocally

end Config

structure IndexingView where
  rootDir : Path
  compileCommands : Path
  includePaths : List String
  ignorePaths : List String
  ignoreNames : List String
  useSystemIncludes : Bool
  ignorePrivateMembers : Bool
  dumpPayload : Bool
  workerThreads : Count
  indexedFileLimit : Option Count
  deriving DecidableEq

def Config.indexing (config : Config) (available : Count) : IndexingView where
  rootDir := config.rootDir
  compileCommands := config.compileCommands
  includePaths := config.includePaths
  ignorePaths := config.ignorePaths
  ignoreNames := config.ignoreNames
  useSystemIncludes := config.useSystemIncludes
  ignorePrivateMembers := config.ignorePrivateMembers
  dumpPayload := config.dumpPayload
  workerThreads := config.workerThreads available
  indexedFileLimit := config.indexedFileLimit

structure RenderingView where
  pageTitleSuffix : String
  projectName : String
  projectVersion : Option String
  outputDir : Path
  gitRepoUrl : String
  gitDefaultBranch : String
  hasSourceLinks : Bool
  homepage : Option Path
  markdownPaths : List Path
  hideToolMenu : Bool
  tier : Tier
  timestamp : String
  toolVersion : String
  deriving DecidableEq

-- Links to the source need both the address and the branch.
def Config.rendering (config : Config) : RenderingView where
  pageTitleSuffix := config.pageTitleSuffix
  projectName := config.projectName
  projectVersion := config.projectVersion
  outputDir := config.outputDir
  gitRepoUrl := config.gitRepoUrl
  gitDefaultBranch := config.gitDefaultBranch
  hasSourceLinks := !config.gitRepoUrl.isEmpty && !config.gitDefaultBranch.isEmpty
  homepage := config.homepage
  markdownPaths := config.markdownPaths
  hideToolMenu := config.hideToolMenu
  tier := config.tier
  timestamp := config.timestamp
  toolVersion := config.toolVersion

end DocRun
