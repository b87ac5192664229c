import DocRun.Path
import DocRun.Tier

namespace DocRun

structure Settings where
  useSystemIncludes : Bool := true
  -- zero stands for every thread that is available
  numThreads : UInt32 := 0
  tier : Tier := .full
  rootDir : Path := .empty
  compileCommands : Path := .empty
  outputDir : Path := .empty
  projectName : String := ""
  projectVersion : Option String := none
  timestamp : String := ""
  toolVersion : String := ""
  gitRepoUrl : String := ""
  gitDefaultBranch : String := ""
  includePaths : List String := []
  ignorePaths : List String := []
  ignoreNames : List String := []
  ignorePrivateMembers : Bool := false
  homepage : Option Path := none
  markdownPaths : List Path := []
  hideToolMenu : Bool := false
  -- zero stands for no limit
  fileLimit : UInt32 := 0
  dumpPayload : Bool := false
  deriving DecidableEq, Repr

end DocRun
