import DocRun.Settings.Basic

namespace DocRun

inductive Field where
  | useSystemIncludes
  | numThreads
  | tier
  | rootDir
  | compileCommands
  | outputDir
  | projectName
  | projectVersion
  | timestamp
  | toolVersion
  | gitRepoUrl
  | gitDefaultBranch
  | includePaths
  | ignorePaths
  | ignoreNames
  | ignorePrivateMembers
  | homepage
  | markdownPaths
  | hideToolMenu
  | fileLimit
  | dumpPayload
  deriving DecidableEq, Repr

namespace Field

-- Every field once, in the order in which records are written.
def all : List Field := [
  useSystemIncludes, numThreads, tier, rootDir, compileCommands, outputDir, projectName,
  projectVersion, timestamp, toolVersion, gitRepoUrl, gitDefaultBranch, includePaths, ignorePaths,
  ignoreNames, ignorePrivateMembers, homepage, markdownPaths, hideToolMenu, fileLimit, dumpPayload]

theorem mem_all (field : Field) : field ∈ all := by
  cases field <;> decide

def key : Field → String
  | useSystemIncludes => "use_system_includes"
  | numThreads => "num_threads"
  | tier => "binary_type"
  | rootDir => "root_dir"
  | compileCommands => "compile_commands_json"
  | outputDir => "output_dir"
  | projectName => "project_name"
  | projectVersion => "project_version"
  | timestamp => "timestamp"
  | toolVersion => "tool_version"
  | gitRepoUrl => "git_repo_url"
  | gitDefaultBranch => "git_default_branch"
  | includePaths => "include_paths"
  | ignorePaths => "ignore_paths"
  | ignoreNames => "ignore_names"
  | ignorePrivateMembers => "ignore_private_members"
  | homepage => "homepage"
  | markdownPaths => "md_paths"
  | hideToolMenu => "hide_tool_menu"
  | fileLimit => "debug_limit_num_indexed_files"
  | dumpPayload => "debug_dump_payload"

end Field

inductive FieldValue where
  | flag (value : Bool)
  | number (value : UInt32)
  | tier (value : Tier)
  | path (value : Path)
  | text (value : String)
  | textOrNone (value : Option String)
  | pathOrNone (value : Option Path)
  | texts (value : List String)
  | paths (value : List Path)
  deriving DecidableEq, Repr

def Settings.value (settings : Settings) : Field → FieldValue
  | .useSystemIncludes => .flag settings.useSystemIncludes
  | .numThreads => .number settings.numThreads
  | .tier => .tier settings.tier
  | .rootDir => .path settings.rootDir
  | .compileCommands => .path settings.compileCommands
  | .outputDir => .path settings.outputDir
  | .projectName => .text settings.projectName
  | .projectVersion => .textOrNone settings.projectVersion
  | .timestamp => .text settings.timestamp
  | .toolVersion => .text settings.toolVersion
  | .gitRepoUrl => .text settings.gitRepoUrl
  | .gitDefaultBranch => .text settings.gitDefaultBranch
  | .includePaths => .texts settings.includePaths
  | .ignorePaths => .texts settings.ignorePaths
  | .ignoreNames => .texts settings.ignoreNames
  | .ignorePrivateMembers => .flag settings.ignorePrivateMembers
  | .homepage => .pathOrNone settings.homepage
  | .markdownPaths => .paths settings.markdownPaths
  | .hideToolMenu => .flag settings.hideToolMenu
  | .fileLimit => .number settings.fileLimit
  | .dumpPayload => .flag settings.dumpPayload

theorem Settings.ext_value {s t : Settings} (h : ∀ field, s.value field = t.value field) :
    s = t := by
  cases s
  cases t
  simp only [Settings.mk.injEq]
  refine ⟨?_, ?_, ?_, ?_, ?_, ?_, ?_, ?_, ?_, ?_, ?_, ?_, ?_, ?_, ?_, ?_, ?_, ?_, ?_, ?_, ?_⟩
  · simpa [Settings.value] using h .useSystemIncludes
  · simpa [Settings.value] using h .numThreads
  · simpa [Settings.value] using h .tier
  · simpa [Settings.value] using h .rootDir
  · simpa [Settings.value] using h .compileCommands
  · simpa [Settings.value] using h .outputDir
  · simpa [Settings.value] using h .projectName
  · simpa [Settings.value] using h .projectVersion
  · simpa [Settings.value] using h .timestamp
  · simpa [Settings.value] using h .toolVersion
  · simpa [Settings.value] using h .gitRepoUrl
  · simpa [Settings.value] using h .gitDefaultBranch
  · simpa [Settings.value] using h .includePaths
  · simpa [Settings.value] using h .ignorePaths
  · simpa [Settings.value] using h .ignoreNames
  · simpa [Settings.value] using h .ignorePrivateMembers
  · simpa [Settings.value] using h .homepage
  · simpa [Settings.value] using h .markdownPaths
  · simpa [Settings.value] using h .hideToolMenu
  · simpa [Settings.value] using h .fileLimit
  · simpa [Settings.value] using h .dumpPayload

end DocRun
