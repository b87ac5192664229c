import DocRun.Json.Basic

namespace DocRun.Json

-- Of the members with one key only the last counts.
def lastMembers : List (String × Json) → List (String × Json)
  | [] => []
  | member :: members =>
    if members.any fun other => other.1 = member.1 then lastMembers members
    else member :: lastMembers members

mutual

-- The value in which no object repeats a key, at any depth.
def merge : Json → Json
  | .arr items => .arr (mergeItems items)
  | .obj members => .obj (lastMembers (mergeMembers members))
  | value => value

def mergeItems : List Json → List Json
  | [] => []
  | item :: items => item.merge :: mergeItems items

def mergeMembers : List (String × Json) → List (String × Json)
  | [] => []
  | (key, value) :: members => (key, value.merge) :: mergeMembers members

end

end DocRun.Json
