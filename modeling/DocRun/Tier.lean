namespace DocRun

-- `full` is the local build, `online` the free hosted build, `server` the internal one.
inductive Tier where
  | full
  | online
  | server
  deriving DecidableEq, Repr

namespace Tier

instance : Inhabited Tier := ⟨full⟩

def all : List Tier := [full, online, server]

def name : Tier → String
  | full => "full"
  | online => "online"
  | server => "server"

def label : Tier → String
  | full => "Full"
  | online => "Online"
  | server => "Server"

-- Only the local build may write documentation to disk.
def canSaveLocally : Tier → Bool
  | full => true
  | online => false
  | server => false

def ofName? (text : String) : Option Tier :=
  all.find? fun tier => tier.name = text

theorem ofName?_name (tier : Tier) : ofName? tier.name = some tier := by
  cases tier <;> decide

theorem name_of_ofName? {text : String} {tier : Tier} (h : ofName? text = some tier) :
    tier.name = text := by
  simpa using List.find?_some h

end Tier

end DocRun
