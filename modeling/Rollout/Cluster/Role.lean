import Rollout.Text.Search

namespace Rollout

inductive Role
  | management
  | metadata
  | objectStorage
  | client
  | monitor
  deriving DecidableEq, Repr, Inhabited

namespace Role

def all : List Role := [.management, .metadata, .objectStorage, .client, .monitor]

def name : Role → String
  | .management => "management"
  | .metadata => "metadata"
  | .objectStorage => "object_storage"
  | .client => "client"
  | .monitor => "monitor"

def ofName? (s : String) : Option Role := all.find? fun r ↦ r.name == s

/-- The names under which a role may be given, in lower case. -/
def aliases : Role → List String
  | .management => ["management", "mgs", "mgt"]
  | .metadata => ["metadata", "mds", "mdt"]
  | .objectStorage => ["object_storage", "object-storage", "oss", "ost"]
  | .client => ["client"]
  | .monitor => ["monitor"]

def parse? (s : String) : Option Role := all.find? fun r ↦ r.aliases.contains (Text.foldedCase s)

def invalidMessage (s : String) : String := "Invalid role: " ++ s

def sorted (rs : List Role) : List Role := all.filter fun r ↦ rs.contains r

end Role

end Rollout
