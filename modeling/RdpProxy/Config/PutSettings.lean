import RdpProxy.Admin.AdminAccess
import RdpProxy.Config.Accessors
import RdpProxy.Lib.Json

/-!
# What the settings page saves (`routes/settings.py`)
-/

namespace RdpProxy.Config

open Admin (HttpError strip)

def mergeKeys : List String := ["ldap", "security", "proxy", "redis_ttl", "portal", "dns", "relay"]

/-- The values that `_clean_dict` keeps. -/
def Kept : Json → Bool
  | .null => false
  | .str s => strip s ≠ ""
  | _ => true

def cleanDict (v : Setting Json) : Setting Json := v.filterKeys fun k => (v.get? k).any Kept

/-- One turn of the loop in `put_settings`: what it saves. -/
def putEntry (k : String) (v : Json) : Except HttpError (Option (String × Setting Json)) :=
  let key := strip k
  if key = "" then .ok none
  else if key ∉ mergeKeys ∧ key ≠ "instance" then .error ⟨400, "Unknown setting key: " ++ key⟩
  else
    let v : Setting Json :=
      match v with
      | .dict entries => .ofList entries
      | v => .ofList [("value", v)]
    .ok (some (key, if key ∈ mergeKeys then cleanDict v else v))

end RdpProxy.Config
