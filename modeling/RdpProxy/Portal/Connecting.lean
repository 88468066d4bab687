import RdpProxy.Portal.Authorization
import RdpProxy.Rdp.RoutingToken

/-!
# From the portal to the server

A login, a download, and the connection of the client that opens the file. In between the token may be bound to a
client, and it may end.
-/

open RedisKey Steps Words Text

namespace RdpProxy.Portal

open Admin Rdp Store

variable {ι : Type} [DecidableEq ι] {store : RedisSessionStore} {decimal : Char → Option Nat} {s s' : PortalState ι}
  {i : ι} {server : RdpServer}

/-! ## The token afterwards -/

end RdpProxy.Portal
