import WindscribeVpn.Foundations.Programs
import WindscribeVpn.Foundations.Runs
import WindscribeVpn.Foundations.Streaks
import WindscribeVpn.Foundations.KeyedTables
import WindscribeVpn.Foundations.WriteBehind
import WindscribeVpn.Foundations.ReadModifyWrite
import WindscribeVpn.Foundations.SharedObjects
import WindscribeVpn.Foundations.LinkedSets
import WindscribeVpn.Foundations.Texts
import WindscribeVpn.Foundations.Lines
import WindscribeVpn.Foundations.Toml
import WindscribeVpn.Foundations.Splitting
import WindscribeVpn.Foundations.BitMasks
import WindscribeVpn.Foundations.Positional
import WindscribeVpn.Foundations.Digests
import WindscribeVpn.Repository.ServerListRepository
import WindscribeVpn.Repository.ServerListUpdates
import WindscribeVpn.Repository.ServerListDurability
import WindscribeVpn.Repository.ConnectionDataRepository
import WindscribeVpn.Repository.LocationRepository
import WindscribeVpn.Repository.WgConfigRepository
import WindscribeVpn.Repository.UserRepository
import WindscribeVpn.Repository.AccountConsistency
import WindscribeVpn.Repository.LatencyRepository
import WindscribeVpn.Repository.SelectedLocation
import WindscribeVpn.Tunnel.PacketMux
import WindscribeVpn.Tunnel.PacketMuxQuiesce
import WindscribeVpn.Tunnel.ControlDDnsStage
import WindscribeVpn.Tunnel.DnsStageTable
import WindscribeVpn.Tunnel.DnsStageReuse
import WindscribeVpn.Tunnel.DnsStageBlocking
import WindscribeVpn.Tunnel.EgressRecord
import WindscribeVpn.Tunnel.EgressFates
import WindscribeVpn.Tunnel.EgressProgress
import WindscribeVpn.Tunnel.EgressSound
import WindscribeVpn.Tunnel.TunnelManager
import WindscribeVpn.Tunnel.TunSession
import WindscribeVpn.Tunnel.TunReplacement
import WindscribeVpn.Tunnel.TunnelUp
import WindscribeVpn.Tunnel.HoldWatchdog
import WindscribeVpn.Tunnel.DeferredTeardown
import WindscribeVpn.Tunnel.TeardownOwnership
import WindscribeVpn.Tunnel.DnsStageReconcile
import WindscribeVpn.Tunnel.VpnServiceGate
import WindscribeVpn.Tunnel.AutoConnectWatcher
import WindscribeVpn.Backend.VPNState
import WindscribeVpn.Backend.PublishedState
import WindscribeVpn.Backend.EngineStart
import WindscribeVpn.Backend.VpnBackendHolder
import WindscribeVpn.Backend.ConnectivityTest
import WindscribeVpn.Backend.StatePublication
import WindscribeVpn.Backend.EngineEvents
import WindscribeVpn.Backend.WindVpnController
import WindscribeVpn.Backend.TunnelTrafficMonitor
import WindscribeVpn.Backend.LanBypass
import WindscribeVpn.Backend.AllowedIps
import WindscribeVpn.Backend.WgKey
import WindscribeVpn.Backend.WgQuick
import WindscribeVpn.Backend.WgSecrets
import WindscribeVpn.Backend.VPNProfileCreator
import WindscribeVpn.Backend.ProfileCreation
import WindscribeVpn.Backend.WgBuilders
import WindscribeVpn.Backend.CustomWireGuard
import WindscribeVpn.Backend.OpenVPNInspection
import WindscribeVpn.Backend.ProfileCache
import WindscribeVpn.Backend.NodeSelection
import WindscribeVpn.Backend.EmergencyConnect
import WindscribeVpn.Backend.NetworkChangeGuard
import WindscribeVpn.Backend.DnsProxy
import WindscribeVpn.Tunnel.TunConfig
import WindscribeVpn.AutoConnection.FailoverHold
import WindscribeVpn.AutoConnection.ProtocolWalk
import WindscribeVpn.AutoConnection.ProtocolChoice
import WindscribeVpn.State.ConnectionPolicy
import WindscribeVpn.State.SessionTunnel
import WindscribeVpn.State.SessionSettling
import WindscribeVpn.State.OptedOutNetwork
import WindscribeVpn.State.UnderlyingNetwork
import WindscribeVpn.State.StandDown
import WindscribeVpn.State.NetworkInfoManager
import WindscribeVpn.Billing.PurchaseManager
import WindscribeVpn.Billing.PurchaseFlows
import WindscribeVpn.Workers.WindScribeWorkManager
import WindscribeVpn.Workers.GooglePendingReceiptValidator
import WindscribeVpn.Preferences.ExcludedIps
import WindscribeVpn.Commons.WireguardUtil
import WindscribeVpn.Commons.DnsInfo
import WindscribeVpn.Backend.ControlDConfig
import WindscribeVpn.Decoytraffic.DecoyTrafficController
import WindscribeVpn.Foundations.Utf8
import WindscribeVpn.Openvpn.OptionsParse
import WindscribeVpn.Openvpn.ServerConfigSanitizer
import WindscribeVpn.Openvpn.VpnProfile
import WindscribeVpn.Foundations.Intervals
import WindscribeVpn.Foundations.DyadicBlocks
import WindscribeVpn.Ikev2.AddressBytes
import WindscribeVpn.Ikev2.IPRange
import WindscribeVpn.Ikev2.Subnets
import WindscribeVpn.Ikev2.IPRangeSet
import WindscribeVpn.Ikev2.BuilderCache
import WindscribeVpn.Ikev2.LanBypassRoutes
import WindscribeVpn.Openvpn.NetworkSpace
