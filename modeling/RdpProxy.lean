import RdpProxy.Lib.Steps
import RdpProxy.Lib.RedisKey
import RdpProxy.Lib.Words
import RdpProxy.Lib.Ber
import RdpProxy.Lib.Text
import RdpProxy.Lib.Timeline
import RdpProxy.Lib.KeyClients
import RdpProxy.Lib.RowTxn
import RdpProxy.Lib.Faulty
import RdpProxy.Lib.UnitOfWork
import RdpProxy.Lib.TableTxn
import RdpProxy.Lib.SingleMark
import RdpProxy.Lib.RedisProg
import RdpProxy.Lib.Roster
import RdpProxy.Lib.Dict
import RdpProxy.Lib.Uuid
import RdpProxy.Lib.StreamReader
import RdpProxy.Lib.IpAddress
import RdpProxy.Lib.Json
import RdpProxy.Lib.StreamScript
import RdpProxy.Lib.Utf8
import RdpProxy.Lib.TextLines
import RdpProxy.Lib.JsonText
import RdpProxy.Lib.Csv
import RdpProxy.Lib.Base64
import RdpProxy.Lib.Aead
import RdpProxy.Lib.JsonFields
import RdpProxy.Lib.Keyspace
import RdpProxy.Store.Payload
import RdpProxy.Store.WebSession
import RdpProxy.Store.TokenKill
import RdpProxy.Store.TokenBinding
import RdpProxy.Store.SessionKeys
import RdpProxy.Store.PayloadText
import RdpProxy.Store.SealedPasswords
import RdpProxy.Rdp.Mcs
import RdpProxy.Rdp.McsWindow
import RdpProxy.Rdp.Tpkt
import RdpProxy.Rdp.ConnectPdu
import RdpProxy.Rdp.ConnectInitial
import RdpProxy.Rdp.ConnectResponse
import RdpProxy.Rdp.X224
import RdpProxy.Rdp.RoutingToken
import RdpProxy.Rdp.Credssp
import RdpProxy.Rdp.BackendLogin
import RdpProxy.Rdp.TpktReaders
import RdpProxy.Lib.ByteIndex
import RdpProxy.Rdp.Pubkey
import RdpProxy.Rdp.RdpFile
import RdpProxy.Relay.ProxyProtocol
import RdpProxy.Relay.ClientIp
import RdpProxy.Relay.Plugins
import RdpProxy.Relay.Process
import RdpProxy.Relay.PatchFlags
import RdpProxy.Relay.SessionLimits
import RdpProxy.Relay.Echo
import RdpProxy.Relay.Pipe
import RdpProxy.Relay.Segmentation
import RdpProxy.Relay.KillWake
import RdpProxy.Relay.KillReason
import RdpProxy.Relay.KillPoller
import RdpProxy.Relay.Forwarding
import RdpProxy.Relay.ConnectionLimit
import RdpProxy.Tracker.History
import RdpProxy.Tracker.Reconcile
import RdpProxy.Tracker.ActiveKey
import RdpProxy.Relay.HandlerState
import RdpProxy.Relay.Handler
import RdpProxy.Relay.HandlerEnd
import RdpProxy.Relay.HandlerRow
import RdpProxy.Security.LoginLimiter
import RdpProxy.Portal.LoginWindow
import RdpProxy.Portal.AccountNames
import RdpProxy.Admin.AdminTable
import RdpProxy.Admin.AdminAccess
import RdpProxy.Admin.SessionRow
import RdpProxy.Admin.AdminUsers
import RdpProxy.Admin.KillRoutes
import RdpProxy.Admin.KillAll
import RdpProxy.Admin.KillHalfway
import RdpProxy.Admin.Templates
import RdpProxy.Admin.AdminLogin
import RdpProxy.Admin.LoginRace
import RdpProxy.Admin.ForwardedFor
import RdpProxy.Lib.Url
import RdpProxy.Admin.RequestUrl
import RdpProxy.Admin.CsrfOrigin
import RdpProxy.Lib.Layers
import RdpProxy.Admin.TemplateMerge
import RdpProxy.Admin.Servers
import RdpProxy.Lib.TextFile
import RdpProxy.Admin.Dotenv
import RdpProxy.Lib.FileOps
import RdpProxy.Lib.Pem
import RdpProxy.Acme.ObtainSync
import RdpProxy.Acme.HaproxyReload
import RdpProxy.Admin.HistoryCsv
import RdpProxy.Admin.AuditLog
import RdpProxy.Admin.AdGroups
import RdpProxy.Config.SettingsManager
import RdpProxy.Config.ProxyPort
import RdpProxy.Config.ConcurrentSaves
import RdpProxy.Config.Accessors
import RdpProxy.Config.CacheRaces
import RdpProxy.Config.BindPassword
import RdpProxy.Config.PutSettings
import RdpProxy.Config.SessionTtl
import RdpProxy.Config.SettingsListener
import RdpProxy.Config.PutErrors
import RdpProxy.Lib.LdapFilter
import RdpProxy.Admin.ServerOrder
import RdpProxy.Portal.ServerAccess
import RdpProxy.Portal.Authorization
import RdpProxy.Portal.Connecting
import RdpProxy.Identity.LdapAuth
import RdpProxy.Lib.ReadThrough
import RdpProxy.Relay.DnsResolver
import RdpProxy.Lib.Utf16
import RdpProxy.Lib.Der
import RdpProxy.Rdp.TsCredentials
import RdpProxy.Lib.Sweep
import RdpProxy.Tracker.StartupFlush
import RdpProxy.Lib.Paging
import RdpProxy.Admin.HistoryPages
import RdpProxy.Lib.Http
import RdpProxy.Acme.ChallengeServer
import RdpProxy.Acme.ChallengeReady
import RdpProxy.Lib.KeyScan
import RdpProxy.Admin.ActivePage
import RdpProxy.Config.SettingsPage
import RdpProxy.Lib.CappedList
import RdpProxy.Metrics.Collector
