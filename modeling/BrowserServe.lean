import BrowserServe.Library.Transition
import BrowserServe.Library.Tasks
import BrowserServe.Library.Semaphore
import BrowserServe.Library.Framing
import BrowserServe.Library.Keyed
import BrowserServe.Library.Async
import BrowserServe.Library.Search
import BrowserServe.Library.IpAddr
import BrowserServe.Library.Utf8
import BrowserServe.Library.FormUrl
import BrowserServe.Library.Transfer
import BrowserServe.Library.Program
import BrowserServe.Library.Base64
import BrowserServe.Library.FileTree
import BrowserServe.Library.FilePath
import BrowserServe.Library.Removal
import BrowserServe.Library.Faults
import BrowserServe.Library.Limits
import BrowserServe.PoolState
import BrowserServe.PoolStep
import BrowserServe.PoolCapacity
import BrowserServe.PoolOwnership
import BrowserServe.PoolCeiling
import BrowserServe.PoolClosing
import BrowserServe.PoolReserve
import BrowserServe.PoolQueue
import BrowserServe.PoolWarm
import BrowserServe.BridgeState
import BrowserServe.BridgeStep
import BrowserServe.BridgeFraming
import BrowserServe.BridgeMessages
import BrowserServe.BridgeClose
import BrowserServe.BridgeIdle
import BrowserServe.ResumeState
import BrowserServe.ResumeStep
import BrowserServe.ResumeExclusive
import BrowserServe.ResumeDelivery
import BrowserServe.ResumeWindow
import BrowserServe.Json
import BrowserServe.CdpClient
import BrowserServe.PipeLife
import BrowserServe.PipeEffect
import BrowserServe.PipeReplies
import BrowserServe.PipeClients
import BrowserServe.PipeFrames
import BrowserServe.Cookie
import BrowserServe.LocalStorage
import BrowserServe.LocalStorageRead
import BrowserServe.Manifest
import BrowserServe.TemplateClone
import BrowserServe.ManifestSeed
import BrowserServe.ManifestExtract
import BrowserServe.Rss
import BrowserServe.FlagMerge
import BrowserServe.TokenlessOrigin
import BrowserServe.ProfileStore
import BrowserServe.ProfileHandOff
import BrowserServe.ProfileSession
import BrowserServe.ProfileTokens
import BrowserServe.ProfileCodec
import BrowserServe.CookieSanitize
import BrowserServe.ProxyHead
import BrowserServe.ProxyHeadLimit
import BrowserServe.ProxyDial
import BrowserServe.ProxyRelay
import BrowserServe.ProxyTunnel
import BrowserServe.ProxyResponse
import BrowserServe.ProxyLogin
import BrowserServe.ProxyParse
import BrowserServe.ProxyEscapes
import BrowserServe.ProxyRoundTrip
import BrowserServe.ProxyAddress
import BrowserServe.ProxyRewrite
import BrowserServe.ProxyTarget
import BrowserServe.ProxySocks
import BrowserServe.ServerState
import BrowserServe.ServerStep
import BrowserServe.ServerParts
import BrowserServe.ServerAnswers
import BrowserServe.ServerSingleUse
import BrowserServe.ServerRelays
import BrowserServe.ServerProxied
import BrowserServe.ServerCeiling
import BrowserServe.Capacity
import BrowserServe.Config
import BrowserServe.ConnectUrl
import BrowserServe.ProxySwitches
import BrowserServe.ChromeFlags
import BrowserServe.ChromeLaunch
import BrowserServe.Factory
import BrowserServe.SessionHost
import BrowserServe.TemplateSeal
import BrowserServe.ProvisionDirs
import BrowserServe.MemoryCap
import BrowserServe.LaunchCleanup
import BrowserServe.Teardown
import BrowserServe.NavigateStub
import BrowserServe.ProfileLoad
import BrowserServe.LaunchRefused
import BrowserServe.ServerHttp
import BrowserServe.ServerPressure
import BrowserServe.SandboxRequired
import BrowserServe.ProxyOneRequest
import BrowserServe.CalibrateAcks
import BrowserServe.CalibrateRamp
import BrowserServe.ServerOwners
import BrowserServe.ConfigLoad
import BrowserServe.SessionLife
import BrowserServe.Library.SemaphoreOrder
import BrowserServe.PoolOrder
import BrowserServe.BridgeDelivery
import BrowserServe.Library.Progress
import BrowserServe.ProxyAccept
import BrowserServe.ProfileDelivery
import BrowserServe.PoolRest
import BrowserServe.SessionApart
import BrowserServe.ServerRest
