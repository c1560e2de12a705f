import SipXRouter.Net.SignedUrl
import SipXRouter.Net.SipClientWriteBuffer
import SipXRouter.Net.WaitUntilAvailable
import SipXRouter.Net.TransactionLocks
import SipXRouter.Net.SerialForking
import SipXRouter.Net.SipPublishContentMgr
import SipXRouter.Net.XmlRpcRoundTrip
import SipXRouter.Sipdb.SubscribeDB
import SipXRouter.Registry.SipRedirectServer
import SipXRouter.Proxy.NatMapping
import SipXRouter.Proxy.CallStateEventBuilderXML
import SipXRouter.Proxy.EnforceAuthRules
import SipXRouter.Proxy.Authentication
import SipXRouter.Kamailio.DialogStore
import SipXRouter.Kamailio.ActiveDialog
import SipXRouter.Proxy.ForwardRules
import SipXRouter.Utl.UtlHashIterator
import SipXRouter.Os.OsTimerQueue
import SipXRouter.Net.SipSrvLookup
import SipXRouter.Proxy.PreDispatch
import SipXRouter.Net.HeaderFolding
import SipXRouter.Digitmaps.DialPattern
import SipXRouter.Net.SipResponse
import SipXRouter.Proxy.RouteStateWire
import SipXRouter.Net.HeaderOptions
import SipXRouter.Net.ResQuery
import SipXRouter.Net.FixedBuffers
import SipXRouter.Net.CSeqField
import SipXRouter.Net.PercentDecoding
import SipXRouter.Net.FieldParamEscape
import SipXRouter.Net.ViaTag
import SipXRouter.Net.UrlParamSet
import SipXRouter.Os.OsDateTime
import SipXRouter.Utl.UtlStringHash
import SipXRouter.Utl.UtlSortedList
import SipXRouter.Net.TransactionLinks
import SipXRouter.Net.TransactionTouch
import SipXRouter.Net.UriRecursed
import SipXRouter.Net.TransactionStates
import SipXRouter.Registry.ExpiresParam
import SipXRouter.Registry.GrantedExpires
import SipXRouter.Net.SubscriptionTimes
import SipXRouter.Net.ResendTimer
import SipXRouter.Proxy.SubscriptionAuth
import SipXRouter.Proxy.TransferControl
import SipXRouter.Proxy.RequestLinter
import SipXRouter.Utl.XmlUnEscape
import SipXRouter.Os.ConfigRoundTrip
import SipXRouter.Net.AttributeScan
import SipXRouter.Net.RateLimitRanges
import SipXRouter.Sipdb.AliasIdentity
import SipXRouter.Digitmaps.MappingRulesUrlMapping
import SipXRouter.Net.SdpAnswer
import SipXRouter.Net.SdpCrypto
import SipXRouter.Registry.RegisterStore
import SipXRouter.Net.ProxyRoutes
