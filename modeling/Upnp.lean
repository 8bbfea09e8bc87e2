import Upnp.Gena.Ordering
import Upnp.Http.Accounting
import Upnp.Http.Response
import Upnp.Dom.LinkInvariant
import Upnp.Gena.LinkedAccounting
import Upnp.Timer.Accounting
import Upnp.Tpool.Accounting
import Upnp.Web.AliasLifetime
import Upnp.Web.GetFilename
import Upnp.Web.TokenStream
import Upnp.MiniServer.RequestBody
import Upnp.GenaClient.AutoRenewUnique
import Upnp.Gena.Wire
import Upnp.Web.CharReader
import Upnp.Ssdp.NullPointers
import Upnp.Web.DotSegments
import Upnp.Gena.CallbackList
import Upnp.Util.MembufferRefinement
import Upnp.Gena.SharedMemory
import Upnp.ServiceTable.Extraction
import Upnp.Advertise.Description
import Upnp.Uri.Resolution
import Upnp.Api.HandleLock
import Upnp.Gena.Lifetime
import Upnp.Gena.SidMatching
import Upnp.GenaClient.NotifyReceived
import Upnp.GenaClient.Renewal
import Upnp.Gena.Capacity
import Upnp.GenaClient.RequestText
import Upnp.Gena.Allocations
import Upnp.Gena.PropertySet
import Upnp.ServiceTable.FindByPath
import Upnp.ServiceTable.Completeness
import Upnp.HttpMessage.Headers
import Upnp.HttpMessage.HeaderValue
import Upnp.HttpMessage.StartLine
import Upnp.Uri.Port
import Upnp.Api.Download
import Upnp.Http.BodyReads
import Upnp.Http.Pieces
import Upnp.Http.FreedOnce
import Upnp.Ssdp.ReplyDelay
import Upnp.Ssdp.Search
import Upnp.Soap.EventPacket
import Upnp.Soap.Control
import Upnp.Soap.StatusLine
import Upnp.Xml.Reference
import Upnp.Dom.AppendHistory
import Upnp.Dom.TagNames
import Upnp.Dom.NonEscaped
import Upnp.Xml.Attributes
import Upnp.Api.Builders
import Upnp.Api.Urlbase
import Upnp.MiniServer.LineStream
import Upnp.MiniServer.ContentLength
import Upnp.MiniServer.Dispatch
import Upnp.Web.MediaOrder
import Upnp.Web.LoadNum
import Upnp.Web.CommaList
import Upnp.Web.Lex
import Upnp.Web.CacheDirective
import Upnp.Web.QValue
import Upnp.Web.MediaText
import Upnp.Web.SortedList
import Upnp.Web.LanguageTag
import Upnp.Web.AcceptLists
import Upnp.Api.HandleTable
import Upnp.Lib.BinarySearch
import Upnp.Web.MediaType
import Upnp.Web.SendMessage
import Upnp.Web.RequestLine
import Upnp.Util.DblList
import Upnp.Util.DblListRuns
import Upnp.Util.GmtDate
import Upnp.Util.GmtDateBounds
import Upnp.Util.GmtDateRoundTrip
import Upnp.Util.XString
import Upnp.Util.XStringRefinement
import Upnp.Util.XStringDefects
import Upnp.Dom.Teardown
import Upnp.Gena.CallbackCopy
import Upnp.Dom.ReadBack
import Upnp.Soap.Envelope
import Upnp.Soap.RoundTrip
import Upnp.HttpMessage.HeaderBlock
import Upnp.MiniServer.SentRequest
import Upnp.GenaClient.EventDelivery
import Upnp.Soap.Posted
import Upnp.Web.Entity
import Upnp.Web.EntityReading
import Upnp.Lib.Substring
import Upnp.Ssdp.Discovery
