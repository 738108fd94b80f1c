import TuyaDaemon.CLib.Strings
import TuyaDaemon.CLib.Blocks
import TuyaDaemon.CLib.Snprintf
import TuyaDaemon.CLib.Registry
import TuyaDaemon.Json.Text
import TuyaDaemon.Json.Parse
import TuyaDaemon.Json.Build
import TuyaDaemon.Json.CJsonParse
import TuyaDaemon.Link.Types
import TuyaDaemon.Link.Topic
import TuyaDaemon.Link.MessageParse
import TuyaDaemon.Link.MessageOwnership
import TuyaDaemon.Link.ActionDispatch
import TuyaDaemon.Link.Context
import TuyaDaemon.Link.MessageSend
import TuyaDaemon.Link.TopicRoundTrip
import TuyaDaemon.CLib.Sprintf
import TuyaDaemon.Link.Auth
import TuyaDaemon.Mqtt.Packets
import TuyaDaemon.Mqtt.ProcessLoop
import TuyaDaemon.Mqtt.Client
import TuyaDaemon.Link.LinkCore
import TuyaDaemon.Link.LinkSteps
import TuyaDaemon.Link.SubackHandling
import TuyaDaemon.Link.Registry
import TuyaDaemon.Link.ManualDisconnect
import TuyaDaemon.Json.Scalars
import TuyaDaemon.Telemetry.NetworkInfo
import TuyaDaemon.Telemetry.CpuInfo
import TuyaDaemon.Telemetry.TelemetryJson
import TuyaDaemon.Telemetry.FlatText
import TuyaDaemon.Telemetry.MemoryPressure
import TuyaDaemon.Telemetry.InterfaceReports
import TuyaDaemon.Daemon.TuyaClient
import TuyaDaemon.Mqtt.Session
import TuyaDaemon.Daemon.ConnectionTruth
import TuyaDaemon.Link.PayloadRoundTrip
import TuyaDaemon.Daemon.PendingSubscription
import TuyaDaemon.Daemon.Notifications
import TuyaDaemon.Json.CJsonParse
import TuyaDaemon.Daemon.Action
import TuyaDaemon.Mqtt.Receive
import TuyaDaemon.Mqtt.Reception
import TuyaDaemon.Mqtt.LoopFaults
import TuyaDaemon.Link.EndOfStream
import TuyaDaemon.Link.Lifecycle
import TuyaDaemon.Link.TopicReads
import TuyaDaemon.Link.Requests
import TuyaDaemon.Link.Operations
import TuyaDaemon.Daemon.SendResults
import TuyaDaemon.Platform.CipherWrapper
import TuyaDaemon.CLib.Descriptors
import TuyaDaemon.Platform.TlsSockets
import TuyaDaemon.CLib.Arrays
import TuyaDaemon.Endpoint.IotDns
import TuyaDaemon.Endpoint.Manager
import TuyaDaemon.Endpoint.StoredPair
import TuyaDaemon.Endpoint.Base64
import TuyaDaemon.Endpoint.CloudEndpoint
import TuyaDaemon.Endpoint.Refresh
import TuyaDaemon.CLib.Slots
import TuyaDaemon.Mqtt.PublishRecords
import TuyaDaemon.Mqtt.PublishState
import TuyaDaemon.Mqtt.PublishSession
import TuyaDaemon.Mqtt.SessionResumption
import TuyaDaemon.CLib.Varint
import TuyaDaemon.Mqtt.Framing
import TuyaDaemon.CLib.Codec
import TuyaDaemon.Mqtt.Serializer
import TuyaDaemon.Mqtt.PacketFormat
import TuyaDaemon.Mqtt.Delivery
import TuyaDaemon.Mqtt.Wire
import TuyaDaemon.Mqtt.Connect
import TuyaDaemon.Mqtt.ClientCalls
import TuyaDaemon.Mqtt.ClientRecords
import TuyaDaemon.CLib.Utf8
import TuyaDaemon.CoreJson.Strings
import TuyaDaemon.CoreJson.Scalars
import TuyaDaemon.CoreJson.Validate
import TuyaDaemon.CoreJson.Grammar
import TuyaDaemon.CoreJson.Documents
import TuyaDaemon.CoreJson.Search
import TuyaDaemon.CoreJson.Lookup
import TuyaDaemon.CLib.Realloc
import TuyaDaemon.Json.CJsonPrint
import TuyaDaemon.Json.CJsonRoundTrip
