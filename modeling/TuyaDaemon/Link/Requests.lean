import TuyaDaemon.Link.MessageSend

/-!
# The requests of the link core

The request functions of `tuyalink_core.h`, and the topics that the names of the enumerators spell.  Each function is a
send of one enumerator (`Operation.request_eq`), under the device id it is given or under that of the context.
-/

namespace TuyaDaemon

open CLib

/-! ### The names of the enumerators -/

namespace ThingType

/-- The topic that the name of an enumerator spells. -/
def topicName : ThingType → List UInt8
  | modelGet => bytes "thing/model/get"
  | modelRsp => bytes "thing/model/get_response"
  | propertyReport => bytes "thing/property/report"
  | propertyReportRsp => bytes "thing/property/report_response"
  | propertySet => bytes "thing/property/set"
  | propertySetRsp => bytes "thing/property/set_response"
  | propertyDesiredGet => bytes "thing/property/desired/get"
  | propertyDesiredGetRsp => bytes "thing/property/desired/get_response"
  | propertyDesiredDel => bytes "thing/property/desired/delete"
  | propertyDesiredDelRsp => bytes "thing/property/desired/delete_response"
  | eventTrigger => bytes "thing/event/trigger"
  | eventTriggerRsp => bytes "thing/event/trigger_response"
  | actionExecute => bytes "thing/action/execute"
  | actionExecuteRsp => bytes "thing/action/execute_response"
  | batchReport => bytes "thing/data/batch_report"
  | batchReportRsp => bytes "thing/data/batch_report_response"
  | deviceSubBind => bytes "device/sub/bind"
  | deviceSubBindRsp => bytes "device/sub/bind_response"
  | deviceSubLogin => bytes "device/sub/login"
  | deviceSubLogout => bytes "device/sub/logout"
  | deviceTopoAdd => bytes "device/topo/add"
  | deviceTopoAddRsp => bytes "device/topo/add_response"
  | deviceTopoDel => bytes "device/topo/delete"
  | deviceTopoDelRsp => bytes "device/topo/delete_response"
  | deviceTopoGet => bytes "device/topo/get"
  | deviceTopoGetRsp => bytes "device/topo/get_response"
  | otaFirmwareReport => bytes "ota/firmware/report"
  | otaIssue => bytes "ota/issue"
  | otaGet => bytes "ota/get"
  | otaGetRsp => bytes "ota/get_response"
  | otaProgressReport => bytes "ota/progress/report"
  | extTimeRequest => bytes "ext/time/request"
  | extTimeResponse => bytes "ext/time/response"
  | extConfigGet => bytes "ext/config/get"
  | extConfigGetRsp => bytes "ext/config/get_response"
  | extFileUploadRequest => bytes "ext/file/upload/request"
  | extFileUploadResponse => bytes "ext/file/upload/response"
  | extFileDownloadRequest => bytes "ext/file/download/request"
  | extFileDownloadResponse => bytes "ext/file/download/response"
  | channelRawUp => bytes "channel/raw/up"
  | channelRawDown => bytes "channel/raw/down"
  | channelRpcRequest => bytes "channel/rpc/request"
  | channelRpcResponse => bytes "channel/rpc/response"
  | deviceTagReport => bytes "device/tag/report"
  | deviceTagReportResponse => bytes "device/tag/report_response"
  | deviceTagGet => bytes "device/tag/get"
  | deviceTagGetResponse => bytes "device/tag/get_response"
  | deviceTagDelete => bytes "device/tag/delete"
  | deviceTagDeleteResponse => bytes "device/tag/delete_response"
  | max => []
  | unknown => []

end ThingType

/-! ### The requests -/

section Requests

variable {σ : Type} (env : SendEnv) (publish : Publish → σ → UInt16 × σ) (context : TuyaMqttContext)

/-- The body of the requests that need data. -/
def sendData (type : ThingType) (ack : Bool) (deviceId data : Option CString) (world : σ) : Option (SendResult σ) :=
  if data.isNone then some ⟨oprtInvalidParm, context, world⟩
  else tuyalinkMessageSend env publish context (requestMessage type deviceId data ack) world

/-- The same under the device id of the context. -/
def sendOwnData (type : ThingType) (data : Option CString) (world : σ) : Option (SendResult σ) :=
  sendData env publish context type false (some context.config.deviceId) data world

def tuyalinkThingDataModelGet (deviceId : Option CString) (world : σ) : Option (SendResult σ) :=
  tuyalinkMessageSend env publish context
    (requestMessage .modelGet deviceId (some ⟨bytes "\x7b\"format\":\"simple\"\x7d", by decide, by decide⟩) false) world

def tuyalinkThingPropertyReportWithAck (deviceId data : Option CString) (world : σ) : Option (SendResult σ) :=
  sendData env publish context .propertyReport true deviceId data world

def tuyalinkThingEventTrigger (deviceId data : Option CString) (world : σ) : Option (SendResult σ) :=
  sendData env publish context .eventTrigger false deviceId data world

def tuyalinkThingDesiredGet (deviceId data : Option CString) (world : σ) : Option (SendResult σ) :=
  sendData env publish context .propertyDesiredGet false deviceId data world

def tuyalinkThingBatchReport (data : Option CString) (world : σ) : Option (SendResult σ) :=
  sendOwnData env publish context .batchReport data world

def tuyalinkSubdeviceBind (data : Option CString) (world : σ) : Option (SendResult σ) :=
  sendOwnData env publish context .deviceSubBind data world

def tuyalinkSubdeviceBindLogin (data : Option CString) (world : σ) : Option (SendResult σ) :=
  sendOwnData env publish context .deviceSubLogin data world

def tuyalinkSubdeviceBindLogout (data : Option CString) (world : σ) : Option (SendResult σ) :=
  sendOwnData env publish context .deviceSubLogout data world

def tuyalinkSubdeviceTopoAdd (data : Option CString) (world : σ) : Option (SendResult σ) :=
  sendOwnData env publish context .deviceTopoAdd data world

def tuyalinkSubdeviceTopoDelete (data : Option CString) (world : σ) : Option (SendResult σ) :=
  sendOwnData env publish context .deviceTopoDel data world

def tuyalinkSubdeviceTopoGet (world : σ) : Option (SendResult σ) :=
  tuyalinkMessageSend env publish context (requestMessage .deviceTopoGet (some context.config.deviceId) none false) world

def tuyalinkOtaFirmwareReport (deviceId data : Option CString) (world : σ) : Option (SendResult σ) :=
  sendData env publish context .otaFirmwareReport false deviceId data world

def tuyalinkOtaGet (deviceId : Option CString) (world : σ) : Option (SendResult σ) :=
  tuyalinkMessageSend env publish context
    (requestMessage .otaGet deviceId (some ⟨bytes "\x7b\x7d", by decide, by decide⟩) false) world

def tuyalinkOtaProgressReport (deviceId data : Option CString) (world : σ) : Option (SendResult σ) :=
  sendData env publish context .otaProgressReport false deviceId data world

def tuyalinkTimeGet (data : Option CString) (world : σ) : Option (SendResult σ) :=
  sendOwnData env publish context .extTimeRequest data world

def tuyalinkFileUpload (data : Option CString) (world : σ) : Option (SendResult σ) :=
  sendOwnData env publish context .extFileUploadRequest data world

def tuyalinkFileDownload (data : Option CString) (world : σ) : Option (SendResult σ) :=
  sendOwnData env publish context .extFileDownloadRequest data world

def tuyalinkRemoteConfigGet (data : Option CString) (world : σ) : Option (SendResult σ) :=
  sendOwnData env publish context .extConfigGet data world

def tuyalinkRawUp (data : Option CString) (world : σ) : Option (SendResult σ) :=
  sendOwnData env publish context .channelRawUp data world

def tuyalinkRpcCall (data : Option CString) (world : σ) : Option (SendResult σ) :=
  sendOwnData env publish context .channelRpcRequest data world

def tuyalinkTagReport (data : Option CString) (world : σ) : Option (SendResult σ) :=
  sendOwnData env publish context .deviceTagReport data world

def tuyalinkTagGet (data : Option CString) (world : σ) : Option (SendResult σ) :=
  sendOwnData env publish context .deviceTagGet data world

def tuyalinkTagDelete (data : Option CString) (world : σ) : Option (SendResult σ) :=
  sendOwnData env publish context .deviceTagDelete data world

end Requests

/-- The operations of the interface, one for each request function. -/
inductive Operation where
  | thingDataModelGet
  | thingPropertyReport
  | thingPropertyReportWithAck
  | thingEventTrigger
  | thingDesiredGet
  | thingBatchReport
  | subdeviceBind
  | subdeviceBindLogin
  | subdeviceBindLogout
  | subdeviceTopoAdd
  | subdeviceTopoDelete
  | subdeviceTopoGet
  | otaFirmwareReport
  | otaGet
  | otaProgressReport
  | timeGet
  | fileUpload
  | fileDownload
  | remoteConfigGet
  | rawUp
  | rpcCall
  | tagReport
  | tagGet
  | tagDelete
deriving DecidableEq, Repr

namespace Operation

/-- The call of the function; some functions take no device id, and some no data. -/
def request {σ : Type} (op : Operation) (env : SendEnv) (publish : Publish → σ → UInt16 × σ)
    (context : TuyaMqttContext) (deviceId data : Option CString) (world : σ) : Option (SendResult σ) :=
  match op with
  | thingDataModelGet => tuyalinkThingDataModelGet env publish context deviceId world
  | thingPropertyReport => tuyalinkThingPropertyReport env publish context deviceId data world
  | thingPropertyReportWithAck => tuyalinkThingPropertyReportWithAck env publish context deviceId data world
  | thingEventTrigger => tuyalinkThingEventTrigger env publish context deviceId data world
  | thingDesiredGet => tuyalinkThingDesiredGet env publish context deviceId data world
  | thingBatchReport => tuyalinkThingBatchReport env publish context data world
  | subdeviceBind => tuyalinkSubdeviceBind env publish context data world
  | subdeviceBindLogin => tuyalinkSubdeviceBindLogin env publish context data world
  | subdeviceBindLogout => tuyalinkSubdeviceBindLogout env publish context data world
  | subdeviceTopoAdd => tuyalinkSubdeviceTopoAdd env publish context data world
  | subdeviceTopoDelete => tuyalinkSubdeviceTopoDelete env publish context data world
  | subdeviceTopoGet => tuyalinkSubdeviceTopoGet env publish context world
  | otaFirmwareReport => tuyalinkOtaFirmwareReport env publish context deviceId data world
  | otaGet => tuyalinkOtaGet env publish context deviceId world
  | otaProgressReport => tuyalinkOtaProgressReport env publish context deviceId data world
  | timeGet => tuyalinkTimeGet env publish context data world
  | fileUpload => tuyalinkFileUpload env publish context data world
  | fileDownload => tuyalinkFileDownload env publish context data world
  | remoteConfigGet => tuyalinkRemoteConfigGet env publish context data world
  | rawUp => tuyalinkRawUp env publish context data world
  | rpcCall => tuyalinkRpcCall env publish context data world
  | tagReport => tuyalinkTagReport env publish context data world
  | tagGet => tuyalinkTagGet env publish context data world
  | tagDelete => tuyalinkTagDelete env publish context data world

/-- The enumerator that is meant by the name of the function. -/
def type : Operation → ThingType
  | thingDataModelGet => .modelGet
  | thingPropertyReport => .propertyReport
  | thingPropertyReportWithAck => .propertyReport
  | thingEventTrigger => .eventTrigger
  | thingDesiredGet => .propertyDesiredGet
  | thingBatchReport => .batchReport
  | subdeviceBind => .deviceSubBind
  | subdeviceBindLogin => .deviceSubLogin
  | subdeviceBindLogout => .deviceSubLogout
  | subdeviceTopoAdd => .deviceTopoAdd
  | subdeviceTopoDelete => .deviceTopoDel
  | subdeviceTopoGet => .deviceTopoGet
  | otaFirmwareReport => .otaFirmwareReport
  | otaGet => .otaGet
  | otaProgressReport => .otaProgressReport
  | timeGet => .extTimeRequest
  | fileUpload => .extFileUploadRequest
  | fileDownload => .extFileDownloadRequest
  | remoteConfigGet => .extConfigGet
  | rawUp => .channelRawUp
  | rpcCall => .channelRpcRequest
  | tagReport => .deviceTagReport
  | tagGet => .deviceTagGet
  | tagDelete => .deviceTagDelete

/-- The enumerator of the response, for the operations that have one. -/
def response : Operation → Option ThingType
  | thingDataModelGet => some .modelRsp
  | thingPropertyReport => some .propertyReportRsp
  | thingPropertyReportWithAck => some .propertyReportRsp
  | thingEventTrigger => some .eventTriggerRsp
  | thingDesiredGet => some .propertyDesiredGetRsp
  | thingBatchReport => some .batchReportRsp
  | subdeviceBind => some .deviceSubBindRsp
  | subdeviceTopoAdd => some .deviceTopoAddRsp
  | subdeviceTopoDelete => some .deviceTopoDelRsp
  | subdeviceTopoGet => some .deviceTopoGetRsp
  | otaGet => some .otaGetRsp
  | timeGet => some .extTimeResponse
  | fileUpload => some .extFileUploadResponse
  | fileDownload => some .extFileDownloadResponse
  | remoteConfigGet => some .extConfigGetRsp
  | rpcCall => some .channelRpcResponse
  | tagReport => some .deviceTagReportResponse
  | tagGet => some .deviceTagGetResponse
  | tagDelete => some .deviceTagDeleteResponse
  | subdeviceBindLogin | subdeviceBindLogout | otaFirmwareReport | otaProgressReport | rawUp => none

/-- The function takes a device id; the others use that of the context. -/
def TakesDeviceId (op : Operation) : Prop :=
  op ∈ [thingDataModelGet, thingPropertyReport, thingPropertyReportWithAck, thingEventTrigger, thingDesiredGet,
    otaFirmwareReport, otaGet, otaProgressReport]

/-- The function refuses a call without data. -/
def NeedsData (op : Operation) : Prop := op ∉ [thingDataModelGet, subdeviceTopoGet, otaGet]

instance (op : Operation) : Decidable op.TakesDeviceId := inferInstanceAs (Decidable (_ ∈ _))

instance (op : Operation) : Decidable op.NeedsData := inferInstanceAs (Decidable (_ ∉ _))

/-- The device id in the topic of a request. -/
def device (op : Operation) (context : TuyaMqttContext) (deviceId : Option CString) : CString :=
  if op.TakesDeviceId then deviceId.getD context.config.deviceId else context.config.deviceId

/-- A request is a send of its enumerator under that device id. -/
theorem request_eq {σ : Type} (op : Operation) (env : SendEnv) (publish : Publish → σ → UInt16 × σ)
    (context : TuyaMqttContext) (deviceId data : Option CString) (hdata : op.NeedsData → data ≠ none) (world : σ) :
    ∃ id data' ack, op.request env publish context deviceId data world =
        tuyalinkMessageSend env publish context (requestMessage op.type id data' ack) world ∧
      id.getD context.config.deviceId = op.device context deviceId := by
  have hsend : op.NeedsData → ∀ type ack id, sendData env publish context type ack id data world =
      tuyalinkMessageSend env publish context (requestMessage type id data ack) world := by
    intro hneeds type ack id
    obtain ⟨s, rfl⟩ := Option.ne_none_iff_exists'.1 (hdata hneeds)
    rfl
  cases op with
  | thingDataModelGet => exact ⟨deviceId, _, _, rfl, rfl⟩
  | subdeviceTopoGet => exact ⟨some context.config.deviceId, _, _, rfl, rfl⟩
  | otaGet => exact ⟨deviceId, _, _, rfl, rfl⟩
  | _ =>
    first
    | exact ⟨deviceId, _, _, hsend (by decide) _ _ deviceId, rfl⟩
    | exact ⟨some context.config.deviceId, _, _, hsend (by decide) _ _ _, rfl⟩

end Operation

end TuyaDaemon
