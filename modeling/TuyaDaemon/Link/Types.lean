import TuyaDaemon.CLib.Strings

/-!
# Return codes and messages

The part of `tuya_error_code.h` and `tuyalink_core.h` that the other modules share: the `OPRT_` codes, the
enumeration `tuyalink_thing_type_t` in the order of the header, and `tuyalink_message_t`.
-/

namespace TuyaDaemon

abbrev oprtOk : Int := 0
abbrev oprtComError : Int := -1
abbrev oprtInvalidParm : Int := -2
abbrev oprtMallocFailed : Int := -3
abbrev oprtCjsonParseErr : Int := -8
abbrev oprtLinkCoreMqttConnectError : Int := -0x1e0e
abbrev oprtLinkCoreMqttPublishError : Int := -0x1e0f

inductive ThingType where
  | modelGet
  | modelRsp
  | propertyReport
  | propertyReportRsp
  | propertySet
  | propertySetRsp
  | propertyDesiredGet
  | propertyDesiredGetRsp
  | propertyDesiredDel
  | propertyDesiredDelRsp
  | eventTrigger
  | eventTriggerRsp
  | actionExecute
  | actionExecuteRsp
  | batchReport
  | batchReportRsp
  | deviceSubBind
  | deviceSubBindRsp
  | deviceSubLogin
  | deviceSubLogout
  | deviceTopoAdd
  | deviceTopoAddRsp
  | deviceTopoDel
  | deviceTopoDelRsp
  | deviceTopoGet
  | deviceTopoGetRsp
  | otaFirmwareReport
  | otaIssue
  | otaGet
  | otaGetRsp
  | otaProgressReport
  | extTimeRequest
  | extTimeResponse
  | extConfigGet
  | extConfigGetRsp
  | extFileUploadRequest
  | extFileUploadResponse
  | extFileDownloadRequest
  | extFileDownloadResponse
  | channelRawUp
  | channelRawDown
  | channelRpcRequest
  | channelRpcResponse
  | deviceTagReport
  | deviceTagReportResponse
  | deviceTagGet
  | deviceTagGetResponse
  | deviceTagDelete
  | deviceTagDeleteResponse
  | max
  | unknown
deriving DecidableEq, Repr

namespace ThingType

/-- The enumerators in the order of the header: the position of each is its value. -/
def enumerators : List ThingType :=
  [modelGet, modelRsp, propertyReport, propertyReportRsp, propertySet, propertySetRsp, propertyDesiredGet,
    propertyDesiredGetRsp, propertyDesiredDel, propertyDesiredDelRsp, eventTrigger, eventTriggerRsp, actionExecute,
    actionExecuteRsp, batchReport, batchReportRsp, deviceSubBind, deviceSubBindRsp, deviceSubLogin, deviceSubLogout,
    deviceTopoAdd, deviceTopoAddRsp, deviceTopoDel, deviceTopoDelRsp, deviceTopoGet, deviceTopoGetRsp,
    otaFirmwareReport, otaIssue, otaGet, otaGetRsp, otaProgressReport, extTimeRequest, extTimeResponse, extConfigGet,
    extConfigGetRsp, extFileUploadRequest, extFileUploadResponse, extFileDownloadRequest, extFileDownloadResponse,
    channelRawUp, channelRawDown, channelRpcRequest, channelRpcResponse, deviceTagReport, deviceTagReportResponse,
    deviceTagGet, deviceTagGetResponse, deviceTagDelete, deviceTagDeleteResponse, max, unknown]

def toIndex (t : ThingType) : Nat := enumerators.idxOf t

/-- `(tuyalink_thing_type_t)i` -/
def ofIndex (i : Nat) : ThingType := enumerators.getD i unknown

@[simp] theorem ofIndex_toIndex (t : ThingType) : ofIndex t.toIndex = t := by
  cases t <;> rfl

theorem toIndex_ofIndex {i : Nat} (h : i < enumerators.length) : (ofIndex i).toIndex = i := by
  have hall : ∀ i < enumerators.length, (ofIndex i).toIndex = i := by decide
  exact hall i h

end ThingType

/-- `tuyalink_message_t`, over the type of its strings. -/
structure TuyalinkMessage (S : Type) where
  type : ThingType
  deviceId : Option S
  msgid : Option S
  time : UInt64
  code : UInt32
  dataString : Option S
  ack : Bool
deriving DecidableEq, Repr

/-- The message after `memset(&out_message, 0, …)`. -/
def TuyalinkMessage.zero {S : Type} : TuyalinkMessage S := ⟨.modelGet, none, none, 0, 0, none, false⟩

end TuyaDaemon
