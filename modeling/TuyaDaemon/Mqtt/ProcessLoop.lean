import TuyaDaemon.CLib.Blocks
import TuyaDaemon.Mqtt.Packets

/-!
# The process loop

`MQTT_ProcessLoop` of `core_mqtt.c` with the functions it calls, over the state of a client and of the application
behind it (`World`).  What comes from outside in one pass of the loop is a `Pass`: the packet that was read and how
reading it, the publish records and the sends went; all of it is arbitrary.  A property that the application callback
and the bookkeeping of keep-alive preserve holds after every loop (`LoopInvariant.processLoop`).
-/

namespace TuyaDaemon

open CLib

/-- The fields of `MQTTContext_t` that are read after the initialisation. -/
structure MQTTContext where
  nextPacketId : UInt16
  keepAliveIntervalSec : UInt16
  lastPacketTime : UInt32
  pingReqSendTimeMs : UInt32
  waitingForPingResp : Bool
deriving DecidableEq, Repr

def MQTTContext.zero : MQTTContext := ⟨0, 0, 0, 0, false⟩

/-- The context after `MQTT_Init`: packet identifiers start at `1`. -/
def MQTTContext.init : MQTTContext := { MQTTContext.zero with nextPacketId := 1 }

/-- What a client does and sees; `υ` is the state behind its `userdata`. -/
inductive Event (υ : Type) where
  | networkConnect (ok : Bool)
  | networkDisconnect
  | mqttConnect (status : MQTTStatus)
  | subscribe (id : UInt16) (topic : List UInt8) (status : MQTTStatus)
  | unsubscribe (id : UInt16) (topic : List UInt8) (status : MQTTStatus)
  | publish (id : UInt16) (topic payload : List UInt8) (status : MQTTStatus)
  /-- a SUBACK that was handed to the client, with the states before and after -/
  | suback (id : UInt16) (result : MQTTStatus) (before after : υ)
  /-- the client handled a disconnect -/
  | disconnected
  /-- the callbacks of the application -/
  | onConnected
  | onDisconnect
  /-- a message whose topic was read behind its end -/
  | readOutside

structure World (κ υ : Type) where
  mqclient : MQTTContext
  user : υ
  heap : Heap κ
  /-- oldest first -/
  trace : List (Event υ)

/-- `MQTTDeserializedInfo_t` -/
structure MQTTDeserializedInfo where
  packetIdentifier : UInt16
  publishInfo : Option MQTTPublishInfo
  deserializationResult : MQTTStatus

abbrev MQTTEventCallback (κ υ : Type) := MQTTPacketInfo → MQTTDeserializedInfo → World κ υ → World κ υ

/-- What comes from outside in one pass of the loop. -/
structure Pass where
  /-- `MQTT_GetIncomingPacketTypeAndLength` -/
  header : MQTTStatus
  /-- `receivePacket` -/
  body : MQTTStatus
  packet : MQTTPacketInfo
  /-- the two readings of the clock in `handleKeepAlive` -/
  now : UInt32
  later : UInt32
  pingSent : Bool
  /-- `MQTT_UpdateStatePublish` and `MQTT_UpdateStateAck` -/
  publishState : MQTTStatus
  /-- `sendPublishAcks` -/
  ackSent : MQTTStatus

namespace World

variable {κ υ : Type}

def log (e : Event υ) (w : World κ υ) : World κ υ := { w with trace := w.trace ++ [e] }

@[simp] theorem log_trace (e : Event υ) (w : World κ υ) : (w.log e).trace = w.trace ++ [e] := rfl

@[simp] theorem log_user (e : Event υ) (w : World κ υ) : (w.log e).user = w.user := rfl

@[simp] theorem log_mqclient (e : Event υ) (w : World κ υ) : (w.log e).mqclient = w.mqclient := rfl

@[simp] theorem log_heap (e : Event υ) (w : World κ υ) : (w.log e).heap = w.heap := rfl

end World

/-! ### Keep-alive -/

/-- `MQTT_PINGRESP_TIMEOUT_MS` -/
abbrev mqttPingrespTimeoutMs : UInt32 := 60000

def mqttPing (sent : Bool) (mqclient : MQTTContext) : MQTTStatus × MQTTContext :=
  if sent then
    (.success, { mqclient with pingReqSendTimeMs := mqclient.lastPacketTime, waitingForPingResp := true })
  else (.sendFailed, mqclient)

/-- The first half of `handleKeepAlive`: a ping is due. -/
def sendKeepAlive (pass : Pass) (mqclient : MQTTContext) : MQTTStatus × MQTTContext :=
  let keepAliveMs := 1000 * mqclient.keepAliveIntervalSec.toUInt32
  if keepAliveMs ≠ 0 ∧ keepAliveMs < pass.now - mqclient.lastPacketTime then
    mqttPing pass.pingSent { mqclient with lastPacketTime := pass.now }
  else (.success, mqclient)

def handleKeepAlive (pass : Pass) (mqclient : MQTTContext) : MQTTStatus × MQTTContext :=
  let (status, mqclient) := sendKeepAlive pass mqclient
  if status = .success ∧ mqclient.waitingForPingResp = true ∧
      mqttPingrespTimeoutMs < pass.later - mqclient.pingReqSendTimeMs then (.keepAliveTimeout, mqclient)
  else (status, mqclient)

@[simp] theorem mqttPing_nextPacketId (sent : Bool) (mqclient : MQTTContext) :
    (mqttPing sent mqclient).2.nextPacketId = mqclient.nextPacketId := by
  cases sent <;> rfl

@[simp] theorem sendKeepAlive_nextPacketId (pass : Pass) (mqclient : MQTTContext) :
    (sendKeepAlive pass mqclient).2.nextPacketId = mqclient.nextPacketId := by
  simp only [sendKeepAlive]
  split
  · rw [mqttPing_nextPacketId]
  · rfl

/-- Keep-alive takes no packet identifier. -/
theorem handleKeepAlive_nextPacketId (pass : Pass) (mqclient : MQTTContext) :
    (handleKeepAlive pass mqclient).2.nextPacketId = mqclient.nextPacketId := by
  simp only [handleKeepAlive]
  split <;> exact sendKeepAlive_nextPacketId pass mqclient

/-! ### One pass -/

section Loop

variable {κ υ : Type} (appCallback : MQTTEventCallback κ υ)

/-- A publish of QoS 0 has no record and no acknowledgement. -/
def unlessQoS0 (qos : MQTTQoS) (status : MQTTStatus) : MQTTStatus := if qos = .qos0 then .success else status

def handleIncomingPublish (pass : Pass) (packet : MQTTPacketInfo) (w : World κ υ) : MQTTStatus × World κ υ :=
  match mqttDeserializePublish packet with
  | .error status => (status, w)
  | .ok (packetIdentifier, publishInfo) =>
    let state := unlessQoS0 publishInfo.qos pass.publishState
    let acked := unlessQoS0 publishInfo.qos pass.ackSent
    if state = .success then (acked, appCallback packet ⟨packetIdentifier, some publishInfo, .success⟩ w)
    -- a duplicate is acknowledged again, but not handed to the application
    else if state = .stateCollision then (acked, w)
    else (state, w)

def handlePublishAcks (pass : Pass) (packet : MQTTPacketInfo) (w : World κ υ) : MQTTStatus × World κ υ :=
  let (status, packetIdentifier) := mqttDeserializeAck packet
  if status ≠ .success then (status, w)
  else if pass.publishState ≠ .success then (pass.publishState, w)
  else (pass.ackSent, appCallback packet ⟨packetIdentifier, none, .success⟩ w)

/-- `handleIncomingAck`, with `manageKeepAlive`. -/
def handleIncomingAck (pass : Pass) (packet : MQTTPacketInfo) (w : World κ υ) : MQTTStatus × World κ υ :=
  if packet.type = mqttPacketTypePuback ∨ packet.type = mqttPacketTypePubrec ∨
      packet.type = mqttPacketTypePubrel ∨ packet.type = mqttPacketTypePubcomp then
    handlePublishAcks appCallback pass packet w
  else if packet.type = mqttPacketTypePingresp then
    let (status, _) := mqttDeserializeAck packet
    if status = .success then (status, { w with mqclient := { w.mqclient with waitingForPingResp := false } })
    else (status, w)
  else if packet.type = mqttPacketTypeSuback ∨ packet.type = mqttPacketTypeUnsuback then
    let (status, packetIdentifier) := mqttDeserializeAck packet
    -- a refusal is handed to the application like a success, and the loop goes on
    if status = .success ∨ status = .serverRefused then
      (.success, appCallback packet ⟨packetIdentifier, none, status⟩ w)
    else (status, w)
  else (.badResponse, w)

/-- A packet that was received. -/
def handlePacket (pass : Pass) (w : World κ υ) : MQTTStatus × World κ υ :=
  if pass.packet.isPublish then handleIncomingPublish appCallback pass pass.packet w
  else handleIncomingAck appCallback pass pass.packet w

/-- `MQTTNoDataAvailable` is no error. -/
def noDataIsSuccess (status : MQTTStatus) : MQTTStatus := if status = .noDataAvailable then .success else status

def receiveSingleIteration (pass : Pass) (w : World κ υ) : MQTTStatus × World κ υ :=
  if pass.header = .noDataAvailable then
    let (status, mqclient) := handleKeepAlive pass w.mqclient
    (noDataIsSuccess status, { w with mqclient := mqclient })
  else if pass.header ≠ .success then (pass.header, w)
  else if pass.body ≠ .success then (noDataIsSuccess pass.body, w)
  else
    let (status, w) := handlePacket appCallback pass w
    (noDataIsSuccess status, w)

/-- `MQTT_ProcessLoop`: the first pass is always made, and the time is up after the last one. -/
def mqttProcessLoop : Pass → List Pass → World κ υ → MQTTStatus × World κ υ
  | pass, [], w => receiveSingleIteration appCallback pass w
  | pass, next :: rest, w =>
    match receiveSingleIteration appCallback pass w with
    | (.success, w) => mqttProcessLoop next rest w
    | (status, w) => (status, w)

/-! ### Invariants -/

/-- A property of the world that survives whatever a loop does. -/
structure LoopInvariant (P : World κ υ → Prop) : Prop where
  keepAlive : ∀ (w : World κ υ) (mqclient : MQTTContext), mqclient.nextPacketId = w.mqclient.nextPacketId →
    P w → P { w with mqclient := mqclient }
  callback : ∀ packet info w, P w → P (appCallback packet info w)

namespace LoopInvariant

variable {appCallback} {P : World κ υ → Prop}

theorem handleIncomingPublish (h : LoopInvariant appCallback P) (pass : Pass) (packet : MQTTPacketInfo)
    {w : World κ υ} (hw : P w) : P (handleIncomingPublish appCallback pass packet w).2 := by
  simp only [TuyaDaemon.handleIncomingPublish]
  split
  · exact hw
  · split
    · exact h.callback _ _ _ hw
    · split <;> exact hw

theorem handlePublishAcks (h : LoopInvariant appCallback P) (pass : Pass) (packet : MQTTPacketInfo)
    {w : World κ υ} (hw : P w) : P (handlePublishAcks appCallback pass packet w).2 := by
  simp only [TuyaDaemon.handlePublishAcks]
  split
  · exact hw
  · split
    · exact hw
    · exact h.callback _ _ _ hw

theorem handleIncomingAck (h : LoopInvariant appCallback P) (pass : Pass) (packet : MQTTPacketInfo)
    {w : World κ υ} (hw : P w) : P (handleIncomingAck appCallback pass packet w).2 := by
  simp only [TuyaDaemon.handleIncomingAck]
  split
  · exact h.handlePublishAcks pass packet hw
  · split
    · split
      · exact h.keepAlive w _ rfl hw
      · exact hw
    · split
      · split
        · exact h.callback _ _ _ hw
        · exact hw
      · exact hw

/-- What one pass preserves. -/
theorem receiveSingleIteration (h : LoopInvariant appCallback P) (pass : Pass) {w : World κ υ} (hw : P w) :
    P (receiveSingleIteration appCallback pass w).2 := by
  simp only [TuyaDaemon.receiveSingleIteration]
  split
  · exact h.keepAlive w _ (handleKeepAlive_nextPacketId pass w.mqclient) hw
  · split
    · exact hw
    · split
      · exact hw
      · show P (handlePacket appCallback pass w).2
        unfold handlePacket
        split
        · exact h.handleIncomingPublish pass pass.packet hw
        · exact h.handleIncomingAck pass pass.packet hw

/-- What the loop preserves, by induction on its passes. -/
theorem processLoop (h : LoopInvariant appCallback P) (pass : Pass) (rest : List Pass) {w : World κ υ} (hw : P w) :
    P (mqttProcessLoop appCallback pass rest w).2 := by
  induction rest generalizing pass w with
  | nil => exact h.receiveSingleIteration pass hw
  | cons next rest ih =>
    have hpass := h.receiveSingleIteration pass hw
    unfold mqttProcessLoop
    split
    · rename_i w' heq
      rw [heq] at hpass
      exact ih next hpass
    · rename_i status w' _ heq
      rw [heq] at hpass
      exact hpass

end LoopInvariant

end Loop

end TuyaDaemon
