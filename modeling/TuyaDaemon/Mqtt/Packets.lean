import TuyaDaemon.CLib.Strings

/-!
# Packets of the broker

The decoders of `core_mqtt_serializer.c` for the packets that arrive while a client is connected: the acknowledgements
(`mqttDeserializeAck`) and incoming publishes (`mqttDeserializePublish`).  A packet is its first byte and the bytes
behind the remaining length, which `core_mqtt.c` has read into its buffer.
-/

namespace TuyaDaemon

/-- `MQTTStatus_t` -/
inductive MQTTStatus where
  | success
  | badParameter
  | noMemory
  | sendFailed
  | recvFailed
  | badResponse
  | serverRefused
  | noDataAvailable
  | illegalState
  | stateCollision
  | keepAliveTimeout
  | notAuthorized
deriving DecidableEq, Repr

abbrev mqttPacketTypePublish : UInt8 := 0x30
abbrev mqttPacketTypePuback : UInt8 := 0x40
abbrev mqttPacketTypePubrec : UInt8 := 0x50
abbrev mqttPacketTypePubrel : UInt8 := 0x62
abbrev mqttPacketTypePubcomp : UInt8 := 0x70
abbrev mqttPacketTypeSuback : UInt8 := 0x90
abbrev mqttPacketTypeUnsuback : UInt8 := 0xB0
abbrev mqttPacketTypePingresp : UInt8 := 0xD0

/-- `MQTTPacketInfo_t`: `remainingLength` is the length of the data. -/
structure MQTTPacketInfo where
  type : UInt8
  remainingData : List UInt8
deriving DecidableEq, Repr

/-- The lower four bits of a publish are flags. -/
def MQTTPacketInfo.isPublish (packet : MQTTPacketInfo) : Bool := packet.type &&& 0xF0 == mqttPacketTypePublish

/-- `UINT16_DECODE`, on data that was checked to have two bytes. -/
def uint16Decode : List UInt8 → UInt16
  | high :: low :: _ => (high.toUInt16 <<< 8) ||| low.toUInt16
  | _ => 0

/-! ### Acknowledgements -/

/-- The loop of `readSubackStatus`: a refusal is remembered, a bad code ends the loop. -/
def readSubackStatusFrom (status : MQTTStatus) : List UInt8 → MQTTStatus
  | [] => status
  | code :: codes =>
    if code = 0x00 ∨ code = 0x01 ∨ code = 0x02 then readSubackStatusFrom status codes
    else if code = 0x80 then readSubackStatusFrom .serverRefused codes
    else .badResponse

def readSubackStatus (codes : List UInt8) : MQTTStatus := readSubackStatusFrom .success codes

/-- `deserializeSuback`: the status and the packet identifier. -/
def deserializeSuback (packet : MQTTPacketInfo) : MQTTStatus × UInt16 :=
  if packet.remainingData.length < 3 then (.badResponse, 0)
  else (readSubackStatus (packet.remainingData.drop 2), uint16Decode packet.remainingData)

def deserializeSimpleAck (packet : MQTTPacketInfo) : MQTTStatus × UInt16 :=
  if packet.remainingData.length ≠ 2 then (.badResponse, 0)
  else
    let packetIdentifier := uint16Decode packet.remainingData
    if packetIdentifier = 0 then (.badResponse, packetIdentifier) else (.success, packetIdentifier)

def deserializePingresp (packet : MQTTPacketInfo) : MQTTStatus :=
  if packet.remainingData.length ≠ 0 then .badResponse else .success

/-- `MQTT_DeserializeAck`, for the packets that arrive after the CONNACK. -/
def mqttDeserializeAck (packet : MQTTPacketInfo) : MQTTStatus × UInt16 :=
  if packet.type = mqttPacketTypeSuback then deserializeSuback packet
  else if packet.type = mqttPacketTypePingresp then (deserializePingresp packet, 0)
  else if packet.type = mqttPacketTypeUnsuback ∨ packet.type = mqttPacketTypePuback ∨
      packet.type = mqttPacketTypePubrec ∨ packet.type = mqttPacketTypePubrel ∨
      packet.type = mqttPacketTypePubcomp then deserializeSimpleAck packet
  else (.badResponse, 0)

/-- A topic filter was granted. -/
def Granted (code : UInt8) : Prop := code = 0x00 ∨ code = 0x01 ∨ code = 0x02

private theorem readSubackStatusFrom_refused (codes : List UInt8) :
    readSubackStatusFrom .serverRefused codes ≠ .success := by
  induction codes with
  | nil => simp [readSubackStatusFrom]
  | cons code codes ih =>
    unfold readSubackStatusFrom
    split
    · exact ih
    · split
      · exact ih
      · simp

/-- A SUBACK is successful exactly when the broker granted every filter. -/
theorem readSubackStatus_eq_success_iff (codes : List UInt8) :
    readSubackStatus codes = .success ↔ ∀ code ∈ codes, Granted code := by
  show readSubackStatusFrom .success codes = .success ↔ _
  induction codes with
  | nil => simp [readSubackStatusFrom]
  | cons code codes ih =>
    rw [List.forall_mem_cons, ← ih, readSubackStatusFrom]
    by_cases hg : code = 0x00 ∨ code = 0x01 ∨ code = 0x02
    · rw [if_pos hg]
      exact ⟨fun h => ⟨hg, h⟩, fun h => h.2⟩
    · rw [if_neg hg]
      constructor
      · intro h
        split at h
        · exact absurd h (readSubackStatusFrom_refused codes)
        · cases h
      · intro h
        exact absurd h.1 hg

/-! ### Publishes -/

inductive MQTTQoS where
  | qos0
  | qos1
  | qos2
deriving DecidableEq, Repr

/-- `MQTTPublishInfo_t`; the payload pointer is `NULL` when the payload is empty. -/
structure MQTTPublishInfo where
  qos : MQTTQoS
  retain : Bool
  dup : Bool
  topicName : List UInt8
  payload : List UInt8
  /-- the length is a `uint16_t` -/
  topicNameLength : topicName.length < 65536

/-- `processPublishFlags`: the quality of service, or `none` when both of its bits are set. -/
def publishQoS (type : UInt8) : Option MQTTQoS :=
  if type &&& 4 ≠ 0 then
    if type &&& 2 ≠ 0 then none else some .qos2
  else if type &&& 2 ≠ 0 then some .qos1 else some .qos0

/-- The bytes of the packet identifier. -/
def MQTTQoS.idLength : MQTTQoS → Nat
  | .qos0 => 0
  | _ => 2

/-- `MQTT_DeserializePublish`: the packet identifier, which is left at `0` for QoS 0, and the publish. -/
def mqttDeserializePublish (packet : MQTTPacketInfo) : Except MQTTStatus (UInt16 × MQTTPublishInfo) :=
  match publishQoS packet.type with
  | none => .error .badResponse
  | some qos =>
    if packet.remainingData.length < 3 + qos.idLength then .error .badResponse
    else
      let topicNameLength := (uint16Decode packet.remainingData).toNat
      if packet.remainingData.length < topicNameLength + 2 + qos.idLength then .error .badResponse
      else
        let topicName := (packet.remainingData.drop 2).take topicNameLength
        let behindTopic := packet.remainingData.drop (2 + topicNameLength)
        let packetIdentifier := if qos = .qos0 then 0 else uint16Decode behindTopic
        if qos ≠ .qos0 ∧ packetIdentifier = 0 then .error .badResponse
        else .ok (packetIdentifier, {
          qos := qos
          retain := packet.type &&& 1 ≠ 0
          dup := packet.type &&& 8 ≠ 0
          topicName := topicName
          payload := behindTopic.drop qos.idLength
          topicNameLength := by
            have htake : topicName.length ≤ topicNameLength := List.length_take_le _ _
            have hlt : topicNameLength < 2 ^ 16 := UInt16.toNat_lt _
            omega })

end TuyaDaemon
