import TuyaDaemon.CLib.Codec
import TuyaDaemon.Mqtt.Framing

/-!
# Packets of the client

The serializers of `core_mqtt_serializer.c`: each checks its parameters and writes a packet to the front of a buffer,
whose length is the first thing it compares with.  What each of them can do is said behind the formats of the packets.
-/

namespace TuyaDaemon

open CLib

/-! ### Buffers -/

/-- `MQTTFixedBuffer_t`: its bytes; the size is their number. -/
abbrev MQTTFixedBuffer := List UInt8

/-- Bytes that are written to the front.  More than the buffer has would be written behind its end. -/
def MQTTFixedBuffer.write (buffer : MQTTFixedBuffer) (bytes : List UInt8) : MQTTFixedBuffer :=
  bytes ++ buffer.drop bytes.length

theorem MQTTFixedBuffer.length_write {buffer : MQTTFixedBuffer} {bytes : List UInt8}
    (h : bytes.length ≤ buffer.length) : (buffer.write bytes).length = buffer.length := by
  rw [write, List.length_append, List.length_drop]
  omega

theorem MQTTFixedBuffer.take_write (buffer : MQTTFixedBuffer) (bytes : List UInt8) :
    (buffer.write bytes).take bytes.length = bytes := List.take_left

/-- `encodeRemainingLength` -/
def encodeRemainingLength (length : Nat) : List UInt8 := varint length

/-- `UINT16_HIGH_BYTE` and `UINT16_LOW_BYTE` -/
def uint16Bytes (x : UInt16) : List UInt8 := PrefixCode.wordBytes x

/-- `encodeString`; the length is a `uint16_t`. -/
def encodeString (source : List UInt8) : List UInt8 := uint16Bytes (UInt16.ofNat source.length) ++ source

/-! ### Publishes -/

/-- `MQTT_MAX_REMAINING_LENGTH` -/
abbrev mqttMaxRemainingLength : Nat := 268435455

/-- The first byte of a publish in `serializePublishCommon`. -/
def publishFlags (qos : MQTTQoS) (retain dup : Bool) : UInt8 :=
  let flags :=
    match qos with
    | .qos1 => mqttPacketTypePublish ||| 2
    | .qos2 => mqttPacketTypePublish ||| 4
    | .qos0 => mqttPacketTypePublish
  let flags := if retain then flags ||| 1 else flags
  if dup then flags ||| 8 else flags

/-- `calculatePublishPacketSize`: the remaining length and the size of the packet. -/
def calculatePublishPacketSize (publishInfo : MQTTPublishInfo) : Option (Nat × Nat) :=
  let packetSize := publishInfo.topicName.length + 2 + publishInfo.qos.idLength
  let payloadLimit := mqttMaxRemainingLength - packetSize - 1
  if payloadLimit < publishInfo.payload.length then none
  else
    let packetSize := packetSize + publishInfo.payload.length
    let payloadLimit := payloadLimit - remainingLengthEncodedSize packetSize
    if payloadLimit < publishInfo.payload.length then none
    else some (packetSize, packetSize + (1 + remainingLengthEncodedSize packetSize))

def serializePublishCommon (publishInfo : MQTTPublishInfo) (remainingLength : Nat) (packetIdentifier : UInt16)
    (serializePayload : Bool) (buffer : MQTTFixedBuffer) : MQTTFixedBuffer :=
  let packetId := if publishInfo.qos = .qos0 then [] else uint16Bytes packetIdentifier
  let payload := if serializePayload then publishInfo.payload else []
  buffer.write (publishFlags publishInfo.qos publishInfo.retain publishInfo.dup ::
    (encodeRemainingLength remainingLength ++ (encodeString publishInfo.topicName ++ (packetId ++ payload))))

/-- `MQTT_GetPublishPacketSize` -/
def mqttGetPublishPacketSize (publishInfo : MQTTPublishInfo) : Except MQTTStatus (Nat × Nat) :=
  if publishInfo.topicName.length = 0 then .error .badParameter
  else
    match calculatePublishPacketSize publishInfo with
    | none => .error .badParameter
    | some sizes => .ok sizes

/-- The parameters that `MQTT_SerializePublish` and `MQTT_SerializePublishHeader` reject. -/
def publishParametersBad (publishInfo : MQTTPublishInfo) (packetId : UInt16) : Bool :=
  publishInfo.topicName.length == 0 || publishInfo.qos != .qos0 && packetId == 0 ||
    publishInfo.dup && publishInfo.qos == .qos0

/-- `MQTT_SerializePublish` -/
def mqttSerializePublish (publishInfo : MQTTPublishInfo) (packetId : UInt16) (remainingLength : Nat)
    (buffer : MQTTFixedBuffer) : Except MQTTStatus MQTTFixedBuffer :=
  if publishParametersBad publishInfo packetId then .error .badParameter
  else
    let packetSize := 1 + remainingLengthEncodedSize remainingLength + remainingLength
    if buffer.length < packetSize then .error .noMemory
    else .ok (serializePublishCommon publishInfo remainingLength packetId true buffer)

/-- `MQTT_SerializePublishHeader`: the buffer and the size of the header. -/
def mqttSerializePublishHeader (publishInfo : MQTTPublishInfo) (packetId : UInt16) (remainingLength : Nat)
    (buffer : MQTTFixedBuffer) : Except MQTTStatus (MQTTFixedBuffer × Nat) :=
  if publishParametersBad publishInfo packetId then .error .badParameter
  else
    let packetSize := 1 + remainingLengthEncodedSize remainingLength + remainingLength - publishInfo.payload.length
    if buffer.length < packetSize then .error .noMemory
    else .ok (serializePublishCommon publishInfo remainingLength packetId false buffer, packetSize)

/-! ### Subscriptions -/

abbrev mqttPacketTypeSubscribe : UInt8 := 0x82
abbrev mqttPacketTypeUnsubscribe : UInt8 := 0xA2

/-- `MQTTSubscribeInfo_t` -/
structure MQTTSubscribeInfo where
  qos : MQTTQoS
  topicFilter : List UInt8
  /-- the length is a `uint16_t` -/
  topicFilterLength : topicFilter.length < 65536

/-- `MQTTSubscriptionType_t` -/
inductive MQTTSubscriptionType where
  | subscribe
  | unsubscribe
deriving DecidableEq, Repr

/-- The loop of `calculateSubscriptionPacketSize`. -/
def subscriptionsSize (subscriptionType : MQTTSubscriptionType) : List MQTTSubscribeInfo → Nat → Nat
  | [], packetSize => packetSize
  | subscription :: subscriptionList, packetSize =>
    let packetSize := packetSize + (subscription.topicFilter.length + 2)
    subscriptionsSize subscriptionType subscriptionList
      (if subscriptionType = .subscribe then packetSize + 1 else packetSize)

/-- `calculateSubscriptionPacketSize`, with the check of the functions that call it. -/
def calculateSubscriptionPacketSize (subscriptionType : MQTTSubscriptionType)
    (subscriptionList : List MQTTSubscribeInfo) : Except MQTTStatus (Nat × Nat) :=
  if subscriptionList.length = 0 then .error .badParameter
  else
    let packetSize := subscriptionsSize subscriptionType subscriptionList 2
    if mqttMaxRemainingLength < packetSize then .error .badParameter
    else .ok (packetSize, packetSize + (1 + remainingLengthEncodedSize packetSize))

/-- `MQTT_GetSubscribePacketSize` -/
def mqttGetSubscribePacketSize := calculateSubscriptionPacketSize .subscribe

/-- `MQTT_GetUnsubscribePacketSize` -/
def mqttGetUnsubscribePacketSize := calculateSubscriptionPacketSize .unsubscribe

def validateSubscriptionSerializeParams (subscriptionList : List MQTTSubscribeInfo) (packetId : UInt16)
    (remainingLength : Nat) (buffer : MQTTFixedBuffer) : MQTTStatus :=
  if subscriptionList.length = 0 then .badParameter
  else if packetId = 0 then .badParameter
  else
    let packetSize := 1 + remainingLengthEncodedSize remainingLength + remainingLength
    if buffer.length < packetSize then .noMemory else .success

/-- `MQTTQoS_t` as a number. -/
def MQTTQoS.toByte : MQTTQoS → UInt8
  | .qos0 => 0
  | .qos1 => 1
  | .qos2 => 2

/-- The loop of both serializers writes an entry for each topic filter. -/
def serializeSubscriptions (packetType : UInt8) (entry : MQTTSubscribeInfo → List UInt8)
    (subscriptionList : List MQTTSubscribeInfo) (packetId : UInt16) (remainingLength : Nat) (buffer : MQTTFixedBuffer) :
    Except MQTTStatus MQTTFixedBuffer :=
  match validateSubscriptionSerializeParams subscriptionList packetId remainingLength buffer with
  | .success =>
    .ok (buffer.write (packetType ::
      (encodeRemainingLength remainingLength ++ (uint16Bytes packetId ++ subscriptionList.flatMap entry))))
  | status => .error status

def subscribeEntry (subscription : MQTTSubscribeInfo) : List UInt8 :=
  encodeString subscription.topicFilter ++ [subscription.qos.toByte]

def unsubscribeEntry (subscription : MQTTSubscribeInfo) : List UInt8 := encodeString subscription.topicFilter

/-- `MQTT_SerializeSubscribe` -/
def mqttSerializeSubscribe := serializeSubscriptions mqttPacketTypeSubscribe subscribeEntry

/-- `MQTT_SerializeUnsubscribe` -/
def mqttSerializeUnsubscribe := serializeSubscriptions mqttPacketTypeUnsubscribe unsubscribeEntry

/-! ### Connects -/

abbrev mqttPacketTypeConnect : UInt8 := 0x10

/-- Text whose length is a `uint16_t`. -/
abbrev MqttText := {text : List UInt8 // text.length < 65536}

/-- `MQTTConnectInfo_t`; a pointer to a user name or a password may be `NULL`. -/
structure MQTTConnectInfo where
  cleanSession : Bool
  keepAliveSeconds : UInt16
  clientIdentifier : MqttText
  userName : Option MqttText
  password : Option MqttText

/-- The flags in `serializeConnectPacket`, for a will with this quality of service and this retain flag. -/
def connectFlags (cleanSession userName password : Bool) (will : Option (MQTTQoS × Bool)) : UInt8 :=
  let flags : UInt8 := if cleanSession then 0x02 else 0
  let flags := if userName then flags ||| 0x80 else flags
  let flags := if password then flags ||| 0x40 else flags
  match will with
  | none => flags
  | some (qos, retain) =>
    let flags := flags ||| 0x04
    let flags :=
      match qos with
      | .qos1 => flags ||| 0x08
      | .qos2 => flags ||| 0x10
      | .qos0 => flags
    if retain then flags ||| 0x20 else flags

def encodeOption (text : Option MqttText) : List UInt8 :=
  match text with
  | none => []
  | some text => encodeString text.1

def encodeWill (willInfo : Option MQTTPublishInfo) : List UInt8 :=
  match willInfo with
  | none => []
  | some willInfo => encodeString willInfo.topicName ++ encodeString willInfo.payload

def serializeConnectPacket (connectInfo : MQTTConnectInfo) (willInfo : Option MQTTPublishInfo) (remainingLength : Nat)
    (buffer : MQTTFixedBuffer) : MQTTFixedBuffer :=
  let flags := connectFlags connectInfo.cleanSession connectInfo.userName.isSome connectInfo.password.isSome
    (willInfo.map fun willInfo => (willInfo.qos, willInfo.retain))
  buffer.write (mqttPacketTypeConnect :: (encodeRemainingLength remainingLength ++
    (encodeString [0x4D, 0x51, 0x54, 0x54] ++ (4 :: flags ::
      (uint16Bytes connectInfo.keepAliveSeconds ++ (encodeString connectInfo.clientIdentifier.1 ++
        (encodeWill willInfo ++ (encodeOption connectInfo.userName ++ encodeOption connectInfo.password))))))))

/-- What an optional text adds to the size. -/
def optionSize (text : Option MqttText) : Nat :=
  match text with
  | none => 0
  | some text => text.1.length + 2

/-- What a will adds to it. -/
def willSize (willInfo : Option MQTTPublishInfo) : Nat :=
  match willInfo with
  | none => 0
  | some willInfo => willInfo.topicName.length + 2 + willInfo.payload.length + 2

/-- `MQTT_GetConnectPacketSize` -/
def mqttGetConnectPacketSize (connectInfo : MQTTConnectInfo) (willInfo : Option MQTTPublishInfo) :
    Except MQTTStatus (Nat × Nat) :=
  if connectInfo.clientIdentifier.1.length = 0 then .error .badParameter
  else if willInfo.any fun willInfo => 65535 < willInfo.payload.length then .error .badParameter
  else
    let connectPacketSize := 10 + (connectInfo.clientIdentifier.1.length + 2) + willSize willInfo
    let remainingLength := connectPacketSize + optionSize connectInfo.userName + optionSize connectInfo.password
    .ok (remainingLength, remainingLength + (1 + remainingLengthEncodedSize remainingLength))

/-- `MQTT_SerializeConnect` -/
def mqttSerializeConnect (connectInfo : MQTTConnectInfo) (willInfo : Option MQTTPublishInfo) (remainingLength : Nat)
    (buffer : MQTTFixedBuffer) : Except MQTTStatus MQTTFixedBuffer :=
  let connectPacketSize := remainingLength + remainingLengthEncodedSize remainingLength + 1
  if buffer.length < connectPacketSize then .error .noMemory
  else .ok (serializeConnectPacket connectInfo willInfo remainingLength buffer)

/-! ### Packets of fixed size -/

abbrev mqttPacketTypePingreq : UInt8 := 0xC0
abbrev mqttPacketTypeDisconnect : UInt8 := 0xE0

/-- `MQTT_PUBLISH_ACK_PACKET_SIZE` -/
abbrev mqttPublishAckPacketSize : Nat := 4

/-- `MQTT_SerializeAck` -/
def mqttSerializeAck (packetType : UInt8) (packetId : UInt16) (buffer : MQTTFixedBuffer) :
    Except MQTTStatus MQTTFixedBuffer :=
  if buffer.length < mqttPublishAckPacketSize then .error .noMemory
  else if packetId = 0 then .error .badParameter
  else if packetType = mqttPacketTypePuback ∨ packetType = mqttPacketTypePubrec ∨ packetType = mqttPacketTypePubrel ∨
      packetType = mqttPacketTypePubcomp then .ok (buffer.write (packetType :: 2 :: uint16Bytes packetId))
  else .error .badParameter

/-- The packets that are a type and no more. -/
def serializeEmpty (packetType : UInt8) (buffer : MQTTFixedBuffer) : Except MQTTStatus MQTTFixedBuffer :=
  if buffer.length < 2 then .error .noMemory else .ok (buffer.write [packetType, 0])

/-- `MQTT_SerializePingreq` -/
def mqttSerializePingreq := serializeEmpty mqttPacketTypePingreq

/-- `MQTT_SerializeDisconnect` -/
def mqttSerializeDisconnect := serializeEmpty mqttPacketTypeDisconnect

end TuyaDaemon
