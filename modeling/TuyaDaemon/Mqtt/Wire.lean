import TuyaDaemon.Mqtt.PacketFormat
import TuyaDaemon.Mqtt.Receive

/-!
# The wire

The halves of the calls of `core_mqtt.c` that send: each serializes a packet into a buffer of the client and hands it to
`sendPacket`, which writes until all bytes are taken or a write fails.  However the TLS connection splits the writes, the
whole packet goes on the wire, or a piece of it and the call fails, or nothing at all (`CallResult`).
-/

namespace TuyaDaemon

open CLib

/-! ### `sendPacket` -/

/-- What the TLS connection does with a write: it takes so many bytes at most, or returns a negative value. -/
inductive SslWrite where
  | takes (n : Nat) (positive : 0 < n)
  | failure (rv : Int) (negative : rv < 0)

def mbedtlsSslWrite (len : Nat) : SslWrite → Int
  | .takes n _ => (min len n : Nat)
  | .failure rv _ => rv

def networkTlsWrite (len : Nat) (write : SslWrite) : Int :=
  let rv := mbedtlsSslWrite len write
  if rv < 0 then if mbedtlsStatusIsSslInProgress rv then 0 else oprtMidTlsNetSocketError else rv

/-- `totalBytesSent` is `none` while the loop still waits for the connection. -/
structure Transmitted where
  totalBytesSent : Option Int
  sent : List UInt8
  pending : List UInt8
  ahead : List SslWrite

/-- The loop of `sendPacket`, with the bytes sent so far. -/
def sendPacketFrom : List SslWrite → List UInt8 → Int → Transmitted
  | writes, [], totalBytesSent => ⟨some totalBytesSent, [], [], writes⟩
  | [], b :: bs, _ => ⟨none, [], b :: bs, []⟩
  | write :: writes, b :: bs, totalBytesSent =>
    let bytesSent := networkTlsWrite (b :: bs).length write
    if bytesSent < 0 then ⟨some bytesSent, [], b :: bs, writes⟩
    else
      let rest := sendPacketFrom writes ((b :: bs).drop bytesSent.toNat) (totalBytesSent + bytesSent)
      { rest with sent := (b :: bs).take bytesSent.toNat ++ rest.sent }

def sendPacket (writes : List SslWrite) (bytes : List UInt8) : Transmitted := sendPacketFrom writes bytes 0

theorem networkTlsWrite_le (len : Nat) (write : SslWrite) : networkTlsWrite len write ≤ len := by
  have hlen : (0 : Int) ≤ len := Int.natCast_nonneg len
  cases write with
  | takes n positive =>
    have htaken : ¬ ((min len n : Nat) : Int) < 0 := by omega
    show (if ((min len n : Nat) : Int) < 0 then
      if mbedtlsStatusIsSslInProgress (min len n : Nat) then 0 else oprtMidTlsNetSocketError
      else ((min len n : Nat) : Int)) ≤ _
    rw [if_neg htaken]
    omega
  | failure rv negative =>
    show (if rv < 0 then if mbedtlsStatusIsSslInProgress rv then 0 else oprtMidTlsNetSocketError else rv) ≤ _
    rw [if_pos negative]
    split
    · exact hlen
    · show (-0x0a00 : Int) ≤ len
      omega

/-- No byte is lost or sent twice; the loop ends with all bytes sent, or with a failure. -/
theorem sendPacketFrom_contract (writes : List SslWrite) (bytes : List UInt8) (totalBytesSent : Int) :
    (sendPacketFrom writes bytes totalBytesSent).sent ++ (sendPacketFrom writes bytes totalBytesSent).pending = bytes ∧
      ((sendPacketFrom writes bytes totalBytesSent).totalBytesSent = some (totalBytesSent + bytes.length) ∧
          (sendPacketFrom writes bytes totalBytesSent).pending = [] ∨
        (sendPacketFrom writes bytes totalBytesSent).pending ≠ [] ∧
          ∀ n, (sendPacketFrom writes bytes totalBytesSent).totalBytesSent = some n → n < 0) := by
  induction writes generalizing bytes totalBytesSent with
  | nil =>
    cases bytes with
    | nil => exact ⟨rfl, Or.inl ⟨congrArg some (Int.add_zero _).symm, rfl⟩⟩
    | cons b bs => exact ⟨rfl, Or.inr ⟨List.cons_ne_nil b bs, fun n h => by cases h⟩⟩
  | cons write writes ih =>
    cases bytes with
    | nil => exact ⟨rfl, Or.inl ⟨congrArg some (Int.add_zero _).symm, rfl⟩⟩
    | cons b bs =>
      have hle := networkTlsWrite_le (b :: bs).length write
      rw [sendPacketFrom]
      dsimp only
      split
      · rename_i hfailed
        refine ⟨rfl, Or.inr ⟨List.cons_ne_nil b bs, fun n h => ?_⟩⟩
        rwa [← Option.some.inj h]
      · rename_i hnonneg
        obtain ⟨hbytes, hresult⟩ := ih ((b :: bs).drop (networkTlsWrite (b :: bs).length write).toNat)
          (totalBytesSent + networkTlsWrite (b :: bs).length write)
        refine ⟨?_, ?_⟩
        · rw [List.append_assoc, hbytes, List.take_append_drop]
        · rcases hresult with ⟨htotal, hpending⟩ | hresult
          · refine Or.inl ⟨?_, hpending⟩
            rw [htotal, List.length_drop]
            refine congrArg some ?_
            omega
          · exact Or.inr hresult

/-! ### The calls -/

/-- The buffers of a client and its side of the connection. -/
structure ClientIO where
  networkBuffer : MQTTFixedBuffer
  networkBufferTX : MQTTFixedBuffer
  /-- what the connection is going to do -/
  writes : List SslWrite
  /-- what the peer receives -/
  wire : List UInt8

namespace ClientIO

def send (bytes : List UInt8) (io : ClientIO) : Option Int × ClientIO :=
  let s := sendPacket io.writes bytes
  (s.totalBytesSent, { io with writes := s.ahead, wire := io.wire ++ s.sent })

/-- The status of a call whose packet was handed to `sendPacket`. -/
def sendStatus (bytesSent : Int) : MQTTStatus := if bytesSent < 0 then .sendFailed else .success

/-- `MQTT_Connect` up to the CONNACK. -/
def sendConnect (connectInfo : MQTTConnectInfo) (willInfo : Option MQTTPublishInfo) (io : ClientIO) :
    Option MQTTStatus × ClientIO :=
  match mqttGetConnectPacketSize connectInfo willInfo with
  | .error status => (some status, io)
  | .ok (remainingLength, packetSize) =>
    match mqttSerializeConnect connectInfo willInfo remainingLength io.networkBuffer with
    | .error status => (some status, io)
    | .ok buffer =>
      let (bytesSent, io) := { io with networkBuffer := buffer }.send (buffer.take packetSize)
      (bytesSent.map sendStatus, io)

def validateSubscribeUnsubscribeParams (subscriptionList : List MQTTSubscribeInfo) (packetId : UInt16) : MQTTStatus :=
  if subscriptionList.length = 0 then .badParameter
  else if packetId = 0 then .badParameter
  else .success

/-- `MQTT_Subscribe` and `MQTT_Unsubscribe`, with their functions for the size and for the packet. -/
def sendSubscriptions (getPacketSize : List MQTTSubscribeInfo → Except MQTTStatus (Nat × Nat))
    (serialize : List MQTTSubscribeInfo → UInt16 → Nat → MQTTFixedBuffer → Except MQTTStatus MQTTFixedBuffer)
    (subscriptionList : List MQTTSubscribeInfo) (packetId : UInt16) (io : ClientIO) : Option MQTTStatus × ClientIO :=
  match validateSubscribeUnsubscribeParams subscriptionList packetId with
  | .success =>
    match getPacketSize subscriptionList with
    | .error status => (some status, io)
    | .ok (remainingLength, packetSize) =>
      match serialize subscriptionList packetId remainingLength io.networkBufferTX with
      | .error status => (some status, io)
      | .ok buffer =>
        let (bytesSent, io) := { io with networkBufferTX := buffer }.send (buffer.take packetSize)
        (bytesSent.map sendStatus, io)
  | status => (some status, io)

def mqttSubscribe := sendSubscriptions mqttGetSubscribePacketSize mqttSerializeSubscribe

def mqttUnsubscribe := sendSubscriptions mqttGetUnsubscribePacketSize mqttSerializeUnsubscribe

/-- `serializePublish`: the buffer with the header, and the size of the header. -/
def serializePublish (publishInfo : MQTTPublishInfo) (packetId : UInt16) (buffer : MQTTFixedBuffer) :
    Except MQTTStatus (MQTTFixedBuffer × Nat) :=
  match mqttGetPublishPacketSize publishInfo with
  | .error status => .error status
  | .ok (remainingLength, _) => mqttSerializePublishHeader publishInfo packetId remainingLength buffer

/-- `sendPublish`: the payload is not copied, but sent behind the header. -/
def sendPublish (publishInfo : MQTTPublishInfo) (headerSize : Nat) (io : ClientIO) : Option MQTTStatus × ClientIO :=
  match io.send (io.networkBufferTX.take headerSize) with
  | (none, io) => (none, io)
  | (some bytesSent, io) =>
    if bytesSent < 0 then (some .sendFailed, io)
    else if 0 < publishInfo.payload.length then
      let (bytesSent, io) := io.send publishInfo.payload
      (bytesSent.map sendStatus, io)
    else (some .success, io)

/-- The packet of `sendPublishAcks`; a packet that was not serialized counts as not sent. -/
def sendAck (packetType : UInt8) (packetId : UInt16) (io : ClientIO) : Option MQTTStatus × ClientIO :=
  match mqttSerializeAck packetType packetId io.networkBuffer with
  | .error _ => (some .sendFailed, io)
  | .ok buffer =>
    let (bytesSent, io) := { io with networkBuffer := buffer }.send (buffer.take mqttPublishAckPacketSize)
    (bytesSent.map fun bytesSent => if bytesSent = (mqttPublishAckPacketSize : Int) then .success else .sendFailed, io)

/-- `MQTT_Ping` and `MQTT_Disconnect`, with their serializer. -/
def sendEmpty (serialize : MQTTFixedBuffer → Except MQTTStatus MQTTFixedBuffer) (io : ClientIO) :
    Option MQTTStatus × ClientIO :=
  match serialize io.networkBuffer with
  | .error status => (some status, io)
  | .ok buffer =>
    let (bytesSent, io) := { io with networkBuffer := buffer }.send (buffer.take 2)
    (bytesSent.map sendStatus, io)

def mqttPing := sendEmpty mqttSerializePingreq

def mqttDisconnect := sendEmpty mqttSerializeDisconnect

/-- The sizes of the buffers do not change. -/
def SameSizes (io io' : ClientIO) : Prop :=
  io'.networkBuffer.length = io.networkBuffer.length ∧ io'.networkBufferTX.length = io.networkBufferTX.length

/-- How a call with this request ends: the packet went out as a whole, it was cut off, or nothing was sent. -/
inductive CallResult (request : ClientPacket) (io : ClientIO) : Option MQTTStatus × ClientIO → Prop where
  | delivered {io' : ClientIO} (readable : request.Readable) (sizes : io.SameSizes io')
      (wire : io'.wire = io.wire ++ request.packet.bytes) : CallResult request io (some .success, io')
  | cut {status : Option MQTTStatus} {io' : ClientIO} {front : List UInt8} (sizes : io.SameSizes io')
      (status_eq : status = none ∨ status = some .sendFailed) (piece : front <+: request.packet.bytes)
      (wire : io'.wire = io.wire ++ front) : CallResult request io (status, io')
  | refused {status : MQTTStatus} (status_eq : status = .badParameter ∨ status = .noMemory) :
      CallResult request io (some status, io)

namespace CallResult

variable {request : ClientPacket} {io : ClientIO}

/-- A call that succeeds has sent its request. -/
theorem of_success {io' : ClientIO} (h : CallResult request io (some .success, io')) :
    request.Readable ∧ io'.wire = io.wire ++ request.packet.bytes := by
  generalize hsuccess : some MQTTStatus.success = status at h
  cases h with
  | delivered readable sizes wire => exact ⟨readable, wire⟩
  | cut sizes status_eq =>
    subst hsuccess
    rcases status_eq with hne | hne <;> cases hne
  | refused status_eq =>
    cases hsuccess
    rcases status_eq with hne | hne <;> cases hne

theorem ne_noDataAvailable {result : Option MQTTStatus × ClientIO} (h : CallResult request io result) :
    result.1 ≠ some .noDataAvailable := by
  cases h with
  | delivered => simp
  | cut sizes status_eq => rcases status_eq with rfl | rfl <;> simp
  | refused status_eq => rcases status_eq with rfl | rfl <;> simp

end CallResult

/-- What `send` does. -/
theorem send_cases (bytes : List UInt8) (io : ClientIO) :
    (io.send bytes).1 = some (bytes.length : Int) ∧ (io.send bytes).2.wire = io.wire ++ bytes ∨
      (∀ n, (io.send bytes).1 = some n → n < 0) ∧
        ∃ front, front <+: bytes ∧ (io.send bytes).2.wire = io.wire ++ front := by
  obtain ⟨hbytes, ⟨htotal, hpending⟩ | ⟨-, hfailed⟩⟩ := sendPacketFrom_contract io.writes bytes 0
  · left
    rw [hpending, List.append_nil] at hbytes
    rw [Int.zero_add] at htotal
    refine ⟨htotal, ?_⟩
    show io.wire ++ (sendPacketFrom io.writes bytes 0).sent = _
    rw [hbytes]
  · exact Or.inr ⟨hfailed, _, ⟨_, hbytes⟩, rfl⟩

/-- The status of a send that failed or still waits. -/
theorem map_failed {bytesSent : Option Int} {judge : Int → MQTTStatus} (hfailed : ∀ n < 0, judge n = .sendFailed)
    (hnegative : ∀ n, bytesSent = some n → n < 0) :
    bytesSent.map judge = none ∨ bytesSent.map judge = some .sendFailed := by
  cases bytesSent with
  | none => exact Or.inl rfl
  | some n => exact Or.inr (congrArg some (hfailed n (hnegative n rfl)))

/-- A call that sends one packet from a buffer. -/
theorem send_callResult {request : ClientPacket} (hreadable : request.Readable) {io io' : ClientIO}
    (hsizes : io.SameSizes io') (hwire : io'.wire = io.wire) {judge : Int → MQTTStatus}
    (hjudge : judge request.packet.bytes.length = .success) (hfailed : ∀ n < 0, judge n = .sendFailed) :
    CallResult request io ((io'.send request.packet.bytes).1.map judge, (io'.send request.packet.bytes).2) := by
  have hsizes' : io.SameSizes (io'.send request.packet.bytes).2 := hsizes
  rcases send_cases request.packet.bytes io' with ⟨hsent, hbytes⟩ | ⟨hnegative, front, hfront, hbytes⟩
  · rw [hsent, Option.map_some, hjudge]
    exact .delivered hreadable hsizes' (by rw [hbytes, hwire])
  · exact .cut hsizes' (map_failed hfailed hnegative) hfront (by rw [hbytes, hwire])

theorem sendStatus_of_nonneg {n : Nat} : sendStatus n = .success := if_neg (by omega)

theorem sendStatus_of_neg {n : Int} (h : n < 0) : sendStatus n = .sendFailed := if_pos h

/-- The front of a buffer to which a packet was written. -/
theorem take_written {packet : MQTTPacketInfo} {buffer buffer' : MQTTFixedBuffer} {packetSize : Nat}
    (hbuffer : buffer' = buffer.write packet.bytes) (hsize : packetSize = packet.bytes.length)
    (hfits : packetSize ≤ buffer.length) : buffer'.take packetSize = packet.bytes ∧ buffer'.length = buffer.length := by
  subst hbuffer hsize
  exact ⟨MQTTFixedBuffer.take_write buffer packet.bytes, MQTTFixedBuffer.length_write hfits⟩

theorem sendConnect_spec (connectInfo : MQTTConnectInfo) (willInfo : Option MQTTPublishInfo) (io : ClientIO) :
    CallResult (.connect (connectRequest connectInfo willInfo)) io
      (sendConnect connectInfo willInfo io) := by
  unfold sendConnect
  split
  · rename_i status hsize
    exact .refused (Or.inl (mqttGetConnectPacketSize_error hsize))
  · rename_i remainingLength packetSize hsize
    split
    · rename_i status hserialize
      exact .refused (Or.inr (mqttSerializeConnect_error hserialize))
    · rename_i buffer hserialize
      obtain ⟨hlength, hbuffer, hpacketSize, hfits⟩ := mqttSerializeConnect_spec hsize hserialize
      obtain ⟨htake, hkept⟩ := take_written hbuffer hpacketSize hfits
      rw [htake]
      have hreadable : ClientPacket.Readable (.connect (connectRequest connectInfo willInfo)) := ⟨trivial, hlength⟩
      have hsizes : io.SameSizes { io with networkBuffer := buffer } := ⟨hkept, rfl⟩
      exact send_callResult hreadable hsizes rfl sendStatus_of_nonneg fun n => sendStatus_of_neg

/-- The header is put into the buffer, or the publish is refused. -/
theorem serializePublish_cases (publishInfo : MQTTPublishInfo) (packetId : UInt16) (buffer : MQTTFixedBuffer) :
    (∃ status, serializePublish publishInfo packetId buffer = .error status ∧
      (status = .badParameter ∨ status = .noMemory)) ∨
    serializePublish publishInfo packetId buffer =
        .ok (buffer.write (publishHeader publishInfo packetId), (publishHeader publishInfo packetId).length) ∧
      (publishHeader publishInfo packetId).length ≤ buffer.length ∧
      (publishBody publishInfo packetId).length < 128 ^ 4 ∧ publishInfo.topicName ≠ [] ∧
      (publishInfo.qos ≠ .qos0 → packetId ≠ 0) := by
  unfold serializePublish
  split
  · rename_i status hsize
    exact Or.inl ⟨status, rfl, Or.inl (mqttGetPublishPacketSize_error hsize)⟩
  · rename_i remainingLength packetSize hsize
    obtain ⟨rfl, hlength, -⟩ := mqttGetPublishPacketSize_spec hsize packetId
    cases hheader : mqttSerializePublishHeader publishInfo packetId (publishBody publishInfo packetId).length buffer with
    | error status => exact Or.inl ⟨status, rfl, mqttSerializePublishHeader_error hheader⟩
    | ok result =>
      obtain ⟨buffer', headerSize⟩ := result
      obtain ⟨rfl, rfl, hfits, hname, hid, -⟩ := mqttSerializePublishHeader_spec hlength hheader
      exact Or.inr ⟨rfl, hfits, hlength, hname, hid⟩

/-- The topic filters of an UNSUBSCRIBE; a quality of service is not sent. -/
def topicFilters (subscriptionList : List MQTTSubscribeInfo) : List MqttText :=
  subscriptionList.map fun s => ⟨s.topicFilter, s.topicFilterLength⟩

/-- A publish as it is read; the identifier of a publish of QoS 0 is not sent. -/
def publishRequest (publishInfo : MQTTPublishInfo) (packetId : UInt16) : ClientPacket :=
  .publish (if publishInfo.qos = .qos0 then 0 else packetId) publishInfo

theorem sendAck_spec (packetType : UInt8) (packetId : UInt16) (io : ClientIO) :
    CallResult (.ack packetType packetId) io (sendAck packetType packetId io) := by
  unfold sendAck
  split
  · exact .cut ⟨rfl, rfl⟩ (Or.inr rfl) List.nil_prefix (List.append_nil _).symm
  · rename_i buffer hserialize
    obtain ⟨htype, hbuffer, hsize, hfits⟩ := mqttSerializeAck_spec hserialize
    obtain ⟨htake, hkept⟩ := take_written hbuffer hsize hfits
    rw [htake]
    have hreadable : ClientPacket.Readable (.ack packetType packetId) := ⟨htype, (by decide : 2 < 128 ^ 4)⟩
    have hsizes : io.SameSizes { io with networkBuffer := buffer } := ⟨hkept, rfl⟩
    refine send_callResult hreadable hsizes rfl ?_ fun n hn => ?_
    · show (if ((MQTTPacketInfo.bytes ⟨packetType, uint16Bytes packetId⟩).length : Int) = _ then _ else _) = _
      rw [← hsize]
      rfl
    · exact if_neg (by omega)

theorem sendEmpty_spec {packetType : UInt8} {request : ClientPacket} (hvalid : request.Valid)
    (hpacket : request.packet = ⟨packetType, []⟩) (io : ClientIO) :
    CallResult request io (sendEmpty (serializeEmpty packetType) io) := by
  unfold sendEmpty
  split
  · rename_i status hserialize
    exact .refused (Or.inr (serializeEmpty_error hserialize))
  · rename_i buffer hserialize
    obtain ⟨hbuffer, hsize, hfits⟩ := serializeEmpty_spec hserialize
    rw [← hpacket] at hbuffer hsize
    obtain ⟨htake, hkept⟩ := take_written hbuffer hsize hfits
    rw [htake]
    have hreadable : request.Readable := ⟨hvalid, hpacket ▸ (by decide : 0 < 128 ^ 4)⟩
    have hsizes : io.SameSizes { io with networkBuffer := buffer } := ⟨hkept, rfl⟩
    exact send_callResult hreadable hsizes rfl sendStatus_of_nonneg fun n => sendStatus_of_neg

end ClientIO

end TuyaDaemon
