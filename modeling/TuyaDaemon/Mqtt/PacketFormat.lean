import TuyaDaemon.Mqtt.Serializer

/-!
# The format of the packets

What the serializers write, read back.  A publish is read by the decoder of the client itself, and
`mqttDeserializePublish_eq_ok_iff` says that this decoder accepts exactly the bytes that the serializer writes.  The other
packets of a client are read by codes of `CLib.PrefixCode`, put together as the format is: `readPacket` is the reader of
a broker, and `readPacket_packet` its round trip.
-/

namespace TuyaDaemon

open CLib

/-! ### Strings -/

/-- A `uint16_t` as a number. -/
def uint16Number : PrefixCode (Fin 65536) :=
  PrefixCode.uint16.via (fun n => UInt16.ofNat n) (fun x => some ⟨x.toNat, x.toNat_lt⟩) fun x n => by
    constructor
    · rintro h
      rw [← Option.some.inj h, UInt16.ofNat_toNat]
    · rintro rfl
      refine congrArg some (Fin.ext ?_)
      exact UInt16.toNat_ofNat_of_lt n.2

/-- Text behind its length. -/
def mqttText : PrefixCode MqttText := PrefixCode.lengthPrefixed uint16Number

theorem length_uint16Bytes (x : UInt16) : (uint16Bytes x).length = 2 := rfl

theorem length_encodeString (source : List UInt8) : (encodeString source).length = source.length + 2 := by
  rw [encodeString, List.length_append, length_uint16Bytes, Nat.add_comm]

theorem uint16Decode_uint16Bytes (x : UInt16) (rest : List UInt8) : uint16Decode (uint16Bytes x ++ rest) = x :=
  PrefixCode.wordOf_wordBytes x

theorem uint16Decode_encodeString {source : List UInt8} (h : source.length < 65536) (rest : List UInt8) :
    (uint16Decode (encodeString source ++ rest)).toNat = source.length := by
  rw [encodeString, List.append_assoc, uint16Decode_uint16Bytes]
  exact UInt16.toNat_ofNat_of_lt h

/-! ### Publishes -/

/-- What stands behind the remaining length of a publish. -/
def publishBody (publishInfo : MQTTPublishInfo) (packetId : UInt16) : List UInt8 :=
  encodeString publishInfo.topicName ++
    ((if publishInfo.qos = .qos0 then [] else uint16Bytes packetId) ++ publishInfo.payload)

theorem length_publishBody (publishInfo : MQTTPublishInfo) (packetId : UInt16) :
    (publishBody publishInfo packetId).length =
      publishInfo.topicName.length + 2 + publishInfo.qos.idLength + publishInfo.payload.length := by
  rw [publishBody, List.length_append, List.length_append, length_encodeString, Nat.add_assoc _ publishInfo.qos.idLength]
  cases publishInfo.qos <;> rfl

/-- The packet of a publish. -/
def publishPacket (publishInfo : MQTTPublishInfo) (packetId : UInt16) : MQTTPacketInfo :=
  ⟨publishFlags publishInfo.qos publishInfo.retain publishInfo.dup, publishBody publishInfo packetId⟩

/-- The flags can be read from the first byte. -/
theorem publishFlags_spec (qos : MQTTQoS) (retain dup : Bool) :
    publishQoS (publishFlags qos retain dup) = some qos ∧ decide (publishFlags qos retain dup &&& 1 ≠ 0) = retain ∧
      decide (publishFlags qos retain dup &&& 8 ≠ 0) = dup ∧
      publishFlags qos retain dup &&& 0xF0 = mqttPacketTypePublish := by
  cases qos <;> cases retain <;> cases dup <;> decide

set_option maxRecDepth 8000 in
private theorem flags_facts : ∀ b : Fin 256, UInt8.ofNat b &&& 0xF0 = mqttPacketTypePublish →
    ∀ qos ∈ [MQTTQoS.qos0, .qos1, .qos2], publishQoS (UInt8.ofNat b) = some qos →
      publishFlags qos (decide (UInt8.ofNat b &&& 1 ≠ 0)) (decide (UInt8.ofNat b &&& 8 ≠ 0)) = UInt8.ofNat b := by
  decide

/-- The first byte has no other bits. -/
theorem publishFlags_publishQoS {type : UInt8} (htype : type &&& 0xF0 = mqttPacketTypePublish) {qos : MQTTQoS}
    (hqos : publishQoS type = some qos) : publishFlags qos (decide (type &&& 1 ≠ 0)) (decide (type &&& 8 ≠ 0)) = type := by
  have h := flags_facts ⟨type.toNat, type.toNat_lt⟩
  rw [UInt8.ofNat_toNat] at h
  refine h htype qos ?_ hqos
  cases qos <;> simp

theorem splitBody {data : List UInt8} (h : 2 ≤ data.length) :
    data = uint16Bytes (uint16Decode data) ++ data.drop 2 := by
  match data, h with
  | high :: low :: rest, _ =>
    show _ = PrefixCode.wordBytes (PrefixCode.wordOf high low) ++ rest
    rw [PrefixCode.wordBytes_wordOf]
    rfl

/-- The decoder reads a publish that was serialized. -/
theorem mqttDeserializePublish_publishPacket {publishInfo : MQTTPublishInfo} {packetId : UInt16}
    (hid : packetId = 0 ↔ publishInfo.qos = .qos0)
    (hlength : 3 + publishInfo.qos.idLength ≤ (publishBody publishInfo packetId).length) :
    mqttDeserializePublish (publishPacket publishInfo packetId) = .ok (packetId, publishInfo) := by
  have hsize := length_publishBody publishInfo packetId
  have hbody : publishBody publishInfo packetId = encodeString publishInfo.topicName ++
    ((if publishInfo.qos = .qos0 then [] else uint16Bytes packetId) ++ publishInfo.payload) := rfl
  obtain ⟨qos, retain, dup, topicName, payload, hname⟩ := publishInfo
  dsimp only at hid hlength hsize hbody
  obtain ⟨hqos, hretain, hdup, -⟩ := publishFlags_spec qos retain dup
  have htopic := uint16Decode_encodeString hname ((if qos = .qos0 then [] else uint16Bytes packetId) ++ payload)
  rw [← hbody] at htopic
  have hbehindLength : (publishBody ⟨qos, retain, dup, topicName, payload, hname⟩ packetId).drop 2 =
      topicName ++ ((if qos = .qos0 then [] else uint16Bytes packetId) ++ payload) := by
    rw [hbody, encodeString, List.append_assoc]
    rfl
  have hbehindTopic : (publishBody ⟨qos, retain, dup, topicName, payload, hname⟩ packetId).drop (2 + topicName.length) =
      (if qos = .qos0 then [] else uint16Bytes packetId) ++ payload := by
    rw [← List.drop_drop, hbehindLength, List.drop_left]
  simp only [mqttDeserializePublish, publishPacket, hqos, htopic, hbehindLength, hbehindTopic, List.take_left]
  rw [if_neg (by omega), if_neg (by omega)]
  by_cases h0 : qos = .qos0
  · subst h0
    obtain rfl := hid.2 rfl
    rw [if_neg (fun h => h.1 rfl)]
    refine congrArg Except.ok (Prod.ext rfl ?_)
    rw [MQTTPublishInfo.mk.injEq]
    exact ⟨rfl, hretain, hdup, rfl, rfl⟩
  · have hdecode : uint16Decode ((if qos = .qos0 then [] else uint16Bytes packetId) ++ payload) = packetId := by
      rw [if_neg h0, uint16Decode_uint16Bytes]
    have hdrop : ((if qos = .qos0 then [] else uint16Bytes packetId) ++ payload).drop qos.idLength = payload := by
      rw [if_neg h0]
      cases qos with
      | qos0 => exact absurd rfl h0
      | qos1 => rfl
      | qos2 => rfl
    rw [hdecode, if_neg h0, if_neg (fun h => h0 (hid.1 h.2))]
    refine congrArg Except.ok (Prod.ext rfl ?_)
    rw [MQTTPublishInfo.mk.injEq]
    exact ⟨rfl, hretain, hdup, rfl, hdrop⟩

/-- What the decoder accepts was serialized so. -/
theorem mqttDeserializePublish_sound {packet : MQTTPacketInfo} (htype : packet.isPublish = true) {packetId : UInt16}
    {publishInfo : MQTTPublishInfo} (h : mqttDeserializePublish packet = .ok (packetId, publishInfo)) :
    packet = publishPacket publishInfo packetId ∧ (packetId = 0 ↔ publishInfo.qos = .qos0) ∧
      3 + publishInfo.qos.idLength ≤ packet.remainingData.length := by
  obtain ⟨type, data⟩ := packet
  simp only [mqttDeserializePublish] at h
  split at h
  · cases h
  · rename_i qos hqos
    have htype' := publishFlags_publishQoS (eq_of_beq htype) hqos
    by_cases hmin : data.length < 3 + qos.idLength
    · rw [if_pos hmin] at h
      cases h
    by_cases hlength : data.length < (uint16Decode data).toNat + 2 + qos.idLength
    · rw [if_neg hmin, if_pos hlength] at h
      cases h
    rw [if_neg hmin, if_neg hlength] at h
    have hname : ((data.drop 2).take (uint16Decode data).toNat).length = (uint16Decode data).toNat := by
      rw [List.length_take, List.length_drop]
      omega
    have hdata : data = encodeString ((data.drop 2).take (uint16Decode data).toNat) ++
        data.drop (2 + (uint16Decode data).toNat) := by
      rw [encodeString, hname, UInt16.ofNat_toNat, List.append_assoc, ← List.drop_drop, List.take_append_drop]
      exact splitBody (by omega)
    by_cases h0 : qos = .qos0
    · subst h0
      rw [if_neg (fun h => h.1 rfl)] at h
      obtain ⟨rfl, rfl⟩ := Prod.mk.inj (Except.ok.inj h)
      refine ⟨?_, iff_of_true rfl rfl, Nat.le_of_not_lt hmin⟩
      rw [publishPacket, htype']
      exact congrArg (MQTTPacketInfo.mk type) hdata
    · simp only [if_neg h0] at h
      by_cases hid : uint16Decode (data.drop (2 + (uint16Decode data).toNat)) = 0
      · rw [if_pos ⟨h0, hid⟩] at h
        cases h
      · rw [if_neg (fun h => hid h.2)] at h
        obtain ⟨rfl, rfl⟩ := Prod.mk.inj (Except.ok.inj h)
        refine ⟨?_, iff_of_false hid h0, Nat.le_of_not_lt hmin⟩
        have hidLength : qos.idLength = 2 := by
          cases qos with
          | qos0 => exact absurd rfl h0
          | qos1 => rfl
          | qos2 => rfl
        rw [publishPacket, htype', publishBody]
        simp only [if_neg h0, hidLength]
        rw [← splitBody (by rw [List.length_drop]; omega)]
        exact congrArg (MQTTPacketInfo.mk type) hdata

/-- The decoder and the serializer of publishes agree on every byte. -/
theorem mqttDeserializePublish_eq_ok_iff {packet : MQTTPacketInfo} (htype : packet.isPublish = true) (packetId : UInt16)
    (publishInfo : MQTTPublishInfo) :
    mqttDeserializePublish packet = .ok (packetId, publishInfo) ↔
      packet = publishPacket publishInfo packetId ∧ (packetId = 0 ↔ publishInfo.qos = .qos0) ∧
        3 + publishInfo.qos.idLength ≤ packet.remainingData.length := by
  constructor
  · exact mqttDeserializePublish_sound htype
  · rintro ⟨rfl, hid, hlength⟩
    exact mqttDeserializePublish_publishPacket hid hlength

/-- A publish of QoS 1. -/
theorem mqttDeserializePublish_qos1 :
    mqttDeserializePublish ⟨0x32, [0, 1, 97, 0, 7, 120]⟩ = .ok (7, ⟨.qos1, false, false, [97], [120], by decide⟩) ↔
      (⟨0x32, [0, 1, 97, 0, 7, 120]⟩ : MQTTPacketInfo) =
          publishPacket ⟨.qos1, false, false, [97], [120], by decide⟩ 7 ∧
        ((7 : UInt16) = 0 ↔ MQTTQoS.qos1 = .qos0) ∧ 3 + MQTTQoS.qos1.idLength ≤ [0, 1, 97, 0, 7, (120 : UInt8)].length :=
  mqttDeserializePublish_eq_ok_iff (by decide) 7 ⟨.qos1, false, false, [97], [120], by decide⟩

/-! ### What a broker reads -/

/-- A will, as it stands in a CONNECT. -/
structure Will where
  qos : MQTTQoS
  retain : Bool
  topicName : MqttText
  payload : MqttText

/-- A CONNECT with its parts. -/
structure ConnectPacket where
  connectInfo : MQTTConnectInfo
  will : Option Will

/-- The requests of a client. -/
inductive ClientPacket where
  | connect (request : ConnectPacket)
  | publish (packetId : UInt16) (publishInfo : MQTTPublishInfo)
  | ack (packetType : UInt8) (packetId : UInt16)
  | subscribe (packetId : UInt16) (subscriptionList : List MQTTSubscribeInfo)
  | unsubscribe (packetId : UInt16) (topicFilters : List MqttText)
  | pingreq
  | disconnect

/-- A packet behind another one: its type, and its data behind their length. -/
def frame : PrefixCode (UInt8 × {data : List UInt8 // data.length < 128 ^ 4}) :=
  PrefixCode.byte.pair (PrefixCode.lengthPrefixed (PrefixCode.ofVarint 4 (by decide)))

/-- A quality of service is one byte. -/
def qosByte : PrefixCode MQTTQoS :=
  PrefixCode.byte.via MQTTQoS.toByte
    (fun b => if b = 0 then some .qos0 else if b = 1 then some .qos1 else if b = 2 then some .qos2 else none) fun b qos => by
      constructor
      · intro h
        split at h
        · rename_i hb
          rw [hb, ← Option.some.inj h]
          rfl
        · split at h
          · rename_i hb
            rw [hb, ← Option.some.inj h]
            rfl
          · split at h
            · rename_i hb
              rw [hb, ← Option.some.inj h]
              rfl
            · cases h
      · rintro rfl
        cases qos <;> rfl

/-- A topic filter with the quality of service that is asked for. -/
def subscription : PrefixCode MQTTSubscribeInfo :=
  (mqttText.pair qosByte).via (fun s => (⟨s.topicFilter, s.topicFilterLength⟩, s.qos))
    (fun p => some ⟨p.2, p.1.1, p.1.2⟩) fun p s => by
      constructor
      · intro h
        rw [← Option.some.inj h]
      · rintro rfl
        rfl

/-- What is only there when a flag says so. -/
def readOptional {α : Type} (present : Bool) (c : PrefixCode α) (data : List UInt8) : Option (Option α × List UInt8) :=
  if present then (c.decode data).map fun p => (some p.1, p.2) else some (none, data)

def encodeOptional {α : Type} (c : PrefixCode α) (value : Option α) : List UInt8 :=
  match value with
  | none => []
  | some a => c.encode a

theorem readOptional_encodeOptional {α : Type} (c : PrefixCode α) (value : Option α) (rest : List UInt8) :
    readOptional value.isSome c (encodeOptional c value ++ rest) = some (value, rest) := by
  cases value with
  | none => rfl
  | some a =>
    simp only [readOptional, encodeOptional, Option.isSome_some, ite_true, c.decode_encode, Option.map_some]

/-- The quality of service of a will. -/
def willQoS (flags : UInt8) : Option MQTTQoS :=
  if flags &&& 0x10 ≠ 0 then
    if flags &&& 0x08 ≠ 0 then none else some .qos2
  else if flags &&& 0x08 ≠ 0 then some .qos1 else some .qos0

/-- A CONNECT behind its length. -/
def readConnect (data : List UInt8) : Option ConnectPacket := do
  let (name, data) ← mqttText.decode data
  let (version, data) ← PrefixCode.byte.decode data
  if name.1 ≠ [0x4D, 0x51, 0x54, 0x54] ∨ version ≠ 4 then none
  let (flags, data) ← PrefixCode.byte.decode data
  let (keepAliveSeconds, data) ← PrefixCode.uint16.decode data
  let (clientIdentifier, data) ← mqttText.decode data
  let (will, data) ← readOptional (flags &&& 0x04 ≠ 0) (mqttText.pair mqttText) data
  let (userName, data) ← readOptional (flags &&& 0x80 ≠ 0) mqttText data
  let (password, data) ← readOptional (flags &&& 0x40 ≠ 0) mqttText data
  if data ≠ [] then none
  let qos ← willQoS flags
  return {
    connectInfo := ⟨flags &&& 0x02 ≠ 0, keepAliveSeconds, clientIdentifier, userName, password⟩
    will := will.map fun p => ⟨qos, flags &&& 0x20 ≠ 0, p.1, p.2⟩ }

def ConnectPacket.flags (packet : ConnectPacket) : UInt8 :=
  connectFlags packet.connectInfo.cleanSession packet.connectInfo.userName.isSome packet.connectInfo.password.isSome
    (packet.will.map fun will => (will.qos, will.retain))

def ConnectPacket.body (packet : ConnectPacket) : List UInt8 :=
  encodeString [0x4D, 0x51, 0x54, 0x54] ++ (4 :: packet.flags ::
    (uint16Bytes packet.connectInfo.keepAliveSeconds ++ (encodeString packet.connectInfo.clientIdentifier.1 ++
      (encodeOptional (mqttText.pair mqttText) (packet.will.map fun will => (will.topicName, will.payload)) ++
        (encodeOptional mqttText packet.connectInfo.userName ++ encodeOptional mqttText packet.connectInfo.password)))))

private theorem connectFlags_facts : ∀ cleanSession userName password : Bool,
    ∀ will ∈ [none, some (MQTTQoS.qos0, false), some (.qos0, true), some (.qos1, false), some (.qos1, true),
      some (.qos2, false), some (.qos2, true)],
    decide (connectFlags cleanSession userName password will &&& 0x02 ≠ 0) = cleanSession ∧
      decide (connectFlags cleanSession userName password will &&& 0x80 ≠ 0) = userName ∧
      decide (connectFlags cleanSession userName password will &&& 0x40 ≠ 0) = password ∧
      decide (connectFlags cleanSession userName password will &&& 0x04 ≠ 0) = will.isSome ∧
      willQoS (connectFlags cleanSession userName password will) = some ((will.map Prod.fst).getD .qos0) ∧
      decide (connectFlags cleanSession userName password will &&& 0x20 ≠ 0) = (will.map Prod.snd).getD false := by
  decide

/-- The flags can be read from the byte. -/
theorem connectFlags_spec (cleanSession userName password : Bool) (will : Option (MQTTQoS × Bool)) :
    decide (connectFlags cleanSession userName password will &&& 0x02 ≠ 0) = cleanSession ∧
      decide (connectFlags cleanSession userName password will &&& 0x80 ≠ 0) = userName ∧
      decide (connectFlags cleanSession userName password will &&& 0x40 ≠ 0) = password ∧
      decide (connectFlags cleanSession userName password will &&& 0x04 ≠ 0) = will.isSome ∧
      willQoS (connectFlags cleanSession userName password will) = some ((will.map Prod.fst).getD .qos0) ∧
      decide (connectFlags cleanSession userName password will &&& 0x20 ≠ 0) = (will.map Prod.snd).getD false := by
  refine connectFlags_facts cleanSession userName password will ?_
  match will with
  | none => simp
  | some (qos, retain) => cases qos <;> cases retain <;> simp

theorem readConnect_body (packet : ConnectPacket) : readConnect packet.body = some packet := by
  obtain ⟨⟨cleanSession, keepAliveSeconds, clientIdentifier, userName, password⟩, will⟩ := packet
  obtain ⟨hclean, huser, hpassword, hwill, hqos, hretain⟩ := connectFlags_spec cleanSession userName.isSome
    password.isSome (will.map fun will => (will.qos, will.retain))
  have hbody : ConnectPacket.body ⟨⟨cleanSession, keepAliveSeconds, clientIdentifier, userName, password⟩, will⟩ =
      mqttText.encode ⟨[0x4D, 0x51, 0x54, 0x54], by decide⟩ ++ (PrefixCode.byte.encode 4 ++
        (PrefixCode.byte.encode (connectFlags cleanSession userName.isSome password.isSome
            (will.map fun will => (will.qos, will.retain))) ++
          (PrefixCode.uint16.encode keepAliveSeconds ++ (mqttText.encode clientIdentifier ++
            (encodeOptional (mqttText.pair mqttText) (will.map fun will => (will.topicName, will.payload)) ++
              (encodeOptional mqttText userName ++ (encodeOptional mqttText password ++ []))))))) := by
    rw [List.append_nil]
    rfl
  have hwill' : decide (connectFlags cleanSession userName.isSome password.isSome
      (will.map fun will => (will.qos, will.retain)) &&& 0x04 ≠ 0) =
        (will.map fun will => (will.topicName, will.payload)).isSome := by
    rw [hwill, Option.isSome_map, Option.isSome_map]
  rw [hbody, readConnect]
  simp only [PrefixCode.decode_encode, Option.bind_eq_bind, Option.bind_some, hwill', huser, hpassword,
    readOptional_encodeOptional, hqos, hclean, hretain]
  cases will with
  | none => rfl
  | some will => rfl

/-- A SUBSCRIBE behind its length. -/
def subscribeBody : Code (UInt16 × List MQTTSubscribeInfo) :=
  PrefixCode.uint16.before (subscription.many fun _ => List.cons_ne_nil _ _)

/-- An UNSUBSCRIBE behind its length. -/
def unsubscribeBody : Code (UInt16 × List MqttText) :=
  PrefixCode.uint16.before (mqttText.many fun _ => List.cons_ne_nil _ _)

/-- The packets that a client sends. -/
inductive PacketKind where
  | connect
  | publish
  | ack
  | subscribe
  | unsubscribe
  | pingreq
  | disconnect
deriving DecidableEq

def isAckType (type : UInt8) : Bool :=
  type == mqttPacketTypePuback || type == mqttPacketTypePubrec || type == mqttPacketTypePubrel ||
    type == mqttPacketTypePubcomp

/-- The first byte says what the packet is; the lower bits of a publish are flags. -/
def packetKind (type : UInt8) : Option PacketKind :=
  if type &&& 0xF0 = mqttPacketTypePublish then some .publish
  else if isAckType type then some .ack
  else if type = mqttPacketTypeConnect then some .connect
  else if type = mqttPacketTypeSubscribe then some .subscribe
  else if type = mqttPacketTypeUnsubscribe then some .unsubscribe
  else if type = mqttPacketTypePingreq then some .pingreq
  else if type = mqttPacketTypeDisconnect then some .disconnect
  else none

/-- A publish is read by the decoder of the client. -/
def readPublish (packet : MQTTPacketInfo) : Option ClientPacket :=
  match mqttDeserializePublish packet with
  | .ok (packetId, publishInfo) => some (.publish packetId publishInfo)
  | .error _ => none

/-- One packet. -/
def readPacket (packet : MQTTPacketInfo) : Option ClientPacket :=
  match packetKind packet.type with
  | none => none
  | some .publish => readPublish packet
  | some .ack => (PrefixCode.uint16.alone.decode packet.remainingData).map (.ack packet.type)
  | some .connect => (readConnect packet.remainingData).map .connect
  | some .subscribe => (subscribeBody.decode packet.remainingData).map fun p => .subscribe p.1 p.2
  | some .unsubscribe => (unsubscribeBody.decode packet.remainingData).map fun p => .unsubscribe p.1 p.2
  | some .pingreq => if packet.remainingData = [] then some .pingreq else none
  | some .disconnect => if packet.remainingData = [] then some .disconnect else none

/-- A packet with its type and its data. -/
def ClientPacket.packet : ClientPacket → MQTTPacketInfo
  | .connect request => ⟨mqttPacketTypeConnect, request.body⟩
  | .publish packetId publishInfo => publishPacket publishInfo packetId
  | .ack packetType packetId => ⟨packetType, uint16Bytes packetId⟩
  | .subscribe packetId subscriptionList => ⟨mqttPacketTypeSubscribe, subscribeBody.encode (packetId, subscriptionList)⟩
  | .unsubscribe packetId topicFilters => ⟨mqttPacketTypeUnsubscribe, unsubscribeBody.encode (packetId, topicFilters)⟩
  | .pingreq => ⟨mqttPacketTypePingreq, []⟩
  | .disconnect => ⟨mqttPacketTypeDisconnect, []⟩

/-- What a request must be to be read back. -/
def ClientPacket.Valid : ClientPacket → Prop
  | .publish packetId publishInfo => (packetId = 0 ↔ publishInfo.qos = .qos0) ∧ publishInfo.topicName ≠ []
  | .ack packetType _ => isAckType packetType = true
  | _ => True

/-- The length can be encoded, too. -/
def ClientPacket.Readable (p : ClientPacket) : Prop := p.Valid ∧ p.packet.remainingData.length < 128 ^ 4

theorem packetKind_publish (qos : MQTTQoS) (retain dup : Bool) :
    packetKind (publishFlags qos retain dup) = some .publish :=
  if_pos (publishFlags_spec qos retain dup).2.2.2

theorem packetKind_ack {type : UInt8} (h : isAckType type = true) : packetKind type = some .ack := by
  rw [packetKind, if_neg, if_pos h]
  obtain rfl | rfl | rfl | rfl : type = mqttPacketTypePuback ∨ type = mqttPacketTypePubrec ∨
    type = mqttPacketTypePubrel ∨ type = mqttPacketTypePubcomp := by
      simpa only [isAckType, Bool.or_eq_true, beq_iff_eq, or_assoc] using h
  all_goals decide

theorem readPacket_packet {p : ClientPacket} (h : p.Valid) : readPacket p.packet = some p := by
  cases p with
  | connect request =>
    have hkind : packetKind mqttPacketTypeConnect = some .connect := by decide
    simp only [readPacket, ClientPacket.packet, hkind, readConnect_body, Option.map_some]
  | publish packetId publishInfo =>
    obtain ⟨hid, hname⟩ := h
    have hpos := List.length_pos_iff.2 hname
    have hlength : 3 + publishInfo.qos.idLength ≤ (publishBody publishInfo packetId).length := by
      rw [length_publishBody]
      omega
    have hkind : packetKind (publishPacket publishInfo packetId).type = some .publish :=
      packetKind_publish publishInfo.qos publishInfo.retain publishInfo.dup
    simp only [readPacket, ClientPacket.packet, hkind, readPublish, mqttDeserializePublish_publishPacket hid hlength]
  | ack packetType packetId =>
    have hread : PrefixCode.uint16.alone.decode (uint16Bytes packetId) = some packetId := Code.decode_encode _ packetId
    simp only [readPacket, ClientPacket.packet, packetKind_ack h, hread, Option.map_some]
  | subscribe packetId subscriptionList =>
    have hkind : packetKind mqttPacketTypeSubscribe = some .subscribe := by decide
    simp only [readPacket, ClientPacket.packet, hkind, Code.decode_encode, Option.map_some]
  | unsubscribe packetId topicFilters =>
    have hkind : packetKind mqttPacketTypeUnsubscribe = some .unsubscribe := by decide
    simp only [readPacket, ClientPacket.packet, hkind, Code.decode_encode, Option.map_some]
  | pingreq =>
    have hkind : packetKind mqttPacketTypePingreq = some .pingreq := by decide
    simp only [readPacket, ClientPacket.packet, hkind, ite_true]
  | disconnect =>
    have hkind : packetKind mqttPacketTypeDisconnect = some .disconnect := by decide
    simp only [readPacket, ClientPacket.packet, hkind, ite_true]

/-! ### What the serializers write -/

theorem length_bytes {packet : MQTTPacketInfo} (h : packet.remainingData.length < 128 ^ 4) :
    packet.bytes.length =
      1 + remainingLengthEncodedSize packet.remainingData.length + packet.remainingData.length := by
  rw [MQTTPacketInfo.bytes, List.length_cons, List.length_append, length_varint h]
  omega

/-- The size that is computed for a publish is that of its packet. -/
theorem mqttGetPublishPacketSize_spec {publishInfo : MQTTPublishInfo} {remainingLength packetSize : Nat}
    (h : mqttGetPublishPacketSize publishInfo = .ok (remainingLength, packetSize)) (packetId : UInt16) :
    remainingLength = (publishBody publishInfo packetId).length ∧ remainingLength < 128 ^ 4 ∧
      packetSize = (publishPacket publishInfo packetId).bytes.length := by
  have hbody := length_publishBody publishInfo packetId
  unfold mqttGetPublishPacketSize at h
  split at h
  · cases h
  · split at h
    · cases h
    · rename_i sizes hsizes
      obtain rfl := Except.ok.inj h
      simp only [calculatePublishPacketSize] at hsizes
      split at hsizes
      · cases hsizes
      · rename_i hfits
        split at hsizes
        · cases hsizes
        · obtain ⟨rfl, rfl⟩ := Prod.mk.inj (Option.some.inj hsizes)
          have hmax : publishInfo.topicName.length + 2 + publishInfo.qos.idLength + publishInfo.payload.length < 128 ^ 4 := by
            have hname := publishInfo.topicNameLength
            have hid : publishInfo.qos.idLength ≤ 2 := by cases publishInfo.qos <;> decide
            have hlimit : mqttMaxRemainingLength = 128 ^ 4 - 1 := rfl
            omega
          refine ⟨hbody.symm, hmax, ?_⟩
          rw [length_bytes (show (publishBody publishInfo packetId).length < 128 ^ 4 by omega)]
          show _ = 1 + remainingLengthEncodedSize (publishBody publishInfo packetId).length +
            (publishBody publishInfo packetId).length
          rw [hbody]
          omega

/-- The bytes in front of the payload. -/
def publishHeader (publishInfo : MQTTPublishInfo) (packetId : UInt16) : List UInt8 :=
  publishFlags publishInfo.qos publishInfo.retain publishInfo.dup ::
    (varint (publishBody publishInfo packetId).length ++ (encodeString publishInfo.topicName ++
      if publishInfo.qos = .qos0 then [] else uint16Bytes packetId))

theorem publishHeader_append (publishInfo : MQTTPublishInfo) (packetId : UInt16) :
    publishHeader publishInfo packetId ++ publishInfo.payload = (publishPacket publishInfo packetId).bytes := by
  simp only [publishHeader, MQTTPacketInfo.bytes, publishPacket, publishBody, List.cons_append, List.append_assoc]

theorem serializePublishCommon_header (publishInfo : MQTTPublishInfo) (packetId : UInt16) (buffer : MQTTFixedBuffer) :
    serializePublishCommon publishInfo (publishBody publishInfo packetId).length packetId false buffer =
      buffer.write (publishHeader publishInfo packetId) := by
  simp only [serializePublishCommon, publishHeader, encodeRemainingLength, Bool.false_eq_true, ite_false, List.append_nil]

theorem serializePublishCommon_packet (publishInfo : MQTTPublishInfo) (packetId : UInt16) (buffer : MQTTFixedBuffer) :
    serializePublishCommon publishInfo (publishBody publishInfo packetId).length packetId true buffer =
      buffer.write (publishPacket publishInfo packetId).bytes := by
  simp only [serializePublishCommon, MQTTPacketInfo.bytes, publishPacket, publishBody, encodeRemainingLength, ite_true]

theorem publishParametersBad_eq_false {publishInfo : MQTTPublishInfo} {packetId : UInt16}
    (h : ¬ publishParametersBad publishInfo packetId = true) :
    publishInfo.topicName ≠ [] ∧ (publishInfo.qos ≠ .qos0 → packetId ≠ 0) ∧
      (publishInfo.dup = true → publishInfo.qos ≠ .qos0) := by
  simp only [publishParametersBad, Bool.or_eq_true, Bool.and_eq_true, beq_iff_eq, bne_iff_ne, not_or, not_and] at h
  obtain ⟨⟨hname, hid⟩, hdup⟩ := h
  exact ⟨fun hnil => hname (by rw [hnil]; rfl), hid, hdup⟩

/-- The header is written with its size, or nothing is. -/
theorem mqttSerializePublishHeader_spec {publishInfo : MQTTPublishInfo} {packetId : UInt16} {buffer : MQTTFixedBuffer}
    (hlength : (publishBody publishInfo packetId).length < 128 ^ 4) {buffer' : MQTTFixedBuffer} {headerSize : Nat}
    (h : mqttSerializePublishHeader publishInfo packetId (publishBody publishInfo packetId).length buffer =
      .ok (buffer', headerSize)) :
    buffer' = buffer.write (publishHeader publishInfo packetId) ∧
      headerSize = (publishHeader publishInfo packetId).length ∧ headerSize ≤ buffer.length ∧
      publishInfo.topicName ≠ [] ∧ (publishInfo.qos ≠ .qos0 → packetId ≠ 0) ∧
      (publishInfo.dup = true → publishInfo.qos ≠ .qos0) := by
  unfold mqttSerializePublishHeader at h
  split at h
  · cases h
  · rename_i hparameters
    dsimp only at h
    split at h
    · cases h
    · rename_i hfits
      obtain ⟨rfl, rfl⟩ := Prod.mk.inj (Except.ok.inj h)
      refine ⟨serializePublishCommon_header publishInfo packetId buffer, ?_, Nat.le_of_not_lt hfits,
        publishParametersBad_eq_false hparameters⟩
      have hbytes := congrArg List.length (publishHeader_append publishInfo packetId)
      rw [length_bytes (show (publishPacket publishInfo packetId).remainingData.length < 128 ^ 4 from hlength),
        List.length_append] at hbytes
      rw [show (publishPacket publishInfo packetId).remainingData = publishBody publishInfo packetId from rfl] at hbytes
      omega

/-- The serializer that also copies the payload writes the same bytes. -/
theorem mqttSerializePublish_spec {publishInfo : MQTTPublishInfo} {packetId : UInt16} {buffer buffer' : MQTTFixedBuffer}
    (h : mqttSerializePublish publishInfo packetId (publishBody publishInfo packetId).length buffer = .ok buffer') :
    buffer' = buffer.write (publishPacket publishInfo packetId).bytes ∧
      ∃ header headerSize, mqttSerializePublishHeader publishInfo packetId (publishBody publishInfo packetId).length buffer =
        .ok (header, headerSize) := by
  unfold mqttSerializePublish at h
  split at h
  · cases h
  · rename_i hparameters
    dsimp only at h
    split at h
    · cases h
    · obtain rfl := Except.ok.inj h
      refine ⟨serializePublishCommon_packet publishInfo packetId buffer, ?_⟩
      unfold mqttSerializePublishHeader
      rw [if_neg hparameters]
      dsimp only
      rw [if_neg (by omega)]
      exact ⟨_, _, rfl⟩

theorem encodeOptional_text (text : Option MqttText) : encodeOptional mqttText text = encodeOption text := by
  cases text <;> rfl

theorem length_encodeOption (text : Option MqttText) : (encodeOption text).length = optionSize text := by
  cases text with
  | none => rfl
  | some text => exact length_encodeString text.1

/-- The will that is sent; its payload is text like the others. -/
def willOf (willInfo : MQTTPublishInfo) : Option Will :=
  if h : willInfo.payload.length < 65536 then
    some ⟨willInfo.qos, willInfo.retain, ⟨willInfo.topicName, willInfo.topicNameLength⟩, ⟨willInfo.payload, h⟩⟩
  else none

def connectRequest (connectInfo : MQTTConnectInfo) (willInfo : Option MQTTPublishInfo) : ConnectPacket :=
  ⟨connectInfo, willInfo.bind willOf⟩

theorem length_encodeWill (willInfo : Option MQTTPublishInfo) : (encodeWill willInfo).length = willSize willInfo := by
  cases willInfo with
  | none => rfl
  | some w =>
    show (encodeString w.topicName ++ encodeString w.payload).length = _
    rw [List.length_append, length_encodeString, length_encodeString]
    rfl

/-- The data of a CONNECT, as they are written. -/
theorem connectRequest_body {connectInfo : MQTTConnectInfo} {willInfo : Option MQTTPublishInfo}
    (hwill : ∀ w, willInfo = some w → w.payload.length < 65536) :
    (connectRequest connectInfo willInfo).body = encodeString [0x4D, 0x51, 0x54, 0x54] ++ (4 ::
      connectFlags connectInfo.cleanSession connectInfo.userName.isSome connectInfo.password.isSome
        (willInfo.map fun willInfo => (willInfo.qos, willInfo.retain)) ::
      (uint16Bytes connectInfo.keepAliveSeconds ++ (encodeString connectInfo.clientIdentifier.1 ++
        (encodeWill willInfo ++ (encodeOption connectInfo.userName ++ encodeOption connectInfo.password))))) := by
  have hnone : encodeOptional (mqttText.pair mqttText) none = [] := rfl
  cases willInfo with
  | none =>
    simp only [ConnectPacket.body, ConnectPacket.flags, connectRequest, Option.bind_none, Option.map_none, hnone,
      encodeOptional_text, encodeWill]
  | some w =>
    have hsome : willOf w = some ⟨w.qos, w.retain, ⟨w.topicName, w.topicNameLength⟩, ⟨w.payload, hwill w rfl⟩⟩ :=
      dif_pos (hwill w rfl)
    have hencode : encodeOptional (mqttText.pair mqttText)
        (some (⟨w.topicName, w.topicNameLength⟩, ⟨w.payload, hwill w rfl⟩)) = encodeWill (some w) := rfl
    simp only [ConnectPacket.body, ConnectPacket.flags, connectRequest, Option.bind_some, hsome, Option.map_some, hencode,
      encodeOptional_text]

theorem optionSize_le (text : Option MqttText) : optionSize text ≤ 65537 := by
  cases text with
  | none => exact Nat.zero_le _
  | some text =>
    have htext := text.2
    show text.1.length + 2 ≤ 65537
    omega

theorem mqttGetConnectPacketSize_spec {connectInfo : MQTTConnectInfo} {willInfo : Option MQTTPublishInfo}
    {remainingLength packetSize : Nat}
    (h : mqttGetConnectPacketSize connectInfo willInfo = .ok (remainingLength, packetSize)) :
    (∀ w, willInfo = some w → w.payload.length < 65536) ∧
      remainingLength = (connectRequest connectInfo willInfo).body.length ∧ remainingLength < 128 ^ 4 ∧
      packetSize = 1 + remainingLengthEncodedSize remainingLength + remainingLength := by
  unfold mqttGetConnectPacketSize at h
  split at h
  · cases h
  · split at h
    · cases h
    · rename_i hany
      have hwill : ∀ w, willInfo = some w → w.payload.length < 65536 := by
        rintro w rfl
        simp only [Option.any_some, decide_eq_true_eq] at hany
        omega
      have hwillSize : willSize willInfo ≤ 131074 := by
        cases willInfo with
        | none => exact Nat.zero_le _
        | some w =>
          have htopic := w.topicNameLength
          have hpayload := hwill w rfl
          show w.topicName.length + 2 + w.payload.length + 2 ≤ 131074
          omega
      have hclient := connectInfo.clientIdentifier.2
      have huser := optionSize_le connectInfo.userName
      have hpassword := optionSize_le connectInfo.password
      obtain ⟨rfl, rfl⟩ := Prod.mk.inj (Except.ok.inj h)
      refine ⟨hwill, ?_, by omega, by omega⟩
      simp only [connectRequest_body hwill, List.length_append, List.length_cons, List.length_nil, length_encodeString,
        length_uint16Bytes, length_encodeOption, length_encodeWill]
      omega

/-- What is written for a CONNECT. -/
theorem mqttSerializeConnect_spec {connectInfo : MQTTConnectInfo} {willInfo : Option MQTTPublishInfo}
    {remainingLength packetSize : Nat}
    (hsize : mqttGetConnectPacketSize connectInfo willInfo = .ok (remainingLength, packetSize))
    {buffer buffer' : MQTTFixedBuffer}
    (h : mqttSerializeConnect connectInfo willInfo remainingLength buffer = .ok buffer') :
    (connectRequest connectInfo willInfo).body.length < 128 ^ 4 ∧
      buffer' =
        buffer.write (MQTTPacketInfo.bytes ⟨mqttPacketTypeConnect, (connectRequest connectInfo willInfo).body⟩) ∧
      packetSize =
        (MQTTPacketInfo.bytes ⟨mqttPacketTypeConnect, (connectRequest connectInfo willInfo).body⟩).length ∧
      packetSize ≤ buffer.length := by
  obtain ⟨hwill, rfl, hlength, rfl⟩ := mqttGetConnectPacketSize_spec hsize
  have hbytes : (MQTTPacketInfo.bytes ⟨mqttPacketTypeConnect, (connectRequest connectInfo willInfo).body⟩).length =
    1 + remainingLengthEncodedSize (connectRequest connectInfo willInfo).body.length +
      (connectRequest connectInfo willInfo).body.length := length_bytes hlength
  unfold mqttSerializeConnect at h
  dsimp only at h
  split at h
  · cases h
  · rename_i hfits
    obtain rfl := Except.ok.inj h
    refine ⟨hlength, ?_, hbytes.symm, by omega⟩
    rw [MQTTPacketInfo.bytes, serializeConnectPacket]
    simp only [connectRequest_body hwill, encodeRemainingLength]

theorem mqttSerializeAck_spec {packetType : UInt8} {packetId : UInt16} {buffer buffer' : MQTTFixedBuffer}
    (h : mqttSerializeAck packetType packetId buffer = .ok buffer') :
    isAckType packetType = true ∧ buffer' = buffer.write (MQTTPacketInfo.bytes ⟨packetType, uint16Bytes packetId⟩) ∧
      mqttPublishAckPacketSize = (MQTTPacketInfo.bytes ⟨packetType, uint16Bytes packetId⟩).length ∧
      mqttPublishAckPacketSize ≤ buffer.length := by
  have hbytes : MQTTPacketInfo.bytes ⟨packetType, uint16Bytes packetId⟩ = packetType :: 2 :: uint16Bytes packetId := by
    rw [MQTTPacketInfo.bytes, length_uint16Bytes, varint_of_lt (by decide)]
    rfl
  unfold mqttSerializeAck at h
  split at h
  · cases h
  · rename_i hfits
    split at h
    · cases h
    · split at h
      · rename_i htype
        obtain rfl := Except.ok.inj h
        rw [hbytes]
        refine ⟨?_, rfl, rfl, Nat.le_of_not_lt hfits⟩
        simpa only [isAckType, Bool.or_eq_true, beq_iff_eq, or_assoc] using htype
      · cases h

theorem serializeEmpty_spec {packetType : UInt8} {buffer buffer' : MQTTFixedBuffer}
    (h : serializeEmpty packetType buffer = .ok buffer') :
    buffer' = buffer.write (MQTTPacketInfo.bytes ⟨packetType, []⟩) ∧
      2 = (MQTTPacketInfo.bytes ⟨packetType, []⟩).length ∧ 2 ≤ buffer.length := by
  have hbytes : MQTTPacketInfo.bytes ⟨packetType, []⟩ = [packetType, 0] := by
    rw [MQTTPacketInfo.bytes, List.length_nil, varint_of_lt (by decide)]
    rfl
  unfold serializeEmpty at h
  split at h
  · cases h
  · rename_i hfits
    obtain rfl := Except.ok.inj h
    rw [hbytes]
    exact ⟨rfl, rfl, Nat.le_of_not_lt hfits⟩

/-! ### Why a serializer fails -/

theorem serializeEmpty_error {packetType : UInt8} {buffer : MQTTFixedBuffer} {status : MQTTStatus}
    (h : serializeEmpty packetType buffer = .error status) : status = .noMemory := by
  unfold serializeEmpty at h
  split at h
  · exact (Except.error.inj h).symm
  · cases h

theorem mqttGetConnectPacketSize_error {connectInfo : MQTTConnectInfo} {willInfo : Option MQTTPublishInfo}
    {status : MQTTStatus} (h : mqttGetConnectPacketSize connectInfo willInfo = .error status) :
    status = .badParameter := by
  unfold mqttGetConnectPacketSize at h
  split at h
  · exact (Except.error.inj h).symm
  · split at h
    · exact (Except.error.inj h).symm
    · cases h

theorem mqttSerializeConnect_error {connectInfo : MQTTConnectInfo} {willInfo : Option MQTTPublishInfo}
    {remainingLength : Nat} {buffer : MQTTFixedBuffer} {status : MQTTStatus}
    (h : mqttSerializeConnect connectInfo willInfo remainingLength buffer = .error status) : status = .noMemory := by
  unfold mqttSerializeConnect at h
  dsimp only at h
  split at h
  · exact (Except.error.inj h).symm
  · cases h

theorem mqttGetPublishPacketSize_error {publishInfo : MQTTPublishInfo} {status : MQTTStatus}
    (h : mqttGetPublishPacketSize publishInfo = .error status) : status = .badParameter := by
  unfold mqttGetPublishPacketSize at h
  split at h
  · exact (Except.error.inj h).symm
  · split at h
    · exact (Except.error.inj h).symm
    · cases h

theorem mqttSerializePublishHeader_error {publishInfo : MQTTPublishInfo} {packetId : UInt16} {remainingLength : Nat}
    {buffer : MQTTFixedBuffer} {status : MQTTStatus}
    (h : mqttSerializePublishHeader publishInfo packetId remainingLength buffer = .error status) :
    status = .badParameter ∨ status = .noMemory := by
  unfold mqttSerializePublishHeader at h
  split at h
  · exact Or.inl (Except.error.inj h).symm
  · dsimp only at h
    split at h
    · exact Or.inr (Except.error.inj h).symm
    · cases h

/-! ### What a broker reads from a connection -/

def frames : Code (List (UInt8 × {data : List UInt8 // data.length < 128 ^ 4})) := frame.many fun _ => List.cons_ne_nil _ _

/-- All packets of a connection. -/
def readPackets (wire : List UInt8) : Option (List ClientPacket) :=
  match frames.decode wire with
  | none => none
  | some fs => fs.mapM fun f => readPacket ⟨f.1, f.2.1⟩

/-- Packets that were written one behind the other are read back. -/
theorem readPackets_packets {packets : List ClientPacket}
    (h : ∀ p ∈ packets, p.Readable) :
    readPackets (packets.flatMap fun p => p.packet.bytes) = some packets := by
  have hframes : ∃ fs, packets.flatMap (fun p => p.packet.bytes) = frames.encode fs ∧
      (fs.mapM fun f => readPacket ⟨f.1, f.2.1⟩) = some packets := by
    induction packets with
    | nil => exact ⟨[], rfl, rfl⟩
    | cons p packets ih =>
      obtain ⟨⟨hvalid, hlength⟩, hrest⟩ := List.forall_mem_cons.1 h
      obtain ⟨fs, hbytes, hread⟩ := ih hrest
      refine ⟨(p.packet.type, ⟨p.packet.remainingData, hlength⟩) :: fs, ?_, ?_⟩
      · rw [List.flatMap_cons, hbytes]
        rfl
      · have hp : readPacket ⟨p.packet.type, p.packet.remainingData⟩ = some p := readPacket_packet hvalid
        rw [List.mapM_cons, hp, hread]
        rfl
  obtain ⟨fs, hbytes, hread⟩ := hframes
  rw [readPackets, hbytes, frames.decode_encode]
  exact hread

end TuyaDaemon
