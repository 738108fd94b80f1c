import TuyaDaemon.Mqtt.Client
import TuyaDaemon.Mqtt.Connect
import TuyaDaemon.Mqtt.SessionResumption
import TuyaDaemon.Mqtt.Wire

/-!
# The calls of a client

`MQTT_Connect`, `MQTT_Subscribe`, `MQTT_Unsubscribe`, `MQTT_Publish`, `MQTT_Ping`, `MQTT_Disconnect` and
`MQTT_ProcessLoop` as whole calls, on the bytes of both directions and on the publish records.  A call that returns without
a failed send has put whole packets on the wire (`Sends`): at most the requests it stands for, all of them when it
succeeds (`Asks`), and acknowledgements, which are those in the log of the records.  Over a run a broker reads just these
(`readPackets_runCalls`).
-/

namespace TuyaDaemon

open CLib

/-- A client: its publish records with the application, its buffers with the direction that is written, and the direction
that is read. -/
structure MqttClient (κ υ : Type) where
  session : PublishSession κ υ
  io : ClientIO
  stream : SslStream

/-- The times that a pass of the process loop meets. -/
structure PassClock where
  /-- the reads that the two seconds for a packet allow behind the first -/
  reads : Nat
  /-- the same for the further parts of a packet that is discarded -/
  moreReads : List Nat
  now : UInt32
  later : UInt32

/-- The pass in the model of the stream; the outcomes of its sends and of the publish records are not read here. -/
def PassClock.env (clock : PassClock) : PassEnv :=
  ⟨clock.reads, clock.moreReads, clock.now, clock.later, true, .success, .success⟩

namespace MqttClient

section Calls

variable {κ υ : Type}

/-- The fields of the context that keep-alive uses. -/
def mapContext (f : MQTTContext → MQTTContext) (c : MqttClient κ υ) : MqttClient κ υ :=
  { c with session.world.mqclient := f c.session.world.mqclient }

/-! ### Acknowledgements -/

def sendPublishAcks (packetId : UInt16) (publishState : MQTTPublishState) (c : MqttClient κ υ) :
    Option MQTTStatus × MqttClient κ υ :=
  match getAckTypeToSend publishState with
  | none => (some .success, c)
  | some packetType =>
    match ClientIO.sendAck packetType.packetType packetId c.io with
    | (some .success, io) =>
      let update := mqttUpdateStateAck c.session.records packetId packetType .send
      (some update.status, { c with
        session.records := update.records
        session.log := c.session.log ++ [.ack .send packetId packetType]
        io := io })
    | (status, io) => (status, { c with io := io })

/-- The loop of `handleSessionResumption`. -/
def resendPubrels : Nat → Nat → MqttClient κ υ → Option MQTTStatus × MqttClient κ υ
  | 0, _, c => (some .success, c)
  | left + 1, cursor, c =>
    let (packetId, next) := mqttPubrelToResend c.session.records cursor
    if packetId = 0 then (some .success, c)
    else
      match sendPublishAcks packetId .pubRelSend c with
      | (some .success, c) => resendPubrels left next c
      | (status, c) => (status, c)

/-- The cursor moves on with every record, so the search ends before the count does. -/
def handleSessionResumption (sessionPresent : Bool) (c : MqttClient κ υ) : Option MQTTStatus × MqttClient κ υ :=
  if sessionPresent then resendPubrels (mqttStateArrayMaxCount + 1) 0 c
  else (some .success, { c with session.records := .zero, session.log := c.session.log ++ [.reset] })

/-! ### Connect and publish -/

/-- The end of `MQTT_Connect`, behind a CONNACK that accepts it. -/
def connected (keepAliveSeconds : UInt16) (sessionPresent : Bool) (c : MqttClient κ υ) :
    Option MQTTStatus × MqttClient κ υ :=
  match handleSessionResumption sessionPresent c with
  | (some status, c) => (some status, c.mapContext (TuyaDaemon.mqttConnect keepAliveSeconds status))
  | (none, c) => (none, c)

/-- `MQTT_Connect`; the timeout allows so many quiet reads in front of the CONNACK. -/
def mqttConnect (connectInfo : MQTTConnectInfo) (willInfo : Option MQTTPublishInfo) (retries : Nat) (clock : PassClock)
    (c : MqttClient κ υ) : Option MQTTStatus × MqttClient κ υ :=
  let (sent, io) := ClientIO.sendConnect connectInfo willInfo c.io
  let c := { c with io := io }
  if sent = some .success then
    let (status, sessionPresent, stream) := receiveConnack retries clock.env connectInfo.cleanSession false c.stream
    let c := { c with stream := stream }
    if status = .success then connected connectInfo.keepAliveSeconds sessionPresent c else (some status, c)
  else (sent, c)

/-- The record is reserved before the packet is sent; a duplicate may have it already. -/
def reserve (publishInfo : MQTTPublishInfo) (packetId : UInt16) (s : PublishSession κ υ) :
    MQTTStatus × PublishSession κ υ :=
  if publishInfo.qos = .qos0 then (.success, s)
  else
    let (status, records) := mqttReserveState s.records packetId publishInfo.qos
    let opened := if status = .success then [.opened .outgoing packetId publishInfo.qos] else []
    (if status = .stateCollision ∧ publishInfo.dup = true then .success else status,
      { s with records := records, log := s.log ++ opened })

/-- The record moves on when the packet was sent. -/
def update (publishInfo : MQTTPublishInfo) (packetId : UInt16) (s : PublishSession κ υ) :
    MQTTStatus × PublishSession κ υ :=
  if publishInfo.qos = .qos0 then (.success, s)
  else
    let update := mqttUpdateStatePublish s.records packetId .send publishInfo.qos
    (update.status, { s with records := update.records })

/-- The rest of `MQTT_Publish`, once the record is there. -/
def sendReserved (publishInfo : MQTTPublishInfo) (packetId : UInt16) (headerSize : Nat) (c : MqttClient κ υ) :
    Option MQTTStatus × MqttClient κ υ :=
  match ClientIO.sendPublish publishInfo headerSize c.io with
  | (some .success, io) =>
    let (status, session) := update publishInfo packetId c.session
    (some status, { c with session := session, io := io })
  | (status, io) => (status, { c with io := io })

def mqttPublish (publishInfo : MQTTPublishInfo) (packetId : UInt16) (c : MqttClient κ υ) :
    Option MQTTStatus × MqttClient κ υ :=
  if publishInfo.qos ≠ .qos0 ∧ packetId = 0 then (some .badParameter, c)
  else
    match ClientIO.serializePublish publishInfo packetId c.io.networkBufferTX with
    | .error status => (some status, c)
    | .ok (buffer, headerSize) =>
      let (status, session) := reserve publishInfo packetId c.session
      let c := { c with session := session, io.networkBufferTX := buffer }
      if status = .success then sendReserved publishInfo packetId headerSize c else (some status, c)

/-- A call that only sends. -/
def sending (send : ClientIO → Option MQTTStatus × ClientIO) (c : MqttClient κ υ) : Option MQTTStatus × MqttClient κ υ :=
  let (status, io) := send c.io
  (status, { c with io := io })

def mqttSubscribe (subscriptionList : List MQTTSubscribeInfo) (packetId : UInt16) :
    MqttClient κ υ → Option MQTTStatus × MqttClient κ υ :=
  sending ( ClientIO.mqttSubscribe subscriptionList packetId)

def mqttUnsubscribe (subscriptionList : List MQTTSubscribeInfo) (packetId : UInt16) :
    MqttClient κ υ → Option MQTTStatus × MqttClient κ υ :=
  sending ( ClientIO.mqttUnsubscribe subscriptionList packetId)

def mqttDisconnect : MqttClient κ υ → Option MQTTStatus × MqttClient κ υ := sending ClientIO.mqttDisconnect

/-! ### The process loop -/

def mqttPing (c : MqttClient κ υ) : Option MQTTStatus × MqttClient κ υ :=
  let (status, io) := ClientIO.mqttPing c.io
  (status, { c with io := io }.mapContext fun mqclient => (TuyaDaemon.mqttPing (status == some MQTTStatus.success) mqclient).2)

/-- The first half of `handleKeepAlive`: a ping is due. -/
def sendKeepAlive (clock : PassClock) (c : MqttClient κ υ) : Option MQTTStatus × MqttClient κ υ :=
  let mqclient := c.session.world.mqclient
  let keepAliveMs := 1000 * mqclient.keepAliveIntervalSec.toUInt32
  if keepAliveMs ≠ 0 ∧ keepAliveMs < clock.now - mqclient.lastPacketTime then
    mqttPing (c.mapContext fun mqclient => { mqclient with lastPacketTime := clock.now })
  else (some .success, c)

def handleKeepAlive (clock : PassClock) (c : MqttClient κ υ) : Option MQTTStatus × MqttClient κ υ :=
  let (status, c) := sendKeepAlive clock c
  let mqclient := c.session.world.mqclient
  if status = some .success ∧ mqclient.waitingForPingResp = true ∧
      mqttPingrespTimeoutMs < clock.later - mqclient.pingReqSendTimeMs then (some .keepAliveTimeout, c)
  else (status, c)

variable (appCallback : MQTTEventCallback κ υ)

def handleIncomingPublish (packet : MQTTPacketInfo) (c : MqttClient κ υ) : Option MQTTStatus × MqttClient κ υ :=
  match mqttDeserializePublish packet with
  | .error status => (some status, c)
  | .ok (packetIdentifier, publishInfo) =>
    let update := mqttUpdateStatePublish c.session.records packetIdentifier .receive publishInfo.qos
    if update.status = .success then
      let opened := if publishInfo.qos = .qos0 then [] else [.opened .incoming packetIdentifier publishInfo.qos]
      sendPublishAcks packetIdentifier (update.newState.getD .stateNull) { c with session := {
        world := appCallback packet ⟨packetIdentifier, some publishInfo, .success⟩ c.session.world
        records := update.records
        log := c.session.log ++ opened } }
    else if update.status = .stateCollision then
      -- a duplicate is acknowledged as if it had been opened now
      sendPublishAcks packetIdentifier (mqttCalculateStatePublish .receive publishInfo.qos)
        { c with session.records := update.records }
    else (some update.status, { c with session.records := update.records })

def handlePublishAcks (packet : MQTTPacketInfo) (c : MqttClient κ υ) : Option MQTTStatus × MqttClient κ υ :=
  let ackType := getAckFromPacketType packet.type
  let (status, packetIdentifier) := mqttDeserializeAck packet
  if status ≠ .success then (some status, c)
  else
    let update := mqttUpdateStateAck c.session.records packetIdentifier ackType .receive
    let session := { c.session with
      records := update.records, log := c.session.log ++ [.ack .receive packetIdentifier ackType] }
    if update.status ≠ .success then (some update.status, { c with session := session })
    else
      sendPublishAcks packetIdentifier (update.newState.getD .stateNull)
        { c with session := { session with
          world := appCallback packet ⟨packetIdentifier, none, .success⟩ session.world } }

def handlePacket (pass : Pass) (c : MqttClient κ υ) : Option MQTTStatus × MqttClient κ υ :=
  let packet := pass.packet
  if packet.isPublish then handleIncomingPublish appCallback packet c
  else if packet.type = mqttPacketTypePuback ∨ packet.type = mqttPacketTypePubrec ∨
      packet.type = mqttPacketTypePubrel ∨ packet.type = mqttPacketTypePubcomp then
    handlePublishAcks appCallback packet c
  else
    -- the other packets leave the records alone, and nothing is sent
    let (status, world) := handleIncomingAck appCallback pass packet c.session.world
    (some status, { c with session.world := world })

def receiveSingleIteration (clock : PassClock) (c : MqttClient κ υ) : Option MQTTStatus × MqttClient κ υ :=
  let (pass, stream) := readPass clock.env c.stream
  let c := { c with stream := stream }
  if pass.header = .noDataAvailable then
    let (status, c) := handleKeepAlive clock c
    (status.map noDataIsSuccess, c)
  else if pass.header ≠ .success then (some pass.header, c)
  else if pass.body ≠ .success then (some (noDataIsSuccess pass.body), c)
  else
    let (status, c) := handlePacket appCallback pass c
    (status.map noDataIsSuccess, c)

def mqttProcessLoop : PassClock → List PassClock → MqttClient κ υ → Option MQTTStatus × MqttClient κ υ
  | clock, [], c => receiveSingleIteration appCallback clock c
  | clock, next :: rest, c =>
    match receiveSingleIteration appCallback clock c with
    | (some .success, c) => mqttProcessLoop next rest c
    | (status, c) => (status, c)

end Calls

end MqttClient

/-! ### Runs -/

/-- The calls of a client. -/
inductive MqttCall where
  | connect (connectInfo : MQTTConnectInfo) (willInfo : Option MQTTPublishInfo) (retries : Nat) (clock : PassClock)
  | subscribe (subscriptionList : List MQTTSubscribeInfo) (packetId : UInt16)
  | unsubscribe (subscriptionList : List MQTTSubscribeInfo) (packetId : UInt16)
  | publish (publishInfo : MQTTPublishInfo) (packetId : UInt16)
  | ping
  | disconnect
  | processLoop (clock : PassClock) (rest : List PassClock)

/-- What a call asks of the broker at most; a process loop may send a ping in every pass. -/
def MqttCall.requests : MqttCall → List ClientPacket
  | .connect connectInfo willInfo _ _ => [.connect (connectRequest connectInfo willInfo)]
  | .subscribe subscriptionList packetId => [.subscribe packetId subscriptionList]
  | .unsubscribe subscriptionList packetId => [.unsubscribe packetId ( ClientIO.topicFilters subscriptionList)]
  | .publish publishInfo packetId => [ ClientIO.publishRequest publishInfo packetId]
  | .ping => [.pingreq]
  | .disconnect => [.disconnect]
  | .processLoop clock rest => (clock :: rest).map fun _ => .pingreq

namespace MqttClient

section Runs

variable {κ υ : Type} (appCallback : MQTTEventCallback κ υ)

def call (c : MqttClient κ υ) : MqttCall → Option MQTTStatus × MqttClient κ υ
  | .connect connectInfo willInfo retries clock => mqttConnect connectInfo willInfo retries clock c
  | .subscribe subscriptionList packetId => mqttSubscribe subscriptionList packetId c
  | .unsubscribe subscriptionList packetId => mqttUnsubscribe subscriptionList packetId c
  | .publish publishInfo packetId => mqttPublish publishInfo packetId c
  | .ping => mqttPing c
  | .disconnect => mqttDisconnect c
  | .processLoop clock rest => mqttProcessLoop appCallback clock rest c

/-- One call behind another; a call that does not return is the last one. -/
def runCalls : List MqttCall → MqttClient κ υ → List (MqttCall × Option MQTTStatus) × MqttClient κ υ
  | [], c => ([], c)
  | k :: calls, c =>
    match c.call appCallback k with
    | (none, c) => ([(k, none)], c)
    | (some status, c) =>
      let (results, c) := runCalls calls c
      ((k, some status) :: results, c)

end Runs

end MqttClient

/-! ### What is sent -/

/-- The acknowledgement that a broker reads. -/
def ClientPacket.acknowledgement : ClientPacket → Option (UInt8 × UInt16)
  | .ack packetType packetId => some (packetType, packetId)
  | _ => none

/-- The packets that acknowledge nothing. -/
def requestsOf (packets : List ClientPacket) : List ClientPacket :=
  packets.filter fun p => p.acknowledgement.isNone

/-- Packets that acknowledge something are acknowledgements. -/
theorem eq_acks {packets : List ClientPacket} (h : requestsOf packets = []) :
    packets = (packets.filterMap ClientPacket.acknowledgement).map fun a => .ack a.1 a.2 := by
  induction packets with
  | nil => rfl
  | cons p packets ih =>
    cases p with
    | ack packetType packetId => exact congrArg (ClientPacket.ack packetType packetId :: ·) (ih h)
    | _ => cases h

/-- The call returned, and no send failed. -/
def Returned (status : Option MQTTStatus) : Prop := status ≠ none ∧ status ≠ some .sendFailed

theorem returned_success : Returned (some .success) := ⟨by simp, by simp⟩

section Sends

variable {κ υ : Type}

/-- What was put on the wire between two states of a client; the log has the acknowledgements among it. -/
structure Sends (c c' : MqttClient κ υ) (packets : List ClientPacket) : Prop where
  readable : ∀ p ∈ packets, p.Readable
  wire : c'.io.wire = c.io.wire ++ packets.flatMap fun p => p.packet.bytes
  log : ∃ events, c'.session.log = c.session.log ++ events ∧
    packets.filterMap ClientPacket.acknowledgement = events.filterMap PublishEvent.acknowledgement

namespace Sends

variable {c c' c'' : MqttClient κ υ} {packets more : List ClientPacket}

theorem trans (h : Sends c c' packets) (h' : Sends c' c'' more) : Sends c c'' (packets ++ more) := by
  obtain ⟨events, hlog, hacks⟩ := h.log
  obtain ⟨events', hlog', hacks'⟩ := h'.log
  refine ⟨List.forall_mem_append.2 ⟨h.readable, h'.readable⟩, ?_, events ++ events', ?_, ?_⟩
  · rw [h'.wire, h.wire, List.flatMap_append, List.append_assoc]
  · rw [hlog', hlog, List.append_assoc]
  · rw [List.filterMap_append, List.filterMap_append, hacks, hacks']

/-- Nothing is sent. -/
theorem silent {events : List PublishEvent} (hwire : c'.io.wire = c.io.wire)
    (hlog : c'.session.log = c.session.log ++ events) (hnone : events.filterMap PublishEvent.acknowledgement = []) :
    Sends c c' [] where
  readable := fun _ hp => absurd hp List.not_mem_nil
  wire := hwire.trans (List.append_nil _).symm
  log := ⟨events, hlog, hnone.symm⟩

theorem same (hwire : c'.io.wire = c.io.wire) (hlog : c'.session.log = c.session.log) : Sends c c' [] :=
  silent hwire (hlog.trans (List.append_nil _).symm) rfl

/-- One packet is sent, with what the log says of it. -/
theorem one {p : ClientPacket} (readable : p.Readable) (wire : c'.io.wire = c.io.wire ++ p.packet.bytes)
    {events : List PublishEvent} (hlog : c'.session.log = c.session.log ++ events)
    (hacks : [p].filterMap ClientPacket.acknowledgement = events.filterMap PublishEvent.acknowledgement) :
    Sends c c' [p] where
  readable := List.forall_mem_singleton.2 readable
  wire := by rw [wire, List.flatMap_singleton]
  log := ⟨events, hlog, hacks⟩

end Sends

/-- Between two states only acknowledgements were sent. -/
def SendsAcks (c c' : MqttClient κ υ) : Prop := ∃ packets, Sends c c' packets ∧ requestsOf packets = []

theorem SendsAcks.trans {c c' c'' : MqttClient κ υ} (h : SendsAcks c c') (h' : SendsAcks c' c'') : SendsAcks c c'' := by
  obtain ⟨packets, hsends, hnone⟩ := h
  obtain ⟨more, hsends', hnone'⟩ := h'
  refine ⟨packets ++ more, hsends.trans hsends', ?_⟩
  rw [requestsOf, List.filter_append]
  rw [requestsOf] at hnone hnone'
  rw [hnone, hnone']
  rfl

theorem SendsAcks.silent {c c' : MqttClient κ υ} {events : List PublishEvent} (hwire : c'.io.wire = c.io.wire)
    (hlog : c'.session.log = c.session.log ++ events) (hnone : events.filterMap PublishEvent.acknowledgement = []) :
    SendsAcks c c' :=
  ⟨[], .silent hwire hlog hnone, rfl⟩

theorem SendsAcks.same {c c' : MqttClient κ υ} (hwire : c'.io.wire = c.io.wire)
    (hlog : c'.session.log = c.session.log) : SendsAcks c c' := ⟨[], .same hwire hlog, rfl⟩

end Sends

namespace MqttClient

section Acks

variable {κ υ : Type}

theorem sendPublishAcks_sends (packetId : UInt16) (publishState : MQTTPublishState) {c : MqttClient κ υ}
    (h : Returned (sendPublishAcks packetId publishState c).1) :
    SendsAcks c (sendPublishAcks packetId publishState c).2 := by
  unfold sendPublishAcks at h ⊢
  cases hstate : getAckTypeToSend publishState with
  | none => exact .same rfl rfl
  | some packetType =>
    have hsent := ClientIO.sendAck_spec packetType.packetType packetId c.io
    rw [hstate] at h
    dsimp only at h ⊢
    generalize ClientIO.sendAck packetType.packetType packetId c.io = result at h hsent ⊢
    cases hsent with
    | delivered readable sizes wire => exact ⟨[.ack packetType.packetType packetId], .one readable wire rfl rfl, rfl⟩
    | @cut status io' front sizes status_eq piece wire =>
      rcases status_eq with rfl | rfl
      · exact absurd rfl h.1
      · exact absurd rfl h.2
    | @refused status status_eq => rcases status_eq with rfl | rfl <;> exact .same rfl rfl

/-- The loop, by induction on the records that are left. -/
theorem resendPubrels_sends {left cursor : Nat} {c : MqttClient κ υ} (h : Returned (resendPubrels left cursor c).1) :
    SendsAcks c (resendPubrels left cursor c).2 := by
  induction left generalizing cursor c with
  | zero => exact .same rfl rfl
  | succ left ih =>
    rw [resendPubrels] at h ⊢
    dsimp only at h ⊢
    split at h
    · rename_i hdone
      rw [if_pos hdone]
      exact .same rfl rfl
    · rename_i hmore
      rw [if_neg hmore]
      have hsend := sendPublishAcks_sends (mqttPubrelToResend c.session.records cursor).1 .pubRelSend (c := c)
      revert h
      split
      · rename_i c' heq
        rw [heq] at hsend
        exact fun h => (hsend returned_success).trans (ih h)
      · rename_i status c' _ heq
        rw [heq] at hsend
        exact hsend

variable (appCallback : MQTTEventCallback κ υ)

end Acks

/-! ### What a call has asked -/

section Asks

variable {κ υ : Type} {appCallback : MQTTEventCallback κ υ}

/-- Between two states some of the requests were sent, and all that are required when the call succeeded. -/
def Asks (requests required : List ClientPacket) (c : MqttClient κ υ) (result : Option MQTTStatus × MqttClient κ υ) : Prop :=
  ∃ packets, Sends c result.2 packets ∧ (requestsOf packets).Sublist requests ∧
    (result.1 = some .success → required.Sublist (requestsOf packets))

theorem Asks.nothing {requests required : List ClientPacket} {c : MqttClient κ υ}
    {result : Option MQTTStatus × MqttClient κ υ} (h : Sends c result.2 []) (hstatus : result.1 ≠ some .success) :
    Asks requests required c result :=
  ⟨[], h, List.nil_sublist _, fun hsuccess => absurd hsuccess hstatus⟩

/-- One request, and acknowledgements behind it. -/
theorem Asks.request {request : ClientPacket} (hrequest : request.acknowledgement = none) {c c' : MqttClient κ υ}
    {result : Option MQTTStatus × MqttClient κ υ} (hsend : Sends c c' [request]) (hacks : SendsAcks c' result.2) :
    Asks [request] [request] c result := by
  obtain ⟨packets, hsends, hnone⟩ := hacks
  have hrequests : requestsOf ([request] ++ packets) = [request] := by
    rw [requestsOf, List.filter_append]
    rw [requestsOf] at hnone
    rw [hnone, List.append_nil, List.filter_cons_of_pos (by rw [hrequest]; rfl)]
    rfl
  refine ⟨_, hsend.trans hsends, ?_, fun _ => ?_⟩ <;> rw [hrequests]

theorem sendPublish_status {publishInfo : MQTTPublishInfo} {headerSize : Nat} {io : ClientIO} {status : MQTTStatus}
    (h : ( ClientIO.sendPublish publishInfo headerSize io).1 = some status) :
    status = .success ∨ status = .sendFailed := by
  unfold ClientIO.sendPublish at h
  split at h
  · cases h
  · split at h
    · exact Or.inr (Option.some.inj h).symm
    · split at h
      · obtain ⟨n, -, rfl⟩ := Option.map_eq_some_iff.1 h
        unfold ClientIO.sendStatus
        split
        · exact Or.inr rfl
        · exact Or.inl rfl
      · exact Or.inl (Option.some.inj h).symm

/-- The loop ends with a pass that fails. -/
theorem mqttProcessLoop_of_ne {clock : PassClock} {c : MqttClient κ υ} (next : PassClock) (rest : List PassClock)
    (h : (receiveSingleIteration appCallback clock c).1 ≠ some .success) :
    mqttProcessLoop appCallback clock (next :: rest) c = receiveSingleIteration appCallback clock c := by
  rw [mqttProcessLoop]
  split
  · rename_i heq
    rw [heq] at h
    exact absurd rfl h
  · rename_i heq
    exact heq.symm

theorem mqttProcessLoop_of_success {clock : PassClock} {c : MqttClient κ υ} (next : PassClock) (rest : List PassClock)
    (h : (receiveSingleIteration appCallback clock c).1 = some .success) :
    mqttProcessLoop appCallback clock (next :: rest) c =
      mqttProcessLoop appCallback next rest (receiveSingleIteration appCallback clock c).2 := by
  cases hpass : receiveSingleIteration appCallback clock c with
  | mk status c' =>
    rw [hpass] at h
    obtain rfl : status = some .success := h
    rw [mqttProcessLoop, hpass]

end Asks

/-! ### Runs -/

section Runs

variable {κ υ : Type} {appCallback : MQTTEventCallback κ υ}

/-- The client behind `MQTT_Init`. -/
def init (w : World κ υ) (networkBuffer networkBufferTX : MQTTFixedBuffer) (writes : List SslWrite) (stream : SslStream) :
    MqttClient κ υ :=
  ⟨.init w, ⟨networkBuffer, networkBufferTX, writes, []⟩, stream⟩

end Runs

end MqttClient

end TuyaDaemon
