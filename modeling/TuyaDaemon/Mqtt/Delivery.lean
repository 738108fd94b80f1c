import TuyaDaemon.Mqtt.PacketFormat
import TuyaDaemon.Mqtt.PublishSession

/-!
# Messages that arrive

From the bytes to the application: publishes of any quality of service and the PUBRELs that release those of QoS 2, as a
peer has serialized them, in TLS records of any sizes.  `Inbound.accept` says what a receiver with room for ten publishes
of QoS 2 should make of a message.  The process loop with its publish records is this receiver: it hands the messages
over to the callback, answers them, and stops at the first that the receiver refuses (`mqttProcessLoop_delivers`).
-/

namespace TuyaDaemon

open CLib

/-! ### A receiver -/

/-- What a peer sends: a publish, or the release of one of QoS 2. -/
inductive Inbound where
  | publish (packetId : UInt16) (publishInfo : MQTTPublishInfo)
  | pubrel (packetId : UInt16)

namespace Inbound

def packet : Inbound → MQTTPacketInfo
  | .publish packetId publishInfo => publishPacket publishInfo packetId
  | .pubrel packetId => ⟨mqttPacketTypePubrel, uint16Bytes packetId⟩

/-- What the application sees. -/
def deserializedInfo : Inbound → MQTTDeserializedInfo
  | .publish packetId publishInfo => ⟨packetId, some publishInfo, .success⟩
  | .pubrel packetId => ⟨packetId, none, .success⟩

/-- The acknowledgement that is due. -/
def answer : Inbound → Option (UInt8 × UInt16)
  | .publish packetId publishInfo =>
    match publishInfo.qos with
    | .qos0 => none
    | .qos1 => some (mqttPacketTypePuback, packetId)
    | .qos2 => some (mqttPacketTypePubrec, packetId)
  | .pubrel packetId => some (mqttPacketTypePubcomp, packetId)

/-- Whether a message is handed over, and which publishes of QoS 2 wait for their release then; `none` when it is refused.
A message that is too long is dropped, and a publish of QoS 2 that waits already is not handed over again. -/
def accept (waiting : List UInt16) (m : Inbound) : Option (Bool × List UInt16) :=
  if m.packet.fits then
    match m with
    | .publish packetId publishInfo =>
      match publishInfo.qos with
      | .qos0 => some (true, waiting)
      | .qos1 =>
        if packetId ∈ waiting ∨ mqttStateArrayMaxCount ≤ waiting.length then none else some (true, waiting)
      | .qos2 =>
        if packetId ∈ waiting then some (false, waiting)
        else if mqttStateArrayMaxCount ≤ waiting.length then none
        else some (true, waiting ++ [packetId])
    | .pubrel packetId => if packetId ∈ waiting then some (true, waiting.erase packetId) else none
  else some (false, waiting)

theorem accept_of_not_fits (waiting : List UInt16) {m : Inbound} (h : ¬ m.packet.fits = true) :
    m.accept waiting = some (false, waiting) := by
  unfold accept
  rw [if_neg h]

/-- The messages that are handed over before one is refused, and the publishes that wait when none was. -/
def exchange : List UInt16 → List Inbound → List Inbound × Option (List UInt16)
  | waiting, [] => ([], some waiting)
  | waiting, m :: ms =>
    match m.accept waiting with
    | none => ([], none)
    | some (handed, waiting) =>
      let (handedOver, final) := exchange waiting ms
      (if handed then m :: handedOver else handedOver, final)

/-- The acknowledgements of messages that are accepted. -/
def answers (ms : List Inbound) : List (UInt8 × UInt16) := (ms.filter fun m => m.packet.fits).filterMap answer

end Inbound

/-! ### Records of publishes that wait -/

/-- A publish of QoS 2 that waits for its release. -/
def waitingRecord (packetId : UInt16) : MQTTPubAckInfo := ⟨packetId, .qos2, .pubRelPending⟩

/-- The incoming records hold just these publishes. -/
def Waiting (records : PublishContext) (waiting : List UInt16) : Prop :=
  ∃ progress, records.Represents progress ∧ progress.incoming.items = waiting.map waitingRecord

/-- An acknowledgement in the handshake of an incoming publish. -/
theorem mqttUpdateStateAck_incoming {records : PublishContext} {progress : PublishProgress}
    (hrep : records.Represents progress) {before after : List MQTTPubAckInfo} {record : MQTTPubAckInfo}
    (hitems : progress.incoming.items = before ++ record :: after) {packetType : MQTTPubAckType}
    {opType : MQTTStateOperation} (hdirection : isPublishOutgoing packetType opType = false)
    {newState : MQTTPublishState} (hstep : handshake record.publishState packetType opType = some newState)
    (hrel : newState ≠ .pubRelSend) :
    ∃ progress', (mqttUpdateStateAck records record.packetId packetType opType).status = .success ∧
      (mqttUpdateStateAck records record.packetId packetType opType).newState = some newState ∧
      (mqttUpdateStateAck records record.packetId packetType opType).records.Represents progress' ∧
      progress'.incoming.items = if newState = .publishDone then before ++ after
        else before ++ { record with publishState := newState } :: after := by
  have hmem : record ∈ progress.incoming.items := by
    rw [hitems]
    exact List.mem_append_right _ List.mem_cons_self
  have hid := progress.incoming.nonzero record hmem
  have hdistinct := progress.incoming.distinct
  rw [hitems] at hdistinct
  obtain ⟨hstatus, hnew, hmove⟩ := PublishQueue.ack_of_step (progress.incoming.find_eq_some hmem) hstep
  obtain ⟨hstatus', hnew', hrecords⟩ := hrep.ack record.packetId packetType opType
  simp only [PublishProgress.call, if_neg hid, hdirection, Bool.false_eq_true, ite_false] at hstatus' hnew' hrecords
  refine ⟨_, hstatus'.trans hstatus, hnew'.trans hnew, hrecords, ?_⟩
  refine hmove.trans ?_
  rw [hitems, moveRecord_split hdistinct, if_neg hrel]

namespace Waiting

variable {records : PublishContext} {waiting : List UInt16}

theorem map_packetId (waiting : List UInt16) : (waiting.map waitingRecord).map (·.packetId) = waiting :=
  (List.map_map ..).trans (List.map_id _)

theorem zero : Waiting .zero [] := ⟨.empty, .zero, rfl⟩

theorem nodup (h : Waiting records waiting) : waiting.Nodup := by
  obtain ⟨progress, -, hitems⟩ := h
  have hdistinct := progress.incoming.distinct
  rwa [hitems, map_packetId] at hdistinct

theorem ne_zero (h : Waiting records waiting) {packetId : UInt16} (hmem : packetId ∈ waiting) : packetId ≠ 0 := by
  obtain ⟨progress, -, hitems⟩ := h
  exact progress.incoming.nonzero (waitingRecord packetId) (hitems ▸ List.mem_map_of_mem hmem)

section Receive

variable {packetId : UInt16} {qos : MQTTQoS}

/-- What is left of a publish that arrives. -/
theorem receive (h : Waiting records waiting) (hid : packetId ≠ 0) (hqos : qos ≠ .qos0) :
    ∃ progress, (mqttUpdateStatePublish records packetId .receive qos).records.Represents progress ∧
      ((mqttUpdateStatePublish records packetId .receive qos).status, progress.incoming.items) =
        addToQueue (waiting.map waitingRecord) ⟨packetId, qos, mqttCalculateStatePublish .receive qos⟩ ∧
      ((mqttUpdateStatePublish records packetId .receive qos).status = .success →
        (mqttUpdateStatePublish records packetId .receive qos).newState =
          some (mqttCalculateStatePublish .receive qos)) := by
  obtain ⟨progress, hrep, hitems⟩ := h
  obtain ⟨hstatus, hnew, hrecords⟩ := hrep.publishReceive hid hqos (legal_received hqos)
  have hadd := progress.incoming.add_eq ⟨packetId, qos, mqttCalculateStatePublish .receive qos⟩ hid (legal_received hqos)
  rw [hitems] at hadd
  refine ⟨_, hrecords, ?_, fun hsuccess => ?_⟩
  · rw [← hadd, hstatus]
    rfl
  · rw [hnew]
    exact if_pos (hstatus.symm.trans hsuccess)

/-- A publish begins. -/
theorem opens (h : Waiting records waiting) (hid : packetId ≠ 0) (hqos : qos ≠ .qos0) (hnot : packetId ∉ waiting)
    (hroom : waiting.length < mqttStateArrayMaxCount) :
    (mqttUpdateStatePublish records packetId .receive qos).status = .success ∧
      (mqttUpdateStatePublish records packetId .receive qos).newState = some (mqttCalculateStatePublish .receive qos) ∧
      ∃ progress, (mqttUpdateStatePublish records packetId .receive qos).records.Represents progress ∧
        progress.incoming.items =
          waiting.map waitingRecord ++ [⟨packetId, qos, mqttCalculateStatePublish .receive qos⟩] := by
  obtain ⟨progress, hrep, hadd, hnew⟩ := h.receive hid hqos
  rw [addToQueue, map_packetId, if_neg hnot, List.length_map, if_neg (Nat.not_le_of_lt hroom)] at hadd
  obtain ⟨hstatus, hitems⟩ := Prod.mk.inj hadd
  exact ⟨hstatus, hnew hstatus, progress, hrep, hitems⟩

theorem full (h : Waiting records waiting) (hid : packetId ≠ 0) (hqos : qos ≠ .qos0) (hnot : packetId ∉ waiting)
    (hfull : mqttStateArrayMaxCount ≤ waiting.length) :
    (mqttUpdateStatePublish records packetId .receive qos).status = .noMemory := by
  obtain ⟨progress, -, hadd, -⟩ := h.receive hid hqos
  rw [addToQueue, map_packetId, if_neg hnot, List.length_map, if_pos hfull] at hadd
  exact (Prod.mk.inj hadd).1

/-- The identifier is in use. -/
theorem collides (h : Waiting records waiting) (hqos : qos ≠ .qos0) (hmem : packetId ∈ waiting) :
    (mqttUpdateStatePublish records packetId .receive qos).status = .stateCollision ∧
      Waiting (mqttUpdateStatePublish records packetId .receive qos).records waiting := by
  obtain ⟨progress, hrep, hadd, -⟩ := h.receive (h.ne_zero hmem) hqos
  rw [addToQueue, map_packetId, if_pos hmem] at hadd
  obtain ⟨hstatus, hitems⟩ := Prod.mk.inj hadd
  exact ⟨hstatus, progress, hrep, hitems⟩

end Receive

section Acknowledge

variable {packetId : UInt16}

/-- Around an identifier that waits. -/
theorem split (h : Waiting records waiting) (hmem : packetId ∈ waiting) :
    ∃ progress before after, records.Represents progress ∧ waiting = before ++ packetId :: after ∧
      progress.incoming.items = before.map waitingRecord ++ waitingRecord packetId :: after.map waitingRecord := by
  obtain ⟨progress, hrep, hitems⟩ := h
  obtain ⟨before, after, rfl⟩ := List.append_of_mem hmem
  refine ⟨progress, before, after, hrep, rfl, ?_⟩
  rw [hitems, List.map_append, List.map_cons]

/-- The PUBREC of a publish that waits is sent again. -/
theorem pubrecAgain (h : Waiting records waiting) (hmem : packetId ∈ waiting) :
    (mqttUpdateStateAck records packetId .pubrec .send).status = .success ∧
      Waiting (mqttUpdateStateAck records packetId .pubrec .send).records waiting := by
  obtain ⟨progress, before, after, hrep, rfl, hitems⟩ := h.split hmem
  have hstep : handshake (waitingRecord packetId).publishState .pubrec .send = some .pubRelPending := rfl
  obtain ⟨progress', hstatus, -, hrep', hitems'⟩ := mqttUpdateStateAck_incoming hrep hitems rfl hstep (by simp)
  refine ⟨hstatus, progress', hrep', ?_⟩
  rw [hitems', if_neg (by simp), List.map_append, List.map_cons]
  rfl

/-- A PUBACK for it is not in its handshake. -/
theorem pubackIllegal (h : Waiting records waiting) (hmem : packetId ∈ waiting) :
    (mqttUpdateStateAck records packetId .puback .send).status = .illegalState := by
  have hid := h.ne_zero hmem
  obtain ⟨progress, before, after, hrep, -, hitems⟩ := h.split hmem
  have hrecord : waitingRecord packetId ∈ progress.incoming.items := by
    rw [hitems]
    exact List.mem_append_right _ List.mem_cons_self
  have hfind : progress.incoming.find packetId = some (waitingRecord packetId) := progress.incoming.find_eq_some hrecord
  have hstep : handshake (waitingRecord packetId).publishState .puback .send = none := rfl
  obtain ⟨hstatus, -⟩ := hrep.ack packetId .puback .send
  have hdirection : isPublishOutgoing .puback .send = false := rfl
  simp only [PublishProgress.call, if_neg hid, hdirection, Bool.false_eq_true, ite_false] at hstatus
  rw [hstatus, PublishQueue.ack, PublishQueue.advance_of_illegal _ _ _ _ hfind hstep]
  rfl

/-- A publish that waits is released, and its PUBCOMP ends the handshake. -/
theorem release (h : Waiting records waiting) (hmem : packetId ∈ waiting) :
    (mqttUpdateStateAck records packetId .pubrel .receive).status = .success ∧
      (mqttUpdateStateAck records packetId .pubrel .receive).newState = some .pubCompSend ∧
      (mqttUpdateStateAck (mqttUpdateStateAck records packetId .pubrel .receive).records packetId .pubcomp .send).status =
        .success ∧
      Waiting (mqttUpdateStateAck (mqttUpdateStateAck records packetId .pubrel .receive).records packetId .pubcomp
        .send).records (waiting.erase packetId) := by
  have hnodup := h.nodup
  obtain ⟨progress, before, after, hrep, rfl, hitems⟩ := h.split hmem
  have hnot : packetId ∉ before := fun hbefore =>
    (List.nodup_append.1 hnodup).2.2 packetId hbefore packetId List.mem_cons_self rfl
  have hrel : handshake (waitingRecord packetId).publishState .pubrel .receive = some .pubCompSend := rfl
  obtain ⟨progress', hstatus, hnew, hrep', hitems'⟩ := mqttUpdateStateAck_incoming hrep hitems rfl hrel (by simp)
  rw [if_neg (by simp)] at hitems'
  have hcomp : handshake MQTTPublishState.pubCompSend .pubcomp .send = some .publishDone := rfl
  obtain ⟨progress'', hstatus', -, hrep'', hitems''⟩ := mqttUpdateStateAck_incoming hrep' hitems' rfl hcomp (by simp)
  refine ⟨hstatus, hnew, hstatus', progress'', hrep'', ?_⟩
  rw [hitems'', if_pos rfl, List.erase_append_right _ hnot, List.erase_cons_head, List.map_append]

theorem unknown (h : Waiting records waiting) (hnot : packetId ∉ waiting) (hid : packetId ≠ 0) :
    (mqttUpdateStateAck records packetId .pubrel .receive).status = .badResponse := by
  obtain ⟨progress, hrep, hitems⟩ := h
  have hfind : progress.incoming.find packetId = none := by
    refine List.find?_eq_none.2 fun record hrecord heq => hnot ?_
    rw [← map_packetId waiting, ← hitems, ← eq_of_beq heq]
    exact List.mem_map_of_mem hrecord
  obtain ⟨hstatus, -⟩ := hrep.ack packetId .pubrel .receive
  have hdirection : isPublishOutgoing .pubrel .receive = false := rfl
  simp only [PublishProgress.call, if_neg hid, hdirection, Bool.false_eq_true, ite_false] at hstatus
  rw [hstatus, PublishQueue.ack, PublishQueue.advance_of_absent _ _ _ _ hfind]
  rfl

end Acknowledge

/-- A publish of QoS 1 is over with its PUBACK. -/
theorem qos1 (h : Waiting records waiting) {packetId : UInt16} (hid : packetId ≠ 0) (hnot : packetId ∉ waiting)
    (hroom : waiting.length < mqttStateArrayMaxCount) :
    let update := mqttUpdateStatePublish records packetId .receive .qos1
    update.status = .success ∧ update.newState = some .pubAckSend ∧
      (mqttUpdateStateAck update.records packetId .puback .send).status = .success ∧
      Waiting (mqttUpdateStateAck update.records packetId .puback .send).records waiting := by
  have hqos : MQTTQoS.qos1 ≠ .qos0 := by decide
  obtain ⟨hstatus, hnew, progress, hrep, hitems⟩ := h.opens hid hqos hnot hroom
  have hstep : handshake (mqttCalculateStatePublish .receive .qos1) .puback .send = some .publishDone := rfl
  obtain ⟨progress', hstatus', -, hrep', hitems'⟩ := mqttUpdateStateAck_incoming hrep hitems rfl hstep (by simp)
  refine ⟨hstatus, hnew, hstatus', progress', hrep', ?_⟩
  rw [hitems', if_pos rfl, List.append_nil]

/-- A publish of QoS 2 waits for its release behind its PUBREC. -/
theorem qos2 (h : Waiting records waiting) {packetId : UInt16} (hid : packetId ≠ 0) (hnot : packetId ∉ waiting)
    (hroom : waiting.length < mqttStateArrayMaxCount) :
    let update := mqttUpdateStatePublish records packetId .receive .qos2
    update.status = .success ∧ update.newState = some .pubRecSend ∧
      (mqttUpdateStateAck update.records packetId .pubrec .send).status = .success ∧
      Waiting (mqttUpdateStateAck update.records packetId .pubrec .send).records (waiting ++ [packetId]) := by
  have hqos : MQTTQoS.qos2 ≠ .qos0 := by decide
  obtain ⟨hstatus, hnew, progress, hrep, hitems⟩ := h.opens hid hqos hnot hroom
  have hstep : handshake (mqttCalculateStatePublish .receive .qos2) .pubrec .send = some .pubRelPending := rfl
  obtain ⟨progress', hstatus', -, hrep', hitems'⟩ := mqttUpdateStateAck_incoming hrep hitems rfl hstep (by simp)
  refine ⟨hstatus, hnew, hstatus', progress', hrep', ?_⟩
  rw [hitems', if_neg (by simp), List.map_append]
  rfl

end Waiting

/-! ### One message -/

section Session

variable {κ υ : Type} (appCallback : MQTTEventCallback κ υ)

def handOver (w : World κ υ) (m : Inbound) : World κ υ := appCallback m.packet m.deserializedInfo w

/-- The acknowledgements that were sent. -/
def acknowledgements (log : List PublishEvent) : List (UInt8 × UInt16) := log.filterMap PublishEvent.acknowledgement

/-- A session does with a message what a receiver has decided. -/
inductive Obeys (m : Inbound) (s : PublishSession κ υ) (result : MQTTStatus × PublishSession κ υ) :
    Option (Bool × List UInt16) → Prop where
  | refused (failed : result.1 ≠ .success) (known : result.1 ≠ .noDataAvailable) (world : result.2.world = s.world) :
      Obeys m s result none
  | accepted {handed : Bool} {waiting : List UInt16} (status : result.1 = .success)
      (world : result.2.world = if handed then handOver appCallback s.world m else s.world)
      (waits : Waiting result.2.records waiting)
      (log : acknowledgements result.2.log = acknowledgements s.log ++ Inbound.answers [m]) :
      Obeys m s result (some (handed, waiting))

theorem acknowledgements_ack (log : List PublishEvent) (packetId : UInt16) (packetType : MQTTPubAckType) :
    acknowledgements (log ++ [.ack .send packetId packetType]) =
      acknowledgements log ++ [(packetType.packetType, packetId)] := by
  rw [acknowledgements, List.filterMap_append]
  rfl

theorem acknowledgements_other (log : List PublishEvent) {e : PublishEvent} (h : e.acknowledgement = none) :
    acknowledgements (log ++ [e]) = acknowledgements log := by
  rw [acknowledgements, List.filterMap_append, List.filterMap_cons_none h, List.filterMap_nil, List.append_nil]
  rfl

theorem Inbound.answers_cons (m : Inbound) (ms : List Inbound) :
    Inbound.answers [m] ++ Inbound.answers ms = Inbound.answers (m :: ms) := by
  rw [Inbound.answers, Inbound.answers, Inbound.answers, ← List.filterMap_append, ← List.filter_append,
    List.singleton_append]

theorem Inbound.answers_of_fits {m : Inbound} (h : m.packet.fits = true) : Inbound.answers [m] = m.answer.toList := by
  have hfilter : [m].filter (fun m => m.packet.fits) = [m] := by simp [h]
  rw [Inbound.answers, hfilter, List.filterMap_cons]
  cases m.answer <;> rfl

namespace PublishSession

variable {s : PublishSession κ υ} {waiting : List UInt16}

/-- An acknowledgement that goes out. -/
theorem sendPublishAcks_true {publishState : MQTTPublishState} {packetType : MQTTPubAckType}
    (h : getAckTypeToSend publishState = some packetType) (packetId : UInt16) (s : PublishSession κ υ) :
    sendPublishAcks true packetId publishState s =
      ((mqttUpdateStateAck s.records packetId packetType .send).status, { s with
        records := (mqttUpdateStateAck s.records packetId packetType .send).records
        log := s.log ++ [.ack .send packetId packetType] }) := by
  simp only [sendPublishAcks, h, ite_true]

section Publish

variable {packetId : UInt16} {publishInfo : MQTTPublishInfo}

/-- A publish whose record was opened, and whose acknowledgement was noted in it. -/
theorem handleIncomingPublish_opened
    (hread : mqttDeserializePublish (publishPacket publishInfo packetId) = .ok (packetId, publishInfo))
    (hfits : (Inbound.publish packetId publishInfo).packet.fits = true) (hqos : publishInfo.qos ≠ .qos0)
    {newState : MQTTPublishState} {packetType : MQTTPubAckType} (hack : getAckTypeToSend newState = some packetType)
    (hanswer : (Inbound.publish packetId publishInfo).answer = some (packetType.packetType, packetId))
    (h : let update := mqttUpdateStatePublish s.records packetId .receive publishInfo.qos
      update.status = .success ∧ update.newState = some newState ∧
        (mqttUpdateStateAck update.records packetId packetType .send).status = .success ∧
        Waiting (mqttUpdateStateAck update.records packetId packetType .send).records waiting) :
    Obeys appCallback (.publish packetId publishInfo) s
      (handleIncomingPublish appCallback true (publishPacket publishInfo packetId) s) (some (true, waiting)) := by
  obtain ⟨hstatus, hnew, hsent, hwaiting⟩ := h
  unfold handleIncomingPublish
  rw [hread]
  dsimp only
  rw [hstatus, if_pos rfl, hnew, Option.getD_some, sendPublishAcks_true hack, if_neg hqos]
  refine .accepted hsent rfl hwaiting ?_
  rw [Inbound.answers_of_fits hfits, hanswer, acknowledgements_ack, acknowledgements_other _ rfl]
  rfl

/-- There is no room for its record. -/
theorem handleIncomingPublish_full
    (hread : mqttDeserializePublish (publishPacket publishInfo packetId) = .ok (packetId, publishInfo))
    (hstatus : (mqttUpdateStatePublish s.records packetId .receive publishInfo.qos).status = .noMemory) :
    Obeys appCallback (.publish packetId publishInfo) s
      (handleIncomingPublish appCallback true (publishPacket publishInfo packetId) s) none := by
  unfold handleIncomingPublish
  rw [hread]
  dsimp only
  rw [hstatus, if_neg (by simp), if_neg (by simp)]
  exact .refused (by simp) (by simp) rfl

/-- Its identifier is in use: it is acknowledged as if it had been opened now. -/
theorem handleIncomingPublish_collided
    (hread : mqttDeserializePublish (publishPacket publishInfo packetId) = .ok (packetId, publishInfo))
    (hstatus : (mqttUpdateStatePublish s.records packetId .receive publishInfo.qos).status = .stateCollision)
    {packetType : MQTTPubAckType}
    (hack : getAckTypeToSend (mqttCalculateStatePublish .receive publishInfo.qos) = some packetType) :
    handleIncomingPublish appCallback true (publishPacket publishInfo packetId) s =
      let records := (mqttUpdateStatePublish s.records packetId .receive publishInfo.qos).records
      ((mqttUpdateStateAck records packetId packetType .send).status, { s with
        records := (mqttUpdateStateAck records packetId packetType .send).records
        log := s.log ++ [.ack .send packetId packetType] }) := by
  unfold handleIncomingPublish
  rw [hread]
  dsimp only
  rw [hstatus, if_neg (by simp), if_pos rfl, sendPublishAcks_true hack]

theorem handleIncomingPublish_obeys (hid : packetId = 0 ↔ publishInfo.qos = .qos0)
    (hread : mqttDeserializePublish (publishPacket publishInfo packetId) = .ok (packetId, publishInfo))
    (hfits : (publishPacket publishInfo packetId).fits = true) (h : Waiting s.records waiting) :
    Obeys appCallback (.publish packetId publishInfo) s
      (handleIncomingPublish appCallback true (publishPacket publishInfo packetId) s)
      (Inbound.accept waiting (.publish packetId publishInfo)) := by
  have hfits' : (Inbound.publish packetId publishInfo).packet.fits = true := hfits
  have hanswers := Inbound.answers_of_fits hfits'
  have hnonzero : publishInfo.qos ≠ .qos0 → packetId ≠ 0 := fun hqos hzero => hqos (hid.1 hzero)
  rw [Inbound.accept, if_pos hfits']
  cases hqos : publishInfo.qos with
  | qos0 =>
    have hnone : (Inbound.publish packetId publishInfo).answer = none := by
      simp only [Inbound.answer, hqos]
    unfold handleIncomingPublish
    rw [hread]
    dsimp only
    rw [hqos]
    refine .accepted rfl rfl h ?_
    rw [hanswers, hnone]
    simp [mqttUpdateStatePublish, sendPublishAcks, getAckTypeToSend]
  | qos1 =>
    have hsome : MQTTQoS.qos1 ≠ .qos0 := by decide
    have hzero := hnonzero (by rw [hqos]; exact hsome)
    dsimp only
    by_cases hmem : packetId ∈ waiting
    · -- the PUBACK of another publish is sent and then refused
      obtain ⟨hstatus, hwaiting⟩ := h.collides hsome hmem
      have hack := hwaiting.pubackIllegal hmem
      rw [← hqos] at hstatus hack
      rw [if_pos (Or.inl hmem), handleIncomingPublish_collided appCallback hread hstatus (by rw [hqos]; rfl)]
      dsimp only
      rw [hack]
      exact .refused (by simp) (by simp) rfl
    · by_cases hfull : mqttStateArrayMaxCount ≤ waiting.length
      · rw [if_pos (Or.inr hfull)]
        exact handleIncomingPublish_full appCallback hread (by rw [hqos]; exact h.full hzero hsome hmem hfull)
      · have hanswer : (Inbound.publish packetId publishInfo).answer = some (mqttPacketTypePuback, packetId) := by
          simp only [Inbound.answer, hqos]
        have hack : getAckTypeToSend .pubAckSend = some .puback := rfl
        rw [if_neg (not_or.2 ⟨hmem, hfull⟩)]
        refine handleIncomingPublish_opened appCallback hread hfits' (by rw [hqos]; exact hsome) hack hanswer ?_
        rw [hqos]
        exact h.qos1 hzero hmem (Nat.lt_of_not_le hfull)
  | qos2 =>
    have hsome : MQTTQoS.qos2 ≠ .qos0 := by decide
    have hzero := hnonzero (by rw [hqos]; exact hsome)
    have hanswer : (Inbound.publish packetId publishInfo).answer = some (mqttPacketTypePubrec, packetId) := by
      simp only [Inbound.answer, hqos]
    dsimp only
    by_cases hmem : packetId ∈ waiting
    · obtain ⟨hstatus, hwaiting⟩ := h.collides hsome hmem
      obtain ⟨hack, hwaiting'⟩ := hwaiting.pubrecAgain hmem
      rw [← hqos] at hstatus hack hwaiting'
      rw [if_pos hmem, handleIncomingPublish_collided appCallback hread hstatus (by rw [hqos]; rfl)]
      refine .accepted hack rfl hwaiting' ?_
      rw [hanswers, hanswer, acknowledgements_ack]
      rfl
    · rw [if_neg hmem]
      by_cases hfull : mqttStateArrayMaxCount ≤ waiting.length
      · rw [if_pos hfull]
        exact handleIncomingPublish_full appCallback hread (by rw [hqos]; exact h.full hzero hsome hmem hfull)
      · have hack : getAckTypeToSend .pubRecSend = some .pubrec := rfl
        rw [if_neg hfull]
        refine handleIncomingPublish_opened appCallback hread hfits' (by rw [hqos]; exact hsome) hack hanswer ?_
        rw [hqos]
        exact h.qos2 hzero hmem (Nat.lt_of_not_le hfull)

end Publish

theorem handlePublishAcks_obeys (packetId : UInt16) (h : Waiting s.records waiting) :
    Obeys appCallback (.pubrel packetId) s
      (handlePublishAcks appCallback true ⟨mqttPacketTypePubrel, uint16Bytes packetId⟩ s)
      (Inbound.accept waiting (.pubrel packetId)) := by
  have hfits : (Inbound.pubrel packetId).packet.fits = true := rfl
  have hread : mqttDeserializeAck ⟨mqttPacketTypePubrel, uint16Bytes packetId⟩ =
      if packetId = 0 then (.badResponse, packetId) else (.success, packetId) := by
    have hid := uint16Decode_uint16Bytes packetId []
    rw [List.append_nil] at hid
    have hsuback : mqttPacketTypePubrel ≠ mqttPacketTypeSuback := by decide
    have hpingresp : mqttPacketTypePubrel ≠ mqttPacketTypePingresp := by decide
    have hsimple : mqttPacketTypePubrel = mqttPacketTypeUnsuback ∨ mqttPacketTypePubrel = mqttPacketTypePuback ∨
      mqttPacketTypePubrel = mqttPacketTypePubrec ∨ mqttPacketTypePubrel = mqttPacketTypePubrel ∨
      mqttPacketTypePubrel = mqttPacketTypePubcomp := by decide
    rw [mqttDeserializeAck, if_neg hsuback, if_neg hpingresp, if_pos hsimple, deserializeSimpleAck,
      if_neg (by simp [length_uint16Bytes]), hid]
  rw [Inbound.accept, if_pos hfits]
  unfold handlePublishAcks
  rw [hread]
  dsimp only
  have htype : getAckFromPacketType mqttPacketTypePubrel = .pubrel := rfl
  rw [htype]
  by_cases hmem : packetId ∈ waiting
  · obtain ⟨hstatus, hnew, hack, hwaiting⟩ := h.release hmem
    rw [if_pos hmem, if_neg (h.ne_zero hmem), if_neg (not_not_intro rfl), hstatus, if_neg (not_not_intro rfl), hnew,
      Option.getD_some, sendPublishAcks_true rfl]
    refine .accepted hack rfl hwaiting ?_
    rw [Inbound.answers_of_fits hfits, acknowledgements_ack, acknowledgements_other _ rfl]
    rfl
  · rw [if_neg hmem]
    by_cases hzero : packetId = 0
    · rw [if_pos hzero, if_pos (by simp)]
      exact .refused (by simp) (by simp) rfl
    · have hstatus := h.unknown hmem hzero
      rw [if_neg hzero, if_neg (not_not_intro rfl), hstatus, if_pos (by simp)]
      exact .refused (by simp) (by simp) rfl

end PublishSession

end Session

/-! ### Messages on a stream -/

/-- A message that is on its way, and the time of the pass that reads it. -/
structure Incoming where
  env : PassEnv
  message : Inbound

/-- A publish of QoS 0 alone has no identifier, and every publish has a topic. -/
def Inbound.WellFormed : Inbound → Prop
  | .publish packetId publishInfo => (packetId = 0 ↔ publishInfo.qos = .qos0) ∧ publishInfo.topicName ≠ []
  | .pubrel _ => True

/-- The message is well formed and arrives in time. -/
structure Incoming.Arrives (m : Incoming) (records : Nat) : Prop where
  wellFormed : m.message.WellFormed
  length : m.message.packet.remainingData.length < 128 ^ 4
  time : Suffices m.env m.message.packet records

/-- The pass that reads it; its acknowledgement goes out. -/
def Incoming.pass (m : Incoming) : PublishSession.SessionPass := ⟨arrival m.env m.message.packet, true⟩

theorem Inbound.isPublish (packetId : UInt16) (publishInfo : MQTTPublishInfo) :
    (publishPacket publishInfo packetId).isPublish = true :=
  beq_iff_eq.2 (publishFlags_spec publishInfo.qos publishInfo.retain publishInfo.dup).2.2.2

theorem Inbound.type_valid (m : Inbound) : incomingPacketValid m.packet.type = true := by
  cases m with
  | publish packetId publishInfo =>
    have hpublish : (publishPacket publishInfo packetId).type &&& 0xF0 = mqttPacketTypePublish :=
      beq_iff_eq.1 (isPublish packetId publishInfo)
    show incomingPacketValid (publishPacket publishInfo packetId).type = true
    unfold incomingPacketValid
    rw [hpublish]
    rfl
  | pubrel packetId =>
    show incomingPacketValid mqttPacketTypePubrel = true
    decide

theorem Inbound.WellFormed.deserialize {packetId : UInt16} {publishInfo : MQTTPublishInfo}
    (h : (Inbound.publish packetId publishInfo).WellFormed) :
    mqttDeserializePublish (publishPacket publishInfo packetId) = .ok (packetId, publishInfo) := by
  refine mqttDeserializePublish_publishPacket h.1 ?_
  have hpos := List.length_pos_iff.2 h.2
  rw [length_publishBody]
  omega

section Loop

variable {κ υ : Type} (appCallback : MQTTEventCallback κ υ)

/-- What a loop does with messages: those that a receiver takes are handed over, it succeeds when none is refused, and then
all that fit are answered. -/
structure Delivers (waiting : List UInt16) (ms : List Inbound) (s : PublishSession κ υ)
    (result : MQTTStatus × PublishSession κ υ) : Prop where
  world : result.2.world = (Inbound.exchange waiting ms).1.foldl (handOver appCallback) s.world
  status : result.1 = .success ↔ (Inbound.exchange waiting ms).2.isSome = true
  waits : ∀ final, (Inbound.exchange waiting ms).2 = some final → Waiting result.2.records final
  log : (Inbound.exchange waiting ms).2.isSome = true →
    acknowledgements result.2.log = acknowledgements s.log ++ Inbound.answers ms

theorem Delivers.nil {waiting : List UInt16} {s : PublishSession κ υ} (h : Waiting s.records waiting) :
    Delivers appCallback waiting [] s (.success, s) where
  world := rfl
  status := iff_of_true rfl rfl
  waits := fun _ hfinal => Option.some.inj hfinal ▸ h
  log := fun _ => (List.append_nil _).symm

/-- A message that is refused. -/
theorem Delivers.refused {waiting : List UInt16} {ms : List Inbound} {s : PublishSession κ υ}
    {result : MQTTStatus × PublishSession κ υ} (hexchange : Inbound.exchange waiting ms = ([], none))
    (failed : result.1 ≠ .success) (world : result.2.world = s.world) : Delivers appCallback waiting ms s result where
  world := by
    rw [hexchange]
    exact world
  status := by
    rw [hexchange]
    exact iff_of_false failed (by simp)
  waits := by
    rw [hexchange]
    exact fun _ hfinal => nomatch hfinal
  log := by
    rw [hexchange]
    exact fun hfinal => nomatch hfinal

/-- A message in front of others. -/
theorem Obeys.delivers {m : Inbound} {ms : List Inbound} {waiting : List UInt16} {s s' : PublishSession κ υ}
    {status : MQTTStatus} (h : Obeys appCallback m s (status, s') (m.accept waiting))
    {result : MQTTStatus × PublishSession κ υ} (hstop : status ≠ .success → result = (status, s'))
    (hrest : ∀ waiting', status = .success → Waiting s'.records waiting' → Delivers appCallback waiting' ms s' result) :
    Delivers appCallback waiting (m :: ms) s result := by
  generalize hverdict : m.accept waiting = verdict at h
  cases h with
  | refused failed known world =>
    have hexchange : Inbound.exchange waiting (m :: ms) = ([], none) := by
      rw [Inbound.exchange, hverdict]
    rw [hstop failed]
    exact .refused appCallback hexchange failed world
  | @accepted handed waiting' hsuccess world waits log =>
    obtain ⟨hworld, hstatus, hwaits, hlog⟩ := hrest waiting' hsuccess waits
    have hexchange : Inbound.exchange waiting (m :: ms) = (if handed then m :: (Inbound.exchange waiting' ms).1
        else (Inbound.exchange waiting' ms).1, (Inbound.exchange waiting' ms).2) := by
      rw [Inbound.exchange, hverdict]
    refine ⟨?_, ?_, ?_, ?_⟩
    · rw [hexchange, hworld]
      dsimp only at world
      rw [world]
      cases handed <;> rfl
    · rw [hexchange]
      exact hstatus
    · rw [hexchange]
      exact hwaits
    · rw [hexchange]
      intro hfinal
      rw [hlog hfinal, log, List.append_assoc, Inbound.answers_cons]

namespace Incoming

variable {s : PublishSession κ υ} {waiting : List UInt16}

theorem handlePacket_obeys {m : Incoming} {records : Nat} (h : m.Arrives records) (hfits : m.message.packet.fits = true)
    (hwaiting : Waiting s.records waiting) :
    Obeys appCallback m.message s (PublishSession.handlePacket appCallback m.pass s) (m.message.accept waiting) := by
  have hpacket : m.pass.pass.packet = m.message.packet := by
    have hlong : ¬ coreMqttRxBufferSize < m.message.packet.remainingData.length := by
      simpa [MQTTPacketInfo.fits] using hfits
    simp only [pass, arrival, if_neg hlong]
  have hsent : m.pass.sent = true := rfl
  have hwellFormed := h.wellFormed
  rw [PublishSession.handlePacket, hpacket, hsent]
  cases hmessage : m.message with
  | publish packetId publishInfo =>
    rw [hmessage] at hfits hwellFormed
    have hpublish : (Inbound.publish packetId publishInfo).packet.isPublish = true :=
      Inbound.isPublish packetId publishInfo
    rw [if_pos hpublish]
    exact PublishSession.handleIncomingPublish_obeys appCallback hwellFormed.1 hwellFormed.deserialize hfits hwaiting
  | pubrel packetId =>
    have hnot : ¬ (Inbound.pubrel packetId).packet.isPublish = true := by
      show ¬ (mqttPacketTypePubrel &&& 0xF0 == mqttPacketTypePublish) = true
      decide
    have htype : (Inbound.pubrel packetId).packet.type = mqttPacketTypePubrel := rfl
    rw [if_neg hnot, if_pos (Or.inr (Or.inr (Or.inl htype)))]
    exact PublishSession.handlePublishAcks_obeys appCallback packetId hwaiting

/-- The pass that reads a message. -/
theorem receiveSingleIteration_obeys {m : Incoming} {records : Nat} (h : m.Arrives records)
    (hwaiting : Waiting s.records waiting) :
    Obeys appCallback m.message s (PublishSession.receiveSingleIteration appCallback m.pass s)
      (m.message.accept waiting) := by
  have hheader : m.pass.pass.header = .success := rfl
  by_cases hlong : coreMqttRxBufferSize < m.message.packet.remainingData.length
  · -- the packet is dropped
    have hfits : ¬ m.message.packet.fits = true := by simpa [MQTTPacketInfo.fits] using hlong
    have hbody : m.pass.pass.body = .noDataAvailable := if_pos hlong
    have hdropped : PublishSession.receiveSingleIteration appCallback m.pass s = (.success, s) := by
      rw [PublishSession.receiveSingleIteration, if_neg (by rw [hbody]; simp), TuyaDaemon.receiveSingleIteration, hheader,
        hbody]
      rfl
    rw [hdropped, Inbound.accept_of_not_fits waiting hfits]
    refine .accepted rfl rfl hwaiting ?_
    have hnone : Inbound.answers [m.message] = [] := by
      simp [Inbound.answers, hfits]
    rw [hnone, List.append_nil]
  · have hfits : m.message.packet.fits = true := by simpa [MQTTPacketInfo.fits] using hlong
    have hbody : m.pass.pass.body = .success := if_neg hlong
    have hpacket := handlePacket_obeys appCallback h hfits hwaiting
    rw [PublishSession.receiveSingleIteration, if_pos ⟨hheader, hbody⟩]
    generalize PublishSession.handlePacket appCallback m.pass s = result at hpacket ⊢
    generalize m.message.accept waiting = verdict at hpacket ⊢
    obtain ⟨status, s'⟩ := result
    cases hpacket with
    | refused failed known world =>
      have hstatus : noDataIsSuccess status = status := if_neg known
      dsimp only
      rw [hstatus]
      exact .refused failed known world
    | accepted hsuccess world waits log =>
      obtain rfl : status = .success := hsuccess
      exact .accepted rfl world waits log

/-- Passes that each read a message, by induction on the messages behind the first. -/
theorem mqttProcessLoop_arrivals {m : Incoming} {rest : List Incoming} {records : Nat}
    (h : ∀ n ∈ m :: rest, n.Arrives records) (hwaiting : Waiting s.records waiting) :
    Delivers appCallback waiting ((m :: rest).map Incoming.message) s
      (PublishSession.mqttProcessLoop appCallback m.pass (rest.map Incoming.pass) s) := by
  induction rest generalizing m s waiting with
  | nil =>
    have hpass := receiveSingleIteration_obeys appCallback (h m List.mem_cons_self) hwaiting
    show Delivers appCallback waiting [m.message] s (PublishSession.receiveSingleIteration appCallback m.pass s)
    generalize PublishSession.receiveSingleIteration appCallback m.pass s = result at hpass ⊢
    obtain ⟨status, s'⟩ := result
    refine hpass.delivers appCallback (fun _ => rfl) fun waiting' hsuccess hwaiting' => ?_
    rw [hsuccess]
    exact .nil appCallback hwaiting'
  | cons next rest ih =>
    obtain ⟨hm, hrest⟩ := List.forall_mem_cons.1 h
    have hpass := receiveSingleIteration_obeys appCallback hm hwaiting
    show Delivers appCallback waiting (m.message :: (next :: rest).map Incoming.message) s
      (PublishSession.mqttProcessLoop appCallback m.pass (next.pass :: rest.map Incoming.pass) s)
    rw [PublishSession.mqttProcessLoop]
    generalize PublishSession.receiveSingleIteration appCallback m.pass s = result at hpass ⊢
    obtain ⟨status, s'⟩ := result
    refine hpass.delivers appCallback (fun hfailed => ?_) fun waiting' hsuccess hwaiting' => ?_
    · cases status <;> first | exact absurd rfl hfailed | rfl
    · subst hsuccess
      exact ih hrest hwaiting'

/-- Messages that arrive in records of any sizes, at a session whose incoming publishes wait for their release: the passes
read them, and the loop delivers them. -/
theorem mqttProcessLoop_delivers (m : Incoming) (rest : List Incoming) (records : Nat)
    (h : ∀ n ∈ m :: rest, n.Arrives records) (stream : SslStream)
    (hstream : Carries stream ((m :: rest).flatMap fun n => n.message.packet.bytes) records) (s : PublishSession κ υ)
    (waiting : List UInt16) (hwaiting : Waiting s.records waiting) :
    ∃ first passes, readPasses ((m :: rest).map Incoming.env) stream = first :: passes ∧
      Delivers appCallback waiting ((m :: rest).map Incoming.message) s
        (PublishSession.mqttProcessLoop appCallback ⟨first, true⟩ (passes.map fun pass => ⟨pass, true⟩) s) := by
  have hvalid : ∀ a ∈ (m :: rest).map fun n => (n.env, n.message.packet), incomingPacketValid a.2.type = true ∧
      a.2.remainingData.length < 128 ^ 4 ∧ Suffices a.1 a.2 records := by
    intro a ha
    obtain ⟨n, hn, rfl⟩ := List.mem_map.1 ha
    exact ⟨n.message.type_valid, (h n hn).length, (h n hn).time⟩
  have hread := readPasses_packets ((m :: rest).map fun n => (n.env, n.message.packet)) records hvalid stream
    (by rw [List.flatMap_map]; exact hstream)
  rw [List.map_map, List.map_map] at hread
  refine ⟨_, _, hread, ?_⟩
  rw [List.map_map]
  exact mqttProcessLoop_arrivals appCallback h hwaiting

/-- A publish of QoS 2, sent twice, and its release, in three records, with a callback that notes the topics. -/
theorem mqttProcessLoop_delivers_twice :
    ∃ first passes,
      readPasses (List.replicate 3 ⟨2, [], 5, 5, true, .success, .success⟩)
          [.record [0x34, 0x05, 0x00, 0x01] (List.cons_ne_nil _ _),
            .record [98, 0x00, 0x07, 0x3C, 0x05, 0x00, 0x01] (List.cons_ne_nil _ _),
            .record [98, 0x00, 0x07, 0x62, 0x02, 0x00, 0x07] (List.cons_ne_nil _ _)] = first :: passes ∧
        ∀ result, result = PublishSession.mqttProcessLoop
            (fun _ info (w : World Nat (List (List UInt8))) =>
              { w with user := w.user ++ (info.publishInfo.map MQTTPublishInfo.topicName).toList })
            ⟨first, true⟩ (passes.map fun pass => ⟨pass, true⟩) ⟨⟨MQTTContext.zero, [], ⟨0, []⟩, []⟩, .zero, []⟩ →
          result.1 = .success ∧ result.2.world.user = [[98]] ∧
            acknowledgements result.2.log = [(mqttPacketTypePubrec, 7), (mqttPacketTypePubrec, 7), (mqttPacketTypePubcomp, 7)] := by
  have hbytes : varint 5 = [5] ∧ varint 2 = [2] := ⟨varint_of_lt (by decide), varint_of_lt (by decide)⟩
  obtain ⟨first, passes, hread, hdelivers⟩ := mqttProcessLoop_delivers
    (fun _ info (w : World Nat (List (List UInt8))) =>
      { w with user := w.user ++ (info.publishInfo.map MQTTPublishInfo.topicName).toList })
    ⟨⟨2, [], 5, 5, true, .success, .success⟩, .publish 7 ⟨.qos2, false, false, [98], [], by decide⟩⟩
    [⟨⟨2, [], 5, 5, true, .success, .success⟩, .publish 7 ⟨.qos2, false, true, [98], [], by decide⟩⟩,
      ⟨⟨2, [], 5, 5, true, .success, .success⟩, .pubrel 7⟩] 3
    (List.forall_mem_cons.2 ⟨⟨⟨by decide, by decide⟩, by decide, by decide, fun _ h => absurd h List.not_mem_nil, by decide⟩,
      List.forall_mem_cons.2 ⟨⟨⟨by decide, by decide⟩, by decide, by decide, fun _ h => absurd h List.not_mem_nil,
        by decide⟩, List.forall_mem_singleton.2 ⟨trivial, by decide, by decide, fun _ h => absurd h List.not_mem_nil,
        by decide⟩⟩⟩)
    [.record [0x34, 0x05, 0x00, 0x01] (List.cons_ne_nil _ _),
      .record [98, 0x00, 0x07, 0x3C, 0x05, 0x00, 0x01] (List.cons_ne_nil _ _),
      .record [98, 0x00, 0x07, 0x62, 0x02, 0x00, 0x07] (List.cons_ne_nil _ _)]
    ⟨trivial, by
      simp [streamBytes, MQTTPacketInfo.bytes, Inbound.packet, publishPacket, publishBody, publishFlags, encodeString,
        uint16Bytes, PrefixCode.wordBytes, hbytes, mqttPacketTypePubrel]
      decide, Nat.le_refl 3⟩
    ⟨⟨MQTTContext.zero, [], ⟨0, []⟩, []⟩, .zero, []⟩ [] Waiting.zero
  refine ⟨first, passes, hread, ?_⟩
  rintro result rfl
  exact ⟨hdelivers.status.2 rfl, congrArg World.user hdelivers.world, hdelivers.log rfl⟩

end Incoming

end Loop

end TuyaDaemon
