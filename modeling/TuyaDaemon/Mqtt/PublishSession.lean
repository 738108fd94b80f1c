import TuyaDaemon.Mqtt.ProcessLoop
import TuyaDaemon.Mqtt.PublishState

/-!
# Handshakes over a session

The functions of `core_mqtt.c` that drive the publish records: `handleIncomingPublish` and `handlePublishAcks` with
`sendPublishAcks`, and `MQTT_Publish`.  The log of a session says which publishes were opened (handed to the application,
or reserved for sending) and which acknowledgements were sent and received.  Whatever arrives and whichever sends fail,
the log accounts for the records (`Sound`).  The process loop with these records is one of the loops of the model with
arbitrary records (`processLoop_refines`).
-/

namespace TuyaDaemon

/-- What happens to publishes of QoS 1 and 2. -/
inductive PublishEvent where
  /-- an incoming publish was handed to the application, or an outgoing one has its record -/
  | opened (direction : Direction) (packetId : UInt16) (qos : MQTTQoS)
  | ack (opType : MQTTStateOperation) (packetId : UInt16) (packetType : MQTTPubAckType)
  /-- the records were cleared, as there was no session -/
  | reset
deriving DecidableEq, Repr

/-- The publish records beside the world of the process loop. -/
structure PublishSession (κ υ : Type) where
  world : World κ υ
  records : PublishContext
  /-- oldest first -/
  log : List PublishEvent

def getAckFromPacketType (packetType : UInt8) : MQTTPubAckType :=
  if packetType = mqttPacketTypePuback then .puback
  else if packetType = mqttPacketTypePubrec then .pubrec
  else if packetType = mqttPacketTypePubrel then .pubrel
  else .pubcomp

/-- `none` is the packet type `0`. -/
def getAckTypeToSend : MQTTPublishState → Option MQTTPubAckType
  | .pubAckSend => some .puback
  | .pubRecSend => some .pubrec
  | .pubRelSend => some .pubrel
  | .pubCompSend => some .pubcomp
  | _ => none

/-- The bytes that `getAckTypeToSend` returns. -/
def MQTTPubAckType.packetType : MQTTPubAckType → UInt8
  | .puback => mqttPacketTypePuback
  | .pubrec => mqttPacketTypePubrec
  | .pubrel => mqttPacketTypePubrel
  | .pubcomp => mqttPacketTypePubcomp

/-- The acknowledgement that was sent. -/
def PublishEvent.acknowledgement : PublishEvent → Option (UInt8 × UInt16)
  | .ack .send packetId packetType => some (packetType.packetType, packetId)
  | _ => none

namespace PublishSession

variable {κ υ : Type}

/-- `sent`: all bytes of the acknowledgement were sent. -/
def sendPublishAcks (sent : Bool) (packetId : UInt16) (publishState : MQTTPublishState) (s : PublishSession κ υ) :
    MQTTStatus × PublishSession κ υ :=
  match getAckTypeToSend publishState with
  | none => (.success, s)
  | some packetType =>
    if sent then
      let update := mqttUpdateStateAck s.records packetId packetType .send
      (update.status, { s with records := update.records, log := s.log ++ [.ack .send packetId packetType] })
    else (.sendFailed, s)

section Loop

variable (appCallback : MQTTEventCallback κ υ)

def handleIncomingPublish (sent : Bool) (packet : MQTTPacketInfo) (s : PublishSession κ υ) :
    MQTTStatus × PublishSession κ υ :=
  match mqttDeserializePublish packet with
  | .error status => (status, s)
  | .ok (packetIdentifier, publishInfo) =>
    let update := mqttUpdateStatePublish s.records packetIdentifier .receive publishInfo.qos
    if update.status = .success then
      let opened := if publishInfo.qos = .qos0 then [] else [.opened .incoming packetIdentifier publishInfo.qos]
      sendPublishAcks sent packetIdentifier (update.newState.getD .stateNull) {
        world := appCallback packet ⟨packetIdentifier, some publishInfo, .success⟩ s.world
        records := update.records
        log := s.log ++ opened }
    else if update.status = .stateCollision then
      -- a duplicate is acknowledged as if it had been opened now
      sendPublishAcks sent packetIdentifier (mqttCalculateStatePublish .receive publishInfo.qos)
        { s with records := update.records }
    else (update.status, { s with records := update.records })

def handlePublishAcks (sent : Bool) (packet : MQTTPacketInfo) (s : PublishSession κ υ) :
    MQTTStatus × PublishSession κ υ :=
  let ackType := getAckFromPacketType packet.type
  let (status, packetIdentifier) := mqttDeserializeAck packet
  if status ≠ .success then (status, s)
  else
    let update := mqttUpdateStateAck s.records packetIdentifier ackType .receive
    let s := { s with records := update.records, log := s.log ++ [.ack .receive packetIdentifier ackType] }
    if update.status ≠ .success then (update.status, s)
    else
      sendPublishAcks sent packetIdentifier (update.newState.getD .stateNull)
        { s with world := appCallback packet ⟨packetIdentifier, none, .success⟩ s.world }

/-- What one pass of the loop reads, and whether the acknowledgement that it may send goes out.  The model with
arbitrary records reads the outcomes of both from the pass, this one does not. -/
structure SessionPass where
  pass : Pass
  sent : Bool

def handlePacket (p : SessionPass) (s : PublishSession κ υ) : MQTTStatus × PublishSession κ υ :=
  let packet := p.pass.packet
  if packet.isPublish then handleIncomingPublish appCallback p.sent packet s
  else if packet.type = mqttPacketTypePuback ∨ packet.type = mqttPacketTypePubrec ∨
      packet.type = mqttPacketTypePubrel ∨ packet.type = mqttPacketTypePubcomp then
    handlePublishAcks appCallback p.sent packet s
  else
    -- the other packets leave the records alone
    let (status, world) := handleIncomingAck appCallback p.pass packet s.world
    (status, { s with world := world })

def receiveSingleIteration (p : SessionPass) (s : PublishSession κ υ) : MQTTStatus × PublishSession κ υ :=
  if p.pass.header = .success ∧ p.pass.body = .success then
    let (status, s) := handlePacket appCallback p s
    (noDataIsSuccess status, s)
  else
    let (status, world) := TuyaDaemon.receiveSingleIteration appCallback p.pass s.world
    (status, { s with world := world })

def mqttProcessLoop : SessionPass → List SessionPass → PublishSession κ υ → MQTTStatus × PublishSession κ υ
  | p, [], s => receiveSingleIteration appCallback p s
  | p, next :: rest, s =>
    match receiveSingleIteration appCallback p s with
    | (.success, s) => mqttProcessLoop next rest s
    | (status, s) => (status, s)

end Loop

/-- `MQTT_Publish`, with what serializing the header returns and whether the packet went out. -/
def mqttPublish (serialized : MQTTStatus) (sent : Bool) (packetId : UInt16) (qos : MQTTQoS) (dup : Bool)
    (s : PublishSession κ υ) : MQTTStatus × PublishSession κ υ :=
  if qos ≠ .qos0 ∧ packetId = 0 then (.badParameter, s)
  else if serialized ≠ .success then (serialized, s)
  else if qos = .qos0 then (if sent then .success else .sendFailed, s)
  else
    let (status, records) := mqttReserveState s.records packetId qos
    let opened := if status = .success then [.opened .outgoing packetId qos] else []
    let s := { s with records := records, log := s.log ++ opened }
    if status = .success ∨ status = .stateCollision ∧ dup = true then
      if sent then
        let update := mqttUpdateStatePublish s.records packetId .send qos
        (update.status, { s with records := update.records })
      else (.sendFailed, s)
    else (status, s)

end PublishSession

/-! ### What the log says of a record -/

/-- The acknowledgements behind the opening of a publish, up to a state of its record. -/
def handshakeEvents (direction : Direction) (packetId : UInt16) (qos : MQTTQoS) (state : MQTTPublishState) :
    List PublishEvent :=
  match direction, qos, state with
  | .outgoing, .qos1, .publishDone => [.ack .receive packetId .puback]
  | .outgoing, .qos2, .pubRelSend => [.ack .receive packetId .pubrec]
  | .outgoing, .qos2, .pubCompPending => [.ack .receive packetId .pubrec, .ack .send packetId .pubrel]
  | .outgoing, .qos2, .publishDone =>
    [.ack .receive packetId .pubrec, .ack .send packetId .pubrel, .ack .receive packetId .pubcomp]
  | .incoming, .qos1, .publishDone => [.ack .send packetId .puback]
  | .incoming, .qos2, .pubRelPending => [.ack .send packetId .pubrec]
  | .incoming, .qos2, .pubCompSend => [.ack .send packetId .pubrec, .ack .receive packetId .pubrel]
  | .incoming, .qos2, .publishDone =>
    [.ack .send packetId .pubrec, .ack .receive packetId .pubrel, .ack .send packetId .pubcomp]
  | _, _, _ => []

/-- Behind the opening of a publish its handshake was completed, or the records were cleared. -/
def Completed (direction : Direction) (packetId : UInt16) (qos : MQTTQoS) (after : List PublishEvent) : Prop :=
  .reset ∈ after ∨ (handshakeEvents direction packetId qos .publishDone).Sublist after

theorem Completed.append {direction : Direction} {packetId : UInt16} {qos : MQTTQoS} {after : List PublishEvent}
    (h : Completed direction packetId qos after) (es : List PublishEvent) :
    Completed direction packetId qos (after ++ es) :=
  h.imp (List.mem_append_left es) fun hsub => hsub.trans (List.sublist_append_left after es)

theorem handshakeEvents_step {direction : Direction} {packetId : UInt16} {qos : MQTTQoS}
    {state newState : MQTTPublishState} {packetType : MQTTPubAckType} {opType : MQTTStateOperation}
    (hlegal : LegalStage direction qos state = true) (hstep : handshake state packetType opType = some newState) :
    (handshakeEvents direction packetId qos newState).Sublist
      (handshakeEvents direction packetId qos state ++ [.ack opType packetId packetType]) := by
  cases direction <;> cases qos <;> cases state <;> cases hlegal <;> cases packetType <;> cases opType <;>
    cases hstep <;> simp [handshakeEvents]

theorem handshakeEvents_publish {packetId : UInt16} {qos : MQTTQoS} {state newState : MQTTPublishState}
    (hstep : handshakePublish qos state = some newState) : handshakeEvents .outgoing packetId qos newState = [] := by
  cases qos <;> cases state <;> cases hstep <;> rfl

/-- Every publish that was opened is completed, or has a record that is as far as the log. -/
def Logged (direction : Direction) (items : List MQTTPubAckInfo) (log : List PublishEvent) : Prop :=
  ∀ before packetId qos after, log = before ++ .opened direction packetId qos :: after →
    Completed direction packetId qos after ∨
      ∃ record ∈ items, record.packetId = packetId ∧ record.qos = qos ∧
        (handshakeEvents direction packetId qos record.publishState).Sublist after

private theorem eq_append_of_append_eq {log es before after : List PublishEvent} {e : PublishEvent}
    (h : log ++ es = before ++ e :: after) (he : e ∉ es) :
    ∃ after', after = after' ++ es ∧ log = before ++ e :: after' := by
  rcases List.append_eq_append_iff.1 h with ⟨between, -, rfl⟩ | ⟨rest, hlog, hrest⟩
  · exact absurd (List.mem_append_right between List.mem_cons_self) he
  · cases rest with
    | nil => exact absurd (by rw [← List.nil_append es, ← hrest]; exact List.mem_cons_self) he
    | cons e' after' =>
      obtain ⟨rfl, rfl⟩ := List.cons.inj hrest
      exact ⟨after', rfl, hlog⟩

namespace Logged

variable {direction : Direction} {items : List MQTTPubAckInfo} {log es : List PublishEvent}

theorem nil (direction : Direction) (items : List MQTTPubAckInfo) : Logged direction items [] := by
  intro before packetId qos after h
  simp at h

/-- Events that open no publish of the direction. -/
theorem append (h : Logged direction items log) (hes : ∀ packetId qos, .opened direction packetId qos ∉ es) :
    Logged direction items (log ++ es) := by
  intro before packetId qos after hsplit
  obtain ⟨after', rfl, hlog⟩ := eq_append_of_append_eq hsplit (hes packetId qos)
  rcases h before packetId qos after' hlog with hdone | ⟨record, hmem, hid, hqos, hsub⟩
  · exact Or.inl (hdone.append es)
  · exact Or.inr ⟨record, hmem, hid, hqos, hsub.trans (List.sublist_append_left after' es)⟩

/-- A publish is opened, with a new record. -/
theorem opened (h : Logged direction items log) {record : MQTTPubAckInfo}
    (hstate : handshakeEvents direction record.packetId record.qos record.publishState = []) :
    Logged direction (items ++ [record]) (log ++ [.opened direction record.packetId record.qos]) := by
  intro before packetId qos after hsplit
  by_cases hnil : after = []
  · subst hnil
    obtain ⟨-, hlast⟩ := List.append_inj' hsplit rfl
    cases hlast
    exact Or.inr ⟨record, by simp, rfl, rfl, by rw [hstate]⟩
  · obtain ⟨after', last, rfl⟩ := (List.eq_nil_or_concat after).resolve_left hnil
    rw [List.concat_eq_append, ← List.cons_append, ← List.append_assoc] at hsplit
    obtain ⟨hlog, -⟩ := List.append_inj' hsplit rfl
    rw [List.concat_eq_append]
    rcases h before packetId qos after' hlog with hdone | ⟨r, hmem, hid, hqos, hsub⟩
    · exact Or.inl (hdone.append _)
    · exact Or.inr ⟨r, List.mem_append_left _ hmem, hid, hqos, hsub.trans (List.sublist_append_left after' _)⟩

/-- A record has a new state, and the events say so. -/
theorem move {queue : PublishQueue direction} (h : Logged direction queue.items log) {record : MQTTPubAckInfo}
    (hmem : record ∈ queue.items) {newState : MQTTPublishState}
    (hes : ∀ packetId qos, .opened direction packetId qos ∉ es)
    (hstep : (handshakeEvents direction record.packetId record.qos newState).Sublist
      (handshakeEvents direction record.packetId record.qos record.publishState ++ es)) :
    Logged direction (moveRecord queue.items record newState) (log ++ es) := by
  obtain ⟨front, back, hitems, hmove⟩ := queue.moveRecord_cases hmem newState
  have hdistinct := queue.distinct
  intro before packetId qos after hsplit
  obtain ⟨after', rfl, hlog⟩ := eq_append_of_append_eq hsplit (hes packetId qos)
  rcases h before packetId qos after' hlog with hdone | ⟨r, hr, hid, hqos, hsub⟩
  · exact Or.inl (hdone.append es)
  · by_cases hsame : r.packetId = record.packetId
    · -- identifiers are distinct, so this is the record that moves
      cases List.inj_on_of_nodup_map hdistinct hr hmem hsame
      subst hid hqos
      have hsub' := hstep.trans (hsub.append_right es)
      rcases hmove with ⟨rfl, -⟩ | ⟨-, hperm⟩
      · exact Or.inl (Or.inr hsub')
      · exact Or.inr ⟨{ record with publishState := newState }, hperm.mem_iff.2 (by simp), rfl, rfl, hsub'⟩
    · have hother : r ∈ front ++ back := by
        rw [hitems] at hr
        rcases List.mem_append.1 hr with hr | hr
        · exact List.mem_append_left _ hr
        · exact List.mem_append_right _ ((List.mem_cons.1 hr).resolve_left fun heq => hsame (by rw [heq]))
      refine Or.inr ⟨r, ?_, hid, hqos, hsub.trans (List.sublist_append_left after' es)⟩
      rcases hmove with ⟨-, heq⟩ | ⟨-, hperm⟩
      · rwa [heq]
      · rw [hperm.mem_iff]
        rcases List.mem_append.1 hother with hr | hr
        · exact List.mem_append_left _ hr
        · exact List.mem_append_right _ (List.mem_cons_of_mem _ hr)

theorem reset (direction : Direction) (log : List PublishEvent) : Logged direction [] (log ++ [.reset]) := by
  intro before packetId qos after hsplit
  obtain ⟨after', rfl, -⟩ := eq_append_of_append_eq hsplit (by simp)
  exact Or.inl (Or.inl (by simp))

/-- An acknowledgement, whatever it does to its record. -/
theorem ack {queue : PublishQueue direction} (h : Logged direction queue.items log) (packetId : UInt16)
    (packetType : MQTTPubAckType) (opType : MQTTStateOperation) :
    Logged direction (queue.ack packetId packetType opType).records.items
      (log ++ [.ack opType packetId packetType]) := by
  have hes : ∀ (id : UInt16) qos, PublishEvent.opened direction id qos ∉ [.ack opType packetId packetType] := by simp
  cases hfind : queue.find packetId with
  | none =>
    rw [PublishQueue.ack, PublishQueue.advance_of_absent _ _ _ _ hfind]
    exact h.append hes
  | some record =>
    obtain ⟨hmem, hid⟩ := PublishQueue.mem_of_find hfind
    cases hstep : handshake record.publishState packetType opType with
    | none =>
      rw [PublishQueue.ack, PublishQueue.advance_of_illegal _ _ _ _ hfind hstep]
      exact h.append hes
    | some newState =>
      rw [(PublishQueue.ack_of_step hfind hstep).2.2]
      refine h.move hmem hes ?_
      rw [← hid]
      exact handshakeEvents_step (queue.legal record hmem) hstep

end Logged

/-- Between two openings of one identifier the handshake of the first was completed, or the records were cleared. -/
def OpenedOnce (direction : Direction) (log : List PublishEvent) : Prop :=
  ∀ before packetId qos between qos' after,
    log = (before ++ .opened direction packetId qos :: between) ++ .opened direction packetId qos' :: after →
      Completed direction packetId qos between

theorem OpenedOnce.append {direction : Direction} {log es : List PublishEvent} (h : OpenedOnce direction log)
    (hes : ∀ packetId qos, .opened direction packetId qos ∉ es) : OpenedOnce direction (log ++ es) := by
  intro before packetId qos between qos' after hsplit
  obtain ⟨after', -, hlog⟩ := eq_append_of_append_eq hsplit (hes packetId qos')
  exact h before packetId qos between qos' after' hlog

/-- An identifier that has no record may be opened. -/
theorem OpenedOnce.opened {direction : Direction} {items : List MQTTPubAckInfo} {log : List PublishEvent}
    (h : OpenedOnce direction log) (hlogged : Logged direction items log) {packetId : UInt16}
    (hnew : packetId ∉ items.map (·.packetId)) (qos : MQTTQoS) :
    OpenedOnce direction (log ++ [.opened direction packetId qos]) := by
  intro before packetId' qos' between qos'' after hsplit
  by_cases hnil : after = []
  · subst hnil
    obtain ⟨hlog, hlast⟩ := List.append_inj' hsplit rfl
    cases hlast
    rcases hlogged before packetId qos' between hlog with hdone | ⟨record, hmem, hid, -, -⟩
    · exact hdone
    · exact absurd (hid ▸ List.mem_map_of_mem hmem) hnew
  · obtain ⟨after', last, rfl⟩ := (List.eq_nil_or_concat after).resolve_left hnil
    rw [List.concat_eq_append, ← List.cons_append, ← List.append_assoc] at hsplit
    exact h before packetId' qos' between qos'' after' (List.append_inj' hsplit rfl).1

/-! ### Runs -/

/-- The records hold two queues that the log accounts for. -/
structure Accounted (records : PublishContext) (progress : PublishProgress) (log : List PublishEvent) : Prop where
  represents : records.Represents progress
  outgoing : Logged .outgoing progress.outgoing.items log
  incoming : Logged .incoming progress.incoming.items log
  outgoingOnce : OpenedOnce .outgoing log
  incomingOnce : OpenedOnce .incoming log

def Sound (records : PublishContext) (log : List PublishEvent) : Prop := ∃ progress, Accounted records progress log

namespace Sound

variable {records : PublishContext} {log : List PublishEvent}

theorem init : Sound .zero [] :=
  ⟨.empty, .zero, .nil .outgoing _, .nil .incoming _, fun _ _ _ _ _ _ h => by simp at h,
    fun _ _ _ _ _ _ h => by simp at h⟩

/-- An acknowledgement that is sent or received. -/
theorem ack (h : Sound records log) (packetId : UInt16) (packetType : MQTTPubAckType) (opType : MQTTStateOperation) :
    Sound (mqttUpdateStateAck records packetId packetType opType).records
      (log ++ [.ack opType packetId packetType]) := by
  obtain ⟨progress, hrep, hout, hin, honceOut, honceIn⟩ := h
  have hes : ∀ (direction : Direction) (id : UInt16) qos,
      PublishEvent.opened direction id qos ∉ [.ack opType packetId packetType] := by simp
  refine ⟨(progress.call (.ack packetId packetType opType)).records, (hrep.ack packetId packetType opType).records,
    ?_, ?_, honceOut.append (hes .outgoing), honceIn.append (hes .incoming)⟩
  · simp only [PublishProgress.call]
    split
    · exact hout.append (hes .outgoing)
    · split
      · exact hout.ack packetId packetType opType
      · exact hout.append (hes .outgoing)
  · simp only [PublishProgress.call]
    split
    · exact hin.append (hes .incoming)
    · split
      · exact hin.append (hes .incoming)
      · exact hin.ack packetId packetType opType

/-- A publish arrives, and is opened when it gets a record. -/
theorem receive (h : Sound records log) (packetId : UInt16) (qos : MQTTQoS) :
    let update := mqttUpdateStatePublish records packetId .receive qos
    Sound update.records
      (log ++ if update.status = .success ∧ qos ≠ .qos0 then [.opened .incoming packetId qos] else []) := by
  intro update
  obtain ⟨progress, hrep, hout, hin, honceOut, honceIn⟩ := h
  have hcall := hrep.run (.publish packetId .receive qos)
  simp only [StateCall.run, PublishProgress.call] at hcall
  by_cases hqos : qos = .qos0
  · rw [dif_pos hqos] at hcall
    rw [if_neg (fun hand => hand.2 hqos), List.append_nil]
    exact ⟨progress, hcall.records, hout, hin, honceOut, honceIn⟩
  · by_cases hid : packetId = 0
    · rw [dif_neg hqos, dif_pos hid] at hcall
      have hstatus : update.status ≠ .success := hcall.status.trans_ne (by decide : MQTTStatus.badParameter ≠ .success)
      rw [if_neg (fun hand => hstatus hand.1), List.append_nil]
      exact ⟨progress, hcall.records, hout, hin, honceOut, honceIn⟩
    · rw [dif_neg hqos, dif_neg hid] at hcall
      have hstatus : update.status = _ := hcall.status
      rcases progress.incoming.add_cases ⟨packetId, qos, mqttCalculateStatePublish .receive qos⟩ hid
        (legal_received hqos) with ⟨hadd, hnew, hitems⟩ | ⟨hadd, hitems⟩
      · rw [if_pos ⟨hstatus.trans hadd, hqos⟩]
        refine ⟨_, hcall.records, hout.append (by simp), ?_, honceOut.append (by simp), honceIn.opened hin hnew qos⟩
        show Logged .incoming (progress.incoming.add _ hid _).2.items _
        rw [hitems]
        exact hin.opened (by cases qos <;> rfl)
      · rw [if_neg (fun hand => hadd (hstatus.symm.trans hand.1)), List.append_nil]
        refine ⟨_, hcall.records, hout, ?_, honceOut, honceIn⟩
        show Logged .incoming (progress.incoming.add _ hid _).2.items _
        rw [hitems]
        exact hin

/-- A publish is about to be sent, and is opened when it gets a record. -/
theorem reserve (h : Sound records log) {packetId : UInt16} (hid : packetId ≠ 0) {qos : MQTTQoS} (hqos : qos ≠ .qos0) :
    Sound (mqttReserveState records packetId qos).2
      (log ++ if (mqttReserveState records packetId qos).1 = .success then [.opened .outgoing packetId qos] else []) := by
  obtain ⟨progress, hrep, hout, hin, honceOut, honceIn⟩ := h
  have hcall := hrep.reserve packetId qos
  simp only [StateCall.run, PublishProgress.call] at hcall
  rw [dif_neg hqos, dif_neg hid] at hcall
  have hstatus : (mqttReserveState records packetId qos).1 = _ := hcall.status
  rcases progress.outgoing.add_cases ⟨packetId, qos, .publishSend⟩ hid
    (legal_reserved hqos) with ⟨hadd, hnew, hitems⟩ | ⟨hadd, hitems⟩
  · rw [if_pos (hstatus.trans hadd)]
    refine ⟨_, hcall.records, ?_, hin.append (by simp), honceOut.opened hout hnew qos, honceIn.append (by simp)⟩
    show Logged .outgoing (progress.outgoing.add _ hid _).2.items _
    rw [hitems]
    exact hout.opened (by cases qos <;> rfl)
  · rw [if_neg (fun hsuccess => hadd (hstatus.symm.trans hsuccess)), List.append_nil]
    refine ⟨_, hcall.records, ?_, hin, honceOut, honceIn⟩
    show Logged .outgoing (progress.outgoing.add _ hid _).2.items _
    rw [hitems]
    exact hout

/-- A publish was sent, which the log does not say. -/
theorem sent (h : Sound records log) {packetId : UInt16} (hid : packetId ≠ 0) {qos : MQTTQoS} (hqos : qos ≠ .qos0) :
    Sound (mqttUpdateStatePublish records packetId .send qos).records log := by
  obtain ⟨progress, hrep, hout, hin, honceOut, honceIn⟩ := h
  refine ⟨_, (hrep.publishSend hid hqos).records, ?_, hin, honceOut, honceIn⟩
  show Logged .outgoing (progress.outgoing.sent packetId qos).records.items log
  cases hfind : (progress.outgoing.find packetId).filter fun record => record.qos == qos with
  | none =>
    rw [PublishQueue.sent, PublishQueue.advance_of_absent _ _ _ _ hfind]
    exact hout
  | some record =>
    obtain ⟨hsome, hsame⟩ := Option.filter_eq_some_iff.1 hfind
    rw [← eq_of_beq hsame] at hfind ⊢
    cases hstep : handshakePublish record.qos record.publishState with
    | none =>
      rw [PublishQueue.sent, PublishQueue.advance_of_illegal _ _ _ _ hfind hstep]
      exact hout
    | some newState =>
      rw [(PublishQueue.sent_of_step hsome hstep).2.2, ← List.append_nil log]
      refine hout.move (PublishQueue.mem_of_find hsome).1 (by simp) ?_
      rw [handshakeEvents_publish hstep]
      exact List.nil_sublist _

theorem reset (h : Sound records log) : Sound .zero (log ++ [.reset]) := by
  obtain ⟨progress, -, -, -, honceOut, honceIn⟩ := h
  exact ⟨.empty, .zero, .reset .outgoing log, .reset .incoming log, honceOut.append (by simp), honceIn.append (by simp)⟩

end Sound

namespace PublishSession

variable {κ υ : Type} (appCallback : MQTTEventCallback κ υ)

/-- The part of a session that its handshakes are about. -/
def Ok (s : PublishSession κ υ) : Prop := Sound s.records s.log

theorem sendPublishAcks_ok (sent : Bool) (packetId : UInt16) (publishState : MQTTPublishState) {s : PublishSession κ υ}
    (h : s.Ok) : (sendPublishAcks sent packetId publishState s).2.Ok := by
  unfold sendPublishAcks
  split
  · exact h
  · rename_i packetType _
    split
    · exact Sound.ack h packetId packetType .send
    · exact h

theorem handleIncomingPublish_ok (sent : Bool) (packet : MQTTPacketInfo) {s : PublishSession κ υ} (h : s.Ok) :
    (handleIncomingPublish appCallback sent packet s).2.Ok := by
  unfold handleIncomingPublish
  split
  · exact h
  · rename_i packetIdentifier publishInfo _
    have hreceive := Sound.receive h packetIdentifier publishInfo.qos
    dsimp only at hreceive ⊢
    split
    · rename_i hsuccess
      apply sendPublishAcks_ok
      show Sound _ _
      by_cases hqos : publishInfo.qos = .qos0
      · rw [if_neg (fun hand => hand.2 hqos)] at hreceive
        rw [if_pos hqos]
        exact hreceive
      · rw [if_pos ⟨hsuccess, hqos⟩] at hreceive
        rw [if_neg hqos]
        exact hreceive
    · rename_i hfailed
      rw [if_neg (fun hand => hfailed hand.1), List.append_nil] at hreceive
      split
      · exact sendPublishAcks_ok _ _ _ hreceive
      · exact hreceive

theorem handlePublishAcks_ok (sent : Bool) (packet : MQTTPacketInfo) {s : PublishSession κ υ} (h : s.Ok) :
    (handlePublishAcks appCallback sent packet s).2.Ok := by
  unfold handlePublishAcks
  dsimp only
  split
  · exact h
  · have hack := Sound.ack h (mqttDeserializeAck packet).2 (getAckFromPacketType packet.type) .receive
    split
    · exact hack
    · exact sendPublishAcks_ok _ _ _ hack

theorem receiveSingleIteration_ok (p : SessionPass) {s : PublishSession κ υ} (h : s.Ok) :
    (receiveSingleIteration appCallback p s).2.Ok := by
  unfold receiveSingleIteration
  split
  · show (handlePacket appCallback p s).2.Ok
    unfold handlePacket
    dsimp only
    split
    · exact handleIncomingPublish_ok appCallback p.sent p.pass.packet h
    · split
      · exact handlePublishAcks_ok appCallback p.sent p.pass.packet h
      · exact h
  · exact h

/-- The loop, by induction on its passes. -/
theorem mqttProcessLoop_ok (p : SessionPass) (rest : List SessionPass) {s : PublishSession κ υ} (h : s.Ok) :
    (mqttProcessLoop appCallback p rest s).2.Ok := by
  induction rest generalizing p s with
  | nil => exact receiveSingleIteration_ok appCallback p h
  | cons next rest ih =>
    have hpass := receiveSingleIteration_ok appCallback p h
    unfold mqttProcessLoop
    split
    · rename_i s' heq
      rw [heq] at hpass
      exact ih next hpass
    · rename_i status s' _ heq
      rw [heq] at hpass
      exact hpass

theorem mqttPublish_ok (serialized : MQTTStatus) (sent : Bool) (packetId : UInt16) (qos : MQTTQoS) (dup : Bool)
    {s : PublishSession κ υ} (h : s.Ok) : (mqttPublish serialized sent packetId qos dup s).2.Ok := by
  unfold mqttPublish
  split
  · exact h
  · rename_i hvalid
    split
    · exact h
    · split
      · exact h
      · rename_i hqos
        have hid : packetId ≠ 0 := fun hzero => hvalid ⟨hqos, hzero⟩
        have hreserve := Sound.reserve h hid hqos
        dsimp only
        split
        · split
          · exact Sound.sent hreserve hid hqos
          · exact hreserve
        · exact hreserve

/-! ### The loop with arbitrary records -/

/-- A pass that reads the same, with some outcomes of the record updates and of the acknowledgement. -/
def SameRead (p : SessionPass) (pass : Pass) : Prop :=
  ∃ publishState ackSent, pass = { p.pass with publishState := publishState, ackSent := ackSent }

theorem SameRead.header {p : SessionPass} {pass : Pass} (h : SameRead p pass) : pass.header = p.pass.header := by
  obtain ⟨publishState, ackSent, rfl⟩ := h
  rfl

theorem SameRead.body {p : SessionPass} {pass : Pass} (h : SameRead p pass) : pass.body = p.pass.body := by
  obtain ⟨publishState, ackSent, rfl⟩ := h
  rfl

@[simp] theorem sendPublishAcks_world (sent : Bool) (packetId : UInt16) (publishState : MQTTPublishState)
    (s : PublishSession κ υ) : (sendPublishAcks sent packetId publishState s).2.world = s.world := by
  unfold sendPublishAcks
  split
  · rfl
  · split <;> rfl

theorem sendPublishAcks_done (sent : Bool) (packetId : UInt16) (s : PublishSession κ υ) :
    sendPublishAcks sent packetId .publishDone s = (.success, s) := rfl

theorem handleIncomingPublish_refines (p : SessionPass) (packet : MQTTPacketInfo) (s : PublishSession κ υ) :
    ∃ pass, SameRead p pass ∧ TuyaDaemon.handleIncomingPublish appCallback pass packet s.world =
      ((handleIncomingPublish appCallback p.sent packet s).1,
        (handleIncomingPublish appCallback p.sent packet s).2.world) := by
  cases hpacket : mqttDeserializePublish packet with
  | error status =>
    refine ⟨p.pass, ⟨_, _, rfl⟩, ?_⟩
    simp only [handleIncomingPublish, TuyaDaemon.handleIncomingPublish, hpacket]
  | ok decoded =>
    obtain ⟨packetIdentifier, publishInfo⟩ := decoded
    refine ⟨{ p.pass with
      publishState := (mqttUpdateStatePublish s.records packetIdentifier .receive publishInfo.qos).status
      ackSent := (handleIncomingPublish appCallback p.sent packet s).1 }, ⟨_, _, rfl⟩, ?_⟩
    simp only [handleIncomingPublish, TuyaDaemon.handleIncomingPublish, hpacket]
    by_cases hqos : publishInfo.qos = .qos0
    · simp only [unlessQoS0, mqttUpdateStatePublish, hqos, ite_true, Option.getD_some, sendPublishAcks_done]
    · simp only [unlessQoS0, if_neg hqos]
      split
      · rw [sendPublishAcks_world]
      · split
        · rw [sendPublishAcks_world]
        · rfl

theorem handlePublishAcks_refines (p : SessionPass) (packet : MQTTPacketInfo) (s : PublishSession κ υ) :
    ∃ pass, SameRead p pass ∧ TuyaDaemon.handlePublishAcks appCallback pass packet s.world =
      ((handlePublishAcks appCallback p.sent packet s).1,
        (handlePublishAcks appCallback p.sent packet s).2.world) := by
  refine ⟨{ p.pass with
    publishState := (mqttUpdateStateAck s.records (mqttDeserializeAck packet).2 (getAckFromPacketType packet.type)
      .receive).status
    ackSent := (handlePublishAcks appCallback p.sent packet s).1 }, ⟨_, _, rfl⟩, ?_⟩
  simp only [handlePublishAcks, TuyaDaemon.handlePublishAcks]
  split
  · rfl
  · split
    · rfl
    · rw [sendPublishAcks_world]

theorem handlePacket_refines (p : SessionPass) (s : PublishSession κ υ) :
    ∃ pass, SameRead p pass ∧ TuyaDaemon.handlePacket appCallback pass s.world =
      ((handlePacket appCallback p s).1, (handlePacket appCallback p s).2.world) := by
  by_cases hpublish : p.pass.packet.isPublish = true
  · obtain ⟨pass, hsame, hrefines⟩ := handleIncomingPublish_refines appCallback p p.pass.packet s
    refine ⟨pass, hsame, ?_⟩
    obtain ⟨publishState, ackSent, rfl⟩ := hsame
    simp only [TuyaDaemon.handlePacket, handlePacket, if_pos hpublish]
    exact hrefines
  · by_cases hack : p.pass.packet.type = mqttPacketTypePuback ∨ p.pass.packet.type = mqttPacketTypePubrec ∨
        p.pass.packet.type = mqttPacketTypePubrel ∨ p.pass.packet.type = mqttPacketTypePubcomp
    · obtain ⟨pass, hsame, hrefines⟩ := handlePublishAcks_refines appCallback p p.pass.packet s
      refine ⟨pass, hsame, ?_⟩
      obtain ⟨publishState, ackSent, rfl⟩ := hsame
      simp only [TuyaDaemon.handlePacket, handlePacket, if_neg hpublish, handleIncomingAck, if_pos hack]
      exact hrefines
    · refine ⟨p.pass, ⟨_, _, rfl⟩, ?_⟩
      simp only [TuyaDaemon.handlePacket, handlePacket, if_neg hpublish, if_neg hack]

theorem receiveSingleIteration_received {pass : Pass} (hheader : pass.header = .success)
    (hbody : pass.body = .success) (w : World κ υ) :
    TuyaDaemon.receiveSingleIteration appCallback pass w =
      (noDataIsSuccess (TuyaDaemon.handlePacket appCallback pass w).1,
        (TuyaDaemon.handlePacket appCallback pass w).2) := by
  simp [TuyaDaemon.receiveSingleIteration, hheader, hbody]

theorem receiveSingleIteration_refines (p : SessionPass) (s : PublishSession κ υ) :
    ∃ pass, SameRead p pass ∧ TuyaDaemon.receiveSingleIteration appCallback pass s.world =
      ((receiveSingleIteration appCallback p s).1, (receiveSingleIteration appCallback p s).2.world) := by
  by_cases hread : p.pass.header = .success ∧ p.pass.body = .success
  · obtain ⟨pass, hsame, hrefines⟩ := handlePacket_refines appCallback p s
    refine ⟨pass, hsame, ?_⟩
    rw [receiveSingleIteration_received appCallback (hsame.header.trans hread.1) (hsame.body.trans hread.2), hrefines]
    simp only [receiveSingleIteration, if_pos hread]
  · exact ⟨p.pass, ⟨_, _, rfl⟩, by simp only [receiveSingleIteration, if_neg hread]⟩

/-- A loop with these records is a loop of the model with arbitrary outcomes of the record updates. -/
theorem processLoop_refines (p : SessionPass) (rest : List SessionPass) (s : PublishSession κ υ) :
    ∃ pass passes, SameRead p pass ∧ List.Forall₂ SameRead rest passes ∧
      TuyaDaemon.mqttProcessLoop appCallback pass passes s.world =
        ((mqttProcessLoop appCallback p rest s).1, (mqttProcessLoop appCallback p rest s).2.world) := by
  obtain ⟨pass, hsame, hpass⟩ := receiveSingleIteration_refines appCallback p s
  induction rest generalizing p pass s with
  | nil => exact ⟨pass, [], hsame, .nil, hpass⟩
  | cons next rest ih =>
    cases hresult : receiveSingleIteration appCallback p s with
    | mk status s' =>
      rw [hresult] at hpass
      obtain ⟨pass', hsame', hpass'⟩ := receiveSingleIteration_refines appCallback next s'
      obtain ⟨pass'', passes, hsame'', hrest, hloop⟩ := ih next s' pass' hsame' hpass'
      refine ⟨pass, pass'' :: passes, hsame, .cons hsame'' hrest, ?_⟩
      simp only [TuyaDaemon.mqttProcessLoop, mqttProcessLoop, hpass, hresult]
      cases status with
      | success => exact hloop
      | _ => rfl

end PublishSession

end TuyaDaemon
