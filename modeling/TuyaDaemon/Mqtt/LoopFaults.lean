import TuyaDaemon.Mqtt.Reception
import TuyaDaemon.Mqtt.PacketFormat

/-!
# Why the process loop fails

On which streams, at which clocks and with which packets a pass of `MQTT_ProcessLoop` fails (`PassFault`), and what a pass
that does not fail leaves behind (`PassGoes`).  Both are said of what comes from outside, not of what the code returns;
`mqttProcessLoop_success_iff` says that the loop succeeds exactly when no pass fails.  The end of the stream is a fault
inside a header or a packet (`passFault_cutHeader`, `passFault_cut`).  In front of one it is not: there only keep-alive
can fail (`KeepAliveFault`), so a closed stream is no fault before a ping is due (`not_faultDuring_end`).
-/

namespace TuyaDaemon

open CLib

/-! ### Keep-alive -/

/-- The connection has been quiet for longer than the keep-alive interval. -/
def PingDue (now : UInt32) (mqclient : MQTTContext) : Prop :=
  1000 * mqclient.keepAliveIntervalSec.toUInt32 ≠ 0 ∧
    1000 * mqclient.keepAliveIntervalSec.toUInt32 < now - mqclient.lastPacketTime

instance (now : UInt32) (mqclient : MQTTContext) : Decidable (PingDue now mqclient) :=
  inferInstanceAs (Decidable (_ ∧ _))

/-- Keep-alive finds that the connection is gone. -/
inductive KeepAliveFault (env : PassEnv) (mqclient : MQTTContext) : Prop where
  /-- a ping is due and cannot be sent -/
  | unsent (due : PingDue env.now mqclient) (sent : env.pingSent = false)
  /-- a ping is sent, and the clock is read again too late -/
  | late (due : PingDue env.now mqclient) (sent : env.pingSent = true)
      (late : mqttPingrespTimeoutMs < env.later - env.now)
  /-- the answer to an earlier ping has not come in time -/
  | overdue (due : ¬ PingDue env.now mqclient) (waiting : mqclient.waitingForPingResp = true)
      (late : mqttPingrespTimeoutMs < env.later - mqclient.pingReqSendTimeMs)

/-- The client behind a pass without data: a ping that was due has been sent. -/
def afterIdle (now : UInt32) (mqclient : MQTTContext) : MQTTContext :=
  if PingDue now mqclient then
    { mqclient with lastPacketTime := now, pingReqSendTimeMs := now, waitingForPingResp := true }
  else mqclient

/-! ### Packets -/

/-- A status that ends the loop. -/
def Fails (status : MQTTStatus) : Prop := status ≠ .success ∧ status ≠ .noDataAvailable

/-- An acknowledgement of the handshake of a publish. -/
def IsPublishAck (type : UInt8) : Prop :=
  type = mqttPacketTypePuback ∨ type = mqttPacketTypePubrec ∨ type = mqttPacketTypePubrel ∨
    type = mqttPacketTypePubcomp

/-- A publish with its identifier, as the serializer writes it. -/
structure WellFormedPublish (packet : MQTTPacketInfo) (id : UInt16) (info : MQTTPublishInfo) : Prop where
  bytes : packet = publishPacket info id
  numbered : id = 0 ↔ info.qos = .qos0
  length : 3 + info.qos.idLength ≤ packet.remainingData.length

/-- The packets that are no publishes and that a connected client takes. -/
inductive WellFormedAck : MQTTPacketInfo → Prop where
  | simple {type : UInt8} {data : List UInt8} (htype : IsPublishAck type ∨ type = mqttPacketTypeUnsuback)
      (length : data.length = 2) (id : uint16Decode data ≠ 0) : WellFormedAck ⟨type, data⟩
  | pingresp : WellFormedAck ⟨mqttPacketTypePingresp, []⟩
  | suback {data : List UInt8} (length : 3 ≤ data.length)
      (codes : ∀ code ∈ data.drop 2, Granted code ∨ code = 0x80) : WellFormedAck ⟨mqttPacketTypeSuback, data⟩

/-- A packet is malformed, or of a handshake that the publish records do not take, or its answer cannot be sent. -/
inductive PacketFault (env : PassEnv) (packet : MQTTPacketInfo) : Prop where
  | publish (h : packet.isPublish = true) (malformed : ∀ id info, ¬ WellFormedPublish packet id info)
  | ack (h : packet.isPublish = false) (malformed : ¬ WellFormedAck packet)
  | publishState {id : UInt16} {info : MQTTPublishInfo} (h : packet.isPublish = true)
      (wellFormed : WellFormedPublish packet id info) (qos : info.qos ≠ .qos0)
      (state : env.publishState ≠ .stateCollision) (fails : Fails env.publishState)
  | publishAck {id : UInt16} {info : MQTTPublishInfo} (h : packet.isPublish = true)
      (wellFormed : WellFormedPublish packet id info) (qos : info.qos ≠ .qos0)
      (state : env.publishState = .success ∨ env.publishState = .stateCollision) (fails : Fails env.ackSent)
  | ackState (h : IsPublishAck packet.type) (wellFormed : WellFormedAck packet) (fails : Fails env.publishState)
  | ackSent (h : IsPublishAck packet.type) (wellFormed : WellFormedAck packet) (state : env.publishState = .success)
      (fails : Fails env.ackSent)

/-- The client behind a packet: the answer to a ping has come. -/
def afterPacket (type : UInt8) (mqclient : MQTTContext) : MQTTContext :=
  if type = mqttPacketTypePingresp then { mqclient with waitingForPingResp := false } else mqclient

/-! ### Passes -/

/-- Why a pass of the process loop fails. -/
inductive PassFault (env : PassEnv) (s : SslStream) (mqclient : MQTTContext) : Prop where
  /-- a read in front of a packet fails -/
  | failed {rv : Int} {negative : rv < 0} {s' : SslStream} (failure : s = .failure rv negative :: s')
      (h : mbedtlsStatusIsSslInProgress rv = false)
  /-- the first byte is no packet type -/
  | type {b : UInt8} {s' : SslStream} (byte : TakesByte s b s') (h : incomingPacketValid b = false)
  /-- the remaining length is malformed, or cut off by the end or by a read that returns nothing -/
  | length {b : UInt8} {s' : SslStream} (byte : TakesByte s b s') (valid : incomingPacketValid b = true)
      (h : ∀ length s'', length < 128 ^ 4 → ¬ TakesBytes s' (varint length) s'')
  /-- the packet is cut off by the end, by a failure or by the time -/
  | body {type : UInt8} {length : Nat} {s' : SslStream} (header : TakesHeader s type length s')
      (fits : length ≤ coreMqttRxBufferSize) (h : ∀ data s'', ¬ Receives (env.reads + 1) length s' data s'')
  /-- so is a packet that is too long for the buffer -/
  | dropped {type : UInt8} {length : Nat} {s' : SslStream} (header : TakesHeader s type length s')
      (long : coreMqttRxBufferSize < length) (h : ∀ s'', ¬ Drops env.reads env.moreReads length s' s'')
  | packet {type : UInt8} {length : Nat} {data : List UInt8} {s' s'' : SslStream} (header : TakesHeader s type length s')
      (fits : length ≤ coreMqttRxBufferSize) (body : Receives (env.reads + 1) length s' data s'')
      (h : PacketFault env ⟨type, data⟩)
  | keepAlive {s' : SslStream} (idle : Idle s s') (h : KeepAliveFault env mqclient)

/-- A pass that does not fail, with what it leaves ahead and the client behind it. -/
inductive PassGoes (env : PassEnv) : SslStream → MQTTContext → SslStream → MQTTContext → Prop where
  | idle {s s' : SslStream} {mqclient : MQTTContext} (idle : Idle s s') (h : ¬ KeepAliveFault env mqclient) :
      PassGoes env s mqclient s' (afterIdle env.now mqclient)
  | packet {type : UInt8} {length : Nat} {data : List UInt8} {s s' s'' : SslStream} {mqclient : MQTTContext}
      (header : TakesHeader s type length s') (fits : length ≤ coreMqttRxBufferSize)
      (body : Receives (env.reads + 1) length s' data s'') (h : ¬ PacketFault env ⟨type, data⟩) :
      PassGoes env s mqclient s'' (afterPacket type mqclient)
  | dropped {type : UInt8} {length : Nat} {s s' s'' : SslStream} {mqclient : MQTTContext}
      (header : TakesHeader s type length s') (long : coreMqttRxBufferSize < length)
      (body : Drops env.reads env.moreReads length s' s'') : PassGoes env s mqclient s'' mqclient

/-- One of the passes fails, those before it having gone. -/
def FaultDuring : List PassEnv → SslStream → MQTTContext → Prop
  | [], _, _ => False
  | env :: envs, s, mqclient =>
    PassFault env s mqclient ∨
      ∃ s' mqclient', PassGoes env s mqclient s' mqclient' ∧ FaultDuring envs s' mqclient'

/-! ### What is read -/

/-- A pass with what comes from outside. -/
def PassEnv.pass (env : PassEnv) (header body : MQTTStatus) (packet : MQTTPacketInfo) : Pass where
  header := header
  body := body
  packet := packet
  now := env.now
  later := env.later
  pingSent := env.pingSent
  publishState := env.publishState
  ackSent := env.ackSent

theorem Idle.pass {s s' : SslStream} (h : Idle s s') (env : PassEnv) :
    ∃ body packet, readPass env s = (env.pass .noDataAvailable body packet, s') := by
  refine ⟨(receivePacket env 0 s').1, ⟨0, (receivePacket env 0 s').2.1⟩, ?_⟩
  rw [readPass, h.header]
  rfl

/-- Without a header the pass fails. -/
theorem pass_of_header {s : SslStream} {status : MQTTStatus} (h : (mqttGetIncomingPacketTypeAndLength s).status = status)
    (env : PassEnv) : ∃ body packet, (readPass env s).1 = env.pass status body packet :=
  ⟨_, _, by rw [← h]; rfl⟩

theorem TakesHeader.pass {s s' : SslStream} {type : UInt8} {length : Nat} (h : TakesHeader s type length s')
    (env : PassEnv) :
    readPass env s = (env.pass .success (receivePacket env length s').1 ⟨type, (receivePacket env length s').2.1⟩,
      (receivePacket env length s').2.2) := by
  rw [readPass, h.header]
  rfl

theorem receivePacket_receives {env : PassEnv} {length : Nat} (hfits : length ≤ coreMqttRxBufferSize)
    {s s' : SslStream} {data : List UInt8} (h : Receives (env.reads + 1) length s data s') :
    receivePacket env length s = (.success, data, s') := by
  obtain ⟨hreceived, hlength⟩ := recvExact_iff.2 h
  rw [receivePacket, if_neg (Nat.not_lt_of_le hfits), hreceived]
  dsimp only
  rw [if_pos hlength]

theorem receivePacket_not_receives {env : PassEnv} {length : Nat} (hfits : length ≤ coreMqttRxBufferSize)
    {s : SslStream} (h : ∀ data s', ¬ Receives (env.reads + 1) length s data s') :
    (receivePacket env length s).1 = .recvFailed := by
  rw [receivePacket, if_neg (Nat.not_lt_of_le hfits)]
  split
  · rename_i data s' heq
    exact if_neg fun hlength => h data s' (recvExact_iff.1 ⟨heq, hlength⟩)
  · rfl

theorem receivePacket_drops {env : PassEnv} {length : Nat} (hlong : coreMqttRxBufferSize < length) {s s' : SslStream}
    (h : Drops env.reads env.moreReads length s s') : receivePacket env length s = (.noDataAvailable, [], s') := by
  rw [receivePacket, if_pos hlong, discardPacket_iff.2 h]

theorem receivePacket_not_drops {env : PassEnv} {length : Nat} (hlong : coreMqttRxBufferSize < length) {s : SslStream}
    (h : ∀ s', ¬ Drops env.reads env.moreReads length s s') : (receivePacket env length s).1 = .recvFailed := by
  rw [receivePacket, if_pos hlong]
  rcases discardPacket_cases env.reads env.moreReads length s with hstatus | hstatus
  · exact absurd (discardPacket_iff.1 (Prod.ext hstatus rfl)) (h _)
  · exact hstatus

/-- Behind a byte there is a header, or the pass fails. -/
theorem header_cases {s s' : SslStream} {b : UInt8} (hbyte : TakesByte s b s') (hvalid : incomingPacketValid b = true) :
    (∃ length s'', TakesHeader s b length s'') ∨
      (∀ length s'', length < 128 ^ 4 → ¬ TakesBytes s' (varint length) s'') ∧
        (mqttGetIncomingPacketTypeAndLength s).status = .badResponse := by
  rw [hbyte.header, if_pos hvalid]
  rcases hlength : getRemainingLength s' with ⟨_ | length, s''⟩
  · refine Or.inr ⟨fun length s'' hbound hbytes => ?_, rfl⟩
    rw [getRemainingLength_iff.2 ⟨hbound, hbytes⟩] at hlength
    cases hlength
  · obtain ⟨hbound, hbytes⟩ := getRemainingLength_iff.1 hlength
    exact Or.inl ⟨length, s'', hvalid, hbound, .cons hbyte hbytes⟩

theorem header_of_type {s s' : SslStream} {b : UInt8} (hbyte : TakesByte s b s') (h : incomingPacketValid b = false) :
    (mqttGetIncomingPacketTypeAndLength s).status = .badResponse := by
  rw [hbyte.header, h]
  rfl

theorem header_of_length {s s' : SslStream} {b : UInt8} (hbyte : TakesByte s b s')
    (hvalid : incomingPacketValid b = true)
    (h : ∀ length s'', length < 128 ^ 4 → ¬ TakesBytes s' (varint length) s'') :
    (mqttGetIncomingPacketTypeAndLength s).status = .badResponse := by
  rw [hbyte.header, if_pos hvalid]
  rcases hlength : getRemainingLength s' with ⟨_ | length, s''⟩
  · rfl
  · obtain ⟨hbound, hbytes⟩ := getRemainingLength_iff.1 hlength
    exact absurd hbytes (h length s'' hbound)

/-! ### What is answered -/

theorem noDataIsSuccess_eq_success_iff (status : MQTTStatus) : noDataIsSuccess status = .success ↔ ¬ Fails status := by
  unfold noDataIsSuccess Fails
  cases status <;> simp

theorem not_isPublish_of_ack {packet : MQTTPacketInfo} (h : IsPublishAck packet.type) : packet.isPublish = false := by
  rw [MQTTPacketInfo.isPublish]
  rcases h with h | h | h | h <;> rw [h] <;> decide

theorem wellFormedPublish_iff {packet : MQTTPacketInfo} (hpublish : packet.isPublish = true) {id : UInt16}
    {info : MQTTPublishInfo} : WellFormedPublish packet id info ↔ mqttDeserializePublish packet = .ok (id, info) := by
  constructor
  · rintro ⟨rfl, hnumbered, hlength⟩
    exact mqttDeserializePublish_publishPacket hnumbered hlength
  · intro h
    obtain ⟨hbytes, hnumbered, hlength⟩ := mqttDeserializePublish_sound hpublish h
    exact ⟨hbytes, hnumbered, hlength⟩

theorem mqttDeserializePublish_error {packet : MQTTPacketInfo} {status : MQTTStatus}
    (h : mqttDeserializePublish packet = .error status) : status = .badResponse := by
  unfold mqttDeserializePublish at h
  split at h
  · exact (Except.error.inj h).symm
  · rename_i qos _
    generalize hid : (if qos = .qos0 then (0 : UInt16) else
      uint16Decode (packet.remainingData.drop (2 + (uint16Decode packet.remainingData).toNat))) = id at h
    split at h
    · exact (Except.error.inj h).symm
    · dsimp only at h
      split at h
      · exact (Except.error.inj h).symm
      · rw [hid] at h
        split at h
        · exact (Except.error.inj h).symm
        · cases h

theorem readSubackStatusFrom_cases {status : MQTTStatus} (hstatus : status = .success ∨ status = .serverRefused)
    (codes : List UInt8) :
    (∀ code ∈ codes, Granted code ∨ code = 0x80) ∧
        (readSubackStatusFrom status codes = .success ∨ readSubackStatusFrom status codes = .serverRefused) ∨
      (¬ ∀ code ∈ codes, Granted code ∨ code = 0x80) ∧ readSubackStatusFrom status codes = .badResponse := by
  induction codes generalizing status with
  | nil => exact Or.inl ⟨fun _ hmem => absurd hmem List.not_mem_nil, hstatus⟩
  | cons code codes ih =>
    rw [List.forall_mem_cons, readSubackStatusFrom]
    by_cases hgranted : code = 0x00 ∨ code = 0x01 ∨ code = 0x02
    · rw [if_pos hgranted, and_iff_right (show Granted code ∨ code = 0x80 from Or.inl hgranted)]
      exact ih hstatus
    · rw [if_neg hgranted]
      by_cases hrefused : code = 0x80
      · rw [if_pos hrefused, and_iff_right (Or.inr hrefused)]
        exact ih (Or.inr rfl)
      · rw [if_neg hrefused]
        exact Or.inr ⟨fun h => h.1.elim hgranted hrefused, rfl⟩

/-- An acknowledgement is read when it is well formed; only a SUBACK can be a refusal. -/
theorem mqttDeserializeAck_cases (packet : MQTTPacketInfo) :
    WellFormedAck packet ∧ ((mqttDeserializeAck packet).1 = .success ∨
        packet.type = mqttPacketTypeSuback ∧ (mqttDeserializeAck packet).1 = .serverRefused) ∨
      ¬ WellFormedAck packet ∧ (mqttDeserializeAck packet).1 = .badResponse := by
  obtain ⟨type, data⟩ := packet
  unfold mqttDeserializeAck
  dsimp only
  split
  · -- a SUBACK: every code grants or refuses
    rename_i htype
    subst htype
    have hwell : WellFormedAck ⟨mqttPacketTypeSuback, data⟩ ↔
        3 ≤ data.length ∧ ∀ code ∈ data.drop 2, Granted code ∨ code = 0x80 := by
      refine ⟨fun h => ?_, fun h => .suback h.1 h.2⟩
      cases h with
      | simple htype => exact absurd htype (by unfold IsPublishAck; decide)
      | suback length codes => exact ⟨length, codes⟩
    rw [hwell, deserializeSuback]
    dsimp only
    split
    · exact Or.inr ⟨fun h => by omega, rfl⟩
    · rw [and_iff_right (show 3 ≤ data.length by omega)]
      rcases readSubackStatusFrom_cases (Or.inl rfl) (data.drop 2) with ⟨hcodes, hstatus⟩ | hbad
      · exact Or.inl ⟨hcodes, hstatus.imp_right fun h => ⟨rfl, h⟩⟩
      · exact Or.inr hbad
  · rename_i hsuback
    split
    · -- a PINGRESP is empty
      rename_i htype
      subst htype
      rw [deserializePingresp]
      dsimp only
      split
      · rename_i hlength
        refine Or.inr ⟨fun h => ?_, rfl⟩
        cases h with
        | simple htype => exact absurd htype (by unfold IsPublishAck; decide)
        | pingresp => exact hlength rfl
      · rename_i hlength
        obtain rfl := List.length_eq_zero_iff.1 (not_ne_iff.1 hlength)
        exact Or.inl ⟨.pingresp, Or.inl rfl⟩
    · -- the others are an identifier, or no acknowledgement at all
      rename_i hping
      have hwell : WellFormedAck ⟨type, data⟩ ↔ (IsPublishAck type ∨ type = mqttPacketTypeUnsuback) ∧
          data.length = 2 ∧ uint16Decode data ≠ 0 := by
        refine ⟨fun h => ?_, fun h => .simple h.1 h.2.1 h.2.2⟩
        cases h with
        | simple htype length id => exact ⟨htype, length, id⟩
        | pingresp => exact absurd rfl hping
        | suback => exact absurd rfl hsuback
      rw [hwell]
      split
      · rename_i htype
        rw [and_iff_right (show IsPublishAck type ∨ type = mqttPacketTypeUnsuback from htype.symm), deserializeSimpleAck]
        dsimp only
        split
        · rename_i hlength
          exact Or.inr ⟨fun h => hlength h.1, rfl⟩
        · rename_i hlength
          split
          · rename_i hzero
            exact Or.inr ⟨fun h => h.2 hzero, rfl⟩
          · rename_i hid
            exact Or.inl ⟨⟨not_ne_iff.1 hlength, hid⟩, Or.inl rfl⟩
      · rename_i htype
        exact Or.inr ⟨fun h => htype h.1.symm, rfl⟩

section Pass

variable {κ υ : Type} {appCallback : MQTTEventCallback κ υ}

/-- Why a publish is refused. -/
theorem packetFault_publish_iff {env : PassEnv} {packet : MQTTPacketInfo} (hpublish : packet.isPublish = true) {id : UInt16}
    {info : MQTTPublishInfo} (hread : mqttDeserializePublish packet = .ok (id, info)) :
    PacketFault env packet ↔ info.qos ≠ .qos0 ∧
      (env.publishState ≠ .stateCollision ∧ Fails env.publishState ∨
        (env.publishState = .success ∨ env.publishState = .stateCollision) ∧ Fails env.ackSent) := by
  have hack : ¬ IsPublishAck packet.type := by
    intro h
    rw [not_isPublish_of_ack h] at hpublish
    cases hpublish
  constructor
  · intro h
    cases h with
    | publish _ malformed => exact absurd ((wellFormedPublish_iff hpublish).2 hread) (malformed id info)
    | ack h =>
      rw [hpublish] at h
      cases h
    | publishState _ wellFormed qos state fails =>
      cases hread.symm.trans ((wellFormedPublish_iff hpublish).1 wellFormed)
      exact ⟨qos, Or.inl ⟨state, fails⟩⟩
    | publishAck _ wellFormed qos state fails =>
      cases hread.symm.trans ((wellFormedPublish_iff hpublish).1 wellFormed)
      exact ⟨qos, Or.inr ⟨state, fails⟩⟩
    | ackState h => exact absurd h hack
    | ackSent h => exact absurd h hack
  · have hwell := (wellFormedPublish_iff hpublish).2 hread
    rintro ⟨hqos, ⟨hstate, hfails⟩ | ⟨hstate, hfails⟩⟩
    · exact .publishState hpublish hwell hqos hstate hfails
    · exact .publishAck hpublish hwell hqos hstate hfails

/-- Why an acknowledgement is refused. -/
theorem packetFault_ack_iff {env : PassEnv} {packet : MQTTPacketInfo} (hack : packet.isPublish = false) :
    PacketFault env packet ↔ ¬ WellFormedAck packet ∨ IsPublishAck packet.type ∧
      (Fails env.publishState ∨ env.publishState = .success ∧ Fails env.ackSent) := by
  have hpublish : ¬ packet.isPublish = true := by
    rw [hack]
    exact Bool.false_ne_true
  constructor
  · intro h
    cases h with
    | publish h => exact absurd h hpublish
    | ack _ malformed => exact Or.inl malformed
    | publishState h => exact absurd h hpublish
    | publishAck h => exact absurd h hpublish
    | ackState h _ fails => exact Or.inr ⟨h, Or.inl fails⟩
    | ackSent h _ state fails => exact Or.inr ⟨h, Or.inr ⟨state, fails⟩⟩
  · intro h
    by_cases hwell : WellFormedAck packet
    · rcases h with hnot | ⟨htype, hfails | ⟨hstate, hfails⟩⟩
      · exact absurd hwell hnot
      · exact .ackState htype hwell hfails
      · exact .ackSent htype hwell hstate hfails
    · exact .ack hack hwell

theorem not_fails_success : ¬ Fails .success := fun h => h.1 rfl

theorem fails_badResponse : Fails .badResponse := ⟨by simp, by simp⟩

theorem handleIncomingPublish_fails_iff {env : PassEnv} {pass : Pass} (hstate : pass.publishState = env.publishState)
    (hsent : pass.ackSent = env.ackSent) {packet : MQTTPacketInfo} (hpublish : packet.isPublish = true) (w : World κ υ) :
    Fails (handleIncomingPublish appCallback pass packet w).1 ↔ PacketFault env packet := by
  unfold handleIncomingPublish
  cases hread : mqttDeserializePublish packet with
  | error status =>
    obtain rfl := mqttDeserializePublish_error hread
    refine iff_of_true fails_badResponse (.publish hpublish fun id info hwell => ?_)
    rw [(wellFormedPublish_iff hpublish).1 hwell] at hread
    cases hread
  | ok result =>
    obtain ⟨id, info⟩ := result
    rw [packetFault_publish_iff hpublish hread, ← hstate, ← hsent]
    dsimp only
    by_cases hqos : info.qos = .qos0
    · rw [unlessQoS0, unlessQoS0, if_pos hqos, if_pos hqos, if_pos rfl]
      exact iff_of_false not_fails_success fun h => h.1 hqos
    · rw [unlessQoS0, unlessQoS0, if_neg hqos, if_neg hqos, and_iff_right hqos]
      by_cases hsuccess : pass.publishState = .success
      · simp [hsuccess, not_fails_success]
      · by_cases hcollision : pass.publishState = .stateCollision
        · simp [hcollision]
        · simp [hsuccess, hcollision]

theorem handleIncomingAck_fails_iff {env : PassEnv} {pass : Pass} (hstate : pass.publishState = env.publishState)
    (hsent : pass.ackSent = env.ackSent) {packet : MQTTPacketInfo} (hack : packet.isPublish = false) (w : World κ υ) :
    Fails (handleIncomingAck appCallback pass packet w).1 ↔ PacketFault env packet := by
  rw [packetFault_ack_iff hack, ← hstate, ← hsent]
  unfold handleIncomingAck handlePublishAcks
  have hcases := mqttDeserializeAck_cases packet
  cases hread : mqttDeserializeAck packet with
  | mk status id =>
    rw [hread] at hcases
    dsimp only at hcases ⊢
    split
    · -- the handshake of a publish, in which the records and the answer can fail too
      rename_i htype
      rcases hcases with ⟨hwell, rfl | ⟨hsuback, -⟩⟩ | ⟨hnot, rfl⟩
      · rw [if_neg (not_not_intro rfl), or_iff_right (not_not_intro hwell), and_iff_right (show IsPublishAck _ from htype)]
        by_cases hsuccess : pass.publishState = .success
        · simp [hsuccess, not_fails_success]
        · simp [hsuccess]
      · rw [hsuback] at htype
        exact absurd htype (by decide)
      · rw [if_pos (by decide)]
        exact iff_of_true fails_badResponse (Or.inl hnot)
    · rename_i htype
      have hother : ∀ {P : Prop}, (¬ WellFormedAck packet ∨ IsPublishAck packet.type ∧ P) ↔ ¬ WellFormedAck packet :=
        or_iff_left fun h => htype h.1
      rw [hother]
      split
      · rename_i hping
        rcases hcases with ⟨hwell, rfl | ⟨hsuback, -⟩⟩ | ⟨hnot, rfl⟩
        · rw [if_pos rfl]
          exact iff_of_false not_fails_success (not_not_intro hwell)
        · rw [hping] at hsuback
          exact absurd hsuback (by decide)
        · exact iff_of_true fails_badResponse hnot
      · split
        · -- a refusal is handed over, and the loop goes on
          rcases hcases with ⟨hwell, rfl | ⟨-, rfl⟩⟩ | ⟨hnot, rfl⟩
          · rw [if_pos (Or.inl rfl)]
            exact iff_of_false not_fails_success (not_not_intro hwell)
          · rw [if_pos (Or.inr rfl)]
            exact iff_of_false not_fails_success (not_not_intro hwell)
          · rw [if_neg (by decide)]
            exact iff_of_true fails_badResponse hnot
        · rename_i hping hsuback
          refine iff_of_true fails_badResponse fun hwell => ?_
          cases hwell with
          | simple htype' => exact htype'.elim htype fun h => hsuback (Or.inr h)
          | pingresp => exact hping rfl
          | suback => exact hsuback (Or.inl rfl)

theorem handlePacket_pass (env : PassEnv) (header body : MQTTStatus) (packet : MQTTPacketInfo) (w : World κ υ) :
    handlePacket appCallback (env.pass header body packet) w =
      if packet.isPublish then handleIncomingPublish appCallback (env.pass header body packet) packet w
      else handleIncomingAck appCallback (env.pass header body packet) packet w := rfl

/-- A packet that is received makes the pass fail when it is refused. -/
theorem handlePacket_fails_iff {env : PassEnv} {packet : MQTTPacketInfo} (w : World κ υ) :
    Fails (handlePacket appCallback (env.pass .success .success packet) w).1 ↔ PacketFault env packet := by
  rw [handlePacket_pass]
  cases hpublish : packet.isPublish with
  | true =>
    rw [if_pos rfl]
    exact handleIncomingPublish_fails_iff rfl rfl hpublish w
  | false =>
    rw [if_neg Bool.false_ne_true]
    exact handleIncomingAck_fails_iff rfl rfl hpublish w

theorem sendKeepAlive_eq (env : PassEnv) (header body : MQTTStatus) (packet : MQTTPacketInfo) (mqclient : MQTTContext) :
    sendKeepAlive (env.pass header body packet) mqclient =
      if PingDue env.now mqclient then mqttPing env.pingSent { mqclient with lastPacketTime := env.now }
      else (.success, mqclient) := rfl

/-- Keep-alive fails for one of the reasons, or leaves the client behind its pass. -/
theorem handleKeepAlive_cases (env : PassEnv) (header body : MQTTStatus) (packet : MQTTPacketInfo)
    (mqclient : MQTTContext) :
    KeepAliveFault env mqclient ∧ Fails (handleKeepAlive (env.pass header body packet) mqclient).1 ∨
      ¬ KeepAliveFault env mqclient ∧
        handleKeepAlive (env.pass header body packet) mqclient = (.success, afterIdle env.now mqclient) := by
  have htimeout : Fails .keepAliveTimeout := ⟨by simp, by simp⟩
  rw [handleKeepAlive, sendKeepAlive_eq, afterIdle]
  by_cases hdue : PingDue env.now mqclient
  · rw [if_pos hdue, if_pos hdue]
    cases hsent : env.pingSent with
    | false => exact Or.inl ⟨.unsent hdue hsent, by simp [mqttPing, Fails]⟩
    | true =>
      -- the code asks at once whether the answer is overdue, with a clock that it reads again
      by_cases hlate : mqttPingrespTimeoutMs < env.later - env.now
      · left
        refine ⟨.late hdue hsent hlate, ?_⟩
        simpa [mqttPing, PassEnv.pass, hlate] using htimeout
      · right
        refine ⟨fun h => ?_, by simp [mqttPing, PassEnv.pass, hlate]⟩
        cases h with
        | unsent _ sent =>
          rw [hsent] at sent
          cases sent
        | late _ _ late => exact hlate late
        | overdue due => exact due hdue
  · rw [if_neg hdue, if_neg hdue]
    by_cases hlate : mqclient.waitingForPingResp = true ∧ mqttPingrespTimeoutMs < env.later - mqclient.pingReqSendTimeMs
    · left
      refine ⟨.overdue hdue hlate.1 hlate.2, ?_⟩
      simpa [PassEnv.pass, hlate] using htimeout
    · right
      refine ⟨fun h => ?_, by simp only [PassEnv.pass, true_and, if_neg hlate]⟩
      cases h with
      | unsent due => exact hdue due
      | late due => exact hdue due
      | overdue _ waiting late => exact hlate ⟨waiting, late⟩

/-! ### One pass -/

/-- The application does not touch the bookkeeping of the client. -/
def LeavesClient (appCallback : MQTTEventCallback κ υ) : Prop :=
  ∀ packet info w, (appCallback packet info w).mqclient = w.mqclient

theorem handleIncomingPublish_mqclient (hcallback : LeavesClient appCallback) (pass : Pass) (packet : MQTTPacketInfo)
    (w : World κ υ) : (handleIncomingPublish appCallback pass packet w).2.mqclient = w.mqclient := by
  unfold handleIncomingPublish
  split
  · rfl
  · dsimp only
    split
    · exact hcallback _ _ _
    · split <;> rfl

theorem handleIncomingAck_mqclient (hcallback : LeavesClient appCallback) (pass : Pass) {packet : MQTTPacketInfo}
    (hwell : WellFormedAck packet) (w : World κ υ) :
    (handleIncomingAck appCallback pass packet w).2.mqclient = afterPacket packet.type w.mqclient := by
  unfold handleIncomingAck handlePublishAcks afterPacket
  split
  · rename_i htype
    have hping : packet.type ≠ mqttPacketTypePingresp := by
      intro h
      rw [h] at htype
      exact absurd htype (by decide)
    rw [if_neg hping]
    split
    · split
      · rfl
      · split
        · rfl
        · exact hcallback _ _ _
  · split
    · rename_i hping
      have hread : (mqttDeserializeAck packet).1 = .success := by
        rcases mqttDeserializeAck_cases packet with ⟨-, hread | ⟨hsuback, -⟩⟩ | ⟨hnot, -⟩
        · exact hread
        · rw [hping] at hsuback
          exact absurd hsuback (by decide)
        · exact absurd hwell hnot
      dsimp only
      rw [if_pos hread]
    · split
      · dsimp only
        split
        · exact hcallback _ _ _
        · rfl
      · rfl

theorem handlePacket_mqclient (hcallback : LeavesClient appCallback) {env : PassEnv} {packet : MQTTPacketInfo}
    (h : ¬ PacketFault env packet) (w : World κ υ) :
    (handlePacket appCallback (env.pass .success .success packet) w).2.mqclient = afterPacket packet.type w.mqclient := by
  rw [handlePacket_pass]
  cases hpublish : packet.isPublish with
  | true =>
    rw [if_pos rfl, afterPacket, if_neg]
    · exact handleIncomingPublish_mqclient hcallback _ _ w
    · intro hping
      rw [MQTTPacketInfo.isPublish, hping] at hpublish
      exact absurd hpublish (by decide)
  | false =>
    rw [if_neg Bool.false_ne_true]
    refine handleIncomingAck_mqclient hcallback _ (by_contra fun hnot => ?_) w
    exact h (.ack hpublish hnot)

/-- A pass without a header fails with its status. -/
theorem iteration_of_header {env : PassEnv} {s : SslStream} {status : MQTTStatus} (hfails : Fails status)
    (h : (mqttGetIncomingPacketTypeAndLength s).status = status) (w : World κ υ) :
    (receiveSingleIteration appCallback (readPass env s).1 w).1 ≠ .success := by
  obtain ⟨body, packet, hpass⟩ := pass_of_header h env
  rw [hpass, receiveSingleIteration]
  simp only [PassEnv.pass, if_neg hfails.2, ne_eq, hfails.1, not_false_eq_true, ite_true]

theorem fails_recvFailed : Fails .recvFailed := ⟨by simp, by simp⟩

/-- A pass that receives no packet fails, or goes on when it was dropped. -/
theorem iteration_of_body {env : PassEnv} {body : MQTTStatus} (hbody : body ≠ .success) (packet : MQTTPacketInfo)
    (w : World κ υ) :
    receiveSingleIteration appCallback (env.pass .success body packet) w = (noDataIsSuccess body, w) := by
  rw [receiveSingleIteration]
  simp only [PassEnv.pass, reduceCtorEq, ite_false, ne_eq, not_true_eq_false, hbody, not_false_eq_true, ite_true]

theorem iteration_of_packet {env : PassEnv} (packet : MQTTPacketInfo) (w : World κ υ) :
    receiveSingleIteration appCallback (env.pass .success .success packet) w =
      (noDataIsSuccess (handlePacket appCallback (env.pass .success .success packet) w).1,
        (handlePacket appCallback (env.pass .success .success packet) w).2) := rfl

theorem iteration_of_idle {env : PassEnv} (body : MQTTStatus) (packet : MQTTPacketInfo) (w : World κ υ) :
    receiveSingleIteration appCallback (env.pass .noDataAvailable body packet) w =
      (noDataIsSuccess (handleKeepAlive (env.pass .noDataAvailable body packet) w.mqclient).1,
        { w with mqclient := (handleKeepAlive (env.pass .noDataAvailable body packet) w.mqclient).2 }) := rfl

theorem noDataIsSuccess_ne_success {status : MQTTStatus} (h : Fails status) : noDataIsSuccess status ≠ .success :=
  fun hsuccess => (noDataIsSuccess_eq_success_iff status).1 hsuccess h

theorem PassFault.iteration {env : PassEnv} {s : SslStream} {w : World κ υ} (h : PassFault env s w.mqclient) :
    (receiveSingleIteration appCallback (readPass env s).1 w).1 ≠ .success := by
  cases h with
  | failed failure h =>
    subst failure
    exact iteration_of_header fails_recvFailed (header_failure _ h) w
  | type byte h => exact iteration_of_header fails_badResponse (header_of_type byte h) w
  | length byte valid h => exact iteration_of_header fails_badResponse (header_of_length byte valid h) w
  | body header fits h =>
    have hbody := receivePacket_not_receives fits h
    rw [header.pass, iteration_of_body (by rw [hbody]; exact fails_recvFailed.1), hbody]
    exact noDataIsSuccess_ne_success fails_recvFailed
  | dropped header long h =>
    have hbody := receivePacket_not_drops long h
    rw [header.pass, iteration_of_body (by rw [hbody]; exact fails_recvFailed.1), hbody]
    exact noDataIsSuccess_ne_success fails_recvFailed
  | packet header fits body h =>
    rw [header.pass, receivePacket_receives fits body, iteration_of_packet]
    exact noDataIsSuccess_ne_success ((handlePacket_fails_iff w).2 h)
  | keepAlive idle h =>
    obtain ⟨body, packet, hpass⟩ := idle.pass env
    rw [hpass, iteration_of_idle]
    rcases handleKeepAlive_cases env .noDataAvailable body packet w.mqclient with ⟨-, hfails⟩ | ⟨hnot, -⟩
    · exact noDataIsSuccess_ne_success hfails
    · exact absurd h hnot

theorem PassGoes.iteration (hcallback : LeavesClient appCallback) {env : PassEnv} {s s' : SslStream}
    {mqclient' : MQTTContext} {w : World κ υ} (h : PassGoes env s w.mqclient s' mqclient') :
    (receiveSingleIteration appCallback (readPass env s).1 w).1 = .success ∧ (readPass env s).2 = s' ∧
      (receiveSingleIteration appCallback (readPass env s).1 w).2.mqclient = mqclient' := by
  cases h with
  | idle idle h =>
    obtain ⟨body, packet, hpass⟩ := idle.pass env
    rw [hpass, iteration_of_idle]
    rcases handleKeepAlive_cases env .noDataAvailable body packet w.mqclient with ⟨hfault, -⟩ | ⟨-, hkeep⟩
    · exact absurd hfault h
    · rw [hkeep]
      exact ⟨rfl, rfl, rfl⟩
  | packet header fits body h =>
    rw [header.pass, receivePacket_receives fits body, iteration_of_packet]
    exact ⟨(noDataIsSuccess_eq_success_iff _).2 (mt (handlePacket_fails_iff w).1 h), rfl,
      handlePacket_mqclient hcallback h w⟩
  | dropped header long body =>
    rw [header.pass, receivePacket_drops long body, iteration_of_body (by simp)]
    exact ⟨rfl, rfl, rfl⟩

/-- Every pass fails or goes. -/
theorem passFault_or_goes (env : PassEnv) (s : SslStream) (mqclient : MQTTContext) :
    PassFault env s mqclient ∨ ∃ s' mqclient', PassGoes env s mqclient s' mqclient' := by
  rcases stream_cases s with ⟨s', hidle⟩ | ⟨rv, negative, s', hfailure, hfailed⟩ | ⟨b, s', hbyte⟩
  · by_cases hfault : KeepAliveFault env mqclient
    · exact Or.inl (.keepAlive hidle hfault)
    · exact Or.inr ⟨_, _, .idle hidle hfault⟩
  · exact Or.inl (.failed hfailure hfailed)
  · cases hvalid : incomingPacketValid b with
    | false => exact Or.inl (.type hbyte hvalid)
    | true =>
      rcases header_cases hbyte hvalid with ⟨length, s₁, hheader⟩ | ⟨hnone, -⟩
      · by_cases hfits : length ≤ coreMqttRxBufferSize
        · by_cases hbody : ∃ data s₂, Receives (env.reads + 1) length s₁ data s₂
          · obtain ⟨data, s₂, hbody⟩ := hbody
            by_cases hfault : PacketFault env ⟨b, data⟩
            · exact Or.inl (.packet hheader hfits hbody hfault)
            · exact Or.inr ⟨_, _, .packet hheader hfits hbody hfault⟩
          · exact Or.inl (.body hheader hfits fun data s₂ h => hbody ⟨data, s₂, h⟩)
        · by_cases hbody : ∃ s₂, Drops env.reads env.moreReads length s₁ s₂
          · obtain ⟨s₂, hbody⟩ := hbody
            exact Or.inr ⟨_, _, .dropped hheader (Nat.lt_of_not_le hfits) hbody⟩
          · exact Or.inl (.dropped hheader (Nat.lt_of_not_le hfits) fun s₂ h => hbody ⟨s₂, h⟩)
      · exact Or.inl (.length hbyte hvalid hnone)

/-! ### The loop -/

/-- The loop ends without a fault exactly when all of its passes go, by induction on the passes. -/
theorem mqttProcessLoop_success_iff (hcallback : LeavesClient appCallback) (env : PassEnv) (envs : List PassEnv)
    (s : SslStream) (w : World κ υ) :
    (mqttProcessLoop appCallback (readPass env s).1 (readPasses envs (readPass env s).2) w).1 = .success ↔
      ¬ FaultDuring (env :: envs) s w.mqclient := by
  induction envs generalizing env s w with
  | nil =>
    rw [readPasses, mqttProcessLoop]
    rcases passFault_or_goes env s w.mqclient with hfault | ⟨s', mqclient', hgoes⟩
    · exact iff_of_false hfault.iteration (not_not_intro (Or.inl hfault))
    · obtain ⟨hsuccess, -⟩ := hgoes.iteration hcallback
      refine iff_of_true hsuccess ?_
      rintro (hfault | ⟨_, _, -, hlater⟩)
      · exact hfault.iteration hsuccess
      · exact hlater
  | cons next envs ih =>
    rw [readPasses]
    rcases passFault_or_goes env s w.mqclient with hfault | ⟨s', mqclient', hgoes⟩
    · refine iff_of_false ?_ (not_not_intro (Or.inl hfault))
      have hfails : (receiveSingleIteration appCallback (readPass env s).1 w).1 ≠ .success := hfault.iteration
      unfold mqttProcessLoop
      split
      · rename_i w' heq
        rw [heq] at hfails
        exact absurd rfl hfails
      · rename_i status w' hne heq
        exact hne
    · obtain ⟨hsuccess, rfl, rfl⟩ := hgoes.iteration hcallback
      have hnot : ¬ PassFault env s w.mqclient := fun hfault => hfault.iteration hsuccess
      unfold mqttProcessLoop
      split
      · rename_i w' heq
        rw [heq] at hgoes
        rw [ih]
        constructor
        · rintro hgo (hfault | ⟨s', mqclient', hgoes', hlater⟩)
          · exact hnot hfault
          · obtain ⟨-, rfl, rfl⟩ := hgoes'.iteration hcallback
            rw [heq] at hlater
            exact hgo hlater
        · exact fun hgo hlater => hgo (Or.inr ⟨_, _, hgoes, hlater⟩)
      · rename_i status w' hne heq
        rw [heq] at hsuccess
        exact absurd hsuccess hne

end Pass

/-! ### The end of the stream -/

/-- The end inside a header makes the pass fail. -/
theorem passFault_cutHeader {s : SslStream} {b : UInt8} (hbyte : TakesByte s b []) (env : PassEnv)
    (mqclient : MQTTContext) : PassFault env s mqclient := by
  cases hvalid : incomingPacketValid b with
  | false => exact .type hbyte hvalid
  | true =>
    refine .length hbyte hvalid fun length s'' _ hbytes => ?_
    cases hrest : varint length with
    | nil => exact absurd hrest (varint_ne_nil length)
    | cons b bs =>
      rw [hrest] at hbytes
      cases hbytes with
      | cons h => cases h

/-- So does the end inside a packet. -/
theorem passFault_cut {s s' : SslStream} {type : UInt8} {length : Nat} (header : TakesHeader s type length s')
    (hcut : (streamBytes s').length < length) (env : PassEnv) (mqclient : MQTTContext) : PassFault env s mqclient := by
  by_cases hfits : length ≤ coreMqttRxBufferSize
  · exact .body header hfits fun _ _ h => Nat.not_le_of_lt hcut h.le_streamBytes
  · exact .dropped header (Nat.lt_of_not_le hfits) fun _ h => Nat.not_le_of_lt hcut h.le_streamBytes

/-- While no ping is due or on its way, no loop sees that the peer is gone, by induction on the passes. -/
theorem not_faultDuring_end {envs : List PassEnv} {mqclient : MQTTContext} (hwaiting : mqclient.waitingForPingResp = false)
    (hquiet : ∀ env ∈ envs, ¬ PingDue env.now mqclient) : ¬ FaultDuring envs [] mqclient := by
  induction envs with
  | nil => exact id
  | cons env envs ih =>
    obtain ⟨hnow, hquiet⟩ := List.forall_mem_cons.1 hquiet
    have hkeep : ¬ KeepAliveFault env mqclient := by
      intro h
      cases h with
      | unsent due => exact hnow due
      | late due => exact hnow due
      | overdue _ waiting =>
        rw [hwaiting] at waiting
        cases waiting
    rintro (hfault | ⟨s', mqclient', hgoes, hlater⟩)
    · cases hfault with
      | failed failure => cases failure
      | type byte => cases byte
      | length byte => cases byte
      | body header => exact absurd header not_takesHeader_nil
      | dropped header => exact absurd header not_takesHeader_nil
      | packet header => exact absurd header not_takesHeader_nil
      | keepAlive _ h => exact hkeep h
    · cases hgoes with
      | idle hidle =>
        cases hidle
        rw [afterIdle, if_neg hnow] at hlater
        exact ih hquiet hlater
      | packet header => exact absurd header not_takesHeader_nil
      | dropped header => exact absurd header not_takesHeader_nil

end TuyaDaemon
