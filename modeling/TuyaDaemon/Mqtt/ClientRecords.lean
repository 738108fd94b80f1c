import TuyaDaemon.Mqtt.ClientCalls

/-!
# The records behind the calls of a client

With its bytes, every call of a client is one of the model with arbitrary sends (`sendPublishAcks_refines`,
`mqttPublish_refines`, `mqttProcessLoop_refines`), so its runs open every publish once as well (`runCalls_openedOnce`).  From
this follows what a connect that succeeds has sent behind its CONNECT (`mqttConnect_success`).
-/

namespace TuyaDaemon

open CLib

namespace MqttClient

/-! ### Refinement -/

section Refinement

variable {κ υ : Type}

theorem sendAck_status {packetType : UInt8} {packetId : UInt16} {io : ClientIO} {status : MQTTStatus}
    (h : ( ClientIO.sendAck packetType packetId io).1 = some status) : status = .success ∨ status = .sendFailed := by
  unfold ClientIO.sendAck at h
  split at h
  · exact Or.inr (Option.some.inj h).symm
  · obtain ⟨n, -, rfl⟩ := Option.map_eq_some_iff.1 h
    split
    · exact Or.inl rfl
    · exact Or.inr rfl

/-- With its bytes an acknowledgement is one of the model with arbitrary sends. -/
theorem sendPublishAcks_refines {packetId : UInt16} {publishState : MQTTPublishState} {c : MqttClient κ υ}
    {status : MQTTStatus} (h : (sendPublishAcks packetId publishState c).1 = some status) :
    ∃ sent, PublishSession.sendPublishAcks sent packetId publishState c.session =
        (status, (sendPublishAcks packetId publishState c).2.session) ∧ (status = .success → sent = true) := by
  unfold sendPublishAcks PublishSession.sendPublishAcks at *
  cases hstate : getAckTypeToSend publishState with
  | none =>
    rw [hstate] at h
    obtain rfl := Option.some.inj h
    exact ⟨true, rfl, fun _ => rfl⟩
  | some packetType =>
    rw [hstate] at h
    dsimp only at h ⊢
    cases hsend : ClientIO.sendAck packetType.packetType packetId c.io with
    | mk sent io =>
      rw [hsend] at h
      cases sent with
      | none => cases h
      | some sent =>
        rcases sendAck_status (congrArg Prod.fst hsend) with rfl | rfl
        · obtain rfl := Option.some.inj h
          exact ⟨true, rfl, fun _ => rfl⟩
        · obtain rfl := Option.some.inj h
          exact ⟨false, rfl, fun hsuccess => by cases hsuccess⟩

/-- The loop, when all its PUBRELs went out. -/
theorem resendPubrels_refines {left cursor : Nat} {c c' : MqttClient κ υ}
    (h : resendPubrels left cursor c = (some .success, c')) :
    PublishSession.resendPubrels (fun _ => true) left cursor c.session = (.success, c'.session) := by
  induction left generalizing cursor c with
  | zero =>
    obtain ⟨-, rfl⟩ := Prod.mk.inj h
    rfl
  | succ left ih =>
    rw [resendPubrels] at h
    rw [PublishSession.resendPubrels]
    dsimp only at h ⊢
    split at h
    · rename_i hdone
      rw [if_pos hdone]
      obtain ⟨-, rfl⟩ := Prod.mk.inj h
      rfl
    · rename_i hmore
      rw [if_neg hmore]
      cases hsend : sendPublishAcks (mqttPubrelToResend c.session.records cursor).1 .pubRelSend c with
      | mk status sent =>
        rw [hsend] at h
        by_cases hstatus : status = some .success
        · subst hstatus
          obtain ⟨all, hrefines, hall⟩ := sendPublishAcks_refines (congrArg Prod.fst hsend)
          obtain rfl := hall rfl
          rw [hrefines, hsend]
          exact ih h
        · -- a PUBREL that did not go out ends the loop without success
          split at h
          · rename_i heq
            exact absurd (congrArg Prod.fst heq) hstatus
          · obtain ⟨hsuccess, -⟩ := Prod.mk.inj h
            rename_i heq
            rw [← (Prod.mk.inj heq).1] at hsuccess
            exact absurd hsuccess hstatus

/-- Every publish is opened once behind it, also when a PUBREL did not go out. -/
theorem resendPubrels_ok {left cursor : Nat} {c : MqttClient κ υ} {status : MQTTStatus}
    (h : (resendPubrels left cursor c).1 = some status) (hok : c.session.Ok) :
    (resendPubrels left cursor c).2.session.Ok := by
  induction left generalizing cursor c with
  | zero => exact hok
  | succ left ih =>
    rw [resendPubrels] at h ⊢
    dsimp only at h ⊢
    split at h
    · rename_i hdone
      rw [if_pos hdone]
      exact hok
    · rename_i hmore
      rw [if_neg hmore]
      have hack : ∀ {status}, (sendPublishAcks (mqttPubrelToResend c.session.records cursor).1 .pubRelSend c).1 =
          some status → (sendPublishAcks (mqttPubrelToResend c.session.records cursor).1 .pubRelSend c).2.session.Ok := by
        intro status hstatus
        obtain ⟨sent, hrefines, -⟩ := sendPublishAcks_refines hstatus
        have hsent := PublishSession.sendPublishAcks_ok sent (mqttPubrelToResend c.session.records cursor).1
          .pubRelSend hok
        rwa [hrefines] at hsent
      revert h
      split
      · rename_i c' heq
        rw [heq] at hack
        exact fun h => ih h (hack rfl)
      · rename_i heq
        rw [heq] at hack
        exact hack

variable {appCallback : MQTTEventCallback κ υ}

theorem handleIncomingPublish_refines {packet : MQTTPacketInfo} {c : MqttClient κ υ} {status : MQTTStatus}
    (h : (handleIncomingPublish appCallback packet c).1 = some status) :
    ∃ sent, PublishSession.handleIncomingPublish appCallback sent packet c.session =
      (status, (handleIncomingPublish appCallback packet c).2.session) := by
  unfold handleIncomingPublish PublishSession.handleIncomingPublish at *
  cases hread : mqttDeserializePublish packet with
  | error error =>
    rw [hread] at h
    obtain rfl := Option.some.inj h
    exact ⟨true, rfl⟩
  | ok result =>
    rw [hread] at h
    dsimp only at h ⊢
    split at h
    · rename_i hsuccess
      obtain ⟨sent, hrefines, -⟩ := sendPublishAcks_refines h
      refine ⟨sent, ?_⟩
      rw [if_pos hsuccess, if_pos hsuccess]
      exact hrefines
    · rename_i hfailed
      split at h
      · rename_i hcollision
        obtain ⟨sent, hrefines, -⟩ := sendPublishAcks_refines h
        refine ⟨sent, ?_⟩
        rw [if_neg hfailed, if_neg hfailed, if_pos hcollision, if_pos hcollision]
        exact hrefines
      · rename_i hother
        obtain rfl := Option.some.inj h
        refine ⟨true, ?_⟩
        rw [if_neg hfailed, if_neg hfailed, if_neg hother, if_neg hother]

theorem handlePublishAcks_refines {packet : MQTTPacketInfo} {c : MqttClient κ υ} {status : MQTTStatus}
    (h : (handlePublishAcks appCallback packet c).1 = some status) :
    ∃ sent, PublishSession.handlePublishAcks appCallback sent packet c.session =
      (status, (handlePublishAcks appCallback packet c).2.session) := by
  unfold handlePublishAcks PublishSession.handlePublishAcks at *
  dsimp only at h ⊢
  split at h
  · rename_i hread
    obtain rfl := Option.some.inj h
    refine ⟨true, ?_⟩
    rw [if_pos hread, if_pos hread]
  · rename_i hread
    split at h
    · rename_i hfailed
      obtain rfl := Option.some.inj h
      refine ⟨true, ?_⟩
      rw [if_neg hread, if_neg hread, if_pos hfailed, if_pos hfailed]
    · rename_i hsuccess
      obtain ⟨sent, hrefines, -⟩ := sendPublishAcks_refines h
      refine ⟨sent, ?_⟩
      rw [if_neg hread, if_neg hread, if_neg hsuccess, if_neg hsuccess]
      exact hrefines

theorem handlePacket_refines {pass : Pass} {c : MqttClient κ υ} {status : MQTTStatus}
    (h : (handlePacket appCallback pass c).1 = some status) :
    ∃ sent, PublishSession.handlePacket appCallback ⟨pass, sent⟩ c.session =
      (status, (handlePacket appCallback pass c).2.session) := by
  unfold handlePacket PublishSession.handlePacket at *
  dsimp only at h ⊢
  split at h
  · rename_i hpublish
    obtain ⟨sent, hrefines⟩ := handleIncomingPublish_refines h
    refine ⟨sent, ?_⟩
    rw [if_pos hpublish, if_pos hpublish]
    exact hrefines
  · rename_i hpublish
    split at h
    · rename_i hack
      obtain ⟨sent, hrefines⟩ := handlePublishAcks_refines h
      refine ⟨sent, ?_⟩
      rw [if_neg hpublish, if_neg hpublish, if_pos hack, if_pos hack]
      exact hrefines
    · rename_i hack
      obtain rfl := Option.some.inj h
      refine ⟨true, ?_⟩
      rw [if_neg hpublish, if_neg hpublish, if_neg hack, if_neg hack]

/-- A call of the model with arbitrary sends moves the session in the same way, and succeeds with this one. -/
def Follows (result : MQTTStatus × PublishSession κ υ) (result' : Option MQTTStatus × MqttClient κ υ) : Prop :=
  result.2 = result'.2.session ∧ (result.1 = .success ↔ result'.1 = some .success)

/-- Keep-alive touches the fields of the context alone, and its status says more than that no data came. -/
structure KeepsAlive (c : MqttClient κ υ) (result : MQTTStatus × MQTTContext) (result' : Option MQTTStatus × MqttClient κ υ) :
    Prop where
  session : result'.2.session = { c.session with world.mqclient := result.2 }
  status : result.1 = .success ↔ result'.1 = some .success
  ne : result.1 ≠ .noDataAvailable
  ne' : result'.1 ≠ some .noDataAvailable

/-- The pass with the outcome of its ping. -/
theorem sendKeepAlive_refines {clock : PassClock} {c : MqttClient κ υ} {pass : Pass} (hnow : pass.now = clock.now) :
    ∃ sent, KeepsAlive c (TuyaDaemon.sendKeepAlive { pass with pingSent := sent } c.session.world.mqclient)
      (sendKeepAlive clock c) := by
  -- the model is told what the ping has returned
  refine ⟨( ClientIO.mqttPing c.io).1 == some .success, ?_⟩
  have hvalid : ClientPacket.pingreq.Valid := trivial
  have hspec : ClientIO.CallResult .pingreq c.io ( ClientIO.mqttPing c.io) := ClientIO.sendEmpty_spec hvalid rfl c.io
  have hne := hspec.ne_noDataAvailable
  unfold sendKeepAlive TuyaDaemon.sendKeepAlive
  dsimp only
  rw [hnow]
  split
  · by_cases hsent : ( ClientIO.mqttPing c.io).1 = some .success
    · have hping : (( ClientIO.mqttPing c.io).1 == some MQTTStatus.success) = true := beq_iff_eq.2 hsent
      rw [hping]
      refine ⟨?_, iff_of_true rfl hsent, by simp [TuyaDaemon.mqttPing], hne⟩
      simp only [mqttPing, mapContext, hping]
    · have hping : (( ClientIO.mqttPing c.io).1 == some MQTTStatus.success) = false := beq_eq_false_iff_ne.2 hsent
      rw [hping]
      refine ⟨?_, iff_of_false (by simp [TuyaDaemon.mqttPing]) hsent, by simp [TuyaDaemon.mqttPing], hne⟩
      simp only [mqttPing, mapContext, hping]
  · exact ⟨rfl, iff_of_true rfl rfl, by simp, by simp⟩

theorem handleKeepAlive_refines {clock : PassClock} {c : MqttClient κ υ} {pass : Pass} (hnow : pass.now = clock.now)
    (hlater : pass.later = clock.later) :
    ∃ sent, KeepsAlive c (TuyaDaemon.handleKeepAlive { pass with pingSent := sent } c.session.world.mqclient)
      (handleKeepAlive clock c) := by
  obtain ⟨sent, hsession, hstatus, hne, hne'⟩ := sendKeepAlive_refines (c := c) hnow
  refine ⟨sent, ?_⟩
  unfold handleKeepAlive TuyaDaemon.handleKeepAlive
  generalize TuyaDaemon.sendKeepAlive { pass with pingSent := sent } c.session.world.mqclient = result at *
  generalize sendKeepAlive clock c = result' at *
  obtain ⟨status, mqclient⟩ := result
  obtain ⟨status', c'⟩ := result'
  have hmqclient : c'.session.world.mqclient = mqclient := congrArg (fun s => s.world.mqclient) hsession
  dsimp only at hsession hstatus ⊢
  rw [hmqclient, hlater]
  by_cases hlate : status = .success ∧ mqclient.waitingForPingResp = true ∧
      mqttPingrespTimeoutMs < clock.later - mqclient.pingReqSendTimeMs
  · rw [if_pos hlate, if_pos ⟨hstatus.1 hlate.1, hlate.2⟩]
    exact ⟨hsession, iff_of_false (by simp) (by simp), by simp, by simp⟩
  · rw [if_neg hlate, if_neg fun h => hlate ⟨hstatus.2 h.1, h.2⟩]
    exact ⟨hsession, hstatus, hne, hne'⟩

theorem map_noDataIsSuccess_of_ne {status : Option MQTTStatus} (h : status ≠ some .noDataAvailable) :
    status.map noDataIsSuccess = status := by
  cases status with
  | none => rfl
  | some status => exact congrArg some (if_neg fun heq => h (congrArg some heq))

/-- One pass. -/
theorem receiveSingleIteration_refines {clock : PassClock} {c : MqttClient κ υ}
    (h : (receiveSingleIteration appCallback clock c).1 ≠ none) :
    ∃ p, Follows (PublishSession.receiveSingleIteration appCallback p c.session)
      (receiveSingleIteration appCallback clock c) := by
  unfold receiveSingleIteration PublishSession.receiveSingleIteration Follows at *
  obtain ⟨pass, stream, hpass⟩ : ∃ pass stream, readPass clock.env c.stream = (pass, stream) := ⟨_, _, rfl⟩
  have hnow : pass.now = clock.now := congrArg (fun r => r.1.now) hpass.symm
  have hlater : pass.later = clock.later := congrArg (fun r => r.1.later) hpass.symm
  rw [hpass] at h ⊢
  dsimp only at h ⊢
  generalize hread : ({ c with stream := stream } : MqttClient κ υ) = c' at h ⊢
  have hsession : c.session = c'.session := by rw [← hread]
  rw [hsession]
  by_cases hquiet : pass.header = .noDataAvailable
  · rw [if_pos hquiet]
    obtain ⟨sent, hkeeps⟩ := handleKeepAlive_refines (c := c') hnow hlater
    refine ⟨⟨{ pass with pingSent := sent }, true⟩, ?_⟩
    rw [if_neg (by rw [hquiet]; simp)]
    unfold TuyaDaemon.receiveSingleIteration
    rw [if_pos hquiet]
    refine ⟨hkeeps.session.symm, ?_⟩
    dsimp only
    rw [map_noDataIsSuccess_of_ne hkeeps.ne', ← hkeeps.status]
    exact iff_of_eq (congrArg (· = MQTTStatus.success) (if_neg hkeeps.ne))
  rw [if_neg hquiet] at h ⊢
  by_cases hheader : pass.header = .success
  · rw [if_neg (not_not_intro hheader)] at h ⊢
    by_cases hbody : pass.body = .success
    · rw [if_neg (not_not_intro hbody)] at h ⊢
      cases hstatus : (handlePacket appCallback pass c').1 with
      | none =>
        rw [hstatus] at h
        exact absurd rfl h
      | some status =>
        obtain ⟨sent, hrefines⟩ := handlePacket_refines hstatus
        refine ⟨⟨pass, sent⟩, ?_⟩
        rw [if_pos ⟨hheader, hbody⟩, hrefines]
        exact ⟨rfl, (Option.some_inj).symm⟩
    · rw [if_pos hbody]
      refine ⟨⟨pass, true⟩, ?_⟩
      rw [if_neg fun hread => hbody hread.2]
      unfold TuyaDaemon.receiveSingleIteration
      rw [if_neg hquiet, if_neg (not_not_intro hheader), if_pos hbody]
      exact ⟨rfl, (Option.some_inj).symm⟩
  · rw [if_pos hheader]
    refine ⟨⟨pass, true⟩, ?_⟩
    rw [if_neg fun hread => hheader hread.1]
    unfold TuyaDaemon.receiveSingleIteration
    rw [if_neg hquiet, if_pos hheader]
    exact ⟨rfl, (Option.some_inj).symm⟩

/-- The loop, by induction on its passes: with its bytes it is one of the model with arbitrary sends. -/
theorem mqttProcessLoop_refines {clock : PassClock} {rest : List PassClock} {c : MqttClient κ υ}
    (h : (mqttProcessLoop appCallback clock rest c).1 ≠ none) :
    ∃ p passes, Follows (PublishSession.mqttProcessLoop appCallback p passes c.session)
      (mqttProcessLoop appCallback clock rest c) := by
  induction rest generalizing clock c with
  | nil =>
    obtain ⟨p, hfollows⟩ := receiveSingleIteration_refines h
    exact ⟨p, [], hfollows⟩
  | cons next rest ih =>
    by_cases hstatus : (receiveSingleIteration appCallback clock c).1 = some .success
    · rw [mqttProcessLoop_of_success next rest hstatus] at h ⊢
      have hreturned : (receiveSingleIteration appCallback clock c).1 ≠ none := by
        rw [hstatus]
        simp
      obtain ⟨p, hsession, hsuccess⟩ := receiveSingleIteration_refines hreturned
      obtain ⟨p', passes, hfollows⟩ := ih h
      refine ⟨p, p' :: passes, ?_⟩
      rw [PublishSession.mqttProcessLoop]
      generalize PublishSession.receiveSingleIteration appCallback p c.session = result at hsession hsuccess ⊢
      obtain ⟨status, s⟩ := result
      obtain rfl := hsuccess.2 hstatus
      obtain rfl := hsession
      exact hfollows
    · rw [mqttProcessLoop_of_ne next rest hstatus] at h ⊢
      obtain ⟨p, hsession, hsuccess⟩ := receiveSingleIteration_refines h
      refine ⟨p, [], ?_⟩
      exact ⟨hsession, hsuccess⟩

/-- What counts as reserved. -/
theorem reserved_iff {status : MQTTStatus} {dup : Bool} :
    (if status = .stateCollision ∧ dup = true then .success else status) = MQTTStatus.success ↔
      status = .success ∨ status = .stateCollision ∧ dup = true := by
  split
  · rename_i h
    exact iff_of_true rfl (Or.inr h)
  · rename_i h
    exact ⟨Or.inl, fun hor => hor.resolve_right h⟩

theorem sendReserved_refines {publishInfo : MQTTPublishInfo} {packetId : UInt16} {headerSize : Nat} {c : MqttClient κ υ}
    {status : MQTTStatus} (h : (sendReserved publishInfo packetId headerSize c).1 = some status) :
    ∃ sent : Bool, (status, (sendReserved publishInfo packetId headerSize c).2.session) =
      if sent then update publishInfo packetId c.session else (.sendFailed, c.session) := by
  unfold sendReserved at h ⊢
  cases hsend : ClientIO.sendPublish publishInfo headerSize c.io with
  | mk sent io =>
    rw [hsend] at h
    cases sent with
    | none => cases h
    | some sent =>
      rcases sendPublish_status (congrArg Prod.fst hsend) with rfl | rfl
      · obtain rfl := Option.some.inj h
        exact ⟨true, rfl⟩
      · obtain rfl := Option.some.inj h
        exact ⟨false, rfl⟩

/-- With its bytes, `MQTT_Publish` is one of the publishes of the model with arbitrary sends. -/
theorem mqttPublish_refines {publishInfo : MQTTPublishInfo} {packetId : UInt16} {c : MqttClient κ υ} {status : MQTTStatus}
    (h : (mqttPublish publishInfo packetId c).1 = some status) :
    ∃ serialized sent, PublishSession.mqttPublish serialized sent packetId publishInfo.qos publishInfo.dup c.session =
      (status, (mqttPublish publishInfo packetId c).2.session) := by
  unfold mqttPublish at h ⊢
  by_cases hparameters : publishInfo.qos ≠ .qos0 ∧ packetId = 0
  · rw [if_pos hparameters] at h ⊢
    refine ⟨.success, true, ?_⟩
    rw [PublishSession.mqttPublish, if_pos hparameters, Option.some.inj h]
  rw [if_neg hparameters] at h ⊢
  obtain ⟨error, hserialize, herror⟩ | ⟨hserialize, -⟩ :=
    ClientIO.serializePublish_cases publishInfo packetId c.io.networkBufferTX
  · -- the records are not asked before the packet is serialized
    rw [hserialize] at h ⊢
    have hne : error ≠ .success := by
      rcases herror with rfl | rfl <;> decide
    refine ⟨error, true, ?_⟩
    rw [PublishSession.mqttPublish, if_neg hparameters, if_pos hne, Option.some.inj h]
  rw [hserialize] at h ⊢
  dsimp only at h ⊢
  by_cases hreserved : (reserve publishInfo packetId c.session).1 = .success
  · rw [if_pos hreserved] at h ⊢
    obtain ⟨sent, hsent⟩ := sendReserved_refines h
    refine ⟨.success, sent, ?_⟩
    rw [hsent, PublishSession.mqttPublish, if_neg hparameters, if_neg (not_not_intro rfl)]
    unfold reserve at hreserved ⊢
    unfold update
    by_cases h0 : publishInfo.qos = .qos0
    · simp only [if_pos h0]
      cases sent <;> rfl
    · simp only [if_neg h0] at hreserved ⊢
      rw [if_pos (reserved_iff.1 hreserved)]
  · rw [if_neg hreserved] at h ⊢
    refine ⟨.success, true, ?_⟩
    rw [PublishSession.mqttPublish, if_neg hparameters, if_neg (not_not_intro rfl), ← Option.some.inj h]
    unfold reserve at hreserved ⊢
    by_cases h0 : publishInfo.qos = .qos0
    · rw [if_pos h0] at hreserved
      exact absurd rfl hreserved
    · simp only [if_neg h0] at hreserved ⊢
      rw [if_neg (mt reserved_iff.2 hreserved), if_neg fun h => hreserved (reserved_iff.2 (Or.inr h))]

theorem handleSessionResumption_ok {sessionPresent : Bool} {c : MqttClient κ υ} {status : MQTTStatus}
    (h : (handleSessionResumption sessionPresent c).1 = some status) (hok : c.session.Ok) :
    (handleSessionResumption sessionPresent c).2.session.Ok := by
  unfold handleSessionResumption at h ⊢
  cases sessionPresent with
  | true => exact resendPubrels_ok h hok
  | false => exact Sound.reset hok

theorem connected_ok {keepAliveSeconds : UInt16} {sessionPresent : Bool} {c : MqttClient κ υ} {status : MQTTStatus}
    (h : (connected keepAliveSeconds sessionPresent c).1 = some status) (hok : c.session.Ok) :
    (connected keepAliveSeconds sessionPresent c).2.session.Ok := by
  have hresume : ∀ {status}, (handleSessionResumption sessionPresent c).1 = some status →
      (handleSessionResumption sessionPresent c).2.session.Ok := fun hstatus => handleSessionResumption_ok hstatus hok
  unfold connected at h ⊢
  generalize handleSessionResumption sessionPresent c = result at h hresume ⊢
  obtain ⟨status', c'⟩ := result
  cases status' with
  | none => cases h
  | some status' => exact hresume rfl

theorem mqttConnect_ok {connectInfo : MQTTConnectInfo} {willInfo : Option MQTTPublishInfo} {retries : Nat}
    {clock : PassClock} {c : MqttClient κ υ} {status : MQTTStatus}
    (h : (mqttConnect connectInfo willInfo retries clock c).1 = some status) (hok : c.session.Ok) :
    (mqttConnect connectInfo willInfo retries clock c).2.session.Ok := by
  unfold mqttConnect at h ⊢
  dsimp only at h ⊢
  split at h
  · rename_i hsent
    rw [if_pos hsent]
    split at h
    · rename_i haccepted
      rw [if_pos haccepted]
      exact connected_ok h hok
    · rename_i hrefused
      rw [if_neg hrefused]
      exact hok
  · rename_i hfailed
    rw [if_neg hfailed]
    exact hok

theorem call_ok {k : MqttCall} {c : MqttClient κ υ} {status : MQTTStatus} (h : (c.call appCallback k).1 = some status)
    (hok : c.session.Ok) : (c.call appCallback k).2.session.Ok := by
  cases k with
  | connect connectInfo willInfo retries clock => exact mqttConnect_ok h hok
  | subscribe subscriptionList packetId => exact hok
  | unsubscribe subscriptionList packetId => exact hok
  | publish publishInfo packetId =>
    obtain ⟨serialized, sent, hrefines⟩ := mqttPublish_refines h
    have hpublish := PublishSession.mqttPublish_ok serialized sent packetId publishInfo.qos publishInfo.dup hok
    rwa [hrefines] at hpublish
  | ping => exact hok
  | disconnect => exact hok
  | processLoop clock rest =>
    have hreturned : (mqttProcessLoop appCallback clock rest c).1 ≠ none := by
      rw [call] at h
      rw [h]
      simp
    obtain ⟨p, passes, hsession, -⟩ := mqttProcessLoop_refines hreturned
    have hloop := PublishSession.mqttProcessLoop_ok appCallback p passes hok
    rwa [hsession] at hloop

/-- The records of a client whose calls return keep their invariant. -/
theorem runCalls_ok {calls : List MqttCall} {c : MqttClient κ υ} (h : ∀ r ∈ (runCalls appCallback calls c).1, r.2 ≠ none)
    (hok : c.session.Ok) : (runCalls appCallback calls c).2.session.Ok := by
  induction calls generalizing c with
  | nil => exact hok
  | cons k calls ih =>
    have hcall : ∀ {status}, (c.call appCallback k).1 = some status → (c.call appCallback k).2.session.Ok :=
      fun hstatus => call_ok hstatus hok
    rw [runCalls] at h ⊢
    generalize c.call appCallback k = result at h hcall ⊢
    obtain ⟨status, c'⟩ := result
    cases status with
    | none => exact absurd rfl (h _ List.mem_cons_self)
    | some status =>
      obtain ⟨-, hrest⟩ := List.forall_mem_cons.1 h
      exact ih hrest (hcall rfl)

/-- With its bytes too, a client whose calls return opens every publish once. -/
theorem runCalls_openedOnce (calls : List MqttCall) (w : World κ υ) (networkBuffer networkBufferTX : MQTTFixedBuffer)
    (writes : List SslWrite) (stream : SslStream)
    (h : ∀ r ∈ (runCalls appCallback calls (init w networkBuffer networkBufferTX writes stream)).1, r.2 ≠ none)
    (direction : Direction) :
    OpenedOnce direction
      (runCalls appCallback calls (init w networkBuffer networkBufferTX writes stream)).2.session.log := by
  have hinit : (init w networkBuffer networkBufferTX writes stream : MqttClient κ υ).session.Ok := Sound.init
  obtain ⟨progress, hsound⟩ := runCalls_ok h hinit
  cases direction with
  | outgoing => exact hsound.outgoingOnce
  | incoming => exact hsound.incomingOnce

end Refinement

/-! ### A connect that succeeds -/

section Connect

variable {κ υ : Type}

theorem connackStatus_eq_success {cleanSession : Bool} {flags code : UInt8}
    (h : connackStatus cleanSession flags code = .success) :
    code = 0 ∧ (flags = 0 ∨ flags = 1 ∧ cleanSession = false) := by
  unfold connackStatus at h
  split at h
  · rename_i hflags
    split at h
    · rename_i hcode
      exact ⟨hcode, Or.inl hflags⟩
    · split at h
      · cases h
      · split at h <;> cases h
  · split at h
    · rename_i hsession
      exact ⟨hsession.2.1, Or.inr ⟨hsession.1, hsession.2.2⟩⟩
    · cases h

/-- The PUBRELs of a session that is resumed. -/
def pubrels (ctx : PublishContext) : List ClientPacket :=
  (selected pubrelStates ctx.outgoingPublishRecords.slots).map fun record => .ack mqttPacketTypePubrel record.packetId

/-- They go out for the records that the search finds. -/
theorem resendPubrels_sent {c c' : MqttClient κ υ} (hok : c.session.Ok)
    (h : resendPubrels (mqttStateArrayMaxCount + 1) 0 c = (some .success, c')) :
    Sends c c' (pubrels c.session.records) := by
  have hreturned : Returned (resendPubrels (mqttStateArrayMaxCount + 1) 0 c).1 := by
    rw [h]
    exact returned_success
  have hacks := resendPubrels_sends hreturned
  rw [h] at hacks
  obtain ⟨packets, hsends, hnone⟩ := hacks
  obtain ⟨progress, haccounted⟩ := hok
  have hlength : c.session.records.outgoingPublishRecords.slots.length < mqttStateArrayMaxCount + 1 := by
    rw [c.session.records.outgoingPublishRecords.length_slots]
    omega
  obtain ⟨sent, unsent, hfound, hlog, hstatus⟩ :=
    PublishSession.resendPubrels_from (fun _ => true) [] _ haccounted.represents rfl hlength
  have hrefines := resendPubrels_refines h
  rw [List.length_nil, hrefines] at hlog hstatus
  obtain ⟨-, rfl⟩ := hstatus.resolve_right fun hfailed => by cases hfailed.1
  rw [List.append_nil] at hfound
  -- the log has the acknowledgements that are on the wire
  obtain ⟨events, hevents, hsame⟩ := hsends.log
  obtain rfl := List.append_cancel_left (hevents.symm.trans hlog)
  have hpackets : packets = pubrels c.session.records := by
    have hacked : (sent.map fun record => PublishEvent.ack .send record.packetId .pubrel).filterMap
        PublishEvent.acknowledgement = sent.map fun record => (mqttPacketTypePubrel, record.packetId) := by
      rw [List.filterMap_map]
      exact congrFun List.filterMap_eq_map sent
    rw [eq_acks hnone, hsame, hacked, pubrels, hfound, List.map_map]
    rfl
  rwa [← hpackets]

@[simp] theorem sendPublishAcks_stream (packetId : UInt16) (publishState : MQTTPublishState) (c : MqttClient κ υ) :
    (sendPublishAcks packetId publishState c).2.stream = c.stream := by
  unfold sendPublishAcks
  split
  · rfl
  · split <;> rfl

theorem resendPubrels_stream (left cursor : Nat) (c : MqttClient κ υ) :
    (resendPubrels left cursor c).2.stream = c.stream := by
  induction left generalizing cursor c with
  | zero => rfl
  | succ left ih =>
    rw [resendPubrels]
    dsimp only
    split
    · rfl
    · have hack := sendPublishAcks_stream (mqttPubrelToResend c.session.records cursor).1 .pubRelSend c
      split
      · rename_i c' heq
        rw [heq] at hack
        exact (ih _ c').trans hack
      · rename_i heq
        rw [heq] at hack
        exact hack

/-- What is sent behind a CONNACK. -/
def Resumed (c c' : MqttClient κ υ) (sessionPresent : Bool) (resent : List ClientPacket) : Prop :=
  sessionPresent = false ∧ resent = [] ∧ c'.session.records = .zero ∨
    sessionPresent = true ∧ resent = pubrels c.session.records

theorem connected_success {keepAliveSeconds : UInt16} {sessionPresent : Bool} {c c' : MqttClient κ υ} (hok : c.session.Ok)
    (h : connected keepAliveSeconds sessionPresent c = (some .success, c')) :
    c'.stream = c.stream ∧ c'.session.world.mqclient.keepAliveIntervalSec = keepAliveSeconds ∧
      ∃ resent, Sends c c' resent ∧ Resumed c c' sessionPresent resent := by
  unfold connected at h
  cases hresume : handleSessionResumption sessionPresent c with
  | mk status resumed =>
    rw [hresume] at h
    cases status with
    | none => cases (Prod.mk.inj h).1
    | some status =>
      obtain ⟨hstatus, rfl⟩ := Prod.mk.inj h
      obtain rfl := Option.some.inj hstatus
      cases sessionPresent with
      | true =>
        have hresend : resendPubrels (mqttStateArrayMaxCount + 1) 0 c = (some .success, resumed) := hresume
        have hstream := resendPubrels_stream (mqttStateArrayMaxCount + 1) 0 c
        rw [hresend] at hstream
        have hsent := resendPubrels_sent hok hresend
        exact ⟨hstream, rfl, _, ⟨hsent.readable, hsent.wire, hsent.log⟩, Or.inr ⟨rfl, rfl⟩⟩
      | false =>
        obtain ⟨-, rfl⟩ := Prod.mk.inj hresume
        have hnone : [PublishEvent.reset].filterMap PublishEvent.acknowledgement = [] := rfl
        exact ⟨rfl, rfl, [], .silent rfl rfl hnone, Or.inl ⟨rfl, rfl, rfl⟩⟩

/-- A connect that succeeds has read a CONNACK that accepts it.  It has sent its CONNECT as a whole, and when the broker
has a session, behind it the PUBRELs of the publishes of QoS 2 that the search finds; else nothing is left of the
publishes before. -/
theorem mqttConnect_success (connectInfo : MQTTConnectInfo) (willInfo : Option MQTTPublishInfo) (retries : Nat)
    (clock : PassClock) (c c' : MqttClient κ υ) (hok : c.session.Ok)
    (h : mqttConnect connectInfo willInfo retries clock c = (some .success, c')) :
    ∃ flags resent,
      streamBytes c.stream = connackBytes flags 0 ++ streamBytes c'.stream ∧
      (flags = 0 ∧ resent = [] ∧ c'.session.records = .zero ∨
        flags = 1 ∧ connectInfo.cleanSession = false ∧ resent = pubrels c.session.records) ∧
      (∃ bytes, c'.io.wire = c.io.wire ++ bytes ∧
        readPackets bytes = some (.connect (connectRequest connectInfo willInfo) :: resent)) ∧
      c'.session.world.mqclient.keepAliveIntervalSec = connectInfo.keepAliveSeconds := by
  have hsend := ClientIO.sendConnect_spec connectInfo willInfo c.io
  unfold mqttConnect at h
  generalize ClientIO.sendConnect connectInfo willInfo c.io = result at h hsend
  obtain ⟨sent, io⟩ := result
  dsimp only at h
  by_cases hsent : sent = some .success
  · subst hsent
    rw [if_pos rfl] at h
    obtain ⟨status, sessionPresent, stream, hreceive⟩ : ∃ status sessionPresent stream,
      receiveConnack retries clock.env connectInfo.cleanSession false c.stream = (status, sessionPresent, stream) :=
        ⟨_, _, _, rfl⟩
    rw [hreceive] at h
    dsimp only at h
    by_cases hstatus : status = .success
    · subst hstatus
      rw [if_pos rfl] at h
      generalize hconnect : ({ c with io := io, stream := stream } : MqttClient κ υ) = c₁ at h
      have hok₁ : c₁.session.Ok := by
        rw [← hconnect]
        exact hok
      obtain ⟨hstream, hkeepAlive, resent, hresent, hresumed⟩ := connected_success hok₁ h
      obtain ⟨flags, code, hbytes, hconnack, hpresent⟩ := receiveConnack_sound hreceive (Or.inl rfl)
      obtain ⟨rfl, hflags⟩ := connackStatus_eq_success hconnack
      subst hconnect
      have hrequest : Sends c { c with io := io, stream := stream } [.connect (connectRequest connectInfo willInfo)] := by
        obtain ⟨readable, wire⟩ := hsend.of_success
        exact .one readable wire (List.append_nil _).symm rfl
      have hsends := hrequest.trans hresent
      refine ⟨flags, resent, ?_, ?_, ⟨_, hsends.wire, readPackets_packets hsends.readable⟩, hkeepAlive⟩
      · rw [hbytes, hstream]
      · -- the flag of the CONNACK is the one that the resumption has been given
        rcases hflags with rfl | ⟨rfl, hkept⟩
        · rcases hresumed with ⟨-, hnone⟩ | ⟨hsome, -⟩
          · exact Or.inl ⟨rfl, hnone⟩
          · rw [hpresent rfl] at hsome
            exact absurd hsome (by decide)
        · rcases hresumed with ⟨hnone, -⟩ | ⟨-, hall⟩
          · rw [hpresent rfl] at hnone
            exact absurd hnone (by decide)
          · exact Or.inr ⟨rfl, hkept, hall⟩
    · rw [if_neg hstatus] at h
      exact absurd (Option.some.inj (Prod.mk.inj h).1) hstatus
  · rw [if_neg hsent] at h
    exact absurd (Prod.mk.inj h).1 hsent

/-- A session with the publish 1 of QoS 2 behind its PUBREC. -/
theorem mqttConnect_success_resumed :
    ∃ c' : MqttClient Nat Nat, ∃ bytes, c'.io.wire = [] ++ bytes ∧
      readPackets bytes =
        some [.connect ⟨⟨false, 60, ⟨[99], by decide⟩, none, none⟩, none⟩, .ack mqttPacketTypePubrel 1] := by
  obtain ⟨c', h⟩ : ∃ c', mqttConnect ⟨false, 60, ⟨[99], by decide⟩, none, none⟩ none 0 ⟨3, [], 5, 5⟩
      (⟨.runSteps (fun _ _ w => w) ⟨.zero, 0, ⟨0, []⟩, []⟩ [.publish .success true 1 .qos2 false,
          .processLoop ⟨⟨.success, .success, ⟨mqttPacketTypePubrec, [0, 1]⟩, 5, 5, true, .success, .success⟩, true⟩ []],
        ⟨List.replicate 16 0, [], [.takes 16 (Nat.succ_pos 15), .takes 16 (Nat.succ_pos 15)], []⟩,
        [.record [0x20, 0x02, 0x01, 0x00] (List.cons_ne_nil _ _)]⟩ : MqttClient Nat Nat) = (some .success, c') :=
    ⟨_, rfl⟩
  obtain ⟨flags, resent, hbytes, hresumed, hsent, -⟩ := mqttConnect_success _ _ _ _ _ _
    (PublishSession.runSteps_ok _ _ _) h
  have hlength : varint 2 = [2] := varint_of_lt (by decide)
  rcases hresumed with ⟨rfl, -⟩ | ⟨-, -, rfl⟩
  · simp [streamBytes, connackBytes, MQTTPacketInfo.bytes, mqttPacketTypeConnack, hlength] at hbytes
  · exact ⟨c', hsent⟩

end Connect

end MqttClient

end TuyaDaemon
