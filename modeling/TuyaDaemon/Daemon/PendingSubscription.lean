import TuyaDaemon.Daemon.ConnectionTruth

/-!
# Waiting for the acknowledgement

A connect puts the context into `TUYA_STATE_SUBSCRIBING` whether or not the automatic subscription was sent: the
callback records the identifier `0` and its failure goes nowhere (`connectedWorld_ackCanCome_iff`).  In a run whose connects
send their subscription, a context that is subscribing has one pending (`guardedRun_ackCanCome`).
-/

namespace TuyaDaemon

open CLib

variable {D : Doubles} {core : CoreJson} {ok : Nat → Bool} {text : CJsonText D}

/-- A context that is subscribing has sent the subscription with its identifier on the current connection, which has
not been acknowledged and not been closed since. -/
def AckCanCome (w : LinkWorld) : Prop :=
  w.user.state = .subscribing → w.user.autoSubscribeId ≠ 0 ∧
    Subscribed (autoSubscribeText w.user.config.deviceId.chars) w.user.autoSubscribeId w.trace ∧
    linkSession w = .awaiting (some w.user.autoSubscribeId)

/-- A connect that gets to the automatic subscription sends it. -/
def SubscribeSent (env : ConnectEnv) : Prop :=
  env.networkConnect = true → env.mqttConnect = .success → env.subscribe = .success

/-- The invariant behind it. -/
structure Waits (w : LinkWorld) : Prop where
  packetId : w.mqclient.nextPacketId ≠ 0
  automatic : w.user.state ≠ .idle → w.user.manualDisconnect = false
  pending : w.user.state = .subscribing →
    w.user.autoSubscribeId ≠ 0 ∧ linkSession w = .awaiting (some w.user.autoSubscribeId)

theorem Waits.ackCanCome {w : LinkWorld} (h : Waits w) : AckCanCome w := by
  intro hstate
  obtain ⟨hid, hsession⟩ := h.pending hstate
  have hholds := session_holds (autoSubscribeText w.user.config.deviceId.chars) w.trace
  rw [show session _ w.trace = .awaiting (some w.user.autoSubscribeId) from hsession] at hholds
  exact ⟨hid, hholds, hsession⟩

/-! ### Connecting -/

theorem mqttGetPacketId_ne_zero (mqclient : MQTTContext) (h : mqclient.nextPacketId ≠ 0) :
    (mqttGetPacketId mqclient).2.nextPacketId ≠ 0 := by
  show (if mqclient.nextPacketId = 65535 then (1 : UInt16) else mqclient.nextPacketId + 1) ≠ 0
  have hpositive : mqclient.nextPacketId.toNat ≠ (0 : UInt16).toNat := fun heq => h (UInt16.toNat_inj.1 heq)
  have hlt := mqclient.nextPacketId.toNat_lt
  have hone : (1 : UInt16).toNat = 1 := rfl
  have hzero : (0 : UInt16).toNat = 0 := rfl
  have hmax : (65535 : UInt16).toNat = 65535 := rfl
  split
  · decide
  · rename_i hne
    rw [← UInt16.toNat_inj, hmax] at hne
    rw [hzero] at hpositive
    rw [ne_eq, ← UInt16.toNat_inj, UInt16.toNat_add, hone, hzero]
    omega

theorem connectedWorld_packetId (config : TuyaMqttConfig) (env : ConnectEnv) {w : LinkWorld}
    (h : w.mqclient.nextPacketId ≠ 0) : (connectedWorld config env w).mqclient.nextPacketId ≠ 0 :=
  mqttGetPacketId_ne_zero (mqttConnect config.keepalive.toUInt16 .success w.mqclient) h

/-- Behind a connect, an acknowledgement can come exactly when the subscription was sent. -/
theorem connectedWorld_ackCanCome_iff (config : TuyaMqttConfig) (env : ConnectEnv) {w : LinkWorld}
    (h : w.mqclient.nextPacketId ≠ 0) :
    AckCanCome (connectedWorld config env w) ↔ env.subscribe = .success := by
  have hvalidated : validated w.mqclient.nextPacketId env.subscribe = env.subscribe := if_neg h
  have hsession : linkSession (connectedWorld config env w) =
      .awaiting (if validated w.mqclient.nextPacketId env.subscribe = .success then some w.mqclient.nextPacketId
        else none) := session_connect _ _ _ _
  have hid : (connectedWorld config env w).user.autoSubscribeId =
      sentId w.mqclient.nextPacketId (validated w.mqclient.nextPacketId env.subscribe) := rfl
  rw [hvalidated] at hsession hid
  constructor
  · intro hack
    by_contra hsent
    apply (hack rfl).1
    rw [hid, sentId, if_pos hsent]
  · intro hsent
    have hsame : (connectedWorld config env w).user.autoSubscribeId = w.mqclient.nextPacketId := by
      rw [hid, sentId, if_neg (by simp [hsent])]
    rw [if_pos hsent] at hsession
    have hholds := session_holds (autoSubscribeText (connectedWorld config env w).user.config.deviceId.chars)
      (connectedWorld config env w).trace
    rw [show session _ (connectedWorld config env w).trace = _ from hsession] at hholds
    intro _
    rw [hsame]
    exact ⟨h, hholds, hsession⟩

theorem waits_connectedWorld (config : TuyaMqttConfig) {env : ConnectEnv} {w : LinkWorld}
    (hpacket : w.mqclient.nextPacketId ≠ 0) (hmanual : w.user.manualDisconnect = false)
    (hsent : env.subscribe = .success) : Waits (connectedWorld config env w) where
  packetId := connectedWorld_packetId config env hpacket
  automatic _ := hmanual
  pending hstate := by
    obtain ⟨hid, -, hsession⟩ := (connectedWorld_ackCanCome_iff config env hpacket).2 hsent hstate
    exact ⟨hid, hsession⟩

/-! ### What one call preserves -/

theorem waits_initialWorld (config : TuyaMqttConfig) (auth : TuyaMqttAuth) (client : Nat) (heap : MessageHeap) :
    Waits (initialWorld config auth client heap) where
  packetId := by
    show (1 : UInt16) ≠ 0
    decide
  automatic h := absurd rfl h
  pending h := by cases h

theorem Waits.failedConnect {w : LinkWorld} (h : Waits w) {es : List (Event TuyaMqttContext)}
    (hes : ∀ e ∈ es, Event.FailedConnect e) : Waits { w with trace := w.trace ++ es } := by
  refine ⟨h.packetId, h.automatic, fun hstate => ?_⟩
  obtain ⟨hid, hsession⟩ := h.pending hstate
  exact ⟨hid, (session_failedConnect _ _ hes).trans hsession⟩

/-- A SUBACK ends the waiting, or it is not the one that is awaited. -/
theorem Waits.suback {w : LinkWorld} (h : Waits w) (hstate : w.user.state ≠ .idle) (id : UInt16)
    (result : MQTTStatus) : Waits (afterSuback id result w) ∧ (afterSuback id result w).user.state ≠ .idle := by
  by_cases hmatch : id = w.user.autoSubscribeId
  · have huser : (afterSuback id result w).user =
        { w.user with autoSubscribeId := 0, autoSubscribeEnabled := true, state := .subscribeComplete } :=
      if_pos hmatch
    refine ⟨⟨h.packetId, fun _ => ?_, fun hs => ?_⟩, ?_⟩
    · rw [huser]
      exact h.automatic hstate
    · rw [huser] at hs
      cases hs
    · rw [huser]
      simp
  · have huser : (afterSuback id result w).user = w.user := if_neg hmatch
    refine ⟨⟨h.packetId, ?_, fun hs => ?_⟩, ?_⟩
    · rw [huser]
      exact h.automatic
    · rw [huser] at hs ⊢
      obtain ⟨hid, hsession⟩ := h.pending hs
      refine ⟨hid, ?_⟩
      have hacked : linkSession (afterSuback id result w) = (linkSession w).acked id := by
        show session (autoSubscribeText (afterSuback id result w).user.config.deviceId.chars) (w.trace ++ [_]) = _
        rw [huser, session_concat]
        rfl
      rw [hacked, hsession]
      exact if_neg fun heq => hmatch (Option.some.inj heq).symm
    · rw [huser]
      exact hstate

theorem waits_invariant : LinkInvariant fun w => Waits w ∧ w.user.state ≠ .idle where
  frame w mqclient heap hid hw := by
    obtain ⟨h, hstate⟩ := hw
    refine ⟨⟨?_, h.automatic, h.pending⟩, hstate⟩
    show mqclient.nextPacketId ≠ 0
    rw [hid]
    exact h.packetId
  readOutside w hw := by
    obtain ⟨h, hstate⟩ := hw
    refine ⟨⟨h.packetId, h.automatic, fun hs => ?_⟩, hstate⟩
    obtain ⟨hid, hsession⟩ := h.pending hs
    exact ⟨hid, (session_concat _ _ _).trans hsession⟩
  suback msgid result w hw := hw.1.suback hw.2 msgid result

theorem Waits.disconnect {w : LinkWorld} (h : Waits w) (hstate : w.user.state ≠ .idle) :
    Waits { w with user := w.user.afterDisconnect, trace := w.trace ++ disconnectEvents w.user.config } := by
  have hmanual := h.automatic hstate
  have hconnecting : w.user.afterDisconnect.state = .connecting := if_pos hmanual
  refine ⟨h.packetId, fun _ => hmanual, fun hs => ?_⟩
  rw [hconnecting] at hs
  cases hs

theorem Waits.loop {w w' : LinkWorld} (h : Waits w) {env : LoopEnv}
    (hsent : w.user.state = .connecting → SubscribeSent env.connect)
    (hloop : tuyaMqttLoop core ok env w = some w') : Waits w' := by
  cases tuyaMqttLoop_step hloop with
  | idle _ => exact h
  | failed _ hes => exact h.failedConnect hes
  | connected hstate _ =>
    rcases loop_connecting hstate hloop with ⟨es, hes, heq⟩ | ⟨hnet, hmq, heq⟩
    · rw [heq]
      exact h.failedConnect hes
    · rw [heq]
      exact waits_connectedWorld _ h.packetId (h.automatic (by rw [hstate]; simp)) (hsent hstate hnet hmq)
  | yield hstate =>
    have hidle : w.user.state ≠ .idle := by rcases hstate with hs | hs <;> rw [hs] <;> simp
    rcases waits_invariant.yield w.user.config env.pass env.rest ⟨h, hidle⟩ with hkeep | ⟨w₁, hw₁, hdisc⟩
    · exact hkeep.1
    · rw [hdisc]
      exact hw₁.1.disconnect hw₁.2
  | complete hstate =>
    exact ⟨h.packetId, fun _ => h.automatic (by rw [hstate]; simp), fun hs => by cases hs⟩
  | reconnect hstate =>
    exact ⟨h.packetId, fun _ => h.automatic (by rw [hstate]; simp), fun hs => by cases hs⟩

theorem Waits.connect {w w' : LinkWorld} (h : Waits w) (hstate : w.user.state = .idle) {env : ConnectEnv} {rc : Int}
    (hsent : SubscribeSent env) (hconnect : tuyaMqttConnect core ok env w = some (rc, w')) : Waits w' := by
  rcases connect_exact (by rw [hstate]; simp) hconnect with ⟨-, es, hes, rfl⟩ | ⟨-, hnet, hmq, rfl⟩
  · refine ⟨h.packetId, fun _ => rfl, fun hs => ?_⟩
    rw [hstate] at hs
    cases hs
  · have hpacket : ({ w with user := { w.user with manualDisconnect := false } } : LinkWorld).mqclient.nextPacketId ≠ 0 :=
      h.packetId
    exact waits_connectedWorld _ hpacket rfl (hsent hnet hmq)

theorem Waits.report {w w' : LinkWorld} (h : Waits w) {env : ReportEnv D}
    (hreport : telemetryReport text env w = some w') : Waits w' := by
  rcases telemetryReport_cases hreport with rfl | ⟨-, json, rc, hsend⟩
  · exact h
  · have hover : sendOver (fun context => tuyalinkMessageSend env.send (publishWith env.publish) context
        (requestMessage .propertyReport none (some json) false)) w = some (rc, w') := hsend
    have hpacket : w'.mqclient.nextPacketId ≠ 0 := by
      rcases sendOver_mqclient hover with heq | heq
      · rw [heq]
        exact h.packetId
      · rw [heq]
        exact mqttGetPacketId_ne_zero w.mqclient h.packetId
    obtain ⟨mqclient, n, es, hes, rfl⟩ := sendOver_cases hover
    refine ⟨hpacket, h.automatic, fun hs => ?_⟩
    obtain ⟨hid, hsession⟩ := h.pending hs
    refine ⟨hid, Eq.trans ?_ hsession⟩
    rcases hes with rfl | ⟨id, topic, payload, rfl⟩
    · exact congrArg (session _) (List.append_nil _)
    · exact session_concat _ _ _

/-! ### Runs -/

/-- In every state of a run whose connects send their subscription, a context that is subscribing waits for an
acknowledgement that can come. -/
theorem guardedRun_ackCanCome {w : LinkWorld}
    (h : GuardedRun core ok text SubscribeSent (fun w env => w.user.state = .connecting → SubscribeSent env.connect) w) :
    AckCanCome w := by
  suffices hwaits : Waits w from hwaits.ackCanCome
  induction h with
  | init hinit =>
    obtain ⟨auth, client, heap, rfl⟩ := tuyaMqttInit_spec hinit
    exact waits_initialWorld _ auth client heap
  | connect hinit hsent hconnect =>
    obtain ⟨auth, client, heap, rfl⟩ := tuyaMqttInit_spec hinit
    exact (waits_initialWorld _ auth client heap).connect rfl hsent hconnect
  | loop _ hsent hloop ih => exact ih.loop hsent hloop
  | report _ hreport ih => exact ih.report hreport

theorem guardedRun_ackCanCome_subscribing : ∃ w : LinkWorld, w.user.state = .subscribing ∧ AckCanCome w := by
  obtain ⟨auth, heap, hinit⟩ := exampleInit_succeeds
  have hsent : SubscribeSent ⟨true, .success, .success⟩ := fun _ _ => rfl
  have hrun : GuardedRun asciiJson (fun _ => true) flatText SubscribeSent
      (fun w env => w.user.state = .connecting → SubscribeSent env.connect) (subscribingWorld auth heap) :=
    .connect hinit hsent (exampleConnect_succeeds auth heap)
  exact ⟨_, rfl, guardedRun_ackCanCome hrun⟩

/-- A connect whose subscription cannot be sent. -/
theorem not_ackCanCome_sendFailed : ¬ ∀ w,
    GuardedRun asciiJson (fun _ => true) flatText (fun _ => True) (fun _ _ => True) w → AckCanCome w := by
  intro h
  obtain ⟨auth, heap, hinit⟩ := exampleInit_succeeds
  have hconnect : ∃ w, tuyaClientConnect asciiJson (fun _ => true) ⟨true, .success, .sendFailed⟩
      (initialWorld exampleContext.config auth 0 heap) = some (oprtOk, w) ∧ w.user.state = .subscribing ∧
        w.user.autoSubscribeId = 0 := ⟨_, rfl, rfl, rfl⟩
  obtain ⟨w, hw, hstate, hid⟩ := hconnect
  exact (h w (.connect hinit trivial hw) hstate).1 hid

end TuyaDaemon
