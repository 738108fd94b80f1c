import TuyaDaemon.Link.LinkCore

/-!
# What the calls of the link core do

One lemma for each way a call changes the world: `linkConnect_cases` for a connect, `linkDisconnect_eq` for a
disconnect, `LinkInvariant.yield` for whatever a yield reads, and `tuyalinkMessageSend_cases` for a send.  The
invariants of the later modules are case analyses over these.
-/

namespace TuyaDaemon

open CLib

variable {core : CoreJson} {ok : Nat → Bool}

/-! ### Initialisation -/

/-- The world behind a successful `tuya_mqtt_init`. -/
def initialWorld (config : TuyaMqttConfig) (auth : TuyaMqttAuth) (client : Nat) (heap : MessageHeap) : LinkWorld where
  mqclient := .init
  user := { TuyaMqttContext.zero config with
    mqttAuth := auth
    mqttClient := some client
    manualDisconnect := true
    state := .idle }
  heap := heap
  trace := []

/-- What `tuya_mqtt_init` can do, with its return code: one case for each exit. -/
inductive InitStep (ok : Nat → Bool) (config : TuyaMqttConfig) (heap : MessageHeap) : Int → LinkWorld → Prop where
  | unsigned {rc : Int} {auth : TuyaMqttAuth} : rc ≠ oprtOk →
      InitStep ok config heap rc ⟨.zero, { TuyaMqttContext.zero config with mqttAuth := auth }, heap, []⟩
  | noMemory {auth : TuyaMqttAuth} {heap' : MessageHeap} : heap.malloc ok = (none, heap') →
      InitStep ok config heap oprtMallocFailed
        ⟨.zero, { TuyaMqttContext.zero config with mqttAuth := auth }, heap', []⟩
  | uninitialised {auth : TuyaMqttAuth} {client : Nat} {heap' : MessageHeap} : heap.malloc ok = (some client, heap') →
      InitStep ok config heap oprtComError
        ⟨.zero, { TuyaMqttContext.zero config with mqttAuth := auth, mqttClient := some client }, heap', []⟩
  | initialised {auth : TuyaMqttAuth} {client : Nat} {heap' : MessageHeap} : heap.malloc ok = (some client, heap') →
      InitStep ok config heap oprtOk (initialWorld config auth client heap')

theorem tuyaMqttInit_step {hmac : Hmac} {env : InitEnv} {config : TuyaMqttConfig} {heap : MessageHeap} {rc : Int}
    {w : LinkWorld} (h : tuyaMqttInit ok hmac env config heap = .ok (rc, w)) : InitStep ok config heap rc w := by
  simp only [tuyaMqttInit] at h
  cases hauth : tuyaMqttAuthSignatureCalculate hmac env.auth config.deviceId config.deviceSecret
      (TuyaMqttContext.zero config).mqttAuth with
  | error fault =>
    rw [hauth] at h
    cases h
  | ok result =>
    rw [hauth, ok_bind] at h
    split at h
    · rename_i hrc
      cases h
      exact .unsigned hrc
    · split at h
      · rename_i heap' hmalloc
        cases h
        exact .noMemory hmalloc
      · rename_i client heap' hmalloc
        cases htls : env.networkTlsInit with
        | true =>
          rw [htls] at h
          cases h
          exact .initialised hmalloc
        | false =>
          rw [htls] at h
          cases h
          exact .uninitialised hmalloc

theorem tuyaMqttInit_spec {hmac : Hmac} {env : InitEnv} {config : TuyaMqttConfig} {heap : MessageHeap}
    {w : LinkWorld} (h : tuyaMqttInit ok hmac env config heap = .ok (oprtOk, w)) :
    ∃ auth client heap', w = initialWorld config auth client heap' := by
  have hstep := tuyaMqttInit_step h
  generalize hrc : oprtOk = rc at hstep
  cases hstep with
  | unsigned hne => exact absurd hrc.symm hne
  | noMemory _ => exact absurd hrc (by decide)
  | uninitialised _ => exact absurd hrc (by decide)
  | initialised _ => exact ⟨_, _, _, rfl⟩

theorem tuyaMqttInit_succeeds (ok : Nat → Bool) {hmac : Hmac} (env : InitEnv) {config : TuyaMqttConfig}
    (heap : MessageHeap) {auth : TuyaMqttAuth}
    (hauth : tuyaMqttAuthSignatureCalculate hmac env.auth config.deviceId config.deviceSecret .zero =
      .ok (oprtOk, auth))
    (hok : ok heap.next = true) (htls : env.networkTlsInit = true) :
    ∃ heap', tuyaMqttInit ok hmac env config heap = .ok (oprtOk, initialWorld config auth heap.next heap') := by
  refine ⟨{ next := heap.next + 1, log := heap.log ++ [.malloc heap.next] }, ?_⟩
  simp only [tuyaMqttInit]
  rw [show (TuyaMqttContext.zero config).mqttAuth = .zero from rfl, hauth, ok_bind]
  simp only [Heap.malloc_ok hok, htls, mqttClientInit]
  rfl

/-! ### Connect -/

theorem mqttClientConnectedCb_spec {status : MQTTStatus} {w w' : LinkWorld}
    (h : mqttClientConnectedCb status w = some w') :
    ∃ id sent autoId,
      w' = { w with
        mqclient := (mqttGetPacketId w.mqclient).2
        user := { w.user with autoSubscribeId := autoId }
        trace := w.trace ++ [.subscribe id (autoSubscribeText w.user.config.deviceId.chars) sent] } ∧
      (autoId = 0 ∧ sent ≠ .success ∨ autoId = id ∧ sent = .success ∧ id ≠ 0) := by
  unfold mqttClientConnectedCb at h
  split at h
  · cases h
  · rename_i topic htopic
    rw [autoSubscribeTopic_ok htopic] at h
    obtain ⟨id, sent, hworld, hid⟩ :=
      mqttClientSubscribe_spec status (autoSubscribeText w.user.config.deviceId.chars) w
    simp only [hworld, Option.some.injEq] at h
    exact ⟨id, sent, _, h.symm, hid⟩

/-- A connect leaves the context as it is, or it ends with the subscription on the new connection. -/
theorem linkConnect_cases {config : TuyaMqttConfig} {env : ConnectEnv} {w w' : LinkWorld}
    {status : MqttClientStatus} (h : mqttClientConnect (mqttConfig core ok config) env w = some (status, w')) :
    (status ≠ .success ∧ ∃ es, (∀ e ∈ es, Event.FailedConnect e) ∧ w' = { w with trace := w.trace ++ es }) ∨
      (status = .success ∧ ∃ mqclient id sent autoId,
        w' = { w with
          mqclient := mqclient
          user := { w.user with autoSubscribeId := autoId }
          trace := w.trace ++ [.networkConnect true, .mqttConnect .success,
            .subscribe id (autoSubscribeText w.user.config.deviceId.chars) sent] } ∧
        (autoId = 0 ∧ sent ≠ .success ∨ autoId = id ∧ sent = .success ∧ id ≠ 0)) := by
  rcases mqttClientConnect_cases h with hfail | ⟨hstatus, hcb⟩
  · exact Or.inl hfail
  · right
    obtain ⟨id, sent, autoId, hw', hid⟩ := mqttClientConnectedCb_spec hcb
    refine ⟨hstatus, (mqttGetPacketId (mqttConnect config.keepalive.toUInt16 .success w.mqclient)).2,
      id, sent, autoId, ?_, hid⟩
    rw [hw']
    simp [mqttConfig]

/-! ### Disconnect -/

/-- The context after `mqtt_client_disconnected_cb`. -/
def TuyaMqttContext.afterDisconnect (context : TuyaMqttContext) : TuyaMqttContext :=
  { context with
    autoSubscribeEnabled := false
    isConnected := false
    state := if context.manualDisconnect = false then .connecting else context.state }

/-- The events of a disconnect that is handled. -/
def disconnectEvents (config : TuyaMqttConfig) : List (Event TuyaMqttContext) :=
  [.networkDisconnect, .disconnected] ++ (if config.onDisconnect then [.onDisconnect] else [])

theorem linkDisconnect_eq (config : TuyaMqttConfig) (w : LinkWorld) :
    mqttClientDisconnect (mqttConfig core ok config) w =
      { w with user := w.user.afterDisconnect, trace := w.trace ++ disconnectEvents w.user.config } := by
  show mqttClientDisconnectedCb ((w.log .networkDisconnect).log .disconnected) = _
  unfold mqttClientDisconnectedCb TuyaMqttContext.afterDisconnect disconnectEvents
  by_cases hon : w.user.config.onDisconnect = true <;> by_cases hmanual : w.user.manualDisconnect = false <;>
    simp [World.log, hon, hmanual]

/-! ### Yield -/

/-- The world after a SUBACK. -/
def afterSuback (msgid : UInt16) (result : MQTTStatus) (w : LinkWorld) : LinkWorld :=
  { w with
    user := mqttClientSubscribedCb msgid w.user
    trace := w.trace ++ [.suback msgid result w.user (mqttClientSubscribedCb msgid w.user)] }

section SubscribedCb

variable (msgid : UInt16) (context : TuyaMqttContext)

@[simp] theorem mqttClientSubscribedCb_mqttClient :
    (mqttClientSubscribedCb msgid context).mqttClient = context.mqttClient := by
  unfold mqttClientSubscribedCb
  split <;> rfl

@[simp] theorem mqttClientSubscribedCb_config : (mqttClientSubscribedCb msgid context).config = context.config := by
  unfold mqttClientSubscribedCb
  split <;> rfl

@[simp] theorem mqttClientSubscribedCb_subscribeList :
    (mqttClientSubscribedCb msgid context).subscribeList = context.subscribeList := by
  unfold mqttClientSubscribedCb
  split <;> rfl

@[simp] theorem mqttClientSubscribedCb_manualDisconnect :
    (mqttClientSubscribedCb msgid context).manualDisconnect = context.manualDisconnect := by
  unfold mqttClientSubscribedCb
  split <;> rfl

/-- The state is kept, or it is that of an acknowledged subscription. -/
theorem mqttClientSubscribedCb_state :
    (mqttClientSubscribedCb msgid context).state = context.state ∨
      (mqttClientSubscribedCb msgid context).state = .subscribeComplete := by
  unfold mqttClientSubscribedCb
  split
  · exact Or.inr rfl
  · exact Or.inl rfl

end SubscribedCb

theorem suback_mem (msgid : UInt16) (result : MQTTStatus) (w : LinkWorld) :
    Event.suback msgid result w.user (mqttClientSubscribedCb msgid w.user) ∈ (afterSuback msgid result w).trace :=
  List.mem_append_right _ (List.mem_singleton_self _)

/-- A property that survives whatever the client reads. -/
structure LinkInvariant (P : LinkWorld → Prop) : Prop where
  frame : ∀ (w : LinkWorld) (mqclient : MQTTContext) (heap : MessageHeap),
    mqclient.nextPacketId = w.mqclient.nextPacketId → P w → P { w with mqclient := mqclient, heap := heap }
  readOutside : ∀ w, P w → P (w.log .readOutside)
  suback : ∀ msgid result w, P w → P (afterSuback msgid result w)

namespace LinkInvariant

variable {P : LinkWorld → Prop}

/-- Of the context, only a SUBACK changes something. -/
theorem ofContext {Q : TuyaMqttContext → Prop} (h : ∀ msgid context, Q context → Q (mqttClientSubscribedCb msgid context)) :
    LinkInvariant fun w => Q w.user where
  frame _ _ _ _ hw := hw
  readOutside _ hw := hw
  suback msgid _ w hw := h msgid w.user hw

theorem callbacks (h : LinkInvariant P) (config : TuyaMqttConfig) :
    CallbackInvariant (mqttConfig core ok config) P := by
  refine ⟨?_, ?_, ?_, ?_, ?_, ?_⟩
  · intro w mqclient hid hw
    exact h.frame w mqclient w.heap hid hw
  · intro w heap hw
    exact h.frame w w.mqclient heap rfl hw
  · intro msgid result w hw
    exact h.suback msgid result w hw
  · intro onMessage hon msgid msg w hw
    cases hon
    show P (mqttClientMessage core ok msg w)
    unfold mqttClientMessage
    split
    · exact h.frame w w.mqclient _ rfl hw
    · exact h.readOutside w hw
  · intro msgid w hw
    exact hw
  · intro msgid w hw
    exact hw

/-- A yield keeps the property, or ends with a disconnect from a world that has it. -/
theorem yield (h : LinkInvariant P) (config : TuyaMqttConfig) (pass : Pass) (rest : List Pass) {w : LinkWorld}
    (hw : P w) :
    P (mqttClientYield ok (mqttConfig core ok config) pass rest w).2 ∨
      ∃ w₁, P w₁ ∧ (mqttClientYield ok (mqttConfig core ok config) pass rest w).2 =
        { w₁ with user := w₁.user.afterDisconnect, trace := w₁.trace ++ disconnectEvents w₁.user.config } := by
  rcases (h.callbacks config).yield ok pass rest hw with hkeep | ⟨w₁, hw₁, hdisc⟩
  · exact Or.inl hkeep
  · right
    exact ⟨w₁, hw₁, hdisc.trans (linkDisconnect_eq config w₁)⟩

end LinkInvariant

/-- A yield that reads one SUBACK, granted or refused. -/
theorem yield_suback (core : CoreJson) (ok : Nat → Bool) (config : TuyaMqttConfig) (pass : Pass) {status : MQTTStatus}
    {id : UInt16} (hheader : pass.header = .success) (hbody : pass.body = .success)
    (htype : pass.packet.type = mqttPacketTypeSuback) (hack : mqttDeserializeAck pass.packet = (status, id))
    (hstatus : status = .success ∨ status = .serverRefused) (w : LinkWorld) :
    mqttClientYield ok (mqttConfig core ok config) pass [] w = (.success, afterSuback id status w) := by
  have hpub : pass.packet.isPublish = false := by
    rw [MQTTPacketInfo.isPublish, htype]
    decide
  have hcb : coreMqttLibraryCallback ok (mqttConfig core ok config) pass.packet ⟨id, none, status⟩ w =
      afterSuback id status w := by
    simp only [coreMqttLibraryCallback, hpub, htype, Bool.false_eq_true, ite_false, ite_true]
    rfl
  have hhandle : handleIncomingAck (coreMqttLibraryCallback ok (mqttConfig core ok config)) pass pass.packet w =
      (.success, afterSuback id status w) := by
    rw [handleIncomingAck, hack, htype, if_neg (by decide), if_neg (by decide), if_pos (by decide)]
    simp only [hstatus, ite_true, hcb]
  simp only [mqttClientYield, mqttProcessLoop, receiveSingleIteration, hheader, hbody, handlePacket, hpub, hhandle]
  rfl

/-- A yield whose first read fails is a disconnect. -/
theorem yield_recvFailed (config : TuyaMqttConfig) (pass : Pass) (rest : List Pass) (hpass : pass.header = .recvFailed)
    (w : LinkWorld) : (mqttClientYield ok (mqttConfig core ok config) pass rest w).2 =
      { w with user := w.user.afterDisconnect, trace := w.trace ++ disconnectEvents w.user.config } := by
  have hread : receiveSingleIteration (coreMqttLibraryCallback ok (mqttConfig core ok config)) pass w =
      (.recvFailed, w) := by
    simp only [receiveSingleIteration, hpass, reduceCtorEq, ne_eq, not_false_eq_true, ite_false, ite_true]
  have hloop : mqttProcessLoop (coreMqttLibraryCallback ok (mqttConfig core ok config)) pass rest w =
      (.recvFailed, w) := by
    cases rest with
    | nil => exact hread
    | cons next rest =>
      unfold mqttProcessLoop
      rw [hread]
  simp only [mqttClientYield, hloop, ne_eq, reduceCtorEq, not_false_eq_true, ite_true]
  exact linkDisconnect_eq config w

/-! ### Calls -/

/-- The world behind a connect: the context is subscribing, with the identifier of the subscription when it was sent. -/
def subscribed (w : LinkWorld) (mqclient : MQTTContext) (id autoId : UInt16) (sent : MQTTStatus) : LinkWorld :=
  { w with
    mqclient := mqclient
    user := { w.user with autoSubscribeId := autoId, state := .subscribing }
    trace := w.trace ++ [.networkConnect true, .mqttConnect .success,
      .subscribe id (autoSubscribeText w.user.config.deviceId.chars) sent] }

/-- What `tuya_mqtt_connect` can do, with its return code. -/
inductive ConnectStep (w : LinkWorld) : Int → LinkWorld → Prop where
  | uninit : w.user.state = .uninit → ConnectStep w oprtInvalidParm w
  | failed {es : List (Event TuyaMqttContext)} : w.user.state ≠ .uninit → (∀ e ∈ es, Event.FailedConnect e) →
      ConnectStep w oprtLinkCoreMqttConnectError
        { w with user := { w.user with manualDisconnect := false }, trace := w.trace ++ es }
  | connected {mqclient : MQTTContext} {id autoId : UInt16} {sent : MQTTStatus} : w.user.state ≠ .uninit →
      (autoId = 0 ∧ sent ≠ .success ∨ autoId = id ∧ sent = .success ∧ id ≠ 0) →
      ConnectStep w oprtOk
        (subscribed { w with user := { w.user with manualDisconnect := false } } mqclient id autoId sent)

theorem tuyaMqttConnect_step {env : ConnectEnv} {w w' : LinkWorld} {rc : Int}
    (h : tuyaMqttConnect core ok env w = some (rc, w')) : ConnectStep w rc w' := by
  unfold tuyaMqttConnect at h
  split at h
  · rename_i hstate
    cases h
    exact .uninit hstate
  · rename_i hstate
    simp only [Option.map_eq_some_iff] at h
    obtain ⟨⟨status, w₁⟩, hclient, hresult⟩ := h
    rcases linkConnect_cases hclient with ⟨hstatus, es, hes, rfl⟩ | ⟨rfl, mqclient, id, sent, autoId, rfl, hid⟩
    · rw [if_pos hstatus] at hresult
      cases hresult
      exact .failed hstate hes
    · rw [if_neg (by simp)] at hresult
      cases hresult
      exact .connected hstate hid

/-- What one call of `tuya_mqtt_loop` can do, one case for each branch. -/
inductive LoopStep (core : CoreJson) (ok : Nat → Bool) (env : LoopEnv) (w : LinkWorld) : LinkWorld → Prop where
  | idle : w.user.state = .uninit ∨ w.user.state = .idle → LoopStep core ok env w w
  | failed {es : List (Event TuyaMqttContext)} : w.user.state = .connecting → (∀ e ∈ es, Event.FailedConnect e) →
      LoopStep core ok env w { w with trace := w.trace ++ es }
  | connected {mqclient : MQTTContext} {id autoId : UInt16} {sent : MQTTStatus} : w.user.state = .connecting →
      (autoId = 0 ∧ sent ≠ .success ∨ autoId = id ∧ sent = .success ∧ id ≠ 0) →
      LoopStep core ok env w (subscribed w mqclient id autoId sent)
  | yield : w.user.state = .subscribing ∨ w.user.state = .yield →
      LoopStep core ok env w (mqttClientYield ok (mqttConfig core ok w.user.config) env.pass env.rest w).2
  | complete : w.user.state = .subscribeComplete →
      LoopStep core ok env w { w with
        user := { w.user with isConnected := true, state := .yield }
        trace := w.trace ++ (if w.user.config.onConnected then [.onConnected] else []) }
  | reconnect : w.user.state = .reconnect →
      LoopStep core ok env w { w with
        user := { w.user.afterDisconnect with state := .connecting }
        trace := w.trace ++ disconnectEvents w.user.config }

theorem tuyaMqttLoop_step {env : LoopEnv} {w w' : LinkWorld} (h : tuyaMqttLoop core ok env w = some w') :
    LoopStep core ok env w w' := by
  unfold tuyaMqttLoop at h
  cases hstate : w.user.state with
  | uninit =>
    simp only [hstate, Option.some.injEq] at h
    subst h
    exact .idle (Or.inl hstate)
  | idle =>
    simp only [hstate, Option.some.injEq] at h
    subst h
    exact .idle (Or.inr hstate)
  | connecting =>
    simp only [hstate, Option.map_eq_some_iff] at h
    obtain ⟨⟨status, w₁⟩, hclient, hresult⟩ := h
    rcases linkConnect_cases hclient with ⟨hstatus, es, hes, rfl⟩ | ⟨rfl, mqclient, id, sent, autoId, rfl, hid⟩
    · rw [if_neg hstatus] at hresult
      subst hresult
      exact .failed hstate hes
    · rw [if_pos rfl] at hresult
      subst hresult
      exact .connected hstate hid
  | subscribing =>
    simp only [hstate, Option.some.injEq] at h
    subst h
    exact .yield (Or.inl hstate)
  | subscribeComplete =>
    simp only [hstate, Option.some.injEq] at h
    have hcomplete : LoopStep core ok env w _ := .complete hstate
    rw [← h]
    split
    · rename_i hon
      rwa [if_pos hon] at hcomplete
    · rename_i hon
      rwa [if_neg hon, List.append_nil] at hcomplete
  | yield =>
    simp only [hstate, Option.some.injEq] at h
    subst h
    exact .yield (Or.inr hstate)
  | reconnect =>
    simp only [hstate, Option.some.injEq] at h
    subst h
    rw [linkDisconnect_eq]
    exact .reconnect hstate

/-! ### What a connect sends -/

/-- The world behind a connect that succeeds: the subscription has the next identifier, if it is sent. -/
def connectedWorld (config : TuyaMqttConfig) (env : ConnectEnv) (w : LinkWorld) : LinkWorld :=
  let id := w.mqclient.nextPacketId
  let sent := validated id env.subscribe
  subscribed w (mqttGetPacketId (mqttConnect config.keepalive.toUInt16 .success w.mqclient)).2 id (sentId id sent) sent

theorem linkConnect_success {config : TuyaMqttConfig} {env : ConnectEnv} {w w' : LinkWorld}
    (h : mqttClientConnect (mqttConfig core ok config) env w = some (.success, w')) :
    env.networkConnect = true ∧ env.mqttConnect = .success ∧
      { w' with user := { w'.user with state := .subscribing } } = connectedWorld config env w := by
  simp only [mqttClientConnect] at h
  by_cases hnet : env.networkConnect = false
  · rw [if_pos hnet] at h
    cases h
  · rw [if_neg hnet] at h
    rw [Bool.not_eq_false] at hnet
    by_cases hmq : env.mqttConnect = .success
    · refine ⟨hnet, hmq, ?_⟩
      rw [hmq, hnet] at h
      simp only [ne_eq, not_true_eq_false, ite_false, mqttConfig, Option.map_eq_some_iff, Prod.mk.injEq, true_and,
        exists_eq_right, mqttClientConnectedCb] at h
      split at h
      · cases h
      · rename_i topic htopic
        have htext := autoSubscribeTopic_ok htopic
        cases h
        simp only [connectedWorld, subscribed, mqttClientSubscribe, World.log, List.append_assoc, List.cons_append,
          List.nil_append, htext]
        rfl
    · rw [if_pos hmq] at h
      split at h <;> cases h

/-- What a connect in the loop does, with the identifier of the subscription. -/
theorem loop_connecting {env : LoopEnv} {w w' : LinkWorld} (hstate : w.user.state = .connecting)
    (h : tuyaMqttLoop core ok env w = some w') :
    (∃ es, (∀ e ∈ es, Event.FailedConnect e) ∧ w' = { w with trace := w.trace ++ es }) ∨
      env.connect.networkConnect = true ∧ env.connect.mqttConnect = .success ∧
        w' = connectedWorld w.user.config env.connect w := by
  simp only [tuyaMqttLoop, hstate, Option.map_eq_some_iff] at h
  obtain ⟨⟨status, w₁⟩, hclient, hresult⟩ := h
  by_cases hstatus : status = .success
  · right
    subst hstatus
    rw [if_pos rfl] at hresult
    subst hresult
    exact linkConnect_success hclient
  · left
    rw [if_neg hstatus] at hresult
    subst hresult
    rcases linkConnect_cases hclient with ⟨-, es, hes, rfl⟩ | ⟨rfl, -⟩
    · exact ⟨es, hes, rfl⟩
    · exact absurd rfl hstatus

theorem connect_exact {env : ConnectEnv} {w w' : LinkWorld} {rc : Int} (hstate : w.user.state ≠ .uninit)
    (h : tuyaMqttConnect core ok env w = some (rc, w')) :
    rc ≠ oprtOk ∧ (∃ es, (∀ e ∈ es, Event.FailedConnect e) ∧
        w' = { w with user := { w.user with manualDisconnect := false }, trace := w.trace ++ es }) ∨
      rc = oprtOk ∧ env.networkConnect = true ∧ env.mqttConnect = .success ∧
        w' = connectedWorld w.user.config env { w with user := { w.user with manualDisconnect := false } } := by
  unfold tuyaMqttConnect at h
  rw [if_neg hstate] at h
  simp only [Option.map_eq_some_iff] at h
  obtain ⟨⟨status, w₁⟩, hclient, hresult⟩ := h
  by_cases hstatus : status = .success
  · right
    subst hstatus
    rw [if_neg (by simp)] at hresult
    cases hresult
    exact ⟨rfl, linkConnect_success hclient⟩
  · left
    rw [if_pos hstatus] at hresult
    cases hresult
    rcases linkConnect_cases hclient with ⟨-, es, hes, rfl⟩ | ⟨rfl, -⟩
    · exact ⟨by decide, es, hes, rfl⟩
    · exact absurd rfl hstatus

/-! ### The trace only grows -/

theorem trace_invariant (trace : List (Event TuyaMqttContext)) : LinkInvariant fun w => trace <+: w.trace where
  frame _ _ _ _ hw := hw
  readOutside _ hw := hw.trans (List.prefix_append _ _)
  suback _ _ _ hw := hw.trans (List.prefix_append _ _)

theorem yield_grows (config : TuyaMqttConfig) (pass : Pass) (rest : List Pass) (w : LinkWorld) :
    w.trace <+: (mqttClientYield ok (mqttConfig core ok config) pass rest w).2.trace := by
  rcases (trace_invariant w.trace).yield config pass rest (List.prefix_refl _) with hkeep | ⟨w₁, hw₁, hdisc⟩
  · exact hkeep
  · rw [hdisc]
    exact hw₁.trans (List.prefix_append _ _)

theorem loop_grows {env : LoopEnv} {w w' : LinkWorld} (h : tuyaMqttLoop core ok env w = some w') :
    w.trace <+: w'.trace := by
  cases tuyaMqttLoop_step h with
  | idle _ => exact List.prefix_refl _
  | failed _ _ => exact List.prefix_append _ _
  | connected _ _ => exact List.prefix_append _ _
  | yield _ => exact yield_grows _ _ _ w
  | complete _ => exact List.prefix_append _ _
  | reconnect _ => exact List.prefix_append _ _

/-! ### Sends and the registry -/

/-- A send publishes at most once, and of the context it changes only the counter. -/
theorem tuyalinkMessageSend_cases {σ : Type} {env : SendEnv} {publish : Publish → σ → UInt16 × σ}
    {context : TuyaMqttContext} {message : TuyalinkMessage CString} {world : σ} {result : SendResult σ}
    (h : tuyalinkMessageSend env publish context message world = some result) :
    (∃ n, result.context = { context with msgidInc := n }) ∧
      (result.world = world ∨ ∃ p, result.world = (publish p world).2) := by
  unfold tuyalinkMessageSend at h
  split at h
  · cases h
  · by_cases hok : env.allocOk = true
    · simp only [hok, ite_true, Option.map_eq_some_iff] at h
      obtain ⟨payload, _, hres⟩ := h
      have hcontext : ∃ n, (if hasMsgid message.msgid = true then context
          else { context with msgidInc := context.msgidInc + 1 }) = { context with msgidInc := n } := by
        split
        · exact ⟨context.msgidInc, rfl⟩
        · exact ⟨_, rfl⟩
      split at hres <;> subst hres <;> exact ⟨hcontext, Or.inr ⟨_, rfl⟩⟩
    · simp only [hok, Bool.false_eq_true, ite_false, Option.some.injEq] at h
      subst h
      exact ⟨⟨context.msgidInc, rfl⟩, Or.inl rfl⟩

/-- A send over the world adds a publish, or nothing, to the trace. -/
theorem sendOver_cases {env : SendEnv} {status : MQTTStatus} {message : TuyalinkMessage CString} {w w' : LinkWorld}
    {rc : Int}
    (h : sendOver (fun context => tuyalinkMessageSend env (publishWith status) context message) w = some (rc, w')) :
    ∃ mqclient n es, (es = [] ∨ ∃ id topic payload, es = [.publish id topic payload status]) ∧
      w' = { w with
        mqclient := mqclient
        user := { w.user with msgidInc := n }
        trace := w.trace ++ es } := by
  simp only [sendOver, Option.map_eq_some_iff, Prod.mk.injEq] at h
  obtain ⟨result, hsend, -, rfl⟩ := h
  obtain ⟨⟨n, hcontext⟩, hworld⟩ := tuyalinkMessageSend_cases hsend
  rcases hworld with hworld | ⟨p, hworld⟩
  · refine ⟨w.mqclient, n, [], Or.inl rfl, ?_⟩
    rw [hworld, hcontext, List.append_nil]
  · refine ⟨(mqttGetPacketId w.mqclient).2, n,
      [.publish w.mqclient.nextPacketId p.topic (p.payload.mem.take p.length) status], Or.inr ⟨_, _, _, rfl⟩, ?_⟩
    rw [hworld, hcontext]
    rfl

/-- A send takes at most one packet identifier. -/
theorem sendOver_mqclient {env : SendEnv} {status : MQTTStatus} {message : TuyalinkMessage CString} {w w' : LinkWorld}
    {rc : Int}
    (h : sendOver (fun context => tuyalinkMessageSend env (publishWith status) context message) w = some (rc, w')) :
    w'.mqclient = w.mqclient ∨ w'.mqclient = (mqttGetPacketId w.mqclient).2 := by
  simp only [sendOver, Option.map_eq_some_iff, Prod.mk.injEq] at h
  obtain ⟨result, hsend, -, rfl⟩ := h
  show result.world.mqclient = w.mqclient ∨ result.world.mqclient = (mqttGetPacketId w.mqclient).2
  rcases (tuyalinkMessageSend_cases hsend).2 with hworld | ⟨p, hworld⟩
  · rw [hworld]
    exact Or.inl rfl
  · rw [hworld]
    exact Or.inr rfl

theorem addSubscriber_cases {topic : CString} {cb : Nat} {w w' : LinkWorld} {rc : Int}
    (h : addSubscriber ok topic cb w = some (rc, w')) :
    ∃ subs heap, w' = { w with user := { w.user with subscribeList := subs }, heap := heap } := by
  unfold addSubscriber at h
  split at h
  · cases h
    exact ⟨_, _, rfl⟩
  · split at h
    · cases h
      exact ⟨_, _, rfl⟩
    · split at h
      · cases h
      · cases h
        exact ⟨_, _, rfl⟩

theorem register_cases {status : MQTTStatus} {topic : CString} {cb : Nat} {w w' : LinkWorld} {rc : Int}
    (h : tuyaMqttSubscribeMessageCallbackRegister ok status topic cb w = some (rc, w')) :
    ∃ mqclient subs heap es, (es = [] ∨ ∃ id sent, es = [.subscribe id topic.chars sent]) ∧
      w' = { w with
        mqclient := mqclient
        user := { w.user with subscribeList := subs }
        heap := heap
        trace := w.trace ++ es } := by
  unfold tuyaMqttSubscribeMessageCallbackRegister at h
  split at h
  · obtain ⟨id, sent, hworld, -⟩ := mqttClientSubscribe_spec status topic.chars w
    simp only [hworld] at h
    split at h
    · cases h
      exact ⟨_, _, _, _, Or.inr ⟨id, sent, rfl⟩, rfl⟩
    · obtain ⟨subs, heap, rfl⟩ := addSubscriber_cases h
      exact ⟨_, subs, heap, _, Or.inr ⟨id, sent, rfl⟩, rfl⟩
  · obtain ⟨subs, heap, rfl⟩ := addSubscriber_cases h
    exact ⟨w.mqclient, subs, heap, [], Or.inl rfl, by simp⟩

theorem unregister_cases (status : MQTTStatus) (topic : CString) (w : LinkWorld) :
    ∃ mqclient subs heap id sent, (tuyaMqttSubscribeMessageCallbackUnregister status topic w).2 =
      { w with
        mqclient := mqclient
        user := { w.user with subscribeList := subs }
        heap := heap
        trace := w.trace ++ [.unsubscribe id topic.chars sent] } := by
  simp only [tuyaMqttSubscribeMessageCallbackUnregister]
  split
  · exact ⟨_, _, _, _, _, rfl⟩
  · exact ⟨_, _, _, _, _, rfl⟩

end TuyaDaemon
