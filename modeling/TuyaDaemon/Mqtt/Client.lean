import TuyaDaemon.Mqtt.ProcessLoop

/-!
# The MQTT client

`mqtt_client_wrapper.c`: the client of the link core over coreMQTT, with the callbacks of its configuration as
functions on the world.  `mqttClientSubscribe_spec` and `mqttClientConnect_cases` say once what a call can do; a
property that every callback preserves holds after `mqttClientYield` whatever arrives (`CallbackInvariant.yield`).
-/

namespace TuyaDaemon

open CLib

/-- `mqtt_client_status_t` -/
inductive MqttClientStatus where
  | success
  | invalidParam
  | connectFailed
  | notAuthorized
  | networkInitFailed
  | networkConnectFailed
  | networkTimeout
deriving DecidableEq, Repr

/-- `mqtt_client_message_t`: the payload pointer is `NULL` when the packet has no payload. -/
structure MqttClientMessage where
  topic : CString
  payload : List UInt8
  qos : MQTTQoS

def MqttClientMessage.payloadPointer (msg : MqttClientMessage) : Option (List UInt8) :=
  if msg.payload = [] then none else some msg.payload

/-- The part of `mqtt_client_config_t` that a connected client reads.  A callback may call the client;
`onConnected` gets the status of the subscription it makes, and has no result when it breaks memory. -/
structure MqttClientConfig (κ υ : Type) where
  keepalive : UInt16
  onConnected : Option (MQTTStatus → World κ υ → Option (World κ υ))
  onDisconnected : Option (World κ υ → World κ υ)
  onMessage : Option (UInt16 → MqttClientMessage → World κ υ → World κ υ)
  onPublished : Option (UInt16 → World κ υ → World κ υ)
  onSubscribed : Option (UInt16 → World κ υ → World κ υ)
  onUnsubscribed : Option (UInt16 → World κ υ → World κ υ)

/-- How the steps of a connect end. -/
structure ConnectEnv where
  /-- `network.connect` returned `OPRT_OK` -/
  networkConnect : Bool
  mqttConnect : MQTTStatus
  subscribe : MQTTStatus
deriving DecidableEq, Repr

section Client

variable {κ υ : Type}

/-! ### Packet identifiers and sends -/

def mqttGetPacketId (mqclient : MQTTContext) : UInt16 × MQTTContext :=
  (mqclient.nextPacketId,
    { mqclient with
      nextPacketId := if mqclient.nextPacketId = 65535 then 1 else mqclient.nextPacketId + 1 })

/-- `validateSubscribeUnsubscribeParams` comes before the send. -/
def validated (packetId : UInt16) (status : MQTTStatus) : MQTTStatus :=
  if packetId = 0 then .badParameter else status

/-- The identifier when the packet was sent. -/
def sentId (packetId : UInt16) (status : MQTTStatus) : UInt16 := if status ≠ .success then 0 else packetId

def mqttClientSubscribe (status : MQTTStatus) (topic : List UInt8) (w : World κ υ) : UInt16 × World κ υ :=
  let (msgid, mqclient) := mqttGetPacketId w.mqclient
  let status := validated msgid status
  (sentId msgid status, { w with mqclient := mqclient }.log (.subscribe msgid topic status))

def mqttClientUnsubscribe (status : MQTTStatus) (topic : List UInt8) (w : World κ υ) : UInt16 × World κ υ :=
  let (msgid, mqclient) := mqttGetPacketId w.mqclient
  let status := validated msgid status
  (sentId msgid status, { w with mqclient := mqclient }.log (.unsubscribe msgid topic status))

/-- `mqtt_client_publish`, for QoS 0. -/
def mqttClientPublish (status : MQTTStatus) (topic payload : List UInt8) (w : World κ υ) : UInt16 × World κ υ :=
  let (msgid, mqclient) := mqttGetPacketId w.mqclient
  (sentId msgid status, { w with mqclient := mqclient }.log (.publish msgid topic payload status))

theorem sentId_validated (packetId : UInt16) (status : MQTTStatus) :
    sentId packetId (validated packetId status) = 0 ∧ validated packetId status ≠ .success ∨
      sentId packetId (validated packetId status) = packetId ∧ validated packetId status = .success ∧
        packetId ≠ 0 := by
  unfold sentId validated
  by_cases hid : packetId = 0
  · left
    simp [hid]
  · by_cases hs : status = .success
    · right
      simp [hid, hs]
    · left
      simp [hid, hs]

/-- A subscribe adds one event; the identifier it returns is that of the packet when it was sent, and `0` otherwise. -/
theorem mqttClientSubscribe_spec (status : MQTTStatus) (topic : List UInt8) (w : World κ υ) :
    ∃ id sent, (mqttClientSubscribe status topic w).2 =
        { w with mqclient := (mqttGetPacketId w.mqclient).2, trace := w.trace ++ [.subscribe id topic sent] } ∧
      ((mqttClientSubscribe status topic w).1 = 0 ∧ sent ≠ .success ∨
        (mqttClientSubscribe status topic w).1 = id ∧ sent = .success ∧ id ≠ 0) :=
  ⟨_, _, rfl, sentId_validated _ _⟩

/-! ### Callbacks of coreMQTT -/

/-- The copy of the topic, read as a C string. -/
def MQTTPublishInfo.topic (publishInfo : MQTTPublishInfo) : CString where
  chars := upToNul publishInfo.topicName
  noNul := zero_notMem_upToNul _
  fits := by
    have hcut := length_upToNul_le publishInfo.topicName
    have hlen := publishInfo.topicNameLength
    omega

/-- `if (callback) callback(context, msgid, userdata)` -/
def callWith (callback : Option (UInt16 → World κ υ → World κ υ)) (msgid : UInt16) (w : World κ υ) : World κ υ :=
  match callback with
  | some f => f msgid w
  | none => w

/-- What the client does with a SUBACK. -/
def handOverSuback (config : MqttClientConfig κ υ) (msgid : UInt16) (result : MQTTStatus) (w : World κ υ) :
    World κ υ :=
  let after := callWith config.onSubscribed msgid w
  after.log (.suback msgid result w.user after.user)

def handOverPublish (ok : Nat → Bool) (config : MqttClientConfig κ υ) (msgid : UInt16)
    (publishInfo : MQTTPublishInfo) (w : World κ υ) : World κ υ :=
  match config.onMessage with
  | none => w
  | some onMessage =>
    match w.heap.malloc ok with
    | (none, heap) => { w with heap := heap }
    | (some topic, heap) =>
      let w := onMessage msgid ⟨publishInfo.topic, publishInfo.payload, publishInfo.qos⟩ { w with heap := heap }
      { w with heap := w.heap.free topic }

/-- `core_mqtt_library_callback`; a publish always comes with its `publishInfo`. -/
def coreMqttLibraryCallback (ok : Nat → Bool) (config : MqttClientConfig κ υ) : MQTTEventCallback κ υ :=
  fun packet info w =>
    let msgid := info.packetIdentifier
    if packet.isPublish then
      match info.publishInfo with
      | some publishInfo => handOverPublish ok config msgid publishInfo w
      | none => w
    -- only the identifier of an acknowledgement goes on to the client
    else if packet.type = mqttPacketTypeSuback then handOverSuback config msgid info.deserializationResult w
    else if packet.type = mqttPacketTypeUnsuback then callWith config.onUnsubscribed msgid w
    else if packet.type = mqttPacketTypePuback then callWith config.onPublished msgid w
    else w

/-! ### The calls of the link core -/

/-- `mqtt_client_init`: `MQTT_Init` only fails on null pointers. -/
def mqttClientInit (networkTlsInit : Bool) : MqttClientStatus × MQTTContext :=
  if networkTlsInit then (.success, .init) else (.networkInitFailed, .zero)

/-- `MQTT_Connect`: only a success changes the context. -/
def mqttConnect (keepAliveSeconds : UInt16) (status : MQTTStatus) (mqclient : MQTTContext) : MQTTContext :=
  if status = .success then
    { mqclient with
      keepAliveIntervalSec := keepAliveSeconds
      waitingForPingResp := false
      pingReqSendTimeMs := 0 }
  else mqclient

def mqttClientConnect (config : MqttClientConfig κ υ) (env : ConnectEnv) (w : World κ υ) :
    Option (MqttClientStatus × World κ υ) :=
  let w := w.log (.networkConnect env.networkConnect)
  if env.networkConnect = false then some (.networkConnectFailed, w.log .networkDisconnect)
  else
    let w := { w with mqclient := mqttConnect config.keepalive env.mqttConnect w.mqclient }.log
      (.mqttConnect env.mqttConnect)
    if env.mqttConnect ≠ .success then
      some (if env.mqttConnect = .notAuthorized then .notAuthorized else .connectFailed, w.log .networkDisconnect)
    else
      match config.onConnected with
      | none => some (.success, w)
      | some onConnected => (onConnected env.subscribe w).map fun w => (.success, w)

def mqttClientDisconnect (config : MqttClientConfig κ υ) (w : World κ υ) : World κ υ :=
  let w := w.log .networkDisconnect
  match config.onDisconnected with
  | none => w
  | some onDisconnected => onDisconnected (w.log .disconnected)

def mqttClientYield (ok : Nat → Bool) (config : MqttClientConfig κ υ) (pass : Pass) (rest : List Pass)
    (w : World κ υ) : MqttClientStatus × World κ υ :=
  let (status, w) := mqttProcessLoop (coreMqttLibraryCallback ok config) pass rest w
  if status ≠ .success then (.networkTimeout, mqttClientDisconnect config w) else (.success, w)

/-! ### What the calls can do -/

/-- The events of a connect that fails. -/
def Event.FailedConnect : Event υ → Prop
  | .networkConnect _ => True
  | .networkDisconnect => True
  | .mqttConnect status => status ≠ .success
  | _ => False

/-- A connect fails and leaves everything but the trace, or it succeeds with what the callback does. -/
theorem mqttClientConnect_cases {config : MqttClientConfig κ υ} {env : ConnectEnv} {w w' : World κ υ}
    {status : MqttClientStatus} (h : mqttClientConnect config env w = some (status, w')) :
    (status ≠ .success ∧ ∃ es, (∀ e ∈ es, Event.FailedConnect e) ∧
        w' = { w with trace := w.trace ++ es }) ∨
      (status = .success ∧
        let connected : World κ υ := { w with
          mqclient := mqttConnect config.keepalive .success w.mqclient
          trace := w.trace ++ [.networkConnect true, .mqttConnect .success] }
        match config.onConnected with
        | none => w' = connected
        | some onConnected => onConnected env.subscribe connected = some w') := by
  have hassoc : ∀ (t : List (Event υ)) (a b : Event υ), t ++ [a] ++ [b] = t ++ [a, b] := by
    intro t a b
    simp
  simp only [mqttClientConnect] at h
  by_cases hnet : env.networkConnect = false
  · left
    rw [if_pos hnet] at h
    cases h
    refine ⟨by simp, [.networkConnect env.networkConnect, .networkDisconnect], by simp [Event.FailedConnect], ?_⟩
    simp [World.log]
  · rw [if_neg hnet] at h
    have hnet' : env.networkConnect = true := by simpa using hnet
    by_cases hmq : env.mqttConnect = .success
    · right
      rw [hmq] at h
      simp only [ne_eq, not_true_eq_false, ite_false, hnet', World.log, hassoc] at h
      cases hcb : config.onConnected with
      | none =>
        simp only [hcb, Option.some.injEq, Prod.mk.injEq] at h
        exact ⟨h.1.symm, h.2.symm⟩
      | some onConnected =>
        simp only [hcb, Option.map_eq_some_iff, Prod.mk.injEq] at h
        obtain ⟨w₁, hw₁, hstatus, rfl⟩ := h
        exact ⟨hstatus.symm, hw₁⟩
    · left
      rw [if_pos hmq] at h
      cases h
      refine ⟨by split <;> simp, [.networkConnect env.networkConnect, .mqttConnect env.mqttConnect,
        .networkDisconnect], by simp [Event.FailedConnect, hmq], ?_⟩
      simp [World.log, mqttConnect, hmq]

/-- A property that survives everything the client does while it reads packets. -/
structure CallbackInvariant (config : MqttClientConfig κ υ) (P : World κ υ → Prop) : Prop where
  keepAlive : ∀ (w : World κ υ) (mqclient : MQTTContext), mqclient.nextPacketId = w.mqclient.nextPacketId →
    P w → P { w with mqclient := mqclient }
  heap : ∀ (w : World κ υ) (heap : Heap κ), P w → P { w with heap := heap }
  suback : ∀ msgid result w, P w → P (handOverSuback config msgid result w)
  message : ∀ onMessage, config.onMessage = some onMessage → ∀ msgid msg w, P w → P (onMessage msgid msg w)
  published : ∀ msgid w, P w → P (callWith config.onPublished msgid w)
  unsubscribed : ∀ msgid w, P w → P (callWith config.onUnsubscribed msgid w)

namespace CallbackInvariant

variable {config : MqttClientConfig κ υ} {P : World κ υ → Prop}

theorem publish (h : CallbackInvariant config P) (ok : Nat → Bool) (msgid : UInt16) (publishInfo : MQTTPublishInfo)
    {w : World κ υ} (hw : P w) : P (handOverPublish ok config msgid publishInfo w) := by
  unfold handOverPublish
  split
  · exact hw
  · rename_i onMessage hon
    split
    · exact h.heap _ _ hw
    · exact h.heap _ _ (h.message onMessage hon _ _ _ (h.heap _ _ hw))

theorem libraryCallback (h : CallbackInvariant config P) (ok : Nat → Bool) :
    LoopInvariant (coreMqttLibraryCallback ok config) P := by
  refine ⟨h.keepAlive, ?_⟩
  intro packet info w hw
  simp only [coreMqttLibraryCallback]
  split
  · split
    · exact h.publish ok _ _ hw
    · exact hw
  · split
    · exact h.suback _ _ _ hw
    · split
      · exact h.unsubscribed _ _ hw
      · split
        · exact h.published _ _ hw
        · exact hw

/-- A yield keeps the property, or ends with a disconnect from a state with it. -/
theorem yield (h : CallbackInvariant config P) (ok : Nat → Bool) (pass : Pass) (rest : List Pass) {w : World κ υ}
    (hw : P w) :
    P (mqttClientYield ok config pass rest w).2 ∨
      ∃ w₁, P w₁ ∧ (mqttClientYield ok config pass rest w).2 = mqttClientDisconnect config w₁ := by
  have hloop := (h.libraryCallback ok).processLoop pass rest hw
  simp only [mqttClientYield]
  split
  · right
    exact ⟨_, hloop, rfl⟩
  · left
    exact hloop

end CallbackInvariant

end Client

end TuyaDaemon
