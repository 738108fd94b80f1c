import TuyaDaemon.Link.Auth

/-!
# The link core

The callbacks that `tuyalink_core.c` gives to the MQTT client, and its calls over a world whose user state is the
context.  A run of the client is an initialisation and any calls after it (`ClientRun`); whatever the environment
answers to a call is an argument of the call.
-/

namespace TuyaDaemon

open CLib

abbrev LinkWorld := World MessageCall TuyaMqttContext

/-- What the environment contributes to the initialisation. -/
structure InitEnv where
  auth : AuthEnv
  networkTlsInit : Bool

/-- What the environment contributes to one call of `tuya_mqtt_loop`: a connect, or what the process loop reads. -/
structure LoopEnv where
  connect : ConnectEnv
  pass : Pass
  rest : List Pass

section LinkCore

variable (core : CoreJson) (ok : Nat → Bool)

/-! ### Callbacks of the MQTT client -/

/-- There is no result when the topic overflows its array. -/
def mqttClientConnectedCb (subscribe : MQTTStatus) (w : LinkWorld) : Option LinkWorld :=
  match autoSubscribeTopic w.user.config.deviceId with
  | .error _ => none
  | .ok topic =>
    let (id, w) := mqttClientSubscribe subscribe topic w
    some { w with user := { w.user with autoSubscribeId := id } }

def mqttClientDisconnectedCb (w : LinkWorld) : LinkWorld :=
  let w := { w with user := { w.user with autoSubscribeEnabled := false, isConnected := false } }
  let w := if w.user.config.onDisconnect then w.log .onDisconnect else w
  if w.user.manualDisconnect = false then { w with user := { w.user with state := .connecting } } else w

/-- `mqtt_client_message_cb`: it leaves the context as it is. -/
def mqttClientMessage (msg : MqttClientMessage) (w : LinkWorld) : LinkWorld :=
  match mqttClientMessageCb core ok w.user.subscribeList w.user.config.onMessages msg w.heap with
  | some heap => { w with heap := heap }
  | none => w.log .readOutside

def mqttClientSubscribedCb (msgid : UInt16) (context : TuyaMqttContext) : TuyaMqttContext :=
  if msgid = context.autoSubscribeId then
    { context with autoSubscribeId := 0, autoSubscribeEnabled := true, state := .subscribeComplete }
  else context

/-- The configuration that `tuya_mqtt_init` gives to the client; there is no `on_unsubscribed`. -/
def mqttConfig (config : TuyaMqttConfig) : MqttClientConfig MessageCall TuyaMqttContext where
  keepalive := config.keepalive.toUInt16
  onConnected := some mqttClientConnectedCb
  onDisconnected := some mqttClientDisconnectedCb
  onMessage := some fun _ => mqttClientMessage core ok
  -- `mqtt_client_puback_cb` only logs
  onPublished := some fun _ w => w
  onSubscribed := some fun msgid w => { w with user := mqttClientSubscribedCb msgid w.user }
  onUnsubscribed := none

/-! ### Calls -/

def tuyaMqttInit (hmac : Hmac) (env : InitEnv) (config : TuyaMqttConfig) (heap : MessageHeap) :
    Except Fault (Int × LinkWorld) := do
  let context := TuyaMqttContext.zero config
  let (rc, auth) ←
    tuyaMqttAuthSignatureCalculate hmac env.auth config.deviceId config.deviceSecret context.mqttAuth
  let context := { context with mqttAuth := auth }
  if rc ≠ oprtOk then .ok (rc, ⟨.zero, context, heap, []⟩)
  else
    -- `mqtt_client_new`
    match heap.malloc ok with
    | (none, heap) => .ok (oprtMallocFailed, ⟨.zero, context, heap, []⟩)
    | (some client, heap) =>
      let context := { context with mqttClient := some client }
      let (status, mqclient) := mqttClientInit env.networkTlsInit
      if status ≠ .success then .ok (oprtComError, ⟨mqclient, context, heap, []⟩)
      else .ok (oprtOk, ⟨mqclient, { context with manualDisconnect := true, state := .idle }, heap, []⟩)

def tuyaMqttConnect (env : ConnectEnv) (w : LinkWorld) : Option (Int × LinkWorld) :=
  if w.user.state = .uninit then some (oprtInvalidParm, w)
  else
    let w := { w with user := { w.user with manualDisconnect := false } }
    (mqttClientConnect (mqttConfig core ok w.user.config) env w).map fun (status, w) =>
      if status ≠ .success then (oprtLinkCoreMqttConnectError, w)
      else (oprtOk, { w with user := { w.user with state := .subscribing } })

def tuyaMqttDisconnect (w : LinkWorld) : Int × LinkWorld :=
  if w.user.state = .uninit then (oprtInvalidParm, w)
  else
    let w := mqttClientDisconnect (mqttConfig core ok w.user.config) w
    (oprtOk, { w with user := { w.user with manualDisconnect := true } })

/-- The return code is `OPRT_OK` in every state. -/
def tuyaMqttLoop (env : LoopEnv) (w : LinkWorld) : Option LinkWorld :=
  match w.user.state with
  | .uninit => some w
  | .idle => some w
  | .connecting =>
    (mqttClientConnect (mqttConfig core ok w.user.config) env.connect w).map fun (status, w) =>
      if status = .success then { w with user := { w.user with state := .subscribing } } else w
  | .subscribing => some (mqttClientYield ok (mqttConfig core ok w.user.config) env.pass env.rest w).2
  | .subscribeComplete =>
    let w := { w with user := { w.user with isConnected := true } }
    let w := if w.user.config.onConnected then w.log .onConnected else w
    some { w with user := { w.user with state := .yield } }
  | .yield => some (mqttClientYield ok (mqttConfig core ok w.user.config) env.pass env.rest w).2
  | .reconnect =>
    let w := mqttClientDisconnect (mqttConfig core ok w.user.config) w
    some { w with user := { w.user with state := .connecting } }

def tuyaMqttConnected (context : TuyaMqttContext) : Bool :=
  if context.state = .uninit then false else context.isConnected

/-- What `tuyalink_message_send` hands to the client. -/
def publishWith (status : MQTTStatus) (p : Publish) (w : LinkWorld) : UInt16 × LinkWorld :=
  mqttClientPublish status p.topic (p.payload.mem.take p.length) w

/-- A send over the world: the context that it returns is the new user state. -/
def sendOver (send : TuyaMqttContext → LinkWorld → Option (SendResult LinkWorld)) (w : LinkWorld) :
    Option (Int × LinkWorld) :=
  (send w.user w).map fun result => (result.rc, { result.world with user := result.context })

/-! ### The registry -/

/-- `memcmp(target->topic, topic, target->topic_length) == 0`, with the same callback. -/
def SubscribeHandle.repeats (topic : List UInt8) (cb : Nat) (target : SubscribeHandle) : Bool :=
  target.topic.isPrefixOf topic && target.cb == cb

/-- The part of the registration behind the subscription; the copy of the topic is not checked for `NULL`. -/
def addSubscriber (topic : CString) (cb : Nat) (w : LinkWorld) : Option (Int × LinkWorld) :=
  if w.user.subscribeList.any (SubscribeHandle.repeats topic.chars cb) then some (oprtOk, w)
  else
    match w.heap.malloc ok with
    | (none, heap) => some (oprtMallocFailed, { w with heap := heap })
    | (some block, heap) =>
      match heap.malloc ok with
      | (none, _) => none
      | (some topicBlock, heap) =>
        let target := ⟨topic.chars, cb, block, topicBlock⟩
        some (oprtOk, { w with
          user := { w.user with subscribeList := target :: w.user.subscribeList }
          heap := heap })

def tuyaMqttSubscribeMessageCallbackRegister (status : MQTTStatus) (topic : CString) (cb : Nat) (w : LinkWorld) :
    Option (Int × LinkWorld) :=
  if w.user.autoSubscribeEnabled = false then
    let (msgid, w) := mqttClientSubscribe status topic.chars w
    if msgid = 0 then some (oprtComError, w) else addSubscriber ok topic cb w
  else addSubscriber ok topic cb w

def dropSubscribers : List SubscribeHandle → MessageHeap → MessageHeap
  | [], heap => heap
  | entry :: rest, heap => dropSubscribers rest ((heap.free entry.topicBlock).free entry.block)

def tuyaMqttSubscribeMessageCallbackUnregister (status : MQTTStatus) (topic : CString) (w : LinkWorld) :
    Int × LinkWorld :=
  let (dropped, kept) := w.user.subscribeList.partition fun entry => entry.topic = topic.chars
  let w := { w with
    user := { w.user with subscribeList := kept }
    heap := dropSubscribers dropped w.heap }
  let (msgid, w) := mqttClientUnsubscribe status topic.chars w
  if msgid = 0 then (oprtComError, w) else (oprtOk, w)

/-! ### Runs of the client -/

/-- A call of an initialised client, with what the environment answers. -/
inductive ClientCall where
  | connect (env : ConnectEnv)
  | disconnect
  | loop (env : LoopEnv)
  | send (env : SendEnv) (publish : MQTTStatus) (message : TuyalinkMessage CString)
  | register (subscribe : MQTTStatus) (topic : CString) (cb : Nat)
  | unregister (unsubscribe : MQTTStatus) (topic : CString)

/-- The world after a call; there is none when the call breaks memory. -/
def ClientCall.run (call : ClientCall) (w : LinkWorld) : Option LinkWorld :=
  match call with
  | .connect env => (tuyaMqttConnect core ok env w).map Prod.snd
  | .disconnect => some (tuyaMqttDisconnect core ok w).2
  | .loop env => tuyaMqttLoop core ok env w
  | .send env publish message =>
    (sendOver (fun context => tuyalinkMessageSend env (publishWith publish) context message) w).map Prod.snd
  | .register subscribe topic cb =>
    (tuyaMqttSubscribeMessageCallbackRegister ok subscribe topic cb w).map Prod.snd
  | .unregister unsubscribe topic => some (tuyaMqttSubscribeMessageCallbackUnregister unsubscribe topic w).2

/-- The worlds that a run of the client goes through. -/
inductive ClientRun : LinkWorld → Prop where
  | init {hmac : Hmac} {env : InitEnv} {config : TuyaMqttConfig} {heap : MessageHeap} {w : LinkWorld} :
      tuyaMqttInit ok hmac env config heap = .ok (oprtOk, w) → ClientRun w
  | step {call : ClientCall} {w w' : LinkWorld} : ClientRun w → call.run core ok w = some w' → ClientRun w'

end LinkCore

end TuyaDaemon
