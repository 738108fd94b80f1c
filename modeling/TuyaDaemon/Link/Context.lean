import TuyaDaemon.Link.MessageParse

/-!
# The context of the link core

`tuya_mqtt_context_t` with its configuration and its state.  Of the configuration only what the modelled functions
read is kept; a callback is present or not.
-/

namespace TuyaDaemon

open CLib

/-- `TUYA_STATE_…` -/
inductive LinkState where
  | uninit
  | idle
  | connecting
  | subscribing
  | subscribeComplete
  | yield
  | reconnect
deriving DecidableEq, Repr

/-- `tuya_mqtt_config_t` -/
structure TuyaMqttConfig where
  deviceId : CString
  deviceSecret : CString
  timeoutMs : UInt32
  keepalive : UInt32
  onConnected : Bool
  onDisconnect : Bool
  onMessages : Bool

/-- `tuya_mqtt_auth_t`: the contents of the three arrays. -/
structure TuyaMqttAuth where
  clientid : List UInt8
  username : List UInt8
  password : List UInt8
deriving DecidableEq, Repr

/-- The arrays in a context that was cleared. -/
def TuyaMqttAuth.zero : TuyaMqttAuth := ⟨List.replicate 128 0, List.replicate 128 0, List.replicate 96 0⟩

/-- `tuya_mqtt_context_t`; `mqttClient` is the block of the client. -/
structure TuyaMqttContext where
  mqttClient : Option Nat
  config : TuyaMqttConfig
  mqttAuth : TuyaMqttAuth
  subscribeList : List SubscribeHandle
  msgidInc : UInt32
  autoSubscribeId : UInt16
  state : LinkState
  manualDisconnect : Bool
  isConnected : Bool
  autoSubscribeEnabled : Bool

/-- The context after `memset(context, 0, …)` and `context->config = *config`. -/
def TuyaMqttContext.zero (config : TuyaMqttConfig) : TuyaMqttContext :=
  ⟨none, config, .zero, [], 0, 0, .uninit, false, false, false⟩

end TuyaDaemon
