import TuyaDaemon.Link.LinkSteps
import TuyaDaemon.Telemetry.TelemetryJson

/-!
# The daemon

`tuya_client.c` and `telemetry_report` over the world of the link core.  A run of the daemon is an initialisation, a
connect that succeeds, and any loops and reports after it (`DaemonRun`); it is a run of the client
(`DaemonRun.clientRun`).  In a `GuardedRun` the connect may fail, and the steps meet conditions.
-/

namespace TuyaDaemon

open CLib

variable {D : Doubles}

/-! ### `tuya_client.c` -/

/-- The configuration in `tuya_client_init`; all three callbacks are set. -/
def tuyaClientConfig (deviceId deviceSecret : CString) : TuyaMqttConfig where
  deviceId := deviceId
  deviceSecret := deviceSecret
  timeoutMs := 2000
  keepalive := 100
  onConnected := true
  onDisconnect := true
  onMessages := true

def tuyaClientInit (ok : Nat → Bool) (hmac : Hmac) (env : InitEnv) (deviceId deviceSecret : CString)
    (heap : MessageHeap) : Except Fault (Int × LinkWorld) :=
  tuyaMqttInit ok hmac env (tuyaClientConfig deviceId deviceSecret) heap

def tuyaClientConnect (core : CoreJson) (ok : Nat → Bool) (env : ConnectEnv) (w : LinkWorld) :
    Option (Int × LinkWorld) :=
  tuyaMqttConnect core ok env w

def tuyaClientLoop (core : CoreJson) (ok : Nat → Bool) (env : LoopEnv) (w : LinkWorld) : Option LinkWorld :=
  tuyaMqttLoop core ok env w

def tuyaClientConnected (w : LinkWorld) : Bool := tuyaMqttConnected w.user

def tuyaClientReport (env : SendEnv) (publish : MQTTStatus) (json : CString) (w : LinkWorld) :
    Option (Int × LinkWorld) :=
  sendOver (fun context => tuyalinkThingPropertyReport env (publishWith publish) context none (some json)) w

/-! ### `telemetry_report` -/

/-- The fields of `struct sysinfo` that are read. -/
structure Sysinfo where
  totalram : UInt64
  freeram : UInt64
  memUnit : UInt32
  uptime : Int64

/-- `collect_system_info`; there is no information when it returns `-1`. -/
def collectSystemInfo (sysinfo : Option Sysinfo) : Option SystemInfo :=
  sysinfo.map fun system =>
    ⟨system.totalram * system.memUnit.toUInt64, system.freeram * system.memUnit.toUInt64, system.uptime⟩

/-- `cJSON_PrintUnformatted`, read as a C string; a text that no block can hold is not printed. -/
def cJsonPrintUnformatted (text : CJsonText D) (ok : Bool) (item : CJson D.Val) : Option CString :=
  if h : ok = true ∧ (upToNul (text.print item)).length < 2 ^ 63 - 1 then
    some ⟨upToNul (text.print item), zero_notMem_upToNul _, h.2⟩
  else none

/-- `MAX_INTERFACES` -/
def maxInterfaces : Int := 16

/-- What the environment contributes to one report. -/
structure ReportEnv (D : Doubles) where
  sysinfo : Option Sysinfo
  ifaddrs : Option (List IfAddr)
  files : StatFiles
  /-- what `get_cpu_usage` stores, when it returns `0` -/
  cpuUsage : Option D.Val
  ok : Site → Bool
  printOk : Bool
  send : SendEnv
  publish : MQTTStatus

/-- `telemetry_report`: the world after it; there is none when the send breaks memory. -/
def telemetryReport (text : CJsonText D) (env : ReportEnv D) (w : LinkWorld) : Option LinkWorld :=
  match collectSystemInfo env.sysinfo with
  | none => some w
  | some system =>
    let (interfaceCount, interfaces) := collectNetworkInfo env.ifaddrs env.files maxInterfaces
    if interfaceCount < 0 then some w
    else
      match env.cpuUsage with
      | none => some w
      | some cpuUsage =>
        match buildTelemetryJson text env.ok (some system) (some interfaces) interfaceCount cpuUsage with
        | none => some w
        | some root =>
          match cJsonPrintUnformatted text env.printOk root with
          | none => some w
          | some json =>
            if tuyaClientConnected w = false then some w
            else (tuyaClientReport env.send env.publish json w).map Prod.snd

/-- A report changes nothing, or the client is connected and sends. -/
theorem telemetryReport_cases {text : CJsonText D} {env : ReportEnv D} {w w' : LinkWorld}
    (h : telemetryReport text env w = some w') :
    w' = w ∨ tuyaClientConnected w = true ∧
      ∃ json rc, tuyaClientReport env.send env.publish json w = some (rc, w') := by
  unfold telemetryReport at h
  split at h
  · exact Or.inl (Option.some.inj h).symm
  · dsimp only at h
    split at h
    · exact Or.inl (Option.some.inj h).symm
    · split at h
      · exact Or.inl (Option.some.inj h).symm
      · split at h
        · exact Or.inl (Option.some.inj h).symm
        · split at h
          · exact Or.inl (Option.some.inj h).symm
          · rename_i json _
            split at h
            · exact Or.inl (Option.some.inj h).symm
            · rename_i hconnected
              right
              simp only [Option.map_eq_some_iff] at h
              obtain ⟨⟨rc, w₁⟩, hreport, rfl⟩ := h
              exact ⟨by simpa using hconnected, json, rc, hreport⟩

/-- A report sends at most one publish, and of the context it changes only the counter. -/
theorem tuyaClientReport_cases {env : SendEnv} {publish : MQTTStatus} {json : CString} {w w' : LinkWorld} {rc : Int}
    (h : tuyaClientReport env publish json w = some (rc, w')) :
    ∃ mqclient n es, (es = [] ∨ ∃ id topic payload, es = [.publish id topic payload publish]) ∧
      w' = { w with
        mqclient := mqclient
        user := { w.user with msgidInc := n }
        trace := w.trace ++ es } := by
  have hsend : sendOver (fun context => tuyalinkMessageSend env (publishWith publish) context
      (requestMessage .propertyReport none (some json) false)) w = some (rc, w') := h
  exact sendOver_cases hsend

theorem report_grows {text : CJsonText D} {env : ReportEnv D} {w w' : LinkWorld}
    (h : telemetryReport text env w = some w') : w.trace <+: w'.trace := by
  rcases telemetryReport_cases h with rfl | ⟨-, json, rc, hsend⟩
  · exact List.prefix_refl _
  · obtain ⟨mqclient, n, es, -, rfl⟩ := tuyaClientReport_cases hsend
    exact List.prefix_append _ _

/-! ### Runs of the daemon -/

/-- The worlds between the calls of a run. -/
inductive DaemonRun (core : CoreJson) (ok : Nat → Bool) (text : CJsonText D) : LinkWorld → Prop where
  | init {hmac : Hmac} {env : InitEnv} {deviceId deviceSecret : CString} {heap : MessageHeap} {w : LinkWorld} :
      tuyaClientInit ok hmac env deviceId deviceSecret heap = .ok (oprtOk, w) → DaemonRun core ok text w
  | connect {hmac : Hmac} {env : InitEnv} {deviceId deviceSecret : CString} {heap : MessageHeap}
      {connect : ConnectEnv} {w w' : LinkWorld} :
      tuyaClientInit ok hmac env deviceId deviceSecret heap = .ok (oprtOk, w) →
        tuyaClientConnect core ok connect w = some (oprtOk, w') → DaemonRun core ok text w'
  | loop {env : LoopEnv} {w w' : LinkWorld} :
      DaemonRun core ok text w → tuyaClientLoop core ok env w = some w' → DaemonRun core ok text w'
  | report {env : ReportEnv D} {w w' : LinkWorld} :
      DaemonRun core ok text w → telemetryReport text env w = some w' → DaemonRun core ok text w'

/-- What holds in every run of the client holds in every run of the daemon. -/
theorem DaemonRun.clientRun {core : CoreJson} {ok : Nat → Bool} {text : CJsonText D} {w : LinkWorld}
    (h : DaemonRun core ok text w) : ClientRun core ok w := by
  induction h with
  | init hinit => exact .init hinit
  | @connect _ _ _ _ _ connect w w' hinit hconnect =>
    have hcall : (ClientCall.connect connect).run core ok w = some w' := congrArg (Option.map Prod.snd) hconnect
    exact (ClientRun.init hinit).step hcall
  | @loop env w w' _ hloop ih =>
    have hcall : (ClientCall.loop env).run core ok w = some w' := hloop
    exact ih.step hcall
  | @report env w w' _ hreport ih =>
    rcases telemetryReport_cases hreport with rfl | ⟨-, json, rc, hsend⟩
    · exact ih
    · have hcall : (ClientCall.send env.send env.publish
          (requestMessage .propertyReport none (some json) false)).run core ok w = some w' :=
        congrArg (Option.map Prod.snd) hsend
      exact ih.step hcall

/-- The worlds of a run whose first connect may fail; the connects meet `connects` and the loops `loops`. -/
inductive GuardedRun (core : CoreJson) (ok : Nat → Bool) (text : CJsonText D) (connects : ConnectEnv → Prop)
    (loops : LinkWorld → LoopEnv → Prop) : LinkWorld → Prop where
  | init {hmac : Hmac} {env : InitEnv} {deviceId deviceSecret : CString} {heap : MessageHeap} {w : LinkWorld} :
      tuyaClientInit ok hmac env deviceId deviceSecret heap = .ok (oprtOk, w) →
        GuardedRun core ok text connects loops w
  | connect {hmac : Hmac} {env : InitEnv} {deviceId deviceSecret : CString} {heap : MessageHeap}
      {connect : ConnectEnv} {w w' : LinkWorld} {rc : Int} :
      tuyaClientInit ok hmac env deviceId deviceSecret heap = .ok (oprtOk, w) → connects connect →
        tuyaClientConnect core ok connect w = some (rc, w') → GuardedRun core ok text connects loops w'
  | loop {env : LoopEnv} {w w' : LinkWorld} : GuardedRun core ok text connects loops w → loops w env →
      tuyaClientLoop core ok env w = some w' → GuardedRun core ok text connects loops w'
  | report {env : ReportEnv D} {w w' : LinkWorld} : GuardedRun core ok text connects loops w →
      telemetryReport text env w = some w' → GuardedRun core ok text connects loops w'

end TuyaDaemon
