import TuyaDaemon.Link.ManualDisconnect

/-!
# The life of a context

Initialisations, calls and `tuya_mqtt_deinit` in any order on one context, with the client as a block of the heap.
`tuya_mqtt_deinit` releases the client, but leaves the state and the pointer as they are: the life of a context is
closed as long as no initialised context is given to it (`lifecycleRun_closed`).
-/

namespace TuyaDaemon

open CLib

/-! ### Calls -/

/-- `mqtt_client_deinit` -/
def mqttClientDeinit (w : LinkWorld) : MqttClientStatus × LinkWorld := (.success, w.log .networkDisconnect)

def tuyaMqttDeinit (w : LinkWorld) : Int × LinkWorld :=
  if w.user.state = .uninit then (oprtComError, w)
  else
    let (status, w) := mqttClientDeinit w
    -- `mqtt_client_free`
    let w := { w with heap := w.heap.freeIf w.user.mqttClient }
    if status ≠ .success then (oprtComError, w) else (oprtOk, w)

inductive LifecycleCall where
  | init (env : InitEnv) (config : TuyaMqttConfig)
  | connect (env : ConnectEnv)
  | disconnect
  | loop (env : LoopEnv)
  | connected
  | deinit
  | send (env : SendEnv) (publish : MQTTStatus) (message : TuyalinkMessage CString)

section Lifecycle

variable (hmac : Hmac) (core : CoreJson) (ok : Nat → Bool)

/-- A send over the client of the world. -/
def sendMessage (env : SendEnv) (publish : MQTTStatus) (message : TuyalinkMessage CString) (w : LinkWorld) :
    Option (Int × LinkWorld) :=
  -- `mqtt_client_publish` reads through the pointer
  if env.allocOk = true ∧ w.user.mqttClient = none then none
  else sendOver (fun context => tuyalinkMessageSend env (publishWith publish) context message) w

/-- The world after a call; there is none when the call breaks memory. -/
def LifecycleCall.run (call : LifecycleCall) (w : LinkWorld) : Option LinkWorld :=
  match call with
  | .init env config => ((tuyaMqttInit ok hmac env config w.heap).toOption).map Prod.snd
  | .connect env => (tuyaMqttConnect core ok env w).map Prod.snd
  | .disconnect => some (tuyaMqttDisconnect core ok w).2
  | .loop env => tuyaMqttLoop core ok env w
  | .connected => some w
  | .deinit => some (tuyaMqttDeinit w).2
  | .send env publish message => (sendMessage env publish message w).map Prod.snd

/-- The client of the context that a call hands to the middleware. -/
def LifecycleCall.handed (call : LifecycleCall) (w : LinkWorld) : Option Nat :=
  match call with
  | .init _ _ => none
  | .connect _ => if w.user.state = .uninit then none else w.user.mqttClient
  | .disconnect => if w.user.state = .uninit then none else w.user.mqttClient
  | .loop _ =>
    match w.user.state with
    | .connecting => w.user.mqttClient
    | .subscribing => w.user.mqttClient
    | .yield => w.user.mqttClient
    | .reconnect => w.user.mqttClient
    | _ => none
  | .connected => none
  | .deinit => if w.user.state = .uninit then none else w.user.mqttClient
  | .send env _ _ => if env.allocOk then w.user.mqttClient else none

/-- The call returns its error and does nothing; a loop has no error to return. -/
def LifecycleCall.Rejected (call : LifecycleCall) (w : LinkWorld) : Prop :=
  match call with
  | .init _ _ => True
  | .connect env => tuyaMqttConnect core ok env w = some (oprtInvalidParm, w)
  | .disconnect => tuyaMqttDisconnect core ok w = (oprtInvalidParm, w)
  | .loop env => tuyaMqttLoop core ok env w = some w
  | .connected => tuyaMqttConnected w.user = false
  | .deinit => tuyaMqttDeinit w = (oprtComError, w)
  | .send env publish message => sendMessage env publish message w = some (oprtInvalidParm, w)

/-! ### Runs -/

/-- The clients that were allocated, and whether the last initialisation was undone. -/
structure LifecycleHistory where
  clients : List Nat
  deinited : Bool

def LifecycleHistory.after (history : LifecycleHistory) (call : LifecycleCall) (w w' : LinkWorld) : LifecycleHistory :=
  match call with
  | .init _ _ => ⟨w'.user.mqttClient.toList ++ history.clients, false⟩
  | .deinit => if (tuyaMqttDeinit w).1 = oprtOk then { history with deinited := true } else history
  | _ => history

/-- The worlds that a run goes through, from its first initialisation on; `allowed` restricts the calls. -/
inductive LifecycleRun (allowed : LifecycleCall → LinkWorld → Prop) : LifecycleHistory → LinkWorld → Prop where
  | init {env : InitEnv} {config : TuyaMqttConfig} {n : Nat} {rc : Int} {w : LinkWorld} :
      tuyaMqttInit ok hmac env config ⟨n, []⟩ = .ok (rc, w) → LifecycleRun allowed ⟨w.user.mqttClient.toList, false⟩ w
  | step {history : LifecycleHistory} {call : LifecycleCall} {w w' : LinkWorld} : LifecycleRun allowed history w →
      allowed call w → call.run hmac core ok w = some w' → LifecycleRun allowed (history.after call w w') w'

/-- The life of a context is closed so far. -/
structure LifecycleClosed (history : LifecycleHistory) (w : LinkWorld) : Prop where
  allocated : w.user.state ≠ .uninit →
    ∃ client, w.user.mqttClient = some client ∧ 0 < mallocs w.heap.log client ∧ frees w.heap.log client = 0
  freedOnce : ∀ client ∈ history.clients, frees w.heap.log client ≤ 1
  handed : ∀ (call : LifecycleCall) client, call.handed w = some client → frees w.heap.log client = 0
  deinited : history.deinited = true →
    tuyaMqttConnected w.user = false ∧ ∀ call : LifecycleCall, call.Rejected core ok w

/-- No initialised context is given to `tuya_mqtt_deinit`. -/
def NoDeinit (call : LifecycleCall) (w : LinkWorld) : Prop :=
  match call with
  | .deinit => w.user.state = .uninit
  | _ => True

end Lifecycle

/-! ### What the calls release -/

section Releases

variable {core : CoreJson} {ok : Nat → Bool} {n : Nat}

/-- A block of the heap with a number from `n` on. -/
def Recent (n : Nat) (heap : MessageHeap) (b : Nat) : Prop := n ≤ b ∧ b < heap.next

/-- The strings of a message are recent blocks. -/
structure RecentMessage (n : Nat) (heap : MessageHeap) (out : TuyalinkMessage HeapString) : Prop where
  deviceId : ∀ b, out.deviceId.map HeapString.block = some b → Recent n heap b
  msgid : ∀ b, out.msgid.map HeapString.block = some b → Recent n heap b
  dataString : ∀ b, out.dataString.map HeapString.block = some b → Recent n heap b

variable {heap heap' : MessageHeap} {out : TuyalinkMessage HeapString} {deviceId : HeapString}

theorem Recent.mono {b : Nat} (h : Recent n heap b) (hle : heap.next ≤ heap'.next) : Recent n heap' b :=
  ⟨h.1, Nat.lt_of_lt_of_le h.2 hle⟩

theorem RecentMessage.mono (h : RecentMessage n heap out) (hle : heap.next ≤ heap'.next) : RecentMessage n heap' out :=
  ⟨fun b hb => (h.deviceId b hb).mono hle, fun b hb => (h.msgid b hb).mono hle, fun b hb => (h.dataString b hb).mono hle⟩

/-- The parser releases and returns only what it allocated. -/
structure ParseReleases (n : Nat) (heap : MessageHeap) (result : ParseResult) : Prop where
  heap : heap.ReleasesFrom n result.heap
  out : RecentMessage n result.heap result.out

/-- A copy fails, or it is a new block. -/
theorem copyValue_cases (ok : Nat → Bool) (value : List UInt8) (hn : n ≤ heap.next) :
    ∃ heap', heap.ReleasesFrom n heap' ∧ (copyValue ok value heap = (none, heap') ∨
      ∃ s, copyValue ok value heap = (some s, heap') ∧ Recent n heap' s.block) := by
  have hmalloc := Heap.ReleasesFrom.malloc n ok heap
  unfold copyValue
  by_cases hok : ok heap.next = true
  · rw [Heap.malloc_ok hok] at hmalloc ⊢
    exact ⟨_, hmalloc, Or.inr ⟨_, rfl, hn, Nat.lt_succ_self _⟩⟩
  · rw [Bool.not_eq_true] at hok
    rw [Heap.malloc_fail hok] at hmalloc ⊢
    exact ⟨_, hmalloc, Or.inl rfl⟩

theorem parseData_releases (payload : List UInt8) (hn : n ≤ heap.next) (hdevice : Recent n heap deviceId.block)
    (hout : RecentMessage n heap out) : ParseReleases n heap (parseData core ok payload deviceId out heap) := by
  unfold parseData
  split
  · exact ⟨.refl n heap, hout⟩
  · rename_i value _
    obtain ⟨heap', hheap, hcopy | ⟨s, hcopy, hs⟩⟩ := copyValue_cases ok value hn
    · rw [hcopy]
      have hdevice' := hdevice.mono hheap.next_le
      have hout' := hout.mono hheap.next_le
      refine ⟨(hheap.trans (.free hdevice'.1 hdevice'.2)).trans (.freeIf hout'.msgid), ?_⟩
      have hnext : heap'.next ≤ ((heap'.free deviceId.block).freeIf (out.msgid.map HeapString.block)).next := by
        cases out.msgid <;> exact Nat.le_refl _
      exact ⟨(hout'.mono hnext).deviceId, (hout'.mono hnext).msgid, by simp⟩
    · rw [hcopy]
      have hout' := hout.mono hheap.next_le
      exact ⟨hheap, hout'.deviceId, hout'.msgid, by simpa using hs⟩

theorem parseMsgid_releases (payload : List UInt8) (hn : n ≤ heap.next) (hdevice : Recent n heap deviceId.block)
    (hout : RecentMessage n heap out) : ParseReleases n heap (parseMsgid core ok payload deviceId out heap) := by
  have htime : ∀ {heap : MessageHeap} {out : TuyalinkMessage HeapString}, RecentMessage n heap out →
      RecentMessage n heap (parseTime core payload out) := by
    intro heap out h
    unfold parseTime
    split
    · exact h
    · exact ⟨h.deviceId, h.msgid, h.dataString⟩
  unfold parseMsgid
  split
  · exact parseData_releases payload hn hdevice (htime hout)
  · rename_i value _
    obtain ⟨heap', hheap, hcopy | ⟨s, hcopy, hs⟩⟩ := copyValue_cases ok value hn
    · rw [hcopy]
      have hdevice' := hdevice.mono hheap.next_le
      have hout' := hout.mono hheap.next_le
      exact ⟨hheap.trans (.free hdevice'.1 hdevice'.2), hout'.deviceId, by simp, hout'.dataString⟩
    · rw [hcopy]
      have hout' := hout.mono hheap.next_le
      have hmessage : RecentMessage n heap' { out with msgid := some s } :=
        ⟨hout'.deviceId, by simpa using hs, hout'.dataString⟩
      have hread : ParseReleases n heap' (parseData core ok payload deviceId _ heap') :=
        parseData_releases payload (Nat.le_trans hn hheap.next_le) (hdevice.mono hheap.next_le) (htime hmessage)
      exact ⟨hheap.trans hread.heap, hread.out⟩

theorem parsePayload_releases (payload : List UInt8) (hn : n ≤ heap.next) (hdevice : Recent n heap deviceId.block)
    (hout : RecentMessage n heap out) : ParseReleases n heap (parsePayload core ok payload deviceId out heap) := by
  unfold parsePayload
  split
  · exact ⟨.free hdevice.1 hdevice.2, hout.deviceId, hout.msgid, hout.dataString⟩
  · refine parseMsgid_releases payload hn hdevice ?_
    unfold parseCode
    split
    · exact hout
    · exact ⟨hout.deviceId, hout.msgid, hout.dataString⟩

theorem parse_releases {topic : List UInt8} {payload : Option (List UInt8)} {result : ParseResult} (hn : n ≤ heap.next)
    (hout : RecentMessage n heap out) (h : tuyaLinkThingMessageParse core ok topic payload out heap = some result) :
    ParseReleases n heap result := by
  unfold tuyaLinkThingMessageParse at h
  split at h
  · cases h
    exact ⟨.refl n heap, hout⟩
  · split at h
    · cases h
      exact ⟨.refl n heap, hout⟩
    · rename_i payload _
      obtain ⟨heap', hheap, hcopy | ⟨s, hcopy, hs⟩⟩ := copyValue_cases ok
        ((topic.drop ((topicSplit topic).devidOffset.toNat + 1)).take (topicSplit topic).devidLength.toNat) hn
      · simp only [hcopy, Option.some.injEq] at h
        subst h
        have hout' := hout.mono hheap.next_le
        exact ⟨hheap, by simp, hout'.msgid, hout'.dataString⟩
      · simp only [hcopy] at h
        split at h
        · cases h
          have hout' := hout.mono hheap.next_le
          have hmessage : ∀ type, RecentMessage n heap' { out with deviceId := some s, type := type } :=
            fun type => ⟨by simpa using hs, hout'.msgid, hout'.dataString⟩
          have hread : ∀ type, ParseReleases n heap'
              (parsePayload core ok payload s { out with deviceId := some s, type := type } heap') :=
            fun type => parsePayload_releases payload (Nat.le_trans hn hheap.next_le) hs (hmessage type)
          exact ⟨hheap.trans (hread _).heap, (hread _).out⟩
        · cases h

theorem deliverMessage_releases (onMessages : Bool) (hout : RecentMessage n heap out) :
    heap.ReleasesFrom n (deliverMessage onMessages out heap) := by
  have hstep : ∀ {heap : MessageHeap} {p : Option Nat}, (∀ b, p = some b → Recent n heap b) →
      heap.ReleasesFrom n (heap.freeIf p) := fun hp => .freeIf hp
  have hcall : heap.ReleasesFrom n (if onMessages then heap.call (.onMessages out) else heap) := by
    split
    · exact .call n _ heap
    · exact .refl n heap
  have hout₁ := hout.mono hcall.next_le
  have hdevice := hstep hout₁.deviceId
  have hout₂ := hout₁.mono hdevice.next_le
  have hmsgid := hstep hout₂.msgid
  have hout₃ := hout₂.mono hmsgid.next_le
  exact ((hcall.trans hdevice).trans hmsgid).trans (hstep hout₃.dataString)

theorem distribute_releases (msg : MqttClientMessage) (subs : List SubscribeHandle) (heap : MessageHeap) :
    heap.ReleasesFrom n (mqttSubscribeMessageDistribute msg subs heap) := by
  induction subs generalizing heap with
  | nil => exact .refl n heap
  | cons target rest ih =>
    rw [mqttSubscribeMessageDistribute]
    split
    · exact (Heap.ReleasesFrom.call n _ heap).trans (ih _)
    · exact ih heap

/-- The callback releases only what it allocated, also where it releases a block twice. -/
theorem mqttClientMessageCb_releases {subs : List SubscribeHandle} {onMessages : Bool} {msg : MqttClientMessage}
    (hn : n ≤ heap.next) (h : mqttClientMessageCb core ok subs onMessages msg heap = some heap') :
    heap.ReleasesFrom n heap' := by
  have hdistribute := distribute_releases (n := n) msg subs heap
  unfold mqttClientMessageCb at h
  dsimp only at h
  split at h
  · cases h
    exact hdistribute
  · obtain ⟨result, hparse, rfl⟩ := Option.map_eq_some_iff.1 h
    have hread := parse_releases (Nat.le_trans hn hdistribute.next_le)
      ⟨by simp [TuyalinkMessage.zero], by simp [TuyalinkMessage.zero], by simp [TuyalinkMessage.zero]⟩ hparse
    exact (hdistribute.trans hread.heap).trans (deliverMessage_releases onMessages hread.out)

/-- What the client does with a packet. -/
theorem libraryCallback_releases (config : TuyaMqttConfig) (packet : MQTTPacketInfo) (info : MQTTDeserializedInfo)
    {w : LinkWorld} (hn : n ≤ w.heap.next) :
    w.heap.ReleasesFrom n (coreMqttLibraryCallback ok (mqttConfig core ok config) packet info w).heap := by
  have hmessage : ∀ msg {w : LinkWorld}, n ≤ w.heap.next →
      w.heap.ReleasesFrom n (mqttClientMessage core ok msg w).heap := by
    intro msg w hn
    unfold mqttClientMessage
    split
    · rename_i heap hcb
      exact mqttClientMessageCb_releases hn hcb
    · exact .refl n w.heap
  unfold coreMqttLibraryCallback
  dsimp only
  split
  · split
    · rename_i publishInfo _
      unfold handOverPublish
      dsimp only [mqttConfig]
      have hmalloc := Heap.ReleasesFrom.malloc n ok w.heap
      by_cases hok : ok w.heap.next = true
      · rw [Heap.malloc_ok hok] at hmalloc ⊢
        have hread := hmessage ⟨publishInfo.topic, publishInfo.payload, publishInfo.qos⟩
          (w := { w with heap := ⟨w.heap.next + 1, w.heap.log ++ [.malloc w.heap.next]⟩}) (Nat.le_succ_of_le hn)
        have htopic : w.heap.next < _ := Nat.lt_of_lt_of_le (Nat.lt_succ_self _) hread.next_le
        exact (hmalloc.trans hread).trans (.free hn htopic)
      · rw [Bool.not_eq_true] at hok
        rw [Heap.malloc_fail hok] at hmalloc ⊢
        exact hmalloc
    · exact .refl n w.heap
  · split
    · exact .refl n w.heap
    · split
      · exact .refl n w.heap
      · split <;> exact .refl n w.heap

theorem yield_releases (config : TuyaMqttConfig) (pass : Pass) (rest : List Pass) (w : LinkWorld) :
    w.heap.ReleasesFrom w.heap.next (mqttClientYield ok (mqttConfig core ok config) pass rest w).2.heap := by
  have hinv : LoopInvariant (coreMqttLibraryCallback ok (mqttConfig core ok config))
      fun w' => w.heap.ReleasesFrom w.heap.next w'.heap :=
    ⟨fun _ _ _ hw => hw, fun packet info w' hw => hw.trans (libraryCallback_releases config packet info hw.next_le)⟩
  have hloop := hinv.processLoop pass rest (.refl w.heap.next w.heap)
  unfold mqttClientYield
  dsimp only
  split
  · rw [linkDisconnect_eq]
    exact hloop
  · exact hloop

/-- What the client reads leaves the pointer to it. -/
theorem client_invariant (client : Option Nat) : LinkInvariant fun w => w.user.mqttClient = client :=
  .ofContext fun msgid context h => (mqttClientSubscribedCb_mqttClient msgid context).trans h

theorem yield_mqttClient (config : TuyaMqttConfig) (pass : Pass) (rest : List Pass) (w : LinkWorld) :
    (mqttClientYield ok (mqttConfig core ok config) pass rest w).2.user.mqttClient = w.user.mqttClient := by
  rcases (client_invariant w.user.mqttClient).yield config pass rest rfl with hkeep | ⟨w₁, hw₁, hdisc⟩
  · exact hkeep
  · rw [hdisc]
    exact hw₁

end Releases

/-! ### Steps -/

section Steps

variable {hmac : Hmac} {core : CoreJson} {ok : Nat → Bool}

/-- A call keeps the client and the older blocks, and an initialised context stays initialised. -/
structure KeepsClient (w w' : LinkWorld) : Prop where
  mqttClient : w'.user.mqttClient = w.user.mqttClient
  heap : w.heap.ReleasesFrom w.heap.next w'.heap
  uninit : w.user.state = .uninit → w'.user.state = .uninit

theorem KeepsClient.refl (w : LinkWorld) : KeepsClient w w := ⟨rfl, .refl _ _, id⟩

theorem connect_keepsClient {env : ConnectEnv} {w w' : LinkWorld} {rc : Int}
    (h : tuyaMqttConnect core ok env w = some (rc, w')) : KeepsClient w w' := by
  cases tuyaMqttConnect_step h with
  | uninit _ => exact .refl w
  | failed hstate _ => exact ⟨rfl, .refl _ _, fun h => absurd h hstate⟩
  | connected hstate _ => exact ⟨rfl, .refl _ _, fun h => absurd h hstate⟩

theorem disconnect_keepsClient (w : LinkWorld) : KeepsClient w (tuyaMqttDisconnect core ok w).2 := by
  unfold tuyaMqttDisconnect
  split
  · exact .refl w
  · rename_i hstate
    rw [linkDisconnect_eq]
    exact ⟨rfl, .refl _ _, fun h => absurd h hstate⟩

theorem loop_keepsClient {env : LoopEnv} {w w' : LinkWorld} (h : tuyaMqttLoop core ok env w = some w') :
    KeepsClient w w' := by
  cases tuyaMqttLoop_step h with
  | idle _ => exact .refl w
  | failed hstate _ => exact ⟨rfl, .refl _ _, fun h => by rw [hstate] at h; cases h⟩
  | connected hstate _ => exact ⟨rfl, .refl _ _, fun h => by rw [hstate] at h; cases h⟩
  | yield hstate =>
    refine ⟨yield_mqttClient _ _ _ w, yield_releases _ _ _ w, fun h => ?_⟩
    rw [h] at hstate
    rcases hstate with hstate | hstate <;> cases hstate
  | complete hstate => exact ⟨rfl, .refl _ _, fun h => by rw [hstate] at h; cases h⟩
  | reconnect hstate => exact ⟨rfl, .refl _ _, fun h => by rw [hstate] at h; cases h⟩

theorem send_keepsClient {env : SendEnv} {publish : MQTTStatus} {message : TuyalinkMessage CString} {w w' : LinkWorld}
    {rc : Int} (h : sendMessage env publish message w = some (rc, w')) : KeepsClient w w' := by
  unfold sendMessage at h
  split at h
  · cases h
  · obtain ⟨mqclient, n, es, -, rfl⟩ := sendOver_cases h
    exact ⟨rfl, .refl _ _, id⟩

/-- An initialisation ends without a client, or with a new one; it releases nothing. -/
theorem tuyaMqttInit_client {env : InitEnv} {config : TuyaMqttConfig} {heap : MessageHeap} {rc : Int} {w : LinkWorld}
    (h : tuyaMqttInit ok hmac env config heap = .ok (rc, w)) :
    w.user.mqttClient = none ∧ w.user.state = .uninit ∧ heap.ReleasesFrom heap.next w.heap ∨
      w.user.mqttClient = some heap.next ∧ w.heap = ⟨heap.next + 1, heap.log ++ [.malloc heap.next]⟩ := by
  have hmalloc : ∀ {client heap'}, heap.malloc ok = (some client, heap') →
      client = heap.next ∧ heap' = ⟨heap.next + 1, heap.log ++ [.malloc heap.next]⟩ := by
    intro client heap' hsome
    by_cases hok : ok heap.next = true
    · rw [Heap.malloc_ok hok] at hsome
      cases hsome
      exact ⟨rfl, rfl⟩
    · rw [Bool.not_eq_true] at hok
      rw [Heap.malloc_fail hok] at hsome
      cases hsome
  cases tuyaMqttInit_step h with
  | unsigned _ => exact Or.inl ⟨rfl, rfl, .refl _ _⟩
  | noMemory hnone =>
    have hreleases := Heap.ReleasesFrom.malloc heap.next ok heap
    rw [hnone] at hreleases
    exact Or.inl ⟨rfl, rfl, hreleases⟩
  | uninitialised hsome =>
    obtain ⟨rfl, rfl⟩ := hmalloc hsome
    exact Or.inr ⟨rfl, rfl⟩
  | initialised hsome =>
    obtain ⟨rfl, rfl⟩ := hmalloc hsome
    exact Or.inr ⟨rfl, rfl⟩

/-! ### The invariant -/

/-- All clients are live, and the context has one of them when it is initialised. -/
structure LifecycleInvariant (history : LifecycleHistory) (w : LinkWorld) : Prop where
  fresh : ∀ b, w.heap.next ≤ b → frees w.heap.log b = 0
  clients : ∀ c ∈ history.clients, c < w.heap.next ∧ 0 < mallocs w.heap.log c ∧ frees w.heap.log c = 0
  current : ∀ c, w.user.mqttClient = some c → c ∈ history.clients
  initialised : w.user.state ≠ .uninit → w.user.mqttClient ≠ none
  deinited : history.deinited = false

namespace LifecycleInvariant

variable {history : LifecycleHistory} {w w' : LinkWorld}

/-- The clients stay live when only newer blocks are released. -/
theorem live {heap' : MessageHeap} (h : LifecycleInvariant history w) (hheap : w.heap.ReleasesFrom w.heap.next heap') :
    (∀ b, heap'.next ≤ b → frees heap'.log b = 0) ∧
      ∀ c ∈ history.clients, c < heap'.next ∧ 0 < mallocs heap'.log c ∧ frees heap'.log c = 0 := by
  constructor
  · intro b hb
    rw [hheap.frees_eq (Or.inr hb)]
    exact h.fresh b (Nat.le_trans hheap.next_le hb)
  · intro c hc
    obtain ⟨hlt, hmalloc, hfree⟩ := h.clients c hc
    refine ⟨Nat.lt_of_lt_of_le hlt hheap.next_le, Nat.lt_of_lt_of_le hmalloc (hheap.mallocs_le c), ?_⟩
    rw [hheap.frees_eq (Or.inl hlt)]
    exact hfree

theorem keepsClient (h : LifecycleInvariant history w) (hw : KeepsClient w w') : LifecycleInvariant history w' where
  fresh := (h.live hw.heap).1
  clients := (h.live hw.heap).2
  current c hc := h.current c (hw.mqttClient ▸ hc)
  initialised hstate := by
    rw [hw.mqttClient]
    exact h.initialised fun huninit => hstate (hw.uninit huninit)
  deinited := h.deinited

/-- An initialisation adds its client to those of before. -/
theorem init {env : InitEnv} {config : TuyaMqttConfig} {rc : Int} (h : LifecycleInvariant history w)
    (hinit : tuyaMqttInit ok hmac env config w.heap = .ok (rc, w')) :
    LifecycleInvariant ⟨w'.user.mqttClient.toList ++ history.clients, false⟩ w' := by
  rcases tuyaMqttInit_client hinit with ⟨hclient, hstate, hheap⟩ | ⟨hclient, hheap⟩
  · rw [hclient]
    exact ⟨(h.live hheap).1, (h.live hheap).2, fun c hc => (by rw [hclient] at hc; cases hc),
      fun hne => absurd hstate hne, rfl⟩
  · have hmalloc : w.heap.ReleasesFrom w.heap.next w'.heap := by
      rw [hheap]
      exact ⟨Nat.le_succ _, [.malloc w.heap.next], rfl, by simp⟩
    refine ⟨(h.live hmalloc).1, ?_, ?_, fun _ => by rw [hclient]; simp, rfl⟩
    · intro c hc
      rw [hclient, Option.toList_some, List.singleton_append, List.mem_cons] at hc
      rcases hc with rfl | hc
      · rw [hheap]
        refine ⟨Nat.lt_succ_self _, ?_, ?_⟩
        · simp [mallocs, HeapEvent.isMalloc]
        · rw [frees_malloc]
          exact h.fresh _ (Nat.le_refl _)
      · exact (h.live hmalloc).2 c hc
    · intro c hc
      rw [hc]
      exact List.mem_append_left _ (List.mem_singleton_self c)

theorem start (n : Nat) (user : TuyaMqttContext) (huser : user.mqttClient = none) (hstate : user.state = .uninit) :
    LifecycleInvariant ⟨[], false⟩ ⟨.zero, user, ⟨n, []⟩, []⟩ :=
  ⟨fun _ _ => rfl, by simp, fun c hc => (by rw [huser] at hc; cases hc), fun h => absurd hstate h, rfl⟩

/-- What one call keeps, one case for each call. -/
theorem step {call : LifecycleCall} (h : LifecycleInvariant history w) (hallowed : NoDeinit call w)
    (hrun : call.run hmac core ok w = some w') : LifecycleInvariant (history.after call w w') w' := by
  cases call with
  | init env config =>
    simp only [LifecycleCall.run, Option.map_eq_some_iff] at hrun
    obtain ⟨⟨rc, w₁⟩, hinit, rfl⟩ := hrun
    have hok : tuyaMqttInit ok hmac env config w.heap = .ok (rc, w₁) := by
      cases hresult : tuyaMqttInit ok hmac env config w.heap with
      | error fault =>
        rw [hresult] at hinit
        cases hinit
      | ok result =>
        rw [hresult] at hinit
        cases hinit
        rfl
    exact h.init hok
  | connect env =>
    simp only [LifecycleCall.run, Option.map_eq_some_iff] at hrun
    obtain ⟨⟨rc, w₁⟩, hconnect, rfl⟩ := hrun
    exact h.keepsClient (connect_keepsClient hconnect)
  | disconnect =>
    cases hrun
    exact h.keepsClient (disconnect_keepsClient w)
  | loop env => exact h.keepsClient (loop_keepsClient hrun)
  | connected =>
    cases hrun
    exact h
  | deinit =>
    have hrejected : tuyaMqttDeinit w = (oprtComError, w) := if_pos hallowed
    simp only [LifecycleCall.run, hrejected, Option.some.injEq] at hrun
    subst hrun
    simp only [LifecycleHistory.after, hrejected]
    rw [if_neg (by decide)]
    exact h
  | send env publish message =>
    simp only [LifecycleCall.run, Option.map_eq_some_iff] at hrun
    obtain ⟨⟨rc, w₁⟩, hsend, rfl⟩ := hrun
    exact h.keepsClient (send_keepsClient hsend)

theorem closed (h : LifecycleInvariant history w) : LifecycleClosed core ok history w where
  allocated hstate := by
    obtain ⟨c, hc⟩ := Option.ne_none_iff_exists'.1 (h.initialised hstate)
    exact ⟨c, hc, (h.clients c (h.current c hc)).2⟩
  freedOnce c hc := by
    rw [(h.clients c hc).2.2]
    exact Nat.zero_le 1
  handed call c hhanded := by
    have hcurrent : w.user.mqttClient = some c := by
      cases call with
      | init env config => cases hhanded
      | connected => cases hhanded
      | connect env => exact (Option.ite_none_left_eq_some.1 hhanded).2
      | disconnect => exact (Option.ite_none_left_eq_some.1 hhanded).2
      | deinit => exact (Option.ite_none_left_eq_some.1 hhanded).2
      | send env publish message => exact (Option.ite_none_right_eq_some.1 hhanded).2
      | loop env =>
        simp only [LifecycleCall.handed] at hhanded
        split at hhanded
        all_goals first | exact hhanded | cases hhanded
    exact (h.clients c (h.current c hcurrent)).2.2
  deinited hdeinited := by
    rw [h.deinited] at hdeinited
    cases hdeinited

/-- After a deinitialisation the context is initialised and its client is gone. -/
theorem not_closed_deinit (h : LifecycleInvariant history w) (hstate : w.user.state ≠ .uninit)
    (history' : LifecycleHistory) : ¬ LifecycleClosed core ok history' (tuyaMqttDeinit w).2 := by
  intro hclosed
  obtain ⟨c, hc⟩ := Option.ne_none_iff_exists'.1 (h.initialised hstate)
  have hdeinit : (tuyaMqttDeinit w).2 = { w.log .networkDisconnect with heap := w.heap.free c } := by
    simp only [tuyaMqttDeinit, if_neg hstate, mqttClientDeinit, World.log_user, World.log_heap, hc, Heap.freeIf_some]
    rfl
  rw [hdeinit] at hclosed
  obtain ⟨c', hc', -, hfrees⟩ := hclosed.allocated hstate
  have hsame : c = c' := Option.some.inj (hc.symm.trans hc')
  subst hsame
  rw [Heap.free_log, frees_free_self] at hfrees
  omega

end LifecycleInvariant

/-! ### Runs -/

theorem lifecycleRun_invariant {history : LifecycleHistory} {w : LinkWorld}
    (h : LifecycleRun hmac core ok NoDeinit history w) : LifecycleInvariant history w := by
  induction h with
  | init hinit =>
    rename_i env config n rc w
    have hstart := LifecycleInvariant.start n (TuyaMqttContext.zero config) rfl rfl
    have hfirst := hstart.init hinit
    rwa [List.append_nil] at hfirst
  | step _ hallowed hrun ih => exact ih.step hallowed hrun

/-- In every run that gives no initialised context to `tuya_mqtt_deinit` the life of the context is closed, and the
first call that does so ends that. -/
theorem lifecycleRun_closed {history : LifecycleHistory} {w : LinkWorld}
    (h : LifecycleRun hmac core ok NoDeinit history w) :
    LifecycleClosed core ok history w ∧
      (w.user.state ≠ .uninit → ∀ history', ¬ LifecycleClosed core ok history' (tuyaMqttDeinit w).2) :=
  ⟨(lifecycleRun_invariant h).closed, (lifecycleRun_invariant h).not_closed_deinit⟩

end Steps

/-- A client that connects, is disconnected by hand, connects again in its loop and is disconnected once more. -/
theorem lifecycleRun_closed_again : ∃ history w,
    w.user.state = .subscribing ∧ LifecycleClosed asciiJson (fun _ => true) history w := by
  obtain ⟨auth, heap, hinit⟩ := exampleInit_succeeds
  have hinitialised : LifecycleRun constantHmac asciiJson (fun _ => true) NoDeinit _ _ := .init hinit
  have hconnect : (LifecycleCall.connect ⟨true, .success, .success⟩).run constantHmac asciiJson (fun _ => true)
      (initialWorld exampleContext.config auth 0 heap) = some (subscribingWorld auth heap) :=
    congrArg (Option.map Prod.snd) (exampleConnect_succeeds auth heap)
  have hdisconnect : ∀ w, LifecycleCall.disconnect.run constantHmac asciiJson (fun _ => true) w =
      some (tuyaMqttDisconnect asciiJson (fun _ => true) w).2 := fun _ => rfl
  obtain ⟨w, hloop, hstate⟩ : ∃ w,
      (LifecycleCall.loop ⟨⟨true, .success, .success⟩, ⟨.recvFailed, .success, ⟨0, []⟩, 0, 0, true, .success, .success⟩,
          []⟩).run constantHmac asciiJson (fun _ => true)
        (tuyaMqttDisconnect asciiJson (fun _ => true) (subscribingWorld auth heap)).2 = some w ∧
      (tuyaMqttDisconnect asciiJson (fun _ => true) w).2.user.state = .subscribing := ⟨_, rfl, rfl⟩
  have hallowed : ∀ call w, call ≠ .deinit → NoDeinit call w := by
    intro call w hcall
    cases call <;> first | exact trivial | exact absurd rfl hcall
  have hconnected := hinitialised.step (hallowed _ _ (by simp)) hconnect
  have hdisconnected := hconnected.step (hallowed _ _ (by simp)) (hdisconnect _)
  have hlooped := hdisconnected.step (hallowed _ _ (by simp)) hloop
  have hagain := hlooped.step (hallowed _ _ (by simp)) (hdisconnect w)
  exact ⟨_, _, hstate, (lifecycleRun_closed hagain).1⟩

/-- An initialisation that is undone. -/
theorem not_lifecycleClosed_deinit : ¬ ∀ history w,
    LifecycleRun constantHmac asciiJson (fun _ => true) (fun _ _ => True) history w →
      LifecycleClosed asciiJson (fun _ => true) history w := by
  intro h
  obtain ⟨auth, heap, hinit⟩ := exampleInit_succeeds
  have hguarded : LifecycleRun constantHmac asciiJson (fun _ => true) NoDeinit _ _ := .init hinit
  have hrun : LifecycleRun constantHmac asciiJson (fun _ => true) (fun _ _ => True) _ _ := .init hinit
  have hdeinit : LifecycleCall.deinit.run constantHmac asciiJson (fun _ => true)
      (initialWorld exampleContext.config auth 0 heap) = some _ := rfl
  exact (lifecycleRun_invariant hguarded).not_closed_deinit (by simp [initialWorld]) _
    (h _ _ (hrun.step trivial hdeinit))

end TuyaDaemon
