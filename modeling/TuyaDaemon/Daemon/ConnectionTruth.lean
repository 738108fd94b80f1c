import TuyaDaemon.Daemon.TuyaClient
import TuyaDaemon.Link.SubackHandling
import TuyaDaemon.Mqtt.Session
import TuyaDaemon.Telemetry.FlatText

/-!
# Connection truth

The context of a daemon simulates the session of its connection: in every state between calls its flags, its pending
identifier and its state are those of the session that the events describe (`DaemonRun.tracks`), as long as the
broker is honest.  So a context that says it is connected has an acknowledged subscription on the current
connection (`daemonRun_connectionTruth`).
-/

namespace TuyaDaemon

open CLib

variable {D : Doubles} {core : CoreJson} {ok : Nat → Bool} {text : CJsonText D}

/-! ### The simulation -/

/-- The session of the topic that the context subscribes to. -/
def linkSession (w : LinkWorld) : Session := session (autoSubscribeText w.user.config.deviceId.chars) w.trace

/-- The session that the context says it has; there is none in the states that a daemon does not reach. -/
def TuyaMqttContext.session (context : TuyaMqttContext) : Option Session :=
  match context.state with
  | .idle => some .offline
  | .connecting => some .offline
  | .subscribing =>
    some (.awaiting (if context.autoSubscribeId = 0 then none else some context.autoSubscribeId))
  | .subscribeComplete => some .acknowledged
  | .yield => some .acknowledged
  | .uninit => none
  | .reconnect => none

/-- The context is the session of the events. -/
structure Tracks (w : LinkWorld) : Prop where
  agrees : w.user.session = some (linkSession w)
  automatic : w.user.state ≠ .idle → w.user.manualDisconnect = false
  settled : w.user.state = .subscribeComplete ∨ w.user.state = .yield → w.user.autoSubscribeId = 0
  connected : w.user.isConnected = true ↔ w.user.state = .yield
  enabled : w.user.autoSubscribeEnabled = true ↔ w.user.state = .subscribeComplete ∨ w.user.state = .yield

/-- The states in which the process loop runs. -/
def LinkState.Open (state : LinkState) : Prop := state = .subscribing ∨ state = .subscribeComplete ∨ state = .yield

theorem tracks_initialWorld (config : TuyaMqttConfig) (auth : TuyaMqttAuth) (client : Nat) (heap : MessageHeap) :
    Tracks (initialWorld config auth client heap) where
  agrees := rfl
  automatic h := absurd rfl h
  settled h := by rcases h with h | h <;> cases h
  connected := by simp [initialWorld, TuyaMqttContext.zero]
  enabled := by simp [initialWorld, TuyaMqttContext.zero]

/-! ### Connecting -/

/-- The events of a connect that fails leave the session. -/
theorem session_failedConnect (topic : List UInt8) (trace : List (Event TuyaMqttContext))
    {es : List (Event TuyaMqttContext)} (hes : ∀ e ∈ es, Event.FailedConnect e) :
    session topic (trace ++ es) = session topic trace := by
  rw [session_append]
  induction es with
  | nil => rfl
  | cons e es ih =>
    have he := hes e (by simp)
    have hstep : (session topic trace).step topic e = session topic trace := by
      cases e with
      | networkConnect _ => rfl
      | networkDisconnect => rfl
      | mqttConnect status => exact if_neg he
      | _ => exact he.elim
    rw [List.foldl_cons, hstep]
    exact ih fun e' he' => hes e' (by simp [he'])

theorem tracks_subscribed {w : LinkWorld} (hmanual : w.user.manualDisconnect = false)
    (hconnected : w.user.isConnected = false) (henabled : w.user.autoSubscribeEnabled = false)
    (mqclient : MQTTContext) {id autoId : UInt16} {sent : MQTTStatus}
    (hid : autoId = 0 ∧ sent ≠ .success ∨ autoId = id ∧ sent = .success ∧ id ≠ 0) :
    Tracks (subscribed w mqclient id autoId sent) := by
  refine ⟨?_, fun _ => hmanual, ?_, ?_, ?_⟩
  · have hsession : linkSession (subscribed w mqclient id autoId sent) =
        .awaiting (if sent = .success then some id else none) := session_connect _ _ _ _
    rw [hsession]
    show some (Session.awaiting (if autoId = 0 then none else some autoId)) = _
    rcases hid with ⟨rfl, hsent⟩ | ⟨rfl, rfl, hne⟩
    · rw [if_pos rfl, if_neg hsent]
    · rw [if_neg hne, if_pos rfl]
  · rintro (h | h) <;> cases h
  · show w.user.isConnected = true ↔ LinkState.subscribing = .yield
    simp [hconnected]
  · show w.user.autoSubscribeEnabled = true ↔
      LinkState.subscribing = .subscribeComplete ∨ LinkState.subscribing = .yield
    simp [henabled]

theorem Tracks.tuyaMqttConnect {w w' : LinkWorld} (h : Tracks w) (hidle : w.user.state = .idle) {env : ConnectEnv}
    (hconnect : tuyaMqttConnect core ok env w = some (oprtOk, w')) : Tracks w' := by
  have hconnected : w.user.isConnected = false := by
    simpa [hidle] using mt h.connected.1
  have henabled : w.user.autoSubscribeEnabled = false := by
    simpa [hidle] using mt h.enabled.1
  cases tuyaMqttConnect_step hconnect with
  | connected _ hid =>
    have hmanual : ({ w with user := { w.user with manualDisconnect := false } } : LinkWorld).user.manualDisconnect =
        false := rfl
    exact tracks_subscribed hmanual hconnected henabled _ hid

/-! ### Reading packets -/

/-- Only the SUBACK of the pending subscription changes the session, and the context with it. -/
theorem Tracks.suback {w : LinkWorld} (h : Tracks w) (hopen : w.user.state.Open) {id : UInt16} (hid : id ≠ 0)
    (result : MQTTStatus) : Tracks (afterSuback id result w) ∧ (afterSuback id result w).user.state.Open := by
  have hsession : linkSession (afterSuback id result w) = (linkSession w).acked id := by
    show session (autoSubscribeText (mqttClientSubscribedCb id w.user).config.deviceId.chars) (w.trace ++ [_]) = _
    rw [mqttClientSubscribedCb_config, session_concat]
    rfl
  have hbelief := h.agrees
  by_cases hmatch : id = w.user.autoSubscribeId
  · -- the identifier is pending, so the state is the one before the acknowledgement
    have hstate : w.user.state = .subscribing := by
      rcases hopen with hstate | hstate
      · exact hstate
      · exact absurd (hmatch.trans (h.settled hstate)) hid
    have huser : (afterSuback id result w).user =
        { w.user with autoSubscribeId := 0, autoSubscribeEnabled := true, state := .subscribeComplete } :=
      if_pos hmatch
    have hconnected : w.user.isConnected = false := by
      simpa [hstate] using mt h.connected.1
    have hpending : linkSession w = .awaiting (some id) := by
      rw [hmatch] at hid ⊢
      simp only [TuyaMqttContext.session, hstate, if_neg hid, Option.some.injEq] at hbelief
      exact hbelief.symm
    refine ⟨⟨?_, ?_, ?_, ?_, ?_⟩, ?_⟩
    · rw [hsession, hpending, huser]
      simp [TuyaMqttContext.session, Session.acked]
    · rw [huser]
      intro _
      exact h.automatic (by rw [hstate]; simp)
    · rw [huser]
      intro _
      rfl
    · rw [huser]
      simp [hconnected]
    · rw [huser]
      simp
    · rw [huser]
      exact Or.inr (Or.inl rfl)
  · have huser : (afterSuback id result w).user = w.user := if_neg hmatch
    have hsame : (linkSession w).acked id = linkSession w := by
      rcases hopen with hstate | hstate
      · simp only [TuyaMqttContext.session, hstate, Option.some.injEq] at hbelief
        rw [← hbelief]
        refine if_neg ?_
        split
        · simp
        · intro heq
          exact hmatch (Option.some.inj heq).symm
      · have hacknowledged : linkSession w = .acknowledged := by
          rcases hstate with hstate | hstate <;>
            simpa [TuyaMqttContext.session, hstate] using hbelief.symm
        rw [hacknowledged]
        rfl
    refine ⟨⟨?_, ?_, ?_, ?_, ?_⟩, ?_⟩
    · rw [hsession, hsame, huser]
      exact hbelief
    · rw [huser]
      exact h.automatic
    · rw [huser]
      exact h.settled
    · rw [huser]
      exact h.connected
    · rw [huser]
      exact h.enabled
    · rw [huser]
      exact hopen

/-- Whatever the process loop reads from an honest broker, the context goes on tracking the session. -/
theorem tracks_invariant :
    LinkInvariant fun w => Honest w.trace → Tracks w ∧ w.user.state.Open where
  frame w mqclient heap _ hw honest := by
    obtain ⟨h, hopen⟩ := hw honest
    exact ⟨⟨h.agrees, h.automatic, h.settled, h.connected, h.enabled⟩, hopen⟩
  readOutside w hw honest := by
    obtain ⟨h, hopen⟩ := hw (honest.mono (List.prefix_append _ _))
    have hsession : linkSession (w.log .readOutside) = linkSession w := session_concat _ _ _
    exact ⟨⟨h.agrees.trans (congrArg some hsession.symm), h.automatic, h.settled, h.connected, h.enabled⟩, hopen⟩
  suback msgid result w hw honest := by
    obtain ⟨h, hopen⟩ := hw (honest.mono (List.prefix_append _ _))
    exact h.suback hopen honest.suback_ne_zero result

theorem linkSession_disconnectEvents (topic : List UInt8) (config : TuyaMqttConfig)
    (trace : List (Event TuyaMqttContext)) : session topic (trace ++ disconnectEvents config) = .offline := by
  rw [session_append]
  unfold disconnectEvents
  split <;> rfl

/-- After a disconnect that is handled the context is offline and tries to connect again. -/
theorem Tracks.disconnect {w : LinkWorld} (h : Tracks w) (hopen : w.user.state.Open) :
    Tracks { w with user := w.user.afterDisconnect, trace := w.trace ++ disconnectEvents w.user.config } := by
  have hmanual : w.user.manualDisconnect = false := by
    apply h.automatic
    intro hidle
    rcases hopen with hstate | hstate | hstate <;> rw [hidle] at hstate <;> cases hstate
  have huser : w.user.afterDisconnect =
      { w.user with autoSubscribeEnabled := false, isConnected := false, state := .connecting } := by
    rw [TuyaMqttContext.afterDisconnect, if_pos hmanual]
  rw [huser]
  refine ⟨?_, fun _ => hmanual, ?_, ?_, ?_⟩
  · exact congrArg some (linkSession_disconnectEvents _ _ _).symm
  · rintro (h | h) <;> cases h
  · simp
  · simp

theorem Tracks.yield {w : LinkWorld} (h : Tracks w) (hopen : w.user.state.Open) (config : TuyaMqttConfig)
    (pass : Pass) (rest : List Pass)
    (honest : Honest (mqttClientYield ok (mqttConfig core ok config) pass rest w).2.trace) :
    Tracks (mqttClientYield ok (mqttConfig core ok config) pass rest w).2 := by
  rcases tracks_invariant.yield config pass rest (fun _ => ⟨h, hopen⟩) with hkeep | ⟨w₁, hw₁, hdisc⟩
  · exact (hkeep honest).1
  · rw [hdisc] at honest ⊢
    obtain ⟨h₁, hopen₁⟩ := hw₁ (honest.mono (List.prefix_append _ _))
    exact h₁.disconnect hopen₁

/-! ### Runs -/

/-- What one call of the loop preserves, one case for each thing it can do. -/
theorem Tracks.tuyaMqttLoop {w w' : LinkWorld} (h : Tracks w) {env : LoopEnv}
    (hloop : tuyaMqttLoop core ok env w = some w') (honest : Honest w'.trace) : Tracks w' := by
  cases tuyaMqttLoop_step hloop with
  | idle _ => exact h
  | @failed es _ hes =>
    have hsession : linkSession { w with trace := w.trace ++ es } = linkSession w :=
      session_failedConnect _ _ hes
    exact ⟨h.agrees.trans (congrArg some hsession.symm), h.automatic, h.settled, h.connected, h.enabled⟩
  | connected hstate hid =>
    exact tracks_subscribed (h.automatic (by rw [hstate]; simp)) (by simpa [hstate] using mt h.connected.1)
      (by simpa [hstate] using mt h.enabled.1) _ hid
  | yield hstate =>
    have hopen : w.user.state.Open := by
      rcases hstate with hstate | hstate
      · exact Or.inl hstate
      · exact Or.inr (Or.inr hstate)
    exact h.yield hopen _ _ _ honest
  | complete hstate =>
    have hacknowledged : linkSession w = .acknowledged := by
      simpa [TuyaMqttContext.session, hstate] using h.agrees.symm
    have hmanual := h.automatic (by rw [hstate]; simp)
    have hsettled := h.settled (Or.inl hstate)
    have henabled := h.enabled.2 (Or.inl hstate)
    refine ⟨?_, fun _ => hmanual, fun _ => hsettled, by simp, by simp [henabled]⟩
    -- the callback of the application leaves the session
    have hsession : ∀ es : List (Event TuyaMqttContext), es = [.onConnected] ∨ es = [] →
        session (autoSubscribeText w.user.config.deviceId.chars) (w.trace ++ es) = linkSession w := by
      rintro es (rfl | rfl)
      · exact session_concat _ _ _
      · rw [List.append_nil]
        rfl
    refine congrArg some (Eq.symm ((hsession _ ?_).trans hacknowledged))
    split
    · exact Or.inl rfl
    · exact Or.inr rfl
  | reconnect hstate =>
    have hbelief := h.agrees
    simp [TuyaMqttContext.session, hstate] at hbelief

theorem Tracks.telemetryReport {w w' : LinkWorld} (h : Tracks w) {env : ReportEnv D}
    (hreport : telemetryReport text env w = some w') : Tracks w' := by
  rcases telemetryReport_cases hreport with rfl | ⟨-, json, rc, hsend⟩
  · exact h
  · obtain ⟨mqclient, n, es, hes, rfl⟩ := tuyaClientReport_cases hsend
    have hsession : session (autoSubscribeText w.user.config.deviceId.chars) (w.trace ++ es) = linkSession w := by
      rcases hes with rfl | ⟨id, topic, payload, rfl⟩
      · rw [List.append_nil]
        rfl
      · exact session_concat _ _ _
    exact ⟨h.agrees.trans (congrArg some hsession.symm), h.automatic, h.settled, h.connected, h.enabled⟩

/-- The context tracks the session in every state of a run, by induction on its calls. -/
theorem DaemonRun.tracks {w : LinkWorld} (h : DaemonRun core ok text w) (honest : Honest w.trace) : Tracks w := by
  induction h with
  | init hinit =>
    obtain ⟨auth, client, heap', rfl⟩ := tuyaMqttInit_spec hinit
    exact tracks_initialWorld _ auth client heap'
  | connect hinit hconnect =>
    obtain ⟨auth, client, heap', rfl⟩ := tuyaMqttInit_spec hinit
    exact (tracks_initialWorld _ auth client heap').tuyaMqttConnect rfl hconnect
  | loop _ hloop ih => exact (ih (honest.mono (loop_grows hloop))).tuyaMqttLoop hloop honest
  | report _ hreport ih => exact (ih (honest.mono (report_grows hreport))).telemetryReport hreport

/-! ### What the daemon says about its connection -/

/-- The flags are those of the state, a connected context has an acknowledged subscription on the current
connection, and a report sends only with one. -/
structure ConnectionTruth (text : CJsonText D) (w : LinkWorld) : Prop where
  connected : w.user.isConnected = true ↔ w.user.state = .yield
  enabled : w.user.autoSubscribeEnabled = true ↔ w.user.state = .subscribeComplete ∨ w.user.state = .yield
  acknowledged : w.user.isConnected = true → Acknowledged (autoSubscribeText w.user.config.deviceId.chars) w.trace
  reports : ∀ (env : ReportEnv D) (w' : LinkWorld), telemetryReport text env w = some w' →
    w'.trace = w.trace ∨ w.user.isConnected = true ∧ ∃ id topic payload status,
      w'.trace = w.trace ++ [.publish id topic payload status]

theorem Tracks.acknowledged {w : LinkWorld} (h : Tracks w) (hconnected : w.user.isConnected = true) :
    Acknowledged (autoSubscribeText w.user.config.deviceId.chars) w.trace := by
  have hbelief := h.agrees
  simp only [TuyaMqttContext.session, h.connected.1 hconnected, Option.some.injEq] at hbelief
  have hholds := session_holds (autoSubscribeText w.user.config.deviceId.chars) w.trace
  rw [show session _ w.trace = .acknowledged from hbelief.symm] at hholds
  exact hholds

theorem telemetryReport_connected {env : ReportEnv D} {w w' : LinkWorld}
    (hreport : telemetryReport text env w = some w') :
    w'.trace = w.trace ∨ w.user.isConnected = true ∧ ∃ id topic payload status,
      w'.trace = w.trace ++ [.publish id topic payload status] := by
  rcases telemetryReport_cases hreport with rfl | ⟨hconnected, json, rc, hsend⟩
  · exact Or.inl rfl
  · obtain ⟨mqclient, n, es, hes, rfl⟩ := tuyaClientReport_cases hsend
    rcases hes with rfl | ⟨id, topic, payload, rfl⟩
    · exact Or.inl (List.append_nil _)
    · right
      refine ⟨?_, id, topic, payload, env.publish, rfl⟩
      unfold tuyaClientConnected tuyaMqttConnected at hconnected
      split at hconnected
      · cases hconnected
      · exact hconnected

/-- In every state of a run with an honest broker, the daemon tells the truth about its connection. -/
theorem daemonRun_connectionTruth {w : LinkWorld} (h : DaemonRun core ok text w) (honest : Honest w.trace) :
    ConnectionTruth text w where
  connected := (h.tracks honest).connected
  enabled := (h.tracks honest).enabled
  acknowledged := (h.tracks honest).acknowledged
  reports _ _ hreport := telemetryReport_connected hreport

/-- The daemon of the device `x` gets its SUBACK and goes on to `TUYA_STATE_YIELD`. -/
theorem connectedRun : ∃ w, DaemonRun asciiJson (fun _ => true) flatText w ∧ Honest w.trace ∧
    w.user.isConnected = true := by
  obtain ⟨auth, heap, hinit⟩ := exampleInit_succeeds
  have hconnect : DaemonRun asciiJson (fun _ => true) flatText (subscribingWorld auth heap) :=
    .connect hinit (exampleConnect_succeeds auth heap)
  have hsuback : tuyaClientLoop asciiJson (fun _ => true) ⟨⟨true, .success, .success⟩, subackPass 1 1, []⟩
      (subscribingWorld auth heap) = some (afterSuback 1 .success (subscribingWorld auth heap)) := by
    show some (mqttClientYield _ (mqttConfig asciiJson (fun _ => true) exampleContext.config) _ _ _).2 = _
    rw [yield_suback asciiJson (fun _ => true) exampleContext.config (subackPass 1 1) rfl rfl rfl
      (show _ = (_, 1) by decide) (Or.inl rfl) (subscribingWorld auth heap)]
  obtain ⟨w, hyield, htrace, hconnected⟩ : ∃ w : LinkWorld,
      tuyaClientLoop asciiJson (fun _ => true) ⟨⟨true, .success, .success⟩, subackPass 1 1, []⟩
        (afterSuback 1 .success (subscribingWorld auth heap)) = some w ∧
      w.trace = (afterSuback 1 .success (subscribingWorld auth heap)).trace ++ [.onConnected] ∧
      w.user.isConnected = true := ⟨_, rfl, rfl, rfl⟩
  refine ⟨w, (hconnect.loop hsuback).loop hyield, ?_, hconnected⟩
  -- the one SUBACK acknowledges the subscription
  have hconnecting : Honest (subscribingWorld auth heap).trace := honest_of_noSuback (by simp [subscribingWorld])
  have hsent : ∃ es, SinceConnect (subscribingWorld auth heap).trace es ∧ Sent 1 es :=
    ⟨[.subscribe 1 (autoSubscribeText (bytes "x")) .success], ⟨[.networkConnect true], rfl, by simp⟩,
      autoSubscribeText (bytes "x"), Or.inl (by simp)⟩
  rw [htrace]
  refine Honest.concat (hconnecting.concat ?_) (by simp)
  intro id result before after he
  cases he
  exact ⟨by decide, hsent⟩

theorem daemonRun_connectionTruth_connected :
    ∃ w : LinkWorld, w.user.isConnected = true ∧ ConnectionTruth flatText w := by
  obtain ⟨w, hrun, honest, hconnected⟩ := connectedRun
  exact ⟨w, hconnected, daemonRun_connectionTruth hrun honest⟩

end TuyaDaemon
