import TuyaDaemon.Daemon.ConnectionTruth

/-!
# The notifications of the application

`on_connected` is called one loop after the acknowledgement and `on_disconnect` at once, in whatever state the context
is.  In a run in which no session is lost while it is subscribing, and none that is up is taken for acknowledged again,
the two alternate (`guardedRun_alternates`).
-/

namespace TuyaDaemon

open CLib

variable {D : Doubles} {core : CoreJson} {ok : Nat → Bool} {text : CJsonText D}

/-- The two notifications. -/
inductive Notice where
  | onConnected
  | onDisconnect
deriving DecidableEq, Repr

/-- The notifications among the events of a trace. -/
def notices (trace : List (Event TuyaMqttContext)) : List Notice :=
  trace.filterMap fun
    | .onConnected => some .onConnected
    | .onDisconnect => some .onDisconnect
    | _ => none

/-- `(on_connected on_disconnect)` so many times. -/
def sessions (n : Nat) : List Notice := (List.replicate n [.onConnected, .onDisconnect]).flatten

/-- The notifications are a prefix of `(on_connected on_disconnect)*`. -/
def Alternates (trace : List (Event TuyaMqttContext)) : Prop := ∃ n, notices trace <+: sessions n

/-- The process loop of a call. -/
def processLoop (core : CoreJson) (ok : Nat → Bool) (env : LoopEnv) (w : LinkWorld) : MQTTStatus × LinkWorld :=
  mqttProcessLoop (coreMqttLibraryCallback ok (mqttConfig core ok w.user.config)) env.pass env.rest w

/-- The loop hands over no SUBACK with the identifier that the context has stored. -/
def NoSubackMatches (core : CoreJson) (ok : Nat → Bool) (env : LoopEnv) (w : LinkWorld) : Prop :=
  ∀ es id result before after, (processLoop core ok env w).2.trace = w.trace ++ es →
    .suback id result before after ∈ es → id ≠ before.autoSubscribeId

/-- No session is lost while the context is subscribing, and while it is up no SUBACK is taken for that of the automatic
subscription, unless the session is lost in the same call. -/
structure KeepsOrder (core : CoreJson) (ok : Nat → Bool) (w : LinkWorld) (env : LoopEnv) : Prop where
  subscribing : w.user.state = .subscribing → (processLoop core ok env w).1 = .success
  up : w.user.state = .yield → (processLoop core ok env w).1 = .success → NoSubackMatches core ok env w

/-! ### Sequences of notifications -/

theorem notices_append (trace es : List (Event TuyaMqttContext)) :
    notices (trace ++ es) = notices trace ++ notices es := List.filterMap_append

theorem sessions_succ (n : Nat) : sessions (n + 1) = sessions n ++ [.onConnected, .onDisconnect] := by
  rw [sessions, List.replicate_succ', List.flatten_append, List.flatten_singleton]
  rfl

/-- A context is up exactly between the two notifications. -/
structure Notified (w : LinkWorld) : Prop where
  config : w.user.config.onConnected = true ∧ w.user.config.onDisconnect = true
  automatic : w.user.state ≠ .idle → w.user.manualDisconnect = false
  reconnect : w.user.state ≠ .reconnect
  up : w.user.state = .yield → ∃ n, notices w.trace = sessions n ++ [.onConnected]
  down : w.user.state ≠ .yield → ∃ n, notices w.trace = sessions n

theorem Notified.alternates {w : LinkWorld} (h : Notified w) : Alternates w.trace := by
  by_cases hstate : w.user.state = .yield
  · obtain ⟨n, hn⟩ := h.up hstate
    refine ⟨n + 1, ?_⟩
    rw [hn, sessions_succ]
    exact (List.prefix_append_right_inj _).2 (by decide)
  · obtain ⟨n, hn⟩ := h.down hstate
    exact ⟨n, by rw [hn]⟩

/-! ### What the process loop leaves -/

/-- The events of a loop hold no notification, and the state changes only with a SUBACK that matches. -/
def Reads (w w' : LinkWorld) : Prop :=
  w'.user.config = w.user.config ∧ w'.user.manualDisconnect = w.user.manualDisconnect ∧
    ∃ es, w'.trace = w.trace ++ es ∧ notices es = [] ∧
      (w'.user.state = w.user.state ∨ w'.user.state = .subscribeComplete ∧
        ∃ id result before after, .suback id result before after ∈ es ∧ id = before.autoSubscribeId)

theorem reads_invariant (w : LinkWorld) : LinkInvariant (Reads w) where
  frame _ _ _ _ hw := hw
  readOutside w₁ hw := by
    obtain ⟨hconfig, hmanual, es, htrace, hnotices, hstate⟩ := hw
    refine ⟨hconfig, hmanual, es ++ [.readOutside], ?_, ?_, ?_⟩
    · rw [World.log_trace, htrace, List.append_assoc]
    · rw [notices_append, hnotices]
      rfl
    · rcases hstate with hsame | ⟨hcomplete, id, result, before, after, hmem, hid⟩
      · exact Or.inl hsame
      · exact Or.inr ⟨hcomplete, id, result, before, after, List.mem_append_left _ hmem, hid⟩
  suback msgid result w₁ hw := by
    obtain ⟨hconfig, hmanual, es, htrace, hnotices, hstate⟩ := hw
    refine ⟨(mqttClientSubscribedCb_config msgid w₁.user).trans hconfig,
      (mqttClientSubscribedCb_manualDisconnect msgid w₁.user).trans hmanual,
      es ++ [.suback msgid result w₁.user (mqttClientSubscribedCb msgid w₁.user)], ?_, ?_, ?_⟩
    · show w₁.trace ++ _ = _
      rw [htrace, List.append_assoc]
    · rw [notices_append, hnotices]
      rfl
    · by_cases hmatch : msgid = w₁.user.autoSubscribeId
      · right
        refine ⟨?_, msgid, result, _, _, List.mem_append_right _ (List.mem_singleton_self _), hmatch⟩
        show (mqttClientSubscribedCb msgid w₁.user).state = .subscribeComplete
        rw [mqttClientSubscribedCb, if_pos hmatch]
      · have hsame : (afterSuback msgid result w₁).user.state = w₁.user.state := by
          show (mqttClientSubscribedCb msgid w₁.user).state = w₁.user.state
          rw [mqttClientSubscribedCb, if_neg hmatch]
        rw [hsame]
        rcases hstate with hstate | ⟨hcomplete, id, result', before, after, hmem, hid⟩
        · exact Or.inl hstate
        · exact Or.inr ⟨hcomplete, id, result', before, after, List.mem_append_left _ hmem, hid⟩

theorem processLoop_reads (env : LoopEnv) (w : LinkWorld) : Reads w (processLoop core ok env w).2 := by
  have hstart : Reads w w := ⟨rfl, rfl, [], (List.append_nil _).symm, rfl, Or.inl rfl⟩
  exact (((reads_invariant w).callbacks w.user.config).libraryCallback ok).processLoop env.pass env.rest hstart

/-- A yield is the process loop, and a disconnect when it fails. -/
theorem yield_eq (env : LoopEnv) (w : LinkWorld) :
    (mqttClientYield ok (mqttConfig core ok w.user.config) env.pass env.rest w).2 =
      if (processLoop core ok env w).1 = .success then (processLoop core ok env w).2
      else { (processLoop core ok env w).2 with
        user := (processLoop core ok env w).2.user.afterDisconnect
        trace := (processLoop core ok env w).2.trace ++
          disconnectEvents (processLoop core ok env w).2.user.config } := by
  show (if (processLoop core ok env w).1 ≠ .success then _ else _ : MqttClientStatus × LinkWorld).2 = _
  by_cases hstatus : (processLoop core ok env w).1 = .success
  · rw [if_neg (not_not.2 hstatus), if_pos hstatus]
    rfl
  · rw [if_pos hstatus, if_neg hstatus]
    exact @linkDisconnect_eq core ok w.user.config (processLoop core ok env w).2

/-! ### What one call preserves -/

theorem notices_failedConnect {es : List (Event TuyaMqttContext)} (hes : ∀ e ∈ es, Event.FailedConnect e) :
    notices es = [] := by
  induction es with
  | nil => rfl
  | cons e es ih =>
    have he := hes e List.mem_cons_self
    have hrest := ih fun e' he' => hes e' (List.mem_cons_of_mem _ he')
    cases e with
    | networkConnect _ => exact hrest
    | networkDisconnect => exact hrest
    | mqttConnect _ => exact hrest
    | _ => exact he.elim

theorem notices_disconnectEvents {config : TuyaMqttConfig} (h : config.onDisconnect = true) :
    notices (disconnectEvents config) = [.onDisconnect] := by
  rw [disconnectEvents, if_pos h]
  rfl

theorem Notified.failedConnect {w : LinkWorld} (h : Notified w) {es : List (Event TuyaMqttContext)}
    (hes : ∀ e ∈ es, Event.FailedConnect e) : Notified { w with trace := w.trace ++ es } := by
  have hsame : notices (w.trace ++ es) = notices w.trace := by
    rw [notices_append, notices_failedConnect hes, List.append_nil]
  refine ⟨h.config, h.automatic, h.reconnect, fun hs => ?_, fun hs => ?_⟩
  · rw [hsame]
    exact h.up hs
  · rw [hsame]
    exact h.down hs

theorem notified_subscribed {w : LinkWorld} (h : Notified w) (hdown : w.user.state ≠ .yield)
    (hmanual : w.user.manualDisconnect = false) (mqclient : MQTTContext) (id autoId : UInt16) (sent : MQTTStatus) :
    Notified (subscribed w mqclient id autoId sent) := by
  refine ⟨h.config, fun _ => hmanual, by simp [subscribed], fun hs => by simp [subscribed] at hs, fun _ => ?_⟩
  obtain ⟨n, hn⟩ := h.down hdown
  refine ⟨n, ?_⟩
  show notices (w.trace ++ _) = _
  rw [notices_append, hn]
  exact List.append_nil _

/-- A process loop, one case for each state in which it runs. -/
theorem Notified.yield {w : LinkWorld} (h : Notified w) (hstate : w.user.state = .subscribing ∨ w.user.state = .yield)
    {env : LoopEnv} (henv : KeepsOrder core ok w env) :
    Notified (mqttClientYield ok (mqttConfig core ok w.user.config) env.pass env.rest w).2 := by
  have hidle : w.user.state ≠ .idle := by rcases hstate with hs | hs <;> rw [hs] <;> simp
  have hmanual := h.automatic hidle
  have hreads : Reads w (processLoop core ok env w).2 := processLoop_reads env w
  obtain ⟨hconfig, hkeep, es, htrace, hnotices, hchange⟩ := hreads
  have hsame : notices (processLoop core ok env w).2.trace = notices w.trace := by
    rw [htrace, notices_append, hnotices, List.append_nil]
  have hconfigs := h.config
  rw [← hconfig] at hconfigs
  rw [yield_eq]
  by_cases hstatus : (processLoop core ok env w).1 = .success
  · rw [if_pos hstatus]
    rcases hstate with hs | hs
    · -- at most the acknowledgement has come
      have hafter : (processLoop core ok env w).2.user.state = .subscribing ∨
          (processLoop core ok env w).2.user.state = .subscribeComplete := by
        rcases hchange with hc | ⟨hc, -⟩
        · exact Or.inl (hc.trans hs)
        · exact Or.inr hc
      refine ⟨hconfigs, fun _ => hkeep.trans hmanual, ?_, fun hup => ?_, fun _ => ?_⟩
      · rcases hafter with hc | hc <;> rw [hc] <;> simp
      · rcases hafter with hc | hc <;> rw [hc] at hup <;> cases hup
      · rw [hsame]
        exact h.down (by rw [hs]; simp)
    · -- the session stays up
      have hafter : (processLoop core ok env w).2.user.state = .yield := by
        rcases hchange with hc | ⟨-, id, result, before, after, hmem, hid⟩
        · exact hc.trans hs
        · exact absurd hid (henv.up hs hstatus es id result before after htrace hmem)
      refine ⟨hconfigs, fun _ => hkeep.trans hmanual, by rw [hafter]; simp, fun _ => ?_, fun hdown => ?_⟩
      · rw [hsame]
        exact h.up hs
      · exact absurd hafter hdown
  · rw [if_neg hstatus]
    have hs : w.user.state = .yield := by
      rcases hstate with hs | hs
      · exact absurd (henv.subscribing hs) hstatus
      · exact hs
    have hconnecting : (processLoop core ok env w).2.user.afterDisconnect.state = .connecting :=
      if_pos (hkeep.trans hmanual)
    refine ⟨hconfigs, fun _ => hkeep.trans hmanual, ?_, fun hup => ?_, fun _ => ?_⟩
    · show (processLoop core ok env w).2.user.afterDisconnect.state ≠ .reconnect
      rw [hconnecting]
      simp
    · have hup' : (processLoop core ok env w).2.user.afterDisconnect.state = .yield := hup
      rw [hconnecting] at hup'
      cases hup'
    · obtain ⟨n, hn⟩ := h.up hs
      refine ⟨n + 1, ?_⟩
      show notices ((processLoop core ok env w).2.trace ++ _) = _
      rw [notices_append, hsame, hn, notices_disconnectEvents hconfigs.2, sessions_succ, List.append_assoc]
      rfl

theorem Notified.loop {w w' : LinkWorld} (h : Notified w) {env : LoopEnv} (henv : KeepsOrder core ok w env)
    (hloop : tuyaMqttLoop core ok env w = some w') : Notified w' := by
  cases tuyaMqttLoop_step hloop with
  | idle _ => exact h
  | failed _ hes => exact h.failedConnect hes
  | connected hstate _ =>
    exact notified_subscribed h (by rw [hstate]; simp) (h.automatic (by rw [hstate]; simp)) _ _ _ _
  | yield hstate => exact h.yield hstate henv
  | complete hstate =>
    refine ⟨h.config, fun _ => h.automatic (by rw [hstate]; simp), by simp, fun _ => ?_, fun hdown => ?_⟩
    · obtain ⟨n, hn⟩ := h.down (by rw [hstate]; simp)
      refine ⟨n, ?_⟩
      show notices (w.trace ++ _) = _
      rw [if_pos h.config.1, notices_append, hn]
      rfl
    · exact absurd rfl hdown
  | reconnect hstate => exact absurd hstate h.reconnect

theorem Notified.connect {w w' : LinkWorld} (h : Notified w) (hidle : w.user.state = .idle) {env : ConnectEnv} {rc : Int}
    (hconnect : tuyaMqttConnect core ok env w = some (rc, w')) : Notified w' := by
  have hmanual : Notified { w with user := { w.user with manualDisconnect := false } } :=
    ⟨h.config, fun _ => rfl, h.reconnect, h.up, h.down⟩
  cases tuyaMqttConnect_step hconnect with
  | uninit _ => exact h
  | failed _ hes => exact hmanual.failedConnect hes
  | connected _ _ => exact notified_subscribed hmanual (by rw [hidle]; simp) rfl _ _ _ _

theorem Notified.report {w w' : LinkWorld} (h : Notified w) {env : ReportEnv D}
    (hreport : telemetryReport text env w = some w') : Notified w' := by
  rcases telemetryReport_cases hreport with rfl | ⟨-, json, rc, hsend⟩
  · exact h
  · obtain ⟨mqclient, n, es, hes, rfl⟩ := tuyaClientReport_cases hsend
    have hsame : notices (w.trace ++ es) = notices w.trace := by
      rcases hes with rfl | ⟨id, topic, payload, rfl⟩
      · rw [List.append_nil]
      · rw [notices_append]
        exact List.append_nil _
    refine ⟨h.config, h.automatic, h.reconnect, fun hs => ?_, fun hs => ?_⟩
    · rw [hsame]
      exact h.up hs
    · rw [hsame]
      exact h.down hs

theorem notified_initialWorld (deviceId deviceSecret : CString) (auth : TuyaMqttAuth) (client : Nat)
    (heap : MessageHeap) : Notified (initialWorld (tuyaClientConfig deviceId deviceSecret) auth client heap) where
  config := ⟨rfl, rfl⟩
  automatic h := absurd rfl h
  reconnect h := by cases h
  up h := by cases h
  down _ := ⟨0, rfl⟩

/-! ### Runs -/

/-- In every run whose loops keep the order, the notifications alternate. -/
theorem guardedRun_alternates {w : LinkWorld}
    (h : GuardedRun core ok text (fun _ => True) (KeepsOrder core ok) w) : Alternates w.trace := by
  suffices hnotified : Notified w from hnotified.alternates
  induction h with
  | init hinit =>
    obtain ⟨auth, client, heap, rfl⟩ := tuyaMqttInit_spec hinit
    exact notified_initialWorld _ _ auth client heap
  | connect hinit _ hconnect =>
    obtain ⟨auth, client, heap, rfl⟩ := tuyaMqttInit_spec hinit
    exact (notified_initialWorld _ _ auth client heap).connect rfl hconnect
  | loop _ henv hloop ih => exact ih.loop henv hloop
  | report _ hreport ih => exact ih.report hreport

/-! ### Two runs -/

theorem processLoop_of_yield {env : LoopEnv} {w : LinkWorld}
    (h : (mqttClientYield ok (mqttConfig core ok w.user.config) env.pass env.rest w).1 = .success) :
    (processLoop core ok env w).1 = .success := by
  by_contra hstatus
  have hfailed : (mqttClientYield ok (mqttConfig core ok w.user.config) env.pass env.rest w).1 = .networkTimeout :=
    congrArg Prod.fst (if_pos hstatus)
  rw [h] at hfailed
  cases hfailed

/-- The session comes up. -/
theorem guardedRun_alternates_up : ∃ w : LinkWorld, notices w.trace = [.onConnected] ∧ Alternates w.trace := by
  obtain ⟨auth, heap, hinit⟩ := exampleInit_succeeds
  have hyield := yield_suback asciiJson (fun _ => true) exampleContext.config (subackPass 1 1) rfl rfl rfl
    (show _ = (_, 1) by decide) (Or.inl rfl) (subscribingWorld auth heap)
  have hsuback : tuyaClientLoop asciiJson (fun _ => true) ⟨⟨true, .success, .success⟩, subackPass 1 1, []⟩
      (subscribingWorld auth heap) = some (afterSuback 1 .success (subscribingWorld auth heap)) := by
    show some (mqttClientYield _ (mqttConfig asciiJson (fun _ => true) exampleContext.config) _ _ _).2 = _
    rw [hyield]
  have horder : KeepsOrder asciiJson (fun _ => true) (subscribingWorld auth heap)
      ⟨⟨true, .success, .success⟩, subackPass 1 1, []⟩ :=
    ⟨fun _ => processLoop_of_yield (congrArg Prod.fst hyield), fun hup => (by cases hup)⟩
  obtain ⟨w, hcomplete, htrace⟩ : ∃ w : LinkWorld,
      tuyaClientLoop asciiJson (fun _ => true) ⟨⟨true, .success, .success⟩, subackPass 1 1, []⟩
        (afterSuback 1 .success (subscribingWorld auth heap)) = some w ∧
      w.trace = (afterSuback 1 .success (subscribingWorld auth heap)).trace ++ [.onConnected] := ⟨_, rfl, rfl⟩
  have horder' : KeepsOrder asciiJson (fun _ => true) (afterSuback 1 .success (subscribingWorld auth heap))
      ⟨⟨true, .success, .success⟩, subackPass 1 1, []⟩ :=
    ⟨fun hs => (by cases hs), fun hs => (by cases hs)⟩
  have hrun : GuardedRun asciiJson (fun _ => true) flatText (fun _ => True) (KeepsOrder asciiJson fun _ => true) w :=
    ((GuardedRun.connect hinit trivial (exampleConnect_succeeds auth heap)).loop horder hsuback).loop horder' hcomplete
  have hnotices : notices w.trace = [.onConnected] := by
    rw [htrace]
    rfl
  exact ⟨w, hnotices, guardedRun_alternates hrun⟩

/-- The session is lost before the SUBACK has come. -/
theorem not_alternates_subscribing : ¬ ∀ w,
    GuardedRun asciiJson (fun _ => true) flatText (fun _ => True) (fun _ _ => True) w → Alternates w.trace := by
  intro h
  obtain ⟨auth, heap, hinit⟩ := exampleInit_succeeds
  have hloop : tuyaClientLoop asciiJson (fun _ => true)
      ⟨⟨true, .success, .success⟩, { subackPass 1 1 with header := .recvFailed }, []⟩ (subscribingWorld auth heap) =
      some { subscribingWorld auth heap with
        user := (subscribingWorld auth heap).user.afterDisconnect
        trace := (subscribingWorld auth heap).trace ++ disconnectEvents exampleContext.config } := by
    show some (mqttClientYield _ (mqttConfig asciiJson (fun _ => true) exampleContext.config) _ _ _).2 = _
    rw [yield_recvFailed _ _ _ rfl]
    rfl
  obtain ⟨n, hprefix⟩ := h _
    ((GuardedRun.connect hinit trivial (exampleConnect_succeeds auth heap)).loop trivial hloop)
  have hnotices : notices ((subscribingWorld auth heap).trace ++ disconnectEvents exampleContext.config) =
      [.onDisconnect] := rfl
  rw [hnotices] at hprefix
  cases n with
  | zero => exact absurd hprefix (by decide)
  | succ n =>
    obtain ⟨rest, hrest⟩ := hprefix
    cases hrest

end TuyaDaemon
