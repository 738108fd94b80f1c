import TuyaDaemon.Link.LinkSteps

/-!
# Which SUBACK counts as the automatic subscription

The middleware hands the identifier of a SUBACK to the link core and keeps its result to itself, and the link core
compares the identifier with a field that is `0` when nothing is pending.  Every SUBACK of every run is handled by
`mqttClientSubscribedCb` (`clientRun_handled`), so a refused filter counts like a granted one, and so does the
identifier `0`; `countsGranted_iff` is exactly when a SUBACK of a run is handled as it should be.
-/

namespace TuyaDaemon

open CLib

/-- A SUBACK in the trace was handled by the callback of the link core. -/
def Event.Handled : Event TuyaMqttContext → Prop
  | .suback id _ before after => after = mqttClientSubscribedCb id before
  | _ => True

/-- Every SUBACK so far was handled by the callback of the link core. -/
def Handled (w : LinkWorld) : Prop := ∀ e ∈ w.trace, e.Handled

section Steps

variable {core : CoreJson} {ok : Nat → Bool}

theorem handled_append {trace es : List (Event TuyaMqttContext)} (h : ∀ e ∈ trace, e.Handled)
    (hes : ∀ e ∈ es, e.Handled) : ∀ e ∈ trace ++ es, e.Handled := by
  intro e he
  rcases List.mem_append.1 he with he | he
  · exact h e he
  · exact hes e he

theorem Event.FailedConnect.handled {e : Event TuyaMqttContext} (h : e.FailedConnect) : e.Handled := by
  cases e with
  | suback id result before after => exact h.elim
  | _ => trivial

theorem disconnectEvents_handled (config : TuyaMqttConfig) : ∀ e ∈ disconnectEvents config, e.Handled := by
  intro e he
  unfold disconnectEvents at he
  by_cases hon : config.onDisconnect = true
  · simp only [hon, ite_true, List.cons_append, List.nil_append, List.mem_cons, List.not_mem_nil, or_false] at he
    rcases he with rfl | rfl | rfl <;> trivial
  · simp only [hon, ite_false, List.append_nil, List.mem_cons, List.not_mem_nil, or_false, Bool.false_eq_true] at he
    rcases he with rfl | rfl <;> trivial

/-- What a yield reads is handled. -/
theorem handled_invariant : LinkInvariant Handled := by
  refine ⟨?_, ?_, ?_⟩
  · intro w mqclient heap _ hw
    exact hw
  · intro w hw
    exact handled_append hw (by simp [Event.Handled])
  · intro msgid result w hw
    exact handled_append hw (by simp [Event.Handled])

theorem yield_handled (config : TuyaMqttConfig) (pass : Pass) (rest : List Pass) {w : LinkWorld} (hw : Handled w) :
    Handled (mqttClientYield ok (mqttConfig core ok config) pass rest w).2 := by
  rcases handled_invariant.yield config pass rest hw with hkeep | ⟨w₁, hw₁, hdisc⟩
  · exact hkeep
  · rw [hdisc]
    exact handled_append hw₁ (disconnectEvents_handled _)

theorem disconnect_handled (config : TuyaMqttConfig) {w : LinkWorld} (hw : Handled w) :
    Handled (mqttClientDisconnect (mqttConfig core ok config) w) := by
  rw [linkDisconnect_eq]
  exact handled_append hw (disconnectEvents_handled _)

theorem connect_handled {env : ConnectEnv} {w w' : LinkWorld} {rc : Int} (hw : Handled w)
    (h : tuyaMqttConnect core ok env w = some (rc, w')) : Handled w' := by
  cases tuyaMqttConnect_step h with
  | uninit _ => exact hw
  | failed _ hes => exact handled_append hw fun e he => (hes e he).handled
  | connected _ _ => exact handled_append hw (by simp [Event.Handled])

theorem loop_handled {env : LoopEnv} {w w' : LinkWorld} (hw : Handled w) (h : tuyaMqttLoop core ok env w = some w') :
    Handled w' := by
  cases tuyaMqttLoop_step h with
  | idle _ => exact hw
  | failed _ hes => exact handled_append hw fun e he => (hes e he).handled
  | connected _ _ => exact handled_append hw (by simp [Event.Handled])
  | yield _ => exact yield_handled _ _ _ hw
  | complete _ =>
    refine handled_append hw ?_
    split <;> simp [Event.Handled]
  | reconnect _ => exact handled_append hw (disconnectEvents_handled _)

/-- What one call preserves. -/
theorem call_handled {call : ClientCall} {w w' : LinkWorld} (hw : Handled w) (h : call.run core ok w = some w') :
    Handled w' := by
  cases call with
  | connect env =>
    simp only [ClientCall.run, Option.map_eq_some_iff] at h
    obtain ⟨⟨rc, w₁⟩, hconnect, rfl⟩ := h
    exact connect_handled hw hconnect
  | disconnect =>
    cases h
    unfold tuyaMqttDisconnect
    split
    · exact hw
    · exact disconnect_handled w.user.config hw
  | loop env => exact loop_handled hw h
  | send env publish message =>
    simp only [ClientCall.run, Option.map_eq_some_iff] at h
    obtain ⟨⟨rc, w₁⟩, hsend, rfl⟩ := h
    obtain ⟨mqclient, n, es, hes, rfl⟩ := sendOver_cases hsend
    refine handled_append hw ?_
    rcases hes with rfl | ⟨id, topic, payload, rfl⟩ <;> simp [Event.Handled]
  | register subscribe topic cb =>
    simp only [ClientCall.run, Option.map_eq_some_iff] at h
    obtain ⟨⟨rc, w₁⟩, hregister, rfl⟩ := h
    obtain ⟨mqclient, subs, heap, es, hes, rfl⟩ := register_cases hregister
    refine handled_append hw ?_
    rcases hes with rfl | ⟨id, sent, rfl⟩ <;> simp [Event.Handled]
  | unregister unsubscribe topic =>
    cases h
    obtain ⟨mqclient, subs, heap, id, sent, hworld⟩ := unregister_cases unsubscribe topic w
    rw [hworld]
    exact handled_append hw (by simp [Event.Handled])

/-- What a run preserves, by induction on its calls. -/
theorem clientRun_handled {w : LinkWorld} (h : ClientRun core ok w) : Handled w := by
  induction h with
  | init hinit =>
    obtain ⟨auth, client, heap, rfl⟩ := tuyaMqttInit_spec hinit
    intro e he
    cases he
  | step _ hcall ih => exact call_handled ih hcall

end Steps

/-! ### Granted subscriptions -/

/-- The SUBACK grants the subscription that is pending. -/
def Grants (id : UInt16) (result : MQTTStatus) (before : TuyaMqttContext) : Prop :=
  before.autoSubscribeId ≠ 0 ∧ id = before.autoSubscribeId ∧ result = .success

/-- A SUBACK completes the subscription when it grants it, and changes nothing otherwise. -/
structure CountsGranted (id : UInt16) (result : MQTTStatus) (before after : TuyaMqttContext) : Prop where
  granted : Grants id result before → after.state = .subscribeComplete ∧ after.autoSubscribeEnabled = true
  other : ¬ Grants id result before → after.state = before.state ∧
    after.autoSubscribeId = before.autoSubscribeId ∧ after.autoSubscribeEnabled = before.autoSubscribeEnabled

/-- Another identifier, a subscription that was granted, or the identifier `0` in a context that is complete. -/
def SubackSafe (id : UInt16) (result : MQTTStatus) (before : TuyaMqttContext) : Prop :=
  id ≠ before.autoSubscribeId ∨ (id ≠ 0 ∧ result = .success) ∨
    (id = 0 ∧ before.state = .subscribeComplete ∧ before.autoSubscribeEnabled = true)

theorem subscribedCb_countsGranted_iff (id : UInt16) (result : MQTTStatus) (before : TuyaMqttContext) :
    CountsGranted id result before (mqttClientSubscribedCb id before) ↔ SubackSafe id result before := by
  by_cases hid : id = before.autoSubscribeId
  · -- the callback completes the subscription, so the SUBACK had to grant it or find it complete
    have hcb : mqttClientSubscribedCb id before =
        { before with autoSubscribeId := 0, autoSubscribeEnabled := true, state := .subscribeComplete } :=
      if_pos hid
    rw [hcb]
    constructor
    · intro h
      by_cases hg : Grants id result before
      · right; left
        exact ⟨hid ▸ hg.1, hg.2.2⟩
      · right; right
        obtain ⟨hstate, hauto, henabled⟩ := h.other hg
        exact ⟨hid.trans hauto.symm, hstate.symm, henabled.symm⟩
    · rintro (hne | ⟨hnz, hok⟩ | ⟨hz, hstate, henabled⟩)
      · exact absurd hid hne
      · have hg : Grants id result before := ⟨hid ▸ hnz, hid, hok⟩
        exact ⟨fun _ => ⟨rfl, rfl⟩, fun hng => absurd hg hng⟩
      · refine ⟨fun hg => absurd (hid.symm.trans hz) hg.1, fun _ => ?_⟩
        exact ⟨hstate.symm, hz.symm.trans hid, henabled.symm⟩
  · have hcb : mqttClientSubscribedCb id before = before := if_neg hid
    rw [hcb]
    constructor
    · intro _
      exact Or.inl hid
    · intro _
      exact ⟨fun hg => absurd hg.2.1 hid, fun _ => ⟨rfl, rfl, rfl⟩⟩

/-- In every run, a SUBACK is counted as it should be exactly when it is safe. -/
theorem countsGranted_iff {core : CoreJson} {ok : Nat → Bool} {w : LinkWorld} (h : ClientRun core ok w) {id : UInt16}
    {result : MQTTStatus} {before after : TuyaMqttContext} (he : Event.suback id result before after ∈ w.trace) :
    CountsGranted id result before after ↔ SubackSafe id result before := by
  have hafter : after = mqttClientSubscribedCb id before := clientRun_handled h _ he
  rw [hafter]
  exact subscribedCb_countsGranted_iff id result before

/-! ### A run that subscribes -/

/-- An HMAC that does not look at its arguments; a run does not depend on it. -/
def constantHmac : Hmac := ⟨fun _ _ => List.replicate 32 0, fun _ _ => rfl, fun _ _ _ => rfl⟩

/-- The world behind an initialisation and a connect, with the subscription `1` pending. -/
def subscribingWorld (auth : TuyaMqttAuth) (heap : MessageHeap) : LinkWorld where
  mqclient := ⟨2, 100, 0, 0, false⟩
  user := { exampleContext with
    mqttAuth := auth
    mqttClient := some 0
    autoSubscribeId := 1
    state := .subscribing }
  heap := heap
  trace := [.networkConnect true, .mqttConnect .success, .subscribe 1 (autoSubscribeText (bytes "x")) .success]

theorem exampleInit_succeeds : ∃ auth heap,
    tuyaMqttInit (fun _ => true) constantHmac ⟨exampleAuthEnv, true⟩ exampleContext.config ⟨0, []⟩ =
      .ok (oprtOk, initialWorld exampleContext.config auth 0 heap) := by
  obtain ⟨auth, hauth, -, -⟩ := signature_ok constantHmac
    (buffersSuffice_of_short (show exampleContext.config.deviceId.chars.length ≤ 57 by decide) exampleAuthEnv.timestamp)
    (Or.inr (show 15 ≤ exampleContext.config.deviceSecret.chars.length by decide))
  obtain ⟨heap, hinit⟩ := tuyaMqttInit_succeeds (fun _ => true) ⟨exampleAuthEnv, true⟩ ⟨0, []⟩ hauth rfl rfl
  exact ⟨auth, heap, hinit⟩

theorem exampleConnect_succeeds (auth : TuyaMqttAuth) (heap : MessageHeap) :
    tuyaMqttConnect asciiJson (fun _ => true) ⟨true, .success, .success⟩
      (initialWorld exampleContext.config auth 0 heap) = some (oprtOk, subscribingWorld auth heap) := rfl

/-- A pass that reads a SUBACK for one filter. -/
def subackPass (id code : UInt8) : Pass :=
  ⟨.success, .success, ⟨mqttPacketTypeSuback, [0, id, code]⟩, 0, 0, true, .success, .success⟩

theorem subscribingRun : ∃ auth heap, ClientRun asciiJson (fun _ => true) (subscribingWorld auth heap) := by
  obtain ⟨auth, heap, hinit⟩ := exampleInit_succeeds
  have hconnect : (ClientCall.connect ⟨true, .success, .success⟩).run asciiJson (fun _ => true)
      (initialWorld exampleContext.config auth 0 heap) = some (subscribingWorld auth heap) :=
    congrArg (Option.map Prod.snd) (exampleConnect_succeeds auth heap)
  exact ⟨auth, heap, (ClientRun.init hinit).step hconnect⟩

/-- The run goes on with a SUBACK. -/
theorem subackRun (id code : UInt8) {msgid : UInt16} {status : MQTTStatus}
    (hack : mqttDeserializeAck (subackPass id code).packet = (status, msgid))
    (hstatus : status = .success ∨ status = .serverRefused) :
    ∃ auth heap, ClientRun asciiJson (fun _ => true) (afterSuback msgid status (subscribingWorld auth heap)) := by
  obtain ⟨auth, heap, hrun⟩ := subscribingRun
  have hyield := yield_suback asciiJson (fun _ => true) exampleContext.config (subackPass id code) rfl rfl rfl
    hack hstatus (subscribingWorld auth heap)
  have hloop : (ClientCall.loop ⟨⟨true, .success, .success⟩, subackPass id code, []⟩).run asciiJson (fun _ => true)
      (subscribingWorld auth heap) = some (afterSuback msgid status (subscribingWorld auth heap)) := by
    show some (mqttClientYield _ (mqttConfig asciiJson (fun _ => true) exampleContext.config) _ _ _).2 = _
    rw [hyield]
  exact ⟨auth, heap, hrun.step hloop⟩

theorem countsGranted_iff_granted : ∃ (w : LinkWorld) (before after : TuyaMqttContext),
    Event.suback 1 .success before after ∈ w.trace ∧
      (CountsGranted 1 .success before after ↔ SubackSafe 1 .success before) := by
  obtain ⟨auth, heap, hrun⟩ := subackRun 1 1 (show _ = (_, 1) by decide) (Or.inl rfl)
  have he := suback_mem 1 .success (subscribingWorld auth heap)
  exact ⟨_, _, _, he, countsGranted_iff hrun he⟩

/-- The broker refuses the filter with the code `0x80`. -/
theorem not_countsGranted_refused : ¬ ∀ w, ClientRun asciiJson (fun _ => true) w → ∀ id result before after,
    Event.suback id result before after ∈ w.trace → CountsGranted id result before after := by
  intro h
  obtain ⟨auth, heap, hrun⟩ := subackRun 1 0x80 (show _ = (_, 1) by decide) (Or.inr rfl)
  have hcounts := h _ hrun _ _ _ _ (suback_mem 1 .serverRefused (subscribingWorld auth heap))
  have hstate := (hcounts.other (by simp [Grants])).1
  cases hstate

end TuyaDaemon
