import TuyaDaemon.Link.LinkSteps
import TuyaDaemon.Link.SubackHandling

/-!
# Disconnecting by hand

`tuya_mqtt_disconnect` sets `manual_disconnect` behind the disconnect, so the callback that runs inside it still sees
the value from before and puts the context back into `TUYA_STATE_CONNECTING`.  `staysDisconnected_iff` is exactly when
no later loop connects again: the flag was set already, and the state is one that a closed connection does not leave.
-/

namespace TuyaDaemon

open CLib

/-! ### The connection -/

/-- The connection after an event. -/
def networkStep (up : Bool) : Event TuyaMqttContext → Bool
  | .networkConnect ok => ok
  | .networkDisconnect => false
  | _ => up

/-- A connection is open after the events of a trace. -/
def networkUp (trace : List (Event TuyaMqttContext)) : Bool := trace.foldl networkStep false

/-- `network_tls_disconnect` releases the TLS context, and reading from it is an error from then on. -/
def LoopEnv.Readable (env : LoopEnv) (w : LinkWorld) : Prop :=
  networkUp w.trace = false → env.pass.header = .recvFailed

/-- A connect is attempted. -/
def Event.Connects : Event TuyaMqttContext → Prop
  | .networkConnect _ => True
  | .mqttConnect _ => True
  | _ => False

section Runs

variable (core : CoreJson) (ok : Nat → Bool)

/-- The worlds of a client that is initialised and then connects, loops and disconnects. -/
inductive ManualRun : LinkWorld → Prop where
  | init {hmac : Hmac} {env : InitEnv} {config : TuyaMqttConfig} {heap : MessageHeap} {w : LinkWorld} :
      tuyaMqttInit ok hmac env config heap = .ok (oprtOk, w) → ManualRun w
  | connect {env : ConnectEnv} {w w' : LinkWorld} {rc : Int} :
      ManualRun w → tuyaMqttConnect core ok env w = some (rc, w') → ManualRun w'
  | loop {env : LoopEnv} {w w' : LinkWorld} :
      ManualRun w → env.Readable w → tuyaMqttLoop core ok env w = some w' → ManualRun w'
  | disconnect {w : LinkWorld} : ManualRun w → ManualRun (tuyaMqttDisconnect core ok w).2

/-- The worlds that are reached by loops alone. -/
inductive LoopRun (w : LinkWorld) : LinkWorld → Prop where
  | refl : LoopRun w w
  | loop {env : LoopEnv} {w₁ w₂ : LinkWorld} :
      LoopRun w w₁ → env.Readable w₁ → tuyaMqttLoop core ok env w₁ = some w₂ → LoopRun w w₂

/-- No later loop connects, and the context stays disconnected. -/
def StaysDisconnected (w : LinkWorld) : Prop :=
  ∀ w', LoopRun core ok w w' →
    w'.user.isConnected = false ∧ ∃ es, w'.trace = w.trace ++ es ∧ ∀ e ∈ es, ¬ e.Connects

end Runs

/-- A disconnect by hand holds from here: the flag is set, and the state is not one that goes on by itself. -/
def HoldsByHand (context : TuyaMqttContext) : Prop :=
  context.manualDisconnect = true ∧
    (context.state = .idle ∨ context.state = .subscribing ∨ context.state = .yield)

section Steps

variable {core : CoreJson} {ok : Nat → Bool}

theorem networkUp_append (trace es : List (Event TuyaMqttContext)) :
    networkUp (trace ++ es) = es.foldl networkStep (networkUp trace) := List.foldl_append

theorem networkUp_disconnectEvents (config : TuyaMqttConfig) (trace : List (Event TuyaMqttContext)) :
    networkUp (trace ++ disconnectEvents config) = false := by
  rw [networkUp_append]
  unfold disconnectEvents
  split <;> rfl

theorem disconnectEvents_not_connects (config : TuyaMqttConfig) : ∀ e ∈ disconnectEvents config, ¬ e.Connects := by
  intro e he
  simp only [disconnectEvents, List.mem_append, List.mem_cons, List.not_mem_nil, or_false] at he
  rcases he with (rfl | rfl) | he
  · exact id
  · exact id
  · split at he
    · rw [List.mem_singleton.1 he]
      exact id
    · cases he

/-! ### A closed connection -/

/-- The connection is closed, and the context stays as it is. -/
structure Closed (w : LinkWorld) : Prop where
  holds : HoldsByHand w.user
  network : networkUp w.trace = false
  connected : w.user.isConnected = false

theorem HoldsByHand.afterDisconnect {context : TuyaMqttContext} (h : HoldsByHand context) :
    HoldsByHand context.afterDisconnect := by
  obtain ⟨hmanual, hstate⟩ := h
  have hkeep : context.afterDisconnect.state = context.state := if_neg (by simp [hmanual])
  refine ⟨hmanual, ?_⟩
  rw [hkeep]
  exact hstate

/-- What one loop preserves on a closed connection, and the events that it adds. -/
theorem Closed.loop {w w' : LinkWorld} (h : Closed w) {env : LoopEnv} (henv : env.Readable w)
    (hloop : tuyaMqttLoop core ok env w = some w') :
    Closed w' ∧ ∃ es, w'.trace = w.trace ++ es ∧ ∀ e ∈ es, ¬ e.Connects := by
  have hpass := henv h.network
  cases tuyaMqttLoop_step hloop with
  | idle _ => exact ⟨h, [], by simp, by simp⟩
  | yield _ =>
    rw [yield_recvFailed _ _ _ hpass]
    exact ⟨⟨h.holds.afterDisconnect, networkUp_disconnectEvents _ _, rfl⟩, _, rfl, disconnectEvents_not_connects _⟩
  | failed hstate _ =>
    obtain ⟨-, hkeep⟩ := h.holds
    simp [hstate] at hkeep
  | connected hstate _ =>
    obtain ⟨-, hkeep⟩ := h.holds
    simp [hstate] at hkeep
  | complete hstate =>
    obtain ⟨-, hkeep⟩ := h.holds
    simp [hstate] at hkeep
  | reconnect hstate =>
    obtain ⟨-, hkeep⟩ := h.holds
    simp [hstate] at hkeep

/-- A closed connection stays closed, by induction on the loops. -/
theorem Closed.run {w w' : LinkWorld} (h : Closed w) (hrun : LoopRun core ok w w') :
    Closed w' ∧ ∃ es, w'.trace = w.trace ++ es ∧ ∀ e ∈ es, ¬ e.Connects := by
  induction hrun with
  | refl => exact ⟨h, [], by simp, by simp⟩
  | loop _ henv hloop ih =>
    obtain ⟨h₁, es₁, htrace₁, hes₁⟩ := ih
    obtain ⟨h₂, es₂, htrace₂, hes₂⟩ := h₁.loop henv hloop
    refine ⟨h₂, es₁ ++ es₂, by rw [htrace₂, htrace₁, List.append_assoc], ?_⟩
    intro e he
    rcases List.mem_append.1 he with he | he
    · exact hes₁ e he
    · exact hes₂ e he

theorem Closed.staysDisconnected {w : LinkWorld} (h : Closed w) : StaysDisconnected core ok w := by
  intro w' hrun
  obtain ⟨hclosed, hes⟩ := h.run hrun
  exact ⟨hclosed.connected, hes⟩

/-! ### States that go on by themselves -/

/-- A loop whose reads and connects fail. -/
def failingLoop : LoopEnv :=
  ⟨⟨true, .recvFailed, .success⟩, ⟨.recvFailed, .success, ⟨0, []⟩, 0, 0, true, .success, .success⟩, []⟩

theorem failingLoop_readable (w : LinkWorld) : failingLoop.Readable w := fun _ => rfl

/-- A context that gets to connecting tries to connect in its next loop. -/
theorem not_staysDisconnected_of_connecting {w w₁ : LinkWorld} (hrun : LoopRun core ok w w₁)
    {es₁ : List (Event TuyaMqttContext)} (htrace₁ : w₁.trace = w.trace ++ es₁) (hstate : w₁.user.state = .connecting) :
    ¬ StaysDisconnected core ok w := by
  intro h
  have hloop : tuyaMqttLoop core ok failingLoop w₁ =
      some { w₁ with trace := w₁.trace ++ [.networkConnect true] ++ [.mqttConnect .recvFailed] ++
        [.networkDisconnect] } := by
    simp only [tuyaMqttLoop, hstate]
    rfl
  obtain ⟨-, es, htrace, hes⟩ := h _ (hrun.loop (failingLoop_readable w₁) hloop)
  have hnew : es = es₁ ++ [.networkConnect true] ++ [.mqttConnect .recvFailed] ++ [.networkDisconnect] := by
    rw [htrace₁] at htrace
    simpa using htrace.symm
  exact hes (.networkConnect true) (by simp [hnew]) trivial

theorem holdsByHand_of_staysDisconnected {w : LinkWorld} (hstate : w.user.state ≠ .uninit)
    (h : StaysDisconnected core ok (tuyaMqttDisconnect core ok w).2) : HoldsByHand w.user := by
  have hworld : (tuyaMqttDisconnect core ok w).2 = { w with
      user := { w.user.afterDisconnect with manualDisconnect := true }
      trace := w.trace ++ disconnectEvents w.user.config } := by
    unfold tuyaMqttDisconnect
    rw [if_neg hstate, linkDisconnect_eq]
  rw [hworld] at h
  have hmanual : w.user.manualDisconnect = true := by
    by_contra hmanual
    rw [Bool.not_eq_true] at hmanual
    -- the callback went back to connecting
    refine not_staysDisconnected_of_connecting .refl (List.append_nil _).symm ?_ h
    exact if_pos hmanual
  refine ⟨hmanual, ?_⟩
  have hkeep : w.user.afterDisconnect.state = w.user.state := if_neg (by simp [hmanual])
  cases hs : w.user.state with
  | uninit => exact absurd hs hstate
  | idle => exact Or.inl rfl
  | subscribing => exact Or.inr (Or.inl rfl)
  | yield => exact Or.inr (Or.inr rfl)
  | connecting =>
    exact absurd h (not_staysDisconnected_of_connecting .refl (List.append_nil _).symm (hkeep.trans hs))
  | subscribeComplete =>
    -- the next loop says that it is connected
    have hloop : ∃ w', tuyaMqttLoop core ok failingLoop { w with
        user := { w.user.afterDisconnect with manualDisconnect := true }
        trace := w.trace ++ disconnectEvents w.user.config } = some w' ∧ w'.user.isConnected = true := by
      simp only [tuyaMqttLoop, hkeep, hs]
      refine ⟨_, rfl, ?_⟩
      split <;> rfl
    obtain ⟨w', hw', hconnected⟩ := hloop
    have hfalse := (h w' (.loop .refl (failingLoop_readable _) hw')).1
    rw [hconnected] at hfalse
    cases hfalse
  | reconnect =>
    have hloop : ∃ w', tuyaMqttLoop core ok failingLoop { w with
        user := { w.user.afterDisconnect with manualDisconnect := true }
        trace := w.trace ++ disconnectEvents w.user.config } = some w' ∧ w'.user.state = .connecting ∧
          ∃ es, w'.trace = w.trace ++ disconnectEvents w.user.config ++ es := by
      simp only [tuyaMqttLoop, hkeep, hs]
      refine ⟨_, rfl, rfl, disconnectEvents w.user.config, ?_⟩
      rw [linkDisconnect_eq]
      rfl
    obtain ⟨w', hw', hstate', es, htrace⟩ := hloop
    exact absurd h
      (not_staysDisconnected_of_connecting (.loop .refl (failingLoop_readable _) hw') htrace hstate')

theorem staysDisconnected_of_holdsByHand {w : LinkWorld} (hstate : w.user.state ≠ .uninit) (h : HoldsByHand w.user) :
    StaysDisconnected core ok (tuyaMqttDisconnect core ok w).2 := by
  apply Closed.staysDisconnected
  unfold tuyaMqttDisconnect
  rw [if_neg hstate, linkDisconnect_eq]
  refine ⟨⟨rfl, h.afterDisconnect.2⟩, networkUp_disconnectEvents _ _, rfl⟩

/-! ### Runs -/

/-- An initialised context stays initialised. -/
theorem initialised_invariant : LinkInvariant fun w => w.user.state ≠ .uninit := by
  refine .ofContext (Q := fun context => context.state ≠ .uninit) fun msgid context h => ?_
  rcases mqttClientSubscribedCb_state msgid context with hs | hs
  · rw [hs]
    exact h
  · rw [hs]
    simp

theorem afterDisconnect_initialised {context : TuyaMqttContext} (h : context.state ≠ .uninit) :
    context.afterDisconnect.state ≠ .uninit := by
  unfold TuyaMqttContext.afterDisconnect
  dsimp only
  split
  · simp
  · exact h

theorem loop_initialised {env : LoopEnv} {w w' : LinkWorld} (hw : w.user.state ≠ .uninit)
    (h : tuyaMqttLoop core ok env w = some w') : w'.user.state ≠ .uninit := by
  cases tuyaMqttLoop_step h with
  | idle _ => exact hw
  | failed _ _ => exact hw
  | connected _ _ => simp [subscribed]
  | yield _ =>
    rcases initialised_invariant.yield w.user.config env.pass env.rest hw with hkeep | ⟨w₁, hw₁, hdisc⟩
    · exact hkeep
    · rw [hdisc]
      exact afterDisconnect_initialised hw₁
  | complete _ => simp
  | reconnect _ => simp

theorem connect_initialised {env : ConnectEnv} {w w' : LinkWorld} {rc : Int} (hw : w.user.state ≠ .uninit)
    (h : tuyaMqttConnect core ok env w = some (rc, w')) : w'.user.state ≠ .uninit := by
  cases tuyaMqttConnect_step h with
  | uninit _ => exact hw
  | failed _ _ => exact hw
  | connected _ _ => simp [subscribed]

theorem disconnect_initialised {w : LinkWorld} (hw : w.user.state ≠ .uninit) :
    (tuyaMqttDisconnect core ok w).2.user.state ≠ .uninit := by
  unfold tuyaMqttDisconnect
  rw [if_neg hw, linkDisconnect_eq]
  exact afterDisconnect_initialised hw

theorem manualRun_initialised {w : LinkWorld} (h : ManualRun core ok w) : w.user.state ≠ .uninit := by
  induction h with
  | init hinit =>
    obtain ⟨auth, client, heap, rfl⟩ := tuyaMqttInit_spec hinit
    simp [initialWorld]
  | connect _ hconnect ih => exact connect_initialised ih hconnect
  | loop _ _ hloop ih => exact loop_initialised ih hloop
  | disconnect _ ih => exact disconnect_initialised ih

/-- In every state of every run, a disconnect by hand lasts exactly when the flag was set before it, and the context is
idle or in one of the two states in which it only reads. -/
theorem staysDisconnected_iff {w : LinkWorld} (h : ManualRun core ok w) :
    StaysDisconnected core ok (tuyaMqttDisconnect core ok w).2 ↔ HoldsByHand w.user :=
  ⟨holdsByHand_of_staysDisconnected (manualRun_initialised h),
    staysDisconnected_of_holdsByHand (manualRun_initialised h)⟩

end Steps

/-! ### Before and after a connect -/

/-- A client that connected, was disconnected by hand and connected again in its loop: the second disconnect lasts. -/
theorem staysDisconnected_iff_again : ∃ w,
    w.user.state = .subscribing ∧
      StaysDisconnected asciiJson (fun _ => true) (tuyaMqttDisconnect asciiJson (fun _ => true) w).2 := by
  obtain ⟨auth, heap, hinit⟩ := exampleInit_succeeds
  have hconnected : ManualRun asciiJson (fun _ => true) (subscribingWorld auth heap) :=
    .connect (.init hinit) (exampleConnect_succeeds auth heap)
  obtain ⟨w, hloop, hstate, hmanual⟩ : ∃ w,
      tuyaMqttLoop asciiJson (fun _ => true)
        ⟨⟨true, .success, .success⟩, ⟨.recvFailed, .success, ⟨0, []⟩, 0, 0, true, .success, .success⟩, []⟩
        (tuyaMqttDisconnect asciiJson (fun _ => true) (subscribingWorld auth heap)).2 = some w ∧
      w.user.state = .subscribing ∧ w.user.manualDisconnect = true := ⟨_, rfl, rfl, rfl⟩
  have hrun : ManualRun asciiJson (fun _ => true) w := .loop (.disconnect hconnected) (fun _ => rfl) hloop
  exact ⟨w, hstate, (staysDisconnected_iff hrun).2 ⟨hmanual, Or.inr (Or.inl hstate)⟩⟩

/-- A client that connected. -/
theorem not_staysDisconnected_subscribing : ¬ ∀ w, ManualRun asciiJson (fun _ => true) w →
    StaysDisconnected asciiJson (fun _ => true) (tuyaMqttDisconnect asciiJson (fun _ => true) w).2 := by
  intro h
  obtain ⟨auth, heap, hinit⟩ := exampleInit_succeeds
  have hrun : ManualRun asciiJson (fun _ => true) (subscribingWorld auth heap) :=
    .connect (.init hinit) (exampleConnect_succeeds auth heap)
  obtain ⟨hmanual, -⟩ := holdsByHand_of_staysDisconnected (manualRun_initialised hrun) (h _ hrun)
  cases hmanual

end TuyaDaemon
