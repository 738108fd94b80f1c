import TuyaDaemon.Link.SubackHandling
import TuyaDaemon.Mqtt.LoopFaults

/-!
# The end of the stream

What a loop of a context that is up does when the peer closes the stream.  The loss is seen exactly when a pass of the
process loop fails (`FaultDuring`) and the context was not disconnected by hand (`lossSeen_iff`).  At the end of the
stream no pass fails before a ping is due, so the loss of a quiet connection is not seen (`not_lossSeen_closed`).
-/

namespace TuyaDaemon

open CLib

variable {core : CoreJson} {ok : Nat → Bool}

/-- The context waits for the next connect. -/
def LossSeen (w : LinkWorld) : Prop := w.user.isConnected = false ∧ w.user.state = .connecting

/-- A call that reads from a stream. -/
def streamEnv (connect : ConnectEnv) (first : PassEnv) (rest : List PassEnv) (s : SslStream) : LoopEnv where
  connect := connect
  pass := (readPass first s).1
  rest := readPasses rest (readPass first s).2

/-! ### The context -/

theorem leavesClient (config : TuyaMqttConfig) :
    LeavesClient (coreMqttLibraryCallback ok (mqttConfig core ok config)) := by
  intro packet info w
  have hmessage : ∀ msg w, (mqttClientMessage core ok msg w).mqclient = w.mqclient := by
    intro msg w
    unfold mqttClientMessage
    split <;> rfl
  unfold coreMqttLibraryCallback
  dsimp only
  split
  · split
    · unfold handOverPublish
      dsimp only [mqttConfig]
      split
      · rfl
      · exact hmessage _ _
    · rfl
  · split
    · rfl
    · split
      · rfl
      · split <;> rfl

/-- What is read changes neither the flag nor makes the context connect. -/
theorem reading_invariant (manual : Bool) :
    LinkInvariant fun w => w.user.manualDisconnect = manual ∧ w.user.state ≠ .connecting := by
  refine .ofContext (Q := fun context => context.manualDisconnect = manual ∧ context.state ≠ .connecting)
    fun msgid context h => ⟨(mqttClientSubscribedCb_manualDisconnect msgid context).trans h.1, ?_⟩
  rcases mqttClientSubscribedCb_state msgid context with hs | hs
  · rw [hs]
    exact h.2
  · rw [hs]
    simp

theorem lossSeen_afterDisconnect_iff {w : LinkWorld} (hstate : w.user.state ≠ .connecting)
    (trace : List (Event TuyaMqttContext)) :
    LossSeen { w with user := w.user.afterDisconnect, trace := trace } ↔ w.user.manualDisconnect = false := by
  unfold LossSeen TuyaMqttContext.afterDisconnect
  dsimp only
  split
  · rename_i hmanual
    simp [hmanual]
  · rename_i hmanual
    simp [hmanual, hstate]

theorem yield_lossSeen_iff (config : TuyaMqttConfig) (first : PassEnv) (rest : List PassEnv) (s : SslStream)
    {w : LinkWorld} (hstate : w.user.state ≠ .connecting) :
    LossSeen (mqttClientYield ok (mqttConfig core ok config) (readPass first s).1
        (readPasses rest (readPass first s).2) w).2 ↔
      w.user.manualDisconnect = false ∧ FaultDuring (first :: rest) s w.mqclient := by
  have hclient : LeavesClient (coreMqttLibraryCallback ok (mqttConfig core ok config)) := leavesClient config
  have hloop := mqttProcessLoop_success_iff hclient first rest s w
  have hcallbacks : CallbackInvariant (mqttConfig core ok config) _ :=
    (reading_invariant w.user.manualDisconnect).callbacks config
  have hinv := (hcallbacks.libraryCallback ok).processLoop (readPass first s).1 (readPasses rest (readPass first s).2)
    ⟨rfl, hstate⟩
  unfold mqttClientYield
  dsimp only
  split
  · rename_i hfails
    rw [linkDisconnect_eq, lossSeen_afterDisconnect_iff hinv.2, hinv.1]
    have hfault : FaultDuring (first :: rest) s w.mqclient := by_contra fun h => hfails (hloop.2 h)
    exact ⟨fun hmanual => ⟨hmanual, hfault⟩, fun h => h.1⟩
  · rename_i hsuccess
    rw [Decidable.not_not] at hsuccess
    exact iff_of_false (fun h => hinv.2 h.2) fun h => hloop.1 hsuccess h.2

theorem tuyaMqttLoop_yield {env : LoopEnv} {w : LinkWorld} (hstate : w.user.state = .yield) :
    tuyaMqttLoop core ok env w =
      some (mqttClientYield ok (mqttConfig core ok w.user.config) env.pass env.rest w).2 := by
  unfold tuyaMqttLoop
  rw [hstate]

/-- A loop sees that the peer is gone exactly when one of its passes fails and the context was not disconnected by hand,
and a zero stands for a condition that can be retried exactly when the stream has not ended. -/
theorem lossSeen_iff {connect : ConnectEnv} {first : PassEnv} {rest : List PassEnv} {s : SslStream} {w w' : LinkWorld}
    (hstate : w.user.state = .yield) (hloop : tuyaMqttLoop core ok (streamEnv connect first rest s) w = some w') :
    (LossSeen w' ↔ w.user.manualDisconnect = false ∧ FaultDuring (first :: rest) s w.mqclient) ∧
      ∀ len s', 0 < len → (ZeroIsRetryable len s' ↔ s' ≠ []) := by
  refine ⟨?_, fun len s' hlen => zeroIsRetryable_iff hlen s'⟩
  rw [tuyaMqttLoop_yield hstate, Option.some.injEq] at hloop
  subst hloop
  exact yield_lossSeen_iff _ _ _ _ (by rw [hstate]; simp)

/-! ### Closed streams -/

/-- No read is cut short, and nothing is sent. -/
def quietEnv (now : UInt32) : PassEnv := ⟨0, [], now, now, true, .success, .success⟩

/-- The client waits for the answer to a ping that it sent at time `0`. -/
def pingingWorld (auth : TuyaMqttAuth) (heap : MessageHeap) : LinkWorld :=
  let w := subscribingWorld auth heap
  { w with
    mqclient := { w.mqclient with waitingForPingResp := true }
    user := { w.user with state := .yield, isConnected := true } }

/-- The answer is overdue. -/
theorem lossSeen_iff_overdue : ∃ w, tuyaMqttLoop asciiJson (fun _ => true)
    (streamEnv ⟨true, .success, .success⟩ (quietEnv 60001) [] []) (pingingWorld .zero ⟨0, []⟩) = some w ∧ LossSeen w := by
  refine ⟨_, tuyaMqttLoop_yield rfl, (lossSeen_iff rfl (tuyaMqttLoop_yield rfl)).1.2 ⟨rfl, Or.inl ?_⟩⟩
  exact .keepAlive .closed (.overdue (by decide) rfl (by decide))

/-- The peer has closed the stream, and no ping is due. -/
theorem not_lossSeen_closed : (¬ ∀ w, ClientRun asciiJson (fun _ => true) w → w.user.state = .yield → ∀ w',
    tuyaMqttLoop asciiJson (fun _ => true) (streamEnv ⟨true, .success, .success⟩ (quietEnv 0) [] []) w = some w' →
      LossSeen w') ∧ ¬ ZeroIsRetryable 1 [] := by
  constructor
  · intro h
    obtain ⟨auth, heap, hrun⟩ := subackRun 1 1 (show _ = (_, 1) by decide) (Or.inl rfl)
    obtain ⟨w, hcomplete, hstate, hmqclient⟩ : ∃ w : LinkWorld,
        (ClientCall.loop ⟨⟨true, .success, .success⟩, subackPass 1 1, []⟩).run asciiJson (fun _ => true)
          (afterSuback 1 .success (subscribingWorld auth heap)) = some w ∧
        w.user.state = .yield ∧ w.mqclient = ⟨2, 100, 0, 0, false⟩ := ⟨_, rfl, rfl, rfl⟩
    have hlost := (yield_lossSeen_iff _ (quietEnv 0) [] [] (by rw [hstate]; simp)).1
      (h w (hrun.step hcomplete) hstate _ (tuyaMqttLoop_yield hstate))
    rw [hmqclient] at hlost
    have hquiet : ∀ env ∈ [quietEnv 0], ¬ PingDue env.now ⟨2, 100, 0, 0, false⟩ := by
      intro env henv
      rw [List.mem_singleton] at henv
      subst henv
      unfold PingDue
      decide
    exact not_faultDuring_end rfl hquiet hlost.2
  · rw [zeroIsRetryable_iff Nat.one_pos]
    exact not_not_intro rfl

end TuyaDaemon
