import TuyaDaemon.CLib.Registry
import TuyaDaemon.Link.LinkSteps
import TuyaDaemon.Link.SubackHandling

/-!
# The subscription registry

`subscribe_list` under every sequence of calls.  The repetition filter compares the bytes of a registered topic only as
far as that topic goes, so a registration whose topic extends one with the same callback is answered `OPRT_OK` and not
entered (`register_exact_iff`).  In a run where no registration is masked that way, an inbound message reaches exactly
the callbacks registered for its topic, each of them once (`registryRun_deliversExactly`).
-/

namespace TuyaDaemon

open CLib

/-- The pairs in a list of handles. -/
def registeredPairs (subs : List SubscribeHandle) : List (List UInt8 × Nat) := subs.map fun e => (e.topic, e.cb)

/-- Calls that do not touch the registry. -/
def ClientCall.leavesRegistry : ClientCall → Bool
  | .register _ _ _ => false
  | .unregister _ _ => false
  | _ => true

/-- A run of the client with the history of its registry: the registrations that returned `OPRT_OK` and the
unregistrations.  Each registration meets `allowed` in the world before it. -/
inductive RegistryRun (core : CoreJson) (ok : Nat → Bool) (allowed : LinkWorld → CString → Nat → Prop) :
    List (RegistryEvent (List UInt8) Nat) → LinkWorld → Prop where
  | init {hmac : Hmac} {env : InitEnv} {config : TuyaMqttConfig} {heap : MessageHeap} {w : LinkWorld} :
      tuyaMqttInit ok hmac env config heap = .ok (oprtOk, w) → RegistryRun core ok allowed [] w
  | register {history : List (RegistryEvent (List UInt8) Nat)} {w w' : LinkWorld} {status : MQTTStatus}
      {topic : CString} {cb : Nat} {rc : Int} : RegistryRun core ok allowed history w → allowed w topic cb →
      tuyaMqttSubscribeMessageCallbackRegister ok status topic cb w = some (rc, w') →
      RegistryRun core ok allowed (history ++ if rc = oprtOk then [.add topic.chars cb] else []) w'
  | unregister {history : List (RegistryEvent (List UInt8) Nat)} {w : LinkWorld} {status : MQTTStatus}
      {topic : CString} : RegistryRun core ok allowed history w →
      RegistryRun core ok allowed (history ++ [.clear topic.chars])
        (tuyaMqttSubscribeMessageCallbackUnregister status topic w).2
  | other {history : List (RegistryEvent (List UInt8) Nat)} {w w' : LinkWorld} {call : ClientCall} :
      RegistryRun core ok allowed history w → call.leavesRegistry = true → call.run core ok w = some w' →
      RegistryRun core ok allowed history w'

/-- A message reaches exactly the callbacks registered for its topic, each of them once. -/
def DeliversExactly (history : List (RegistryEvent (List UInt8) Nat)) (w : LinkWorld) : Prop :=
  ∀ (msg : MqttClientMessage) (heap : MessageHeap), ∃ cbs : List Nat,
    callsOf (mqttSubscribeMessageDistribute msg w.user.subscribeList heap).log =
        callsOf heap.log ++ cbs.map (fun cb => .subscriber cb msg.topic.chars) ∧
      cbs.Nodup ∧ ∀ cb, cb ∈ cbs ↔ Registered history msg.topic.chars cb

/-- The registration is there already, or no registered topic that starts this one has the same callback. -/
def Unmasked (w : LinkWorld) (topic : CString) (cb : Nat) : Prop :=
  (topic.chars, cb) ∈ registeredPairs w.user.subscribeList ∨
    ∀ e ∈ w.user.subscribeList, e.cb = cb → ¬ e.topic <+: topic.chars

/-! ### Delivery -/

/-- The callbacks that a message reaches, in the order of the list. -/
def deliveredTo (topic : List UInt8) (subs : List SubscribeHandle) : List Nat :=
  (subs.filter fun e => e.topic = topic).map SubscribeHandle.cb

theorem distribute_calls (msg : MqttClientMessage) (subs : List SubscribeHandle) (heap : MessageHeap) :
    callsOf (mqttSubscribeMessageDistribute msg subs heap).log =
      callsOf heap.log ++ (deliveredTo msg.topic.chars subs).map fun cb => .subscriber cb msg.topic.chars := by
  induction subs generalizing heap with
  | nil => simp [mqttSubscribeMessageDistribute, deliveredTo]
  | cons e subs ih =>
    rw [mqttSubscribeMessageDistribute, ih]
    by_cases he : e.topic = msg.topic.chars
    · simp [deliveredTo, he]
    · simp [deliveredTo, he]

theorem mem_deliveredTo {topic : List UInt8} {subs : List SubscribeHandle} {cb : Nat} :
    cb ∈ deliveredTo topic subs ↔ (topic, cb) ∈ registeredPairs subs := by
  simp only [deliveredTo, registeredPairs, List.mem_map, List.mem_filter, decide_eq_true_eq, Prod.mk.injEq, and_assoc]

theorem deliveredTo_nodup {topic : List UInt8} {subs : List SubscribeHandle} (h : (registeredPairs subs).Nodup) :
    (deliveredTo topic subs).Nodup := by
  induction subs with
  | nil => exact List.nodup_nil
  | cons e subs ih =>
    obtain ⟨hnew, hrest⟩ := List.nodup_cons.1 h
    unfold deliveredTo
    by_cases he : e.topic = topic
    · rw [List.filter_cons_of_pos (by simpa using he), List.map_cons, List.nodup_cons]
      subst he
      exact ⟨fun hm => hnew (mem_deliveredTo.1 hm), ih hrest⟩
    · rw [List.filter_cons_of_neg (by simpa using he)]
      exact ih hrest

private theorem subscriber_injective (topic : List UInt8) :
    Function.Injective fun cb => MessageCall.subscriber cb topic := by
  intro a b h
  cases h
  rfl

/-- Messages are delivered exactly when the list represents the history. -/
theorem deliversExactly_of_represents {history : List (RegistryEvent (List UInt8) Nat)} {w : LinkWorld}
    (h : Represents (registeredPairs w.user.subscribeList) history) : DeliversExactly history w := by
  intro msg heap
  refine ⟨_, distribute_calls msg _ heap, deliveredTo_nodup h.nodup, fun cb => ?_⟩
  rw [mem_deliveredTo, h.mem]

/-! ### Registrations -/

section Steps

variable {core : CoreJson} {ok : Nat → Bool} {history : List (RegistryEvent (List UInt8) Nat)}

/-- The repetition filter finds a handle. -/
def Repeated (w : LinkWorld) (topic : CString) (cb : Nat) : Prop :=
  ∃ e ∈ w.user.subscribeList, e.topic <+: topic.chars ∧ e.cb = cb

theorem repeated_iff {w : LinkWorld} {topic : CString} {cb : Nat} :
    w.user.subscribeList.any (SubscribeHandle.repeats topic.chars cb) = true ↔ Repeated w topic cb := by
  simp only [Repeated, SubscribeHandle.repeats, List.any_eq_true, Bool.and_eq_true, List.isPrefixOf_iff_prefix,
    beq_iff_eq]

theorem addSubscriber_subs {topic : CString} {cb : Nat} {w w' : LinkWorld} {rc : Int}
    (h : addSubscriber ok topic cb w = some (rc, w')) :
    Repeated w topic cb ∧ rc = oprtOk ∧ w'.user.subscribeList = w.user.subscribeList ∨
      rc ≠ oprtOk ∧ w'.user.subscribeList = w.user.subscribeList ∨
      ¬ Repeated w topic cb ∧ rc = oprtOk ∧
        registeredPairs w'.user.subscribeList = (topic.chars, cb) :: registeredPairs w.user.subscribeList := by
  unfold addSubscriber at h
  split at h
  · rename_i hany
    cases h
    exact Or.inl ⟨repeated_iff.1 hany, rfl, rfl⟩
  · rename_i hany
    split at h
    · cases h
      exact Or.inr (Or.inl ⟨by decide, rfl⟩)
    · split at h
      · cases h
      · cases h
        exact Or.inr (Or.inr ⟨fun hrep => hany (repeated_iff.2 hrep), rfl, rfl⟩)

/-- A registration finds the pair repeated, fails, or enters it in front. -/
theorem register_subs {status : MQTTStatus} {topic : CString} {cb : Nat} {w w' : LinkWorld} {rc : Int}
    (h : tuyaMqttSubscribeMessageCallbackRegister ok status topic cb w = some (rc, w')) :
    Repeated w topic cb ∧ rc = oprtOk ∧ w'.user.subscribeList = w.user.subscribeList ∨
      rc ≠ oprtOk ∧ w'.user.subscribeList = w.user.subscribeList ∨
      ¬ Repeated w topic cb ∧ rc = oprtOk ∧
        registeredPairs w'.user.subscribeList = (topic.chars, cb) :: registeredPairs w.user.subscribeList := by
  unfold tuyaMqttSubscribeMessageCallbackRegister at h
  split at h
  · obtain ⟨id, sent, hworld, -⟩ := mqttClientSubscribe_spec status topic.chars w
    simp only [hworld] at h
    split at h
    · cases h
      exact Or.inr (Or.inl ⟨by decide, rfl⟩)
    · have hadd := addSubscriber_subs h
      exact hadd
  · exact addSubscriber_subs h

theorem registered_repeated {w : LinkWorld} {topic : CString} {cb : Nat}
    (h : (topic.chars, cb) ∈ registeredPairs w.user.subscribeList) : Repeated w topic cb := by
  obtain ⟨e, he, heq⟩ := List.mem_map.1 h
  obtain ⟨htopic, hcb⟩ := Prod.mk.inj heq
  exact ⟨e, he, by rw [htopic], hcb⟩

/-- What a registration does to the representation. -/
theorem register_represents {status : MQTTStatus} {topic : CString} {cb : Nat} {w w' : LinkWorld} {rc : Int}
    (hw : Represents (registeredPairs w.user.subscribeList) history) (hmask : Unmasked w topic cb)
    (h : tuyaMqttSubscribeMessageCallbackRegister ok status topic cb w = some (rc, w')) :
    Represents (registeredPairs w'.user.subscribeList)
      (history ++ if rc = oprtOk then [.add topic.chars cb] else []) := by
  rcases register_subs h with ⟨hrep, hrc, hsubs⟩ | ⟨hrc, hsubs⟩ | ⟨hrep, hrc, hsubs⟩
  · rw [if_pos hrc, hsubs]
    rcases hmask with hmem | hnone
    · exact hw.addAgain hmem
    · obtain ⟨e, he, hprefix, hcb⟩ := hrep
      exact absurd hprefix (hnone e he hcb)
  · rw [if_neg hrc, List.append_nil, hsubs]
    exact hw
  · rw [if_pos hrc, hsubs]
    exact hw.add fun hmem => hrep (registered_repeated hmem)

/-- A registration that is answered `OPRT_OK` counts exactly when it is not masked. -/
theorem register_exact_iff {status : MQTTStatus} {topic : CString} {cb : Nat} {w w' : LinkWorld}
    (hw : Represents (registeredPairs w.user.subscribeList) history)
    (h : tuyaMqttSubscribeMessageCallbackRegister ok status topic cb w = some (oprtOk, w')) :
    DeliversExactly (history ++ [.add topic.chars cb]) w' ↔ Unmasked w topic cb := by
  constructor
  · intro hexact
    rcases register_subs h with ⟨-, -, hsubs⟩ | ⟨hrc, -⟩ | ⟨hrep, -, -⟩
    · left
      obtain ⟨cbs, hcalls, -, hmem⟩ := hexact ⟨topic, [], .qos0⟩ ⟨0, []⟩
      rw [distribute_calls, hsubs] at hcalls
      have hcbs : deliveredTo topic.chars w.user.subscribeList = cbs :=
        (subscriber_injective topic.chars).list_map (List.append_cancel_left hcalls)
      have hin := (hmem cb).2 ((registered_add_iff topic.chars topic.chars cb cb).2 (Or.inr ⟨rfl, rfl⟩))
      rw [← hcbs] at hin
      exact mem_deliveredTo.1 hin
    · exact absurd rfl hrc
    · right
      intro e he hcb hprefix
      exact hrep ⟨e, he, hprefix, hcb⟩
  · intro hmask
    exact deliversExactly_of_represents (register_represents hw hmask h)

theorem unregister_represents (status : MQTTStatus) (topic : CString) {w : LinkWorld}
    (hw : Represents (registeredPairs w.user.subscribeList) history) :
    Represents (registeredPairs (tuyaMqttSubscribeMessageCallbackUnregister status topic w).2.user.subscribeList)
      (history ++ [.clear topic.chars]) := by
  have hsubs : (tuyaMqttSubscribeMessageCallbackUnregister status topic w).2.user.subscribeList =
      w.user.subscribeList.filter fun e => !decide (e.topic = topic.chars) := by
    simp only [tuyaMqttSubscribeMessageCallbackUnregister, List.partition_eq_filter_filter]
    split <;> rfl
  have hpairs : registeredPairs (w.user.subscribeList.filter fun e => !decide (e.topic = topic.chars)) =
      (registeredPairs w.user.subscribeList).filter fun p => !decide (p.1 = topic.chars) := by
    rw [registeredPairs, registeredPairs, List.filter_map]
    rfl
  rw [hsubs, hpairs]
  exact hw.clear topic.chars _ fun p => by simp

/-! ### Calls and runs -/

theorem subscribeList_invariant (subs : List SubscribeHandle) : LinkInvariant fun w => w.user.subscribeList = subs :=
  .ofContext fun msgid context h => (mqttClientSubscribedCb_subscribeList msgid context).trans h

theorem loop_subscribeList {env : LoopEnv} {w w' : LinkWorld} (h : tuyaMqttLoop core ok env w = some w') :
    w'.user.subscribeList = w.user.subscribeList := by
  cases tuyaMqttLoop_step h with
  | idle _ => rfl
  | failed _ _ => rfl
  | connected _ _ => rfl
  | yield _ =>
    rcases (subscribeList_invariant w.user.subscribeList).yield w.user.config env.pass env.rest (w := w) rfl with
      hkeep | ⟨w₁, hw₁, hdisc⟩
    · exact hkeep
    · rw [hdisc]
      exact hw₁
  | complete _ => rfl
  | reconnect _ => rfl

theorem call_subscribeList {call : ClientCall} (hcall : call.leavesRegistry = true) {w w' : LinkWorld}
    (h : call.run core ok w = some w') : w'.user.subscribeList = w.user.subscribeList := by
  cases call with
  | connect env =>
    simp only [ClientCall.run, Option.map_eq_some_iff] at h
    obtain ⟨⟨rc, w₁⟩, hconnect, rfl⟩ := h
    cases tuyaMqttConnect_step hconnect <;> rfl
  | disconnect =>
    cases h
    unfold tuyaMqttDisconnect
    split
    · rfl
    · rw [linkDisconnect_eq]
      rfl
  | loop env => exact loop_subscribeList h
  | send env publish message =>
    simp only [ClientCall.run, Option.map_eq_some_iff] at h
    obtain ⟨⟨rc, w₁⟩, hsend, rfl⟩ := h
    obtain ⟨mqclient, n, es, -, rfl⟩ := sendOver_cases hsend
    rfl
  | register subscribe topic cb => cases hcall
  | unregister unsubscribe topic => cases hcall

/-- The list represents the history in every run without masked registrations. -/
theorem registryRun_represents {w : LinkWorld} (h : RegistryRun core ok Unmasked history w) :
    Represents (registeredPairs w.user.subscribeList) history := by
  induction h with
  | init hinit =>
    obtain ⟨auth, client, heap, rfl⟩ := tuyaMqttInit_spec hinit
    exact Represents.empty
  | register _ hmask hcall ih => exact register_represents ih hmask hcall
  | unregister _ ih => exact unregister_represents _ _ ih
  | other _ hcall hrun ih =>
    rw [call_subscribeList hcall hrun]
    exact ih

/-- In every run without masked registrations, a message reaches exactly the callbacks registered for its topic. -/
theorem registryRun_deliversExactly {w : LinkWorld} (h : RegistryRun core ok Unmasked history w) :
    DeliversExactly history w :=
  deliversExactly_of_represents (registryRun_represents h)

end Steps

/-! ### Two topics -/

/-- The topics `a` and `ab`. -/
def topicA : CString := ⟨bytes "a", by decide, by decide⟩

def topicAb : CString := ⟨bytes "ab", by decide, by decide⟩

/-- The world behind a registration in an initialised client. -/
def registeredWorld (topic : CString) (auth : TuyaMqttAuth) (heap : MessageHeap) : LinkWorld :=
  { initialWorld exampleContext.config auth 0 heap with
    mqclient := { MQTTContext.init with nextPacketId := 2 }
    user := { (initialWorld exampleContext.config auth 0 heap).user with
      subscribeList := [⟨topic.chars, 1, heap.next, heap.next + 1⟩] }
    heap := { next := heap.next + 2, log := heap.log ++ [.malloc heap.next] ++ [.malloc (heap.next + 1)] }
    trace := [.subscribe 1 topic.chars .success] }

theorem exampleRegister_succeeds (topic : CString) (auth : TuyaMqttAuth) (heap : MessageHeap) :
    tuyaMqttSubscribeMessageCallbackRegister (fun _ => true) .success topic 1
      (initialWorld exampleContext.config auth 0 heap) = some (oprtOk, registeredWorld topic auth heap) := rfl

/-- The callback `1` is registered on a topic. -/
theorem registeredRun (topic : CString) (allowed : LinkWorld → CString → Nat → Prop) (hallowed : ∀ auth heap,
    allowed (initialWorld exampleContext.config auth 0 heap) topic 1) : ∃ auth heap,
    RegistryRun asciiJson (fun _ => true) allowed [.add topic.chars 1] (registeredWorld topic auth heap) := by
  obtain ⟨auth, heap, hinit⟩ := exampleInit_succeeds
  exact ⟨auth, heap, .register (.init hinit) (hallowed auth heap) (exampleRegister_succeeds topic auth heap)⟩

theorem unmasked_initial (topic : CString) (auth : TuyaMqttAuth) (heap : MessageHeap) :
    Unmasked (initialWorld exampleContext.config auth 0 heap) topic 1 :=
  Or.inr fun _ he => absurd he List.not_mem_nil

/-- The longer topic does not start the shorter one. -/
theorem unmasked_ab_a (auth : TuyaMqttAuth) (heap : MessageHeap) :
    Unmasked (registeredWorld topicAb auth heap) topicA 1 := by
  right
  intro e he _
  obtain rfl := List.mem_singleton.1 he
  have hprefix : ¬ topicAb.chars <+: topicA.chars := by decide
  exact hprefix

/-- The same callback on `ab` and then on `a`. -/
theorem registryRun_deliversExactly_ab_a :
    ∃ w, DeliversExactly [.add topicAb.chars 1, .add topicA.chars 1] w := by
  obtain ⟨auth, heap, hrun⟩ := registeredRun topicAb Unmasked (unmasked_initial topicAb)
  obtain ⟨rc, w', hagain⟩ : ∃ rc w', tuyaMqttSubscribeMessageCallbackRegister (fun _ => true) .success topicA 1
      (registeredWorld topicAb auth heap) = some (rc, w') ∧ rc = oprtOk := ⟨_, _, rfl, rfl⟩
  obtain ⟨hagain, rfl⟩ := hagain
  exact ⟨w', registryRun_deliversExactly (hrun.register (unmasked_ab_a auth heap) hagain)⟩

/-- The registration of the same callback on `ab` is answered `OPRT_OK`, and messages on `ab` do not reach it. -/
theorem not_deliversExactly_ab : ¬ ∀ history w,
    RegistryRun asciiJson (fun _ => true) (fun _ _ _ => True) history w → DeliversExactly history w := by
  intro h
  obtain ⟨auth, heap, hrun⟩ := registeredRun topicA (fun _ _ _ => True) fun _ _ => trivial
  have hrep : Represents (registeredPairs (registeredWorld topicA auth heap).user.subscribeList) [.add topicA.chars 1] :=
    Represents.empty.add List.not_mem_nil
  have hagain : tuyaMqttSubscribeMessageCallbackRegister (fun _ => true) .success topicAb 1
      (registeredWorld topicA auth heap) = some (oprtOk, { registeredWorld topicA auth heap with
        mqclient := { MQTTContext.init with nextPacketId := 3 }
        trace := [.subscribe 1 (bytes "a") .success] ++ [.subscribe 2 (bytes "ab") .success] }) := rfl
  rcases (register_exact_iff hrep hagain).1 (h _ _ (hrun.register trivial hagain)) with hmem | hnone
  · have hnot : (topicAb.chars, 1) ∉ [(bytes "a", 1)] := by decide
    exact hnot hmem
  · have hprefix : bytes "a" <+: topicAb.chars := by decide
    exact hnone _ (List.mem_singleton_self _) rfl hprefix

end TuyaDaemon
