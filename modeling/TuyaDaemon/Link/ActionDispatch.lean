import TuyaDaemon.Link.MessageOwnership

/-!
# Which messages make the daemon act

The daemon runs `handle_action` on messages of type `THING_TYPE_ACTION_EXECUTE`.  `Dispatches` says which topics get
that type: besides `tylink/<id>/thing/action/execute` these are the ones whose suffix is a prefix of
`thing/action/execute` longer than `thing/`, since the match compares only as many characters as it received, and
long suffixes whose length is such a number modulo 256.  An id of more than 248 characters moves the second
separator out of the range of a `uint8_t`, and the action is not seen.
-/

namespace TuyaDaemon

open CLib

def actionSuffix : List UInt8 := bytes "thing/action/execute"

/-- `"tylink/" ++ d ++ "/thing/action/execute"` -/
def actionTopic (d : List UInt8) : List UInt8 := tylinkPrefix ++ (d ++ slash :: actionSuffix)

def IsActionTopic (topic : List UInt8) : Prop := ∃ d, slash ∉ d ∧ topic = actionTopic d

/-- The text that the parser takes for the suffix. -/
def takenSuffix (topic : List UInt8) : List UInt8 := topic.drop (suffixStart (topic.drop 7))

/-- The suffix would be read behind the end of the topic. -/
def ReadsOutside (topic payload : List UInt8) : Prop :=
  payload ≠ [] ∧ ¬ bytes "channel/raw/down" <:+: topic ∧ topic.take 7 = tylinkPrefix ∧
    ¬ (slash ∈ topic.drop 7 ∨ 256 ≤ topic.length)

/-- The topic is parsed, and its suffix taken for `thing/action/execute`. -/
structure Dispatches (topic : List UInt8) : Prop where
  parsed : ¬ bytes "channel/raw/down" <:+: topic
  head : topic.take 7 = tylinkPrefix
  inside : slash ∈ topic.drop 7 ∨ 256 ≤ topic.length
  long : 7 ≤ (takenSuffix topic).length % 256
  short : (takenSuffix topic).length % 256 ≤ 20
  agrees : (takenSuffix topic).take ((takenSuffix topic).length % 256) <+: actionSuffix

/-- The topic of an action is never taken for one of the raw channel. -/
private theorem actionTopic_not_raw {d : List UInt8} (hd : slash ∉ d) :
    ¬ bytes "channel/raw/down" <:+: actionTopic d :=
  not_raw_of_suffix hd (by decide) (by decide +kernel)

/-! ### The topics with the type of an action -/

theorem length_actionSuffix : actionSuffix.length = 20 := by decide

private theorem length_actionTopic (d : List UInt8) : (actionTopic d).length = 28 + d.length := by
  have h7 : tylinkPrefix.length = 7 := by decide
  simp only [actionTopic, List.length_append, List.length_cons, h7, length_actionSuffix]
  omega

private theorem actionTopic_head (d : List UInt8) : (actionTopic d).take 7 = tylinkPrefix :=
  List.take_left' (by decide)

private theorem actionTopic_drop (d : List UInt8) : (actionTopic d).drop 7 = d ++ slash :: actionSuffix :=
  List.drop_left' (by decide)

private theorem suffixStart_actionTopic {d : List UInt8} (hd : slash ∉ d) :
    suffixStart ((actionTopic d).drop 7) = (7 + d.length) % 256 + 1 := by
  rw [actionTopic_drop, suffixStart_of_slash hd]

/-- With a device id of at most 248 characters the suffix is found. -/
theorem dispatches_actionTopic {d : List UInt8} (hd : slash ∉ d) (hlen : d.length ≤ 248) :
    Dispatches (actionTopic d) := by
  have htaken : takenSuffix (actionTopic d) = actionSuffix := by
    have hstart : suffixStart ((actionTopic d).drop 7) = (tylinkPrefix ++ d ++ [slash]).length := by
      rw [suffixStart_actionTopic hd]
      simp only [List.length_append, List.length_singleton, show tylinkPrefix.length = 7 by decide]
      omega
    have htopic : actionTopic d = (tylinkPrefix ++ d ++ [slash]) ++ actionSuffix := by simp [actionTopic]
    rw [takenSuffix, hstart]
    conv_lhs => rw [htopic]
    exact List.drop_left
  refine ⟨actionTopic_not_raw hd, actionTopic_head d, ?_, ?_, ?_, ?_⟩
  · left
    rw [actionTopic_drop]
    simp
  · rw [htaken]
    decide
  · rw [htaken]
    decide
  · rw [htaken]
    exact List.take_prefix _ _

/-- With a longer one it is not. -/
theorem not_dispatches_of_long {d : List UInt8} (hd : slash ∉ d) (hlen : 248 < d.length) :
    ¬ Dispatches (actionTopic d) := by
  intro h
  have hagree := h.agrees
  have hstart := suffixStart_actionTopic hd
  have htlen : (takenSuffix (actionTopic d)).length % 256 = 20 := by
    rw [takenSuffix, List.length_drop, hstart, length_actionTopic]
    omega
  rw [htlen] at hagree
  have htake : (takenSuffix (actionTopic d)).take 20 = actionSuffix := by
    apply hagree.eq_of_length
    rw [List.length_take, length_actionSuffix]
    have := Nat.mod_le (takenSuffix (actionTopic d)).length 256
    omega
  -- the suffix would lie in the prefix and the id
  refine entry_take_ne hd (show actionSuffix ∈ tylinkSuffixMap by decide +kernel) actionSuffix (show 8 ≤ 20 by decide)
    (show suffixStart ((actionTopic d).drop 7) + 20 ≤ 7 + d.length by rw [hstart]; omega) ?_
  rw [List.take_of_length_le (Nat.le_of_eq length_actionSuffix)]
  exact htake.symm

private theorem thingLength_eq {topic : List UInt8} (hhead : topic.take 7 = tylinkPrefix)
    (hin : slash ∈ topic.drop 7 ∨ 256 ≤ topic.length) :
    (topicSplit topic).thingLength.toNat = (takenSuffix topic).length % 256 := by
  rw [toNat_thingLength hhead ((suffixStart_le_iff hhead).2 hin), takenSuffix, List.length_drop]

/-- The match returns `THING_TYPE_ACTION_EXECUTE` on the prefixes of its entry from seven characters on. -/
theorem parsedType_eq_action_iff {topic : List UInt8} (hnul : 0 ∉ topic) (hhead : topic.take 7 = tylinkPrefix)
    (hin : slash ∈ topic.drop 7 ∨ 256 ≤ topic.length) :
    parsedType topic = .actionExecute ↔
      7 ≤ (takenSuffix topic).length % 256 ∧ (takenSuffix topic).length % 256 ≤ 20 ∧
        (takenSuffix topic).take ((takenSuffix topic).length % 256) <+: actionSuffix := by
  have hnul' : 0 ∉ takenSuffix topic := fun h => hnul (List.mem_of_mem_drop h)
  have hlen := thingLength_eq hhead hin
  have hmod := Nat.mod_le (takenSuffix topic).length 256
  have hentry : tylinkSuffixMap.getD 12 [] = actionSuffix := by decide +kernel
  show thingTypeMatch (takenSuffix topic) (topicSplit topic).thingLength = ThingType.ofIndex 12 ↔ _
  rw [thingTypeMatch_eq_iff hnul' _ (by omega), hlen, hentry]
  generalize (takenSuffix topic).length % 256 = n at hmod ⊢
  constructor
  · rintro ⟨hagree, hfirst⟩
    have hn7 : 7 ≤ n := by
      by_contra hn
      have hshort : ∀ n < 7, (tylinkSuffixMap.getD 0 []).take n = actionSuffix.take n := by decide +kernel
      apply hfirst 0 (by omega)
      rw [hshort n (by omega), hagree]
    have hn20 : n ≤ 20 := by
      have := congrArg List.length hagree
      simp only [List.length_take, length_actionSuffix] at this
      omega
    refine ⟨hn7, hn20, ?_⟩
    rw [← hagree]
    exact List.take_prefix _ _
  · rintro ⟨hn7, hn20, hpre⟩
    have hagree : actionSuffix.take n = (takenSuffix topic).take n := by
      have hl : ((takenSuffix topic).take n).length = n := by
        rw [List.length_take]
        omega
      have := List.prefix_iff_eq_take.1 hpre
      rw [hl] at this
      exact this.symm
    refine ⟨hagree, ?_⟩
    intro j hj hj'
    have hdiffer : ∀ j < 12, (tylinkSuffixMap.getD j []).take 7 ≠ actionSuffix.take 7 := by decide +kernel
    apply hdiffer j hj
    have h7 := congrArg (List.take 7) (hj'.trans hagree.symm)
    rw [List.take_take, List.take_take, Nat.min_eq_left hn7] at h7
    exact h7

/-! ### What the daemon handles -/

section Handled

variable {core : CoreJson} {ok : Nat → Bool}

private theorem handledActions_distribute (msg : MqttClientMessage) (subs : List SubscribeHandle)
    (heap : MessageHeap) :
    handledActions (callsOf (mqttSubscribeMessageDistribute msg subs heap).log) =
      handledActions (callsOf heap.log) := by
  induction subs generalizing heap with
  | nil => rfl
  | cons target rest ih =>
    rw [mqttSubscribeMessageDistribute, ih]
    split
    · simp [handledActions]
    · rfl

private theorem handledActions_deliver (out : TuyalinkMessage HeapString) (heap : MessageHeap) :
    handledActions (callsOf (deliverMessage true out heap).log) =
      handledActions (callsOf heap.log) ++ (onTuyaMessage out).toList := by
  have hcalls : callsOf (deliverMessage true out heap).log = callsOf heap.log ++ [.onMessages out] := by
    simp [deliverMessage]
  rw [hcalls, handledActions, List.filterMap_append]
  cases h : onTuyaMessage out <;> simp [handledActions, h]

/-- The text of the action in a payload: the first top-level member `data`. -/
def actionData (payload : List UInt8) : Option (List UInt8) := (Json.lookup payload (bytes "data")).map unquote

private theorem simpleQuery_data : SimpleQuery (bytes "data") := by
  refine ⟨?_, ?_, ?_⟩ <;> decide

/-- A delivered message is handled when its type is that of an action and its payload is valid. -/
private theorem handled_parsePayload (hcore : core.Documented) (hok : ∀ n, ok n = true) (payload : List UInt8)
    (deviceId : HeapString) {out : TuyalinkMessage HeapString} (hout : out.dataString = none) {heap : MessageHeap}
    (hheap : handledActions (callsOf heap.log) = []) {type : ThingType} (htype : out.type = type) {r : ParseResult}
    (hr : parsePayload core ok payload deviceId out heap = r) :
    (core.validate payload = .success ∧ type = .actionExecute →
      handledActions (callsOf (deliverMessage true r.out r.heap).log) = (actionData payload).toList) ∧
    (¬ (core.validate payload = .success ∧ type = .actionExecute) →
      handledActions (callsOf (deliverMessage true r.out r.heap).log) = []) := by
  subst hr htype
  rw [handledActions_deliver]
  by_cases hvalid : core.validate payload = .success
  · rw [parsePayload_accepted hvalid deviceId out (fun _ => hok _) (fun _ => hok _)]
    have hdata : (readMessage core payload heap.next out).dataString.map HeapString.chars = actionData payload := by
      rw [readMessage_data payload heap.next hout, hcore.found _ _ hvalid simpleQuery_data]
      rfl
    simp only [callsOf_heapAfter, hheap, List.nil_append, onTuyaMessage, readMessage_type, hdata]
    constructor
    · rintro ⟨-, htype⟩
      rw [if_neg (not_not.2 htype)]
    · intro hnot
      have htype : out.type ≠ .actionExecute := fun h => hnot ⟨hvalid, h⟩
      rw [if_pos htype]
      rfl
  · constructor
    · rintro ⟨h, -⟩
      exact absurd h hvalid
    · intro _
      have hcalls : callsOf (heap.free deviceId.block).log = callsOf heap.log := callsOf_free heap.log
      simp only [parsePayload, hvalid, ne_eq, not_false_eq_true, ite_true, hcalls, hheap, List.nil_append]
      simp [onTuyaMessage, hout]

/-- The callback hands `handle_action` the data of the message, when the topic dispatches it and it is valid. -/
theorem mqttClientMessageCb_handled (hcore : core.Documented) (hok : ∀ n, ok n = true) (subs : List SubscribeHandle)
    {msg : MqttClientMessage} (hin : ¬ ReadsOutside msg.topic.chars msg.payload) (n : Nat) :
    ∃ heap, mqttClientMessageCb core ok subs true msg ⟨n, []⟩ = some heap ∧
      (core.validate msg.payload = .success ∧ Dispatches msg.topic.chars →
        handledActions (callsOf heap.log) = (actionData msg.payload).toList) ∧
      (¬ (core.validate msg.payload = .success ∧ Dispatches msg.topic.chars) →
        handledActions (callsOf heap.log) = []) := by
  have hstart : handledActions (callsOf (mqttSubscribeMessageDistribute msg subs ⟨n, []⟩).log) = [] :=
    handledActions_distribute msg subs ⟨n, []⟩
  have hempty : core.validate msg.payload = .success → msg.payload ≠ [] := by
    intro hvalid hp
    obtain ⟨-, w, hder, -⟩ := hcore.valid _ hvalid
    have := hder.length_lt
    simp [hp, Json.skipWs] at this
  by_cases hraw : bytes "channel/raw/down" <:+: msg.topic.chars
  · refine ⟨_, by simp only [mqttClientMessageCb, strstr_eq_true.2 hraw, ite_true], ?_, fun _ => hstart⟩
    rintro ⟨-, hdisp⟩
    exact absurd hraw hdisp.parsed
  have hfalse := Bool.eq_false_iff.2 (mt strstr_eq_true.1 hraw)
  simp only [mqttClientMessageCb, hfalse, Bool.false_eq_true, ite_false]
  generalize mqttSubscribeMessageDistribute msg subs ⟨n, []⟩ = heap at hstart ⊢
  by_cases hp : msg.payload = []
  · simp only [MqttClientMessage.payloadPointer, hp, ite_true, tuyaLinkThingMessageParse, Option.map_some]
    refine ⟨_, rfl, ?_, ?_⟩
    · rintro ⟨hvalid, -⟩
      rw [← hp] at hvalid
      exact absurd hp (hempty hvalid)
    · intro _
      rw [handledActions_deliver, hstart]
      rfl
  simp only [MqttClientMessage.payloadPointer, hp, ite_false]
  by_cases hhead : msg.topic.chars.take 7 = tylinkPrefix
  · have hinside : slash ∈ msg.topic.chars.drop 7 ∨ 256 ≤ msg.topic.chars.length := by
      by_contra hout
      exact hin ⟨hp, hraw, hhead, hout⟩
    have htype := parsedType_eq_action_iff msg.topic.noNul hhead hinside
    have hdisp : parsedType msg.topic.chars = .actionExecute ↔ Dispatches msg.topic.chars := by
      rw [htype]
      exact ⟨fun h => ⟨hraw, hhead, hinside, h.1, h.2.1, h.2.2⟩, fun h => ⟨h.long, h.short, h.agrees⟩⟩
    rw [parse_of_inside core hhead hinside _ _ _ (hok _), Option.map_some]
    refine ⟨_, rfl, ?_⟩
    rw [← hdisp]
    refine handled_parsePayload hcore hok msg.payload _ ?_ ?_ ?_ rfl
    · rfl
    · rw [callsOf_malloc]
      exact hstart
    · rfl
  · rw [parse_of_head_ne hhead, Option.map_some]
    refine ⟨_, rfl, ?_, ?_⟩
    · rintro ⟨-, hdisp⟩
      exact absurd hdisp.head hhead
    · intro _
      rw [handledActions_deliver, hstart]
      rfl

/-! ### Exact dispatch -/

/-- `handle_action` is called exactly once with the action's text when the topic is that of an action and the payload
is valid and has data, and else not at all. -/
def ExactDispatch (core : CoreJson) (ok : Nat → Bool) (subs : List SubscribeHandle) (msg : MqttClientMessage)
    (n : Nat) : Prop :=
  ∃ heap, mqttClientMessageCb core ok subs true msg ⟨n, []⟩ = some heap ∧
    (IsActionTopic msg.topic.chars ∧ core.validate msg.payload = .success →
      handledActions (callsOf heap.log) = (actionData msg.payload).toList) ∧
    (¬ (IsActionTopic msg.topic.chars ∧ core.validate msg.payload = .success) →
      handledActions (callsOf heap.log) = [])

/-- The topics on which the daemon acts exactly when it should: those of an action with an id of at most 248
characters, and those that are neither of an action nor taken for one. -/
def ExactTopic (topic : List UInt8) : Prop :=
  (∃ d, slash ∉ d ∧ d.length ≤ 248 ∧ topic = actionTopic d) ∨ ¬ IsActionTopic topic ∧ ¬ Dispatches topic

/-- On an exact topic the parser takes for an action what is one. -/
theorem ExactTopic.iff {topic : List UInt8} : ExactTopic topic ↔ (IsActionTopic topic ↔ Dispatches topic) := by
  constructor
  · rintro (⟨d, hd, hlen, rfl⟩ | ⟨hnot, hnot'⟩)
    · exact ⟨fun _ => dispatches_actionTopic hd hlen, fun _ => ⟨d, hd, rfl⟩⟩
    · exact ⟨fun h => absurd h hnot, fun h => absurd h hnot'⟩
  · intro hiff
    by_cases h : IsActionTopic topic
    · obtain ⟨d, hd, rfl⟩ := h
      by_cases hlen : d.length ≤ 248
      · exact Or.inl ⟨d, hd, hlen, rfl⟩
      · exact absurd (hiff.1 ⟨d, hd, rfl⟩) (not_dispatches_of_long hd (by omega))
    · exact Or.inr ⟨h, fun hdisp => h (hiff.2 hdisp)⟩

theorem exactDispatch_of_exactTopic (hcore : core.Documented) (hok : ∀ n, ok n = true)
    {subs : List SubscribeHandle} {msg : MqttClientMessage} (hin : ¬ ReadsOutside msg.topic.chars msg.payload) (n : Nat)
    (h : core.validate msg.payload = .success → actionData msg.payload ≠ none → ExactTopic msg.topic.chars) :
    ExactDispatch core ok subs msg n := by
  obtain ⟨heap, hcb, hyes, hno⟩ := mqttClientMessageCb_handled hcore hok subs hin n
  refine ⟨heap, hcb, ?_⟩
  by_cases hact : core.validate msg.payload = .success ∧ actionData msg.payload ≠ none
  · have hiff := ExactTopic.iff.1 (h hact.1 hact.2)
    exact ⟨fun h => hyes ⟨h.2, hiff.1 h.1⟩, fun h => hno fun h' => h ⟨hiff.2 h'.2, h'.1⟩⟩
  · -- nothing is handled, and nothing should be
    have hnil : core.validate msg.payload = .success → (actionData msg.payload).toList = [] := by
      intro hvalid
      have : actionData msg.payload = none := by
        by_contra hdata
        exact hact ⟨hvalid, hdata⟩
      rw [this]
      rfl
    have hhandled : handledActions (callsOf heap.log) = [] := by
      by_cases hdisp : core.validate msg.payload = .success ∧ Dispatches msg.topic.chars
      · rw [hyes hdisp, hnil hdisp.1]
      · exact hno hdisp
    exact ⟨fun h => hhandled.trans (hnil h.2).symm, fun _ => hhandled⟩

theorem exactTopic_of_exactDispatch (hcore : core.Documented) (hok : ∀ n, ok n = true)
    {subs : List SubscribeHandle} {msg : MqttClientMessage} {n : Nat} (h : ExactDispatch core ok subs msg n) :
    ¬ ReadsOutside msg.topic.chars msg.payload ∧
      (core.validate msg.payload = .success → actionData msg.payload ≠ none → ExactTopic msg.topic.chars) := by
  obtain ⟨heap, hcb, hshould, hshould'⟩ := h
  have hin : ¬ ReadsOutside msg.topic.chars msg.payload := by
    rintro ⟨hp, hraw, hhead, hout⟩
    have hfalse := Bool.eq_false_iff.2 (mt strstr_eq_true.1 hraw)
    simp only [mqttClientMessageCb, hfalse, Bool.false_eq_true, ite_false, MqttClientMessage.payloadPointer, hp] at hcb
    rw [parse_of_outside hhead hout _ _ (hok _)] at hcb
    cases hcb
  refine ⟨hin, ?_⟩
  intro hvalid hdata
  obtain ⟨heap', hcb', hyes, hno⟩ := mqttClientMessageCb_handled hcore hok subs hin n
  rw [hcb] at hcb'
  cases hcb'
  have hne : (actionData msg.payload).toList ≠ [] := by
    obtain ⟨v, hv⟩ := Option.ne_none_iff_exists'.1 hdata
    simp [hv]
  rw [ExactTopic.iff]
  constructor
  · intro htopic
    by_contra hdisp
    apply hne
    rw [← hshould ⟨htopic, hvalid⟩]
    exact hno fun h => hdisp h.2
  · intro hdisp
    by_contra htopic
    apply hne
    rw [← hyes ⟨hvalid, hdisp⟩]
    exact hshould' fun h => htopic h.1

/-- The daemon acts on exactly the action messages, on those messages whose topic is read inside its bounds and, when
they carry data, is an exact one. -/
theorem exactDispatch_iff (hcore : core.Documented) (hok : ∀ n, ok n = true) (subs : List SubscribeHandle)
    (msg : MqttClientMessage) (n : Nat) :
    ExactDispatch core ok subs msg n ↔
      ¬ ReadsOutside msg.topic.chars msg.payload ∧
        (core.validate msg.payload = .success → actionData msg.payload ≠ none → ExactTopic msg.topic.chars) :=
  ⟨exactTopic_of_exactDispatch hcore hok, fun h => exactDispatch_of_exactTopic hcore hok h.1 n h.2⟩

end Handled

/-- The action topic of the device `x` with the payload `{"data":1}`. -/
def actionMessage : MqttClientMessage :=
  ⟨⟨bytes "tylink/x/thing/action/execute", by decide, by decide⟩, bytes "\x7b\"data\":1\x7d", .qos0⟩

/-- `tylink/x/thing/a` with the same payload. -/
def prefixMessage : MqttClientMessage :=
  ⟨⟨bytes "tylink/x/thing/a", by decide, by decide⟩, bytes "\x7b\"data\":1\x7d", .qos0⟩

theorem exactDispatch_iff_actionMessage :
    ExactDispatch asciiJson (fun _ => true) [] actionMessage 0 ↔
      ¬ ReadsOutside actionMessage.topic.chars actionMessage.payload ∧
        (asciiJson.validate actionMessage.payload = .success → actionData actionMessage.payload ≠ none →
          ExactTopic actionMessage.topic.chars) :=
  exactDispatch_iff asciiJson_documented (fun _ => rfl) [] actionMessage 0

theorem not_exactDispatch_prefixMessage : ¬ ExactDispatch asciiJson (fun _ => true) [] prefixMessage 0 := by
  intro h
  have hvalid : asciiJson.validate prefixMessage.payload = .success := by decide +kernel
  have hdata : actionData prefixMessage.payload ≠ none := by decide +kernel
  have htopic := (exactTopic_of_exactDispatch asciiJson_documented (fun _ => rfl) h).2 hvalid hdata
  rcases htopic with ⟨d, -, -, hd⟩ | ⟨-, hnot⟩
  · have hlen := congrArg List.length hd
    rw [length_actionTopic] at hlen
    have h16 : prefixMessage.topic.chars.length = 16 := by decide
    omega
  · apply hnot
    have htaken : takenSuffix prefixMessage.topic.chars = bytes "thing/a" := by decide +kernel
    refine ⟨by decide +kernel, by decide, Or.inl (by decide), ?_, ?_, ?_⟩
    · rw [htaken]
      decide
    · rw [htaken]
      decide
    · rw [htaken]
      decide +kernel

end TuyaDaemon
