import TuyaDaemon.Link.MessageParse

/-!
# Who owns the strings of an inbound message

A parse that returns `OPRT_OK` leaves its strings with the message, and the callback releases them
(`leavesNothing_of_accepted`).  A parse that fails releases strings without clearing the fields, and the callback
does not look at the return code: the message is delivered all the same, and its strings are released again
(`rejected_deviceId_freed_twice`).
-/

namespace TuyaDaemon

open CLib

/-! ### What the parser accepts -/

section Parse

variable {core : CoreJson} {ok : Nat → Bool}

/-- The number of the allocation for the data, when the next one has number `n`. -/
def dataNumber (core : CoreJson) (payload : List UInt8) (n : Nat) : Nat :=
  match core.search payload (bytes "msgId") with
  | some _ => n + 1
  | none => n

/-- The parser accepts the message: it has a payload, the topic has the prefix and a suffix inside it, the payload is
valid, and the allocations, of which the first has number `n`, succeed. -/
structure Accepted (core : CoreJson) (ok : Nat → Bool) (topic payload : List UInt8) (n : Nat) : Prop where
  payload_ne : payload ≠ []
  head : topic.take 7 = tylinkPrefix
  suffix : slash ∈ topic.drop 7 ∨ 256 ≤ topic.length
  deviceId : ok n = true
  validate : core.validate payload = .success
  msgid : core.search payload (bytes "msgId") ≠ none → ok (n + 1) = true
  data : core.search payload (bytes "data") ≠ none → ok (dataNumber core payload (n + 1)) = true

theorem dataNumber_eq (core : CoreJson) (payload : List UInt8) (heap : MessageHeap) :
    (heapAfter (core.search payload (bytes "msgId")) heap).next = dataNumber core payload heap.next := by
  unfold dataNumber
  rcases core.search payload (bytes "msgId") with _ | _ <;> rfl

private theorem parseData_rc {payload : List UInt8} {deviceId : HeapString} {out : TuyalinkMessage HeapString}
    {heap : MessageHeap} (hrc : (parseData core ok payload deviceId out heap).rc = some oprtOk) :
    core.search payload (bytes "data") ≠ none → ok heap.next = true := by
  intro hfound
  by_contra hfail
  obtain ⟨value, hs⟩ := Option.ne_none_iff_exists'.1 hfound
  rw [parseData, hs] at hrc
  simp [copyValue_fail (Bool.eq_false_iff.2 hfail)] at hrc

/-- A payload that is read to the end was valid, and the allocations for what was found in it succeeded. -/
theorem parsePayload_rc {payload : List UInt8} {deviceId : HeapString} {out : TuyalinkMessage HeapString}
    {heap : MessageHeap} (hrc : (parsePayload core ok payload deviceId out heap).rc = some oprtOk) :
    core.validate payload = .success ∧ (core.search payload (bytes "msgId") ≠ none → ok heap.next = true) ∧
      (core.search payload (bytes "data") ≠ none → ok (dataNumber core payload heap.next) = true) := by
  unfold parsePayload at hrc
  by_cases hv : core.validate payload = .success
  · refine ⟨hv, ?_⟩
    rw [if_neg (by simp [hv])] at hrc
    rw [← dataNumber_eq]
    unfold parseMsgid at hrc
    rcases hs : core.search payload (bytes "msgId") with _ | value
    · rw [hs] at hrc
      exact ⟨fun h => absurd rfl h, parseData_rc hrc⟩
    · rw [hs] at hrc
      rcases hok : ok heap.next with _ | _
      · simp [copyValue_fail hok] at hrc
      · simp only [copyValue_ok hok] at hrc
        exact ⟨fun _ => rfl, parseData_rc hrc⟩
  · simp [hv] at hrc

/-- The message that the parser makes of a topic and a payload that it accepts. -/
def acceptedMessage (core : CoreJson) (topic payload : List UInt8) (n : Nat) (out : TuyalinkMessage HeapString) :
    TuyalinkMessage HeapString :=
  readMessage core payload (n + 1)
    { out with deviceId := some ⟨n, parsedDeviceId topic⟩, type := parsedType topic }

/-- The heap that it leaves: the device id, the message id and the data were allocated. -/
def acceptedHeap (core : CoreJson) (payload : List UInt8) (heap : MessageHeap) : MessageHeap :=
  heapAfter (core.search payload (bytes "data")) (heapAfter (core.search payload (bytes "msgId"))
    { next := heap.next + 1, log := heap.log ++ [.malloc heap.next] })

/-- What the parser returns on a message that it accepts. -/
theorem parse_of_accepted {topic payload : List UInt8} (out : TuyalinkMessage HeapString) {heap : MessageHeap}
    (h : Accepted core ok topic payload heap.next) :
    tuyaLinkThingMessageParse core ok topic (some payload) out heap =
      some ⟨some oprtOk, acceptedMessage core topic payload heap.next out, acceptedHeap core payload heap⟩ := by
  rw [parse_of_inside core h.head h.suffix payload out heap h.deviceId]
  congr 1
  apply parsePayload_accepted h.validate
  · exact h.msgid
  · rw [dataNumber_eq]
    exact h.data

/-- What `OPRT_OK` says about a payload that is there. -/
theorem accepted_of_parse_ok {topic payload : List UInt8} (hpayload : core.validate payload = .success → payload ≠ [])
    {out : TuyalinkMessage HeapString} {heap : MessageHeap} {r : ParseResult}
    (hr : tuyaLinkThingMessageParse core ok topic (some payload) out heap = some r) (hrc : r.rc = some oprtOk) :
    Accepted core ok topic payload heap.next := by
  by_cases hhead : topic.take 7 = tylinkPrefix
  · rcases hok : ok heap.next with _ | _
    · rw [parse_of_deviceId_fail hhead payload out hok] at hr
      cases hr
      cases hrc
    · by_cases hin : slash ∈ topic.drop 7 ∨ 256 ≤ topic.length
      · rw [parse_of_inside core hhead hin payload out heap hok] at hr
        cases hr
        obtain ⟨hvalid, hmsgid, hdata⟩ := parsePayload_rc hrc
        exact ⟨hpayload hvalid, hhead, hin, hok, hvalid, hmsgid, hdata⟩
      · rw [parse_of_outside hhead hin payload out hok] at hr
        cases hr
  · rw [parse_of_head_ne hhead] at hr
    cases hr
    cases hrc

/-- The parser returns `OPRT_OK` exactly when it accepts the message. -/
theorem parse_ok_iff_accepted {topic payload : List UInt8} {out : TuyalinkMessage HeapString} {heap : MessageHeap} :
    (∃ r, tuyaLinkThingMessageParse core ok topic (if payload = [] then none else some payload) out heap = some r ∧
      r.rc = some oprtOk) ↔ Accepted core ok topic payload heap.next := by
  constructor
  · rintro ⟨r, hr, hrc⟩
    by_cases hp : payload = []
    · simp only [hp, ite_true, tuyaLinkThingMessageParse, Option.some.injEq] at hr
      subst hr
      cases hrc
    · rw [if_neg hp] at hr
      exact accepted_of_parse_ok (fun _ => hp) hr hrc
  · intro h
    rw [if_neg h.payload_ne]
    exact ⟨_, parse_of_accepted out h, rfl⟩

/-! ### The blocks of a message -/

/-- The blocks a message holds. -/
def messageBlocks (out : TuyalinkMessage HeapString) : List Nat :=
  (out.deviceId.map HeapString.block).toList ++
    ((out.msgid.map HeapString.block).toList ++ (out.dataString.map HeapString.block).toList)

/-- The order of the allocations is not that of the fields. -/
private theorem perm_blocks (id : Nat) (msgid data : List Nat) :
    (data ++ (msgid ++ [id])).Perm ([id] ++ (msgid ++ data)) := by
  calc (data ++ (msgid ++ [id])).Perm ((msgid ++ [id]) ++ data) := List.perm_append_comm
    _ = msgid ++ id :: data := by simp
    List.Perm _ (id :: (msgid ++ data)) := List.perm_middle

/-- An accepted message owns its strings, and nothing else is owned. -/
theorem acceptedHeap_owns (core : CoreJson) (topic payload : List UInt8) {heap : MessageHeap} (ho : heap.Owns []) :
    (acceptedHeap core payload heap).Owns (messageBlocks (acceptedMessage core topic payload heap.next .zero)) := by
  have hmsgid := heapAfter_owns ho.malloc (core.search payload (bytes "msgId"))
  have hdata := heapAfter_owns hmsgid (core.search payload (bytes "data"))
  rw [heapAfter_next] at hdata
  apply hdata.perm
  simp only [messageBlocks, acceptedMessage, readMessage, TuyalinkMessage.zero, Option.or_none, Option.map_some,
    Option.toList_some]
  exact perm_blocks _ _ _

/-- The callback releases every block of the message it delivers. -/
theorem deliverMessage_owns {out : TuyalinkMessage HeapString} {heap : MessageHeap}
    (ho : heap.Owns (messageBlocks out)) (onMessages : Bool) :
    (deliverMessage onMessages out heap).Owns [] := by
  have hcall : (if onMessages then heap.call (.onMessages out) else heap).Owns (messageBlocks out) := by
    cases onMessages with
    | false => exact ho
    | true => exact ho.call _
  have hnil : messageBlocks out = (out.deviceId.map HeapString.block).toList ++
      ((out.msgid.map HeapString.block).toList ++ ((out.dataString.map HeapString.block).toList ++ [])) := by
    simp [messageBlocks]
  rw [hnil] at hcall
  exact hcall.freeIf.freeIf.freeIf

/-! ### The callback -/

theorem distribute_next (msg : MqttClientMessage) (subs : List SubscribeHandle) (heap : MessageHeap) :
    (mqttSubscribeMessageDistribute msg subs heap).next = heap.next := by
  induction subs generalizing heap with
  | nil => rfl
  | cons target rest ih =>
    rw [mqttSubscribeMessageDistribute, ih]
    split <;> rfl

theorem distribute_owns (msg : MqttClientMessage) (subs : List SubscribeHandle) {heap : MessageHeap}
    (ho : heap.Owns []) : (mqttSubscribeMessageDistribute msg subs heap).Owns [] := by
  induction subs generalizing heap with
  | nil => exact ho
  | cons target rest ih =>
    apply ih
    split
    · exact ho.call _
    · exact ho

/-- The callback got as far as the parser, which gave `r`. -/
def Parsed (core : CoreJson) (ok : Nat → Bool) (subs : List SubscribeHandle) (msg : MqttClientMessage) (n : Nat)
    (r : ParseResult) : Prop :=
  strstr msg.topic.chars (bytes "channel/raw/down") = false ∧
    tuyaLinkThingMessageParse core ok msg.topic.chars msg.payloadPointer .zero
      (mqttSubscribeMessageDistribute msg subs ⟨n, []⟩) = some r

/-- Along the callback every string of the parser is released exactly once, and a parse that does not return
`OPRT_OK` leaves no string in the message and does not reach `config.on_messages`. -/
def LeavesNothing (core : CoreJson) (ok : Nat → Bool) (subs : List SubscribeHandle) (msg : MqttClientMessage)
    (n : Nat) : Prop :=
  ∃ heap, mqttClientMessageCb core ok subs true msg ⟨n, []⟩ = some heap ∧ ReleasedOnce heap.log ∧
    ∀ r, Parsed core ok subs msg n r → r.rc ≠ some oprtOk →
      (r.out.deviceId = none ∧ r.out.msgid = none ∧ r.out.dataString = none) ∧
        ∀ out, MessageCall.onMessages out ∉ callsOf heap.log

theorem leavesNothing_of_accepted {subs : List SubscribeHandle} {msg : MqttClientMessage} {n : Nat}
    (h : bytes "channel/raw/down" <:+: msg.topic.chars ∨ Accepted core ok msg.topic.chars msg.payload n) :
    LeavesNothing core ok subs msg n := by
  have hstart : (mqttSubscribeMessageDistribute msg subs ⟨n, []⟩).Owns [] :=
    distribute_owns msg subs (Heap.Owns.start n)
  by_cases hraw : strstr msg.topic.chars (bytes "channel/raw/down") = true
  · refine ⟨_, by simp only [mqttClientMessageCb, hraw, ite_true], hstart.releasedOnce, ?_⟩
    rintro r ⟨hnot, -⟩
    rw [hraw] at hnot
    cases hnot
  · have hacc := h.resolve_left fun hinf => hraw (strstr_eq_true.2 hinf)
    have hnext : (mqttSubscribeMessageDistribute msg subs ⟨n, []⟩).next = n := distribute_next msg subs ⟨n, []⟩
    rw [← hnext] at hacc
    have hparse := parse_of_accepted .zero hacc
    have howns := acceptedHeap_owns core msg.topic.chars msg.payload hstart
    have hpointer : msg.payloadPointer = some msg.payload := if_neg hacc.payload_ne
    refine ⟨_, ?_, (deliverMessage_owns howns true).releasedOnce, ?_⟩
    · simp only [mqttClientMessageCb, hraw, hpointer, hparse]
      rfl
    · rintro r ⟨-, hr⟩ hrc
      rw [hpointer, hparse] at hr
      cases hr
      exact absurd rfl hrc

private theorem onMessages_mem_deliver (out : TuyalinkMessage HeapString) (heap : MessageHeap) :
    MessageCall.onMessages out ∈ callsOf (deliverMessage true out heap).log := by
  simp [deliverMessage]

theorem accepted_of_leavesNothing {subs : List SubscribeHandle} {msg : MqttClientMessage} {n : Nat}
    (h : LeavesNothing core ok subs msg n) :
    bytes "channel/raw/down" <:+: msg.topic.chars ∨ Accepted core ok msg.topic.chars msg.payload n := by
  obtain ⟨heap, hcb, -, hrejected⟩ := h
  by_cases hraw : strstr msg.topic.chars (bytes "channel/raw/down") = true
  · exact Or.inl (strstr_eq_true.1 hraw)
  · right
    have hfalse := Bool.eq_false_iff.2 hraw
    simp only [mqttClientMessageCb, hfalse, Bool.false_eq_true, ite_false] at hcb
    obtain ⟨r, hr, hheap⟩ := Option.map_eq_some_iff.1 hcb
    by_cases hrc : r.rc = some oprtOk
    · have hnext : (mqttSubscribeMessageDistribute msg subs ⟨n, []⟩).next = n := distribute_next msg subs ⟨n, []⟩
      rw [← hnext]
      exact parse_ok_iff_accepted.1 ⟨r, hr, hrc⟩
    · have hnot := (hrejected r ⟨hfalse, hr⟩ hrc).2 r.out
      rw [← hheap] at hnot
      exact absurd (onMessages_mem_deliver r.out r.heap) hnot

/-- A payload that is not accepted: the callback releases the device id that the parser released. -/
theorem rejected_deviceId_freed_twice {msg : MqttClientMessage} {n : Nat}
    (hraw : ¬ bytes "channel/raw/down" <:+: msg.topic.chars) (hpayload : msg.payload ≠ [])
    (hhead : msg.topic.chars.take 7 = tylinkPrefix)
    (hin : slash ∈ msg.topic.chars.drop 7 ∨ 256 ≤ msg.topic.chars.length) (hok : ok n = true)
    (hinvalid : core.validate msg.payload ≠ .success) :
    ∃ heap, mqttClientMessageCb core ok [] true msg ⟨n, []⟩ = some heap ∧ frees heap.log n = 2 := by
  have hfalse : strstr msg.topic.chars (bytes "channel/raw/down") = false := by
    rw [Bool.eq_false_iff, ne_eq, strstr_eq_true]
    exact hraw
  have hpointer : msg.payloadPointer = some msg.payload := if_neg hpayload
  have hparse := parse_of_inside core hhead hin msg.payload .zero ⟨n, []⟩ hok
  simp only [mqttClientMessageCb, mqttSubscribeMessageDistribute, hfalse, Bool.false_eq_true, ite_false, hpointer,
    hparse, parsePayload, hinvalid, ne_eq, not_false_eq_true, ite_true]
  refine ⟨_, rfl, ?_⟩
  simp [deliverMessage, TuyalinkMessage.zero, frees, HeapEvent.isFree]

/-- The strings of an inbound message are released exactly once, and nothing of a rejected one is left or delivered,
exactly when the topic is one that is not parsed or the parser accepts the message. -/
theorem leavesNothing_iff (core : CoreJson) (ok : Nat → Bool) (subs : List SubscribeHandle)
    (msg : MqttClientMessage) (n : Nat) :
    LeavesNothing core ok subs msg n ↔
      bytes "channel/raw/down" <:+: msg.topic.chars ∨ Accepted core ok msg.topic.chars msg.payload n :=
  ⟨accepted_of_leavesNothing, leavesNothing_of_accepted⟩

end Parse

/-- `tylink/d/thing/model/get` with the payload `x`, which is not JSON. -/
def notJsonMessage : MqttClientMessage :=
  ⟨⟨bytes "tylink/d/thing/model/get", by decide, by decide⟩, bytes "x", .qos0⟩

theorem not_leavesNothing_notJson : ¬ LeavesNothing asciiJson (fun _ => true) [] notJsonMessage 0 := by
  intro h
  rcases accepted_of_leavesNothing h with hraw | hacc
  · exact absurd hraw (by decide +kernel)
  · exact absurd hacc.validate (by decide +kernel)

end TuyaDaemon
