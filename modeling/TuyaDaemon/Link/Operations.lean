import TuyaDaemon.Link.Requests
import TuyaDaemon.Link.TopicReads
import TuyaDaemon.Link.TopicRoundTrip

/-!
# Operations and their topics

Whether a request function publishes on the topic that its name spells, and whether the answer is handed over with the
enumerator of that answer.  At the positions 33 to 38 the table and the enumeration name different topics
(`namedAlike_iff`), so uploads, downloads and configuration requests use each other's topics in both directions.
Elsewhere they agree for a topic that the send does not cut, and for an id that the parser does not cut
(`operationAgrees_iff`).
-/

namespace TuyaDaemon

open CLib

/-! ### Agreement -/

/-- `"tylink/" ++ d ++ "/" ++ s` -/
def deviceTopic (d s : List UInt8) : List UInt8 := tylinkPrefix ++ (d ++ slash :: s)

/-- The table has the topic of an enumerator at its position. -/
def NamedAlike (t : ThingType) : Prop := tylinkSuffixMap[t.toIndex]? = some t.topicName

instance (t : ThingType) : Decidable (NamedAlike t) := inferInstanceAs (Decidable (_ = _))

/-- The enumerators 33 to 38. -/
def drifted : List ThingType :=
  [.extConfigGet, .extConfigGetRsp, .extFileUploadRequest, .extFileUploadResponse, .extFileDownloadRequest,
    .extFileDownloadResponse]

/-- The types of the messages that are handed over. -/
def deliveredTypes (calls : List MessageCall) : List ThingType :=
  calls.filterMap fun
    | .onMessages out => some out.type
    | .subscriber _ _ => none

/-- The match finds the entry of `t`: the first that agrees with the text behind the separator, the positions and
lengths being cut to 8 bits. -/
def EntryPicked (topic : List UInt8) (t : ThingType) : Prop :=
  let start := suffixStart (topic.drop 7)
  let length := (topic.length - start) % 256
  (tylinkSuffixMap.getD t.toIndex []).take length = (topic.drop start).take length ∧
    ∀ j < t.toIndex, (tylinkSuffixMap.getD j []).take length ≠ (topic.drop start).take length

/-- The topics of the answer `t` that are taken for it. -/
inductive AnswerFits (d : List UInt8) (t : ThingType) : Prop where
  /-- a device id without a separator -/
  | plain : slash ∉ d → d.length ≤ 248 → t ∉ drifted → AnswerFits d t
  /-- an id with a separator, when what the match gets begins the entry -/
  | separated : slash ∈ d → ¬ bytes "channel/raw/down" <:+: deviceTopic d t.topicName →
      EntryPicked (deviceTopic d t.topicName) t → AnswerFits d t

section Agreement

variable (env : SendEnv) (mqmsgid : UInt16) (context : TuyaMqttContext) (op : Operation)
  (deviceId data : Option CString) (core : CoreJson) (ok : Nat → Bool) (subs : List SubscribeHandle) (d : List UInt8)
  (msg : MqttClientMessage) (heap : MessageHeap)

/-- A call of the request function publishes on the topic of the operation, unless it is refused. -/
def PublishesOwn : Prop :=
  env.allocOk = true → (op.NeedsData → data ≠ none) →
    ∃ r p, op.request env (recordPublish mqmsgid) context deviceId data [] = some r ∧ r.world = [p] ∧
      p.topic = deviceTopic (op.device context deviceId).chars op.type.topicName

/-- A message on the topic of the answer is handed over once, as that answer. -/
def DeliversOwn : Prop :=
  ∀ t, op.response = some t → msg.topic.chars = deviceTopic d t.topicName →
    ∃ heap', mqttClientMessageCb core ok subs true msg heap = some heap' ∧
      deliveredTypes (callsOf heap'.log) = deliveredTypes (callsOf heap.log) ++ [t]

/-- The operation and its topics agree. -/
structure OperationAgrees : Prop where
  published : PublishesOwn env mqmsgid context op deviceId data
  delivered : DeliversOwn op core ok subs d msg heap

/-- When they do. -/
structure OperationFits : Prop where
  request : env.allocOk = true → (op.NeedsData → data ≠ none) →
    op.type ∉ drifted ∧ 8 + (op.device context deviceId).chars.length + op.type.topicName.length ≤ 127
  answer : ∀ t, op.response = some t → msg.topic.chars = deviceTopic d t.topicName →
    msg.payload ≠ [] ∧ ok heap.next = true ∧ AnswerFits d t

end Agreement

/-! ### The table -/

private theorem mem_enumerators (t : ThingType) : t ∈ ThingType.enumerators := by
  cases t <;> decide

/-- Where the table has the topic of the enumerator `i`. -/
def entryIndex (i : Nat) : Nat := if i = 33 ∨ i = 34 then i + 4 else if 35 ≤ i ∧ i ≤ 38 then i - 2 else i

/-- Every topic that an enumerator names is an entry, at the position of the enumerator unless that is a drifted
one. -/
theorem topicName_entry {t : ThingType} (ht : t.toIndex < 49) :
    ∃ i < 49, tylinkSuffixMap.getD i [] = t.topicName ∧ (i = t.toIndex ↔ t ∉ drifted) := by
  have hentry : tylinkSuffixMap[entryIndex t.toIndex]? = some t.topicName := by
    cases t with
    | max => exact absurd ht (by decide)
    | unknown => exact absurd ht (by decide)
    | _ => rfl
  have hindex : ∀ t ∈ ThingType.enumerators, t.toIndex < 49 →
      entryIndex t.toIndex < 49 ∧ (entryIndex t.toIndex = t.toIndex ↔ t ∉ drifted) := by
    decide
  obtain ⟨hlt, hiff⟩ := hindex t (mem_enumerators t) ht
  refine ⟨_, hlt, ?_, hiff⟩
  rw [List.getD_eq_getElem?_getD, hentry, Option.getD_some]

/-- No entry is there twice. -/
private theorem suffixes_nodup : tylinkSuffixMap.Nodup := by
  refine suffixes_separate.imp fun hne heq => hne ?_
  rw [heq]
  exact List.take_length

theorem namedAlike_iff {t : ThingType} (ht : t.toIndex < 49) : NamedAlike t ↔ t ∉ drifted := by
  obtain ⟨i, hi, hentry, hiff⟩ := topicName_entry ht
  have hlen : ∀ {j}, j < 49 → j < tylinkSuffixMap.length := fun h => h
  rw [NamedAlike, suffix_get ht, Option.some_inj, ← hentry, ← hiff, List.getD_eq_getElem _ _ (hlen ht),
    List.getD_eq_getElem _ _ (hlen hi), suffixes_nodup.getElem_inj_iff]
  exact eq_comm

theorem entry_of_notMem_drifted {t : ThingType} (ht : t.toIndex < 49) (hdrift : t ∉ drifted) :
    tylinkSuffixMap.getD t.toIndex [] = t.topicName := by
  have h := (namedAlike_iff ht).2 hdrift
  rwa [NamedAlike, suffix_get ht, Option.some_inj] at h

/-! ### Requests -/

private theorem deviceTopic_head (d s : List UInt8) : (deviceTopic d s).take 7 = tylinkPrefix :=
  List.take_left' (by decide)

private theorem deviceTopic_drop (d s : List UInt8) : (deviceTopic d s).drop 7 = d ++ slash :: s :=
  List.drop_left' (by decide)

/-- The topic that is published is the one that is meant when it is not cut, and the enumerator has not drifted. -/
theorem topicStuff_eq_iff (d : List UInt8) {t : ThingType} (ht : t.toIndex < 49) :
    topicStuff d (tylinkSuffixMap.getD t.toIndex []) = deviceTopic d t.topicName ↔
      t ∉ drifted ∧ 8 + d.length + t.topicName.length ≤ 127 := by
  have hlen : (deviceTopic d t.topicName).length = 8 + d.length + t.topicName.length :=
    length_of_split (deviceTopic_head _ _) (deviceTopic_drop _ _)
  have hstuff : topicStuff d (tylinkSuffixMap.getD t.toIndex []) =
      (deviceTopic d (tylinkSuffixMap.getD t.toIndex [])).take 127 := by
    rw [topicStuff, deviceTopic, List.append_assoc]
  rw [hstuff]
  constructor
  · intro h
    have hle := congrArg List.length h
    rw [List.length_take, hlen] at hle
    refine ⟨?_, by omega⟩
    intro hdrift
    have hstart : t.topicName <+: tylinkSuffixMap.getD t.toIndex [] := by
      have hpre : deviceTopic d t.topicName <+: deviceTopic d (tylinkSuffixMap.getD t.toIndex []) := by
        rw [← h]
        exact List.take_prefix _ _
      rw [deviceTopic, deviceTopic, List.prefix_append_right_inj, List.prefix_append_right_inj,
        List.cons_prefix_cons] at hpre
      exact hpre.2
    have hnot : ∀ t ∈ drifted, ¬ t.topicName <+: tylinkSuffixMap.getD t.toIndex [] := by decide +kernel
    exact hnot t hdrift hstart
  · rintro ⟨hdrift, hle⟩
    rw [entry_of_notMem_drifted ht hdrift, List.take_of_length_le (by omega)]

/-- The enumerators of an operation are entries of the table. -/
private theorem type_lt (op : Operation) : op.type.toIndex < 49 := by
  cases op <;> decide

private theorem response_lt {op : Operation} {t : ThingType} (h : op.response = some t) :
    t.toIndex < 49 ∧ t ≠ .modelGet := by
  cases op <;> cases h <;> decide

theorem publishesOwn_iff (env : SendEnv) (mqmsgid : UInt16) (context : TuyaMqttContext) (op : Operation)
    (deviceId data : Option CString) :
    PublishesOwn env mqmsgid context op deviceId data ↔
      (env.allocOk = true → (op.NeedsData → data ≠ none) →
        op.type ∉ drifted ∧ 8 + (op.device context deviceId).chars.length + op.type.topicName.length ≤ 127) := by
  refine forall_congr' fun halloc => forall_congr' fun hdata => ?_
  obtain ⟨id, data', ack, hrequest, hid⟩ := op.request_eq env (recordPublish mqmsgid) context deviceId data hdata []
  obtain ⟨r, p, hsend, hworld⟩ := send_publishes halloc mqmsgid context (type_lt op) id data' ack
  have htopic := topic_of_send (show (requestMessage op.type id data' ack).deviceId.getD _ = _ from hid) hsend
    (show p ∈ r.world by simp [hworld])
  rw [hrequest, ← topicStuff_eq_iff _ (type_lt op)]
  constructor
  · rintro ⟨r', p', hsend', hworld', htopic'⟩
    rw [hsend, Option.some_inj] at hsend'
    rw [← hsend', hworld, List.singleton_inj] at hworld'
    rw [← htopic', ← hworld']
    exact htopic.symm
  · intro heq
    exact ⟨r, p, hsend, hworld, htopic.trans heq⟩

/-! ### Answers -/

theorem parsedType_eq_iff {topic : List UInt8} (hnul : 0 ∉ topic) (hhead : topic.take 7 = tylinkPrefix)
    (hin : slash ∈ topic.drop 7 ∨ 256 ≤ topic.length) {t : ThingType} (ht : t.toIndex < 49) :
    parsedType topic = t ↔ EntryPicked topic t := by
  have hnul' : 0 ∉ topic.drop (suffixStart (topic.drop 7)) := fun h => hnul (List.mem_of_mem_drop h)
  have hmatch := thingTypeMatch_eq_iff hnul' (topicSplit topic).thingLength ht
  rw [ThingType.ofIndex_toIndex, toNat_thingLength hhead ((suffixStart_le_iff hhead).2 hin)] at hmatch
  exact hmatch

/-- Under an id without a separator, the topic of an answer is taken for it when the id is not too long and the
enumerator has not drifted. -/
theorem parsedType_deviceTopic_iff {d : List UInt8} (hd : slash ∉ d) {t : ThingType} (ht : t.toIndex < 49)
    (hnul : 0 ∉ deviceTopic d t.topicName) (hname : 8 ≤ t.topicName.length) (hname' : t.topicName.length < 256) :
    parsedType (deviceTopic d t.topicName) = t ↔ d.length ≤ 248 ∧ t ∉ drifted := by
  have hhead := deviceTopic_head d t.topicName
  have hdrop := deviceTopic_drop d t.topicName
  have hlen := length_of_split hhead hdrop
  by_cases hshort : d.length ≤ 248
  · obtain ⟨i, hi, hentry, hiff⟩ := topicName_entry ht
    have hthing := thing_of_split hhead hdrop hd hshort
    have hlength := thingLength_of_split hhead hdrop hd hshort
    rw [Nat.mod_eq_of_lt hname', ← hentry] at hlength
    rw [thingOffset_eq hhead] at hthing
    rw [parsedType, hthing, ← hentry, thingTypeMatch_suffix hi hlength, ← hiff]
    constructor
    · intro h
      have hindex := congrArg ThingType.toIndex h
      rw [ThingType.toIndex_ofIndex (show i < 51 by omega)] at hindex
      exact ⟨hshort, hindex⟩
    · rintro ⟨-, h⟩
      rw [h, ThingType.ofIndex_toIndex]
  · have hin : slash ∈ (deviceTopic d t.topicName).drop 7 ∨ 256 ≤ (deviceTopic d t.topicName).length := by
      right
      omega
    have hstart : suffixStart ((deviceTopic d t.topicName).drop 7) = (7 + d.length) % 256 + 1 := by
      rw [hdrop, suffixStart_of_slash hd]
    have hlength : ((deviceTopic d t.topicName).length - suffixStart ((deviceTopic d t.topicName).drop 7)) % 256 =
        t.topicName.length := by
      rw [hstart, hlen]
      omega
    rw [parsedType_eq_iff hnul hhead hin ht]
    constructor
    · rintro ⟨hagree, -⟩
      rw [hlength] at hagree
      have hmem : tylinkSuffixMap.getD t.toIndex [] ∈ tylinkSuffixMap := by
        rw [List.getD_eq_getElem _ _ (show t.toIndex < tylinkSuffixMap.length from ht)]
        exact List.getElem_mem _
      exact absurd hagree (entry_take_ne hd hmem t.topicName hname (by omega))
    · rintro ⟨h, -⟩
      exact absurd h hshort

/-- Reading a payload calls no application code. -/
private theorem callsOf_parsePayload {core : CoreJson} {ok : Nat → Bool} (payload : List UInt8) (deviceId : HeapString)
    (out : TuyalinkMessage HeapString) (heap : MessageHeap) :
    callsOf (parsePayload core ok payload deviceId out heap).heap.log = callsOf heap.log := by
  have hcopy : ∀ value heap, callsOf (copyValue ok value heap).2.log = callsOf heap.log := by
    intro value heap
    cases hok : ok heap.next with
    | false => rw [copyValue_fail hok]
    | true => rw [copyValue_ok hok, callsOf_malloc]
  have hdata : ∀ out heap, callsOf (parseData core ok payload deviceId out heap).heap.log = callsOf heap.log := by
    intro out heap
    unfold parseData
    split
    · rfl
    · rename_i value _
      have h := hcopy value heap
      split
      · rename_i heap' heq
        rwa [heq] at h
      · rename_i heap' heq
        rw [heq] at h
        simpa using h
  unfold parsePayload
  split
  · exact callsOf_free _
  · unfold parseMsgid
    split
    · exact hdata _ _
    · rename_i value _
      have h := hcopy value heap
      split
      · rename_i heap' heq
        rw [heq] at h
        rw [hdata]
        exact h
      · rename_i heap' heq
        rw [heq] at h
        simpa using h

private theorem deliveredTypes_deliver (out : TuyalinkMessage HeapString) (heap : MessageHeap) :
    deliveredTypes (callsOf (deliverMessage true out heap).log) = deliveredTypes (callsOf heap.log) ++ [out.type] := by
  have hcalls : callsOf (deliverMessage true out heap).log = callsOf heap.log ++ [.onMessages out] := by
    simp [deliverMessage]
  rw [hcalls, deliveredTypes, List.filterMap_append]
  rfl

private theorem deliveredTypes_distribute (msg : MqttClientMessage) (subs : List SubscribeHandle)
    (heap : MessageHeap) :
    deliveredTypes (callsOf (mqttSubscribeMessageDistribute msg subs heap).log) =
      deliveredTypes (callsOf heap.log) := by
  induction subs generalizing heap with
  | nil => rfl
  | cons target rest ih =>
    rw [mqttSubscribeMessageDistribute, ih]
    split
    · simp [deliveredTypes]
    · rfl

/-- The types that the callback hands over for a topic with both separators: none for the raw channel, and else one,
which is that of the topic when the payload is read at all. -/
theorem deliveredTypes_messageCb {core : CoreJson} {ok : Nat → Bool} (subs : List SubscribeHandle)
    {msg : MqttClientMessage} (hhead : msg.topic.chars.take 7 = tylinkPrefix) (hslash : slash ∈ msg.topic.chars.drop 7)
    (heap : MessageHeap) :
    ∃ heap', mqttClientMessageCb core ok subs true msg heap = some heap' ∧
      deliveredTypes (callsOf heap'.log) = deliveredTypes (callsOf heap.log) ++
        if bytes "channel/raw/down" <:+: msg.topic.chars then []
        else if msg.payload = [] ∨ ok heap.next = false then [.modelGet] else [parsedType msg.topic.chars] := by
  have hstart := deliveredTypes_distribute msg subs heap
  have hnext := distribute_next msg subs heap
  by_cases hraw : bytes "channel/raw/down" <:+: msg.topic.chars
  · refine ⟨mqttSubscribeMessageDistribute msg subs heap, ?_, ?_⟩
    · simp only [mqttClientMessageCb, strstr_eq_true.2 hraw, ite_true]
    · rw [hstart, if_pos hraw, List.append_nil]
  have hfalse := Bool.eq_false_iff.2 (mt strstr_eq_true.1 hraw)
  simp only [mqttClientMessageCb, hfalse, Bool.false_eq_true, ite_false, if_neg hraw]
  generalize mqttSubscribeMessageDistribute msg subs heap = heap₁ at hstart hnext ⊢
  by_cases hp : msg.payload = []
  · simp only [MqttClientMessage.payloadPointer, hp, ite_true, tuyaLinkThingMessageParse, Option.map_some, true_or]
    refine ⟨_, rfl, ?_⟩
    rw [deliveredTypes_deliver, hstart]
    rfl
  simp only [MqttClientMessage.payloadPointer, hp, ite_false, false_or]
  cases hok : ok heap.next with
  | false =>
    rw [← hnext] at hok
    rw [parse_of_deviceId_fail hhead _ _ hok, Option.map_some]
    refine ⟨_, rfl, ?_⟩
    rw [deliveredTypes_deliver, hstart, if_pos rfl]
    rfl
  | true =>
    rw [← hnext] at hok
    rw [parse_of_inside core hhead (Or.inl hslash) _ _ _ hok, Option.map_some]
    refine ⟨_, rfl, ?_⟩
    rw [deliveredTypes_deliver, callsOf_parsePayload, callsOf_malloc, hstart, (parsePayload_spec _ _ _ _).2.2,
      if_neg (by simp)]

/-- The answers have names of eight characters or more, none of which is that of the raw channel. -/
private theorem response_name {op : Operation} {t : ThingType} (h : op.response = some t) :
    8 ≤ t.topicName.length ∧ t.topicName.length < 256 ∧ ¬ bytes "raw/down" <+: t.topicName ∧
      ¬ bytes "channel/raw/down" <:+: t.topicName := by
  cases op <;> cases h <;> decide +kernel

private theorem answerFits_iff {op : Operation} {d : List UInt8} {t : ThingType} (h : op.response = some t)
    (hnul : 0 ∉ deviceTopic d t.topicName) :
    AnswerFits d t ↔
      ¬ bytes "channel/raw/down" <:+: deviceTopic d t.topicName ∧ parsedType (deviceTopic d t.topicName) = t := by
  obtain ⟨hname, hname', hstart, hinside⟩ := response_name h
  have ht := (response_lt h).1
  by_cases hd : slash ∈ d
  · have hin : slash ∈ (deviceTopic d t.topicName).drop 7 := by
      rw [deviceTopic_drop]
      simp
    rw [parsedType_eq_iff hnul (deviceTopic_head _ _) (Or.inl hin) ht]
    constructor
    · intro hfits
      cases hfits with
      | plain hd' => exact absurd hd hd'
      | separated _ hraw hpicked => exact ⟨hraw, hpicked⟩
    · rintro ⟨hraw, hpicked⟩
      exact .separated hd hraw hpicked
  · rw [parsedType_deviceTopic_iff hd ht hnul hname hname']
    constructor
    · intro hfits
      cases hfits with
      | plain _ hlen hdrift => exact ⟨not_raw_of_suffix hd hstart hinside, hlen, hdrift⟩
      | separated hd' => exact absurd hd' hd
    · rintro ⟨-, hlen, hdrift⟩
      exact .plain hd hlen hdrift

theorem deliversOwn_iff (op : Operation) (core : CoreJson) (ok : Nat → Bool) (subs : List SubscribeHandle)
    (d : List UInt8) (msg : MqttClientMessage) (heap : MessageHeap) :
    DeliversOwn op core ok subs d msg heap ↔
      ∀ t, op.response = some t → msg.topic.chars = deviceTopic d t.topicName →
        msg.payload ≠ [] ∧ ok heap.next = true ∧ AnswerFits d t := by
  refine forall_congr' fun t => forall_congr' fun ht => forall_congr' fun htopic => ?_
  have hhead : msg.topic.chars.take 7 = tylinkPrefix := by rw [htopic, deviceTopic_head]
  have hslash : slash ∈ msg.topic.chars.drop 7 := by
    rw [htopic, deviceTopic_drop]
    simp
  have hnul : 0 ∉ deviceTopic d t.topicName := by
    rw [← htopic]
    exact msg.topic.noNul
  obtain ⟨heap', hcb, htypes⟩ := @deliveredTypes_messageCb core ok subs msg hhead hslash heap
  rw [htopic] at htypes
  rw [answerFits_iff ht hnul]
  have hother : ThingType.modelGet ≠ t := (response_lt ht).2.symm
  constructor
  · rintro ⟨heap'', hcb', htypes'⟩
    rw [hcb, Option.some_inj] at hcb'
    rw [← hcb', htypes, List.append_right_inj] at htypes'
    split at htypes'
    · cases htypes'
    · rename_i hraw
      split at htypes'
      · exact absurd (List.singleton_inj.1 htypes') hother
      · rename_i hread
        rw [not_or] at hread
        exact ⟨hread.1, Bool.of_not_eq_false hread.2, hraw, List.singleton_inj.1 htypes'⟩
  · rintro ⟨hp, hok, hraw, htype⟩
    refine ⟨heap', hcb, ?_⟩
    rw [htypes, if_neg hraw, if_neg (by simp [hp, hok]), htype]

/-! ### Exact agreement -/

/-- The table names what the enumeration names outside six positions.  An operation and its topics agree when its
enumerators are not among the six, its topic is not cut to 127 characters, the answer has a payload and gets memory,
and the id in the topic of the answer has no separator and at most 248 characters. -/
theorem operationAgrees_iff (env : SendEnv) (mqmsgid : UInt16) (context : TuyaMqttContext) (op : Operation)
    (deviceId data : Option CString) (core : CoreJson) (ok : Nat → Bool) (subs : List SubscribeHandle) (d : List UInt8)
    (msg : MqttClientMessage) (heap : MessageHeap) :
    (∀ t : { t : ThingType // t.toIndex < 49 }, NamedAlike t.1 ↔ t.1 ∉ drifted) ∧
      (OperationAgrees env mqmsgid context op deviceId data core ok subs d msg heap ↔
        OperationFits env context op deviceId data ok d msg heap) := by
  refine ⟨fun t => namedAlike_iff t.2, ?_⟩
  have hpublish := publishesOwn_iff env mqmsgid context op deviceId data
  have hdeliver := deliversOwn_iff op core ok subs d msg heap
  constructor
  · rintro ⟨hp, hd⟩
    exact ⟨hpublish.1 hp, hdeliver.1 hd⟩
  · rintro ⟨hr, ha⟩
    exact ⟨hpublish.2 hr, hdeliver.2 ha⟩

/-- The answer to a request of the configuration, for the device `x`. -/
def configMessage : MqttClientMessage :=
  ⟨⟨bytes "tylink/x/ext/config/get_response", by decide, by decide⟩, bytes "\x7b\x7d", .qos0⟩

/-- A request of the configuration is published on `ext/file/upload/request`. -/
theorem not_operationAgrees_remoteConfigGet :
    ¬ OperationAgrees ⟨true, fun _ => 0, 1700000000⟩ 1 exampleContext .remoteConfigGet none
      (some ⟨bytes "\x7b\x7d", by decide, by decide⟩) asciiJson (fun _ => true) [] (bytes "x") configMessage ⟨0, []⟩ := by
  intro h
  have hfits := (publishesOwn_iff _ _ _ _ _ _).1 h.published rfl (by simp)
  exact absurd hfits.1 (by decide)

end TuyaDaemon
