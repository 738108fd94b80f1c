import TuyaDaemon.CoreJson.Lookup
import TuyaDaemon.Link.MessageOwnership
import TuyaDaemon.Link.MessageSend

/-!
# Topics out and in

A topic that `tuyalink_message_send` formats without cutting it is read back by `tuya_link_thing_message_parse` as
the same device id and the same type: the separators stay below 128, so the 8-bit offsets are exact, and no entry of
the table starts with a later one.
-/

namespace TuyaDaemon

open CLib

/-- The topic in full. -/
def fullTopic (d : List UInt8) (type : ThingType) : List UInt8 :=
  tylinkPrefix ++ (d ++ slash :: tylinkSuffixMap.getD type.toIndex [])

/-- Every publish of a send is on the topic of the message. -/
theorem topic_of_send {env : SendEnv} {mqmsgid : UInt16} {context : TuyaMqttContext} {message : TuyalinkMessage CString}
    {d : CString} (hd : message.deviceId.getD context.config.deviceId = d) {r : SendResult (List Publish)}
    (hsend : tuyalinkMessageSend env (recordPublish mqmsgid) context message [] = some r) {p : Publish}
    (hp : p ∈ r.world) :
    p.topic = topicStuff d.chars (tylinkSuffixMap.getD message.type.toIndex []) := by
  unfold tuyalinkMessageSend at hsend
  rcases hget : tylinkSuffixMap[message.type.toIndex]? with _ | suffix
  · simp [hget] at hsend
  · have hsuffix : tylinkSuffixMap.getD message.type.toIndex [] = suffix := by
      rw [List.getD_eq_getElem?_getD, hget]
      rfl
    rw [hsuffix]
    simp only [hget, hd] at hsend
    by_cases halloc : env.allocOk = true
    · simp only [halloc, ite_true] at hsend
      obtain ⟨buf, -, rfl⟩ := Option.map_eq_some_iff.1 hsend
      have hworld : p ∈ [(⟨topicStuff d.chars suffix, buf, buf.len⟩ : Publish)] := by
        split at hp <;> exact hp
      rw [List.mem_singleton.1 hworld]
    · simp only [halloc] at hsend
      cases hsend
      cases hp

/-- A topic in full is split where it was joined. -/
theorem parsed_fullTopic {d : List UInt8} (hd : slash ∉ d) {type : ThingType} (htype : type.toIndex < 49)
    (hfits : (fullTopic d type).length ≤ 127) :
    parsedDeviceId (fullTopic d type) = d ∧ parsedType (fullTopic d type) = type := by
  have h7 : tylinkPrefix.length = 7 := by decide
  have hhead : (fullTopic d type).take 7 = tylinkPrefix := List.take_left' h7
  have hdrop : (fullTopic d type).drop 7 = d ++ slash :: tylinkSuffixMap.getD type.toIndex [] := List.drop_left' h7
  have hlength := length_of_split hhead hdrop
  have hthing := thing_of_split hhead hdrop hd (by omega)
  have hthingLength := thingLength_of_split hhead hdrop hd (by omega)
  rw [thingOffset_eq hhead] at hthing
  rw [Nat.mod_eq_of_lt (by omega)] at hthingLength
  refine ⟨parsedDeviceId_of_split hhead hdrop hd (by omega), ?_⟩
  rw [parsedType, hthing, thingTypeMatch_suffix htype hthingLength, ThingType.ofIndex_toIndex]

/-- The topic of a sent message, given to the parser with a payload that `JSON_Validate` accepts, is accepted with the
device id and the type it was made of. -/
theorem parse_sent_topic {core : CoreJson} {ok : Nat → Bool} (hok : ∀ n, ok n = true) {env : SendEnv}
    {mqmsgid : UInt16} {context : TuyaMqttContext} {message : TuyalinkMessage CString}
    (htype : message.type.toIndex < ThingType.max.toIndex) {d : CString}
    (hdevice : message.deviceId.getD context.config.deviceId = d)
    (hslash : slash ∉ d.chars) (hfits : (fullTopic d.chars message.type).length ≤ 127)
    {r : SendResult (List Publish)}
    (hsend : tuyalinkMessageSend env (recordPublish mqmsgid) context message [] = some r) {p : Publish}
    (hp : p ∈ r.world) {payload : List UInt8} (hvalid : core.validate payload = .success)
    (out : TuyalinkMessage HeapString) (heap : MessageHeap) :
    ∃ parsed, tuyaLinkThingMessageParse core ok p.topic (some payload) out heap = some parsed ∧
      parsed.rc = some oprtOk ∧ parsed.out.deviceId.map HeapString.chars = some d.chars ∧
      parsed.out.type = message.type := by
  have htopic : p.topic = fullTopic d.chars message.type := by
    have hlen : (tylinkPrefix ++ d.chars ++ slash :: tylinkSuffixMap.getD message.type.toIndex []).length ≤ 127 := by
      rw [List.append_assoc]
      exact hfits
    rw [topic_of_send hdevice hsend hp, topicStuff, List.take_of_length_le hlen, fullTopic, List.append_assoc]
  have h7 : tylinkPrefix.length = 7 := by decide
  have hhead : (fullTopic d.chars message.type).take 7 = tylinkPrefix := List.take_left' h7
  have hin : slash ∈ (fullTopic d.chars message.type).drop 7 ∨ 256 ≤ (fullTopic d.chars message.type).length := by
    left
    rw [fullTopic, List.drop_left' h7]
    simp
  obtain ⟨hid, htype'⟩ := parsed_fullTopic hslash htype hfits
  rw [htopic, parse_of_inside core hhead hin payload out heap (hok heap.next),
    parsePayload_accepted hvalid _ _ (fun _ => hok _) (fun _ => hok _)]
  exact ⟨_, rfl, rfl, congrArg some hid, htype'⟩

/-- A property report of the device `x` is published. -/
theorem send_propertyReport :
    ∃ r p, tuyalinkMessageSend ⟨true, fun _ => 0, 1700000000⟩ (recordPublish 1) exampleContext
        (requestMessage .propertyReport (some ⟨bytes "x", by decide, by decide⟩) none false) [] = some r ∧
      p ∈ r.world := by
  have hfits : SendFits exampleContext ⟨true, fun _ => 0, 1700000000⟩ none := by
    refine ⟨by decide, by decide, ?_⟩
    show 8 ≤ 2147483647
    decide
  obtain ⟨r, hr, hpub⟩ := sendsComplete_of_sendFits rfl 1
    (show ThingType.propertyReport.toIndex < 49 by decide) (some ⟨bytes "x", by decide, by decide⟩) false hfits
  obtain ⟨p, hworld, -⟩ := hpub rfl
  exact ⟨r, p, hr, by simp [hworld]⟩

/-- It is read back with the payload `{"data":1}`. -/
theorem parse_sent_topic_propertyReport :
    ∃ r p parsed, tuyalinkMessageSend ⟨true, fun _ => 0, 1700000000⟩ (recordPublish 1) exampleContext
        (requestMessage .propertyReport (some ⟨bytes "x", by decide, by decide⟩) none false) [] = some r ∧
      p ∈ r.world ∧
      tuyaLinkThingMessageParse coreJson (fun _ => true) p.topic (some (bytes "\x7b\"data\":1\x7d")) .zero ⟨0, []⟩ =
        some parsed ∧
      parsed.rc = some oprtOk ∧ parsed.out.deviceId.map HeapString.chars = some (bytes "x") ∧
      parsed.out.type = .propertyReport := by
  obtain ⟨r, p, hr, hp⟩ := send_propertyReport
  have hvalid : coreJson.validate (bytes "\x7b\"data\":1\x7d") = .success := by decide
  obtain ⟨parsed, hparsed⟩ := parse_sent_topic (show ∀ _ : Nat, true = true from fun _ => rfl) (by decide) rfl
    (by decide) (by decide +kernel) hr hp hvalid .zero ⟨0, []⟩
  exact ⟨r, p, parsed, hr, hp, hparsed⟩

/-- `JSON_Validate` rejects an escaped NUL, so with the JSON document `"\u0000"` the topic is not accepted. -/
theorem not_parse_sent_topic_nul :
    ∃ r p, tuyalinkMessageSend ⟨true, fun _ => 0, 1700000000⟩ (recordPublish 1) exampleContext
        (requestMessage .propertyReport (some ⟨bytes "x", by decide, by decide⟩) none false) [] = some r ∧
      p ∈ r.world ∧ Json.Valid (bytes "\"\\u0000\"") ∧
      ¬ ∃ parsed, tuyaLinkThingMessageParse coreJson (fun _ => true) p.topic (some (bytes "\"\\u0000\"")) .zero ⟨0, []⟩ =
          some parsed ∧
        parsed.rc = some oprtOk ∧ parsed.out.deviceId.map HeapString.chars = some (bytes "x") ∧
        parsed.out.type = .propertyReport := by
  obtain ⟨r, p, hr, hp⟩ := send_propertyReport
  refine ⟨r, p, hr, hp, asciiJson_documented.valid _ (by decide), ?_⟩
  rintro ⟨parsed, hparsed, hrc, -⟩
  have hpayload : coreJson.validate (bytes "\"\\u0000\"") = .success → bytes "\"\\u0000\"" ≠ [] := fun _ => by decide
  have hvalid := (accepted_of_parse_ok hpayload hparsed hrc).validate
  exact absurd hvalid (by decide)

end TuyaDaemon
