import TuyaDaemon.CLib.Blocks
import TuyaDaemon.Json.Parse
import TuyaDaemon.Link.Topic
import TuyaDaemon.Mqtt.Client

/-!
# Inbound messages

`tuya_link_thing_message_parse` and `mqtt_client_message_cb` over a heap whose allocations succeed or fail as an
oracle says, with the daemon's `on_tuya_message`.  The JSON functions of coreJSON are a parameter (`CoreJson`), and
`CoreJson.Documented` is what their documentation promises.  A result `none` means that the code reads outside the
topic.  On a payload that the parser accepts the whole reader is known (`parsePayload_accepted`).
-/

namespace TuyaDaemon

open CLib

/-! ### coreJSON -/

inductive JSONStatus where
  | partialDocument
  | success
  | illegalDocument
  | maxDepthExceeded
  | notFound
  | nullParameter
  | badParameter
deriving DecidableEq, Repr

/-- `JSON_Validate`, and `JSON_Search` with the text it finds. -/
structure CoreJson where
  validate : List UInt8 → JSONStatus
  search : List UInt8 → List UInt8 → Option (List UInt8)

/-- The text of a value without its quotes when it is a string. -/
def unquote : List UInt8 → List UInt8
  | [] => []
  | c :: v => if c = Json.dquote then v.dropLast else c :: v

/-- A query that names one member: it has none of the separators of `JSON_Search`. -/
def SimpleQuery (key : List UInt8) : Prop := key ≠ [] ∧ (46 : UInt8) ∉ key ∧ (91 : UInt8) ∉ key

/-- `JSON_Validate` accepts only JSON documents, and on those `JSON_Search` finds the first member with the key. -/
structure CoreJson.Documented (core : CoreJson) : Prop where
  valid : ∀ payload, core.validate payload = .success → Json.Valid payload
  found : ∀ payload key, core.validate payload = .success → SimpleQuery key →
    core.search payload key = (Json.lookup payload key).map unquote

/-- coreJSON on ASCII documents. -/
def asciiJson : CoreJson where
  validate payload :=
    match Json.parse (Json.need .value (Json.skipWs payload).length) .value (Json.skipWs payload) with
    | some (_, rest) =>
      if Json.skipWs rest = [] ∧ payload.all (fun c => decide (c < 128)) = true then .success else .illegalDocument
    | none => .illegalDocument
  search payload key := (Json.lookup payload key).map unquote

theorem asciiJson_documented : asciiJson.Documented := by
  refine ⟨?_, ?_⟩
  · intro payload h
    simp only [asciiJson] at h
    split at h
    · rename_i ms rest hparse
      split at h
      · rename_i hrest
        obtain ⟨hder, hnil⟩ := Json.parse_sound hparse
        rw [hnil (by decide)] at hder
        refine ⟨Json.isUtf8_of_ascii ?_, rest, hder, hrest.1⟩
        intro c hc
        have hlt := List.all_eq_true.1 hrest.2 c hc
        exact UInt8.lt_iff_toNat_lt.1 (of_decide_eq_true hlt)
      · cases h
    · cases h
  · intro payload key _ _
    rfl

/-! ### The parser -/

/-- A string in a heap block. -/
structure HeapString where
  block : Nat
  chars : List UInt8
deriving DecidableEq, Repr

/-- The application code a message is handed to. -/
inductive MessageCall where
  | subscriber (cb : Nat) (topic : List UInt8)
  | onMessages (out : TuyalinkMessage HeapString)
deriving DecidableEq, Repr

abbrev MessageHeap := Heap MessageCall

/-- The offsets and lengths that split a topic, each kept in a `uint8_t`. -/
structure TopicSplit where
  devidOffset : UInt8
  thingOffset : UInt8
  devidLength : UInt8
  thingLength : UInt8
deriving DecidableEq, Repr

def topicSplit (topic : List UInt8) : TopicSplit :=
  let devidOffset := UInt8.ofInt (stringFind topic slash 0)
  let thingOffset := UInt8.ofInt (stringFind topic slash 1)
  ⟨devidOffset, thingOffset, thingOffset - devidOffset - 1, UInt8.ofNat topic.length - thingOffset - 1⟩

/-- A parse: `rc` is `none` when the function ends with a bare `return`. -/
structure ParseResult where
  rc : Option Int
  out : TuyalinkMessage HeapString
  heap : MessageHeap

section Parse

variable (core : CoreJson) (ok : Nat → Bool)

/-- `system_malloc(value_length + 1)` and the copy of the value. -/
def copyValue (value : List UInt8) (heap : MessageHeap) : Option HeapString × MessageHeap :=
  match heap.malloc ok with
  | (some b, heap) => (some ⟨b, value⟩, heap)
  | (none, heap) => (none, heap)

def parseData (payload : List UInt8) (deviceId : HeapString) (out : TuyalinkMessage HeapString)
    (heap : MessageHeap) : ParseResult :=
  match core.search payload (bytes "data") with
  | none => ⟨some oprtOk, out, heap⟩
  | some value =>
    match copyValue ok value heap with
    | (some s, heap) => ⟨some oprtOk, { out with dataString := some s }, heap⟩
    | (none, heap) =>
      ⟨some oprtMallocFailed, { out with dataString := none },
        (heap.free deviceId.block).freeIf (out.msgid.map HeapString.block)⟩

def parseTime (payload : List UInt8) (out : TuyalinkMessage HeapString) : TuyalinkMessage HeapString :=
  match core.search payload (bytes "time") with
  | none => out
  | some value => { out with time := UInt64.ofInt (atoi value) }

def parseMsgid (payload : List UInt8) (deviceId : HeapString) (out : TuyalinkMessage HeapString)
    (heap : MessageHeap) : ParseResult :=
  match core.search payload (bytes "msgId") with
  | none => parseData core ok payload deviceId (parseTime core payload out) heap
  | some value =>
    match copyValue ok value heap with
    | (some s, heap) => parseData core ok payload deviceId (parseTime core payload { out with msgid := some s }) heap
    | (none, heap) => ⟨some oprtMallocFailed, { out with msgid := none }, heap.free deviceId.block⟩

def parseCode (payload : List UInt8) (out : TuyalinkMessage HeapString) : TuyalinkMessage HeapString :=
  match core.search payload (bytes "code") with
  | none => out
  | some value => { out with code := UInt32.ofInt (atoi value) }

/-- The part of the parser that reads the payload. -/
def parsePayload (payload : List UInt8) (deviceId : HeapString) (out : TuyalinkMessage HeapString)
    (heap : MessageHeap) : ParseResult :=
  if core.validate payload ≠ .success then ⟨some oprtCjsonParseErr, out, heap.free deviceId.block⟩
  else parseMsgid core ok payload deviceId (parseCode core payload out) heap

def tuyaLinkThingMessageParse (topic : List UInt8) (payload : Option (List UInt8))
    (out : TuyalinkMessage HeapString) (heap : MessageHeap) : Option ParseResult :=
  match payload with
  | none => some ⟨some oprtInvalidParm, out, heap⟩
  | some payload =>
    if topic.take 7 ≠ tylinkPrefix then some ⟨some oprtInvalidParm, out, heap⟩
    else
      let split := topicSplit topic
      -- `snprintf(out->device_id, devid_length + 1, "%.*s", devid_length, devid)`
      let devid := (topic.drop (split.devidOffset.toNat + 1)).take split.devidLength.toNat
      match copyValue ok devid heap with
      | (none, heap) => some ⟨none, { out with deviceId := none }, heap⟩
      | (some deviceId, heap) =>
        -- the text that `thing` points to must not start behind the terminator of the topic
        if split.thingOffset.toNat + 1 ≤ topic.length then
          let thing := topic.drop (split.thingOffset.toNat + 1)
          let type := thingTypeMatch thing split.thingLength
          some (parsePayload core ok payload deviceId { out with deviceId := some deviceId, type := type } heap)
        else none

end Parse

/-! ### Where a topic is split -/

/-- Where the parser takes the suffix of `"tylink/" ++ rest` to start: behind the second separator, its position
being cut to 8 bits, and behind position 255 when there is none. -/
def suffixStart (rest : List UInt8) : Nat :=
  if slash ∈ rest then (7 + (rest.takeWhile (· ≠ slash)).length) % 256 + 1 else 256

theorem tylinkPrefix_eq : tylinkPrefix = bytes "tylink" ++ [slash] := by decide

theorem slash_notMem_tylink : slash ∉ bytes "tylink" := by decide

theorem eq_tylinkPrefix_append {topic : List UInt8} (h : topic.take 7 = tylinkPrefix) :
    topic = tylinkPrefix ++ topic.drop 7 := by
  rw [← h, List.take_append_drop]

/-- A topic with another suffix is never taken for one of the raw channel. -/
theorem not_raw_of_suffix {d s : List UInt8} (hd : slash ∉ d) (hstart : ¬ bytes "raw/down" <+: s)
    (hinside : ¬ bytes "channel/raw/down" <:+: s) :
    ¬ bytes "channel/raw/down" <:+: tylinkPrefix ++ (d ++ slash :: s) := by
  intro h
  have hpattern : bytes "channel/raw/down" = bytes "channel" ++ slash :: bytes "raw/down" := by decide
  have hchannel : slash ∉ bytes "channel" := by decide
  rw [hpattern, tylinkPrefix_eq, List.append_assoc, List.singleton_append] at h
  rcases infix_append_cons hchannel slash_notMem_tylink h with ⟨h₁, -⟩ | h
  · exact absurd h₁ (by decide)
  · rcases infix_append_cons hchannel hd h with ⟨-, h₂⟩ | h
    · exact hstart h₂
    · exact hinside h

private theorem takeWhile_split {rest : List UInt8} (h : slash ∈ rest) :
    ∃ s, rest = rest.takeWhile (· ≠ slash) ++ slash :: s := by
  induction rest with
  | nil => cases h
  | cons c rest ih =>
    by_cases hc : c = slash
    · subst hc
      exact ⟨rest, by simp⟩
    · have hmem : slash ∈ rest := by
        rcases List.mem_cons.1 h with e | e
        · exact absurd e.symm hc
        · exact e
      obtain ⟨s, hs⟩ := ih hmem
      refine ⟨s, ?_⟩
      simp only [ne_eq, hc, not_false_eq_true, decide_true, List.takeWhile_cons_of_pos, List.cons_append,
        List.cons.injEq, true_and]
      exact hs

private theorem slash_notMem_takeWhile (rest : List UInt8) : slash ∉ rest.takeWhile (· ≠ slash) := by
  induction rest with
  | nil => simp
  | cons c rest ih =>
    by_cases hc : c = slash
    · simp [hc]
    · simpa [hc, Ne.symm hc] using ih

/-- The first separator of a topic with the prefix. -/
theorem devidOffset_eq {topic : List UInt8} (h : topic.take 7 = tylinkPrefix) :
    (topicSplit topic).devidOffset = 6 := by
  rw [eq_tylinkPrefix_append h, tylinkPrefix_eq, List.append_assoc]
  show UInt8.ofInt (stringFind (bytes "tylink" ++ slash :: topic.drop 7) slash 0) = 6
  rw [stringFind_first slash_notMem_tylink]
  rfl

private theorem toNat_ofInt_natCast (n : Nat) : (UInt8.ofInt (n : Int)).toNat = n % 256 := by
  show (UInt8.ofNat ((n : Int) % 2 ^ 8).toNat).toNat = n % 256
  have e : ((n : Int) % 2 ^ 8).toNat = n % 256 := by omega
  rw [e]
  simp

theorem thingOffset_eq {topic : List UInt8} (h : topic.take 7 = tylinkPrefix) :
    (topicSplit topic).thingOffset.toNat + 1 = suffixStart (topic.drop 7) := by
  have htopic := eq_tylinkPrefix_append h
  generalize topic.drop 7 = rest at htopic ⊢
  rw [tylinkPrefix_eq, List.append_assoc] at htopic
  subst htopic
  show (UInt8.ofInt (stringFind (bytes "tylink" ++ slash :: rest) slash 1)).toNat + 1 = _
  unfold suffixStart
  by_cases hs : slash ∈ rest
  · obtain ⟨s, hrest⟩ := takeWhile_split hs
    rw [if_pos hs]
    conv_lhs => rw [hrest]
    rw [stringFind_second slash_notMem_tylink (slash_notMem_takeWhile rest)]
    have hl : (bytes "tylink").length = 6 := by decide
    rw [hl]
    have hcast : ((6 : Nat) : Int) + 1 + ((rest.takeWhile (· ≠ slash)).length : Int) =
        ((7 + (rest.takeWhile (· ≠ slash)).length : Nat) : Int) := by omega
    rw [hcast, toNat_ofInt_natCast]
  · rw [if_neg hs, stringFind_second_none slash_notMem_tylink hs]
    rfl

theorem suffixStart_of_slash {d : List UInt8} (hd : slash ∉ d) (s : List UInt8) :
    suffixStart (d ++ slash :: s) = (7 + d.length) % 256 + 1 := by
  have htake : (d ++ slash :: s).takeWhile (· ≠ slash) = d := by
    rw [List.takeWhile_append_of_pos]
    · simp
    · intro c hc
      rw [decide_eq_true_eq]
      rintro rfl
      exact hd hc
  rw [suffixStart, if_pos (by simp), htake]

/-- The suffix starts inside the topic, or right behind it. -/
theorem suffixStart_le_iff {topic : List UInt8} (h : topic.take 7 = tylinkPrefix) :
    suffixStart (topic.drop 7) ≤ topic.length ↔ slash ∈ topic.drop 7 ∨ 256 ≤ topic.length := by
  have hlen : topic.length = 7 + (topic.drop 7).length := by
    conv_lhs => rw [eq_tylinkPrefix_append h]
    rw [List.length_append]
    rfl
  unfold suffixStart
  by_cases hs : slash ∈ topic.drop 7
  · have hlt : ((topic.drop 7).takeWhile (· ≠ slash)).length < (topic.drop 7).length := by
      obtain ⟨s, hrest⟩ := takeWhile_split hs
      have := congrArg List.length hrest
      simp only [List.length_append, List.length_cons] at this
      omega
    have hmod := Nat.mod_le (7 + ((topic.drop 7).takeWhile (· ≠ slash)).length) 256
    rw [if_pos hs]
    constructor
    · intro _
      exact Or.inl hs
    · intro _
      omega
  · rw [if_neg hs]
    simp [hs]

/-- The length that is passed to the match is that of the suffix, cut to 8 bits. -/
theorem toNat_thingLength {topic : List UInt8} (h : topic.take 7 = tylinkPrefix)
    (hin : suffixStart (topic.drop 7) ≤ topic.length) :
    (topicSplit topic).thingLength.toNat = (topic.length - suffixStart (topic.drop 7)) % 256 := by
  have hoff := thingOffset_eq h
  have hlt := (topicSplit topic).thingOffset.toNat_lt
  show (UInt8.ofNat topic.length - (topicSplit topic).thingOffset - 1).toNat = _
  simp only [UInt8.toNat_sub, UInt8.toNat_ofNat', UInt8.toNat_one]
  omega

/-! ### The branches of the parser -/

section Branches

variable {core : CoreJson} {ok : Nat → Bool}

theorem copyValue_ok {heap : MessageHeap} (h : ok heap.next = true) (value : List UInt8) :
    copyValue ok value heap =
      (some ⟨heap.next, value⟩, { next := heap.next + 1, log := heap.log ++ [.malloc heap.next] }) := by
  simp [copyValue, Heap.malloc, h]

theorem copyValue_fail {heap : MessageHeap} (h : ok heap.next = false) (value : List UInt8) :
    copyValue ok value heap = (none, { heap with next := heap.next + 1 }) := by
  simp [copyValue, Heap.malloc, h]

/-- The text that becomes the device id. -/
def parsedDeviceId (topic : List UInt8) : List UInt8 :=
  (topic.drop 7).take (topicSplit topic).devidLength.toNat

/-- The entry of the table that the parser finds. -/
def parsedType (topic : List UInt8) : ThingType :=
  thingTypeMatch (topic.drop (suffixStart (topic.drop 7))) (topicSplit topic).thingLength

theorem parse_of_head_ne {topic : List UInt8} (h : topic.take 7 ≠ tylinkPrefix) (payload : List UInt8)
    (out : TuyalinkMessage HeapString) (heap : MessageHeap) :
    tuyaLinkThingMessageParse core ok topic (some payload) out heap = some ⟨some oprtInvalidParm, out, heap⟩ := by
  simp [tuyaLinkThingMessageParse, h]

theorem parse_of_deviceId_fail {topic : List UInt8} (hhead : topic.take 7 = tylinkPrefix) (payload : List UInt8)
    (out : TuyalinkMessage HeapString) {heap : MessageHeap} (hok : ok heap.next = false) :
    tuyaLinkThingMessageParse core ok topic (some payload) out heap =
      some ⟨none, { out with deviceId := none }, { heap with next := heap.next + 1 }⟩ := by
  simp [tuyaLinkThingMessageParse, hhead, copyValue_fail hok]

/-- The suffix would start outside the topic. -/
theorem parse_of_outside {topic : List UInt8} (hhead : topic.take 7 = tylinkPrefix)
    (hout : ¬ (slash ∈ topic.drop 7 ∨ 256 ≤ topic.length)) (payload : List UInt8)
    (out : TuyalinkMessage HeapString) {heap : MessageHeap} (hok : ok heap.next = true) :
    tuyaLinkThingMessageParse core ok topic (some payload) out heap = none := by
  have hle := mt (suffixStart_le_iff hhead).1 hout
  rw [← thingOffset_eq hhead] at hle
  simp only [tuyaLinkThingMessageParse, hhead, ne_eq, not_true_eq_false, ite_false, copyValue_ok hok, hle]

/-- The suffix starts inside the topic, and the payload is read. -/
theorem parse_of_inside (core : CoreJson) {topic : List UInt8} (hhead : topic.take 7 = tylinkPrefix)
    (hin : slash ∈ topic.drop 7 ∨ 256 ≤ topic.length) (payload : List UInt8)
    (out : TuyalinkMessage HeapString) (heap : MessageHeap) (hok : ok heap.next = true) :
    tuyaLinkThingMessageParse core ok topic (some payload) out heap =
      some (parsePayload core ok payload ⟨heap.next, parsedDeviceId topic⟩
        { out with deviceId := some ⟨heap.next, parsedDeviceId topic⟩, type := parsedType topic }
        { next := heap.next + 1, log := heap.log ++ [.malloc heap.next] }) := by
  have hle := (suffixStart_le_iff hhead).2 hin
  have hdevid : (topic.drop ((topicSplit topic).devidOffset.toNat + 1)).take (topicSplit topic).devidLength.toNat =
      parsedDeviceId topic := by
    rw [devidOffset_eq hhead]
    rfl
  have htype : thingTypeMatch (topic.drop ((topicSplit topic).thingOffset.toNat + 1)) (topicSplit topic).thingLength =
      parsedType topic := by
    rw [thingOffset_eq hhead]
    rfl
  rw [← thingOffset_eq hhead] at hle
  simp only [tuyaLinkThingMessageParse, hhead, ne_eq, not_true_eq_false, ite_false, hdevid, copyValue_ok hok, hle,
    ite_true, htype]

/-- The copy of a value that was found, in the block with number `n`. -/
def copied (value : Option (List UInt8)) (n : Nat) : Option HeapString := value.map (HeapString.mk n)

/-- The heap behind that copy. -/
def heapAfter (value : Option (List UInt8)) (heap : MessageHeap) : MessageHeap :=
  match value with
  | none => heap
  | some _ => { next := heap.next + 1, log := heap.log ++ [.malloc heap.next] }

/-- The message that the parser makes of a payload it accepts, when the next allocation has number `n`. -/
def readMessage (core : CoreJson) (payload : List UInt8) (n : Nat) (out : TuyalinkMessage HeapString) :
    TuyalinkMessage HeapString :=
  let msgid := core.search payload (bytes "msgId")
  { out with
    code := ((core.search payload (bytes "code")).map fun value => UInt32.ofInt (atoi value)).getD out.code
    msgid := (copied msgid n).or out.msgid
    time := ((core.search payload (bytes "time")).map fun value => UInt64.ofInt (atoi value)).getD out.time
    dataString := (copied (core.search payload (bytes "data")) (if msgid.isSome then n + 1 else n)).or out.dataString }

@[simp] theorem readMessage_type (payload : List UInt8) (n : Nat) (out : TuyalinkMessage HeapString) :
    (readMessage core payload n out).type = out.type := rfl

theorem readMessage_data (payload : List UInt8) (n : Nat) {out : TuyalinkMessage HeapString}
    (hout : out.dataString = none) :
    (readMessage core payload n out).dataString.map HeapString.chars = core.search payload (bytes "data") := by
  simp only [readMessage, hout, Option.or_none, copied, Option.map_map]
  exact Option.map_id'

theorem heapAfter_next (value : Option (List UInt8)) (heap : MessageHeap) :
    (heapAfter value heap).next = if value.isSome then heap.next + 1 else heap.next := by
  cases value <;> rfl

@[simp] theorem callsOf_heapAfter (value : Option (List UInt8)) (heap : MessageHeap) :
    callsOf (heapAfter value heap).log = callsOf heap.log := by
  cases value with
  | none => rfl
  | some _ => exact callsOf_malloc heap.log

theorem heapAfter_owns {heap : MessageHeap} {owned : List Nat} (ho : heap.Owns owned) (value : Option (List UInt8)) :
    (heapAfter value heap).Owns (((copied value heap.next).map HeapString.block).toList ++ owned) := by
  cases value with
  | none => exact ho
  | some _ => exact ho.malloc

theorem parseData_accepted {payload : List UInt8} (deviceId : HeapString) (out : TuyalinkMessage HeapString)
    {heap : MessageHeap} (hdata : core.search payload (bytes "data") ≠ none → ok heap.next = true) :
    parseData core ok payload deviceId out heap =
      ⟨some oprtOk, { out with dataString := (copied (core.search payload (bytes "data")) heap.next).or out.dataString },
        heapAfter (core.search payload (bytes "data")) heap⟩ := by
  unfold parseData
  rcases hs : core.search payload (bytes "data") with _ | value
  · rfl
  · have hok := hdata (by rw [hs]; simp)
    simp only [copyValue_ok hok]
    rfl

theorem parseMsgid_accepted {payload : List UInt8} (deviceId : HeapString) (out : TuyalinkMessage HeapString)
    {heap : MessageHeap} (hmsgid : core.search payload (bytes "msgId") ≠ none → ok heap.next = true)
    (hdata : core.search payload (bytes "data") ≠ none →
      ok (heapAfter (core.search payload (bytes "msgId")) heap).next = true) :
    parseMsgid core ok payload deviceId out heap =
      ⟨some oprtOk, { readMessage core payload heap.next out with code := out.code },
        heapAfter (core.search payload (bytes "data")) (heapAfter (core.search payload (bytes "msgId")) heap)⟩ := by
  unfold parseMsgid
  rcases hs : core.search payload (bytes "msgId") with _ | value
  · have hrest : core.search payload (bytes "data") ≠ none → ok heap.next = true := by
      rwa [hs] at hdata
    dsimp only
    rw [parseData_accepted deviceId _ hrest]
    unfold parseTime readMessage
    rcases core.search payload (bytes "time") with _ | time <;> simp [hs, heapAfter, copied]
  · have hok := hmsgid (by rw [hs]; simp)
    have hrest : core.search payload (bytes "data") ≠ none →
        ok ({ next := heap.next + 1, log := heap.log ++ [.malloc heap.next] } : MessageHeap).next = true := by
      rwa [hs] at hdata
    simp only [copyValue_ok hok]
    rw [parseData_accepted deviceId _ hrest]
    unfold parseTime readMessage
    rcases core.search payload (bytes "time") with _ | time <;> simp [hs, heapAfter, copied]

/-- What the parser makes of a valid payload when the allocations it needs succeed. -/
theorem parsePayload_accepted {payload : List UInt8} (hvalid : core.validate payload = .success)
    (deviceId : HeapString) (out : TuyalinkMessage HeapString) {heap : MessageHeap}
    (hmsgid : core.search payload (bytes "msgId") ≠ none → ok heap.next = true)
    (hdata : core.search payload (bytes "data") ≠ none →
      ok (heapAfter (core.search payload (bytes "msgId")) heap).next = true) :
    parsePayload core ok payload deviceId out heap =
      ⟨some oprtOk, readMessage core payload heap.next out,
        heapAfter (core.search payload (bytes "data")) (heapAfter (core.search payload (bytes "msgId")) heap)⟩ := by
  simp only [parsePayload, hvalid, ne_eq, not_true_eq_false, ite_false]
  rw [parseMsgid_accepted deviceId _ hmsgid hdata]
  unfold parseCode readMessage
  rcases core.search payload (bytes "code") with _ | code <;> rfl

end Branches

/-! ### A topic in parts -/

section Separated

variable {topic d s : List UInt8} (hhead : topic.take 7 = tylinkPrefix) (hrest : topic.drop 7 = d ++ slash :: s)

include hhead hrest

theorem length_of_split : topic.length = 8 + d.length + s.length := by
  have hlen := congrArg List.length hrest
  have hhead' := congrArg List.length hhead
  rw [List.length_take, show tylinkPrefix.length = 7 by decide] at hhead'
  rw [List.length_drop, List.length_append, List.length_cons] at hlen
  omega

variable (hd : slash ∉ d)

include hd

theorem suffixStart_of_split : (topicSplit topic).thingOffset.toNat + 1 = (7 + d.length) % 256 + 1 := by
  rw [thingOffset_eq hhead, hrest, suffixStart_of_slash hd]

/-- The device id is right when its length fits 8 bits. -/
theorem parsedDeviceId_of_split (hlen : d.length ≤ 255) : parsedDeviceId topic = d := by
  have hoff := suffixStart_of_split hhead hrest hd
  have hdevid : (topicSplit topic).devidLength.toNat = d.length := by
    show ((topicSplit topic).thingOffset - (topicSplit topic).devidOffset - 1).toNat = _
    rw [devidOffset_eq hhead]
    simp only [UInt8.toNat_sub, UInt8.toNat_ofNat]
    omega
  rw [parsedDeviceId, hdevid, hrest]
  exact List.take_left

/-- The text that is matched is the suffix when the second separator stands before position 256. -/
theorem thing_of_split (hlen : d.length ≤ 248) : topic.drop ((topicSplit topic).thingOffset.toNat + 1) = s := by
  have hdrop : topic.drop ((topicSplit topic).thingOffset.toNat + 1) = (topic.drop 7).drop (d.length + 1) := by
    rw [List.drop_drop, suffixStart_of_split hhead hrest hd]
    congr 1
    omega
  rw [hdrop, hrest, List.append_cons, List.drop_left' (by simp)]

/-- Its length is passed modulo 256. -/
theorem thingLength_of_split (hlen : d.length ≤ 248) : (topicSplit topic).thingLength.toNat = s.length % 256 := by
  have hin : slash ∈ topic.drop 7 := by
    rw [hrest]
    simp
  have hstart := suffixStart_of_slash hd s
  have htotal := length_of_split hhead hrest
  rw [toNat_thingLength hhead ((suffixStart_le_iff hhead).2 (Or.inl hin)), hrest, hstart, htotal]
  omega

end Separated

/-! ### The callback -/

section Callback

variable (core : CoreJson) (ok : Nat → Bool)

/-- `mqtt_subscribe_handle_t`, with the blocks of the handle and of its topic. -/
structure SubscribeHandle where
  topic : List UInt8
  cb : Nat
  block : Nat
  topicBlock : Nat
deriving DecidableEq, Repr

def mqttSubscribeMessageDistribute (msg : MqttClientMessage) : List SubscribeHandle → MessageHeap → MessageHeap
  | [], heap => heap
  | target :: rest, heap =>
    mqttSubscribeMessageDistribute msg rest
      (if target.topic = msg.topic.chars then heap.call (.subscriber target.cb msg.topic.chars) else heap)

/-- `config.on_messages` is called when it is set, and then the strings of the message are released. -/
def deliverMessage (onMessages : Bool) (out : TuyalinkMessage HeapString) (heap : MessageHeap) : MessageHeap :=
  let heap := if onMessages then heap.call (.onMessages out) else heap
  ((heap.freeIf (out.deviceId.map HeapString.block)).freeIf (out.msgid.map HeapString.block)).freeIf
    (out.dataString.map HeapString.block)

def mqttClientMessageCb (subscribeList : List SubscribeHandle) (onMessages : Bool) (msg : MqttClientMessage)
    (heap : MessageHeap) : Option MessageHeap :=
  let heap := mqttSubscribeMessageDistribute msg subscribeList heap
  if strstr msg.topic.chars (bytes "channel/raw/down") then some heap
  else
    -- the return code of the parser is not looked at
    (tuyaLinkThingMessageParse core ok msg.topic.chars msg.payloadPointer .zero heap).map fun parsed =>
      deliverMessage onMessages parsed.out parsed.heap

end Callback

/-! ### The daemon -/

/-- `on_tuya_message`: the text it hands to `handle_action`. -/
def onTuyaMessage (msg : TuyalinkMessage HeapString) : Option (List UInt8) :=
  if msg.type ≠ .actionExecute then none else msg.dataString.map HeapString.chars

/-- The calls of `handle_action` that the calls of the client callback lead to. -/
def handledActions (calls : List MessageCall) : List (List UInt8) :=
  calls.filterMap fun
    | .onMessages out => onTuyaMessage out
    | .subscriber _ _ => none

end TuyaDaemon
