import TuyaDaemon.CoreJson.Lookup
import TuyaDaemon.Link.MessageOwnership
import TuyaDaemon.Link.MessageSend

/-!
# Payloads out and in

A message with an identifier and a time of its own, sent by `tuyalink_message_send` and read back by
`tuya_link_thing_message_parse`.  The block for the payload has room for the data, and for 99 characters of the
identifier, the time and the acknowledgement (`sent_cases`).  The parser reads the time with `atoi` and takes the quotes
off a string, so `survivesTrip_iff` is exactly what comes back as it was sent.  The JSON functions are those of
`core_json.c`, which also accept texts that are not JSON: no such text that the sender leaves in the block is read back.
-/

namespace TuyaDaemon

open CLib

/-! ### Messages with an identifier of their own -/

/-- The message has an identifier `m` that needs no escaping, a time, and the JSON value `d` as its data. -/
structure OwnMessage (message : TuyalinkMessage CString) (m d : CString) : Prop where
  msgid : message.msgid = some m
  msgid_ne : m.chars ≠ []
  plain : Json.PlainKey m.chars
  time : message.time ≠ 0
  data : message.dataString = some d
  valid : Json.Valid d.chars

/-- `{"msgId":"<m>","time":<t>,"data":d,"sys":{"ack":1}}`, without `sys` when no acknowledgement is asked for. -/
def ownPayload (m : List UInt8) (time : UInt64) (d : List UInt8) (ack : Bool) : List UInt8 :=
  payloadWith m (timeText time) d ack

/-- A topic with a device id and a suffix. -/
def TopicWithSuffix (topic : List UInt8) : Prop := ∃ d s, slash ∉ d ∧ topic = tylinkPrefix ++ (d ++ slash :: s)

/-- The payload on the topic is accepted with the identifier, the time and the data of the message. -/
def ReadBack (core : CoreJson) (ok : Nat → Bool) (topic payload : List UInt8) (heap : MessageHeap)
    (message : TuyalinkMessage CString) : Prop :=
  ∃ parsed, tuyaLinkThingMessageParse core ok topic (some payload) .zero heap = some parsed ∧
    parsed.rc = some oprtOk ∧
    parsed.out.msgid.map HeapString.chars = message.msgid.map CString.chars ∧
    parsed.out.time = message.time ∧
    parsed.out.dataString.map HeapString.chars = message.dataString.map CString.chars

/-- The message is sent without breaking memory, and what is published is read back. -/
def SurvivesTrip (core : CoreJson) (ok : Nat → Bool) (env : SendEnv) (mqmsgid : UInt16) (context : TuyaMqttContext)
    (message : TuyalinkMessage CString) (topic : List UInt8) (heap : MessageHeap) : Prop :=
  ∃ r, tuyalinkMessageSend env (recordPublish mqmsgid) context message [] = some r ∧
    ∀ p ∈ r.world, ReadBack core ok topic (p.payload.mem.take p.length) heap message

/-- The time that `atoi` reads is the one that was sent. -/
def TimeSurvives (time : UInt64) : Prop := time.toNat < 2 ^ 31 ∨ 2 ^ 64 - 2 ^ 31 ≤ time.toNat

/-- The identifier, the time and the acknowledgement leave room for the rest of the payload. -/
def OwnFits (m : List UInt8) (time : UInt64) (ack : Bool) : Prop :=
  m.length + (timeText time).length + (if ack then 16 else 0) ≤ 99

/-- The data is not a string, and has no whitespace around it. -/
def BareData (d : List UInt8) : Prop := Json.ValueText d d ∧ d.head? ≠ some Json.dquote

/-- The condition under which a message survives the trip, the first of the parser's three allocations having number
`n`. -/
structure TripSafe (core : CoreJson) (ok : Nat → Bool) (message : TuyalinkMessage CString) (m d : CString)
    (n : Nat) : Prop where
  fits : OwnFits m.chars message.time message.ack
  data : DataFits d.chars
  bare : BareData d.chars
  time : TimeSurvives message.time
  valid : core.validate (ownPayload m.chars message.time d.chars message.ack) = .success
  memory : ok n = true ∧ ok (n + 1) = true ∧ ok (n + 2) = true

/-! ### Reading a payload back -/

section Read

variable {core : CoreJson} {ok : Nat → Bool}

/-- A payload is read back when it is accepted and its three members are those of the message. -/
theorem readBack_iff (hcore : core.validate [] ≠ .success) (topic payload : List UInt8) (heap : MessageHeap)
    (message : TuyalinkMessage CString) :
    ReadBack core ok topic payload heap message ↔
      Accepted core ok topic payload heap.next ∧
        core.search payload (bytes "msgId") = message.msgid.map CString.chars ∧
        ((core.search payload (bytes "time")).map fun value => UInt64.ofInt (atoi value)).getD 0 = message.time ∧
        core.search payload (bytes "data") = message.dataString.map CString.chars := by
  have hmap : ∀ (value : Option (List UInt8)) (n : Nat), (copied value n).map HeapString.chars = value := by
    intro value n
    cases value <;> rfl
  have hread : ∀ out : TuyalinkMessage HeapString, out = acceptedMessage core topic payload heap.next .zero →
      out.msgid.map HeapString.chars = core.search payload (bytes "msgId") ∧
      out.time = ((core.search payload (bytes "time")).map fun value => UInt64.ofInt (atoi value)).getD 0 ∧
      out.dataString.map HeapString.chars = core.search payload (bytes "data") := by
    rintro out rfl
    simp only [acceptedMessage, readMessage, TuyalinkMessage.zero, Option.or_none, hmap, and_self]
  constructor
  · rintro ⟨parsed, hparsed, hrc, hmsgid, htime, hdata⟩
    have hne : core.validate payload = .success → payload ≠ [] := by
      rintro hvalid rfl
      exact hcore hvalid
    have hacc := accepted_of_parse_ok hne hparsed hrc
    rw [parse_of_accepted .zero hacc] at hparsed
    cases hparsed
    obtain ⟨h₁, h₂, h₃⟩ := hread _ rfl
    exact ⟨hacc, h₁.symm.trans hmsgid, h₂.symm.trans htime, h₃.symm.trans hdata⟩
  · rintro ⟨hacc, hmsgid, htime, hdata⟩
    obtain ⟨h₁, h₂, h₃⟩ := hread _ rfl
    exact ⟨_, parse_of_accepted .zero hacc, rfl, h₁.trans hmsgid, h₂.trans htime, h₃.trans hdata⟩

end Read

/-! ### The three values -/

/-- The parser cuts the time to 32 bits. -/
theorem read_timeText_iff (time : UInt64) : UInt64.ofInt (atoi (timeText time)) = time ↔ TimeSurvives time := by
  have hbounds := timeText_bounds time
  have hlt := time.toNat_lt
  rw [atoi, timeText, strtol_formatInt hbounds.1 hbounds.2, toInt_time, ← UInt64.toNat_inj]
  have hofInt : ∀ i : Int, (UInt64.ofInt i).toNat = (i % 2 ^ 64).toNat := by
    intro i
    rw [UInt64.ofInt, UInt64.toNat_ofNat', Nat.mod_eq_of_lt]
    omega
  rw [hofInt, Int.bmod_def, Int.bmod_def]
  unfold TimeSurvives
  omega

/-- The parser takes whitespace and quotes off the data. -/
theorem unquote_eq_iff {d v : List UInt8} (hv : Json.ValueText d v) : unquote v = d ↔ BareData d := by
  have hlen : v.length ≤ d.length := by
    obtain ⟨w, -, -, rfl⟩ := hv
    have hskip := Json.length_skipWs_le d
    rw [List.length_take]
    omega
  constructor
  · intro heq
    cases v with
    | nil =>
      subst heq
      obtain ⟨w, hd, -, -⟩ := hv
      exact absurd hd.length_lt (by simp [unquote, Json.skipWs])
    | cons c u =>
      by_cases hc : c = Json.dquote
      · rw [unquote, if_pos hc] at heq
        rw [← heq, List.length_dropLast, List.length_cons] at hlen
        omega
      · rw [unquote, if_neg hc] at heq
        subst heq
        exact ⟨hv, by simpa using hc⟩
  · rintro ⟨hself, hhead⟩
    rw [hv.unique hself]
    cases d with
    | nil => rfl
    | cons c u =>
      have hc : c ≠ Json.dquote := by simpa using hhead
      rw [unquote, if_neg hc]

/-! ### The chain of calls of such a message -/

section Chain

variable {message : TuyalinkMessage CString} {m d : CString}

theorem OwnMessage.data_ne (h : OwnMessage message m d) : d.chars ≠ [] := by
  intro hnil
  obtain ⟨w, hd, -⟩ := h.valid.2
  rw [hnil] at hd
  exact absurd hd.length_lt (by simp [Json.skipWs])

/-- The first three pieces. -/
def ownHead (m : List UInt8) (time : UInt64) : List (List UInt8) :=
  [bytes "\x7b", bytes "\"msgId\":\"" ++ m ++ bytes "\"", bytes ",\"time\":" ++ timeText time]

theorem pieces_own (h : OwnMessage message m d) (n t : UInt32) :
    payloadPieces message n t = ownHead m.chars message.time ++
      ([bytes ",\"data\":" ++ d.chars] ++ (ackPieces message.ack ++ [bytes "\x7d"])) := by
  simp only [payloadPieces, ownHead, h.msgid, h.data, msgidPiece, timePiece, dataPieces, ne_eq, h.msgid_ne, h.data_ne,
    h.time, not_false_eq_true, ite_true, timeText]

theorem length_ownHead (m : List UInt8) (time : UInt64) :
    (ownHead m time).flatten.length = 19 + m.length + (timeText time).length := by
  have h₁ : (bytes "\x7b").length = 1 := by decide
  have h₂ : (bytes "\"msgId\":\"").length = 9 := by decide
  have h₃ : (bytes "\"").length = 1 := by decide
  have h₄ : (bytes ",\"time\":").length = 8 := by decide
  simp only [ownHead, List.flatten_cons, List.flatten_nil, List.length_append, List.length_nil, h₁, h₂, h₃, h₄]
  omega

/-- The pieces behind the data. -/
def ownEnd (ack : Bool) : List (List UInt8) := ackPieces ack ++ [bytes "\x7d"]

theorem length_ownEnd (ack : Bool) : (ownEnd ack).flatten.length = (if ack then 16 else 0) + 1 := by
  cases ack <;> decide

theorem ownEnd_short (ack : Bool) : ∀ t ∈ ownEnd ack, t.length ≤ intMax := by
  have hmax : 16 ≤ intMax := by decide
  intro t ht
  have hlen : ∀ t ∈ ownEnd ack, t.length ≤ 16 := by cases ack <;> decide
  exact (hlen t ht).trans hmax

theorem length_dataPiece (d : List UInt8) : (bytes ",\"data\":" ++ d).length = d.length + 8 := by
  have h : (bytes ",\"data\":").length = 8 := by decide
  rw [List.length_append, h, Nat.add_comm]

theorem flatten_own (m : List UInt8) (time : UInt64) {d : List UInt8} (hd : d ≠ []) (ack : Bool) :
    (ownHead m time ++ ([bytes ",\"data\":" ++ d] ++ ownEnd ack)).flatten = ownPayload m time d ack := by
  have h₁ : bytes "\x7b\"msgId\":\"" = bytes "\x7b" ++ bytes "\"msgId\":\"" := by decide
  have h₂ : bytes "\",\"time\":" = bytes "\"" ++ bytes ",\"time\":" := by decide
  have h₃ : (ackPieces ack).flatten = if ack then bytes ",\"sys\":\x7b\"ack\":1\x7d" else [] := by
    cases ack <;> decide
  simp only [ownPayload, payloadWith, payloadTail, ownHead, ownEnd, hd, ite_false, List.flatten_append,
    List.flatten_cons, List.flatten_nil, h₁, h₂, h₃, List.append_assoc, List.append_nil]

/-- The block of a message with this data. -/
def ownBlock (fill : Nat → UInt8) (d : CString) : OutBuf := OutBuf.new fill (128 + d.chars.length)

theorem length_ownBlock (fill : Nat → UInt8) (d : CString) : (ownBlock fill d).mem.length = 128 + d.chars.length := by
  simp [ownBlock, OutBuf.new]

theorem ownBlock_holds (fill : Nat → UInt8) (d : CString) : (ownBlock fill d).Holds [] := by
  have hfits := d.fits
  exact OutBuf.new_holds fill (by omega) (by omega)

theorem ownHead_short {m : List UInt8} (time : UInt64) (hm : m.length + 10 ≤ intMax) :
    ∀ t ∈ ownHead m time, t.length ≤ intMax := by
  have h₁ : (bytes "\x7b").length = 1 := by decide
  have h₂ : (bytes "\"msgId\":\"").length = 9 := by decide
  have h₃ : (bytes "\"").length = 1 := by decide
  have h₄ : (bytes ",\"time\":").length = 8 := by decide
  have htime := length_timeText_le time
  have hmax : intMax = 2147483647 := rfl
  intro t ht
  simp only [ownHead, List.mem_cons, List.not_mem_nil, or_false] at ht
  rcases ht with rfl | rfl | rfl <;> simp only [List.length_append, h₁, h₂, h₃, h₄] <;> omega

/-- With an identifier and data that `snprintf` can count, everything is printed, or the block is overrun or filled. -/
theorem ownChain_short (fill : Nat → UInt8) {m : List UInt8} (time : UInt64) (d : CString) (ack : Bool)
    (hd : d.chars ≠ []) (hm : m.length + 10 ≤ intMax) (hdata : DataFits d.chars) :
    let chain := (ownBlock fill d).snprintfAll (ownHead m time ++ ([bytes ",\"data\":" ++ d.chars] ++ ownEnd ack))
    (OwnFits m time ack → ∃ buf, chain = some buf ∧ buf.mem.take buf.len = ownPayload m time d.chars ack) ∧
      (¬ OwnFits m time ack → chain = none ∨ ∃ buf, chain = some buf ∧ 0 ∈ buf.mem.take buf.len) := by
  intro chain
  have hholds := ownBlock_holds fill d
  have hshort : ∀ t ∈ ownHead m time ++ ([bytes ",\"data\":" ++ d.chars] ++ ownEnd ack), t.length ≤ intMax := by
    intro t ht
    simp only [List.mem_append, List.mem_singleton] at ht
    rcases ht with ht | rfl | ht
    · exact ownHead_short time hm t ht
    · rw [length_dataPiece]
      exact hdata
    · exact ownEnd_short ack t ht
  have hlen : (ownHead m time ++ ([bytes ",\"data\":" ++ d.chars] ++ ownEnd ack)).flatten.length =
      28 + m.length + (timeText time).length + d.chars.length + (if ack then 16 else 0) := by
    rw [List.flatten_append, List.flatten_append, List.length_append, List.length_append, length_ownHead, length_ownEnd,
      List.flatten_singleton, length_dataPiece]
    omega
  constructor
  · intro hfits
    unfold OwnFits at hfits
    obtain ⟨buf, hbuf, hb, -⟩ := OutBuf.snprintfAll_holds hholds hshort
      (by rw [List.nil_append, length_ownBlock, hlen]; omega)
    refine ⟨buf, hbuf, ?_⟩
    rw [hb.len, hb.mem, List.nil_append, flatten_own m time hd ack]
  · intro hnot
    unfold OwnFits at hnot
    have hfits := d.fits
    have hmax : intMax = 2147483647 := rfl
    rcases OutBuf.snprintfAll_overflow hholds hshort (by rw [length_ownBlock]; omega)
      (by rw [List.nil_append, length_ownBlock, hlen]; omega) with hnone | ⟨buf, hbuf, hfull⟩
    · exact Or.inl hnone
    · exact Or.inr ⟨buf, hbuf, hfull.zero_mem⟩

/-- Data that `snprintf` cannot count is lost, with the last character of the time. -/
theorem ownChain_longData (fill : Nat → UInt8) {m : List UInt8} (time : UInt64) (d : CString) (ack : Bool)
    (hm : m.length + 10 ≤ intMax) (hdata : ¬ DataFits d.chars) :
    ∃ buf, (ownBlock fill d).snprintfAll (ownHead m time ++ ([bytes ",\"data\":" ++ d.chars] ++ ownEnd ack)) =
        some buf ∧
      buf.mem.take buf.len = (ownHead m time).flatten.dropLast ++ (ownEnd ack).flatten := by
  have hhead := length_ownHead m time
  have hend := length_ownEnd ack
  have htime := length_timeText_le time
  have hmax : intMax = 2147483647 := rfl
  have hack : (if ack then 16 else 0) ≤ 16 := by split <;> omega
  have hlong : intMax < d.chars.length + 8 := Nat.lt_of_not_le hdata
  obtain ⟨b₁, hb₁, h₁, hl₁⟩ := OutBuf.snprintfAll_holds (ownBlock_holds fill d) (ownHead_short time hm)
    (by rw [List.nil_append, length_ownBlock, hhead]; omega)
  rw [List.nil_append] at h₁
  have hne : (ownHead m time).flatten ≠ [] := by
    intro hnil
    rw [hnil, List.length_nil] at hhead
    omega
  obtain ⟨b₂, hb₂, h₂, hl₂⟩ := OutBuf.snprintf_long h₁ hne (t := bytes ",\"data\":" ++ d.chars)
    (by rw [length_dataPiece]; exact hlong)
  obtain ⟨b₃, hb₃, h₃, -⟩ := OutBuf.snprintfAll_holds h₂ (ownEnd_short ack) (by
    rw [hl₂, hl₁, length_ownBlock, List.length_append, List.length_dropLast, hhead, hend]
    omega)
  refine ⟨b₃, ?_, by rw [h₃.len, h₃.mem]⟩
  rw [OutBuf.snprintfAll_append, hb₁, Option.bind_some, List.singleton_append, OutBuf.snprintfAll, hb₂, Option.bind_some,
    hb₃]

theorem length_timePiece (time : UInt64) : (bytes ",\"time\":" ++ timeText time).length = 8 + (timeText time).length := by
  have h : (bytes ",\"time\":").length = 8 := by decide
  rw [List.length_append, h]

/-- An identifier that `snprintf` cannot count takes the brace with it. -/
theorem ownChain_longMsgid (fill : Nat → UInt8) {m : List UInt8} (time : UInt64) (d : CString) (ack : Bool)
    (hm : ¬ m.length + 10 ≤ intMax) :
    ∃ buf t, (ownBlock fill d).snprintfAll (ownHead m time ++ ([bytes ",\"data\":" ++ d.chars] ++ ownEnd ack)) =
        some buf ∧
      buf.mem.take buf.len = Json.comma :: t := by
  have hend := length_ownEnd ack
  have htime := length_timeText_le time
  have hpiece := length_timePiece time
  have hmax : intMax = 2147483647 := rfl
  have hack : (if ack then 16 else 0) ≤ 16 := by split <;> omega
  have hcomma : ∃ t, bytes ",\"time\":" ++ timeText time = Json.comma :: t := ⟨_, rfl⟩
  have hbrace : (bytes "\x7b").length = 1 := by decide
  obtain ⟨b₁, hb₁, h₁, hl₁, -, -⟩ := OutBuf.snprintf_spec (ownBlock_holds fill d) (t := bytes "\x7b")
    (by rw [hbrace]; omega) (by rw [length_ownBlock, hbrace, List.length_nil]; omega)
  rw [List.nil_append] at h₁
  obtain ⟨b₂, hb₂, h₂, hl₂⟩ := OutBuf.snprintf_long h₁ (by decide) (t := bytes "\"msgId\":\"" ++ m ++ bytes "\"") (by
    have h₂ : (bytes "\"msgId\":\"").length = 9 := by decide
    have h₃ : (bytes "\"").length = 1 := by decide
    rw [List.length_append, List.length_append, h₂, h₃]
    omega)
  have hnil : (bytes "\x7b").dropLast = [] := rfl
  rw [hnil] at h₂
  rw [hl₁, length_ownBlock] at hl₂
  obtain ⟨b₃, hb₃, h₃, hl₃, -, -⟩ := OutBuf.snprintf_spec h₂ (t := bytes ",\"time\":" ++ timeText time) (by omega)
    (by rw [hl₂, hpiece, List.length_nil]; omega)
  rw [List.nil_append] at h₃
  rw [hl₂] at hl₃
  have hchain : (ownBlock fill d).snprintfAll
      (ownHead m time ++ ([bytes ",\"data\":" ++ d.chars] ++ ownEnd ack)) =
        b₃.snprintfAll ([bytes ",\"data\":" ++ d.chars] ++ ownEnd ack) := by
    rw [ownHead, List.cons_append, OutBuf.snprintfAll, hb₁, Option.bind_some, List.cons_append, OutBuf.snprintfAll, hb₂,
      Option.bind_some, List.cons_append, OutBuf.snprintfAll, hb₃, Option.bind_some, List.nil_append]
  rw [hchain]
  obtain ⟨t, ht⟩ := hcomma
  by_cases hdata : DataFits d.chars
  · have hshort : ∀ u ∈ [bytes ",\"data\":" ++ d.chars] ++ ownEnd ack, u.length ≤ intMax := by
      intro u hu
      rcases List.mem_append.1 hu with hu | hu
      · rw [List.mem_singleton.1 hu, length_dataPiece]
        exact hdata
      · exact ownEnd_short ack u hu
    obtain ⟨buf, hbuf, hb, -⟩ := OutBuf.snprintfAll_holds h₃ hshort (by
        rw [hl₃, List.length_append, hpiece, List.flatten_append, List.length_append, List.flatten_singleton,
          length_dataPiece, hend]
        omega)
    refine ⟨buf, t ++ ([bytes ",\"data\":" ++ d.chars] ++ ownEnd ack).flatten, hbuf, ?_⟩
    rw [hb.len, hb.mem, ht, List.cons_append]
  · -- the data takes the last character of the time with it, which leaves the comma
    obtain ⟨b₄, hb₄, h₄, hl₄⟩ := OutBuf.snprintf_long h₃ (by simp [ht]) (t := bytes ",\"data\":" ++ d.chars)
      (by rw [length_dataPiece]; exact Nat.lt_of_not_le hdata)
    obtain ⟨buf, hbuf, hb, -⟩ := OutBuf.snprintfAll_holds h₄ (ownEnd_short ack) (by
      rw [hl₄, hl₃, List.length_append, List.length_dropLast, hpiece, hend]
      omega)
    have htail : ∃ u, (bytes ",\"time\":" ++ timeText time).dropLast = Json.comma :: u := by
      rw [List.dropLast_append_of_ne_nil (timeText_ne_nil time)]
      exact ⟨_, rfl⟩
    obtain ⟨u, hu⟩ := htail
    refine ⟨buf, u ++ (ownEnd ack).flatten, ?_, by rw [hb.len, hb.mem, hu, List.cons_append]⟩
    rw [List.singleton_append, OutBuf.snprintfAll, hb₄, Option.bind_some, hbuf]

end Chain

/-! ### What survives the trip -/

section Trip

variable {ok : Nat → Bool} {message : TuyalinkMessage CString} {m d : CString}

/-- The payload in full is JSON. -/
theorem ownPayload_isObject {m : List UInt8} (hm : Json.PlainKey m) (time : UInt64) {d v : List UInt8}
    (hv : Json.ValueText d v) (ack : Bool) :
    Json.IsObject (ownPayload m time d ack)
      ([(bytes "msgId", Json.dquote :: (m ++ [Json.dquote])), (bytes "time", timeText time)] ++
        ((if d = [] then [] else [(bytes "data", v)]) ++
          (if ack then [(bytes "sys", bytes "\x7b\"ack\":1\x7d")] else []))) := by
  have htexts := memberTexts_with hm (Json.valueText_formatInt time.toInt64.toInt) (fun _ => hv) ack
  have hobj := Json.objectText_isObject htexts (by simp [membersWith])
  rwa [← payloadWith_eq_objectText] at hobj

/-- The members of the payload in full, looked up. -/
theorem lookup_own {m : List UInt8} (hm : Json.PlainKey m) (time : UInt64) {d v : List UInt8} (hd : d ≠ [])
    (hv : Json.ValueText d v) (ack : Bool) :
    Json.lookup (ownPayload m time d ack) (bytes "msgId") = some (Json.dquote :: (m ++ [Json.dquote])) ∧
      Json.lookup (ownPayload m time d ack) (bytes "time") = some (timeText time) ∧
      Json.lookup (ownPayload m time d ack) (bytes "data") = some v := by
  have hlookup : ∀ key, Json.lookup (ownPayload m time d ack) key =
      ([(bytes "msgId", Json.dquote :: (m ++ [Json.dquote])), (bytes "time", timeText time)] ++
        ((if d = [] then [] else [(bytes "data", v)]) ++
          (if ack then [(bytes "sys", bytes "\x7b\"ack\":1\x7d")] else []))).lookup key := by
    intro key
    rw [Json.lookup, Json.members_eq_some_iff.2 (ownPayload_isObject hm time hv ack), Option.getD_some]
  have h₁ : (bytes "time" == bytes "msgId") = false := by decide
  have h₂ : (bytes "data" == bytes "msgId") = false := by decide
  have h₃ : (bytes "data" == bytes "time") = false := by decide
  refine ⟨?_, ?_, ?_⟩
  · rw [hlookup, List.cons_append, List.lookup_cons, beq_self_eq_true]
  · rw [hlookup, List.cons_append, List.lookup_cons, h₁, List.cons_append]
    show List.lookup _ _ = _
    rw [List.lookup_cons, beq_self_eq_true]
  · rw [hlookup, List.cons_append, List.lookup_cons, h₂, List.cons_append]
    show List.lookup _ _ = _
    rw [List.lookup_cons, h₃, if_neg hd]
    show List.lookup _ _ = _
    rw [List.nil_append, List.cons_append, List.lookup_cons, beq_self_eq_true]

theorem simpleQuery_names : SimpleQuery (bytes "msgId") ∧ SimpleQuery (bytes "time") ∧ SimpleQuery (bytes "data") := by
  refine ⟨⟨?_, ?_, ?_⟩, ⟨?_, ?_, ?_⟩, ?_, ?_, ?_⟩ <;> decide

private theorem unquote_string (s : List UInt8) : unquote (Json.dquote :: (s ++ [Json.dquote])) = s := by
  rw [unquote, if_pos rfl, List.dropLast_concat]

private theorem unquote_timeText (time : UInt64) : unquote (timeText time) = timeText time := by
  obtain ⟨c, l, hl, hc⟩ := Json.formatInt_head time.toInt64.toInt
  rw [timeText, hl, unquote, if_neg hc]

theorem coreJson_nil : coreJson.validate [] ≠ .success := by
  intro h
  cases h

/-- The payload in full is read back when it is accepted, the data is bare, the time short and there is memory. -/
theorem readBack_ownPayload_iff (h : OwnMessage message m d) {topic : List UInt8} (htopic : TopicWithSuffix topic)
    (heap : MessageHeap) :
    ReadBack coreJson ok topic (ownPayload m.chars message.time d.chars message.ack) heap message ↔
      coreJson.validate (ownPayload m.chars message.time d.chars message.ack) = .success ∧
        (ok heap.next = true ∧ ok (heap.next + 1) = true ∧ ok (heap.next + 2) = true) ∧
        BareData d.chars ∧ TimeSurvives message.time := by
  obtain ⟨v, hv⟩ := h.valid.2.valueText
  obtain ⟨hmsgid, htime, hdata⟩ := lookup_own h.plain message.time h.data_ne hv message.ack
  obtain ⟨hq₁, hq₂, hq₃⟩ := simpleQuery_names
  rw [readBack_iff coreJson_nil]
  by_cases hvalid : coreJson.validate (ownPayload m.chars message.time d.chars message.ack) = .success
  · have hfound : ∀ {key}, SimpleQuery key →
        coreJson.search (ownPayload m.chars message.time d.chars message.ack) key =
          (Json.lookup (ownPayload m.chars message.time d.chars message.ack) key).map unquote := fun hkey =>
      Json.Core.jsonSearch_lookup (ownPayload_isObject h.plain message.time hv message.ack).isValue hvalid hkey
    have hf₁ := hfound hq₁
    have hf₃ := hfound hq₃
    rw [hmsgid] at hf₁
    rw [hdata] at hf₃
    have hmemory : Accepted coreJson ok topic (ownPayload m.chars message.time d.chars message.ack) heap.next ↔
        ok heap.next = true ∧ ok (heap.next + 1) = true ∧ ok (heap.next + 2) = true := by
      have hnumber : dataNumber coreJson (ownPayload m.chars message.time d.chars message.ack) (heap.next + 1) =
          heap.next + 2 := by
        unfold dataNumber
        rw [hf₁]
        rfl
      obtain ⟨devid, s, hdevid, rfl⟩ := htopic
      have h7 : tylinkPrefix.length = 7 := by decide
      constructor
      · intro hacc
        refine ⟨hacc.deviceId, hacc.msgid (by rw [hf₁]; exact Option.some_ne_none _), ?_⟩
        rw [← hnumber]
        exact hacc.data (by rw [hf₃]; exact Option.some_ne_none _)
      · rintro ⟨h₁, h₂, h₃⟩
        refine ⟨?_, List.take_left' h7, ?_, h₁, hvalid, fun _ => h₂, fun _ => ?_⟩
        · exact List.cons_ne_nil _ _
        · left
          rw [List.drop_left' h7]
          simp
        · rw [hnumber]
          exact h₃
    rw [hmemory, hf₁, hf₃, hfound hq₂, htime, h.msgid, h.data]
    simp only [Option.map_some, Option.getD_some, unquote_string, unquote_timeText, Option.some.injEq, true_and,
      read_timeText_iff, unquote_eq_iff hv, hvalid]
    exact and_congr_right fun _ => and_comm
  · exact ⟨fun hread => absurd hread.1.validate hvalid, fun hread => absurd hread.1 hvalid⟩

/-- A payload that is not accepted is not read back. -/
private theorem not_readBack_of_invalid {topic payload : List UInt8} (hinvalid : Json.Core.jsonValidate payload ≠ .success)
    (heap : MessageHeap) : ¬ ReadBack coreJson ok topic payload heap message := by
  intro h
  exact hinvalid ((readBack_iff coreJson_nil topic payload heap message).1 h).1.validate

/-- A payload whose members behind the time are shorter than the data does not have it, accepted or not. -/
private theorem not_readBack_of_lost (h : OwnMessage message m d) {topic rest : List UInt8}
    (hshort : rest.length < d.chars.length) (heap : MessageHeap) :
    ¬ ReadBack coreJson ok topic (Json.lbrace :: (Json.memberText (bytes "msgId", Json.dquote :: (m.chars ++
      [Json.dquote])) ++ Json.comma :: Json.dquote :: (bytes "time" ++ Json.dquote :: Json.colon :: rest))) heap
        message := by
  intro hread
  obtain ⟨-, -, -, hdata⟩ := (readBack_iff coreJson_nil topic _ heap message).1 hread
  obtain ⟨-, -, hq⟩ := simpleQuery_names
  rw [h.data, Option.map_some, coreJson_search _ hq, Option.map_eq_some_iff] at hdata
  obtain ⟨v, hv, hunquote⟩ := hdata
  have hlen := Json.Core.length_objectSearch_le (by decide) h.plain (by decide) (by decide) (by decide) hv
  have hcut : (unquote v).length ≤ v.length := by
    cases v with
    | nil => exact Nat.le_refl _
    | cons c u =>
      rw [unquote]
      split
      · rw [List.length_dropLast, List.length_cons]
        omega
      · exact Nat.le_refl _
  rw [hunquote] at hcut
  omega

private theorem ownHead_lost (m : List UInt8) (time : UInt64) (ack : Bool) :
    (ownHead m time).flatten.dropLast ++ (ownEnd ack).flatten =
      Json.lbrace :: (Json.memberText (bytes "msgId", Json.dquote :: (m ++ [Json.dquote])) ++
        Json.comma :: Json.dquote :: (bytes "time" ++ Json.dquote :: Json.colon ::
          ((timeText time).dropLast ++ (ownEnd ack).flatten))) := by
  have h₁ : bytes "\"msgId\":\"" = Json.dquote :: (bytes "msgId" ++ [Json.dquote, Json.colon, Json.dquote]) := by decide
  have h₂ : bytes ",\"time\":" = Json.comma :: Json.dquote :: (bytes "time" ++ [Json.dquote, Json.colon]) := by decide
  have h₃ : bytes "\x7b" = [Json.lbrace] := by decide
  have h₄ : bytes "\"" = [Json.dquote] := by decide
  have hflat : (ownHead m time).flatten =
      (bytes "\x7b" ++ (bytes "\"msgId\":\"" ++ m ++ bytes "\"" ++ bytes ",\"time\":")) ++ timeText time := by
    simp [ownHead]
  rw [hflat, List.dropLast_append_of_ne_nil (timeText_ne_nil time), h₁, h₂, h₃, h₄]
  simp [Json.memberText]

/-- The send publishes what the chain of calls leaves in the block. -/
private theorem survives_iff_chain (h : OwnMessage message m d) {env : SendEnv} (halloc : env.allocOk = true)
    (htype : message.type.toIndex < 49) (mqmsgid : UInt16) (context : TuyaMqttContext) (topic : List UInt8)
    (heap : MessageHeap) :
    SurvivesTrip coreJson ok env mqmsgid context message topic heap ↔
      ∃ buf, (ownBlock env.fill d).snprintfAll (ownHead m.chars message.time ++
          ([bytes ",\"data\":" ++ d.chars] ++ ownEnd message.ack)) = some buf ∧
        ReadBack coreJson ok topic (buf.mem.take buf.len) heap message := by
  have hpieces := pieces_own h 0 env.timestamp
  have hhas : hasMsgid message.msgid = true := by
    simp [h.msgid, hasMsgid, h.msgid_ne]
  have hsize : allocSize message.dataString = 128 + d.chars.length := by rw [h.data]; rfl
  have hsend : ∃ topicText rc, tuyalinkMessageSend env (recordPublish mqmsgid) context message [] =
      ((ownBlock env.fill d).snprintfAll (ownHead m.chars message.time ++
        ([bytes ",\"data\":" ++ d.chars] ++ ownEnd message.ack))).map fun payload =>
          ⟨rc, context, [⟨topicText, payload, payload.len⟩]⟩ := by
    refine ⟨topicStuff (message.deviceId.getD context.config.deviceId).chars
      (tylinkSuffixMap.getD message.type.toIndex []),
      if mqmsgid = 0 then oprtLinkCoreMqttPublishError else asInt 0, ?_⟩
    simp only [tuyalinkMessageSend, suffix_get htype, halloc, ite_true, hhas, hsize, hpieces, recordPublish,
      List.nil_append, ownBlock, ownEnd]
    congr 1
    funext payload
    split <;> rfl
  obtain ⟨topicText, rc, hsend⟩ := hsend
  unfold SurvivesTrip
  rw [hsend]
  constructor
  · rintro ⟨r, hr, hread⟩
    obtain ⟨buf, hbuf, rfl⟩ := Option.map_eq_some_iff.1 hr
    exact ⟨buf, hbuf, hread _ (List.mem_singleton_self _)⟩
  · rintro ⟨buf, hbuf, hread⟩
    refine ⟨_, by rw [hbuf, Option.map_some], ?_⟩
    intro p hp
    rw [List.mem_singleton.1 hp]
    exact hread

theorem tripSafe_of_survivesTrip {env : SendEnv}
    (halloc : env.allocOk = true) {mqmsgid : UInt16} {context : TuyaMqttContext} (h : OwnMessage message m d)
    (htype : message.type.toIndex < 49) {topic : List UInt8} (htopic : TopicWithSuffix topic) {heap : MessageHeap}
    (hsurvives : SurvivesTrip coreJson ok env mqmsgid context message topic heap) :
    TripSafe coreJson ok message m d heap.next := by
  obtain ⟨buf, hbuf, hread⟩ := (survives_iff_chain h halloc htype mqmsgid context topic heap).1 hsurvives
  have hm : m.chars.length + 10 ≤ intMax := by
    by_contra hm
    obtain ⟨buf', t, hbuf', htext⟩ := ownChain_longMsgid env.fill message.time d message.ack hm
    rw [hbuf] at hbuf'
    cases hbuf'
    rw [htext] at hread
    exact not_readBack_of_invalid (Json.Core.not_jsonValidate_comma t) heap hread
  have hdata : DataFits d.chars := by
    by_contra hdata
    obtain ⟨buf', hbuf', htext⟩ := ownChain_longData env.fill message.time d message.ack hm hdata
    rw [hbuf] at hbuf'
    cases hbuf'
    rw [htext, ownHead_lost] at hread
    refine not_readBack_of_lost h ?_ heap hread
    have htime := length_timeText_le message.time
    have hend := length_ownEnd message.ack
    have hack : (if message.ack then 16 else 0) ≤ 16 := by split <;> omega
    have hlong : intMax < d.chars.length + 8 := Nat.lt_of_not_le hdata
    have hmax : intMax = 2147483647 := rfl
    rw [List.length_append, List.length_dropLast, hend]
    omega
  obtain ⟨hfit, hover⟩ := ownChain_short env.fill message.time d message.ack h.data_ne hm hdata
  have hfits : OwnFits m.chars message.time message.ack := by
    by_contra hnot
    rcases hover hnot with hnone | ⟨buf', hbuf', hzero⟩
    · rw [hbuf] at hnone
      cases hnone
    · rw [hbuf] at hbuf'
      cases hbuf'
      exact not_readBack_of_invalid (fun hvalid => Json.Core.jsonValidate_noNul hvalid hzero) heap hread
  obtain ⟨buf', hbuf', htext⟩ := hfit hfits
  rw [hbuf] at hbuf'
  cases hbuf'
  rw [htext] at hread
  obtain ⟨hvalid, hmemory, hbare, htime⟩ := (readBack_ownPayload_iff h htopic heap).1 hread
  exact ⟨hfits, hdata, hbare, htime, hvalid, hmemory⟩

theorem survivesTrip_of_tripSafe {env : SendEnv}
    (halloc : env.allocOk = true) (mqmsgid : UInt16) (context : TuyaMqttContext) (h : OwnMessage message m d)
    (htype : message.type.toIndex < 49) {topic : List UInt8} (htopic : TopicWithSuffix topic) (heap : MessageHeap)
    (hsafe : TripSafe coreJson ok message m d heap.next) : SurvivesTrip coreJson ok env mqmsgid context message topic heap := by
  have hm : m.chars.length + 10 ≤ intMax := by
    have hfits := hsafe.fits
    have hmax : intMax = 2147483647 := rfl
    unfold OwnFits at hfits
    omega
  obtain ⟨buf, hbuf, htext⟩ :=
    (ownChain_short env.fill message.time d message.ack h.data_ne hm hsafe.data).1 hsafe.fits
  refine (survives_iff_chain h halloc htype mqmsgid context topic heap).2 ⟨buf, hbuf, ?_⟩
  rw [htext]
  exact (readBack_ownPayload_iff h htopic heap).2 ⟨hsafe.valid, hsafe.memory, hsafe.bare, hsafe.time⟩

/-- A message with an identifier, a time and data comes back as it was sent exactly when identifier and time fit the
block, the time is one that `atoi` keeps, the data is neither a string nor surrounded by whitespace, and the parser
accepts the payload and has memory for it. -/
theorem survivesTrip_iff (env : SendEnv) (mqmsgid : UInt16)
    (context : TuyaMqttContext) (h : OwnMessage message m d) {topic : List UInt8} (htopic : TopicWithSuffix topic)
    (heap : MessageHeap) :
    SurvivesTrip coreJson ok env mqmsgid context message topic heap ↔
      message.type.toIndex < 49 ∧ (env.allocOk = true → TripSafe coreJson ok message m d heap.next) := by
  by_cases htype : message.type.toIndex < 49
  · rw [and_iff_right htype]
    by_cases halloc : env.allocOk = true
    · rw [forall_prop_of_true halloc]
      exact ⟨tripSafe_of_survivesTrip halloc h htype htopic,
        survivesTrip_of_tripSafe halloc mqmsgid context h htype htopic heap⟩
    · refine ⟨fun _ halloc' => absurd halloc' halloc, fun _ => ⟨⟨oprtMallocFailed, context, []⟩, ?_, ?_⟩⟩
      · simp only [tuyalinkMessageSend, suffix_get htype, Bool.eq_false_iff.2 halloc, Bool.false_eq_true, ite_false]
      · intro p hp
        cases hp
  · refine ⟨?_, fun hsafe => absurd hsafe.1 htype⟩
    rintro ⟨r, hr, -⟩
    have hnone : tylinkSuffixMap[message.type.toIndex]? = none := by
      rw [List.getElem?_eq_none_iff, length_tylinkSuffixMap]
      omega
    simp only [tuyalinkMessageSend, hnone, reduceCtorEq] at hr

end Trip

/-- `{"a":1}` -/
def exampleData : CString := ⟨bytes "\x7b\"a\":1\x7d", by decide, by decide⟩

/-- A property report of `{"a":1}` with the identifier `m`. -/
def timedMessage (time : UInt64) : TuyalinkMessage CString :=
  ⟨.propertyReport, none, some ⟨bytes "m", by decide, by decide⟩, time, 0, some exampleData, false⟩

private theorem exampleData_bare : BareData exampleData.chars := by
  have hparse : Json.parse (Json.need .value exampleData.chars.length) .value exampleData.chars = some ([], []) := by
    decide +kernel
  exact ⟨Json.valueText_self (by decide) (Json.parse_sound hparse).1, by decide⟩

private theorem timedMessage_own {time : UInt64} (htime : time ≠ 0) :
    OwnMessage (timedMessage time) ⟨bytes "m", by decide, by decide⟩ exampleData where
  msgid := rfl
  msgid_ne := by decide
  plain := by decide
  time := htime
  data := rfl
  valid := asciiJson_documented.valid _ (by decide +kernel)

private theorem topicWithSuffix_report : TopicWithSuffix (bytes "tylink/x/thing/property/report") :=
  ⟨bytes "x", bytes "thing/property/report", by decide, by decide⟩

theorem survivesTrip_seconds :
    SurvivesTrip coreJson (fun _ => true) ⟨true, fun _ => 0, 0⟩ 1 exampleContext (timedMessage 1700000000)
      (bytes "tylink/x/thing/property/report") ⟨0, []⟩ := by
  refine (survivesTrip_iff _ 1 exampleContext (timedMessage_own (by decide))
    topicWithSuffix_report ⟨0, []⟩).2 ⟨by decide, fun _ =>
      ⟨?_, ?_, exampleData_bare, ?_, ?_, rfl, rfl, rfl⟩⟩
  · have htext : timeText (timedMessage 1700000000).time = bytes "1700000000" := by decide +kernel
    show _ + (timeText (timedMessage 1700000000).time).length + _ ≤ 99
    rw [htext]
    decide
  · have hmax : intMax = 2147483647 := rfl
    have hlen : exampleData.chars.length = 7 := by decide
    unfold DataFits
    omega
  · exact Or.inl (by decide)
  · decide +kernel

/-- A time in milliseconds is cut to 32 bits. -/
theorem not_survivesTrip_milliseconds :
    ¬ SurvivesTrip coreJson (fun _ => true) ⟨true, fun _ => 0, 0⟩ 1 exampleContext (timedMessage 1700000000000)
      (bytes "tylink/x/thing/property/report") ⟨0, []⟩ := by
  intro h
  have hsafe := tripSafe_of_survivesTrip rfl (timedMessage_own (by decide))
    (by decide) topicWithSuffix_report h
  exact absurd hsafe.time (by unfold TimeSurvives; decide)

end TuyaDaemon
