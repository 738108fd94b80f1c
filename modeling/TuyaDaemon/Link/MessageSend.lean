import TuyaDaemon.CLib.Snprintf
import TuyaDaemon.Json.Build
import TuyaDaemon.Link.Context

/-!
# Outgoing messages

`tuyalink_message_send` and the requests of the `tuyalink_` functions.  The payload is written by a chain of
`snprintf` calls into a block of 128 bytes more than the data.  `sentPayload_spec` says that the chain always has
room; what it prints is the intended text as long as `%d` prints the unsigned counter and timestamp as they are and
the data fits the `int` that `snprintf` returns (`completePayload_iff`).
-/

namespace TuyaDaemon

open CLib

/-! ### The model -/

/-- What the environment contributes to one send. -/
structure SendEnv where
  allocOk : Bool
  /-- the contents of the fresh block -/
  fill : Nat → UInt8
  timestamp : UInt32

/-- The arguments of `mqtt_client_publish`. -/
structure Publish where
  topic : List UInt8
  payload : OutBuf
  length : Nat

/-- `topic_stuff`, cut by `snprintf` to `TOPIC_LEN_MAX - 1` characters. -/
def topicStuff (deviceId suffix : List UInt8) : List UInt8 :=
  (tylinkPrefix ++ deviceId ++ slash :: suffix).take 127

def msgidPiece (msgid : Option CString) (msgidInt : UInt32) : List UInt8 :=
  match msgid with
  | some s =>
    if s.chars ≠ [] then bytes "\"msgId\":\"" ++ s.chars ++ bytes "\""
    else bytes "\"msgId\":\"" ++ formatD msgidInt ++ bytes "\""
  | none => bytes "\"msgId\":\"" ++ formatD msgidInt ++ bytes "\""

/-- `%ld` reads the `uint64_t` as a `long`. -/
def timePiece (time : UInt64) (timestamp : UInt32) : List UInt8 :=
  if time ≠ 0 then bytes ",\"time\":" ++ formatInt time.toInt64.toInt else bytes ",\"time\":" ++ formatD timestamp

def dataPieces (dataString : Option CString) : List (List UInt8) :=
  match dataString with
  | some s => if s.chars ≠ [] then [bytes ",\"data\":" ++ s.chars] else []
  | none => []

def ackPieces (ack : Bool) : List (List UInt8) :=
  if ack then [bytes ",\"sys\":\x7b\"ack\":" ++ formatInt 1 ++ bytes "\x7d"] else []

/-- The pieces that the calls of `snprintf` print, in order. -/
def payloadPieces (message : TuyalinkMessage CString) (msgidInt timestamp : UInt32) : List (List UInt8) :=
  [bytes "\x7b", msgidPiece message.msgid msgidInt, timePiece message.time timestamp] ++
    (dataPieces message.dataString ++ (ackPieces message.ack ++ [bytes "\x7d"]))

def allocSize (dataString : Option CString) : Nat :=
  match dataString with
  | some s => 128 + s.chars.length
  | none => 128

/-- `message->msgid && message->msgid[0] != 0` -/
def hasMsgid (msgid : Option CString) : Bool :=
  match msgid with
  | some s => !s.chars.isEmpty
  | none => false

structure SendResult (σ : Type) where
  rc : Int
  context : TuyaMqttContext
  world : σ

/-- `tuyalink_message_send`, over what `mqtt_client_publish` does; `none` when it reads behind the table or writes
behind the block. -/
def tuyalinkMessageSend {σ : Type} (env : SendEnv) (publish : Publish → σ → UInt16 × σ) (context : TuyaMqttContext)
    (message : TuyalinkMessage CString) (world : σ) : Option (SendResult σ) :=
  let deviceId := message.deviceId.getD context.config.deviceId
  match tylinkSuffixMap[message.type.toIndex]? with
  | none => none
  | some suffix =>
    let topic := topicStuff deviceId.chars suffix
    if env.allocOk then
      -- `thing_send_msgid_get`
      let msgidInt := if hasMsgid message.msgid then 0 else context.msgidInc
      let context := if hasMsgid message.msgid then context else { context with msgidInc := context.msgidInc + 1 }
      ((OutBuf.new env.fill (allocSize message.dataString)).snprintfAll
        (payloadPieces message msgidInt env.timestamp)).map fun payload =>
          let (mqmsgid, world) := publish ⟨topic, payload, payload.len⟩ world
          if mqmsgid = 0 then ⟨oprtLinkCoreMqttPublishError, context, world⟩
          else ⟨asInt msgidInt, context, world⟩
    else some ⟨oprtMallocFailed, context, world⟩

/-- The message of a request: no `msgid` and no `time`, as every `tuyalink_` function passes it. -/
def requestMessage (type : ThingType) (deviceId dataString : Option CString) (ack : Bool) : TuyalinkMessage CString :=
  ⟨type, deviceId, none, 0, 0, dataString, ack⟩

def tuyalinkThingPropertyReport {σ : Type} (env : SendEnv) (publish : Publish → σ → UInt16 × σ)
    (context : TuyaMqttContext) (deviceId data : Option CString) (world : σ) : Option (SendResult σ) :=
  if data.isNone then some ⟨oprtInvalidParm, context, world⟩
  else tuyalinkMessageSend env publish context (requestMessage .propertyReport deviceId data false) world

/-! ### The intended payload -/

/-- The characters of a data string that may be missing. -/
def dataText (dataString : Option CString) : List UInt8 := (dataString.map CString.chars).getD []

/-- What follows the time. -/
def payloadTail (d : List UInt8) (ack : Bool) : List UInt8 :=
  (if d = [] then [] else bytes ",\"data\":" ++ d) ++
    ((if ack then bytes ",\"sys\":\x7b\"ack\":1\x7d" else []) ++ bytes "\x7d")

/-- `{"msgId":"<n>","time":<t>,"data":d,"sys":{"ack":1}}`, without data when `d` is empty and without `sys` when no
acknowledgement is asked for. -/
def payloadText (n t : Nat) (d : List UInt8) (ack : Bool) : List UInt8 :=
  bytes "\x7b\"msgId\":\"" ++ (decimal n ++ (bytes "\",\"time\":" ++ (decimal t ++ payloadTail d ack)))

/-- The members of that object, with the texts of their values. -/
def payloadMembers (n t : Nat) (d : List UInt8) (ack : Bool) : List Json.Member :=
  [(bytes "msgId", Json.dquote :: (decimal n ++ [Json.dquote])), (bytes "time", decimal t)] ++
    ((if d = [] then [] else [(bytes "data", d)]) ++
      (if ack then [(bytes "sys", bytes "\x7b\"ack\":1\x7d")] else []))

/-- The published payload: no call of `snprintf` was cut short and no bound wrapped, the length is that of the
string, the bytes are the intended ones, and with valid data they are an object with exactly these members. -/
structure CompletePayload (p : Publish) (n t : Nat) (d : List UInt8) (ack : Bool) : Prop where
  calls : OutBuf.CallsFit p.payload.mem.length p.payload.calls
  length : p.length = (upToNul p.payload.mem).length
  text : p.payload.mem.take p.length = payloadText n t d ack
  json : (d ≠ [] → Json.Valid d) → Json.Valid (p.payload.mem.take p.length) ∧
    ∃ vs, Json.MemberTexts (payloadMembers n t d ack) vs ∧ (vs.map Prod.fst).Nodup ∧
      Json.IsObject (p.payload.mem.take p.length) vs

/-- A publish that records its arguments. -/
def recordPublish (mqmsgid : UInt16) (p : Publish) (sent : List Publish) : UInt16 × List Publish :=
  (mqmsgid, sent ++ [p])

/-- What a request publishes is complete. -/
def SendsComplete (env : SendEnv) (mqmsgid : UInt16) (context : TuyaMqttContext) (type : ThingType)
    (deviceId dataString : Option CString) (ack : Bool) : Prop :=
  ∃ r, tuyalinkMessageSend env (recordPublish mqmsgid) context (requestMessage type deviceId dataString ack) [] =
      some r ∧
    (env.allocOk = true → ∃ p, r.world = [p] ∧
      CompletePayload p context.msgidInc.toNat env.timestamp.toNat (dataText dataString) ack)

/-! ### The time -/

/-- `%ld` of the time. -/
def timeText (time : UInt64) : List UInt8 := formatInt time.toInt64.toInt

theorem toInt_time (time : UInt64) : time.toInt64.toInt = (time.toNat : Int).bmod (2 ^ 64) :=
  BitVec.toInt_eq_toNat_bmod _

theorem timeText_bounds (time : UInt64) : -2 ^ 63 ≤ time.toInt64.toInt ∧ time.toInt64.toInt < 2 ^ 63 := by
  have hlt := time.toNat_lt
  rw [toInt_time, Int.bmod_def]
  omega

theorem length_timeText_le (time : UInt64) : (timeText time).length ≤ 20 := by
  have hbounds := timeText_bounds time
  have h19 : (decimal time.toInt64.toInt.natAbs).length ≤ 19 := by
    rw [length_decimal_le_iff (by omega)]
    omega
  unfold timeText formatInt
  split
  · rw [List.length_cons]
    omega
  · omega

theorem timeText_ne_nil (time : UInt64) : timeText time ≠ [] := by
  unfold timeText formatInt
  split
  · simp
  · exact decimal_ne_nil _

theorem length_timePiece_le (time : UInt64) (t : UInt32) : (timePiece time t).length ≤ 28 := by
  have h₈ : (bytes ",\"time\":").length = 8 := by decide
  have hown := length_timeText_le time
  have hclock := length_formatD_le t
  unfold timeText at hown
  unfold timePiece
  split
  · rw [List.length_append, h₈]
    omega
  · rw [List.length_append, h₈]
    omega

/-! ### The chain of calls -/

private theorem pieces_request (type : ThingType) (deviceId dataString : Option CString) (ack : Bool)
    (n t : UInt32) :
    payloadPieces (requestMessage type deviceId dataString ack) n t =
      [bytes "\x7b", bytes "\"msgId\":\"" ++ formatD n ++ bytes "\"", bytes ",\"time\":" ++ formatD t] ++
        (dataPieces dataString ++ (ackPieces ack ++ [bytes "\x7d"])) := by
  simp [payloadPieces, requestMessage, msgidPiece, timePiece]

private theorem pieces_flatten (type : ThingType) (deviceId dataString : Option CString) (ack : Bool)
    (n t : UInt32) :
    (payloadPieces (requestMessage type deviceId dataString ack) n t).flatten =
      bytes "\x7b\"msgId\":\"" ++ (formatD n ++ (bytes "\",\"time\":" ++
        (formatD t ++ payloadTail (dataText dataString) ack))) := by
  have h₁ : bytes "\x7b\"msgId\":\"" = bytes "\x7b" ++ bytes "\"msgId\":\"" := by decide
  have h₂ : bytes "\",\"time\":" = bytes "\"" ++ bytes ",\"time\":" := by decide
  have h₃ : bytes ",\"sys\":\x7b\"ack\":1\x7d" =
      bytes ",\"sys\":\x7b\"ack\":" ++ (formatInt 1 ++ bytes "\x7d") := by decide
  have hdata : (dataPieces dataString).flatten =
      if dataText dataString = [] then [] else bytes ",\"data\":" ++ dataText dataString := by
    rcases dataString with _ | s
    · rfl
    · by_cases hs : s.chars = [] <;> simp [dataPieces, dataText, hs]
  have hack : (ackPieces ack).flatten = if ack then bytes ",\"sys\":\x7b\"ack\":1\x7d" else [] := by
    cases ack <;> simp [ackPieces, h₃]
  simp only [pieces_request, payloadTail, List.flatten_append, List.flatten_cons, List.flatten_nil, hdata, hack, h₁, h₂,
    List.append_assoc, List.append_nil]

/-- The data piece is short enough for the return value of `snprintf`. -/
def DataFits (d : List UInt8) : Prop := d.length + 8 ≤ intMax

private theorem length_dataText (dataString : Option CString) :
    allocSize dataString = 128 + (dataText dataString).length ∧ (dataText dataString).length < 2 ^ 63 - 1 := by
  cases dataString with
  | none => exact ⟨rfl, by simp [dataText]⟩
  | some s => exact ⟨rfl, s.fits⟩

private theorem dataText_noNul (dataString : Option CString) : 0 ∉ dataText dataString := by
  cases dataString with
  | none => simp [dataText]
  | some s => exact s.noNul

private theorem length_payloadTail (d : List UInt8) (ack : Bool) : (payloadTail d ack).length ≤ d.length + 25 := by
  have h₁ : (bytes ",\"data\":").length = 8 := by decide
  have h₂ : (bytes ",\"sys\":\x7b\"ack\":1\x7d").length = 16 := by decide
  have h₃ : (bytes "\x7d").length = 1 := by decide
  have hd : (if d = [] then [] else bytes ",\"data\":" ++ d).length ≤ d.length + 8 := by
    split
    · simp
    · rw [List.length_append, h₁]
      omega
  have ha : (if ack then bytes ",\"sys\":\x7b\"ack\":1\x7d" else []).length ≤ 16 := by
    split
    · rw [h₂]
    · simp
  simp only [payloadTail, List.length_append, h₃]
  omega

/-- The pieces of a request leave room for the terminator, whatever the counter, the timestamp and the data. -/
private theorem pieces_room (type : ThingType) (deviceId dataString : Option CString) (ack : Bool) (n t : UInt32) :
    (payloadPieces (requestMessage type deviceId dataString ack) n t).flatten.length < allocSize dataString := by
  have h₁ : (bytes "\x7b\"msgId\":\"").length = 10 := by decide
  have h₂ : (bytes "\",\"time\":").length = 9 := by decide
  have hn := length_formatD_le n
  have ht := length_formatD_le t
  have htail := length_payloadTail (dataText dataString) ack
  rw [pieces_flatten, (length_dataText dataString).1]
  simp only [List.length_append, h₁, h₂]
  omega

private theorem pieces_short (type : ThingType) (deviceId : Option CString) {dataString : Option CString} (ack : Bool)
    (n t : UInt32) (hd : DataFits (dataText dataString)) :
    ∀ piece ∈ payloadPieces (requestMessage type deviceId dataString ack) n t, piece.length ≤ intMax := by
  intro piece hpiece
  have hlen := length_formatD_le n
  have hlen' := length_formatD_le t
  have h₁ : (bytes "\"msgId\":\"").length = 9 := by decide
  have h₂ : (bytes ",\"time\":").length = 8 := by decide
  have h₃ : (bytes ",\"data\":").length = 8 := by decide
  have h₄ : (bytes ",\"sys\":\x7b\"ack\":" ++ formatInt 1 ++ bytes "\x7d").length = 16 := by decide
  have h₅ : (bytes "\"").length = 1 := by decide
  have h₆ : (bytes "\x7b").length = 1 := by decide
  have h₇ : (bytes "\x7d").length = 1 := by decide
  have hmax : intMax = 2147483647 := rfl
  simp only [pieces_request, List.mem_append, List.mem_cons, List.not_mem_nil, or_false] at hpiece
  rcases hpiece with (rfl | rfl | rfl) | hdata | hack | rfl
  · omega
  · simp only [List.length_append, h₁, h₅]
    omega
  · rw [List.length_append, h₂]
    omega
  · cases dataString with
    | none => cases hdata
    | some s =>
      simp only [dataPieces] at hdata
      split at hdata
      · rw [List.mem_singleton.1 hdata, List.length_append, h₃]
        have : s.chars.length + 8 ≤ intMax := hd
        omega
      · cases hdata
  · cases ack with
    | false => cases hack
    | true =>
      rw [List.mem_singleton.1 hack, h₄]
      omega
  · omega

/-- A data piece that does not fit is one of the pieces. -/
private theorem long_piece_mem (type : ThingType) (deviceId : Option CString) {dataString : Option CString}
    (ack : Bool) (n t : UInt32) (hd : ¬ DataFits (dataText dataString)) :
    ∃ piece ∈ payloadPieces (requestMessage type deviceId dataString ack) n t, intMax < piece.length := by
  cases dataString with
  | none =>
    have hfits : DataFits [] := by
      show 8 ≤ 2147483647
      decide
    exact absurd hfits hd
  | some s =>
    have hlong : intMax < s.chars.length + 8 := Nat.lt_of_not_le hd
    have hne : s.chars ≠ [] := by
      intro h
      rw [h] at hlong
      exact absurd hlong (by decide)
    have h₃ : (bytes ",\"data\":").length = 8 := by decide
    refine ⟨bytes ",\"data\":" ++ s.chars, ?_, ?_⟩
    · simp [payloadPieces, requestMessage, dataPieces, hne]
    · rw [List.length_append, h₃]
      omega

private theorem noNul_payload (type : ThingType) (deviceId dataString : Option CString) (ack : Bool) (n t : UInt32) :
    0 ∉ (payloadPieces (requestMessage type deviceId dataString ack) n t).flatten := by
  have h₁ : 0 ∉ bytes "\x7b\"msgId\":\"" := by decide
  have h₂ : 0 ∉ bytes "\",\"time\":" := by decide
  have h₃ : 0 ∉ bytes ",\"data\":" := by decide
  have h₄ : 0 ∉ bytes ",\"sys\":\x7b\"ack\":1\x7d" := by decide
  have h₅ : 0 ∉ bytes "\x7d" := by decide
  have hd := dataText_noNul dataString
  have htail : 0 ∉ payloadTail (dataText dataString) ack := by
    unfold payloadTail
    split <;> split <;> simp [h₃, h₄, h₅, hd]
  rw [pieces_flatten]
  simp [h₁, h₂, formatD_noNul, htail]

/-- The chain of calls of a request: it never writes behind the block, and when the data fits it prints every piece. -/
theorem sentPayload_spec (fill : Nat → UInt8) (type : ThingType) (deviceId : Option CString)
    {dataString : Option CString} (ack : Bool) (n t : UInt32) (hd : DataFits (dataText dataString)) :
    ∃ buf, (OutBuf.new fill (allocSize dataString)).snprintfAll
        (payloadPieces (requestMessage type deviceId dataString ack) n t) = some buf ∧
      OutBuf.CallsFit buf.mem.length buf.calls ∧ buf.len = (upToNul buf.mem).length ∧
      buf.mem.take buf.len = (payloadPieces (requestMessage type deviceId dataString ack) n t).flatten := by
  have hlen := length_dataText dataString
  have hsize : (OutBuf.new fill (allocSize dataString)).mem.length = allocSize dataString := by simp [OutBuf.new]
  have hholds : (OutBuf.new fill (allocSize dataString)).Holds [] := OutBuf.new_holds fill (by omega) (by omega)
  obtain ⟨buf, hbuf, hb, hmem, hz, hcalls⟩ := OutBuf.snprintfAll_spec hholds
    (pieces_short type deviceId ack n t hd)
    (by rw [hsize, List.nil_append]; exact pieces_room type deviceId dataString ack n t)
    (by intro c hc; cases hc) (by simp [payloadPieces])
  rw [List.nil_append] at hb hz
  refine ⟨buf, hbuf, ?_, ?_, ?_⟩
  · rw [hmem]
    exact hcalls
  · rw [hb.upToNul hz (noNul_payload type deviceId dataString ack n t)]
    exact hb.len
  · rw [hb.len]
    exact hb.mem

/-- The pieces in front of the data, when the message has no identifier of its own. -/
private def headPieces (time : UInt64) (n t : UInt32) : List (List UInt8) :=
  [bytes "\x7b", bytes "\"msgId\":\"" ++ formatD n ++ bytes "\"", timePiece time t]

private theorem pieces_head {message : TuyalinkMessage CString} (hmsgid : hasMsgid message.msgid = false)
    (n t : UInt32) :
    payloadPieces message n t = headPieces message.time n t ++
      (dataPieces message.dataString ++ (ackPieces message.ack ++ [bytes "\x7d"])) := by
  have hpiece : msgidPiece message.msgid n = bytes "\"msgId\":\"" ++ formatD n ++ bytes "\"" := by
    rcases hid : message.msgid with _ | s
    · rfl
    · rw [hid] at hmsgid
      have hempty : s.chars = [] := by simpa [hasMsgid] using hmsgid
      rw [msgidPiece, if_neg (by simp [hempty])]
  rw [payloadPieces, hpiece, headPieces]

/-- The text up to the quote behind the identifier. -/
private def startText (n : UInt32) : List UInt8 := bytes "\x7b\"msgId\":\"" ++ (formatD n ++ bytes "\"")

private theorem headPieces_flatten (time : UInt64) (n t : UInt32) :
    (headPieces time n t).flatten = startText n ++ timePiece time t := by
  have h₁ : bytes "\x7b\"msgId\":\"" = bytes "\x7b" ++ bytes "\"msgId\":\"" := by decide
  rw [headPieces, startText, h₁]
  simp

private theorem length_startText (n : UInt32) : (startText n).length ≤ 22 := by
  have h₁ : (bytes "\x7b\"msgId\":\"").length = 10 := by decide
  have h₂ : (bytes "\"").length = 1 := by decide
  have hn := length_formatD_le n
  rw [startText, List.length_append, List.length_append, h₁, h₂]
  omega

/-- The data is printed, or it is missing, or it is too long and takes the last character of the time back. -/
private theorem dataPieces_spec (dataString : Option CString) {b : OutBuf} {s time : List UInt8}
    (hb : b.Holds (s ++ time)) (htime : time ≠ [])
    (hroom : (s ++ time).length + 8 + (dataText dataString).length < b.mem.length) :
    ∃ b' rest, b.snprintfAll (dataPieces dataString) = some b' ∧ b'.Holds (s ++ rest) ∧
      b'.mem.length = b.mem.length ∧ rest.length ≤ time.length + 8 + (dataText dataString).length := by
  have hnone : dataPieces dataString = [] → ∃ b' rest, b.snprintfAll (dataPieces dataString) = some b' ∧
      b'.Holds (s ++ rest) ∧ b'.mem.length = b.mem.length ∧
        rest.length ≤ time.length + 8 + (dataText dataString).length := by
    intro h
    rw [h]
    exact ⟨b, time, rfl, hb, rfl, by omega⟩
  cases dataString with
  | none => exact hnone rfl
  | some d =>
    by_cases hempty : d.chars = []
    · exact hnone (by simp [dataPieces, hempty])
    · have hlength : (bytes ",\"data\":" ++ d.chars).length = 8 + d.chars.length := by
        rw [List.length_append, show (bytes ",\"data\":").length = 8 by decide]
      rw [show dataText (some d) = d.chars from rfl] at hroom ⊢
      rw [dataPieces, if_pos hempty, OutBuf.snprintfAll]
      by_cases hlong : (bytes ",\"data\":" ++ d.chars).length ≤ intMax
      · obtain ⟨b', hb', hholds, hmem, -, -⟩ := OutBuf.snprintf_spec hb hlong (by rw [hlength]; omega)
        refine ⟨b', time ++ (bytes ",\"data\":" ++ d.chars), by rw [hb']; rfl, ?_, hmem, ?_⟩
        · rw [← List.append_assoc]
          exact hholds
        · rw [List.length_append, hlength]
          omega
      · obtain ⟨b', hb', hholds, hmem⟩ := OutBuf.snprintf_long hb (by simp [htime]) (Nat.lt_of_not_le hlong)
        refine ⟨b', time.dropLast, by rw [hb']; rfl, ?_, hmem, ?_⟩
        · rw [← List.dropLast_append_of_ne_nil htime]
          exact hholds
        · rw [List.length_dropLast]
          omega

/-- Whatever the data, the chain stays in the block, and what it leaves starts with the identifier. -/
theorem sentPayload_start (fill : Nat → UInt8) {message : TuyalinkMessage CString}
    (hmsgid : hasMsgid message.msgid = false) (n t : UInt32) :
    ∃ buf tail, (OutBuf.new fill (allocSize message.dataString)).snprintfAll (payloadPieces message n t) = some buf ∧
      buf.mem.take buf.len = bytes "\x7b\"msgId\":\"" ++ (formatD n ++ (bytes "\"" ++ tail)) := by
  obtain ⟨hsize, hfits⟩ := length_dataText message.dataString
  have hmax : intMax = 2147483647 := rfl
  have hmem : (OutBuf.new fill (allocSize message.dataString)).mem.length = 128 + (dataText message.dataString).length := by
    simp [OutBuf.new, hsize]
  have hnew : (OutBuf.new fill (allocSize message.dataString)).Holds [] := OutBuf.new_holds fill (by omega) (by omega)
  have hstart := length_startText n
  have htime := length_timePiece_le message.time t
  have htime_ne : timePiece message.time t ≠ [] := by
    unfold timePiece
    split <;> simp [bytes]
  have hshort : ∀ pieces : List (List UInt8), pieces.flatten.length ≤ 50 → ∀ piece ∈ pieces, piece.length ≤ intMax := by
    intro pieces hle piece hpiece
    have := (List.sublist_flatten_of_mem hpiece).length_le
    omega
  have hhead : (headPieces message.time n t).flatten.length ≤ 50 := by
    rw [headPieces_flatten, List.length_append]
    omega
  obtain ⟨b₁, hb₁, hholds₁, hlen₁⟩ := OutBuf.snprintfAll_holds hnew (hshort _ hhead)
    (by rw [hmem, List.nil_append]; omega)
  rw [List.nil_append, headPieces_flatten] at hholds₁
  obtain ⟨b₂, rest, hb₂, hholds₂, hlen₂, hrest⟩ := dataPieces_spec message.dataString hholds₁ htime_ne
    (by rw [hlen₁, hmem, List.length_append]; omega)
  have hend : (ackPieces message.ack ++ [bytes "\x7d"]).flatten.length ≤ 17 := by
    cases message.ack <;> decide
  obtain ⟨b₃, hb₃, hholds₃, -⟩ := OutBuf.snprintfAll_holds hholds₂
    (hshort (ackPieces message.ack ++ [bytes "\x7d"]) (by omega))
    (by rw [hlen₂, hlen₁, hmem, List.length_append, List.length_append]; omega)
  refine ⟨b₃, rest ++ (ackPieces message.ack ++ [bytes "\x7d"]).flatten, ?_, ?_⟩
  · rw [pieces_head hmsgid, OutBuf.snprintfAll_append, hb₁, Option.bind_some, OutBuf.snprintfAll_append, hb₂,
      Option.bind_some]
    exact hb₃
  · rw [hholds₃.len, hholds₃.mem, startText]
    simp only [List.append_assoc]

/-! ### The payload as JSON -/

/-- The payload with the texts of its identifier and its time. -/
def payloadWith (msgid time d : List UInt8) (ack : Bool) : List UInt8 :=
  bytes "\x7b\"msgId\":\"" ++ (msgid ++ (bytes "\",\"time\":" ++ (time ++ payloadTail d ack)))

/-- The members of that object, with the texts of their values. -/
def membersWith (msgid time d : List UInt8) (ack : Bool) : List Json.Member :=
  [(bytes "msgId", Json.dquote :: (msgid ++ [Json.dquote])), (bytes "time", time)] ++
    ((if d = [] then [] else [(bytes "data", d)]) ++
      (if ack then [(bytes "sys", bytes "\x7b\"ack\":1\x7d")] else []))

theorem payloadWith_eq_objectText (msgid time d : List UInt8) (ack : Bool) :
    payloadWith msgid time d ack = Json.objectText (membersWith msgid time d ack) := by
  have h₁ : bytes "\x7b\"msgId\":\"" =
      Json.lbrace :: Json.dquote :: (bytes "msgId" ++ [Json.dquote, Json.colon, Json.dquote]) := by
    decide
  have h₂ : bytes "\",\"time\":" =
      Json.dquote :: Json.comma :: Json.dquote :: (bytes "time" ++ [Json.dquote, Json.colon]) := by decide
  have h₃ : bytes ",\"data\":" = Json.comma :: Json.dquote :: (bytes "data" ++ [Json.dquote, Json.colon]) := by decide
  have h₄ : bytes ",\"sys\":\x7b\"ack\":1\x7d" =
      Json.comma :: Json.dquote ::
        (bytes "sys" ++ (Json.dquote :: Json.colon :: bytes "\x7b\"ack\":1\x7d")) := by decide
  have h₅ : bytes "\x7d" = [Json.rbrace] := by decide
  unfold payloadWith payloadTail membersWith Json.objectText
  rw [h₁, h₂, h₃, h₄, h₅]
  by_cases hd : d = [] <;> cases ack <;> simp [hd, Json.membersText, Json.memberText]

/-- The members have the values that are written, without the whitespace around the data. -/
theorem memberTexts_with {msgid time d v : List UInt8} (hmsgid : Json.PlainKey msgid) (htime : Json.ValueText time time)
    (hd : d ≠ [] → Json.ValueText d v) (ack : Bool) :
    Json.MemberTexts (membersWith msgid time d ack)
      ([(bytes "msgId", Json.dquote :: (msgid ++ [Json.dquote])), (bytes "time", time)] ++
        ((if d = [] then [] else [(bytes "data", v)]) ++
          (if ack then [(bytes "sys", bytes "\x7b\"ack\":1\x7d")] else []))) := by
  have hkey₁ : Json.PlainKey (bytes "msgId") := by decide
  have hkey₂ : Json.PlainKey (bytes "time") := by decide
  have hkey₃ : Json.PlainKey (bytes "data") := by decide
  have hkey₄ : Json.PlainKey (bytes "sys") := by decide
  have hack : Json.ValueText (bytes "\x7b\"ack\":1\x7d") (bytes "\x7b\"ack\":1\x7d") := by
    refine Json.valueText_self (by decide) ?_
    have hparse : Json.parse 32 .value (bytes "\x7b\"ack\":1\x7d") = some ([], []) := by decide
    exact (Json.parse_sound hparse).1
  have hfirst : Json.MemberTexts
      [(bytes "msgId", Json.dquote :: (msgid ++ [Json.dquote])), (bytes "time", time)]
      [(bytes "msgId", Json.dquote :: (msgid ++ [Json.dquote])), (bytes "time", time)] :=
    .cons ⟨hkey₁, rfl, Json.valueText_string hmsgid⟩ (.cons ⟨hkey₂, rfl, htime⟩ .nil)
  have hmiddle : Json.MemberTexts (if d = [] then [] else [(bytes "data", d)])
      (if d = [] then [] else [(bytes "data", v)]) := by
    by_cases h : d = []
    · rw [if_pos h, if_pos h]
      exact .nil
    · rw [if_neg h, if_neg h]
      exact .cons ⟨hkey₃, rfl, hd h⟩ .nil
  have hlast : Json.MemberTexts (if ack then [(bytes "sys", bytes "\x7b\"ack\":1\x7d")] else [])
      (if ack then [(bytes "sys", bytes "\x7b\"ack\":1\x7d")] else []) := by
    cases ack with
    | false => exact .nil
    | true => exact .cons ⟨hkey₄, rfl, hack⟩ .nil
  exact List.rel_append hfirst (List.rel_append hmiddle hlast)

private theorem memberTexts_payload (n t : Nat) {d : List UInt8} (ack : Bool) (hd : d ≠ [] → Json.IsValue d) :
    ∃ vs, Json.MemberTexts (payloadMembers n t d ack) vs := by
  have hvalue : ∃ v, d ≠ [] → Json.ValueText d v := by
    by_cases h : d = []
    · exact ⟨[], fun hne => absurd h hne⟩
    · obtain ⟨v, hv⟩ := (hd h).valueText
      exact ⟨v, fun _ => hv⟩
  obtain ⟨v, hv⟩ := hvalue
  exact ⟨_, memberTexts_with (Json.plainKey_decimal n) (Json.valueText_decimal t) hv ack⟩

private theorem payloadMembers_keys (n t : Nat) (d : List UInt8) (ack : Bool) :
    ((payloadMembers n t d ack).map Prod.fst).Nodup := by
  have hall : ([bytes "msgId", bytes "time", bytes "data", bytes "sys"]).Nodup := by decide
  refine List.Nodup.sublist ?_ hall
  by_cases hd : d = [] <;> cases ack <;> simp [payloadMembers, hd]

private theorem payloadMembers_utf8 (n t : Nat) {d : List UInt8} (ack : Bool) (hd : d ≠ [] → Json.IsUtf8 d) :
    ∀ m ∈ payloadMembers n t d ack, Json.IsUtf8 m.1 ∧ Json.IsUtf8 m.2 := by
  have hdecimal : ∀ k : Nat, Json.IsUtf8 (decimal k) := by
    intro k
    apply Json.isUtf8_of_ascii
    intro c hc
    have := decimal_digits hc
    omega
  have hquote : Json.IsUtf8 [Json.dquote] := Json.isUtf8_of_all (by decide)
  have hkey : ∀ s ∈ [bytes "msgId", bytes "time", bytes "data", bytes "sys", bytes "\x7b\"ack\":1\x7d"],
      Json.IsUtf8 s := by
    intro s hs
    apply Json.isUtf8_of_all
    revert s
    decide
  intro m hm
  simp only [payloadMembers, List.mem_append, List.mem_cons, List.not_mem_nil, or_false] at hm
  rcases hm with (rfl | rfl) | hdata | hack
  · exact ⟨hkey _ (by simp), hquote.append ((hdecimal n).append hquote)⟩
  · exact ⟨hkey _ (by simp), hdecimal t⟩
  · split at hdata
    · cases hdata
    · rename_i h
      rw [List.mem_singleton.1 hdata]
      exact ⟨hkey _ (by simp), hd h⟩
  · split at hack
    · rw [List.mem_singleton.1 hack]
      exact ⟨hkey _ (by simp), hkey _ (by simp)⟩
    · cases hack

/-- With valid data the intended payload is a JSON object with the intended members, each once. -/
theorem payloadText_json (n t : Nat) {d : List UInt8} (ack : Bool) (hd : d ≠ [] → Json.Valid d) :
    Json.Valid (payloadText n t d ack) ∧ ∃ vs, Json.MemberTexts (payloadMembers n t d ack) vs ∧
      (vs.map Prod.fst).Nodup ∧ Json.IsObject (payloadText n t d ack) vs := by
  obtain ⟨vs, hvs⟩ := memberTexts_payload n t ack fun h => (hd h).2
  have hutf8 := payloadMembers_utf8 n t ack fun h => (hd h).1
  have hobj := Json.objectText_isObject hvs (by simp [payloadMembers])
  rw [show payloadText n t d ack = Json.objectText (payloadMembers n t d ack) from payloadWith_eq_objectText _ _ _ _]
  refine ⟨⟨?_, hobj.isValue⟩, vs, hvs, ?_, hobj⟩
  · exact Json.isUtf8_objectText (fun m hm => (hutf8 m hm).1) (fun m hm => (hutf8 m hm).2)
  · rw [hvs.keys]
    exact payloadMembers_keys n t d ack

/-! ### Complete payloads -/

/-- The text that the calls print is the intended one exactly when `%d` prints both numbers as they are. -/
private theorem pieces_flatten_eq_iff (type : ThingType) (deviceId dataString : Option CString) (ack : Bool)
    (n t : UInt32) :
    (payloadPieces (requestMessage type deviceId dataString ack) n t).flatten =
      payloadText n.toNat t.toNat (dataText dataString) ack ↔ n.toNat < 2 ^ 31 ∧ t.toNat < 2 ^ 31 := by
  rw [pieces_flatten, payloadText]
  constructor
  · intro h
    have h₁ := List.append_cancel_left h
    have hn : n.toNat < 2 ^ 31 := by
      by_contra hge
      rw [formatD_of_ge (by omega), List.cons_append] at h₁
      exact minus_cons_ne_decimal_append _ _ _ h₁
    rw [formatD_of_lt hn] at h₁
    have h₂ := List.append_cancel_left (List.append_cancel_left h₁)
    refine ⟨hn, ?_⟩
    by_contra hge
    rw [formatD_of_ge (by omega), List.cons_append] at h₂
    exact minus_cons_ne_decimal_append _ _ _ h₂
  · rintro ⟨hn, ht⟩
    rw [formatD_of_lt hn, formatD_of_lt ht]

/-- The condition under which a request is sent as it should be. -/
def SendFits (context : TuyaMqttContext) (env : SendEnv) (dataString : Option CString) : Prop :=
  context.msgidInc.toNat < 2 ^ 31 ∧ env.timestamp.toNat < 2 ^ 31 ∧ DataFits (dataText dataString)

theorem suffix_get {type : ThingType} (htype : type.toIndex < 49) :
    tylinkSuffixMap[type.toIndex]? = some (tylinkSuffixMap.getD type.toIndex []) := by
  rw [List.getD_eq_getElem _ _ (by rw [length_tylinkSuffixMap]; exact htype)]
  exact List.getElem?_eq_getElem _

private theorem send_eq {env : SendEnv} (halloc : env.allocOk = true) (mqmsgid : UInt16) (context : TuyaMqttContext)
    {type : ThingType} (htype : type.toIndex < 49) (deviceId dataString : Option CString) (ack : Bool) :
    ∃ topic, tuyalinkMessageSend env (recordPublish mqmsgid) context (requestMessage type deviceId dataString ack) [] =
      ((OutBuf.new env.fill (allocSize dataString)).snprintfAll
        (payloadPieces (requestMessage type deviceId dataString ack) context.msgidInc env.timestamp)).map fun payload =>
          if mqmsgid = 0 then ⟨oprtLinkCoreMqttPublishError,
            { context with msgidInc := context.msgidInc + 1 }, [⟨topic, payload, payload.len⟩]⟩
          else ⟨asInt context.msgidInc, { context with msgidInc := context.msgidInc + 1 },
            [⟨topic, payload, payload.len⟩]⟩ := by
  refine ⟨topicStuff (deviceId.getD context.config.deviceId).chars (tylinkSuffixMap.getD type.toIndex []), ?_⟩
  simp only [tuyalinkMessageSend, requestMessage, suffix_get htype, halloc, ite_true, hasMsgid, Bool.false_eq_true,
    ite_false, recordPublish, List.nil_append]

/-- A message without an identifier, when there is memory for the payload: the counter goes up, and the payload starts
with its old value. -/
theorem send_unnamed {σ : Type} {env : SendEnv} (halloc : env.allocOk = true) (publish : Publish → σ → UInt16 × σ)
    (context : TuyaMqttContext) {message : TuyalinkMessage CString} (hmsgid : hasMsgid message.msgid = false)
    (htype : message.type.toIndex < 49) (world : σ) :
    ∃ p tail, tuyalinkMessageSend env publish context message world =
        some ⟨if (publish p world).1 = 0 then oprtLinkCoreMqttPublishError else asInt context.msgidInc,
          { context with msgidInc := context.msgidInc + 1 }, (publish p world).2⟩ ∧
      p.payload.mem.take p.length =
        bytes "\x7b\"msgId\":\"" ++ (formatD context.msgidInc ++ (bytes "\"" ++ tail)) := by
  obtain ⟨buf, tail, hbuf, htext⟩ := sentPayload_start env.fill hmsgid context.msgidInc env.timestamp
  refine ⟨⟨topicStuff (message.deviceId.getD context.config.deviceId).chars
    (tylinkSuffixMap.getD message.type.toIndex []), buf, buf.len⟩, tail, ?_, htext⟩
  simp only [tuyalinkMessageSend, suffix_get htype, halloc, ite_true, hmsgid, Bool.false_eq_true, ite_false, hbuf,
    Option.map_some]
  split <;> rfl

/-- With memory for the payload a request publishes once. -/
theorem send_publishes {env : SendEnv} (halloc : env.allocOk = true) (mqmsgid : UInt16) (context : TuyaMqttContext)
    {type : ThingType} (htype : type.toIndex < 49) (deviceId dataString : Option CString) (ack : Bool) :
    ∃ r p, tuyalinkMessageSend env (recordPublish mqmsgid) context (requestMessage type deviceId dataString ack) [] =
      some r ∧ r.world = [p] := by
  obtain ⟨p, -, hsend, -⟩ := send_unnamed halloc (recordPublish mqmsgid) context
    (show hasMsgid (requestMessage type deviceId dataString ack).msgid = false from rfl) htype []
  exact ⟨_, p, hsend, rfl⟩

/-- Without memory for the payload nothing is published. -/
private theorem sendsComplete_of_allocFail {env : SendEnv} (halloc : ¬ env.allocOk = true) (mqmsgid : UInt16)
    (context : TuyaMqttContext) {type : ThingType} (htype : type.toIndex < 49) (deviceId dataString : Option CString)
    (ack : Bool) : SendsComplete env mqmsgid context type deviceId dataString ack := by
  refine ⟨⟨oprtMallocFailed, context, []⟩, ?_, fun h => absurd h halloc⟩
  simp only [tuyalinkMessageSend, requestMessage, suffix_get htype, Bool.eq_false_iff.2 halloc, Bool.false_eq_true,
    ite_false]

theorem sendsComplete_of_sendFits {env : SendEnv} (halloc : env.allocOk = true) (mqmsgid : UInt16)
    {context : TuyaMqttContext} {type : ThingType} (htype : type.toIndex < 49) (deviceId : Option CString)
    {dataString : Option CString} (ack : Bool) (h : SendFits context env dataString) :
    SendsComplete env mqmsgid context type deviceId dataString ack := by
  obtain ⟨hn, ht, hd⟩ := h
  obtain ⟨topic, hsend⟩ := send_eq halloc mqmsgid context htype deviceId dataString ack
  obtain ⟨buf, hbuf, hcalls, hlen, htext⟩ :=
    sentPayload_spec env.fill type deviceId ack context.msgidInc env.timestamp hd
  rw [(pieces_flatten_eq_iff type deviceId dataString ack context.msgidInc env.timestamp).2 ⟨hn, ht⟩] at htext
  have hcomplete : CompletePayload ⟨topic, buf, buf.len⟩ context.msgidInc.toNat env.timestamp.toNat
      (dataText dataString) ack := by
    refine ⟨hcalls, hlen, htext, ?_⟩
    intro hvalid
    show Json.Valid (buf.mem.take buf.len) ∧ _
    rw [htext]
    exact payloadText_json _ _ ack hvalid
  rw [hbuf, Option.map_some] at hsend
  refine ⟨_, hsend, fun _ => ⟨⟨topic, buf, buf.len⟩, ?_, hcomplete⟩⟩
  split <;> rfl

theorem sendFits_of_sendsComplete {env : SendEnv} (halloc : env.allocOk = true) {mqmsgid : UInt16}
    {context : TuyaMqttContext} {type : ThingType} (htype : type.toIndex < 49) {deviceId dataString : Option CString}
    {ack : Bool} (h : SendsComplete env mqmsgid context type deviceId dataString ack) :
    SendFits context env dataString := by
  obtain ⟨r, hr, hp⟩ := h
  obtain ⟨p, hp, hcomplete⟩ := hp halloc
  obtain ⟨topic, hsend⟩ := send_eq halloc mqmsgid context htype deviceId dataString ack
  rw [hsend] at hr
  obtain ⟨buf, hbuf, rfl⟩ := Option.map_eq_some_iff.1 hr
  have hpbuf : p = ⟨topic, buf, buf.len⟩ := by
    split at hp
    · exact (List.singleton_inj.1 hp).symm
    · exact (List.singleton_inj.1 hp).symm
  subst hpbuf
  have hd : DataFits (dataText dataString) := by
    by_contra hd
    obtain ⟨piece, hmem, hlong⟩ := long_piece_mem type deviceId ack context.msgidInc env.timestamp hd
    obtain ⟨c, hc, hnot⟩ := OutBuf.exists_incomplete_of_long hbuf hmem hlong
    exact hnot (hcomplete.calls c hc).1
  obtain ⟨buf', hbuf', -, -, htext⟩ := sentPayload_spec env.fill type deviceId ack context.msgidInc env.timestamp hd
  rw [hbuf] at hbuf'
  cases hbuf'
  have hflat := htext.symm.trans hcomplete.text
  obtain ⟨hn, ht⟩ := (pieces_flatten_eq_iff type deviceId dataString ack context.msgidInc env.timestamp).1 hflat
  exact ⟨hn, ht, hd⟩

/-- What a request publishes is complete exactly when the counter and the timestamp are below `2^31` and the data is
shorter than what an `int` can count, or no payload is built. -/
theorem sendsComplete_iff (env : SendEnv) (mqmsgid : UInt16) (context : TuyaMqttContext)
    (type : { type : ThingType // type.toIndex < 49 }) (deviceId dataString : Option CString) (ack : Bool) :
    SendsComplete env mqmsgid context type.1 deviceId dataString ack ↔
      (env.allocOk = true → SendFits context env dataString) := by
  constructor
  · intro h halloc
    exact sendFits_of_sendsComplete halloc type.2 h
  · intro h
    by_cases halloc : env.allocOk = true
    · exact sendsComplete_of_sendFits halloc mqmsgid type.2 deviceId ack (h halloc)
    · exact sendsComplete_of_allocFail halloc mqmsgid context type.2 deviceId dataString ack

/-- A context of the device `x`. -/
def exampleContext : TuyaMqttContext :=
  .zero ⟨⟨bytes "x", by decide, by decide⟩, ⟨bytes "0123456789abcdef", by decide, by decide⟩, 2000, 100, true, true,
    true⟩

/-- The counter at `2^31` is printed as `-2147483648`. -/
theorem not_sendsComplete_counter :
    ¬ SendsComplete ⟨true, fun _ => 0, 1700000000⟩ 1 { exampleContext with msgidInc := 2147483648 } .propertyReport
      none (some ⟨bytes "\x7b\x7d", by decide, by decide⟩) false := by
  intro h
  have hfits := sendFits_of_sendsComplete rfl (by decide) h
  exact absurd hfits.1 (by decide)

end TuyaDaemon
