import TuyaDaemon.Mqtt.Framing

/-!
# The answer to a connect

`receiveConnack`: the first packet that arrives behind a CONNECT decides.  `receiveConnack_sound` and
`receiveConnack_arrives` say which bytes lead to which status.
-/

namespace TuyaDaemon

open CLib

abbrev mqttPacketTypeConnack : UInt8 := 0x20

/-- What the second byte of a CONNACK means; a broker with a session must have accepted the connection. -/
def connackReturn (sessionPresent : Bool) (code : UInt8) : MQTTStatus :=
  if sessionPresent = true ∧ code ≠ 0 then .badResponse
  else if 5 < code then .badResponse
  else if code = 5 then .notAuthorized
  else if 0 < code then .serverRefused
  else .success

/-- `deserializeConnack`: the status, and whether the broker has a session. -/
def deserializeConnack (packet : MQTTPacketInfo) (sessionPresent : Bool) : MQTTStatus × Bool :=
  match packet.remainingData with
  | [flags, code] =>
    if flags ||| 0x01 ≠ 0x01 then (.badResponse, sessionPresent)
    else
      let sessionPresent := decide (flags &&& 0x01 = 0x01)
      (connackReturn sessionPresent code, sessionPresent)
  | _ => (.badResponse, sessionPresent)

/-- The loop of `receiveConnack` that waits for a packet; so many reads are made behind the first. -/
def awaitConnack : Nat → SslStream → IncomingHeader
  | 0, s => mqttGetIncomingPacketTypeAndLength s
  | retries + 1, s =>
    let header := mqttGetIncomingPacketTypeAndLength s
    if header.status = .noDataAvailable then awaitConnack retries header.ahead else header

/-- What `receiveConnack` makes of the packet: a session is an error when a clean one was asked for. -/
def judgeConnack (cleanSession sessionPresent : Bool) (packet : MQTTPacketInfo) : MQTTStatus × Bool :=
  let (status, sessionPresent) := deserializeConnack packet sessionPresent
  (if status = .success ∧ cleanSession = true ∧ sessionPresent = true then .badResponse else status, sessionPresent)

def receiveConnack (retries : Nat) (env : PassEnv) (cleanSession sessionPresent : Bool) (s : SslStream) :
    MQTTStatus × Bool × SslStream :=
  let header := awaitConnack retries s
  if header.status ≠ .success then (header.status, sessionPresent, header.ahead)
  else if header.type ≠ mqttPacketTypeConnack then (.badResponse, sessionPresent, header.ahead)
  else
    let (status, data, s) := receivePacket env header.remainingLength header.ahead
    if status ≠ .success then (status, sessionPresent, s)
    else
      let (status, sessionPresent) := judgeConnack cleanSession sessionPresent ⟨header.type, data⟩
      (status, sessionPresent, s)

/-- What a broker means by the two bytes of a CONNACK, for a client that asked for a clean session or not. -/
def connackStatus (cleanSession : Bool) (flags code : UInt8) : MQTTStatus :=
  if flags = 0 then
    if code = 0 then .success
    else if code < 5 then .serverRefused
    else if code = 5 then .notAuthorized
    else .badResponse
  else if flags = 1 ∧ code = 0 ∧ cleanSession = false then .success
  else .badResponse

set_option maxRecDepth 8000 in
private theorem connackFlags_facts : ∀ flags : Fin 256,
    UInt8.ofNat flags ||| 0x01 = 0x01 ↔ UInt8.ofNat flags = 0 ∨ UInt8.ofNat flags = 1 := by
  decide

theorem connackFlags_iff (flags : UInt8) : flags ||| 0x01 = 0x01 ↔ flags = 0 ∨ flags = 1 := by
  have h := connackFlags_facts ⟨flags.toNat, flags.toNat_lt⟩
  rwa [UInt8.ofNat_toNat] at h

set_option maxRecDepth 8000 in
private theorem connackCode_facts : ∀ code : Fin 256,
    connackReturn false (UInt8.ofNat code) = connackStatus true 0 (UInt8.ofNat code) ∧
      connackReturn true (UInt8.ofNat code) = connackStatus false 1 (UInt8.ofNat code) := by
  decide

theorem connackReturn_eq (code : UInt8) :
    connackReturn false code = connackStatus true 0 code ∧ connackReturn true code = connackStatus false 1 code := by
  have h := connackCode_facts ⟨code.toNat, code.toNat_lt⟩
  rwa [UInt8.ofNat_toNat] at h

theorem connackStatus_other {flags : UInt8} (hflags : ¬ (flags = 0 ∨ flags = 1)) (cleanSession : Bool) (code : UInt8) :
    connackStatus cleanSession flags code = .badResponse := by
  unfold connackStatus
  rw [if_neg (fun h => hflags (Or.inl h)), if_neg (fun h => hflags (Or.inr h.1))]

theorem badResponse_ne_success : MQTTStatus.badResponse ≠ .success := by decide

/-- The two bytes decide, with what the client asked for. -/
theorem judgeConnack_spec (cleanSession sessionPresent : Bool) (type flags code : UInt8) :
    (judgeConnack cleanSession sessionPresent ⟨type, [flags, code]⟩).1 = connackStatus cleanSession flags code ∧
      (connackStatus cleanSession flags code = .success →
        (judgeConnack cleanSession sessionPresent ⟨type, [flags, code]⟩).2 = decide (flags = 1)) := by
  have hread : deserializeConnack ⟨type, [flags, code]⟩ sessionPresent =
    if flags ||| 0x01 ≠ 0x01 then (.badResponse, sessionPresent)
    else (connackReturn (decide (flags &&& 0x01 = 0x01)) code, decide (flags &&& 0x01 = 0x01)) := rfl
  obtain ⟨hnone, hsession⟩ := connackReturn_eq code
  rw [judgeConnack, hread]
  by_cases hflags : flags = 0 ∨ flags = 1
  · rw [if_neg (not_not_intro ((connackFlags_iff flags).2 hflags))]
    rcases hflags with rfl | rfl
    · have hbit : decide ((0 : UInt8) &&& 0x01 = 0x01) = false := by decide
      rw [hbit, hnone]
      exact ⟨if_neg (fun h => Bool.false_ne_true h.2.2), fun _ => rfl⟩
    · have hbit : decide ((1 : UInt8) &&& 0x01 = 0x01) = true := by decide
      rw [hbit, hsession]
      refine ⟨?_, fun _ => rfl⟩
      unfold connackStatus
      cases cleanSession <;> by_cases hzero : code = 0 <;> simp [hzero]
  · rw [if_pos (mt (connackFlags_iff flags).1 hflags), connackStatus_other hflags]
    exact ⟨by simp, fun h => absurd h badResponse_ne_success⟩

/-- A CONNACK of another length is none. -/
theorem judgeConnack_length {data : List UInt8} (h : data.length ≠ 2) (cleanSession sessionPresent : Bool) (type : UInt8) :
    judgeConnack cleanSession sessionPresent ⟨type, data⟩ = (.badResponse, sessionPresent) := by
  have hread : deserializeConnack ⟨type, data⟩ sessionPresent = (.badResponse, sessionPresent) := by
    unfold deserializeConnack
    split
    · rename_i heq
      exact absurd (congrArg List.length heq) h
    · rfl
  rw [judgeConnack, hread]
  simp

/-! ### The CONNACK on the stream -/

/-- The bytes of a CONNACK. -/
def connackBytes (flags code : UInt8) : List UInt8 := MQTTPacketInfo.bytes ⟨mqttPacketTypeConnack, [flags, code]⟩

/-- The broker answered, and it said yes or no. -/
def Answered (status : MQTTStatus) : Prop := status = .success ∨ status = .serverRefused ∨ status = .notAuthorized

theorem awaitConnack_sound {retries : Nat} {s s' : SslStream} {type : UInt8} {remainingLength : Nat}
    (h : awaitConnack retries s = ⟨.success, type, remainingLength, s'⟩) :
    streamBytes s = type :: (varint remainingLength ++ streamBytes s') := by
  induction retries generalizing s with
  | zero => exact (header_sound h).1
  | succ retries ih =>
    rw [awaitConnack] at h
    split at h
    · rename_i hquiet
      rw [header_quiet hquiet]
      exact ih h
    · exact (header_sound h).1

/-- The statuses that do not come from the broker. -/
theorem header_status (s : SslStream) : ¬ Answered (mqttGetIncomingPacketTypeAndLength s).status ∨
    (mqttGetIncomingPacketTypeAndLength s).status = .success := by
  simp only [mqttGetIncomingPacketTypeAndLength]
  split
  · split
    · split
      · exact Or.inr rfl
      · exact Or.inl (by simp [Answered])
    · exact Or.inl (by simp [Answered])
  · split <;> exact Or.inl (by simp [Answered])

theorem awaitConnack_status (retries : Nat) (s : SslStream) : ¬ Answered (awaitConnack retries s).status ∨
    (awaitConnack retries s).status = .success := by
  induction retries generalizing s with
  | zero => exact header_status s
  | succ retries ih =>
    rw [awaitConnack]
    split
    · exact ih _
    · exact header_status s

theorem receivePacket_status (env : PassEnv) (remainingLength : Nat) (s : SslStream) :
    ¬ Answered (receivePacket env remainingLength s).1 ∨ (receivePacket env remainingLength s).1 = .success := by
  unfold receivePacket
  split
  · left
    show ¬ Answered (discardPacket env.reads env.moreReads remainingLength s).1
    rcases discardPacket_cases env.reads env.moreReads remainingLength s with hstatus | hstatus <;>
      simp [hstatus, Answered]
  · split
    · dsimp only
      split
      · exact Or.inr rfl
      · exact Or.inl (by simp [Answered])
    · exact Or.inl (by simp [Answered])

/-- An answer is a CONNACK that stood in front. -/
theorem receiveConnack_sound {retries : Nat} {env : PassEnv} {cleanSession sessionPresent sessionPresent' : Bool}
    {s s' : SslStream} {status : MQTTStatus}
    (h : receiveConnack retries env cleanSession sessionPresent s = (status, sessionPresent', s'))
    (hanswered : Answered status) :
    ∃ flags code, streamBytes s = connackBytes flags code ++ streamBytes s' ∧
      connackStatus cleanSession flags code = status ∧ (status = .success → sessionPresent' = decide (flags = 1)) := by
  obtain ⟨headerStatus, type, remainingLength, ahead, hheader⟩ : ∃ headerStatus type remainingLength ahead,
    awaitConnack retries s = ⟨headerStatus, type, remainingLength, ahead⟩ := ⟨_, _, _, _, rfl⟩
  have hstatus := awaitConnack_status retries s
  simp only [receiveConnack, hheader] at h hstatus
  by_cases hsuccess : headerStatus = .success
  · subst hsuccess
    rw [if_neg (not_not_intro rfl)] at h
    split at h
    · obtain ⟨rfl, -⟩ := Prod.mk.inj h
      exact absurd hanswered (by simp [Answered])
    · rename_i htype
      obtain rfl := not_ne_iff.1 htype
      obtain ⟨received, data, s'', hreceive⟩ : ∃ received data s'',
        receivePacket env remainingLength ahead = (received, data, s'') := ⟨_, _, _, rfl⟩
      have hreceived := receivePacket_status env remainingLength ahead
      rw [hreceive] at h hreceived
      dsimp only at h hreceived
      by_cases hdata : received = .success
      · subst hdata
        rw [if_neg (not_not_intro rfl)] at h
        obtain ⟨data', rfl, hbytes, -, heq⟩ := receivePacket_sound hreceive (Or.inr rfl)
        obtain rfl := heq rfl
        have hfront := awaitConnack_sound hheader
        rw [hbytes] at hfront
        by_cases hlength : data.length = 2
        · obtain ⟨flags, code, rfl⟩ := List.length_eq_two.1 hlength
          obtain ⟨hstatus, hpresent⟩ := judgeConnack_spec cleanSession sessionPresent mqttPacketTypeConnack flags code
          obtain ⟨rfl, hrest⟩ := Prod.mk.inj h
          obtain ⟨rfl, rfl⟩ := Prod.mk.inj hrest
          refine ⟨flags, code, ?_, hstatus.symm, fun hsuccess => hpresent (hstatus.symm.trans hsuccess)⟩
          rw [hfront, connackBytes, MQTTPacketInfo.bytes, ← List.append_assoc]
          rfl
        · rw [judgeConnack_length hlength] at h
          obtain ⟨rfl, -⟩ := Prod.mk.inj h
          exact absurd hanswered (by simp [Answered])
      · rw [if_pos hdata] at h
        obtain ⟨rfl, -⟩ := Prod.mk.inj h
        exact absurd hanswered (hreceived.resolve_right hdata)
  · rw [if_pos hsuccess] at h
    obtain ⟨rfl, -⟩ := Prod.mk.inj h
    exact absurd hanswered (hstatus.resolve_right hsuccess)

/-- Reads that deliver nothing. -/
def quietly : List {rv : Int // rv < 0 ∧ mbedtlsStatusIsSslInProgress rv = true} → SslStream → SslStream
  | [], s => s
  | rv :: rest, s => .failure rv.1 rv.2.1 :: quietly rest s

theorem networkTlsRead_quiet {rv : Int} (negative : rv < 0) (hprogress : mbedtlsStatusIsSslInProgress rv = true) (len : Nat)
    (s : SslStream) : networkTlsRead len (.failure rv negative :: s) = ⟨0, [], s⟩ := by
  show ({ rv := if rv < 0 then if mbedtlsStatusIsSslInProgress rv then 0 else oprtMidTlsNetSocketError else rv
          data := [], ahead := s } : Received) = _
  rw [if_pos negative, if_pos hprogress]

theorem awaitConnack_arrives {flags code : UInt8} {rest : List UInt8} {records : Nat} {s : SslStream}
    (h : Carries s (connackBytes flags code ++ rest) records)
    (quiet : List {rv : Int // rv < 0 ∧ mbedtlsStatusIsSslInProgress rv = true}) {retries : Nat}
    (hretries : quiet.length ≤ retries) :
    ∃ s', awaitConnack retries (quietly quiet s) = ⟨.success, mqttPacketTypeConnack, 2, s'⟩ ∧
      Carries s' ([flags, code] ++ rest) records := by
  induction quiet generalizing retries with
  | nil =>
    have hvalid : incomingPacketValid mqttPacketTypeConnack = true := by decide
    have hlength : ([flags, code] : List UInt8).length < 128 ^ 4 := (by decide : 2 < 128 ^ 4)
    obtain ⟨s', hheader, hrest⟩ := header_carries hvalid hlength h
    refine ⟨s', ?_, hrest⟩
    cases retries with
    | zero => exact hheader
    | succ retries =>
      rw [quietly, awaitConnack, hheader]
      rfl
  | cons rv quiet ih =>
    obtain ⟨retries, rfl⟩ := Nat.exists_eq_succ_of_ne_zero (Nat.ne_of_gt (Nat.lt_of_lt_of_le (Nat.succ_pos _) hretries))
    obtain ⟨s', hawait, hrest⟩ := ih (Nat.le_of_succ_le_succ hretries)
    refine ⟨s', ?_, hrest⟩
    have hheader : mqttGetIncomingPacketTypeAndLength (quietly (rv :: quiet) s) =
        ⟨.noDataAvailable, 0, 0, quietly quiet s⟩ := by
      rw [quietly, mqttGetIncomingPacketTypeAndLength, networkTlsRead_quiet rv.2.1 rv.2.2]
      rfl
    rw [awaitConnack, hheader, ← hawait]
    rfl

/-- Whatever CONNACK arrives behind a quiet time, however it is split: its bytes decide. -/
theorem receiveConnack_arrives {flags code : UInt8} {rest : List UInt8} {records : Nat} {s : SslStream}
    (h : Carries s (connackBytes flags code ++ rest) records)
    (quiet : List {rv : Int // rv < 0 ∧ mbedtlsStatusIsSslInProgress rv = true}) {retries : Nat}
    (hretries : quiet.length ≤ retries) {env : PassEnv} (henv : records ≤ env.reads + 1)
    (cleanSession sessionPresent : Bool) :
    (receiveConnack retries env cleanSession sessionPresent (quietly quiet s)).1 =
      connackStatus cleanSession flags code := by
  obtain ⟨s', hawait, hrest⟩ := awaitConnack_arrives h quiet hretries
  obtain ⟨s'', hreceive, -⟩ := recvExact_carries hrest henv
  have hpacket : receivePacket env 2 s' = (.success, [flags, code], s'') := by
    rw [receivePacket, if_neg (by decide), show 2 = [flags, code].length from rfl, hreceive]
    rfl
  simp only [receiveConnack, hawait, hpacket]
  exact (judgeConnack_spec cleanSession sessionPresent mqttPacketTypeConnack flags code).1

/-- One quiet read, and a CONNACK in two records. -/
theorem receiveConnack_arrives_quiet :
    (receiveConnack 5 ⟨3, [], 5, 5, true, .success, .success⟩ true false
      (quietly [⟨-0x6900, by decide⟩] [.record [0x20, 0x02] (List.cons_ne_nil _ _),
        .record [0x00, 0x05] (List.cons_ne_nil _ _)])).1 = .notAuthorized := by
  have hlength : varint 2 = [2] := varint_of_lt (by decide)
  have hcarries : Carries [.record [0x20, 0x02] (List.cons_ne_nil _ _), .record [0x00, 0x05] (List.cons_ne_nil _ _)]
      (connackBytes 0 5 ++ []) 2 :=
    ⟨trivial, by simp [streamBytes, connackBytes, MQTTPacketInfo.bytes, mqttPacketTypeConnack, hlength], Nat.le_refl 2⟩
  exact receiveConnack_arrives hcarries [⟨-0x6900, by decide⟩] (by decide) (by decide) true false

end TuyaDaemon
