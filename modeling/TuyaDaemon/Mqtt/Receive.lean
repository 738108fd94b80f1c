import TuyaDaemon.Mqtt.ProcessLoop

/-!
# Reading packets

`network_tls_read` and the functions of coreMQTT that read through it, over what is ahead of the reader on the TLS
connection (`SslStream`).  Behind the last event the peer has closed the stream, and `mbedtls_ssl_read` returns `0`, as
`network_tls_read` does for a read that can be tried again (`zeroIsRetryable_iff`).
-/

namespace TuyaDaemon

/-! ### `mbedtls_ssl_read` -/

/-- Application data that has arrived, or a negative return value. -/
inductive SslEvent where
  | record (data : List UInt8) (nonempty : data ≠ [])
  | failure (rv : Int) (negative : rv < 0)

abbrev SslStream := List SslEvent

/-- A return value with the bytes that were stored, and what is still ahead. -/
structure Received where
  rv : Int
  data : List UInt8
  ahead : SslStream

def mbedtlsSslRead (len : Nat) : SslStream → Received
  | [] => ⟨0, [], []⟩
  | .failure rv _ :: s => ⟨rv, [], s⟩
  | .record data _ :: s =>
    if h : data.drop len = [] then ⟨data.length, data, s⟩
    else ⟨(data.take len).length, data.take len, .record (data.drop len) h :: s⟩

abbrev mbedtlsErrSslWantRead : Int := -0x6900
abbrev mbedtlsErrSslWantWrite : Int := -0x6880
abbrev mbedtlsErrSslCryptoInProgress : Int := -0x7000
abbrev mbedtlsErrSslTimeout : Int := -0x6800
abbrev mbedtlsErrSslAsyncInProgress : Int := -0x6500

/-- `mbedtls_status_is_ssl_in_progress` -/
def mbedtlsStatusIsSslInProgress (ret : Int) : Bool :=
  ret == mbedtlsErrSslWantRead || ret == mbedtlsErrSslWantWrite || ret == mbedtlsErrSslCryptoInProgress ||
    ret == mbedtlsErrSslTimeout || ret == mbedtlsErrSslAsyncInProgress

abbrev oprtMidTlsNetSocketError : Int := -0x0a00

def networkTlsRead (len : Nat) (s : SslStream) : Received :=
  let r := mbedtlsSslRead len s
  { r with
    rv := if r.rv < 0 then if mbedtlsStatusIsSslInProgress r.rv then 0 else oprtMidTlsNetSocketError else r.rv }

/-- A zero of `network_tls_read` stands for a condition that can be retried. -/
def ZeroIsRetryable (len : Nat) (s : SslStream) : Prop :=
  (networkTlsRead len s).rv = 0 → mbedtlsStatusIsSslInProgress (mbedtlsSslRead len s).rv = true

/-- A read that returns `0` has met the end of the stream. -/
theorem mbedtlsSslRead_eq_zero_iff {len : Nat} (hlen : 0 < len) (s : SslStream) :
    (mbedtlsSslRead len s).rv = 0 ↔ s = [] := by
  cases s with
  | nil => simp [mbedtlsSslRead]
  | cons event s =>
    refine iff_of_false ?_ (List.cons_ne_nil _ _)
    cases event with
    | failure rv negative => exact Int.ne_of_lt negative
    | record data nonempty =>
      have hpos := List.length_pos_iff.2 nonempty
      simp only [mbedtlsSslRead]
      split
      · show (data.length : Int) ≠ 0
        omega
      · show ((data.take len).length : Int) ≠ 0
        rw [List.length_take]
        omega

/-- The end of the stream is the only other reason for a zero. -/
theorem zeroIsRetryable_iff {len : Nat} (hlen : 0 < len) (s : SslStream) : ZeroIsRetryable len s ↔ s ≠ [] := by
  rw [Ne, ← mbedtlsSslRead_eq_zero_iff hlen s]
  constructor
  · intro h hzero
    have hretry := h (by simp only [networkTlsRead, hzero]; rfl)
    rw [hzero] at hretry
    exact absurd hretry (by decide)
  · intro hne hzero
    simp only [networkTlsRead] at hzero
    split at hzero
    · split at hzero
      · assumption
      · exact absurd hzero (by decide)
    · exact absurd hzero hne

/-! ### The header -/

/-- `incomingPacketValid`: the second bit of a PUBREL must be set. -/
def incomingPacketValid (packetType : UInt8) : Bool :=
  let masked := packetType &&& 0xF0
  masked == 0x20 || masked == mqttPacketTypePublish || masked == mqttPacketTypePuback ||
    masked == mqttPacketTypePubrec || masked == mqttPacketTypePubcomp || masked == mqttPacketTypeSuback ||
    masked == mqttPacketTypeUnsuback || masked == mqttPacketTypePingresp ||
    (masked == mqttPacketTypePubrel &&& 0xF0 && packetType &&& 0x02 != 0)

def remainingLengthEncodedSize (length : Nat) : Nat :=
  if length < 128 then 1 else if length < 16384 then 2 else if length < 2097152 then 3 else 4

/-- The loop of `getRemainingLength`, with the bytes that may still be read before the multiplier passes `128 ^ 3`. -/
def remainingLengthFrom : Nat → Nat → Nat → Nat → SslStream → Option (Nat × Nat) × SslStream
  | 0, _, _, _, s => (none, s)
  | left + 1, multiplier, remainingLength, bytesDecoded, s =>
    let r := networkTlsRead 1 s
    if r.rv = 1 then
      let encodedByte := r.data.headD 0
      let remainingLength := remainingLength + (encodedByte &&& 0x7F).toNat * multiplier
      if encodedByte &&& 0x80 ≠ 0 then
        remainingLengthFrom left (multiplier * 128) remainingLength (bytesDecoded + 1) r.ahead
      else (some (remainingLength, bytesDecoded + 1), r.ahead)
    else (none, r.ahead)

/-- `none` is `MQTT_REMAINING_LENGTH_INVALID`. -/
def getRemainingLength (s : SslStream) : Option Nat × SslStream :=
  match remainingLengthFrom 4 1 0 0 s with
  | (none, s) => (none, s)
  | (some (remainingLength, bytesDecoded), s) =>
    (if bytesDecoded ≠ remainingLengthEncodedSize remainingLength then none else some remainingLength, s)

/-- A status, and the fields that are set when it is `MQTTSuccess`. -/
structure IncomingHeader where
  status : MQTTStatus
  type : UInt8
  remainingLength : Nat
  ahead : SslStream

def mqttGetIncomingPacketTypeAndLength (s : SslStream) : IncomingHeader :=
  let r := networkTlsRead 1 s
  let type := r.data.headD 0
  if r.rv = 1 then
    if incomingPacketValid type then
      match getRemainingLength r.ahead with
      | (some remainingLength, s) => ⟨.success, type, remainingLength, s⟩
      | (none, s) => ⟨.badResponse, type, 0, s⟩
    else ⟨.badResponse, type, 0, r.ahead⟩
  else if r.rv = 0 then ⟨.noDataAvailable, type, 0, r.ahead⟩
  else ⟨.recvFailed, type, 0, r.ahead⟩

/-! ### The packet -/

/-- One pass of the loop of `recvExact`. -/
def recvExactStep (bytesRemaining : Nat) (again : Nat → SslStream → Option (List UInt8) × SslStream) (s : SslStream) :
    Option (List UInt8) × SslStream :=
  if bytesRemaining = 0 then (some [], s)
  else
    let r := networkTlsRead bytesRemaining s
    if r.rv < 0 then (none, r.ahead)
    else
      let (more, s) := again (bytesRemaining - r.data.length) r.ahead
      (more.map (r.data ++ ·), s)

/-- `recvExact`: the bytes that were received, or `none` when a read failed.  The time allows so many reads behind the
first. -/
def recvExact : Nat → Nat → SslStream → Option (List UInt8) × SslStream
  | 0, bytesToRecv, s => recvExactStep bytesToRecv (fun _ s => (some [], s)) s
  | reads + 1, bytesToRecv, s => recvExactStep bytesToRecv (recvExact reads) s

/-- `CORE_MQTT_RX_BUFFER_SIZE` -/
abbrev coreMqttRxBufferSize : Nat := 4096

/-- One pass of the loop of `discardPacket`. -/
def discardPacketStep (reads remainingLength : Nat) (again : Nat → SslStream → MQTTStatus × SslStream)
    (s : SslStream) : MQTTStatus × SslStream :=
  if remainingLength = 0 then (.noDataAvailable, s)
  else
    let bytesToReceive := min remainingLength coreMqttRxBufferSize
    let (received, s) := recvExact reads bytesToReceive s
    if received.map List.length = some bytesToReceive then again (remainingLength - bytesToReceive) s
    else (.recvFailed, s)

/-- `discardPacket`: the time is up after the last part. -/
def discardPacket : Nat → List Nat → Nat → SslStream → MQTTStatus × SslStream
  | reads, [], remainingLength, s =>
    discardPacketStep reads remainingLength
      (fun remainingLength s => (if remainingLength = 0 then .noDataAvailable else .recvFailed, s)) s
  | reads, next :: moreReads, remainingLength, s =>
    discardPacketStep reads remainingLength (discardPacket next moreReads) s

theorem discardPacketStep_cases {reads len : Nat} {again : Nat → SslStream → MQTTStatus × SslStream}
    (hagain : ∀ n s, (again n s).1 = .noDataAvailable ∨ (again n s).1 = .recvFailed) (s : SslStream) :
    (discardPacketStep reads len again s).1 = .noDataAvailable ∨
      (discardPacketStep reads len again s).1 = .recvFailed := by
  unfold discardPacketStep
  split
  · exact Or.inl rfl
  · dsimp only
    split
    · exact hagain _ _
    · exact Or.inr rfl

/-- A packet is dropped as a whole, or its reception fails. -/
theorem discardPacket_cases (reads : Nat) (moreReads : List Nat) (len : Nat) (s : SslStream) :
    (discardPacket reads moreReads len s).1 = .noDataAvailable ∨
      (discardPacket reads moreReads len s).1 = .recvFailed := by
  induction moreReads generalizing reads len s with
  | nil =>
    refine discardPacketStep_cases (fun n s => ?_) s
    by_cases hn : n = 0
    · exact Or.inl (if_pos hn)
    · exact Or.inr (if_neg hn)
  | cons next moreReads ih => exact discardPacketStep_cases (fun n s => ih next n s) s

/-- What comes from outside in one pass of the loop, apart from the stream. -/
structure PassEnv where
  /-- the reads that the two seconds for a packet allow behind the first -/
  reads : Nat
  /-- the same for the further parts of a packet that is discarded -/
  moreReads : List Nat
  now : UInt32
  later : UInt32
  pingSent : Bool
  publishState : MQTTStatus
  ackSent : MQTTStatus

def receivePacket (env : PassEnv) (remainingLength : Nat) (s : SslStream) : MQTTStatus × List UInt8 × SslStream :=
  if coreMqttRxBufferSize < remainingLength then
    let (status, s) := discardPacket env.reads env.moreReads remainingLength s
    (status, [], s)
  else
    match recvExact env.reads remainingLength s with
    | (some data, s) => (if data.length = remainingLength then .success else .recvFailed, data, s)
    | (none, s) => (.recvFailed, [], s)

/-! ### Passes -/

/-- The pass that reads what is ahead. -/
def readPass (env : PassEnv) (s : SslStream) : Pass × SslStream :=
  let header := mqttGetIncomingPacketTypeAndLength s
  let body := receivePacket env header.remainingLength header.ahead
  let pass : Pass := {
    header := header.status
    body := body.1
    packet := ⟨header.type, body.2.1⟩
    now := env.now
    later := env.later
    pingSent := env.pingSent
    publishState := env.publishState
    ackSent := env.ackSent }
  (pass, if header.status = .success then body.2.2 else header.ahead)

/-- The passes of a loop, each behind what the one before has read. -/
def readPasses : List PassEnv → SslStream → List Pass
  | [], _ => []
  | env :: rest, s => (readPass env s).1 :: readPasses rest (readPass env s).2

end TuyaDaemon
