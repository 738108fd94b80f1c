import TuyaDaemon.CLib.Varint
import TuyaDaemon.Mqtt.Receive

/-!
# Packets on a stream

Packets that arrive one behind the other, in TLS records of any sizes: the passes of the process loop read each of them
once, in order, with its bytes, and drop a packet that is too long for the buffer as a whole (`readPasses_packets`).
Conversely, passes that meet no failure have consumed whole packets, whatever the stream is (`readPasses_sound`).
`Carries s bs n` says what a stream without failures still delivers, in how many records at most.  Every function that
reads has a lemma for each of the two directions.
-/

namespace TuyaDaemon

open CLib

/-- The bytes that are ahead. -/
def streamBytes : SslStream → List UInt8
  | [] => []
  | .record data _ :: s => data ++ streamBytes s
  | .failure _ _ :: s => streamBytes s

/-- No read fails. -/
def Quiet : SslStream → Prop
  | [] => True
  | .record _ _ :: s => Quiet s
  | .failure _ _ :: _ => False

/-- The stream delivers these bytes, in so many records at most. -/
structure Carries (s : SslStream) (bs : List UInt8) (records : Nat) : Prop where
  quiet : Quiet s
  bytes : streamBytes s = bs
  length : s.length ≤ records

/-! ### One read -/

theorem networkTlsRead_of_nonneg {len : Nat} {s : SslStream} (h : ¬ (mbedtlsSslRead len s).rv < 0) :
    networkTlsRead len s = mbedtlsSslRead len s := by
  rw [networkTlsRead, if_neg h]

/-- A read delivers bytes from the front: all that were asked for, or the rest of a record. -/
theorem Carries.read {s : SslStream} {bs : List UInt8} {records : Nat} (h : Carries s bs records) (hbs : bs ≠ [])
    {len : Nat} (hlen : 0 < len) :
    ∃ m, 0 < m ∧ m ≤ len ∧ m ≤ bs.length ∧ (networkTlsRead len s).rv = m ∧ (networkTlsRead len s).data = bs.take m ∧
      (m = len ∧ Carries (networkTlsRead len s).ahead (bs.drop m) records ∨
        ∃ fewer, records = fewer + 1 ∧ Carries (networkTlsRead len s).ahead (bs.drop m) fewer) := by
  obtain ⟨hquiet, hbytes, hlength⟩ := h
  cases s with
  | nil => exact absurd hbytes.symm hbs
  | cons event s =>
    cases event with
    | failure rv negative => exact hquiet.elim
    | record data nonempty =>
      have hdata := List.length_pos_iff.2 nonempty
      rw [streamBytes] at hbytes
      rw [List.length_cons] at hlength
      obtain ⟨fewer, rfl⟩ := Nat.exists_eq_succ_of_ne_zero (Nat.ne_of_gt (Nat.lt_of_lt_of_le (Nat.succ_pos _) hlength))
      by_cases hall : data.drop len = []
      · have hle : data.length ≤ len := List.drop_eq_nil_iff.1 hall
        have hread : networkTlsRead len (.record data nonempty :: s) = ⟨data.length, data, s⟩ := by
          rw [networkTlsRead_of_nonneg] <;> simp [mbedtlsSslRead, hall]
        rw [hread, ← hbytes]
        refine ⟨data.length, hdata, hle, by simp, rfl, by simp, Or.inr ⟨fewer, rfl, ?_⟩⟩
        exact ⟨hquiet, by simp, Nat.le_of_succ_le_succ hlength⟩
      · have hlt : len < data.length := by
          rw [List.drop_eq_nil_iff] at hall
          omega
        have hread : networkTlsRead len (.record data nonempty :: s) =
            ⟨(data.take len).length, data.take len, .record (data.drop len) hall :: s⟩ := by
          rw [networkTlsRead_of_nonneg] <;> simp [mbedtlsSslRead, hall]
        rw [hread, ← hbytes]
        refine ⟨len, hlen, Nat.le_refl _, ?_, ?_, ?_, Or.inl ⟨rfl, hquiet, ?_, hlength⟩⟩
        · rw [List.length_append]
          omega
        · rw [List.length_take, Nat.min_eq_left hlt.le]
        · rw [List.take_append_of_le_length hlt.le]
        · rw [streamBytes, List.drop_append_of_le_length hlt.le]

/-- A read of one byte. -/
theorem Carries.readByte {s : SslStream} {b : UInt8} {bs : List UInt8} {records : Nat} (h : Carries s (b :: bs) records) :
    (networkTlsRead 1 s).rv = 1 ∧ (networkTlsRead 1 s).data = [b] ∧ Carries (networkTlsRead 1 s).ahead bs records := by
  obtain ⟨m, hpos, hle, -, hrv, hdata, hahead⟩ := h.read (List.cons_ne_nil b bs) Nat.one_pos
  obtain rfl : m = 1 := Nat.le_antisymm hle hpos
  refine ⟨hrv, hdata, ?_⟩
  rcases hahead with ⟨-, hahead⟩ | ⟨fewer, rfl, hquiet, hbytes, hlength⟩
  · exact hahead
  · exact ⟨hquiet, hbytes, Nat.le_succ_of_le hlength⟩

theorem Carries.mono {s : SslStream} {bs : List UInt8} {records more : Nat} (h : Carries s bs records)
    (hle : records ≤ more) : Carries s bs more :=
  ⟨h.quiet, h.bytes, h.length.trans hle⟩

theorem Carries.eq_nil {s : SslStream} {bs : List UInt8} (h : Carries s bs 0) : bs = [] := by
  obtain rfl := List.length_eq_zero_iff.1 (Nat.le_zero.1 h.length)
  exact h.bytes.symm

/-! ### Many bytes -/

/-- One pass of the loop of `recvExact`: it receives all, or empties a record. -/
theorem recvExactStep_carries {data rest : List UInt8} {s : SslStream} {records : Nat}
    (h : Carries s (data ++ rest) records) (hdata : data ≠ [])
    (again : Nat → SslStream → Option (List UInt8) × SslStream) :
    ∃ m s', m ≤ data.length ∧
      recvExactStep data.length again s =
        ((again (data.length - m) s').1.map (data.take m ++ ·), (again (data.length - m) s').2) ∧
      (m = data.length ∧ Carries s' rest records ∨
        ∃ fewer, records = fewer + 1 ∧ Carries s' (data.drop m ++ rest) fewer) := by
  have hlen := List.length_pos_iff.2 hdata
  obtain ⟨m, hpos, hle, -, hrv, htake, hahead⟩ := h.read (List.append_ne_nil_of_left_ne_nil hdata rest) hlen
  rw [List.take_append_of_le_length hle] at htake
  rw [List.drop_append_of_le_length hle] at hahead
  refine ⟨m, (networkTlsRead data.length s).ahead, hle, ?_, ?_⟩
  · have hnonneg : ¬ (networkTlsRead data.length s).rv < 0 := by
      rw [hrv]
      omega
    rw [recvExactStep, if_neg (Nat.ne_of_gt hlen)]
    simp only [if_neg hnonneg, htake, List.length_take, Nat.min_eq_left hle]
  · rcases hahead with ⟨hm, hahead⟩ | hahead
    · left
      rw [hm, List.drop_length, List.nil_append] at hahead
      exact ⟨hm, hahead⟩
    · exact Or.inr hahead

theorem recvExact_zero (reads : Nat) (s : SslStream) : recvExact reads 0 s = (some [], s) := by
  cases reads <;> rfl

/-- So many reads as there are records receive what was asked for. -/
theorem recvExact_carries {data rest : List UInt8} {s : SslStream} {records reads : Nat}
    (h : Carries s (data ++ rest) records) (hreads : records ≤ reads + 1) :
    ∃ s', recvExact reads data.length s = (some data, s') ∧ Carries s' rest records := by
  induction reads generalizing data s records with
  | zero =>
    by_cases hdata : data = []
    · subst hdata
      exact ⟨s, rfl, h⟩
    · obtain ⟨m, s', hle, hstep, ⟨rfl, hrest⟩ | ⟨fewer, hfewer, hrest⟩⟩ :=
        recvExactStep_carries h hdata fun _ s => (some [], s)
      · exact ⟨s', by rw [recvExact, hstep]; simp, hrest⟩
      · -- the only record is empty
        obtain rfl : fewer = 0 := by omega
        obtain ⟨hdrop, hnil⟩ := List.append_eq_nil_iff.1 hrest.eq_nil
        obtain rfl : m = data.length := Nat.le_antisymm hle (List.drop_eq_nil_iff.1 hdrop)
        rw [hdrop, List.nil_append] at hrest
        exact ⟨s', by rw [recvExact, hstep]; simp, hrest.mono (Nat.zero_le _)⟩
  | succ reads ih =>
    by_cases hdata : data = []
    · subst hdata
      exact ⟨s, rfl, h⟩
    · obtain ⟨m, s', hle, hstep, ⟨rfl, hrest⟩ | ⟨fewer, hfewer, hrest⟩⟩ :=
        recvExactStep_carries h hdata (recvExact reads)
      · refine ⟨s', ?_, hrest⟩
        rw [recvExact, hstep, Nat.sub_self, recvExact_zero]
        simp
      · obtain ⟨s'', hmore, hrest'⟩ := ih hrest (by omega)
        rw [List.length_drop] at hmore
        refine ⟨s'', ?_, hrest'.mono (by omega)⟩
        rw [recvExact, hstep, hmore]
        simp

/-! ### The header -/

/-- The loop of `getRemainingLength` decodes what is ahead. -/
theorem remainingLengthFrom_carries {left multiplier start length : Nat} {bs rest : List UInt8}
    (hdecode : varintFrom left multiplier start bs = some (length, rest)) {s : SslStream} {records : Nat}
    (h : Carries s bs records) (bytesDecoded : Nat) :
    ∃ s', remainingLengthFrom left multiplier start bytesDecoded s =
        (some (length, bytesDecoded + (bs.length - rest.length)), s') ∧
      rest.length ≤ bs.length ∧ Carries s' rest records := by
  induction left generalizing multiplier start bs s bytesDecoded with
  | zero => cases hdecode
  | succ left ih =>
    cases bs with
    | nil => cases hdecode
    | cons b bs =>
      obtain ⟨hrv, hdata, hahead⟩ := h.readByte
      rw [varintFrom] at hdecode
      rw [remainingLengthFrom]
      simp only [hrv, hdata, List.headD_cons, ite_true] at hdecode ⊢
      split at hdecode
      · rename_i hmore
        obtain ⟨s', hloop, hle, hrest⟩ := ih hdecode hahead (bytesDecoded + 1)
        rw [if_pos hmore, hloop]
        refine ⟨s', ?_, by rw [List.length_cons]; omega, hrest⟩
        rw [List.length_cons, Nat.sub_add_comm hle]
        congr 3
        omega
      · rename_i hlast
        obtain ⟨rfl, rfl⟩ := Prod.mk.inj (Option.some.inj hdecode)
        rw [if_neg hlast]
        refine ⟨_, ?_, by simp, hahead⟩
        rw [List.length_cons, Nat.add_sub_cancel_left]

/-- The size that the decoded length is expected to have is that of its shortest encoding. -/
theorem length_varint {length : Nat} (h : length < 128 ^ 4) : (varint length).length = remainingLengthEncodedSize length := by
  have hpos := length_varint_pos length
  have h1 := length_varint_le_iff (by decide : 0 < 1) length
  have h2 := length_varint_le_iff (by decide : 0 < 2) length
  have h3 := length_varint_le_iff (by decide : 0 < 3) length
  have h4 := length_varint_le_iff (by decide : 0 < 4) length
  unfold remainingLengthEncodedSize
  split
  · omega
  · split
    · omega
    · split <;> omega

theorem getRemainingLength_carries {length : Nat} (hlength : length < 128 ^ 4) {rest : List UInt8} {s : SslStream}
    {records : Nat} (h : Carries s (varint length ++ rest) records) :
    ∃ s', getRemainingLength s = (some length, s') ∧ Carries s' rest records := by
  have hdecode := varintFrom_varint (by decide : 0 < 4) hlength 1 0 rest
  rw [Nat.mul_one, Nat.zero_add] at hdecode
  obtain ⟨s', hloop, -, hrest⟩ := remainingLengthFrom_carries hdecode h 0
  have hsize : 0 + ((varint length ++ rest).length - rest.length) = remainingLengthEncodedSize length := by
    rw [List.length_append, Nat.add_sub_cancel, Nat.zero_add, length_varint hlength]
  rw [hsize] at hloop
  refine ⟨s', ?_, hrest⟩
  simp only [getRemainingLength, hloop, ne_eq, not_true_eq_false, ite_false]

/-- The bytes of a packet. -/
def MQTTPacketInfo.bytes (packet : MQTTPacketInfo) : List UInt8 :=
  packet.type :: (varint packet.remainingData.length ++ packet.remainingData)

theorem header_carries {packet : MQTTPacketInfo} (htype : incomingPacketValid packet.type = true)
    (hlength : packet.remainingData.length < 128 ^ 4) {rest : List UInt8} {s : SslStream} {records : Nat}
    (h : Carries s (packet.bytes ++ rest) records) :
    ∃ s', mqttGetIncomingPacketTypeAndLength s = ⟨.success, packet.type, packet.remainingData.length, s'⟩ ∧
      Carries s' (packet.remainingData ++ rest) records := by
  rw [MQTTPacketInfo.bytes, List.cons_append, List.append_assoc] at h
  obtain ⟨hrv, hdata, hahead⟩ := h.readByte
  obtain ⟨s', hremaining, hrest⟩ := getRemainingLength_carries hlength hahead
  refine ⟨s', ?_, hrest⟩
  simp only [mqttGetIncomingPacketTypeAndLength, hrv, hdata, List.headD_cons, ite_true, htype, hremaining]

/-! ### The packet -/

/-- One part of a packet that is dropped. -/
theorem discardPacketStep_carries {data rest : List UInt8} {s : SslStream} {records reads : Nat}
    (h : Carries s (data ++ rest) records) (hdata : data ≠ []) (hreads : records ≤ reads + 1) :
    ∃ s', (∀ again, discardPacketStep reads data.length again s = again (data.length - coreMqttRxBufferSize) s') ∧
      Carries s' (data.drop coreMqttRxBufferSize ++ rest) records := by
  have hpart : Carries s (data.take coreMqttRxBufferSize ++ (data.drop coreMqttRxBufferSize ++ rest)) records := by
    rw [← List.append_assoc, List.take_append_drop]
    exact h
  obtain ⟨s', hreceived, hrest⟩ := recvExact_carries hpart hreads
  rw [List.length_take, Nat.min_comm] at hreceived
  refine ⟨s', fun again => ?_, hrest⟩
  have hsub : data.length - min data.length coreMqttRxBufferSize = data.length - coreMqttRxBufferSize := by omega
  rw [discardPacketStep, if_neg (fun hzero => hdata (List.length_eq_zero_iff.1 hzero))]
  simp only [hreceived, Option.map_some, List.length_take, Nat.min_comm, ite_true, hsub]

/-- All parts of a packet that is dropped, by induction on the ones behind the first. -/
theorem discardPacket_carries {moreReads : List Nat} {data rest : List UInt8} {s : SslStream} {records reads : Nat}
    (h : Carries s (data ++ rest) records) (hreads : records ≤ reads + 1)
    (hmore : ∀ more ∈ moreReads, records ≤ more + 1)
    (hparts : data.length ≤ coreMqttRxBufferSize * (moreReads.length + 1)) :
    ∃ s', discardPacket reads moreReads data.length s = (.noDataAvailable, s') ∧ Carries s' rest records := by
  induction moreReads generalizing data s reads with
  | nil =>
    by_cases hdata : data = []
    · subst hdata
      exact ⟨s, rfl, h⟩
    · obtain ⟨s', hstep, hrest⟩ := discardPacketStep_carries h hdata hreads
      rw [List.length_nil, Nat.zero_add, Nat.mul_one] at hparts
      rw [List.drop_eq_nil_iff.2 hparts, List.nil_append] at hrest
      exact ⟨s', by rw [discardPacket, hstep, if_pos (Nat.sub_eq_zero_of_le hparts)], hrest⟩
  | cons next moreReads ih =>
    by_cases hdata : data = []
    · subst hdata
      exact ⟨s, rfl, h⟩
    · obtain ⟨s', hstep, hrest⟩ := discardPacketStep_carries h hdata hreads
      have hparts' : (data.drop coreMqttRxBufferSize).length ≤ coreMqttRxBufferSize * (moreReads.length + 1) := by
        rw [List.length_cons, Nat.mul_add_one] at hparts
        rw [List.length_drop]
        omega
      obtain ⟨s'', hloop, hrest'⟩ := ih hrest (hmore next List.mem_cons_self)
        (fun more hmem => hmore more (List.mem_cons_of_mem _ hmem)) hparts'
      rw [List.length_drop] at hloop
      exact ⟨s'', by rw [discardPacket, hstep, hloop], hrest'⟩

/-- The time that a pass has is enough for a packet in so many records. -/
structure Suffices (env : PassEnv) (packet : MQTTPacketInfo) (records : Nat) : Prop where
  reads : records ≤ env.reads + 1
  moreReads : ∀ more ∈ env.moreReads, records ≤ more + 1
  parts : packet.remainingData.length ≤ coreMqttRxBufferSize * (env.moreReads.length + 1)

/-- The pass for a packet that has arrived: it is received, or dropped when it is too long. -/
def arrival (env : PassEnv) (packet : MQTTPacketInfo) : Pass where
  header := .success
  body := if coreMqttRxBufferSize < packet.remainingData.length then .noDataAvailable else .success
  packet := ⟨packet.type, if coreMqttRxBufferSize < packet.remainingData.length then [] else packet.remainingData⟩
  now := env.now
  later := env.later
  pingSent := env.pingSent
  publishState := env.publishState
  ackSent := env.ackSent

theorem readPass_carries {env : PassEnv} {packet : MQTTPacketInfo} (htype : incomingPacketValid packet.type = true)
    (hlength : packet.remainingData.length < 128 ^ 4) {records : Nat} (henv : Suffices env packet records)
    {rest : List UInt8} {s : SslStream} (h : Carries s (packet.bytes ++ rest) records) :
    ∃ s', readPass env s = (arrival env packet, s') ∧ Carries s' rest records := by
  obtain ⟨s', hheader, hbody⟩ := header_carries htype hlength h
  by_cases hlong : coreMqttRxBufferSize < packet.remainingData.length
  · obtain ⟨s'', hdiscard, hrest⟩ := discardPacket_carries hbody henv.reads henv.moreReads henv.parts
    refine ⟨s'', ?_, hrest⟩
    simp only [readPass, hheader, receivePacket, if_pos hlong, hdiscard, ite_true, arrival]
  · obtain ⟨s'', hreceive, hrest⟩ := recvExact_carries hbody henv.reads
    refine ⟨s'', ?_, hrest⟩
    simp only [readPass, hheader, receivePacket, if_neg hlong, hreceive, ite_true, arrival]

/-- Packets that arrive one behind the other, however their bytes are spread over records: the passes read each of them
once, in order. -/
theorem readPasses_packets (arrivals : List (PassEnv × MQTTPacketInfo)) (records : Nat)
    (hvalid : ∀ a ∈ arrivals, incomingPacketValid a.2.type = true ∧ a.2.remainingData.length < 128 ^ 4 ∧
      Suffices a.1 a.2 records) (s : SslStream) (h : Carries s (arrivals.flatMap fun a => a.2.bytes) records) :
    readPasses (arrivals.map Prod.fst) s = arrivals.map fun a => arrival a.1 a.2 := by
  induction arrivals generalizing s with
  | nil => rfl
  | cons a arrivals ih =>
    obtain ⟨htype, hlength, henv⟩ := hvalid a List.mem_cons_self
    rw [List.flatMap_cons] at h
    obtain ⟨s', hpass, hrest⟩ := readPass_carries htype hlength henv h
    rw [List.map_cons, List.map_cons, readPasses, hpass,
      ih (fun a ha => hvalid a (List.mem_cons_of_mem _ ha)) s' hrest]

/-! ### Any stream -/

/-- A read that returns a length has stored so many bytes, and another one has stored nothing. -/
theorem networkTlsRead_cases (len : Nat) (s : SslStream) :
    (networkTlsRead len s).rv = (networkTlsRead len s).data.length ∨
      (networkTlsRead len s).rv ≤ 0 ∧ (networkTlsRead len s).data = [] := by
  cases s with
  | nil => exact Or.inl rfl
  | cons event s =>
    cases event with
    | failure rv negative =>
      right
      refine ⟨?_, rfl⟩
      show (if rv < 0 then if mbedtlsStatusIsSslInProgress rv then 0 else oprtMidTlsNetSocketError else rv) ≤ 0
      rw [if_pos negative]
      split
      · exact Int.le_refl 0
      · decide
    | record data nonempty =>
      left
      rw [networkTlsRead_of_nonneg] <;> simp only [mbedtlsSslRead] <;> split <;> simp

/-- What is read stood in front. -/
theorem streamBytes_networkTlsRead (len : Nat) (s : SslStream) :
    streamBytes s = (networkTlsRead len s).data ++ streamBytes (networkTlsRead len s).ahead := by
  show streamBytes s = (mbedtlsSslRead len s).data ++ streamBytes (mbedtlsSslRead len s).ahead
  cases s with
  | nil => rfl
  | cons event s =>
    cases event with
    | failure rv negative => rfl
    | record data nonempty =>
      simp only [mbedtlsSslRead]
      split
      · rfl
      · show data ++ streamBytes s = data.take len ++ (data.drop len ++ streamBytes s)
        rw [← List.append_assoc, List.take_append_drop]

/-- The byte of a read that returned `1`. -/
theorem streamBytes_readByte {s : SslStream} (h : (networkTlsRead 1 s).rv = 1) :
    streamBytes s = (networkTlsRead 1 s).data.headD 0 :: streamBytes (networkTlsRead 1 s).ahead := by
  rw [streamBytes_networkTlsRead 1 s]
  rcases networkTlsRead_cases 1 s with hlength | ⟨hle, -⟩
  · rw [h] at hlength
    obtain ⟨b, hb⟩ := List.length_eq_one_iff.1 (Int.ofNat.inj hlength).symm
    rw [hb]
    rfl
  · rw [h] at hle
    exact absurd hle (by decide)

theorem recvExactStep_sound {bytesRemaining : Nat} {again : Nat → SslStream → Option (List UInt8) × SslStream}
    (hagain : ∀ n s data s', again n s = (some data, s') → streamBytes s = data ++ streamBytes s')
    {s s' : SslStream} {data : List UInt8} (h : recvExactStep bytesRemaining again s = (some data, s')) :
    streamBytes s = data ++ streamBytes s' := by
  unfold recvExactStep at h
  split at h
  · obtain ⟨hdata, rfl⟩ := Prod.mk.inj h
    rw [← Option.some.inj hdata]
    rfl
  · dsimp only at h
    split at h
    · cases h
    · obtain ⟨hmap, rfl⟩ := Prod.mk.inj h
      obtain ⟨more, hmore, rfl⟩ := Option.map_eq_some_iff.1 hmap
      rw [streamBytes_networkTlsRead bytesRemaining s, hagain _ _ _ _ (Prod.ext hmore rfl), List.append_assoc]

/-- What `recvExact` receives stood in front. -/
theorem recvExact_sound {reads bytesToRecv : Nat} {s s' : SslStream} {data : List UInt8}
    (h : recvExact reads bytesToRecv s = (some data, s')) : streamBytes s = data ++ streamBytes s' := by
  induction reads generalizing bytesToRecv s s' data with
  | zero =>
    refine recvExactStep_sound (fun n s data s' hagain => ?_) h
    obtain ⟨hdata, rfl⟩ := Prod.mk.inj hagain
    rw [← Option.some.inj hdata]
    rfl
  | succ reads ih => exact recvExactStep_sound (fun n s data s' hagain => ih hagain) h

/-- The loop of `getRemainingLength` succeeds only on what can be decoded. -/
theorem remainingLengthFrom_sound {left multiplier start bytesDecoded length decoded : Nat} {s s' : SslStream}
    (h : remainingLengthFrom left multiplier start bytesDecoded s = (some (length, decoded), s')) :
    varintFrom left multiplier start (streamBytes s) = some (length, streamBytes s') ∧
      decoded + (streamBytes s').length = bytesDecoded + (streamBytes s).length := by
  induction left generalizing multiplier start bytesDecoded s with
  | zero => cases h
  | succ left ih =>
    rw [remainingLengthFrom] at h
    dsimp only at h
    split at h
    · rename_i hread
      rw [streamBytes_readByte hread, varintFrom, List.length_cons]
      split at h
      · rename_i hmore
        obtain ⟨hdecode, hdecoded⟩ := ih h
        rw [if_pos hmore]
        exact ⟨hdecode, by omega⟩
      · rename_i hlast
        obtain ⟨hlength, rfl⟩ := Prod.mk.inj h
        obtain ⟨rfl, rfl⟩ := Prod.mk.inj (Option.some.inj hlength)
        rw [if_neg hlast]
        exact ⟨rfl, by omega⟩
    · cases h

/-- A remaining length is accepted in its shortest encoding only. -/
theorem getRemainingLength_sound {length : Nat} {s s' : SslStream} (h : getRemainingLength s = (some length, s')) :
    streamBytes s = varint length ++ streamBytes s' ∧ length < 128 ^ 4 := by
  unfold getRemainingLength at h
  split at h
  · cases h
  · rename_i remainingLength bytesDecoded ahead heq
    split at h
    · cases h
    · rename_i hsize
      obtain ⟨hlength, rfl⟩ := Prod.mk.inj h
      obtain rfl := Option.some.inj hlength
      obtain ⟨hdecode, hdecoded⟩ := remainingLengthFrom_sound heq
      obtain ⟨front, n, hbytes, hvalue, hbound, -, hshortest⟩ := varintFrom_sound hdecode
      rw [Nat.mul_one, Nat.zero_add] at hvalue
      subst hvalue
      rw [hbytes, List.length_append, Nat.zero_add] at hdecoded
      rw [not_ne_iff, ← length_varint hbound] at hsize
      rw [← hshortest (by omega)]
      exact ⟨hbytes, hbound⟩

theorem header_sound {s s' : SslStream} {type : UInt8} {remainingLength : Nat}
    (h : mqttGetIncomingPacketTypeAndLength s = ⟨.success, type, remainingLength, s'⟩) :
    streamBytes s = type :: (varint remainingLength ++ streamBytes s') ∧ incomingPacketValid type = true ∧
      remainingLength < 128 ^ 4 := by
  simp only [mqttGetIncomingPacketTypeAndLength] at h
  split at h
  · rename_i hread
    rw [streamBytes_readByte hread]
    split at h
    · rename_i hvalid
      split at h
      · rename_i length ahead heq
        obtain ⟨-, rfl, rfl, rfl⟩ := IncomingHeader.mk.inj h
        obtain ⟨hbytes, hbound⟩ := getRemainingLength_sound heq
        rw [hbytes]
        exact ⟨rfl, hvalid, hbound⟩
      · cases h
    · cases h
  · split at h <;> cases h

/-- A quiet connection has delivered nothing. -/
theorem header_quiet {s : SslStream} (h : (mqttGetIncomingPacketTypeAndLength s).status = .noDataAvailable) :
    streamBytes s = streamBytes (mqttGetIncomingPacketTypeAndLength s).ahead := by
  simp only [mqttGetIncomingPacketTypeAndLength] at h ⊢
  split at h
  · split at h
    · split at h <;> cases h
    · cases h
  · rename_i hread
    split at h
    · rename_i hzero
      rw [if_neg hread, if_pos hzero]
      have hdata : (networkTlsRead 1 s).data = [] := by
        rcases networkTlsRead_cases 1 s with hlength | ⟨-, hdata⟩
        · rw [hzero] at hlength
          exact List.length_eq_zero_iff.1 (Int.ofNat.inj hlength).symm
        · exact hdata
      rw [streamBytes_networkTlsRead 1 s, hdata]
      rfl
    · cases h

theorem discardPacketStep_sound {reads remainingLength : Nat} {again : Nat → SslStream → MQTTStatus × SslStream}
    (hagain : ∀ n s s', again n s = (.noDataAvailable, s') →
      ∃ data : List UInt8, data.length = n ∧ streamBytes s = data ++ streamBytes s')
    {s s' : SslStream} (h : discardPacketStep reads remainingLength again s = (.noDataAvailable, s')) :
    ∃ data : List UInt8, data.length = remainingLength ∧ streamBytes s = data ++ streamBytes s' := by
  unfold discardPacketStep at h
  split at h
  · rename_i hzero
    obtain ⟨-, rfl⟩ := Prod.mk.inj h
    exact ⟨[], hzero.symm, rfl⟩
  · dsimp only at h
    split at h
    · rename_i hreceived
      obtain ⟨front, hfront, hlength⟩ := Option.map_eq_some_iff.1 hreceived
      obtain ⟨data, hdata, hbytes⟩ := hagain _ _ _ h
      refine ⟨front ++ data, ?_, ?_⟩
      · rw [List.length_append]
        omega
      · rw [recvExact_sound (Prod.ext hfront rfl), hbytes, List.append_assoc]
    · cases h

/-- A packet that is dropped stood in front. -/
theorem discardPacket_sound {reads : Nat} {moreReads : List Nat} {remainingLength : Nat} {s s' : SslStream}
    (h : discardPacket reads moreReads remainingLength s = (.noDataAvailable, s')) :
    ∃ data : List UInt8, data.length = remainingLength ∧ streamBytes s = data ++ streamBytes s' := by
  induction moreReads generalizing reads remainingLength s s' with
  | nil =>
    refine discardPacketStep_sound (fun n s s' hagain => ?_) h
    obtain ⟨hstatus, rfl⟩ := Prod.mk.inj hagain
    refine ⟨[], ?_, rfl⟩
    by_contra hn
    rw [if_neg (fun hzero => hn hzero.symm)] at hstatus
    cases hstatus
  | cons next moreReads ih => exact discardPacketStep_sound (fun n s s' hagain => ih hagain) h

/-- The pass met no failure. -/
def Pass.Intact (pass : Pass) : Prop :=
  pass.header = .noDataAvailable ∨ pass.header = .success ∧ (pass.body = .noDataAvailable ∨ pass.body = .success)

/-- What the pass hands to the handlers. -/
def Pass.received (pass : Pass) : List MQTTPacketInfo :=
  if pass.header = .success ∧ pass.body = .success then [pass.packet] else []

/-- The packet is not too long for the buffer. -/
def MQTTPacketInfo.fits (packet : MQTTPacketInfo) : Bool := packet.remainingData.length ≤ coreMqttRxBufferSize

/-- The packets that stood in front of a pass, none or one. -/
structure Consumed (s : SslStream) (packets : List MQTTPacketInfo) (s' : SslStream) : Prop where
  bytes : streamBytes s = packets.flatMap MQTTPacketInfo.bytes ++ streamBytes s'
  valid : ∀ packet ∈ packets, incomingPacketValid packet.type = true ∧ packet.remainingData.length < 128 ^ 4

theorem Consumed.none {s s' : SslStream} (h : streamBytes s = streamBytes s') : Consumed s [] s' :=
  ⟨h, fun _ hmem => absurd hmem List.not_mem_nil⟩

theorem Consumed.append {s s' s'' : SslStream} {packets more : List MQTTPacketInfo} (h : Consumed s packets s')
    (hmore : Consumed s' more s'') : Consumed s (packets ++ more) s'' := by
  refine ⟨?_, fun packet hmem => ?_⟩
  · rw [h.bytes, hmore.bytes, List.flatMap_append, List.append_assoc]
  · rcases List.mem_append.1 hmem with hmem | hmem
    · exact h.valid packet hmem
    · exact hmore.valid packet hmem

theorem Consumed.one {s s' s'' : SslStream} {packet : MQTTPacketInfo}
    (hheader : mqttGetIncomingPacketTypeAndLength s = ⟨.success, packet.type, packet.remainingData.length, s'⟩)
    (hbytes : streamBytes s' = packet.remainingData ++ streamBytes s'') : Consumed s [packet] s'' := by
  obtain ⟨hfront, htype, hbound⟩ := header_sound hheader
  refine ⟨?_, fun p hmem => ?_⟩
  · rw [List.flatMap_singleton, hfront, hbytes, MQTTPacketInfo.bytes, List.cons_append, List.append_assoc]
  · rw [List.mem_singleton.1 hmem]
    exact ⟨htype, hbound⟩

/-- A packet is received with all of its bytes, or dropped with all of them when it is too long. -/
theorem receivePacket_sound {env : PassEnv} {remainingLength : Nat} {s s' : SslStream} {status : MQTTStatus}
    {received : List UInt8} (h : receivePacket env remainingLength s = (status, received, s'))
    (hstatus : status = .noDataAvailable ∨ status = .success) :
    ∃ data : List UInt8, data.length = remainingLength ∧ streamBytes s = data ++ streamBytes s' ∧
      (status = .success ↔ remainingLength ≤ coreMqttRxBufferSize) ∧ (status = .success → received = data) := by
  unfold receivePacket at h
  split at h
  · rename_i hlong
    obtain ⟨hdropped, -, hahead⟩ := by simpa only [Prod.mk.injEq] using h
    have hdiscard := discardPacket_cases env.reads env.moreReads remainingLength s
    rw [hdropped] at hdiscard
    rcases hdiscard with rfl | rfl
    · obtain ⟨data, hlength, hbytes⟩ := discardPacket_sound (Prod.ext hdropped hahead)
      refine ⟨data, hlength, hbytes, iff_of_false (by decide) (Nat.not_le_of_lt hlong), fun hsuccess => ?_⟩
      cases hsuccess
    · rcases hstatus with hstatus | hstatus <;> cases hstatus
  · rename_i hfits
    split at h
    · rename_i data ahead heq
      obtain ⟨hstatus', rfl, rfl⟩ := by simpa only [Prod.mk.injEq] using h
      split at hstatus'
      · rename_i hlength
        subst hstatus'
        exact ⟨data, hlength, recvExact_sound heq, iff_of_true rfl (Nat.le_of_not_lt hfits), fun _ => rfl⟩
      · subst hstatus'
        rcases hstatus with hstatus | hstatus <;> cases hstatus
    · obtain ⟨rfl, -⟩ := Prod.mk.inj h
      rcases hstatus with hstatus | hstatus <;> cases hstatus

/-- What one pass without a failure consumes. -/
theorem readPass_sound (env : PassEnv) (s : SslStream) (h : (readPass env s).1.Intact) :
    ∃ packets, Consumed s packets (readPass env s).2 ∧
      (readPass env s).1.received = packets.filter MQTTPacketInfo.fits := by
  obtain ⟨status, type, remainingLength, s', hheader⟩ : ∃ status type remainingLength s',
    mqttGetIncomingPacketTypeAndLength s = ⟨status, type, remainingLength, s'⟩ := ⟨_, _, _, _, rfl⟩
  obtain ⟨dropped, received, s'', hreceive⟩ : ∃ dropped received s'',
    receivePacket env remainingLength s' = (dropped, received, s'') := ⟨_, _, _, rfl⟩
  simp only [Pass.Intact, Pass.received, readPass, hheader, hreceive] at h ⊢
  rcases h with rfl | ⟨rfl, hbody⟩
  · have hquiet := header_quiet (congrArg IncomingHeader.status hheader)
    rw [hheader] at hquiet
    exact ⟨[], Consumed.none hquiet, rfl⟩
  · obtain ⟨data, rfl, hbytes, hfits, hdata⟩ := receivePacket_sound hreceive hbody
    refine ⟨[⟨type, data⟩], Consumed.one hheader hbytes, ?_⟩
    by_cases hsuccess : dropped = .success
    · rw [if_pos ⟨rfl, hsuccess⟩, hdata hsuccess, List.filter_singleton]
      simp [MQTTPacketInfo.fits, hfits.1 hsuccess]
    · rw [if_neg (fun h => hsuccess h.2), List.filter_singleton]
      simp [MQTTPacketInfo.fits, mt hfits.2 hsuccess]

/-- What is ahead of the reader behind the passes. -/
def streamBehind : List PassEnv → SslStream → SslStream
  | [], s => s
  | env :: rest, s => streamBehind rest (readPass env s).2

/-- Passes without a failure consume whole packets from any stream, and hand over those that fit, once and in order. -/
theorem readPasses_sound (envs : List PassEnv) (s : SslStream) (h : ∀ pass ∈ readPasses envs s, pass.Intact) :
    ∃ packets, Consumed s packets (streamBehind envs s) ∧
      (readPasses envs s).flatMap Pass.received = packets.filter MQTTPacketInfo.fits := by
  induction envs generalizing s with
  | nil => exact ⟨[], Consumed.none rfl, rfl⟩
  | cons env envs ih =>
    rw [readPasses, List.forall_mem_cons] at h
    obtain ⟨packets, hconsumed, hreceived⟩ := readPass_sound env s h.1
    obtain ⟨more, hmore, hreceived'⟩ := ih (readPass env s).2 h.2
    refine ⟨packets ++ more, hconsumed.append hmore, ?_⟩
    rw [readPasses, List.flatMap_cons, hreceived, hreceived', List.filter_append]

/-- A PINGRESP behind a read that is to be tried again. -/
theorem readPasses_sound_retry :
    ∃ packets, Consumed [.failure mbedtlsErrSslWantRead (Int.negSucc_lt_zero _),
          .record [0xD0, 0x00] (List.cons_ne_nil _ _)] packets [] ∧
      (readPasses [⟨0, [], 5, 5, true, .success, .success⟩, ⟨0, [], 5, 5, true, .success, .success⟩]
        [.failure mbedtlsErrSslWantRead (Int.negSucc_lt_zero _),
          .record [0xD0, 0x00] (List.cons_ne_nil _ _)]).flatMap Pass.received =
        packets.filter MQTTPacketInfo.fits :=
  readPasses_sound [⟨0, [], 5, 5, true, .success, .success⟩, ⟨0, [], 5, 5, true, .success, .success⟩]
    [.failure mbedtlsErrSslWantRead (Int.negSucc_lt_zero _), .record [0xD0, 0x00] (List.cons_ne_nil _ _)]
    (List.forall_mem_cons.2 ⟨Or.inl rfl, List.forall_mem_singleton.2 (Or.inr ⟨rfl, Or.inr rfl⟩)⟩)

end TuyaDaemon
