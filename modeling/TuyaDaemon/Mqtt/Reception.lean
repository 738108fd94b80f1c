import TuyaDaemon.Mqtt.Framing

/-!
# What a stream delivers

The functions of coreMQTT that read, as relations on what is ahead: nothing to read (`Idle`), single bytes (`TakesByte`),
a header (`TakesHeader`), the bytes of a packet (`Receives`) and a packet that is dropped (`Drops`), each in so many reads
as the time allows.  Every function succeeds exactly where its relation holds.
-/

namespace TuyaDaemon

open CLib

/-! ### One read -/

/-- There is nothing to read now: the peer has closed the stream, or the read can be tried again. -/
inductive Idle : SslStream → SslStream → Prop where
  | closed : Idle [] []
  | retry {rv : Int} {negative : rv < 0} {s : SslStream} (h : mbedtlsStatusIsSslInProgress rv = true) :
      Idle (.failure rv negative :: s) s

/-- A byte is in front. -/
inductive TakesByte : SslStream → UInt8 → SslStream → Prop where
  | last {b : UInt8} {nonempty : [b] ≠ []} {s : SslStream} : TakesByte (.record [b] nonempty :: s) b s
  | more {b : UInt8} {data : List UInt8} {nonempty : b :: data ≠ []} {s : SslStream} (rest : data ≠ []) :
      TakesByte (.record (b :: data) nonempty :: s) b (.record data rest :: s)

inductive TakesBytes : SslStream → List UInt8 → SslStream → Prop where
  | nil (s : SslStream) : TakesBytes s [] s
  | cons {s s' s'' : SslStream} {b : UInt8} {bs : List UInt8} (h : TakesByte s b s') (rest : TakesBytes s' bs s'') :
      TakesBytes s (b :: bs) s''

theorem networkTlsRead_failure (len : Nat) {rv : Int} (negative : rv < 0) (s : SslStream) :
    networkTlsRead len (.failure rv negative :: s) =
      ⟨if mbedtlsStatusIsSslInProgress rv then 0 else oprtMidTlsNetSocketError, [], s⟩ :=
  congrArg (fun rv => Received.mk rv [] s) (if_pos negative)

theorem networkTlsRead_record {len : Nat} {data : List UInt8} (h : data.length ≤ len) (nonempty : data ≠ [])
    (s : SslStream) : networkTlsRead len (.record data nonempty :: s) = ⟨data.length, data, s⟩ := by
  have hdrop : data.drop len = [] := List.drop_eq_nil_iff.2 h
  rw [networkTlsRead_of_nonneg] <;> simp [mbedtlsSslRead, hdrop]

theorem networkTlsRead_part {len : Nat} {data : List UInt8} (rest : data.drop len ≠ []) (nonempty : data ≠ [])
    (s : SslStream) :
    networkTlsRead len (.record data nonempty :: s) =
      ⟨(data.take len).length, data.take len, .record (data.drop len) rest :: s⟩ := by
  rw [networkTlsRead_of_nonneg] <;> simp [mbedtlsSslRead, rest]

theorem TakesByte.read {s s' : SslStream} {b : UInt8} (h : TakesByte s b s') : networkTlsRead 1 s = ⟨1, [b], s'⟩ := by
  cases h with
  | last => exact networkTlsRead_record (Nat.le_refl 1) _ _
  | more rest =>
    have hrest : ((b :: _).drop 1 : List UInt8) ≠ [] := rest
    exact networkTlsRead_part hrest _ _

/-- What a read meets. -/
theorem stream_cases (s : SslStream) :
    (∃ s', Idle s s') ∨
      (∃ rv negative s', s = .failure rv negative :: s' ∧ mbedtlsStatusIsSslInProgress rv = false) ∨
        ∃ b s', TakesByte s b s' := by
  cases s with
  | nil => exact Or.inl ⟨[], .closed⟩
  | cons event s =>
    cases event with
    | failure rv negative =>
      cases hretry : mbedtlsStatusIsSslInProgress rv with
      | true => exact Or.inl ⟨s, .retry hretry⟩
      | false => exact Or.inr (Or.inl ⟨rv, negative, s, rfl, hretry⟩)
    | record data nonempty =>
      right
      right
      obtain ⟨b, data, rfl⟩ := List.exists_cons_of_ne_nil nonempty
      by_cases hdata : data = []
      · subst hdata
        exact ⟨b, s, .last⟩
      · exact ⟨b, _, .more hdata⟩

/-- A read of one byte returns `1` when there is one. -/
theorem takesByte_of_read {s : SslStream} (h : (networkTlsRead 1 s).rv = 1) :
    ∃ b s', TakesByte s b s' := by
  rcases stream_cases s with ⟨s', hidle⟩ | ⟨rv, negative, s', rfl, hfailed⟩ | htakes
  · cases hidle with
    | closed => cases h
    | retry hretry =>
      rw [networkTlsRead_failure, if_pos hretry] at h
      cases h
  · rw [networkTlsRead_failure, hfailed] at h
    cases h
  · exact htakes

/-! ### The header -/

/-- A packet type and a remaining length are in front. -/
structure TakesHeader (s : SslStream) (type : UInt8) (remainingLength : Nat) (s' : SslStream) : Prop where
  valid : incomingPacketValid type = true
  length : remainingLength < 128 ^ 4
  bytes : TakesBytes s (type :: varint remainingLength) s'

theorem not_takesHeader_nil {type : UInt8} {remainingLength : Nat} {s' : SslStream} :
    ¬ TakesHeader [] type remainingLength s' := by
  rintro ⟨-, -, hbytes⟩
  cases hbytes with
  | cons h => cases h

/-- The loop of `getRemainingLength` decodes the bytes that it takes. -/
theorem remainingLengthFrom_iff {left multiplier start bytesDecoded length decoded : Nat} {s s' : SslStream} :
    remainingLengthFrom left multiplier start bytesDecoded s = (some (length, decoded), s') ↔
      ∃ bs, TakesBytes s bs s' ∧ varintFrom left multiplier start bs = some (length, []) ∧
        decoded = bytesDecoded + bs.length := by
  induction left generalizing multiplier start bytesDecoded s with
  | zero => simp [remainingLengthFrom, varintFrom]
  | succ left ih =>
    constructor
    · intro h
      rw [remainingLengthFrom] at h
      dsimp only at h
      split at h
      · rename_i hread
        obtain ⟨b, s₁, htakes⟩ := takesByte_of_read hread
        simp only [htakes.read, List.headD_cons] at h
        split at h
        · rename_i hmore
          obtain ⟨bs, hbs, hdecode, hdecoded⟩ := ih.1 h
          refine ⟨b :: bs, .cons htakes hbs, ?_, by rw [List.length_cons]; omega⟩
          rw [varintFrom, if_pos hmore]
          exact hdecode
        · rename_i hlast
          obtain ⟨hlength, rfl⟩ := Prod.mk.inj h
          obtain ⟨rfl, rfl⟩ := Prod.mk.inj (Option.some.inj hlength)
          refine ⟨[b], .cons htakes (.nil _), ?_, rfl⟩
          rw [varintFrom, if_neg hlast]
      · cases h
    · rintro ⟨bs, hbs, hdecode, rfl⟩
      cases hbs with
      | nil => cases hdecode
      | @cons _ s₁ _ b bs htakes hrest =>
        rw [varintFrom] at hdecode
        rw [remainingLengthFrom]
        simp only [htakes.read, List.headD_cons, ite_true] at hdecode ⊢
        split at hdecode
        · rename_i hmore
          rw [if_pos hmore]
          refine ih.2 ⟨bs, hrest, hdecode, ?_⟩
          rw [List.length_cons]
          omega
        · rename_i hlast
          obtain ⟨rfl, rfl⟩ := Prod.mk.inj (Option.some.inj hdecode)
          rw [if_neg hlast]
          cases hrest with
          | nil => rfl

theorem getRemainingLength_iff {length : Nat} {s s' : SslStream} :
    getRemainingLength s = (some length, s') ↔ length < 128 ^ 4 ∧ TakesBytes s (varint length) s' := by
  constructor
  · intro h
    unfold getRemainingLength at h
    split at h
    · cases h
    · rename_i remainingLength bytesDecoded ahead heq
      split at h
      · cases h
      · rename_i hsize
        obtain ⟨hlength, rfl⟩ := Prod.mk.inj h
        obtain rfl := Option.some.inj hlength
        obtain ⟨bs, hbs, hdecode, hdecoded⟩ := remainingLengthFrom_iff.1 heq
        obtain ⟨front, n, rfl, hvalue, hbound, -, hshortest⟩ := varintFrom_sound hdecode
        rw [Nat.mul_one, Nat.zero_add] at hvalue
        subst hvalue
        rw [List.append_nil] at hbs hdecoded
        rw [not_ne_iff, ← length_varint hbound] at hsize
        rw [hshortest (by omega)] at hbs
        exact ⟨hbound, hbs⟩
  · rintro ⟨hlength, hbs⟩
    have hdecode := varintFrom_varint (by decide : 0 < 4) hlength 1 0 []
    rw [Nat.mul_one, Nat.zero_add, List.append_nil] at hdecode
    have hloop : remainingLengthFrom 4 1 0 0 s = (some (length, 0 + (varint length).length), s') :=
      remainingLengthFrom_iff.2 ⟨_, hbs, hdecode, rfl⟩
    have hsize : 0 + (varint length).length = remainingLengthEncodedSize length := by
      rw [Nat.zero_add, length_varint hlength]
    rw [hsize] at hloop
    simp only [getRemainingLength, hloop, ne_eq, not_true_eq_false, ite_false]

/-- At the end of the stream, or when the read can be tried again, there is no data. -/
theorem Idle.header {s s' : SslStream} (h : Idle s s') :
    mqttGetIncomingPacketTypeAndLength s = ⟨.noDataAvailable, 0, 0, s'⟩ := by
  cases h with
  | closed => rfl
  | retry hretry =>
    simp only [mqttGetIncomingPacketTypeAndLength, networkTlsRead_failure, if_pos hretry]
    rfl

theorem header_failure {rv : Int} (negative : rv < 0) {s : SslStream} (h : mbedtlsStatusIsSslInProgress rv = false) :
    (mqttGetIncomingPacketTypeAndLength (.failure rv negative :: s)).status = .recvFailed := by
  have hread : (networkTlsRead 1 (.failure rv negative :: s)).rv = oprtMidTlsNetSocketError := by
    rw [networkTlsRead_failure, h]
    rfl
  rw [mqttGetIncomingPacketTypeAndLength, hread, if_neg (by decide), if_neg (by decide)]

theorem TakesByte.header {s s' : SslStream} {b : UInt8} (h : TakesByte s b s') :
    mqttGetIncomingPacketTypeAndLength s =
      if incomingPacketValid b then
        match getRemainingLength s' with
        | (some remainingLength, s) => ⟨.success, b, remainingLength, s⟩
        | (none, s) => ⟨.badResponse, b, 0, s⟩
      else ⟨.badResponse, b, 0, s'⟩ := by
  rcases hlength : getRemainingLength s' with ⟨_ | _, _⟩ <;>
    simp only [mqttGetIncomingPacketTypeAndLength, h.read, hlength, List.headD_cons, ite_true]

theorem TakesHeader.header {s s' : SslStream} {type : UInt8} {remainingLength : Nat}
    (h : TakesHeader s type remainingLength s') :
    mqttGetIncomingPacketTypeAndLength s = ⟨.success, type, remainingLength, s'⟩ := by
  obtain ⟨htype, hlength, hbytes⟩ := h
  cases hbytes with
  | cons hbyte hrest => rw [hbyte.header, if_pos htype, getRemainingLength_iff.2 ⟨hlength, hrest⟩]

/-! ### The bytes of a packet -/

/-- So many bytes arrive in so many reads: a read delivers a record, or a part of it, or can be tried again. -/
inductive Receives : Nat → Nat → SslStream → List UInt8 → SslStream → Prop where
  | done (reads : Nat) (s : SslStream) : Receives reads 0 s [] s
  | record {reads len : Nat} {data more : List UInt8} {nonempty : data ≠ []} {s s' : SslStream} (h : data.length ≤ len)
      (rest : Receives reads (len - data.length) s more s') :
      Receives (reads + 1) len (.record data nonempty :: s) (data ++ more) s'
  | part {reads len : Nat} {data : List UInt8} {nonempty : data ≠ []} {s : SslStream} (pos : 0 < len)
      (rest : data.drop len ≠ []) :
      Receives (reads + 1) len (.record data nonempty :: s) (data.take len) (.record (data.drop len) rest :: s)
  | retry {reads len : Nat} {rv : Int} {negative : rv < 0} {data : List UInt8} {s s' : SslStream} (pos : 0 < len)
      (h : mbedtlsStatusIsSslInProgress rv = true) (rest : Receives reads len s data s') :
      Receives (reads + 1) len (.failure rv negative :: s) data s'

theorem Receives.of_zero {reads : Nat} {data : List UInt8} {s s' : SslStream} (h : Receives reads 0 s data s') :
    data = [] ∧ s' = s := by
  cases h with
  | done => exact ⟨rfl, rfl⟩
  | @record _ _ data _ nonempty _ _ hle => exact absurd (List.length_eq_zero_iff.1 (Nat.le_zero.1 hle)) nonempty
  | part pos => cases pos
  | retry pos => cases pos

/-- Nothing is received at the end of the stream. -/
theorem Receives.of_nil {reads len : Nat} {data : List UInt8} {s' : SslStream} (h : Receives reads len [] data s') :
    len = 0 := by
  cases h with
  | done => rfl

/-- The bytes of this read stand in front of those of the reads behind it. -/
theorem received_append_iff {bytes data : List UInt8} {received : Option (List UInt8) × SslStream} {s' : SslStream} :
    (received.1.map (bytes ++ ·), received.2) = (some data, s') ↔ ∃ more, received = (some more, s') ∧ bytes ++ more = data := by
  obtain ⟨found, s⟩ := received
  cases found with
  | none => simp
  | some more => simp [and_comm]

theorem recvExactStep_iff {reads : Nat} {again : Nat → SslStream → Option (List UInt8) × SslStream}
    (hagain : ∀ len s data s', again len s = (some data, s') ∧ data.length = len ↔ Receives reads len s data s')
    {len : Nat} {s s' : SslStream} {data : List UInt8} :
    recvExactStep len again s = (some data, s') ∧ data.length = len ↔ Receives (reads + 1) len s data s' := by
  by_cases hlen : len = 0
  · subst hlen
    rw [recvExactStep, if_pos rfl]
    constructor
    · rintro ⟨hdone, -⟩
      obtain ⟨hdata, rfl⟩ := Prod.mk.inj hdone
      obtain rfl := Option.some.inj hdata
      exact .done _ _
    · intro h
      obtain ⟨rfl, rfl⟩ := h.of_zero
      exact ⟨rfl, rfl⟩
  · have hpos := Nat.pos_of_ne_zero hlen
    rw [recvExactStep, if_neg hlen]
    cases s with
    | nil =>
      -- the read returns 0 and the loop goes on, but nothing comes any more
      refine iff_of_false ?_ fun h => hlen h.of_nil
      rintro ⟨hmap, hlength⟩
      obtain ⟨more, hmore, rfl⟩ := received_append_iff.1 hmap
      exact hlen ((hagain len [] more _).1 ⟨hmore, hlength⟩).of_nil
    | cons event s =>
      cases event with
      | failure rv negative =>
        rw [networkTlsRead_failure]
        cases hretry : mbedtlsStatusIsSslInProgress rv with
        | false =>
          refine iff_of_false (fun h => by cases h.1) (fun h => ?_)
          cases h with
          | done => exact hlen rfl
          | retry _ h =>
            rw [hretry] at h
            cases h
        | true =>
          simp only [ite_true, Int.lt_irrefl, ite_false, List.length_nil, Nat.sub_zero]
          constructor
          · rintro ⟨hmap, hlength⟩
            obtain ⟨more, hmore, rfl⟩ := received_append_iff.1 hmap
            exact .retry hpos hretry ((hagain len s more _).1 ⟨hmore, hlength⟩)
          · intro h
            cases h with
            | done => exact absurd rfl hlen
            | retry _ _ rest =>
              obtain ⟨hmore, hlength⟩ := (hagain len s data s').2 rest
              rw [hmore]
              exact ⟨rfl, hlength⟩
      | record bytes nonempty =>
        by_cases hall : bytes.length ≤ len
        · have hdrop : bytes.drop len = [] := List.drop_eq_nil_iff.2 hall
          have hnonneg : ¬ (bytes.length : Int) < 0 := by omega
          rw [networkTlsRead_record hall]
          simp only [if_neg hnonneg]
          constructor
          · rintro ⟨hmap, hlength⟩
            obtain ⟨more, hmore, rfl⟩ := received_append_iff.1 hmap
            rw [List.length_append] at hlength
            exact .record hall ((hagain _ s more _).1 ⟨hmore, by omega⟩)
          · intro h
            cases h with
            | done => exact absurd rfl hlen
            | record _ rest =>
              obtain ⟨hmore, hlength⟩ := (hagain _ _ _ _).2 rest
              rw [hmore, List.length_append, hlength]
              exact ⟨rfl, by omega⟩
            | part _ rest => exact absurd hdrop rest
        · -- the rest of the record stays ahead for the next packet
          have hdrop : bytes.drop len ≠ [] := fun hnil => hall (List.drop_eq_nil_iff.1 hnil)
          have htake : (bytes.take len).length = len := by
            rw [List.length_take]
            omega
          have hnonneg : ¬ (len : Int) < 0 := by omega
          rw [networkTlsRead_part hdrop]
          simp only [htake, if_neg hnonneg, Nat.sub_self]
          constructor
          · rintro ⟨hmap, hlength⟩
            obtain ⟨more, hmore, rfl⟩ := received_append_iff.1 hmap
            rw [List.length_append, htake] at hlength
            obtain ⟨rfl, rfl⟩ := ((hagain 0 _ more s').1 ⟨hmore, by omega⟩).of_zero
            rw [List.append_nil]
            exact .part hpos hdrop
          · intro h
            cases h with
            | done => exact absurd rfl hlen
            | record hle => exact absurd hle hall
            | part =>
              obtain ⟨hmore, -⟩ := (hagain 0 (.record (bytes.drop len) hdrop :: s) [] _).2 (.done _ _)
              rw [hmore, Option.map_some, List.append_nil]
              exact ⟨rfl, htake⟩

/-- `recvExact` receives all that was asked for. -/
theorem recvExact_iff {reads len : Nat} {s s' : SslStream} {data : List UInt8} :
    recvExact reads len s = (some data, s') ∧ data.length = len ↔ Receives (reads + 1) len s data s' := by
  induction reads generalizing len s s' data with
  | zero =>
    refine recvExactStep_iff fun len s data s' => ?_
    constructor
    · rintro ⟨hdone, rfl⟩
      obtain ⟨hdata, rfl⟩ := Prod.mk.inj hdone
      obtain rfl := Option.some.inj hdata
      exact .done _ _
    · intro h
      cases h with
      | done => exact ⟨rfl, rfl⟩
  | succ reads ih => exact recvExactStep_iff fun len s data s' => ih

/-- What is received stands in front of the end. -/
theorem Receives.le_streamBytes {reads len : Nat} {data : List UInt8} {s s' : SslStream}
    (h : Receives (reads + 1) len s data s') : len ≤ (streamBytes s).length := by
  obtain ⟨hreceived, rfl⟩ := recvExact_iff.2 h
  rw [recvExact_sound hreceived, List.length_append]
  exact Nat.le_add_right _ _

/-- A packet that is too long is dropped in parts, each in so many reads. -/
inductive Drops : Nat → List Nat → Nat → SslStream → SslStream → Prop where
  | done (reads : Nat) (moreReads : List Nat) (s : SslStream) : Drops reads moreReads 0 s s
  | last {reads len : Nat} {data : List UInt8} {s s' : SslStream} (pos : 0 < len) (h : len ≤ coreMqttRxBufferSize)
      (part : Receives (reads + 1) len s data s') : Drops reads [] len s s'
  | part {reads next len : Nat} {moreReads : List Nat} {data : List UInt8} {s s' s'' : SslStream} (pos : 0 < len)
      (part : Receives (reads + 1) (min len coreMqttRxBufferSize) s data s')
      (rest : Drops next moreReads (len - min len coreMqttRxBufferSize) s' s'') : Drops reads (next :: moreReads) len s s''

theorem discardPacketStep_iff {reads len : Nat} (hlen : len ≠ 0) {again : Nat → SslStream → MQTTStatus × SslStream}
    {s s' : SslStream} :
    discardPacketStep reads len again s = (.noDataAvailable, s') ↔
      ∃ data s₁, Receives (reads + 1) (min len coreMqttRxBufferSize) s data s₁ ∧
        again (len - min len coreMqttRxBufferSize) s₁ = (.noDataAvailable, s') := by
  rw [discardPacketStep, if_neg hlen]
  dsimp only
  constructor
  · intro h
    split at h
    · rename_i hreceived
      obtain ⟨data, hdata, hlength⟩ := Option.map_eq_some_iff.1 hreceived
      exact ⟨data, _, recvExact_iff.1 ⟨Prod.ext hdata rfl, hlength⟩, h⟩
    · cases h
  · rintro ⟨data, s₁, hreceives, hagain⟩
    obtain ⟨hreceived, hlength⟩ := recvExact_iff.2 hreceives
    rw [hreceived, Option.map_some, hlength, if_pos rfl]
    exact hagain

theorem discardPacket_iff {reads len : Nat} {moreReads : List Nat} {s s' : SslStream} :
    discardPacket reads moreReads len s = (.noDataAvailable, s') ↔ Drops reads moreReads len s s' := by
  induction moreReads generalizing reads len s with
  | nil =>
    by_cases hlen : len = 0
    · subst hlen
      rw [discardPacket, discardPacketStep, if_pos rfl]
      constructor
      · intro h
        obtain rfl := (Prod.mk.inj h).2
        exact .done _ _ _
      · intro h
        cases h with
        | done => rfl
        | last pos => cases pos
    · rw [discardPacket, discardPacketStep_iff hlen]
      constructor
      · rintro ⟨data, s₁, hreceives, hagain⟩
        obtain ⟨hstatus, rfl⟩ := Prod.mk.inj hagain
        have hle : len ≤ coreMqttRxBufferSize := by
          by_contra hle
          rw [if_neg (by omega)] at hstatus
          cases hstatus
        rw [Nat.min_eq_left hle] at hreceives
        exact .last (Nat.pos_of_ne_zero hlen) hle hreceives
      · intro h
        cases h with
        | done => exact absurd rfl hlen
        | @last _ _ data _ _ pos hle hpart =>
          rw [← Nat.min_eq_left hle] at hpart
          exact ⟨data, s', hpart, by rw [if_pos (by omega)]⟩
  | cons next moreReads ih =>
    by_cases hlen : len = 0
    · subst hlen
      rw [discardPacket, discardPacketStep, if_pos rfl]
      constructor
      · intro h
        obtain rfl := (Prod.mk.inj h).2
        exact .done _ _ _
      · intro h
        cases h with
        | done => rfl
        | part pos => cases pos
    · rw [discardPacket, discardPacketStep_iff hlen]
      constructor
      · rintro ⟨data, s₁, hreceives, hagain⟩
        exact .part (Nat.pos_of_ne_zero hlen) hreceives (ih.1 hagain)
      · intro h
        cases h with
        | done => exact absurd rfl hlen
        | part _ hpart rest => exact ⟨_, _, hpart, ih.2 rest⟩

theorem Drops.le_streamBytes {reads len : Nat} {moreReads : List Nat} {s s' : SslStream}
    (h : Drops reads moreReads len s s') : len ≤ (streamBytes s).length := by
  obtain ⟨data, rfl, hbytes⟩ := discardPacket_sound (discardPacket_iff.2 h)
  rw [hbytes, List.length_append]
  exact Nat.le_add_right _ _

end TuyaDaemon
