import TuyaDaemon.Link.MessageOwnership

/-!
# What the parser reads of a topic

The characters of a topic that `tuya_link_thing_message_parse` reads (`topicIndices`), and where it splits it.  The
offsets are `uint8_t`, and a separator that is missing counts as position 255: the suffix is read behind a topic of
less than 256 characters, and a longer topic without a second separator is accepted.  `splitsInside_iff` is the exact
condition for the split that is meant.
-/

namespace TuyaDaemon

open CLib

/-! ### The characters that are read -/

/-- The number of characters that `string_find` reads; the terminator may be one of them. -/
def stringFindReads (str : List UInt8) (c : UInt8) (index : Nat) : Nat :=
  if c = 0 then 0
  else if stringFind str c index < 0 then str.length + 1
  else (stringFind str c index).toNat + 1

/-- The number of characters of `thing` that the loop of `thing_type_match` reads, over the entries it tries. -/
def thingReads (thing : List UInt8) (length : Nat) : List (List UInt8) → Nat
  | [] => 0
  | suffix :: rest =>
    max (strncmpReads suffix thing length)
      (if strncmp suffix thing length = 0 then 0 else thingReads thing length rest)

/-- The positions of a topic with the prefix that are read; without memory for the device id the parser stops. -/
def topicIndices (allocated : Bool) (topic : List UInt8) : List Nat :=
  let split := topicSplit topic
  let devidStart := split.devidOffset.toNat + 1
  let thingStart := split.thingOffset.toNat + 1
  -- `strlen`, `memcmp` and the two calls of `string_find`
  List.range (topic.length + 1) ++ List.range 7 ++
    List.range (stringFindReads topic slash 0) ++ List.range (stringFindReads topic slash 1) ++
    if allocated then
      -- `"%.*s"` stops at the terminator
      (List.range (min split.devidLength.toNat ((topic.drop devidStart).length + 1))).map (devidStart + ·) ++
        (List.range (thingReads (topic.drop thingStart) split.thingLength.toNat tylinkSuffixMap)).map (thingStart + ·)
    else []

/-- The arguments of the call of `thing_type_match`; it is not reached without a payload, and not without memory for
the device id. -/
def thingTypeMatchCall (allocated : Bool) (topic : List UInt8) (payload : Option (List UInt8)) :
    Option (List UInt8 × UInt8) :=
  if payload ≠ none ∧ topic.take 7 = tylinkPrefix ∧ allocated = true then
    some (topic.drop ((topicSplit topic).thingOffset.toNat + 1), (topicSplit topic).thingLength)
  else none

/-- A topic `"tylink/" ++ rest` is split where it should be, and nothing behind its terminator is read. -/
structure SplitsInside (core : CoreJson) (ok : Nat → Bool) (topic : CString) (payload : Option (List UInt8))
    (out : TuyalinkMessage HeapString) (heap : MessageHeap) : Prop where
  bounded : payload ≠ none → ∀ i ∈ topicIndices (ok heap.next) topic.chars, i ≤ topic.chars.length
  rejected : slash ∉ topic.chars.drop 7 → ∃ r rc,
    tuyaLinkThingMessageParse core ok topic.chars payload out heap = some r ∧ r.rc = some rc ∧ rc ≠ oprtOk
  split : ∀ d s, slash ∉ d → topic.chars.drop 7 = d ++ slash :: s →
    (∃ r, tuyaLinkThingMessageParse core ok topic.chars payload out heap = some r ∧
      r.out.deviceId.map HeapString.chars = some d ∧
      ∀ thing length, thingTypeMatchCall (ok heap.next) topic.chars payload = some (thing, length) →
        r.out.type = thingTypeMatch thing length) ∧
    ∃ length, thingTypeMatchCall (ok heap.next) topic.chars payload = some (s, length) ∧ length.toNat = s.length

/-- The payload is read to its end, when the next allocation has number `n`. -/
structure PayloadRead (core : CoreJson) (ok : Nat → Bool) (payload : List UInt8) (n : Nat) : Prop where
  validate : core.validate payload = .success
  msgid : core.search payload (bytes "msgId") ≠ none → ok n = true
  data : core.search payload (bytes "data") ≠ none → ok (dataNumber core payload n) = true

/-- When the split is the one that is meant; `n` is the number of the allocation for the device id. -/
inductive SplitFits (core : CoreJson) (ok : Nat → Bool) (topic : List UInt8) (payload : Option (List UInt8)) (n : Nat) :
    Prop where
  /-- no second separator, and no payload -/
  | empty : slash ∉ topic.drop 7 → payload = none → SplitFits core ok topic payload n
  /-- no second separator in a long topic, and the payload is refused -/
  | refused {p : List UInt8} : slash ∉ topic.drop 7 → payload = some p → 256 ≤ topic.length → ok n = true →
      ¬ PayloadRead core ok p (n + 1) → SplitFits core ok topic payload n
  /-- a second separator before position 256, and a suffix of less than 256 characters -/
  | split {p d s : List UInt8} : slash ∉ d → topic.drop 7 = d ++ slash :: s → payload = some p → ok n = true →
      d.length ≤ 248 → s.length ≤ 255 → SplitFits core ok topic payload n

/-! ### The bounds -/

theorem stringFindFrom_lt (c : UInt8) (index count pos : Nat) (s : List UInt8) :
    stringFindFrom c index count pos s < (pos + s.length : Nat) := by
  induction s generalizing count pos with
  | nil =>
    rw [stringFindFrom]
    omega
  | cons x s ih =>
    have h₁ := ih (count + 1) (pos + 1)
    have h₂ := ih count (pos + 1)
    rw [stringFindFrom, List.length_cons]
    split
    · split <;> omega
    · omega

theorem stringFindReads_le (str : List UInt8) (c : UInt8) (index : Nat) :
    stringFindReads str c index ≤ str.length + 1 := by
  unfold stringFindReads
  split
  · exact Nat.zero_le _
  · rename_i hc
    have hlt := stringFindFrom_lt c index 0 0 str
    split
    · exact Nat.le_refl _
    · rename_i hpos
      rw [stringFind, if_neg hc] at hpos ⊢
      omega

theorem thingReads_le (thing : List UInt8) (length : Nat) (suffixes : List (List UInt8)) :
    thingReads thing length suffixes ≤ thing.length + 1 := by
  induction suffixes with
  | nil => exact Nat.zero_le _
  | cons suffix rest ih =>
    have hone := strncmpReads_le suffix thing length
    rw [thingReads]
    split
    · omega
    · omega

/-- When the match has something to compare, it reads the first character of its argument. -/
theorem thingReads_pos (thing : List UInt8) {length : Nat} (h : 0 < length) :
    0 < thingReads thing length tylinkSuffixMap :=
  lt_of_lt_of_le (strncmpReads_pos _ thing h) (le_max_left _ _)

/-- The parser reads behind the terminator exactly when it takes the suffix to start there. -/
theorem topicIndices_bounded_iff {topic : List UInt8} (hhead : topic.take 7 = tylinkPrefix) (allocated : Bool) :
    (∀ i ∈ topicIndices allocated topic, i ≤ topic.length) ↔
      (allocated = true → suffixStart (topic.drop 7) ≤ topic.length) := by
  have hstart := thingOffset_eq hhead
  have hlen : 7 ≤ topic.length := by
    have := congrArg List.length hhead
    rw [List.length_take, show tylinkPrefix.length = 7 by decide] at this
    omega
  constructor
  · intro h hallocated
    by_contra hout
    have hpos : 0 < (topicSplit topic).thingLength.toNat := by
      have hnone : ¬ (slash ∈ topic.drop 7 ∨ 256 ≤ topic.length) := fun hin => hout ((suffixStart_le_iff hhead).2 hin)
      have hoff : (topicSplit topic).thingOffset.toNat = 255 := by
        rw [suffixStart, if_neg fun hs => hnone (Or.inl hs)] at hstart
        omega
      show 0 < (UInt8.ofNat topic.length - (topicSplit topic).thingOffset - 1).toNat
      simp only [UInt8.toNat_sub, UInt8.toNat_ofNat', UInt8.toNat_one, hoff]
      omega
    have hread := thingReads_pos (topic.drop ((topicSplit topic).thingOffset.toNat + 1)) hpos
    have hmem : (topicSplit topic).thingOffset.toNat + 1 + 0 ∈ topicIndices allocated topic := by
      simp only [topicIndices, hallocated, ite_true]
      refine List.mem_append_right _ (List.mem_append_right _ (List.mem_map.2 ⟨0, List.mem_range.2 hread, rfl⟩))
    have hle := h _ hmem
    omega
  · intro hin i hi
    have hdevid := devidOffset_eq hhead
    have hfind := stringFindReads_le topic slash
    simp only [topicIndices, List.mem_append, List.mem_range] at hi
    rcases hi with (((hi | hi) | hi) | hi) | hi
    · omega
    · omega
    · have := hfind 0
      omega
    · have := hfind 1
      omega
    · cases allocated with
      | false => cases hi
      | true =>
        have hle := hin rfl
        simp only [ite_true, List.mem_append, List.mem_map, List.mem_range] at hi
        rcases hi with ⟨k, hk, rfl⟩ | ⟨k, hk, rfl⟩
        · rw [hdevid] at hk ⊢
          rw [List.length_drop] at hk
          have h6 : (6 : UInt8).toNat = 6 := rfl
          omega
        · have := thingReads_le (topic.drop ((topicSplit topic).thingOffset.toNat + 1))
            (topicSplit topic).thingLength.toNat tylinkSuffixMap
          rw [List.length_drop] at this
          omega

/-! ### The split -/

section Split

variable {core : CoreJson} {ok : Nat → Bool}

theorem parsePayload_ok_iff (payload : List UInt8) (deviceId : HeapString) (out : TuyalinkMessage HeapString)
    (heap : MessageHeap) :
    (parsePayload core ok payload deviceId out heap).rc = some oprtOk ↔ PayloadRead core ok payload heap.next := by
  constructor
  · intro hrc
    obtain ⟨hvalid, hmsgid, hdata⟩ := parsePayload_rc hrc
    exact ⟨hvalid, hmsgid, hdata⟩
  · rintro ⟨hvalid, hmsgid, hdata⟩
    rw [← dataNumber_eq] at hdata
    rw [parsePayload_accepted hvalid deviceId out hmsgid hdata]

/-- What reading the payload keeps of a message. -/
def SameTopic (out out' : TuyalinkMessage HeapString) : Prop := out'.deviceId = out.deviceId ∧ out'.type = out.type

/-- The payload is read with a return code, and leaves what was read of the topic. -/
theorem parsePayload_spec (payload : List UInt8) (deviceId : HeapString) (out : TuyalinkMessage HeapString)
    (heap : MessageHeap) :
    (∃ rc, (parsePayload core ok payload deviceId out heap).rc = some rc) ∧
      SameTopic out (parsePayload core ok payload deviceId out heap).out := by
  have hdata : ∀ out' heap, SameTopic out out' → (∃ rc, (parseData core ok payload deviceId out' heap).rc = some rc) ∧
      SameTopic out (parseData core ok payload deviceId out' heap).out := by
    intro out' heap h
    unfold parseData
    split
    · exact ⟨⟨_, rfl⟩, h⟩
    · split <;> exact ⟨⟨_, rfl⟩, h⟩
  have htime : ∀ out', SameTopic out out' → SameTopic out (parseTime core payload out') := by
    intro out' h
    unfold parseTime
    split <;> exact h
  have hcode : SameTopic out (parseCode core payload out) := by
    unfold parseCode
    split <;> exact ⟨rfl, rfl⟩
  unfold parsePayload
  split
  · exact ⟨⟨_, rfl⟩, rfl, rfl⟩
  · unfold parseMsgid
    split
    · exact hdata _ _ (htime _ hcode)
    · split
      · exact hdata _ _ (htime _ hcode)
      · exact ⟨⟨_, rfl⟩, hcode⟩

/-- The type of a message is what the call of the match returns. -/
theorem parse_type {topic : List UInt8} {payload : Option (List UInt8)} {out : TuyalinkMessage HeapString}
    {heap : MessageHeap} {thing : List UInt8} {length : UInt8}
    (hcall : thingTypeMatchCall (ok heap.next) topic payload = some (thing, length)) {r : ParseResult}
    (hr : tuyaLinkThingMessageParse core ok topic payload out heap = some r) :
    r.out.type = thingTypeMatch thing length := by
  unfold thingTypeMatchCall at hcall
  split at hcall
  · rename_i hreached
    obtain ⟨hpayload, hhead, hok⟩ := hreached
    obtain ⟨p, rfl⟩ := Option.ne_none_iff_exists'.1 hpayload
    cases hcall
    by_cases hin : slash ∈ topic.drop 7 ∨ 256 ≤ topic.length
    · rw [parse_of_inside core hhead hin p out heap hok, Option.some.injEq] at hr
      rw [← hr, (parsePayload_spec p _ _ _).2.2]
      show thingTypeMatch (topic.drop (suffixStart (topic.drop 7))) _ = _
      rw [← thingOffset_eq hhead]
    · rw [parse_of_outside hhead hin p out hok] at hr
      cases hr
  · cases hcall

/-- The match gets the whole text behind the second separator exactly when that starts before position 256, is shorter
than 256 characters, and the match is reached. -/
theorem thingTypeMatchCall_iff {topic d s : List UInt8} (hhead : topic.take 7 = tylinkPrefix)
    (hrest : topic.drop 7 = d ++ slash :: s) (hd : slash ∉ d) (allocated : Bool) (payload : Option (List UInt8)) :
    (∃ length, thingTypeMatchCall allocated topic payload = some (s, length) ∧ length.toNat = s.length) ↔
      payload ≠ none ∧ allocated = true ∧ d.length ≤ 248 ∧ s.length ≤ 255 := by
  constructor
  · rintro ⟨length, hcall, hlength⟩
    unfold thingTypeMatchCall at hcall
    split at hcall
    · rename_i hreached
      rw [Option.some.injEq, Prod.mk.injEq] at hcall
      obtain ⟨hthing, rfl⟩ := hcall
      have hlen := congrArg List.length hthing
      rw [List.length_drop, suffixStart_of_split hhead hrest hd, length_of_split hhead hrest] at hlen
      have hbyte := (topicSplit topic).thingLength.toNat_lt
      exact ⟨hreached.1, hreached.2.2, by omega, by omega⟩
    · cases hcall
  · rintro ⟨hpayload, hallocated, hdlen, hslen⟩
    refine ⟨(topicSplit topic).thingLength, ?_, ?_⟩
    · rw [thingTypeMatchCall, if_pos ⟨hpayload, hhead, hallocated⟩, thing_of_split hhead hrest hd hdlen]
    · rw [thingLength_of_split hhead hrest hd hdlen, Nat.mod_eq_of_lt (by omega)]

variable (core ok) in
/-- Without a second separator the parser stays inside the topic and returns an error when there is no payload, or when
the topic is long and the payload is refused. -/
theorem rejectedInside_iff {topic : List UInt8} (hhead : topic.take 7 = tylinkPrefix) (hs : slash ∉ topic.drop 7)
    (payload : Option (List UInt8)) (out : TuyalinkMessage HeapString) (heap : MessageHeap) :
    ((payload ≠ none → ∀ i ∈ topicIndices (ok heap.next) topic, i ≤ topic.length) ∧
      ∃ r rc, tuyaLinkThingMessageParse core ok topic payload out heap = some r ∧ r.rc = some rc ∧ rc ≠ oprtOk) ↔
    ∀ p, payload = some p → 256 ≤ topic.length ∧ ok heap.next = true ∧ ¬ PayloadRead core ok p (heap.next + 1) := by
  constructor
  · rintro ⟨hbounded, r, rc, hr, hrc, herror⟩ p rfl
    cases hok : ok heap.next with
    | false =>
      rw [parse_of_deviceId_fail hhead p out hok, Option.some.injEq] at hr
      rw [← hr] at hrc
      cases hrc
    | true =>
      have hinside := hbounded (by simp)
      rw [topicIndices_bounded_iff hhead, hok] at hinside
      have hin := (suffixStart_le_iff hhead).1 (hinside rfl)
      rw [parse_of_inside core hhead hin p out heap hok, Option.some.injEq] at hr
      refine ⟨hin.resolve_left hs, rfl, fun hread => ?_⟩
      rw [← hr, (parsePayload_ok_iff _ _ _ _).2 hread, Option.some.injEq] at hrc
      exact herror hrc.symm
  · intro h
    cases payload with
    | none => exact ⟨fun h => absurd rfl h, _, _, rfl, rfl, by decide⟩
    | some p =>
      obtain ⟨hlen, hok, hread⟩ := h p rfl
      have hin : slash ∈ topic.drop 7 ∨ 256 ≤ topic.length := Or.inr hlen
      refine ⟨fun _ => ?_, ?_⟩
      · rw [topicIndices_bounded_iff hhead]
        exact fun _ => (suffixStart_le_iff hhead).2 hin
      · obtain ⟨⟨rc, hrc⟩, -⟩ := @parsePayload_spec core ok p ⟨heap.next, parsedDeviceId topic⟩
          { out with deviceId := some ⟨heap.next, parsedDeviceId topic⟩, type := parsedType topic }
          { next := heap.next + 1, log := heap.log ++ [.malloc heap.next] }
        refine ⟨_, rc, parse_of_inside core hhead hin p out heap hok, hrc, fun hrc' => hread ?_⟩
        rw [hrc'] at hrc
        exact (parsePayload_ok_iff _ _ _ _).1 hrc

/-- The topic is split as it should be exactly in the cases of `SplitFits`. -/
theorem splitsInside_iff {topic : CString} (hhead : topic.chars.take 7 = tylinkPrefix) (payload : Option (List UInt8))
    (out : TuyalinkMessage HeapString) (heap : MessageHeap) :
    SplitsInside core ok topic payload out heap ↔ SplitFits core ok topic.chars payload heap.next := by
  constructor
  · intro h
    by_cases hs : slash ∈ topic.chars.drop 7
    · obtain ⟨d, s, hrest, hd⟩ := List.eq_append_cons_of_mem hs
      obtain ⟨-, hcall⟩ := h.split d s hd hrest
      obtain ⟨hpayload, hok, hdlen, hslen⟩ := (thingTypeMatchCall_iff hhead hrest hd _ _).1 hcall
      obtain ⟨p, hp⟩ := Option.ne_none_iff_exists'.1 hpayload
      exact .split hd hrest hp hok hdlen hslen
    · have hrefused := (rejectedInside_iff core ok hhead hs payload out heap).1 ⟨h.bounded, h.rejected hs⟩
      cases payload with
      | none => exact .empty hs rfl
      | some p =>
        obtain ⟨hlen, hok, hread⟩ := hrefused p rfl
        exact .refused hs rfl hlen hok hread
  · intro h
    have hnone : ∀ d s, slash ∉ topic.chars.drop 7 → topic.chars.drop 7 ≠ d ++ slash :: s := by
      intro d s hs hrest
      rw [hrest] at hs
      simp at hs
    cases h with
    | empty hs hp =>
      have hrefused := (rejectedInside_iff core ok hhead hs payload out heap).2 fun p hsome => by
        rw [hp] at hsome
        cases hsome
      exact ⟨hrefused.1, fun _ => hrefused.2, fun d s _ hrest => absurd hrest (hnone d s hs)⟩
    | @refused p hs hp hlen hok hread =>
      have hrefused := (rejectedInside_iff core ok hhead hs payload out heap).2 fun p' hsome => by
        cases hp.symm.trans hsome
        exact ⟨hlen, hok, hread⟩
      exact ⟨hrefused.1, fun _ => hrefused.2, fun d s _ hrest => absurd hrest (hnone d s hs)⟩
    | @split p d s hd hrest hp hok hdlen hslen =>
      subst hp
      have hin : slash ∈ topic.chars.drop 7 ∨ 256 ≤ topic.chars.length := by
        left
        rw [hrest]
        simp
      refine ⟨fun _ => ?_, fun hs => absurd hrest (hnone d s hs), fun d' s' hd' hrest' => ?_⟩
      · rw [topicIndices_bounded_iff hhead]
        exact fun _ => (suffixStart_le_iff hhead).2 hin
      · have hcut := append_cons_cancel hd' hd (hrest'.symm.trans hrest)
        obtain ⟨rfl, rfl⟩ := hcut
        have hparse := parse_of_inside core hhead hin p out heap hok
        refine ⟨⟨_, hparse, ?_, fun thing length hcall => parse_type hcall hparse⟩, ?_⟩
        · rw [(parsePayload_spec p _ _ _).2.1]
          exact congrArg some (parsedDeviceId_of_split hhead hrest hd (by omega))
        · exact (thingTypeMatchCall_iff hhead hrest hd _ _).2 ⟨by simp, hok, hdlen, hslen⟩

end Split

/-! ### Two topics -/

/-- `tylink/x/thing/property/set` -/
def propertySetTopic : CString := ⟨bytes "tylink/x/thing/property/set", by decide, by decide⟩

/-- `tylink/x` -/
def shortTopic : CString := ⟨bytes "tylink/x", by decide, by decide⟩

theorem splitsInside_iff_propertySet :
    SplitsInside asciiJson (fun _ => true) propertySetTopic (some (bytes "\x7b\x7d")) .zero ⟨0, []⟩ :=
  (splitsInside_iff (by decide) _ _ _).2
    (.split (show slash ∉ bytes "x" by decide) (show _ = _ ++ slash :: bytes "thing/property/set" by decide) rfl rfl
      (by decide) (by decide))

/-- The suffix of a topic without a second separator is read behind its terminator. -/
theorem not_splitsInside_noSeparator :
    ¬ SplitsInside asciiJson (fun _ => true) shortTopic (some (bytes "\x7b\x7d")) .zero ⟨0, []⟩ := by
  intro h
  have hbounded := h.bounded (by simp)
  rw [topicIndices_bounded_iff (by decide)] at hbounded
  exact absurd (hbounded rfl) (by decide)

end TuyaDaemon
