import Mathlib.Data.List.Nodup
import TuyaDaemon.CLib.Slots
import TuyaDaemon.Mqtt.Packets

/-!
# Publish records

The state engine of `core_mqtt_state.c`: two arrays of records, one for each direction, that remember how far the
handshake of every publish of QoS 1 and 2 has come.  A record is removed by clearing its packet identifier, so an array
has vacant slots, and `addRecord` compacts it when its last slot is used.  `addRecord_spec`, `findInRecord_cases` and
the lemmas on `updateRecord` say what the functions on an array do to the records it holds, in order (`queue`).
-/

namespace TuyaDaemon

open CLib

/-- `MQTTPublishState_t` -/
inductive MQTTPublishState where
  | stateNull
  | publishSend
  | pubAckSend
  | pubRecSend
  | pubRelSend
  | pubCompSend
  | pubAckPending
  | pubRecPending
  | pubRelPending
  | pubCompPending
  | publishDone
deriving DecidableEq, Repr

/-- `MQTTPubAckType_t` -/
inductive MQTTPubAckType where
  | puback
  | pubrec
  | pubrel
  | pubcomp
deriving DecidableEq, Repr

/-- `MQTTStateOperation_t` -/
inductive MQTTStateOperation where
  | send
  | receive
deriving DecidableEq, Repr

/-- `MQTTPubAckInfo_t` -/
structure MQTTPubAckInfo where
  packetId : UInt16
  qos : MQTTQoS
  publishState : MQTTPublishState
deriving DecidableEq, Repr

namespace MQTTPubAckInfo

/-- What `memset` leaves. -/
def zero : MQTTPubAckInfo := ⟨0, .qos0, .stateNull⟩

/-- `0` is `MQTT_PACKET_ID_INVALID`. -/
def used (record : MQTTPubAckInfo) : Bool := record.packetId != 0

/-- The other fields of a record that is removed stay as they are. -/
def vacate (record : MQTTPubAckInfo) : MQTTPubAckInfo := { record with packetId := 0 }

theorem used_iff {record : MQTTPubAckInfo} : record.used = true ↔ record.packetId ≠ 0 := by simp [used]

theorem used_eq_false_iff {record : MQTTPubAckInfo} : record.used = false ↔ record.packetId = 0 := by simp [used]

@[simp] theorem used_vacate (record : MQTTPubAckInfo) : record.vacate.used = false := rfl

end MQTTPubAckInfo

/-- `MQTT_STATE_ARRAY_MAX_COUNT` -/
abbrev mqttStateArrayMaxCount : Nat := 10

/-- `MQTTPubAckInfo_t[MQTT_STATE_ARRAY_MAX_COUNT]` -/
structure PublishRecords where
  slots : List MQTTPubAckInfo
  length_slots : slots.length = mqttStateArrayMaxCount

namespace PublishRecords

def zero : PublishRecords := ⟨List.replicate mqttStateArrayMaxCount .zero, List.length_replicate⟩

def set (records : PublishRecords) (index : Nat) (record : MQTTPubAckInfo) : PublishRecords :=
  ⟨records.slots.set index record, List.length_set.trans records.length_slots⟩

/-- The records that the array holds, in order. -/
def queue (records : PublishRecords) : List MQTTPubAckInfo := live MQTTPubAckInfo.used records.slots

@[simp] theorem queue_zero : zero.queue = [] := by decide

end PublishRecords

/-! ### State transitions -/

def validateTransitionPublish (currentState newState : MQTTPublishState) (opType : MQTTStateOperation) (qos : MQTTQoS) :
    Bool :=
  match currentState with
  | .stateNull =>
    if opType = .receive then newState == .pubAckSend || newState == .pubRecSend else false
  | .publishSend =>
    match qos with
    | .qos1 => newState == .pubAckPending
    | .qos2 => newState == .pubRecPending
    | .qos0 => false
  -- a publish that is resent keeps its state
  | .pubAckPending => newState == .pubAckPending
  | .pubRecPending => newState == .pubRecPending
  | _ => false

def validateTransitionAck (currentState newState : MQTTPublishState) : Bool :=
  match currentState with
  | .pubAckSend | .pubAckPending => newState == .publishDone
  | .pubRecSend => newState == .pubRelPending
  | .pubRelPending => newState == .pubCompSend || newState == .pubRelPending
  | .pubCompSend => newState == .publishDone || newState == .pubCompSend
  | .pubRecPending => newState == .pubRelSend
  | .pubRelSend => newState == .pubCompPending
  | .pubCompPending => newState == .publishDone || newState == .pubCompPending
  | .publishDone | .publishSend | .stateNull => false

def isPublishOutgoing (packetType : MQTTPubAckType) (opType : MQTTStateOperation) : Bool :=
  match packetType with
  | .puback | .pubrec | .pubcomp => opType == .receive
  | .pubrel => opType == .send

def mqttCalculateStatePublish (opType : MQTTStateOperation) : MQTTQoS → MQTTPublishState
  | .qos0 => .publishDone
  | .qos1 => if opType = .send then .pubAckPending else .pubAckSend
  | .qos2 => if opType = .send then .pubRecPending else .pubRecSend

def mqttCalculateStateAck (packetType : MQTTPubAckType) (opType : MQTTStateOperation) (qos : MQTTQoS) :
    MQTTPublishState :=
  match packetType with
  | .puback => if qos = .qos1 then .publishDone else .stateNull
  | .pubrec => if qos = .qos2 then if opType = .send then .pubRelPending else .pubRelSend else .stateNull
  | .pubrel => if qos = .qos2 then if opType = .send then .pubCompPending else .pubCompSend else .stateNull
  | .pubcomp => if qos = .qos2 then .publishDone else .stateNull

/-! ### Functions on an array -/

/-- The index of the record, which is `MQTT_STATE_ARRAY_MAX_COUNT` when there is none, with what the record says. -/
def findInRecord (records : PublishRecords) (packetId : UInt16) : Nat × MQTTQoS × MQTTPublishState :=
  let index := records.slots.findIdx fun record => record.packetId == packetId
  match records.slots[index]? with
  | some record => (index, record.qos, record.publishState)
  | none => (index, .qos0, .stateNull)

def compactRecords (records : PublishRecords) : PublishRecords :=
  ⟨compact MQTTPubAckInfo.used MQTTPubAckInfo.vacate records.slots, (length_compact _).trans records.length_slots⟩

/-- The loop of `addRecord` over the slots below an index, from the last one down, with `validEntryFound` and
`availableIndex`. -/
def addRecordLoop (slots : List MQTTPubAckInfo) (packetId : UInt16) : Nat → Bool → Nat → MQTTStatus × Nat
  | 0, _, availableIndex => (.noMemory, availableIndex)
  | index + 1, validEntryFound, availableIndex =>
    let record := slots.getD index .zero
    if record.packetId = 0 then
      addRecordLoop slots packetId index validEntryFound (if validEntryFound then availableIndex else index)
    else if record.packetId = packetId then (.stateCollision, mqttStateArrayMaxCount)
    else addRecordLoop slots packetId index true availableIndex

def addRecord (records : PublishRecords) (packetId : UInt16) (qos : MQTTQoS) (publishState : MQTTPublishState) :
    MQTTStatus × PublishRecords :=
  let lastRecord := records.slots.getD (mqttStateArrayMaxCount - 1) .zero
  let records := if lastRecord.packetId ≠ 0 then compactRecords records else records
  let (status, availableIndex) :=
    addRecordLoop records.slots packetId mqttStateArrayMaxCount false mqttStateArrayMaxCount
  if availableIndex < mqttStateArrayMaxCount then (.success, records.set availableIndex ⟨packetId, qos, publishState⟩)
  else (status, records)

def updateRecord (records : PublishRecords) (recordIndex : Nat) (newState : MQTTPublishState) (shouldDelete : Bool) :
    PublishRecords :=
  let record := records.slots.getD recordIndex .zero
  if shouldDelete then records.set recordIndex record.vacate
  else records.set recordIndex { record with publishState := newState }

/-! ### What they do to the queue -/

theorem queue_compactRecords (records : PublishRecords) : (compactRecords records).queue = records.queue :=
  live_compact MQTTPubAckInfo.used_vacate _

/-- The loop is a collision when the identifier is in one of the slots. -/
theorem addRecordLoop_collision {slots : List MQTTPubAckInfo} {packetId : UInt16} (hid : packetId ≠ 0) {index : Nat}
    (hmem : packetId ∈ (slots.take index).map (·.packetId)) (validEntryFound : Bool) (availableIndex : Nat) :
    addRecordLoop slots packetId index validEntryFound availableIndex = (.stateCollision, mqttStateArrayMaxCount) := by
  induction index generalizing validEntryFound availableIndex with
  | zero => simp at hmem
  | succ index ih =>
    rw [List.take_add_one, List.map_append, List.mem_append] at hmem
    have hlast : packetId ∈ (slots[index]?.toList).map (·.packetId) → (slots.getD index .zero).packetId = packetId := by
      intro h
      rw [List.getD_eq_getElem?_getD]
      cases hget : slots[index]? with
      | none => simp [hget] at h
      | some record => simpa [hget, eq_comm] using h
    unfold addRecordLoop
    dsimp only
    split
    · rename_i hzero
      refine ih (hmem.resolve_right fun h => hid ?_) _ _
      rw [← hlast h, hzero]
    · split
      · rfl
      · rename_i hne
        exact ih (hmem.resolve_right fun h => hne (hlast h)) _ _

/-- Once a used slot was found the available index stays. -/
theorem addRecordLoop_found {slots : List MQTTPubAckInfo} {packetId : UInt16} {index : Nat}
    (hindex : index ≤ slots.length) (hmem : packetId ∉ (slots.take index).map (·.packetId)) (availableIndex : Nat) :
    addRecordLoop slots packetId index true availableIndex = (.noMemory, availableIndex) := by
  induction index with
  | zero => rfl
  | succ index ih =>
    have hget : slots[index]? = some slots[index] := List.getElem?_eq_getElem hindex
    rw [List.take_add_one, hget, List.map_append, List.mem_append, not_or] at hmem
    have hne : slots[index].packetId ≠ packetId := fun h => hmem.2 (by simp [h])
    unfold addRecordLoop
    simp only [List.getD_eq_getElem?_getD, hget, Option.getD_some, if_neg hne, ite_true]
    split <;> exact ih (Nat.le_of_succ_le hindex) hmem.1

/-- Behind the last used slot the lowest vacant slot is available. -/
theorem addRecordLoop_gap {front gap : List MQTTPubAckInfo} {packetId : UInt16}
    (hgap : ∀ r ∈ gap, r.used = false) (hfront : front = [] ∨ ∃ init a, front = init ++ [a] ∧ a.used = true)
    (hmem : packetId ∉ front.map (·.packetId)) {k : Nat} (hk : k ≤ gap.length) (availableIndex : Nat) :
    addRecordLoop (front ++ gap) packetId (front.length + k) false availableIndex =
      (.noMemory, if k = 0 then availableIndex else front.length) := by
  induction k generalizing availableIndex with
  | zero =>
    rcases hfront with rfl | ⟨init, a, rfl, ha⟩
    · rfl
    · have hget : (init ++ [a] ++ gap)[init.length]? = some a := by simp
      have hne : a.packetId ≠ packetId := fun h => hmem (by simp [h])
      rw [Nat.add_zero, List.length_append, List.length_singleton, addRecordLoop]
      simp only [List.getD_eq_getElem?_getD, hget, Option.getD_some, if_neg (MQTTPubAckInfo.used_iff.1 ha),
        if_neg hne, ite_true]
      refine addRecordLoop_found (by simp) ?_ availableIndex
      rw [List.append_assoc, List.take_append_of_le_length (Nat.le_refl _), List.take_length]
      exact fun h => hmem (by rw [List.map_append]; exact List.mem_append_left _ h)
  | succ k ih =>
    have hget : (front ++ gap)[front.length + k]? = some (gap[k]) := by
      rw [List.getElem?_append_right (Nat.le_add_right _ _), Nat.add_sub_cancel_left, List.getElem?_eq_getElem hk]
    have hzero : gap[k].packetId = 0 := MQTTPubAckInfo.used_eq_false_iff.1 (hgap _ (List.getElem_mem hk))
    rw [← Nat.add_assoc, addRecordLoop]
    simp only [List.getD_eq_getElem?_getD, hget, Option.getD_some, hzero, ite_true, Bool.false_eq_true, ite_false]
    rw [ih (Nat.le_of_succ_le hk), if_neg (Nat.succ_ne_zero k)]
    split
    · rename_i hk0
      rw [hk0, Nat.add_zero]
    · rfl

/-- What `addRecord` does to a queue. -/
def addToQueue (queue : List MQTTPubAckInfo) (record : MQTTPubAckInfo) : MQTTStatus × List MQTTPubAckInfo :=
  if record.packetId ∈ queue.map (·.packetId) then (.stateCollision, queue)
  else if mqttStateArrayMaxCount ≤ queue.length then (.noMemory, queue)
  else (.success, queue ++ [record])

theorem mem_queue_map {records : PublishRecords} {packetId : UInt16} (hid : packetId ≠ 0) :
    packetId ∈ records.queue.map (·.packetId) ↔ packetId ∈ records.slots.map (·.packetId) := by
  simp only [List.mem_map, PublishRecords.queue, live, List.mem_filter]
  constructor
  · rintro ⟨r, ⟨hr, -⟩, rfl⟩
    exact ⟨r, hr, rfl⟩
  · rintro ⟨r, hr, rfl⟩
    exact ⟨r, ⟨hr, MQTTPubAckInfo.used_iff.2 hid⟩, rfl⟩

/-- The loop, the store behind it and the status, on an array that has room behind its last record or none at all. -/
theorem addRecord_store {records : PublishRecords} {packetId : UInt16} (hid : packetId ≠ 0) (qos : MQTTQoS)
    (publishState : MQTTPublishState)
    (hroom : ∀ init a, records.slots = init ++ [a] → a.used = true → records.queue.length = mqttStateArrayMaxCount) :
    let loop := addRecordLoop records.slots packetId mqttStateArrayMaxCount false mqttStateArrayMaxCount
    let added := if loop.2 < mqttStateArrayMaxCount then (MQTTStatus.success, records.set loop.2 ⟨packetId, qos, publishState⟩)
      else (loop.1, records)
    (added.1, added.2.queue) = addToQueue records.queue ⟨packetId, qos, publishState⟩ := by
  intro loop added
  unfold addToQueue
  by_cases hmem : packetId ∈ records.queue.map (·.packetId)
  · have hloop : loop = (.stateCollision, mqttStateArrayMaxCount) := by
      refine addRecordLoop_collision hid ?_ false mqttStateArrayMaxCount
      rw [← records.length_slots, List.take_length]
      exact (mem_queue_map hid).1 hmem
    simp [added, hloop, hmem]
  · obtain ⟨front, gap, hslots, hgap, hfront⟩ := exists_front_gap MQTTPubAckInfo.used records.slots
    have hlength : front.length + gap.length = mqttStateArrayMaxCount := by
      rw [← List.length_append, ← hslots, records.length_slots]
    have hnot : packetId ∉ front.map (·.packetId) := fun h =>
      hmem ((mem_queue_map hid).2 (by rw [hslots, List.map_append]; exact List.mem_append_left _ h))
    have hloop := addRecordLoop_gap hgap hfront hnot (Nat.le_refl gap.length) mqttStateArrayMaxCount
    rw [hlength, ← hslots] at hloop
    rw [if_neg hmem]
    cases gap with
    | nil =>
      have hfull : records.queue.length = mqttStateArrayMaxCount := by
        rcases hfront with rfl | ⟨init, a, rfl, ha⟩
        · simp at hlength
        · exact hroom init a (by rw [hslots, List.append_nil]) ha
      simp [added, loop, hloop, hfull]
    | cons e gap =>
      rw [List.length_cons] at hlength
      have hqueue : records.queue.length ≤ front.length := by
        rw [PublishRecords.queue, hslots, live_append, live_of_all_vacant hgap, List.append_nil]
        exact length_live_le front
      have hset := live_set_behind front hgap
        (a := ⟨packetId, qos, publishState⟩) (MQTTPubAckInfo.used_iff.2 hid)
      rw [← hslots] at hset
      have hlt : front.length < mqttStateArrayMaxCount := by omega
      have hfree : ¬ mqttStateArrayMaxCount ≤ records.queue.length := by omega
      have hadded : added = (.success, records.set front.length ⟨packetId, qos, publishState⟩) := by
        simp [added, loop, hloop, hlt]
      rw [hadded, if_neg hfree]
      exact Prod.ext rfl hset

/-- A record is added behind the others, unless its identifier is in use or the array is full. -/
theorem addRecord_spec (records : PublishRecords) {packetId : UInt16} (hid : packetId ≠ 0) (qos : MQTTQoS)
    (publishState : MQTTPublishState) :
    ((addRecord records packetId qos publishState).1, (addRecord records packetId qos publishState).2.queue) =
      addToQueue records.queue ⟨packetId, qos, publishState⟩ := by
  have hlast : ∀ init a, records.slots = init ++ [a] →
      records.slots.getD (mqttStateArrayMaxCount - 1) .zero = a := by
    intro init a hslots
    have hlength := records.length_slots
    rw [hslots, List.length_append, List.length_singleton] at hlength
    rw [hslots, List.getD_eq_getElem?_getD, ← hlength, Nat.add_sub_cancel, List.getElem?_append_right (Nat.le_refl _),
      Nat.sub_self]
    rfl
  unfold addRecord
  by_cases hcompact : (records.slots.getD (mqttStateArrayMaxCount - 1) .zero).packetId ≠ 0
  · rw [← queue_compactRecords records]
    simp only [if_pos hcompact]
    refine addRecord_store hid qos publishState fun init a hslots ha => ?_
    have hpacked : Packed MQTTPubAckInfo.used (compactRecords records).slots :=
      packed_compact MQTTPubAckInfo.used_vacate _
    rw [hslots] at hpacked
    have hused := hpacked.used_of_last ha
    rw [← hslots] at hused
    rw [PublishRecords.queue, live_of_all_used hused, (compactRecords records).length_slots]
  · simp only [if_neg hcompact]
    refine addRecord_store hid qos publishState fun init a hslots ha => ?_
    rw [hlast init a hslots] at hcompact
    exact absurd (MQTTPubAckInfo.used_iff.1 ha) hcompact

/-- The record is the one in the queue, and its slot is known, or it is nowhere. -/
theorem findInRecord_cases (records : PublishRecords) {packetId : UInt16} (hid : packetId ≠ 0) :
    findInRecord records packetId = (mqttStateArrayMaxCount, .qos0, .stateNull) ∧
        packetId ∉ records.queue.map (·.packetId) ∨
      ∃ index record, findInRecord records packetId = (index, record.qos, record.publishState) ∧
        records.slots[index]? = some record ∧ record.packetId = packetId := by
  simp only [findInRecord]
  cases hget : records.slots[records.slots.findIdx fun record => record.packetId == packetId]? with
  | none =>
    left
    have hle := List.getElem?_eq_none_iff.1 hget
    have hnot : ∀ r ∈ records.slots, (r.packetId == packetId) = false := List.findIdx_eq_length.1
      (Nat.le_antisymm List.findIdx_le_length hle)
    constructor
    · rw [Nat.le_antisymm List.findIdx_le_length hle, records.length_slots]
    · rw [mem_queue_map hid, List.mem_map]
      rintro ⟨r, hr, hrid⟩
      simpa [hrid] using hnot r hr
  | some record =>
    right
    refine ⟨_, record, rfl, hget, ?_⟩
    obtain ⟨hlt, hrecord⟩ := List.getElem?_eq_some_iff.1 hget
    have hfound := @List.findIdx_getElem _ _ records.slots hlt
    rw [hrecord] at hfound
    exact eq_of_beq hfound

/-- When no identifier is held twice, a record is found at its slot. -/
theorem findInRecord_eq {records : PublishRecords} (hdistinct : (records.queue.map (·.packetId)).Nodup)
    {index : Nat} {record : MQTTPubAckInfo} (hget : records.slots[index]? = some record) (hid : record.packetId ≠ 0) :
    findInRecord records record.packetId = (index, record.qos, record.publishState) := by
  obtain ⟨hindex, hrecord⟩ := List.getElem?_eq_some_iff.1 hget
  have hqueue := (live_eq_of_getElem hget (MQTTPubAckInfo.used_iff.2 hid)).1
  rw [PublishRecords.queue, hqueue, List.map_append, List.map_cons, List.nodup_middle, List.nodup_cons] at hdistinct
  have hfirst : records.slots.findIdx (fun r => r.packetId == record.packetId) = index := by
    rw [List.findIdx_eq hindex, hrecord]
    refine ⟨beq_self_eq_true _, fun j hj => beq_eq_false_iff_ne.2 fun heq => hdistinct.1 ?_⟩
    refine List.mem_append_left _ (List.mem_map.2 ⟨records.slots[j], List.mem_filter.2 ⟨?_, ?_⟩, heq⟩)
    · exact List.mem_take_iff_getElem.2 ⟨j, by omega, rfl⟩
    · exact MQTTPubAckInfo.used_iff.2 (heq ▸ hid)
  simp only [findInRecord, hfirst, hget]

/-- Around a record of the queue: a new state changes it in place, and deleting it takes it out. -/
theorem queue_updateRecord {records : PublishRecords} {index : Nat} {record : MQTTPubAckInfo}
    (hget : records.slots[index]? = some record) (hid : record.packetId ≠ 0) (newState : MQTTPublishState) :
    ∃ before after, records.queue = before ++ record :: after ∧
      (updateRecord records index newState false).queue =
        before ++ { record with publishState := newState } :: after ∧
      (updateRecord records index newState true).queue = before ++ after := by
  obtain ⟨hqueue, hset⟩ := live_eq_of_getElem hget (MQTTPubAckInfo.used_iff.2 hid)
  have hrecord : records.slots.getD index .zero = record := by rw [List.getD_eq_getElem?_getD, hget]; rfl
  refine ⟨_, _, hqueue, ?_, ?_⟩
  · simp only [updateRecord, hrecord]
    have hused : ({ record with publishState := newState } : MQTTPubAckInfo).used = true :=
      MQTTPubAckInfo.used_iff.2 hid
    refine (hset _).trans ?_
    rw [if_pos hused, List.singleton_append]
  · simp only [updateRecord, hrecord, ite_true]
    refine (hset _).trans ?_
    rw [MQTTPubAckInfo.used_vacate, if_neg Bool.false_ne_true, List.nil_append]

end TuyaDaemon
