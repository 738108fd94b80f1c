import TuyaDaemon.Mqtt.PublishRecords

/-!
# The publish state engine

The calls of `core_mqtt_state.c` on the two arrays of a context, and what they are for: a bounded queue for each
direction in which every publish walks through the handshake of its quality of service (`PublishQueue`).  Whatever calls
are made, and in whatever order, they return what the queues return and leave what the queues leave
(`runs_eq_queues`); so the arrays never hold an identifier twice or a state outside of the handshake.
-/

namespace TuyaDaemon

open CLib

/-! ### The calls -/

/-- The fields of `MQTTContext_t` that hold publish records. -/
structure PublishContext where
  outgoingPublishRecords : PublishRecords
  incomingPublishRecords : PublishRecords

/-- What `memset` leaves. -/
def PublishContext.zero : PublishContext := ⟨.zero, .zero⟩

def updateStateAck (records : PublishRecords) (recordIndex : Nat) (packetId : UInt16)
    (currentState newState : MQTTPublishState) : MQTTStatus × PublishRecords :=
  let shouldDeleteRecord := newState == .publishDone || newState == .pubRelSend
  if validateTransitionAck currentState newState then
    if currentState ≠ newState then
      let records := updateRecord records recordIndex newState shouldDeleteRecord
      -- the record goes behind the others, for the order in which a PUBREL is sent again
      if newState = .pubRelSend then addRecord records packetId .qos2 .pubRelSend else (.success, records)
    else (.success, records)
  else (.illegalState, records)

def updateStatePublish (ctx : PublishContext) (recordIndex : Nat) (packetId : UInt16) (opType : MQTTStateOperation)
    (qos : MQTTQoS) (currentState newState : MQTTPublishState) : MQTTStatus × PublishContext :=
  if validateTransitionPublish currentState newState opType qos then
    if opType = .receive then
      let (status, records) := addRecord ctx.incomingPublishRecords packetId qos newState
      (status, { ctx with incomingPublishRecords := records })
    else if currentState ≠ newState then
      (.success, { ctx with
        outgoingPublishRecords := updateRecord ctx.outgoingPublishRecords recordIndex newState false })
    else (.success, ctx)
  else (.illegalState, ctx)

def mqttReserveState (ctx : PublishContext) (packetId : UInt16) (qos : MQTTQoS) : MQTTStatus × PublishContext :=
  if qos = .qos0 then (.success, ctx)
  else if packetId = 0 then (.badParameter, ctx)
  else
    let (status, records) := addRecord ctx.outgoingPublishRecords packetId qos .publishSend
    (status, { ctx with outgoingPublishRecords := records })

/-- A status, what was stored at `pNewState`, and the records. -/
structure StateResult (σ : Type) where
  status : MQTTStatus
  newState : Option MQTTPublishState
  records : σ

/-- The new state is stored when the update succeeded. -/
def StateResult.ofUpdate {σ : Type} (newState : MQTTPublishState) (update : MQTTStatus × σ) : StateResult σ :=
  ⟨update.1, if update.1 = .success then some newState else none, update.2⟩

def mqttUpdateStatePublish (ctx : PublishContext) (packetId : UInt16) (opType : MQTTStateOperation) (qos : MQTTQoS) :
    StateResult PublishContext :=
  if qos = .qos0 then ⟨.success, some .publishDone, ctx⟩
  else if packetId = 0 then ⟨.badParameter, none, ctx⟩
  else
    let newState := mqttCalculateStatePublish opType qos
    if opType = .send then
      let (recordIndex, foundQoS, currentState) := findInRecord ctx.outgoingPublishRecords packetId
      if recordIndex = mqttStateArrayMaxCount ∨ foundQoS ≠ qos then ⟨.badParameter, none, ctx⟩
      else .ofUpdate newState (updateStatePublish ctx recordIndex packetId opType qos currentState newState)
    else .ofUpdate newState (updateStatePublish ctx mqttStateArrayMaxCount packetId opType qos .stateNull newState)

def mqttUpdateStateAck (ctx : PublishContext) (packetId : UInt16) (packetType : MQTTPubAckType)
    (opType : MQTTStateOperation) : StateResult PublishContext :=
  if packetId = 0 then ⟨.badParameter, none, ctx⟩
  else
    let isOutgoing := isPublishOutgoing packetType opType
    let records := if isOutgoing then ctx.outgoingPublishRecords else ctx.incomingPublishRecords
    let (recordIndex, qos, currentState) := findInRecord records packetId
    if recordIndex < mqttStateArrayMaxCount then
      let newState := mqttCalculateStateAck packetType opType qos
      let (status, records) := updateStateAck records recordIndex packetId currentState newState
      .ofUpdate newState (status,
        if isOutgoing then { ctx with outgoingPublishRecords := records }
        else { ctx with incomingPublishRecords := records })
    else ⟨.badResponse, none, ctx⟩

/-- A call of the state engine; `reset` is the `memset` of both arrays in `handleSessionResumption`. -/
inductive StateCall where
  | reserve (packetId : UInt16) (qos : MQTTQoS)
  | publish (packetId : UInt16) (opType : MQTTStateOperation) (qos : MQTTQoS)
  | ack (packetId : UInt16) (packetType : MQTTPubAckType) (opType : MQTTStateOperation)
  | reset
deriving DecidableEq, Repr

def StateCall.run (ctx : PublishContext) : StateCall → StateResult PublishContext
  | .reserve packetId qos =>
    let (status, ctx) := mqttReserveState ctx packetId qos
    ⟨status, none, ctx⟩
  | .publish packetId opType qos => mqttUpdateStatePublish ctx packetId opType qos
  | .ack packetId packetType opType => mqttUpdateStateAck ctx packetId packetType opType
  | .reset => ⟨.success, none, .zero⟩

/-! ### The handshake -/

inductive Direction where
  | outgoing
  | incoming
deriving DecidableEq, Repr

/-- The states of the handshake of a quality of service. -/
def LegalStage : Direction → MQTTQoS → MQTTPublishState → Bool
  | .outgoing, .qos1, .publishSend | .outgoing, .qos1, .pubAckPending => true
  | .outgoing, .qos2, .publishSend | .outgoing, .qos2, .pubRecPending | .outgoing, .qos2, .pubRelSend
  | .outgoing, .qos2, .pubCompPending => true
  | .incoming, .qos1, .pubAckSend => true
  | .incoming, .qos2, .pubRecSend | .incoming, .qos2, .pubRelPending | .incoming, .qos2, .pubCompSend => true
  | _, _, _ => false

/-- The state behind an acknowledgement, which may be one that is sent or received again. -/
def handshake : MQTTPublishState → MQTTPubAckType → MQTTStateOperation → Option MQTTPublishState
  | .pubAckPending, .puback, .receive => some .publishDone
  | .pubRecPending, .pubrec, .receive => some .pubRelSend
  | .pubRelSend, .pubrel, .send | .pubCompPending, .pubrel, .send => some .pubCompPending
  | .pubCompPending, .pubcomp, .receive => some .publishDone
  | .pubAckSend, .puback, .send => some .publishDone
  | .pubRecSend, .pubrec, .send | .pubRelPending, .pubrec, .send => some .pubRelPending
  | .pubRelPending, .pubrel, .receive | .pubCompSend, .pubrel, .receive => some .pubCompSend
  | .pubCompSend, .pubcomp, .send => some .publishDone
  | _, _, _ => none

/-- The state behind a PUBLISH that was sent, perhaps again. -/
def handshakePublish : MQTTQoS → MQTTPublishState → Option MQTTPublishState
  | .qos1, .publishSend | .qos1, .pubAckPending => some .pubAckPending
  | .qos2, .publishSend | .qos2, .pubRecPending => some .pubRecPending
  | _, _ => none

section Handshake

variable {direction : Direction} {qos : MQTTQoS} {state newState : MQTTPublishState}

theorem handshake_legal {packetType : MQTTPubAckType} {opType : MQTTStateOperation}
    (hlegal : LegalStage direction qos state = true) (h : handshake state packetType opType = some newState) :
    newState = .publishDone ∨ LegalStage direction qos newState = true := by
  cases direction <;> cases qos <;> cases state <;> try cases hlegal
  all_goals cases packetType <;> cases opType <;> simp_all [handshake] <;> subst h <;> simp [LegalStage]

theorem handshakePublish_legal (hlegal : LegalStage .outgoing qos state = true)
    (h : handshakePublish qos state = some newState) : LegalStage .outgoing qos newState = true := by
  cases qos <;> cases state <;> cases hlegal <;> cases h <;> rfl

/-- The tables of the code agree with the handshake on the records of a direction. -/
theorem handshake_eq {packetType : MQTTPubAckType} {opType : MQTTStateOperation}
    (hlegal : LegalStage direction qos state = true)
    (hdirection : isPublishOutgoing packetType opType = (direction == .outgoing)) :
    handshake state packetType opType =
      if validateTransitionAck state (mqttCalculateStateAck packetType opType qos) = true then
        some (mqttCalculateStateAck packetType opType qos) else none := by
  cases direction <;> cases qos <;> cases state <;> try cases hlegal
  all_goals cases packetType <;> cases opType <;> first | rfl | cases hdirection

theorem handshakePublish_eq (hlegal : LegalStage .outgoing qos state = true) :
    handshakePublish qos state =
      if validateTransitionPublish state (mqttCalculateStatePublish .send qos) .send qos = true then
        some (mqttCalculateStatePublish .send qos) else none := by
  cases qos <;> cases state <;> cases hlegal <;> rfl

/-- The first state of an outgoing publish. -/
theorem legal_reserved (hqos : qos ≠ .qos0) : LegalStage .outgoing qos .publishSend = true := by
  cases qos
  · exact absurd rfl hqos
  · rfl
  · rfl

/-- The first state of an incoming publish. -/
theorem legal_received (hqos : qos ≠ .qos0) :
    LegalStage .incoming qos (mqttCalculateStatePublish .receive qos) = true := by
  cases qos
  · exact absurd rfl hqos
  · rfl
  · rfl

end Handshake

/-! ### Queues of publishes -/

/-- The publishes of one direction that are in progress. -/
structure PublishQueue (direction : Direction) where
  items : List MQTTPubAckInfo
  distinct : (items.map (·.packetId)).Nodup
  nonzero : ∀ record ∈ items, record.packetId ≠ 0
  bounded : items.length ≤ mqttStateArrayMaxCount
  legal : ∀ record ∈ items, LegalStage direction record.qos record.publishState = true

/-- The queue when a record has a new state: a publish that is done leaves, and one whose PUBREC arrived goes behind
the others. -/
def moveRecord (items : List MQTTPubAckInfo) (record : MQTTPubAckInfo) (newState : MQTTPublishState) :
    List MQTTPubAckInfo :=
  let others := items.filter fun r => r.packetId != record.packetId
  if newState = .publishDone then others
  else if newState = .pubRelSend then others ++ [{ record with publishState := newState }]
  else items.map fun r => if r.packetId = record.packetId then { record with publishState := newState } else r

/-- Around the record, when identifiers are distinct. -/
theorem moveRecord_split {before after : List MQTTPubAckInfo} {record : MQTTPubAckInfo}
    (hdistinct : ((before ++ record :: after).map (·.packetId)).Nodup) (newState : MQTTPublishState) :
    moveRecord (before ++ record :: after) record newState =
      if newState = .publishDone then before ++ after
      else if newState = .pubRelSend then before ++ after ++ [{ record with publishState := newState }]
      else before ++ { record with publishState := newState } :: after := by
  have hother : ∀ r ∈ before ++ after, r.packetId ≠ record.packetId := by
    rw [List.map_append, List.map_cons, List.nodup_middle, List.nodup_cons, ← List.map_append] at hdistinct
    exact fun r hr heq => hdistinct.1 (heq ▸ List.mem_map_of_mem hr)
  have hfilter : (before ++ record :: after).filter (fun r => r.packetId != record.packetId) = before ++ after := by
    rw [List.filter_append, List.filter_cons_of_neg (by simp), ← List.filter_append]
    exact List.filter_eq_self.2 fun r hr => by simpa using hother r hr
  have hmap : ∀ l : List MQTTPubAckInfo, (∀ r ∈ l, r.packetId ≠ record.packetId) →
      l.map (fun r => if r.packetId = record.packetId then { record with publishState := newState } else r) = l :=
    fun l hl => (List.map_congr_left fun r hr => if_neg (hl r hr)).trans (List.map_id l)
  unfold moveRecord
  rw [hfilter, List.map_append, List.map_cons, if_pos rfl, hmap before fun r hr => hother r (List.mem_append_left _ hr),
    hmap after fun r hr => hother r (List.mem_append_right _ hr)]

namespace PublishQueue

variable {direction : Direction}

def empty (direction : Direction) : PublishQueue direction := ⟨[], List.nodup_nil, by simp, by simp, by simp⟩

/-- A publish begins, unless its identifier is in use or the queue is full. -/
def add (queue : PublishQueue direction) (record : MQTTPubAckInfo) (hid : record.packetId ≠ 0)
    (hlegal : LegalStage direction record.qos record.publishState = true) : MQTTStatus × PublishQueue direction :=
  if hmem : record.packetId ∈ queue.items.map (·.packetId) then (.stateCollision, queue)
  else if hfull : mqttStateArrayMaxCount ≤ queue.items.length then (.noMemory, queue)
  else (.success, {
    items := queue.items ++ [record]
    distinct := by
      rw [List.map_append, List.map_singleton, ← List.concat_eq_append]
      exact queue.distinct.concat hmem
    nonzero := by
      simp only [List.mem_append, List.mem_singleton]
      rintro r (hr | rfl)
      · exact queue.nonzero r hr
      · exact hid
    bounded := by
      rw [List.length_append, List.length_singleton]
      omega
    legal := by
      simp only [List.mem_append, List.mem_singleton]
      rintro r (hr | rfl)
      · exact queue.legal r hr
      · exact hlegal })

theorem add_eq (queue : PublishQueue direction) (record : MQTTPubAckInfo) (hid : record.packetId ≠ 0)
    (hlegal : LegalStage direction record.qos record.publishState = true) :
    ((queue.add record hid hlegal).1, (queue.add record hid hlegal).2.items) = addToQueue queue.items record := by
  unfold add addToQueue
  split
  · rfl
  · split <;> rfl

/-- What `add` can do. -/
theorem add_cases (queue : PublishQueue direction) (record : MQTTPubAckInfo) (hid : record.packetId ≠ 0)
    (hlegal : LegalStage direction record.qos record.publishState = true) :
    (queue.add record hid hlegal).1 = .success ∧ record.packetId ∉ queue.items.map (·.packetId) ∧
        (queue.add record hid hlegal).2.items = queue.items ++ [record] ∨
      (queue.add record hid hlegal).1 ≠ .success ∧ (queue.add record hid hlegal).2.items = queue.items := by
  unfold add
  split
  · exact Or.inr ⟨nofun, rfl⟩
  · rename_i hmem
    split
    · exact Or.inr ⟨nofun, rfl⟩
    · exact Or.inl ⟨rfl, hmem, rfl⟩

/-- A move takes the record out, or puts its new state in its place or behind the others. -/
theorem moveRecord_cases (queue : PublishQueue direction) {record : MQTTPubAckInfo} (hmem : record ∈ queue.items)
    (newState : MQTTPublishState) :
    ∃ before after, queue.items = before ++ record :: after ∧
      (newState = .publishDone ∧ moveRecord queue.items record newState = before ++ after ∨
        newState ≠ .publishDone ∧ (moveRecord queue.items record newState).Perm
          (before ++ { record with publishState := newState } :: after)) := by
  obtain ⟨before, after, hitems⟩ := List.append_of_mem hmem
  have hdistinct := queue.distinct
  rw [hitems] at hdistinct ⊢
  refine ⟨before, after, rfl, ?_⟩
  rw [moveRecord_split hdistinct]
  by_cases hdone : newState = .publishDone
  · exact Or.inl ⟨hdone, if_pos hdone⟩
  · right
    refine ⟨hdone, ?_⟩
    rw [if_neg hdone]
    split
    · rw [List.append_assoc]
      exact List.Perm.append_left before (List.perm_append_singleton _ _)
    · exact List.Perm.refl _

theorem mem_moveRecord (queue : PublishQueue direction) {record r : MQTTPubAckInfo} (hmem : record ∈ queue.items)
    {newState : MQTTPublishState} (hr : r ∈ moveRecord queue.items record newState) :
    r ∈ queue.items ∨ newState ≠ .publishDone ∧ r = { record with publishState := newState } := by
  obtain ⟨before, after, hitems, ⟨-, hmove⟩ | ⟨hdone, hmove⟩⟩ := queue.moveRecord_cases hmem newState
  · rw [hmove, List.mem_append] at hr
    left
    rw [hitems]
    exact List.mem_append.2 (hr.imp_right (List.mem_cons_of_mem _))
  · rw [hmove.mem_iff, List.mem_append, List.mem_cons] at hr
    rw [hitems]
    rcases hr with hr | hr | hr
    · exact Or.inl (List.mem_append_left _ hr)
    · exact Or.inr ⟨hdone, hr⟩
    · exact Or.inl (List.mem_append_right _ (List.mem_cons_of_mem _ hr))

/-- A record of the queue has a new state. -/
def move (queue : PublishQueue direction) (record : MQTTPubAckInfo) (hmem : record ∈ queue.items)
    (newState : MQTTPublishState)
    (hlegal : newState = .publishDone ∨ LegalStage direction record.qos newState = true) : PublishQueue direction where
  items := moveRecord queue.items record newState
  distinct := by
    have hdistinct := queue.distinct
    obtain ⟨before, after, hitems, ⟨-, hmove⟩ | ⟨-, hmove⟩⟩ := queue.moveRecord_cases hmem newState
    · rw [hitems] at hdistinct
      rw [hmove]
      exact (((List.sublist_cons_self record after).append_left before).map _).nodup hdistinct
    · rw [(hmove.map _).nodup_iff, List.map_append, List.map_cons]
      rwa [hitems, List.map_append, List.map_cons] at hdistinct
  nonzero := by
    intro r hr
    rcases queue.mem_moveRecord hmem hr with hr | ⟨-, rfl⟩
    · exact queue.nonzero r hr
    · exact queue.nonzero record hmem
  bounded := by
    have hbounded := queue.bounded
    obtain ⟨before, after, hitems, ⟨-, hmove⟩ | ⟨-, hmove⟩⟩ := queue.moveRecord_cases hmem newState
    · rw [hitems, List.length_append, List.length_cons] at hbounded
      rw [hmove, List.length_append]
      omega
    · rw [hitems, List.length_append, List.length_cons] at hbounded
      rwa [hmove.length_eq, List.length_append, List.length_cons]
  legal := by
    intro r hr
    rcases queue.mem_moveRecord hmem hr with hr | ⟨hdone, rfl⟩
    · exact queue.legal r hr
    · exact hlegal.resolve_left hdone

/-- The record with an identifier. -/
def find (queue : PublishQueue direction) (packetId : UInt16) : Option MQTTPubAckInfo :=
  queue.items.find? fun record => record.packetId == packetId

theorem mem_of_find {queue : PublishQueue direction} {packetId : UInt16} {record : MQTTPubAckInfo}
    (h : queue.find packetId = some record) : record ∈ queue.items ∧ record.packetId = packetId := by
  have hid := List.find?_some h
  exact ⟨List.mem_of_find?_eq_some h, eq_of_beq hid⟩

/-- The record that was found goes on in its handshake. -/
def advance (queue : PublishQueue direction) (found : Option MQTTPubAckInfo)
    (hfound : ∀ record, found = some record → record ∈ queue.items) (absent : MQTTStatus)
    (next : MQTTPubAckInfo → Option MQTTPublishState)
    (hnext : ∀ record ∈ queue.items, ∀ newState, next record = some newState →
      newState = .publishDone ∨ LegalStage direction record.qos newState = true) :
    StateResult (PublishQueue direction) :=
  match found, hfound with
  | none, _ => ⟨absent, none, queue⟩
  | some record, hfound =>
    match hstep : next record with
    | none => ⟨.illegalState, none, queue⟩
    | some newState => ⟨.success, some newState,
        queue.move record (hfound record rfl) newState (hnext record (hfound record rfl) newState hstep)⟩

/-- An acknowledgement was sent or received. -/
def ack (queue : PublishQueue direction) (packetId : UInt16) (packetType : MQTTPubAckType)
    (opType : MQTTStateOperation) : StateResult (PublishQueue direction) :=
  queue.advance (queue.find packetId) (fun _ hfind => (mem_of_find hfind).1) .badResponse
    (fun record => handshake record.publishState packetType opType)
    (fun record hmem _ hstep => handshake_legal (queue.legal record hmem) hstep)

/-- A PUBLISH was sent. -/
def sent (queue : PublishQueue .outgoing) (packetId : UInt16) (qos : MQTTQoS) :
    StateResult (PublishQueue .outgoing) :=
  queue.advance ((queue.find packetId).filter fun record => record.qos == qos)
    (fun _ hfind => (mem_of_find (Option.filter_eq_some_iff.1 hfind).1).1) .badParameter
    (fun record => handshakePublish record.qos record.publishState)
    (fun record hmem _ hstep => Or.inr (handshakePublish_legal (queue.legal record hmem) hstep))

section Advance

variable (queue : PublishQueue direction) {found : Option MQTTPubAckInfo}
  (hfound : ∀ record, found = some record → record ∈ queue.items) (absent : MQTTStatus)
  {next : MQTTPubAckInfo → Option MQTTPublishState}
  (hnext : ∀ record ∈ queue.items, ∀ newState, next record = some newState →
    newState = .publishDone ∨ LegalStage direction record.qos newState = true)

theorem advance_of_absent (h : found = none) :
    queue.advance found hfound absent next hnext = ⟨absent, none, queue⟩ := by
  subst h
  rfl

theorem advance_of_illegal {record : MQTTPubAckInfo} (h : found = some record) (hstep : next record = none) :
    queue.advance found hfound absent next hnext = ⟨.illegalState, none, queue⟩ := by
  subst h
  simp only [advance]
  split
  · rfl
  · rename_i hsome
    rw [hstep] at hsome
    cases hsome

theorem advance_of_step {record : MQTTPubAckInfo} (h : found = some record) {newState : MQTTPublishState}
    (hstep : next record = some newState) :
    (queue.advance found hfound absent next hnext).status = .success ∧
      (queue.advance found hfound absent next hnext).newState = some newState ∧
      (queue.advance found hfound absent next hnext).records.items = moveRecord queue.items record newState := by
  subst h
  simp only [advance]
  split
  · rename_i hnone
    rw [hstep] at hnone
    cases hnone
  · rename_i hsome
    rw [hstep] at hsome
    cases hsome
    exact ⟨rfl, rfl, rfl⟩

end Advance

theorem ack_of_step {queue : PublishQueue direction} {packetId : UInt16} {record : MQTTPubAckInfo}
    (hfind : queue.find packetId = some record) {newState : MQTTPublishState} {packetType : MQTTPubAckType}
    {opType : MQTTStateOperation} (hstep : handshake record.publishState packetType opType = some newState) :
    (queue.ack packetId packetType opType).status = .success ∧
      (queue.ack packetId packetType opType).newState = some newState ∧
      (queue.ack packetId packetType opType).records.items = moveRecord queue.items record newState :=
  queue.advance_of_step _ _ _ hfind hstep

theorem sent_of_step {queue : PublishQueue .outgoing} {packetId : UInt16} {record : MQTTPubAckInfo}
    (hfind : queue.find packetId = some record) {newState : MQTTPublishState}
    (hstep : handshakePublish record.qos record.publishState = some newState) :
    (queue.sent packetId record.qos).status = .success ∧
      (queue.sent packetId record.qos).newState = some newState ∧
      (queue.sent packetId record.qos).records.items = moveRecord queue.items record newState :=
  queue.advance_of_step _ _ _ (by rw [hfind]; simp) hstep

end PublishQueue

/-! ### The arrays are the queues -/

def StateResult.map {σ τ : Type} (f : σ → τ) (result : StateResult σ) : StateResult τ :=
  ⟨result.status, result.newState, f result.records⟩

/-- The publishes in progress in both directions. -/
structure PublishProgress where
  outgoing : PublishQueue .outgoing
  incoming : PublishQueue .incoming

namespace PublishProgress

def empty : PublishProgress := ⟨.empty .outgoing, .empty .incoming⟩

def call (progress : PublishProgress) : StateCall → StateResult PublishProgress
  | .reserve packetId qos =>
    if hqos : qos = .qos0 then ⟨.success, none, progress⟩
    else if hid : packetId = 0 then ⟨.badParameter, none, progress⟩
    else
      let (status, queue) := progress.outgoing.add ⟨packetId, qos, .publishSend⟩ hid
        (legal_reserved hqos)
      ⟨status, none, { progress with outgoing := queue }⟩
  | .publish packetId opType qos =>
    if hqos : qos = .qos0 then ⟨.success, some .publishDone, progress⟩
    else if hid : packetId = 0 then ⟨.badParameter, none, progress⟩
    else
      match opType with
      | .send => (progress.outgoing.sent packetId qos).map fun queue => { progress with outgoing := queue }
      | .receive =>
        let newState := mqttCalculateStatePublish .receive qos
        (StateResult.ofUpdate newState (progress.incoming.add ⟨packetId, qos, newState⟩ hid
          (legal_received hqos))).map fun queue => { progress with incoming := queue }
  | .ack packetId packetType opType =>
    if packetId = 0 then ⟨.badParameter, none, progress⟩
    else if isPublishOutgoing packetType opType then
      (progress.outgoing.ack packetId packetType opType).map fun queue => { progress with outgoing := queue }
    else (progress.incoming.ack packetId packetType opType).map fun queue => { progress with incoming := queue }
  | .reset => ⟨.success, none, .empty⟩

end PublishProgress

/-- The arrays hold the queues. -/
structure PublishContext.Represents (ctx : PublishContext) (progress : PublishProgress) : Prop where
  outgoing : ctx.outgoingPublishRecords.queue = progress.outgoing.items
  incoming : ctx.incomingPublishRecords.queue = progress.incoming.items

section Refinement

variable {direction : Direction} {records : PublishRecords} {queue : PublishQueue direction}

theorem addRecord_agrees (hrep : records.queue = queue.items) (record : MQTTPubAckInfo) (hid : record.packetId ≠ 0)
    (hlegal : LegalStage direction record.qos record.publishState = true) :
    (addRecord records record.packetId record.qos record.publishState).1 = (queue.add record hid hlegal).1 ∧
      (addRecord records record.packetId record.qos record.publishState).2.queue =
        (queue.add record hid hlegal).2.items := by
  have hadd := addRecord_spec records hid record.qos record.publishState
  rw [hrep] at hadd
  exact Prod.ext_iff.1 (hadd.trans (queue.add_eq record hid hlegal).symm)

theorem PublishQueue.find_eq_some (queue : PublishQueue direction) {record : MQTTPubAckInfo}
    (hmem : record ∈ queue.items) : queue.find record.packetId = some record := by
  cases hfind : queue.find record.packetId with
  | none =>
    have hnone := List.find?_eq_none.1 hfind record hmem
    simp at hnone
  | some other =>
    obtain ⟨hother, hid⟩ := PublishQueue.mem_of_find hfind
    rw [List.inj_on_of_nodup_map queue.distinct hother hmem hid]

/-- The search in the array is the search in the queue. -/
theorem findInRecord_agrees (hrep : records.queue = queue.items) {packetId : UInt16} (hid : packetId ≠ 0) :
    findInRecord records packetId = (mqttStateArrayMaxCount, .qos0, .stateNull) ∧ queue.find packetId = none ∨
      ∃ index record, findInRecord records packetId = (index, record.qos, record.publishState) ∧
        index < mqttStateArrayMaxCount ∧ records.slots[index]? = some record ∧ record.packetId = packetId ∧
        queue.find packetId = some record := by
  rcases findInRecord_cases records hid with ⟨hfind, hnot⟩ | ⟨index, record, hfind, hget, hrecord⟩
  · left
    refine ⟨hfind, List.find?_eq_none.2 fun r hr heq => hnot ?_⟩
    rw [hrep, ← eq_of_beq heq]
    exact List.mem_map_of_mem hr
  · right
    have hindex := (List.getElem?_eq_some_iff.1 hget).1
    rw [records.length_slots] at hindex
    have hmem : record ∈ queue.items := by
      obtain ⟨before, after, hqueue, -, -⟩ := queue_updateRecord hget (hrecord ▸ hid) .publishDone
      rw [← hrep, hqueue]
      exact List.mem_append_right _ List.mem_cons_self
    exact ⟨index, record, hfind, hindex, hget, hrecord, hrecord ▸ queue.find_eq_some hmem⟩

/-- The handshake reaches `PubRelSend` from another state of an outgoing publish of QoS 2. -/
theorem handshake_pubRelSend {qos : MQTTQoS} {state : MQTTPublishState} {packetType : MQTTPubAckType}
    {opType : MQTTStateOperation} (hlegal : LegalStage direction qos state = true)
    (h : handshake state packetType opType = some .pubRelSend) : qos = .qos2 ∧ state ≠ .pubRelSend := by
  cases direction <;> cases qos <;> cases state <;> cases hlegal <;> cases packetType <;> cases opType <;> cases h
  exact ⟨rfl, nofun⟩

/-- A new state in the same place, which need not be stored when it is the old one. -/
theorem updateRecord_agrees (hrep : records.queue = queue.items) {index : Nat} {record : MQTTPubAckInfo}
    (hget : records.slots[index]? = some record) (hid : record.packetId ≠ 0) {newState : MQTTPublishState}
    (hdone : newState ≠ .publishDone) (hrel : newState ≠ .pubRelSend) :
    (if record.publishState ≠ newState then updateRecord records index newState false else records).queue =
      moveRecord queue.items record newState := by
  obtain ⟨before, after, hqueue, hchange, -⟩ := queue_updateRecord hget hid newState
  have hdistinct := queue.distinct
  rw [← hrep, hqueue] at hdistinct
  rw [← hrep, hqueue, moveRecord_split hdistinct, if_neg hdone, if_neg hrel]
  split
  · exact hchange
  · rename_i heq
    rw [← not_ne_iff.1 heq]
    exact hqueue

/-- The update of the array is the move in the queue; the record that is added again always has room. -/
theorem updateStateAck_agrees (hrep : records.queue = queue.items) {index : Nat} {record : MQTTPubAckInfo}
    (hget : records.slots[index]? = some record) (hid : record.packetId ≠ 0) {newState : MQTTPublishState}
    {packetType : MQTTPubAckType} {opType : MQTTStateOperation}
    (hlegal : LegalStage direction record.qos record.publishState = true)
    (hvalid : validateTransitionAck record.publishState newState = true)
    (hstep : handshake record.publishState packetType opType = some newState) :
    (updateStateAck records index record.packetId record.publishState newState).1 = .success ∧
      (updateStateAck records index record.packetId record.publishState newState).2.queue =
        moveRecord queue.items record newState := by
  obtain ⟨before, after, hqueue, hchange, hdelete⟩ := queue_updateRecord hget hid newState
  have hdistinct := queue.distinct
  have hbounded := queue.bounded
  rw [← hrep, hqueue] at hdistinct hbounded
  rw [← hrep, hqueue, moveRecord_split hdistinct]
  unfold updateStateAck
  rw [if_pos hvalid]
  by_cases hdone : newState = .publishDone
  · have hne : record.publishState ≠ newState := by
      rintro heq
      rw [heq, hdone] at hvalid
      cases hvalid
    subst hdone
    simp only [ne_eq, hne, not_false_eq_true, ite_true, reduceCtorEq, ite_false]
    exact ⟨trivial, hdelete⟩
  · rw [if_neg hdone]
    by_cases hrel : newState = .pubRelSend
    · subst hrel
      obtain ⟨hqos, hne⟩ := handshake_pubRelSend hlegal hstep
      have hadd := addRecord_spec (updateRecord records index .pubRelSend true) hid .qos2 .pubRelSend
      have hnot : record.packetId ∉ (before ++ after).map (·.packetId) := by
        rw [List.map_append, List.map_cons, List.nodup_middle, List.nodup_cons, ← List.map_append] at hdistinct
        exact hdistinct.1
      have hroom : ¬ mqttStateArrayMaxCount ≤ (before ++ after).length := by
        simp only [List.length_append, List.length_cons] at hbounded ⊢
        omega
      rw [hdelete, addToQueue, if_neg hnot, if_neg hroom] at hadd
      simp only [ne_eq, hne, not_false_eq_true, ite_true]
      rw [← hqos] at hadd ⊢
      exact Prod.ext_iff.1 hadd
    · have hkeep : (newState == .publishDone || newState == .pubRelSend) = false := by simp [hdone, hrel]
      have hmove := updateRecord_agrees hrep hget hid hdone hrel
      rw [← hrep, hqueue, moveRecord_split hdistinct, if_neg hdone] at hmove
      simp only [hkeep, hrel, ite_false] at hmove ⊢
      split
      · rename_i hne
        rw [if_pos hne] at hmove
        exact ⟨rfl, hmove⟩
      · rename_i heq
        rw [if_neg heq] at hmove
        exact ⟨rfl, hmove⟩

end Refinement

/-- A call on the arrays and a call on the queues return the same, and leave the same. -/
structure StateResult.Agrees (result : StateResult PublishContext) (expected : StateResult PublishProgress) : Prop where
  status : result.status = expected.status
  newState : result.newState = expected.newState
  records : result.records.Represents expected.records

namespace PublishContext.Represents

variable {ctx : PublishContext} {progress : PublishProgress}

theorem zero : PublishContext.zero.Represents .empty :=
  ⟨PublishRecords.queue_zero, PublishRecords.queue_zero⟩

theorem reserve (h : ctx.Represents progress) (packetId : UInt16) (qos : MQTTQoS) :
    ((StateCall.reserve packetId qos).run ctx).Agrees (progress.call (.reserve packetId qos)) := by
  unfold StateCall.run PublishProgress.call mqttReserveState
  by_cases hqos : qos = .qos0
  · simp only [hqos, ite_true, dite_true]
    exact ⟨rfl, rfl, h⟩
  · by_cases hid : packetId = 0
    · simp only [hqos, hid, ite_true, ite_false, dite_true, dite_false]
      exact ⟨rfl, rfl, h⟩
    · simp only [hqos, hid, ite_false, dite_false]
      obtain ⟨hstatus, hqueue⟩ := addRecord_agrees h.outgoing ⟨packetId, qos, .publishSend⟩ hid
        (legal_reserved hqos)
      exact ⟨hstatus, rfl, hqueue, h.incoming⟩

/-- The state behind a PUBLISH that was sent is neither the last one nor one of a PUBREL. -/
theorem mqttCalculateStatePublish_send {qos : MQTTQoS} (hqos : qos ≠ .qos0) :
    mqttCalculateStatePublish .send qos ≠ .publishDone ∧ mqttCalculateStatePublish .send qos ≠ .pubRelSend := by
  cases qos
  · exact absurd rfl hqos
  · exact ⟨nofun, nofun⟩
  · exact ⟨nofun, nofun⟩

theorem publishSend (h : ctx.Represents progress) {packetId : UInt16} (hid : packetId ≠ 0) {qos : MQTTQoS}
    (hqos : qos ≠ .qos0) :
    (mqttUpdateStatePublish ctx packetId .send qos).Agrees
      ((progress.outgoing.sent packetId qos).map fun queue => { progress with outgoing := queue }) := by
  unfold mqttUpdateStatePublish
  simp only [if_neg hqos, if_neg hid, ite_true]
  rcases findInRecord_agrees h.outgoing hid with ⟨hfound, hfind⟩ |
    ⟨index, record, hfound, hindex, hget, hrecord, hfind⟩
  · have habsent : (progress.outgoing.find packetId).filter (fun record => record.qos == qos) = none := by
      rw [hfind]
      rfl
    simp only [hfound, true_or, ite_true]
    rw [PublishQueue.sent, PublishQueue.advance_of_absent _ _ _ _ habsent]
    exact ⟨rfl, rfl, h⟩
  · simp only [hfound, Nat.ne_of_lt hindex, false_or]
    by_cases hsame : record.qos = qos
    · subst hsame
      have hlegal := progress.outgoing.legal record (PublishQueue.mem_of_find hfind).1
      have htable := handshakePublish_eq hlegal
      have hsome : (progress.outgoing.find packetId).filter (fun r => r.qos == record.qos) = some record := by
        rw [hfind]
        simp
      simp only [ne_eq, not_true_eq_false, ite_false, updateStatePublish, reduceCtorEq]
      by_cases hvalid : validateTransitionPublish record.publishState (mqttCalculateStatePublish .send record.qos)
          .send record.qos = true
      · rw [if_pos hvalid] at htable ⊢
        obtain ⟨hdone, hrel⟩ := mqttCalculateStatePublish_send hqos
        obtain ⟨hstatus, hnew, hitems⟩ := PublishQueue.sent_of_step hfind htable
        have hmove := updateRecord_agrees h.outgoing hget (hrecord ▸ hid) hdone hrel
        split
        · rename_i hne
          rw [if_pos hne] at hmove
          exact ⟨hstatus.symm, hnew.symm, hmove.trans hitems.symm, h.incoming⟩
        · rename_i heq
          rw [if_neg heq] at hmove
          exact ⟨hstatus.symm, hnew.symm, hmove.trans hitems.symm, h.incoming⟩
      · rw [if_neg hvalid] at htable ⊢
        rw [PublishQueue.sent, PublishQueue.advance_of_illegal _ _ _ _ hsome htable]
        exact ⟨rfl, rfl, h⟩
    · have habsent : (progress.outgoing.find packetId).filter (fun r => r.qos == qos) = none := by
        rw [hfind]
        simp [hsame]
      simp only [ne_eq, hsame, not_false_eq_true, ite_true]
      rw [PublishQueue.sent, PublishQueue.advance_of_absent _ _ _ _ habsent]
      exact ⟨rfl, rfl, h⟩

theorem publishReceive (h : ctx.Represents progress) {packetId : UInt16} (hid : packetId ≠ 0) {qos : MQTTQoS}
    (hqos : qos ≠ .qos0)
    (hlegal : LegalStage .incoming qos (mqttCalculateStatePublish .receive qos) = true) :
    (mqttUpdateStatePublish ctx packetId .receive qos).Agrees
      ((StateResult.ofUpdate (mqttCalculateStatePublish .receive qos) (progress.incoming.add
        ⟨packetId, qos, mqttCalculateStatePublish .receive qos⟩ hid hlegal)).map fun queue =>
          { progress with incoming := queue }) := by
  have hvalid : validateTransitionPublish .stateNull (mqttCalculateStatePublish .receive qos) .receive qos = true := by
    cases qos
    · exact absurd rfl hqos
    · rfl
    · rfl
  obtain ⟨hstatus, hqueue⟩ := addRecord_agrees h.incoming
    ⟨packetId, qos, mqttCalculateStatePublish .receive qos⟩ hid hlegal
  unfold mqttUpdateStatePublish updateStatePublish
  simp only [if_neg hqos, if_neg hid, hvalid, ite_true, reduceCtorEq, ite_false]
  refine ⟨hstatus, ?_, h.outgoing, hqueue⟩
  simp only [StateResult.ofUpdate, StateResult.map, hstatus]

/-- An acknowledgement on the array of a direction. -/
theorem ackRecords {direction : Direction} {records : PublishRecords} {queue : PublishQueue direction}
    (hrep : records.queue = queue.items) {packetId : UInt16} (hid : packetId ≠ 0) {packetType : MQTTPubAckType}
    {opType : MQTTStateOperation} (hdirection : isPublishOutgoing packetType opType = (direction == .outgoing)) :
    let found := findInRecord records packetId
    let newState := mqttCalculateStateAck packetType opType found.2.1
    let update := updateStateAck records found.1 packetId found.2.2 newState
    let result := if found.1 < mqttStateArrayMaxCount then StateResult.ofUpdate newState update
      else ⟨.badResponse, none, records⟩
    result.status = (queue.ack packetId packetType opType).status ∧
      result.newState = (queue.ack packetId packetType opType).newState ∧
      result.records.queue = (queue.ack packetId packetType opType).records.items := by
  dsimp only
  rcases findInRecord_agrees hrep hid with ⟨hfound, hfind⟩ | ⟨index, record, hfound, hindex, hget, hrecord, hfind⟩
  · rw [hfound, PublishQueue.ack, PublishQueue.advance_of_absent _ _ _ _ hfind]
    exact ⟨rfl, rfl, hrep⟩
  · have hlegal := queue.legal record (PublishQueue.mem_of_find hfind).1
    have htable := handshake_eq hlegal hdirection
    rw [hfound, if_pos hindex]
    by_cases hvalid : validateTransitionAck record.publishState
        (mqttCalculateStateAck packetType opType record.qos) = true
    · rw [if_pos hvalid] at htable
      obtain ⟨hstatus, hnew, hitems⟩ := PublishQueue.ack_of_step hfind htable
      obtain ⟨hupdate, hqueue⟩ := updateStateAck_agrees hrep hget (hrecord ▸ hid) hlegal hvalid htable
      rw [hrecord] at hupdate hqueue
      rw [hstatus, hnew, hitems]
      simp only [StateResult.ofUpdate, hupdate, ite_true]
      exact ⟨trivial, trivial, hqueue⟩
    · rw [if_neg hvalid] at htable
      rw [PublishQueue.ack, PublishQueue.advance_of_illegal _ _ _ _ hfind htable]
      simp only [updateStateAck, if_neg hvalid]
      exact ⟨rfl, rfl, hrep⟩

theorem ack (h : ctx.Represents progress) (packetId : UInt16) (packetType : MQTTPubAckType)
    (opType : MQTTStateOperation) :
    (mqttUpdateStateAck ctx packetId packetType opType).Agrees (progress.call (.ack packetId packetType opType)) := by
  unfold mqttUpdateStateAck PublishProgress.call
  by_cases hid : packetId = 0
  · simp only [hid, ite_true]
    exact ⟨rfl, rfl, h⟩
  · simp only [hid, ite_false]
    cases houtgoing : isPublishOutgoing packetType opType with
    | true =>
      obtain ⟨hstatus, hnew, hqueue⟩ := ackRecords h.outgoing hid houtgoing
      simp only [ite_true]
      split
      · rename_i hindex
        simp only [if_pos hindex] at hstatus hnew hqueue
        exact ⟨hstatus, hnew, hqueue, h.incoming⟩
      · rename_i hindex
        simp only [if_neg hindex] at hstatus hnew hqueue
        exact ⟨hstatus, hnew, hqueue, h.incoming⟩
    | false =>
      obtain ⟨hstatus, hnew, hqueue⟩ := ackRecords h.incoming hid houtgoing
      simp only [Bool.false_eq_true, ite_false]
      split
      · rename_i hindex
        simp only [if_pos hindex] at hstatus hnew hqueue
        exact ⟨hstatus, hnew, h.outgoing, hqueue⟩
      · rename_i hindex
        simp only [if_neg hindex] at hstatus hnew hqueue
        exact ⟨hstatus, hnew, h.outgoing, hqueue⟩

/-- One call. -/
theorem run (h : ctx.Represents progress) (call : StateCall) : (call.run ctx).Agrees (progress.call call) := by
  cases call with
  | reserve packetId qos => exact h.reserve packetId qos
  | publish packetId opType qos =>
    simp only [StateCall.run, PublishProgress.call]
    by_cases hqos : qos = .qos0
    · rw [dif_pos hqos, mqttUpdateStatePublish, if_pos hqos]
      exact ⟨rfl, rfl, h⟩
    · by_cases hid : packetId = 0
      · rw [dif_neg hqos, dif_pos hid, mqttUpdateStatePublish, if_neg hqos, if_pos hid]
        exact ⟨rfl, rfl, h⟩
      · rw [dif_neg hqos, dif_neg hid]
        cases opType with
        | send => exact h.publishSend hid hqos
        | receive => exact h.publishReceive hid hqos _
  | ack packetId packetType opType => exact h.ack packetId packetType opType
  | reset => exact ⟨rfl, rfl, zero⟩

end PublishContext.Represents

/-! ### Runs -/

/-- What the calls of a run return, with the records behind them. -/
def StateCall.runs (ctx : PublishContext) : List StateCall → List (MQTTStatus × Option MQTTPublishState) × PublishContext
  | [] => ([], ctx)
  | call :: calls =>
    let result := call.run ctx
    let (returned, ctx) := runs result.records calls
    ((result.status, result.newState) :: returned, ctx)

def PublishProgress.calls (progress : PublishProgress) :
    List StateCall → List (MQTTStatus × Option MQTTPublishState) × PublishProgress
  | [] => ([], progress)
  | call :: calls =>
    let result := progress.call call
    let (returned, progress) := result.records.calls calls
    ((result.status, result.newState) :: returned, progress)

/-- Every run on the arrays is the run on the queues, from any state that the arrays hold. -/
theorem PublishContext.Represents.runs {ctx : PublishContext} {progress : PublishProgress}
    (h : ctx.Represents progress) (calls : List StateCall) :
    (StateCall.runs ctx calls).1 = (progress.calls calls).1 ∧
      (StateCall.runs ctx calls).2.Represents (progress.calls calls).2 := by
  induction calls generalizing ctx progress with
  | nil => exact ⟨rfl, h⟩
  | cons call calls ih =>
    have hcall := h.run call
    obtain ⟨hreturned, hrep⟩ := ih hcall.records
    simp only [StateCall.runs, PublishProgress.calls]
    exact ⟨by rw [hreturned, hcall.status, hcall.newState], hrep⟩

/-- From the arrays of a new context on, every run is that of the queues: the same is returned by every call, and the
arrays hold what the queues hold. -/
theorem runs_eq_queues (calls : List StateCall) :
    (StateCall.runs .zero calls).1 = (PublishProgress.empty.calls calls).1 ∧
      (StateCall.runs .zero calls).2.Represents (PublishProgress.empty.calls calls).2 :=
  PublishContext.Represents.zero.runs calls

end TuyaDaemon
