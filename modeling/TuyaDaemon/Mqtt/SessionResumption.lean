import TuyaDaemon.Mqtt.PublishSession

/-!
# Resuming a session

`handleSessionResumption` sends a PUBREL again for every publish that waits for its PUBCOMP, in the order of the records,
which is the order in which their PUBRECs arrived (`outgoing_in_order`).  It finds the records with `stateSelect`, which
reads vacant slots too: a slot that was vacated in a state it looks for ends the search, and the records behind it are
passed over (`selected_eq_iff`, `handleSessionResumption_resends`).  With it the calls of a client are complete, and over
their runs every publish is opened once (`opened_once`).
-/

namespace TuyaDaemon

open CLib

/-! ### The search -/

/-- The loop of `stateSelect`, with the slots that are left: an identifier and the new cursor. -/
def stateSelectFrom (searchStates : List MQTTPublishState) : List MQTTPubAckInfo → Nat → UInt16 × Nat
  | [], cursor => (0, cursor)
  | record :: rest, cursor =>
    if record.publishState ∈ searchStates then (record.packetId, cursor + 1)
    else stateSelectFrom searchStates rest (cursor + 1)

def stateSelect (ctx : PublishContext) (searchStates : List MQTTPublishState) (cursor : Nat) : UInt16 × Nat :=
  stateSelectFrom searchStates (ctx.outgoingPublishRecords.slots.drop cursor) cursor

def pubrelStates : List MQTTPublishState := [.pubCompPending, .pubRelSend]

def mqttPubrelToResend (ctx : PublishContext) (cursor : Nat) : UInt16 × Nat := stateSelect ctx pubrelStates cursor

/-- The records that a search from the first slot on finds: it ends at a vacant slot in one of the states. -/
def selected (searchStates : List MQTTPublishState) (slots : List MQTTPubAckInfo) : List MQTTPubAckInfo :=
  (slots.filter fun record => record.publishState ∈ searchStates).takeWhile MQTTPubAckInfo.used

theorem selected_cons (searchStates : List MQTTPublishState) (record : MQTTPubAckInfo) (rest : List MQTTPubAckInfo) :
    selected searchStates (record :: rest) =
      if record.publishState ∈ searchStates then
        if record.used then record :: selected searchStates rest else []
      else selected searchStates rest := by
  unfold selected
  by_cases hstate : record.publishState ∈ searchStates
  · rw [List.filter_cons_of_pos (by simpa using hstate), List.takeWhile_cons, if_pos hstate]
  · rw [List.filter_cons_of_neg (by simpa using hstate), if_neg hstate]

namespace PublishSession

variable {κ υ : Type}

/-- The loop of `handleSessionResumption`; `sends` says for every slot whether its PUBREL goes out. -/
def resendPubrels (sends : Nat → Bool) : Nat → Nat → PublishSession κ υ → MQTTStatus × PublishSession κ υ
  | 0, _, s => (.success, s)
  | left + 1, cursor, s =>
    let (packetId, next) := mqttPubrelToResend s.records cursor
    if packetId = 0 then (.success, s)
    else
      match sendPublishAcks (sends (next - 1)) packetId .pubRelSend s with
      | (.success, s) => resendPubrels sends left next s
      | (status, s) => (status, s)

/-- The cursor moves on with every record, so the search ends before the count does. -/
def handleSessionResumption (sessionPresent : Bool) (sends : Nat → Bool) (s : PublishSession κ υ) :
    MQTTStatus × PublishSession κ υ :=
  if sessionPresent then resendPubrels sends (mqttStateArrayMaxCount + 1) 0 s
  else (.success, { s with records := .zero, log := s.log ++ [.reset] })

/-- What a client does between two of its calls. -/
inductive SessionStep where
  | processLoop (first : SessionPass) (rest : List SessionPass)
  | publish (serialized : MQTTStatus) (sent : Bool) (packetId : UInt16) (qos : MQTTQoS) (dup : Bool)
  | connected (sessionPresent : Bool) (sends : Nat → Bool)

def step (appCallback : MQTTEventCallback κ υ) (s : PublishSession κ υ) : SessionStep → PublishSession κ υ
  | .processLoop first rest => (mqttProcessLoop appCallback first rest s).2
  | .publish serialized sent packetId qos dup => (mqttPublish serialized sent packetId qos dup s).2
  | .connected sessionPresent sends => (handleSessionResumption sessionPresent sends s).2

/-- The session of a client behind `MQTT_Init`. -/
def init (w : World κ υ) : PublishSession κ υ := ⟨w, .zero, []⟩

def runSteps (appCallback : MQTTEventCallback κ υ) (w : World κ υ) (steps : List SessionStep) : PublishSession κ υ :=
  steps.foldl (step appCallback) (init w)

/-! ### Every publish is opened once -/

theorem resendPubrels_ok (sends : Nat → Bool) (left cursor : Nat) {s : PublishSession κ υ} (h : s.Ok) :
    (resendPubrels sends left cursor s).2.Ok := by
  induction left generalizing cursor s with
  | zero => exact h
  | succ left ih =>
    unfold resendPubrels
    dsimp only
    split
    · exact h
    · have hsend := sendPublishAcks_ok (sends ((mqttPubrelToResend s.records cursor).2 - 1))
        (mqttPubrelToResend s.records cursor).1 .pubRelSend h
      split
      · rename_i s' heq
        rw [heq] at hsend
        exact ih _ hsend
      · rename_i status s' _ heq
        rw [heq] at hsend
        exact hsend

theorem step_ok (appCallback : MQTTEventCallback κ υ) {s : PublishSession κ υ} (h : s.Ok) (st : SessionStep) :
    (step appCallback s st).Ok := by
  cases st with
  | processLoop first rest => exact mqttProcessLoop_ok appCallback first rest h
  | publish serialized sent packetId qos dup => exact mqttPublish_ok serialized sent packetId qos dup h
  | connected sessionPresent sends =>
    simp only [step, handleSessionResumption]
    split
    · exact resendPubrels_ok sends _ _ h
    · exact Sound.reset h

theorem runSteps_ok (appCallback : MQTTEventCallback κ υ) (w : World κ υ) (steps : List SessionStep) :
    (runSteps appCallback w steps).Ok := by
  have hrun : ∀ s : PublishSession κ υ, s.Ok → (steps.foldl (step appCallback) s).Ok := by
    induction steps with
    | nil => exact fun s h => h
    | cons st steps ih => exact fun s h => ih _ (step_ok appCallback h st)
  exact hrun _ Sound.init

/-- In every run, whatever arrives and whatever is lost: when an identifier is opened twice in one direction, the
handshake of the first publish was completed in between, or the records were cleared. -/
theorem opened_once (appCallback : MQTTEventCallback κ υ) (w : World κ υ) (steps : List SessionStep)
    (direction : Direction) : OpenedOnce direction (runSteps appCallback w steps).log := by
  obtain ⟨progress, h⟩ := runSteps_ok appCallback w steps
  cases direction with
  | outgoing => exact h.outgoingOnce
  | incoming => exact h.incomingOnce

/-! ### The log and the application -/

/-- The publishes that were handed to the application. -/
def handedOver (log : List PublishEvent) : List (UInt16 × MQTTQoS) :=
  log.filterMap fun
    | .opened .incoming packetId qos => some (packetId, qos)
    | _ => none

/-- An application that notes the publishes of QoS 1 and 2 that it is called with. -/
def notePublishes : MQTTEventCallback κ (List (UInt16 × MQTTQoS)) := fun _ info w =>
  match info.publishInfo with
  | some publishInfo =>
    if publishInfo.qos = .qos0 then w else { w with user := w.user ++ [(info.packetIdentifier, publishInfo.qos)] }
  | none => w

/-- The log has the publishes that the application was called with. -/
def Noted (before : List (UInt16 × MQTTQoS)) (s : PublishSession κ (List (UInt16 × MQTTQoS))) : Prop :=
  s.world.user = before ++ handedOver s.log

section Noted

variable {before : List (UInt16 × MQTTQoS)} {s : PublishSession κ (List (UInt16 × MQTTQoS))}

theorem Noted.other (h : Noted before s) {e : PublishEvent} (he : handedOver [e] = []) (records : PublishContext) :
    Noted before { s with records := records, log := s.log ++ [e] } := by
  show s.world.user = before ++ handedOver (s.log ++ [e])
  rw [handedOver, List.filterMap_append]
  rw [handedOver] at he
  rw [he, List.append_nil]
  exact h

theorem sendPublishAcks_noted (h : Noted before s) (sent : Bool) (packetId : UInt16) (publishState : MQTTPublishState) :
    Noted before (sendPublishAcks sent packetId publishState s).2 := by
  unfold sendPublishAcks
  split
  · exact h
  · split
    · exact h.other rfl _
    · exact h

theorem handleIncomingPublish_noted (h : Noted before s) (sent : Bool) (packet : MQTTPacketInfo) :
    Noted before (handleIncomingPublish notePublishes sent packet s).2 := by
  unfold handleIncomingPublish
  split
  · exact h
  · rename_i packetIdentifier publishInfo _
    dsimp only
    split
    · apply sendPublishAcks_noted
      by_cases hqos : publishInfo.qos = .qos0
      · simp only [notePublishes, hqos, ite_true, List.append_nil]
        exact h
      · simp only [notePublishes, hqos, ite_false]
        show s.world.user ++ [(packetIdentifier, publishInfo.qos)] = before ++ handedOver (s.log ++ [_])
        rw [h, handedOver, handedOver, List.filterMap_append, List.append_assoc]
        rfl
    · split
      · apply sendPublishAcks_noted
        exact h
      · exact h

theorem handlePublishAcks_noted (h : Noted before s) (sent : Bool) (packet : MQTTPacketInfo) :
    Noted before (handlePublishAcks notePublishes sent packet s).2 := by
  unfold handlePublishAcks
  dsimp only
  split
  · exact h
  · split
    · exact h.other rfl _
    · exact sendPublishAcks_noted (h.other rfl _) _ _ _

theorem handleIncomingAck_noted (pass : Pass) (packet : MQTTPacketInfo) (w : World κ (List (UInt16 × MQTTQoS))) :
    (handleIncomingAck notePublishes pass packet w).2.user = w.user := by
  simp only [handleIncomingAck, TuyaDaemon.handlePublishAcks, notePublishes]
  repeat' split
  all_goals rfl

theorem receiveSingleIteration_noted (h : Noted before s) (p : SessionPass) :
    Noted before (receiveSingleIteration notePublishes p s).2 := by
  unfold receiveSingleIteration
  split
  · show Noted before (handlePacket notePublishes p s).2
    unfold handlePacket
    dsimp only
    split
    · exact handleIncomingPublish_noted h _ _
    · split
      · exact handlePublishAcks_noted h _ _
      · exact (handleIncomingAck_noted _ _ _).trans h
  · rename_i hread
    have hworld : (TuyaDaemon.receiveSingleIteration notePublishes p.pass s.world).2.user = s.world.user := by
      unfold TuyaDaemon.receiveSingleIteration
      split
      · rfl
      · split
        · rfl
        · split
          · rfl
          · rename_i hheader hbody
            exact absurd ⟨not_ne_iff.1 hheader, not_ne_iff.1 hbody⟩ hread
    exact hworld.trans h

theorem mqttProcessLoop_noted (h : Noted before s) (p : SessionPass) (rest : List SessionPass) :
    Noted before (mqttProcessLoop notePublishes p rest s).2 := by
  induction rest generalizing p s with
  | nil => exact receiveSingleIteration_noted h p
  | cons next rest ih =>
    have hpass := receiveSingleIteration_noted h p
    unfold mqttProcessLoop
    split
    · rename_i s' heq
      rw [heq] at hpass
      exact ih hpass next
    · rename_i status s' _ heq
      rw [heq] at hpass
      exact hpass

theorem mqttPublish_noted (h : Noted before s) (serialized : MQTTStatus) (sent : Bool) (packetId : UInt16)
    (qos : MQTTQoS) (dup : Bool) : Noted before (mqttPublish serialized sent packetId qos dup s).2 := by
  have hreserved : ∀ records : PublishContext, ∀ ok : Prop, [Decidable ok] →
      Noted before { s with
        records := records, log := s.log ++ if ok then [.opened .outgoing packetId qos] else [] } := by
    intro records ok _
    split
    · exact h.other rfl records
    · rw [List.append_nil]
      exact h
  unfold mqttPublish
  split
  · exact h
  · split
    · exact h
    · split
      · exact h
      · dsimp only
        split
        · split
          · exact hreserved _ _
          · exact hreserved _ _
        · exact hreserved _ _

theorem resendPubrels_noted (h : Noted before s) (sends : Nat → Bool) (left cursor : Nat) :
    Noted before (resendPubrels sends left cursor s).2 := by
  induction left generalizing cursor s with
  | zero => exact h
  | succ left ih =>
    unfold resendPubrels
    dsimp only
    split
    · exact h
    · have hsend := sendPublishAcks_noted h (sends ((mqttPubrelToResend s.records cursor).2 - 1))
        (mqttPubrelToResend s.records cursor).1 .pubRelSend
      split
      · rename_i s' heq
        rw [heq] at hsend
        exact ih hsend _
      · rename_i status s' _ heq
        rw [heq] at hsend
        exact hsend

theorem step_noted (h : Noted before s) (st : SessionStep) : Noted before (step notePublishes s st) := by
  cases st with
  | processLoop first rest => exact mqttProcessLoop_noted h first rest
  | publish serialized sent packetId qos dup => exact mqttPublish_noted h serialized sent packetId qos dup
  | connected sessionPresent sends =>
    simp only [step, handleSessionResumption]
    split
    · exact resendPubrels_noted h sends _ _
    · exact h.other rfl _

end Noted

/-- The calls of the application and the openings in the log are the same. -/
theorem application_calls (w : World κ (List (UInt16 × MQTTQoS))) (steps : List SessionStep) :
    (runSteps notePublishes w steps).world.user = w.user ++ handedOver (runSteps notePublishes w steps).log := by
  have hrun : ∀ s : PublishSession κ (List (UInt16 × MQTTQoS)), Noted w.user s →
      Noted w.user (steps.foldl (step notePublishes) s) := by
    induction steps with
    | nil => exact fun s h => h
    | cons st steps ih => exact fun s h => ih _ (step_noted h st)
  exact hrun _ (List.append_nil _).symm

/-! ### Which PUBRELs are sent again -/

section Resend

variable {s : PublishSession κ υ} {progress : PublishProgress}

theorem mem_pubrelStates {state : MQTTPublishState} :
    state ∈ pubrelStates ↔ state = .pubCompPending ∨ state = .pubRelSend := by
  simp [pubrelStates]

/-- A PUBREL was sent for the record in a slot. -/
theorem updateStateAck_pubrel {records : PublishRecords} {index : Nat} {record : MQTTPubAckInfo}
    (hget : records.slots[index]? = some record) (hstate : record.publishState ∈ pubrelStates) :
    updateStateAck records index record.packetId record.publishState .pubCompPending =
      (.success, records.set index { record with publishState := .pubCompPending }) := by
  obtain ⟨hindex, hslot⟩ := List.getElem?_eq_some_iff.1 hget
  obtain ⟨packetId, qos, state⟩ := record
  rcases mem_pubrelStates.1 hstate with hstate | hstate
  · cases hstate
    have hsame : records.slots.set index ⟨packetId, qos, .pubCompPending⟩ = records.slots := by
      rw [← hslot, List.set_getElem_self]
    simp only [updateStateAck, validateTransitionAck, PublishRecords.set, hsame]
    rfl
  · cases hstate
    simp [updateStateAck, validateTransitionAck, updateRecord, List.getD_eq_getElem?_getD, hget]

/-- The update for a PUBREL that was sent. -/
theorem mqttUpdateStateAck_pubrel (hrep : s.records.Represents progress) {index : Nat} {record : MQTTPubAckInfo}
    (hget : s.records.outgoingPublishRecords.slots[index]? = some record) (hid : record.packetId ≠ 0)
    (hstate : record.publishState ∈ pubrelStates) :
    mqttUpdateStateAck s.records record.packetId .pubrel .send = ⟨.success, some .pubCompPending,
      { s.records with outgoingPublishRecords :=
          s.records.outgoingPublishRecords.set index { record with publishState := .pubCompPending } }⟩ := by
  have hdistinct := progress.outgoing.distinct
  rw [← hrep.outgoing] at hdistinct
  have hindex := (List.getElem?_eq_some_iff.1 hget).1
  rw [s.records.outgoingPublishRecords.length_slots] at hindex
  have hmem : record ∈ progress.outgoing.items := by
    rw [← hrep.outgoing]
    exact List.mem_filter.2 ⟨List.mem_of_getElem? hget, MQTTPubAckInfo.used_iff.2 hid⟩
  have hqos : record.qos = .qos2 := by
    have hlegal := progress.outgoing.legal record hmem
    rcases mem_pubrelStates.1 hstate with h | h <;> rw [h] at hlegal <;> cases hq : record.qos <;> rw [hq] at hlegal <;>
      first | rfl | cases hlegal
  have hnew : mqttCalculateStateAck .pubrel .send record.qos = .pubCompPending := by rw [hqos]; rfl
  simp only [mqttUpdateStateAck, if_neg hid, isPublishOutgoing, beq_self_eq_true, ite_true,
    findInRecord_eq hdistinct hget hid, if_pos hindex, hnew, updateStateAck_pubrel hget hstate]
  rfl

/-- The loop from a cursor on, by induction on the slots that are left. -/
theorem resendPubrels_from (sends : Nat → Bool) (front rest : List MQTTPubAckInfo) {left : Nat}
    (hrep : s.records.Represents progress) (hslots : s.records.outgoingPublishRecords.slots = front ++ rest)
    (hleft : rest.length < left) :
    ∃ sent unsent, selected pubrelStates rest = sent ++ unsent ∧
      (resendPubrels sends left front.length s).2.log =
        s.log ++ sent.map (fun record => .ack .send record.packetId .pubrel) ∧
      ((resendPubrels sends left front.length s).1 = .success ∧ unsent = [] ∨
        (resendPubrels sends left front.length s).1 = .sendFailed ∧ ∃ index, sends index = false) := by
  induction rest generalizing front left s progress with
  | nil =>
    obtain ⟨left, rfl⟩ := Nat.exists_eq_succ_of_ne_zero (Nat.ne_of_gt hleft)
    have hselect : mqttPubrelToResend s.records front.length = (0, front.length) := by
      rw [mqttPubrelToResend, stateSelect, hslots, List.append_nil, List.drop_length]
      rfl
    refine ⟨[], [], rfl, ?_, ?_⟩ <;> simp [resendPubrels, hselect]
  | cons record rest ih =>
    obtain ⟨left, rfl⟩ := Nat.exists_eq_succ_of_ne_zero (Nat.ne_of_gt (Nat.zero_lt_of_lt hleft))
    have hdrop : s.records.outgoingPublishRecords.slots.drop front.length = record :: rest := by
      rw [hslots, List.drop_append_of_le_length (Nat.le_refl _), List.drop_length, List.nil_append]
    have hnext : (front ++ [record]).length = front.length + 1 := by simp
    rw [selected_cons]
    by_cases hstate : record.publishState ∈ pubrelStates
    · have hselect : mqttPubrelToResend s.records front.length = (record.packetId, front.length + 1) := by
        rw [mqttPubrelToResend, stateSelect, hdrop, stateSelectFrom, if_pos hstate]
      rw [if_pos hstate]
      by_cases hid : record.packetId = 0
      · refine ⟨[], [], ?_, ?_, ?_⟩
        · simp [MQTTPubAckInfo.used, hid]
        · simp [resendPubrels, hselect, hid]
        · simp [resendPubrels, hselect, hid]
      · rw [if_pos (MQTTPubAckInfo.used_iff.2 hid)]
        have hget : s.records.outgoingPublishRecords.slots[front.length]? = some record := by
          rw [hslots, List.getElem?_append_right (Nat.le_refl _), Nat.sub_self, List.getElem?_cons_zero]
        have hupdate := mqttUpdateStateAck_pubrel hrep hget hid hstate
        cases hsends : sends front.length with
        | false =>
          have hloop : resendPubrels sends (left + 1) front.length s = (.sendFailed, s) := by
            simp [resendPubrels, hselect, hid, hsends, sendPublishAcks, getAckTypeToSend]
          rw [hloop]
          exact ⟨[], record :: selected pubrelStates rest, rfl, by simp, Or.inr ⟨rfl, front.length, hsends⟩⟩
        | true =>
          let s' : PublishSession κ υ := {
            world := s.world
            records := (mqttUpdateStateAck s.records record.packetId .pubrel .send).records
            log := s.log ++ [.ack .send record.packetId .pubrel] }
          have hloop : resendPubrels sends (left + 1) front.length s =
              resendPubrels sends left (front.length + 1) s' := by
            simp [resendPubrels, hselect, hid, hsends, sendPublishAcks, getAckTypeToSend, hupdate, s']
          have hrep' : s'.records.Represents _ := (hrep.ack record.packetId .pubrel .send).records
          have hslots' : s'.records.outgoingPublishRecords.slots =
              (front ++ [{ record with publishState := .pubCompPending }]) ++ rest := by
            simp only [s', hupdate, PublishRecords.set, hslots]
            rw [List.set_append_right _ _ (Nat.le_refl _), Nat.sub_self, List.set_cons_zero, List.append_assoc]
            rfl
          obtain ⟨sent, unsent, hfound, hlog, hstatus⟩ := ih _ hrep' hslots' (Nat.lt_of_succ_lt_succ hleft)
          rw [List.length_append, List.length_singleton] at hlog hstatus
          rw [hloop]
          refine ⟨record :: sent, unsent, by rw [hfound]; rfl, ?_, hstatus⟩
          rw [hlog, List.map_cons, List.append_assoc, List.singleton_append]
    · -- a slot in another state is passed over
      have hselect : mqttPubrelToResend s.records front.length = mqttPubrelToResend s.records (front.length + 1) := by
        have hdrop' : s.records.outgoingPublishRecords.slots.drop (front.length + 1) = rest := by
          rw [← List.drop_drop, hdrop, List.drop_one, List.tail_cons]
        rw [mqttPubrelToResend, mqttPubrelToResend, stateSelect, stateSelect, hdrop, hdrop', stateSelectFrom,
          if_neg hstate]
      have hskip : resendPubrels sends (left + 1) front.length s =
          resendPubrels sends (left + 1) (front ++ [record]).length s := by
        rw [hnext, resendPubrels, resendPubrels, hselect]
      rw [if_neg hstate, hskip]
      exact ih _ hrep (by rw [hslots, List.append_assoc]; rfl) (Nat.lt_of_succ_lt hleft)

end Resend

end PublishSession

/-! ### In which order -/

/-- The identifier whose record a call put behind the others: of a publish that was reserved, or whose PUBREC arrived. -/
def placedBy : StateCall → MQTTStatus → List UInt16
  | .reserve packetId qos, .success => if qos = .qos0 then [] else [packetId]
  | .ack packetId .pubrec .receive, .success => [packetId]
  | _, _ => []

theorem placedBy_reserve_of_ne {packetId : UInt16} {qos : MQTTQoS} {status : MQTTStatus} (h : status ≠ .success) :
    placedBy (.reserve packetId qos) status = [] := by
  cases status <;> first | rfl | exact absurd rfl h

/-- The identifiers that a run put behind the others, the most recent first. -/
def placed (ctx : PublishContext) : List StateCall → List UInt16 → List UInt16
  | [], earlier => earlier
  | call :: calls, earlier =>
    let result := call.run ctx
    placed result.records calls (placedBy call result.status ++ earlier)

/-- A record is behind another when it was put there later. -/
def InOrder (items : List MQTTPubAckInfo) (placed : List UInt16) : Prop :=
  (items.map (·.packetId)).Pairwise fun first second => placed.idxOf second < placed.idxOf first

namespace InOrder

variable {items : List MQTTPubAckInfo} {placed : List UInt16}

/-- A new record goes behind the others. -/
theorem concat (h : InOrder items placed) (record : MQTTPubAckInfo)
    (hnew : record.packetId ∉ items.map (·.packetId)) :
    InOrder (items ++ [record]) (record.packetId :: placed) := by
  have hother : ∀ packetId ∈ items.map (·.packetId),
      (record.packetId :: placed).idxOf packetId = placed.idxOf packetId + 1 := by
    intro packetId hmem
    exact List.idxOf_cons_ne _ fun heq => hnew (heq ▸ hmem)
  unfold InOrder
  rw [List.map_append, List.map_singleton, List.pairwise_append]
  refine ⟨?_, List.pairwise_singleton _ _, ?_⟩
  · refine List.Pairwise.imp_of_mem ?_ h
    intro first second hfirst hsecond hlt
    rw [hother first hfirst, hother second hsecond]
    omega
  · intro first hfirst last hlast
    rw [List.mem_singleton.1 hlast, List.idxOf_cons_self, hother first hfirst]
    omega

theorem move {queue : PublishQueue .outgoing} (h : InOrder queue.items placed) {record : MQTTPubAckInfo}
    (hmem : record ∈ queue.items) (newState : MQTTPublishState) :
    InOrder (moveRecord queue.items record newState)
      ((if newState = .pubRelSend then [record.packetId] else []) ++ placed) := by
  obtain ⟨before, after, hitems⟩ := List.append_of_mem hmem
  have hdistinct := queue.distinct
  rw [hitems] at h hdistinct ⊢
  rw [moveRecord_split hdistinct]
  have hothers : InOrder (before ++ after) placed :=
    List.Pairwise.sublist (((List.sublist_cons_self record after).append_left before).map _) h
  by_cases hdone : newState = .publishDone
  · rw [if_pos hdone, if_neg (by rw [hdone]; nofun)]
    exact hothers
  · rw [if_neg hdone]
    split
    · refine hothers.concat { record with publishState := newState } ?_
      rw [List.map_append, List.map_cons, List.nodup_middle, List.nodup_cons, ← List.map_append] at hdistinct
      exact hdistinct.1
    · unfold InOrder at h ⊢
      rw [List.map_append, List.map_cons] at h ⊢
      exact h

end InOrder

/-- A PUBREC that arrives is the only acknowledgement that puts a record behind the others. -/
theorem handshake_eq_pubRelSend_iff {state newState : MQTTPublishState} {packetType : MQTTPubAckType}
    {opType : MQTTStateOperation} (hstep : handshake state packetType opType = some newState) :
    newState = .pubRelSend ↔ packetType = .pubrec ∧ opType = .receive := by
  cases state <;> cases packetType <;> cases opType <;> cases hstep <;> decide

theorem InOrder.ack {queue : PublishQueue .outgoing} {placed : List UInt16} (h : InOrder queue.items placed)
    (packetId : UInt16) (packetType : MQTTPubAckType) (opType : MQTTStateOperation) :
    InOrder (queue.ack packetId packetType opType).records.items
      (placedBy (.ack packetId packetType opType) (queue.ack packetId packetType opType).status ++ placed) := by
  cases hfind : queue.find packetId with
  | none =>
    rw [PublishQueue.ack, PublishQueue.advance_of_absent _ _ _ _ hfind]
    cases packetType <;> cases opType <;> exact h
  | some record =>
    obtain ⟨hmem, hid⟩ := PublishQueue.mem_of_find hfind
    cases hstep : handshake record.publishState packetType opType with
    | none =>
      rw [PublishQueue.ack, PublishQueue.advance_of_illegal _ _ _ _ hfind hstep]
      cases packetType <;> cases opType <;> exact h
    | some newState =>
      obtain ⟨hstatus, -, hitems⟩ := PublishQueue.ack_of_step hfind hstep
      have hmove := h.move hmem newState
      rw [hitems, hstatus]
      by_cases hrel : newState = .pubRelSend
      · obtain ⟨rfl, rfl⟩ := (handshake_eq_pubRelSend_iff hstep).1 hrel
        rw [if_pos hrel, hid] at hmove
        exact hmove
      · rw [if_neg hrel] at hmove
        have hplaced : placedBy (.ack packetId packetType opType) .success = [] := by
          cases packetType <;> cases opType <;>
            first | rfl | exact absurd ((handshake_eq_pubRelSend_iff hstep).2 ⟨rfl, rfl⟩) hrel
        rw [hplaced]
        exact hmove

theorem InOrder.sent {queue : PublishQueue .outgoing} {placed : List UInt16} (h : InOrder queue.items placed)
    (packetId : UInt16) (qos : MQTTQoS) : InOrder (queue.sent packetId qos).records.items placed := by
  cases hfind : (queue.find packetId).filter fun record => record.qos == qos with
  | none =>
    rw [PublishQueue.sent, PublishQueue.advance_of_absent _ _ _ _ hfind]
    exact h
  | some record =>
    obtain ⟨hsome, hsame⟩ := Option.filter_eq_some_iff.1 hfind
    rw [← eq_of_beq hsame] at hfind ⊢
    cases hstep : handshakePublish record.qos record.publishState with
    | none =>
      rw [PublishQueue.sent, PublishQueue.advance_of_illegal _ _ _ _ hfind hstep]
      exact h
    | some newState =>
      have hmove := h.move (PublishQueue.mem_of_find hsome).1 newState
      have hrel : newState ≠ .pubRelSend := by
        rintro rfl
        cases hqos : record.qos <;> cases hstate : record.publishState <;> rw [hqos, hstate] at hstep <;> cases hstep
      rw [if_neg hrel] at hmove
      rw [(PublishQueue.sent_of_step hsome hstep).2.2]
      exact hmove

/-- One call. -/
theorem InOrder.call {progress : PublishProgress} {placed : List UInt16}
    (h : InOrder progress.outgoing.items placed) (call : StateCall) :
    InOrder (progress.call call).records.outgoing.items
      (placedBy call (progress.call call).status ++ placed) := by
  cases call with
  | reserve packetId qos =>
    simp only [PublishProgress.call]
    by_cases hqos : qos = .qos0
    · simp only [dif_pos hqos, placedBy, if_pos hqos]
      exact h
    · by_cases hid : packetId = 0
      · simp only [dif_neg hqos, dif_pos hid, placedBy]
        exact h
      · simp only [dif_neg hqos, dif_neg hid]
        rcases progress.outgoing.add_cases ⟨packetId, qos, .publishSend⟩ hid
          (legal_reserved hqos) with ⟨hadd, hnew, hitems⟩ | ⟨hadd, hitems⟩
        · rw [hitems, hadd]
          simp only [placedBy, if_neg hqos]
          exact h.concat _ hnew
        · rw [hitems]
          rw [placedBy_reserve_of_ne hadd]
          exact h
  | publish packetId opType qos =>
    show InOrder _ placed
    simp only [PublishProgress.call]
    split
    · exact h
    · split
      · exact h
      · cases opType with
        | send => exact h.sent packetId qos
        | receive => exact h
  | ack packetId packetType opType =>
    simp only [PublishProgress.call]
    split
    · cases packetType <;> cases opType <;> exact h
    · split
      · exact h.ack packetId packetType opType
      · rename_i hincoming
        cases packetType <;> cases opType <;> first | exact h | exact absurd rfl hincoming
  | reset => exact List.Pairwise.nil

/-- In every run the outgoing records stand in the order in which they were reserved, or their PUBRECs arrived. -/
theorem outgoing_in_order (calls : List StateCall) :
    InOrder (StateCall.runs .zero calls).2.outgoingPublishRecords.queue (placed .zero calls []) := by
  have hrun : ∀ (ctx : PublishContext) (progress : PublishProgress) (earlier : List UInt16),
      ctx.Represents progress → InOrder progress.outgoing.items earlier →
        InOrder (StateCall.runs ctx calls).2.outgoingPublishRecords.queue (placed ctx calls earlier) := by
    induction calls with
    | nil => exact fun ctx progress earlier hrep h => by rw [StateCall.runs, hrep.outgoing]; exact h
    | cons call calls ih =>
      intro ctx progress earlier hrep h
      have hcall := hrep.run call
      have hnext := h.call call
      rw [← hcall.status] at hnext
      exact ih _ _ _ hcall.records hnext
  exact hrun _ _ _ .zero List.Pairwise.nil

/-- The call of a run that put the record of an identifier behind the others last. -/
def lastPlacement (ctx : PublishContext) (packetId : UInt16) : List StateCall → Option StateCall → Option StateCall
  | [], last => last
  | call :: calls, last =>
    let result := call.run ctx
    lastPlacement result.records packetId calls (if packetId ∈ placedBy call result.status then some call else last)

/-- The records for which a PUBREL can be sent were put where they are by their PUBRECs. -/
def PlacedByPubrec (items : List MQTTPubAckInfo) (last : UInt16 → Option StateCall) : Prop :=
  ∀ record ∈ items, record.publishState ∈ pubrelStates →
    last record.packetId = some (.ack record.packetId .pubrec .receive)

theorem handshake_eq_pubCompPending {state : MQTTPublishState} {packetType : MQTTPubAckType}
    {opType : MQTTStateOperation} (hstep : handshake state packetType opType = some .pubCompPending) :
    state ∈ pubrelStates := by
  cases state <;> cases packetType <;> cases opType <;> cases hstep <;> decide

theorem mem_placedBy_ack {packetId placed : UInt16} {packetType : MQTTPubAckType} {opType : MQTTStateOperation}
    {status : MQTTStatus} (h : placed ∈ placedBy (.ack packetId packetType opType) status) :
    packetType = .pubrec ∧ opType = .receive ∧ placed = packetId := by
  cases packetType <;> cases opType <;> cases status <;>
    first | exact absurd h List.not_mem_nil | exact ⟨rfl, rfl, List.mem_singleton.1 h⟩

namespace PlacedByPubrec

/-- The last placements behind a call. -/
def lastBehind (call : StateCall) (status : MQTTStatus) (last : UInt16 → Option StateCall) : UInt16 → Option StateCall :=
  fun packetId => if packetId ∈ placedBy call status then some call else last packetId

theorem ack {queue : PublishQueue .outgoing} {last : UInt16 → Option StateCall} (h : PlacedByPubrec queue.items last)
    (packetId : UInt16) (packetType : MQTTPubAckType) (opType : MQTTStateOperation) :
    PlacedByPubrec (queue.ack packetId packetType opType).records.items
      (lastBehind (.ack packetId packetType opType) (queue.ack packetId packetType opType).status last) := by
  have hkept : ∀ status, PlacedByPubrec queue.items (lastBehind (.ack packetId packetType opType) status last) := by
    intro status record hmem hstate
    unfold lastBehind
    split
    · rename_i hplaced
      obtain ⟨rfl, rfl, rfl⟩ := mem_placedBy_ack hplaced
      rfl
    · exact h record hmem hstate
  cases hfind : queue.find packetId with
  | none =>
    rw [PublishQueue.ack, PublishQueue.advance_of_absent _ _ _ _ hfind]
    exact hkept _
  | some record =>
    obtain ⟨hmem, rfl⟩ := PublishQueue.mem_of_find hfind
    cases hstep : handshake record.publishState packetType opType with
    | none =>
      rw [PublishQueue.ack, PublishQueue.advance_of_illegal _ _ _ _ hfind hstep]
      exact hkept _
    | some newState =>
      obtain ⟨hstatus, -, hitems⟩ := PublishQueue.ack_of_step hfind hstep
      rw [hitems, hstatus]
      intro r hr hstate
      rcases queue.mem_moveRecord hmem hr with hr | ⟨-, rfl⟩
      · exact hkept .success r hr hstate
      · rcases PublishSession.mem_pubrelStates.1 hstate with hpending | hsend
        · cases hpending
          exact hkept .success record hmem (handshake_eq_pubCompPending hstep)
        · cases hsend
          obtain ⟨rfl, rfl⟩ := (handshake_eq_pubRelSend_iff hstep).1 rfl
          exact if_pos (List.mem_singleton.2 rfl)

theorem sent {queue : PublishQueue .outgoing} {last : UInt16 → Option StateCall} (h : PlacedByPubrec queue.items last)
    (packetId : UInt16) (qos : MQTTQoS) : PlacedByPubrec (queue.sent packetId qos).records.items last := by
  cases hfind : (queue.find packetId).filter fun record => record.qos == qos with
  | none =>
    rw [PublishQueue.sent, PublishQueue.advance_of_absent _ _ _ _ hfind]
    exact h
  | some record =>
    obtain ⟨hsome, hsame⟩ := Option.filter_eq_some_iff.1 hfind
    rw [← eq_of_beq hsame] at hfind ⊢
    cases hstep : handshakePublish record.qos record.publishState with
    | none =>
      rw [PublishQueue.sent, PublishQueue.advance_of_illegal _ _ _ _ hfind hstep]
      exact h
    | some newState =>
      rw [(PublishQueue.sent_of_step hsome hstep).2.2]
      intro r hr hstate
      rcases queue.mem_moveRecord (PublishQueue.mem_of_find hsome).1 hr with hr | ⟨-, rfl⟩
      · exact h r hr hstate
      · -- a PUBLISH that was sent waits for a PUBACK or a PUBREC
        have hnot : newState ∉ pubrelStates := by
          cases hqos : record.qos <;> cases hold : record.publishState <;> rw [hqos, hold] at hstep <;> cases hstep <;>
            decide
        exact absurd hstate hnot

/-- One call. -/
theorem call {progress : PublishProgress} {last : UInt16 → Option StateCall}
    (h : PlacedByPubrec progress.outgoing.items last) (call : StateCall) :
    PlacedByPubrec (progress.call call).records.outgoing.items
      (lastBehind call (progress.call call).status last) := by
  have hkept : ∀ {status}, placedBy call status = [] →
      PlacedByPubrec progress.outgoing.items (lastBehind call status last) := by
    intro status hplaced record hmem hstate
    rw [lastBehind, hplaced, if_neg List.not_mem_nil]
    exact h record hmem hstate
  cases call with
  | reserve packetId qos =>
    simp only [PublishProgress.call]
    by_cases hqos : qos = .qos0
    · rw [dif_pos hqos]
      exact hkept (by rw [placedBy, if_pos hqos])
    · by_cases hid : packetId = 0
      · rw [dif_neg hqos, dif_pos hid]
        exact hkept rfl
      · rw [dif_neg hqos, dif_neg hid]
        rcases progress.outgoing.add_cases ⟨packetId, qos, .publishSend⟩ hid
          (legal_reserved hqos) with ⟨hadd, hnew, hitems⟩ | ⟨hadd, hitems⟩
        · intro record hmem hstate
          rw [hitems, List.mem_append, List.mem_singleton] at hmem
          rcases hmem with hmem | rfl
          · have hother : record.packetId ≠ packetId := by
              rintro rfl
              exact hnew (List.mem_map.2 ⟨record, hmem, rfl⟩)
            rw [lastBehind, hadd, placedBy, if_neg hqos, if_neg (mt List.mem_singleton.1 hother)]
            exact h record hmem hstate
          · have hnot : MQTTPublishState.publishSend ∉ pubrelStates := by decide
            exact absurd hstate hnot
        · rw [hitems]
          exact hkept (placedBy_reserve_of_ne hadd)
  | publish packetId opType qos =>
    refine fun record hmem hstate => ?_
    show last record.packetId = _
    simp only [PublishProgress.call] at hmem
    split at hmem
    · exact h record hmem hstate
    · split at hmem
      · exact h record hmem hstate
      · cases opType with
        | send => exact h.sent packetId qos record hmem hstate
        | receive => exact h record hmem hstate
  | ack packetId packetType opType =>
    simp only [PublishProgress.call]
    split
    · exact hkept (by cases packetType <;> cases opType <;> rfl)
    · split
      · exact h.ack packetId packetType opType
      · rename_i hincoming
        refine hkept ?_
        cases packetType <;> cases opType <;> first | rfl | exact absurd rfl hincoming
  | reset => exact fun record hmem => absurd hmem List.not_mem_nil

end PlacedByPubrec

/-- In every run a record for which a PUBREL can be sent was placed last by its PUBREC. -/
theorem outgoing_placedByPubrec (calls : List StateCall) :
    PlacedByPubrec (StateCall.runs .zero calls).2.outgoingPublishRecords.queue
      fun packetId => lastPlacement .zero packetId calls none := by
  have hrun : ∀ (ctx : PublishContext) (progress : PublishProgress) (last : UInt16 → Option StateCall),
      ctx.Represents progress → PlacedByPubrec progress.outgoing.items last →
        PlacedByPubrec (StateCall.runs ctx calls).2.outgoingPublishRecords.queue
          fun packetId => lastPlacement ctx packetId calls (last packetId) := by
    induction calls with
    | nil => exact fun ctx progress last hrep h => by rw [StateCall.runs, hrep.outgoing]; exact h
    | cons call calls ih =>
      intro ctx progress last hrep h
      have hcall := hrep.run call
      have hnext := h.call call
      rw [← hcall.status] at hnext
      exact ih _ _ _ hcall.records hnext
  exact hrun _ _ _ .zero fun record hmem => absurd hmem List.not_mem_nil

/-! ### What a resumed session sends -/

private theorem forall_split_cons {α : Type} {Q : α → List α → Prop} {a : α} {l : List α} :
    (∀ front e back, a :: l = front ++ e :: back → Q e back) ↔
      Q a l ∧ ∀ front e back, l = front ++ e :: back → Q e back := by
  constructor
  · intro h
    exact ⟨h [] a l rfl, fun front e back hl => h (a :: front) e back (by rw [hl]; rfl)⟩
  · rintro ⟨ha, hl⟩ front e back h
    cases front with
    | nil =>
      obtain ⟨rfl, rfl⟩ := List.cons.inj h
      exact ha
    | cons b front => exact hl front e back (List.cons.inj h).2

/-- No record that is searched for stands behind a slot that was vacated in one of the states. -/
def Unobstructed (searchStates : List MQTTPublishState) (slots : List MQTTPubAckInfo) : Prop :=
  ∀ front vacant back, slots = front ++ vacant :: back →
    vacant.packetId = 0 → vacant.publishState ∈ searchStates →
      ∀ record ∈ back, record.packetId ≠ 0 → record.publishState ∉ searchStates

/-- The search finds all the records it is for exactly when nothing obstructs it. -/
theorem selected_eq_iff (searchStates : List MQTTPublishState) (slots : List MQTTPubAckInfo) :
    selected searchStates slots =
        (live MQTTPubAckInfo.used slots).filter (fun record => record.publishState ∈ searchStates) ↔
      Unobstructed searchStates slots := by
  induction slots with
  | nil => simp [selected, live, Unobstructed]
  | cons record rest ih =>
    unfold Unobstructed at ih ⊢
    rw [forall_split_cons, ← ih, selected_cons]
    by_cases hstate : record.publishState ∈ searchStates
    · rw [if_pos hstate]
      by_cases hid : record.packetId = 0
      · -- the search ends here
        have hvacant : record.used = false := MQTTPubAckInfo.used_eq_false_iff.2 hid
        rw [live_cons_vacant hvacant, hvacant, if_neg Bool.false_ne_true, eq_comm, List.filter_eq_nil_iff]
        constructor
        · intro h
          have hback : ∀ r ∈ rest, r.packetId ≠ 0 → r.publishState ∉ searchStates := fun r hr hne hin =>
            h r (List.mem_filter.2 ⟨hr, MQTTPubAckInfo.used_iff.2 hne⟩) (by simpa using hin)
          refine ⟨fun _ _ => hback, ih.2 ?_⟩
          intro front vacant back hrest _ _ r hr
          exact hback r (by rw [hrest]; exact List.mem_append_right _ (List.mem_cons_of_mem _ hr))
        · rintro ⟨h, -⟩ r hr hin
          obtain ⟨hmem, hused⟩ := List.mem_filter.1 hr
          exact h hid hstate r hmem (MQTTPubAckInfo.used_iff.1 hused) (by simpa using hin)
      · have hused : record.used = true := MQTTPubAckInfo.used_iff.2 hid
        rw [live_cons_used hused, if_pos hused, List.filter_cons_of_pos (by simpa using hstate), List.cons_inj_right]
        exact ⟨fun h => ⟨fun hzero => absurd hzero hid, h⟩, fun h => h.2⟩
    · rw [if_neg hstate]
      have hskip : (live MQTTPubAckInfo.used (record :: rest)).filter (fun r => r.publishState ∈ searchStates) =
          (live MQTTPubAckInfo.used rest).filter (fun r => r.publishState ∈ searchStates) := by
        by_cases hused : record.used = true
        · rw [live_cons_used hused, List.filter_cons_of_neg (by simpa using hstate)]
        · rw [live_cons_vacant (by simpa using hused)]
      rw [hskip]
      exact ⟨fun h => ⟨fun _ hin => absurd hin hstate, h⟩, fun h => h.2⟩

/-- What the search finds is in the order of the records. -/
theorem selected_sublist (searchStates : List MQTTPublishState) (slots : List MQTTPubAckInfo) :
    (selected searchStates slots).Sublist (live MQTTPubAckInfo.used slots) := by
  have hused : ∀ record ∈ selected searchStates slots, record.used = true := fun record h =>
    List.mem_takeWhile_imp h
  have hsub : (selected searchStates slots).Sublist slots :=
    (List.takeWhile_sublist _).trans List.filter_sublist
  have hfilter := hsub.filter MQTTPubAckInfo.used
  rwa [List.filter_eq_self.2 hused] at hfilter

theorem mem_selected {searchStates : List MQTTPublishState} {slots : List MQTTPubAckInfo} {record : MQTTPubAckInfo}
    (h : record ∈ selected searchStates slots) : record.publishState ∈ searchStates := by
  have hmem := (List.takeWhile_sublist _).subset h
  simpa using (List.mem_filter.1 hmem).2

/-- A session that is resumed behind any run, over a connection that takes every PUBREL: they go out for the records that
the search finds, in the order in which these were placed, which their PUBRECs did last, and for all records that wait
for a PUBCOMP exactly when nothing obstructs the search. -/
theorem handleSessionResumption_resends {κ υ : Type} (calls : List StateCall) (w : World κ υ)
    (log : List PublishEvent) :
    let ctx := (StateCall.runs .zero calls).2
    let slots := ctx.outgoingPublishRecords.slots
    let resumed := PublishSession.handleSessionResumption true (fun _ => true) ⟨w, ctx, log⟩
    resumed.1 = .success ∧
      resumed.2.log = log ++ (selected pubrelStates slots).map (fun record => .ack .send record.packetId .pubrel) ∧
      InOrder (selected pubrelStates slots) (placed .zero calls []) ∧
      (∀ record ∈ selected pubrelStates slots,
        lastPlacement .zero record.packetId calls none = some (.ack record.packetId .pubrec .receive)) ∧
      (selected pubrelStates slots =
          ctx.outgoingPublishRecords.queue.filter (fun record => record.publishState ∈ pubrelStates) ↔
        Unobstructed pubrelStates slots) := by
  intro ctx slots resumed
  have hrep : ctx.Represents (PublishProgress.empty.calls calls).2 := (PublishContext.Represents.zero.runs calls).2
  have hlength : slots.length < mqttStateArrayMaxCount + 1 := by
    rw [ctx.outgoingPublishRecords.length_slots]
    omega
  obtain ⟨sent, unsent, hfound, hlog, hstatus⟩ := PublishSession.resendPubrels_from
    (s := ⟨w, ctx, log⟩) (fun _ => true) [] slots hrep rfl hlength
  obtain ⟨hsuccess, rfl⟩ := hstatus.resolve_right fun h => by
    obtain ⟨-, index, hindex⟩ := h
    cases hindex
  rw [List.append_nil] at hfound
  have hsublist := selected_sublist pubrelStates slots
  refine ⟨hsuccess, ?_, ?_, ?_, selected_eq_iff pubrelStates slots⟩
  · rw [show selected pubrelStates slots = sent from hfound]
    exact hlog
  · exact List.Pairwise.sublist (hsublist.map _) (outgoing_in_order calls)
  · exact fun record hmem => outgoing_placedByPubrec calls record (hsublist.subset hmem) (mem_selected hmem)

/-- Behind a completed publish of QoS 2 the search finds nothing, though the second one waits for its PUBCOMP. -/
example :
    let calls : List StateCall := [.reserve 1 .qos2, .publish 1 .send .qos2, .reserve 2 .qos2, .publish 2 .send .qos2,
      .ack 1 .pubrec .receive, .ack 1 .pubrel .send, .ack 2 .pubrec .receive, .ack 2 .pubrel .send,
      .ack 1 .pubcomp .receive]
    let records := (StateCall.runs .zero calls).2.outgoingPublishRecords
    selected pubrelStates records.slots = [] ∧ records.queue = [⟨2, .qos2, .pubCompPending⟩] := by
  decide

end TuyaDaemon
