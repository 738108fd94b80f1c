import TuyaDaemon.Daemon.PendingSubscription

/-!
# What a send returns

Runs of `tuyalink_message_send` from `tuya_mqtt_init`, for messages without an identifier of their own.  Every attempt
that gets memory takes the next value of the 32-bit counter, accepted or not, prints it as an `int` and returns it as
an `int` (`SendCall.run_spec`).  So the sign of the result tells what happened, and the identifiers differ, as long as
the values of the accepted attempts are below `2^31` and different, both modulo `2^32` (`sendAll_identified_iff`).
-/

namespace TuyaDaemon

open CLib

/-! ### Runs of sends -/

/-- A send with what the environment answers: the message has no identifier of its own, and its type is an entry of
the table. -/
structure SendCall where
  env : SendEnv
  /-- what `MQTT_Publish` returns -/
  publish : MQTTStatus
  message : TuyalinkMessage CString
  noMsgid : hasMsgid message.msgid = false
  entry : message.type.toIndex < 49

/-- What a send returned, and what it added to the trace. -/
structure SendOutcome where
  rc : Int
  events : List (Event TuyaMqttContext)

def SendCall.run (call : SendCall) (w : LinkWorld) : Option (Int × LinkWorld) :=
  sendOver (fun context => tuyalinkMessageSend call.env (publishWith call.publish) context call.message) w

/-- The sends of a run, one after the other. -/
def sendAll : List SendCall → LinkWorld → Option (List SendOutcome)
  | [], _ => some []
  | call :: rest, w =>
    match call.run w with
    | none => none
    | some (rc, w') => (sendAll rest w').map fun sends => ⟨rc, w'.trace.drop w.trace.length⟩ :: sends

/-- The payload that `mqtt_client_publish` accepted: it returned an identifier other than `0`. -/
def SendOutcome.accepted (s : SendOutcome) : Option (List UInt8) :=
  match s.events with
  | [.publish id _ payload status] => if sentId id status = 0 then none else some payload
  | _ => none

/-- The text of the first member of a payload, when that is `msgId`. -/
def msgidText (payload : List UInt8) : Option (List UInt8) :=
  if bytes "\x7b\"msgId\":\"" <+: payload then some ((payload.drop 10).takeWhile (· ≠ Json.dquote)) else none

/-- `LOG_ERR`, `LOG_INFO` -/
inductive LogPriority where
  | err
  | info
deriving DecidableEq, Repr

/-- The last log of `telemetry_report`, for what `tuya_client_report` returned. -/
def reportLog (ret : Int) : LogPriority := if ret < 0 then .err else .info

/-- The results identify the messages: a result is not negative exactly when the message was accepted, in decimal it
is the identifier in the payload, and no two accepted payloads have the same one. -/
structure SendsIdentified (sends : List SendOutcome) : Prop where
  sign : ∀ s ∈ sends, 0 ≤ s.rc ↔ s.accepted ≠ none
  carried : ∀ s ∈ sends, ∀ payload, s.accepted = some payload → msgidText payload = some (formatInt s.rc)
  distinct : ((sends.filterMap SendOutcome.accepted).map msgidText).Nodup
  logged : ∀ s ∈ sends, reportLog s.rc = .info ↔ s.accepted ≠ none

/-- For each accepted send of a run, how many attempts got memory before it; `n` did before the run. -/
def acceptedAttempts : Nat → List SendCall → List Nat
  | _, [] => []
  | n, call :: rest =>
    if call.env.allocOk then
      if call.publish = .success then n :: acceptedAttempts (n + 1) rest else acceptedAttempts (n + 1) rest
    else acceptedAttempts n rest

/-- No accepted attempt comes when the counter is in its upper half, and no two when it has the same value. -/
structure AttemptsFit (attempts : List Nat) : Prop where
  small : ∀ n ∈ attempts, n % 2 ^ 32 < 2 ^ 31
  apart : (attempts.map (· % 2 ^ 32)).Nodup

/-! ### One send -/

private theorem dquote_notMem_formatD (n : UInt32) : Json.dquote ∉ formatD n := by
  have hdecimal : ∀ k : Nat, Json.dquote ∉ decimal k := by
    intro k hk
    exact absurd (decimal_digits hk).1 (by decide)
  have hminus : Json.dquote ≠ 45 := by decide
  unfold formatD formatInt
  split
  · simp [hdecimal, hminus]
  · exact hdecimal _

theorem msgidText_start (n : UInt32) (tail : List UInt8) :
    msgidText (bytes "\x7b\"msgId\":\"" ++ (formatD n ++ (bytes "\"" ++ tail))) = some (formatD n) := by
  have hdrop : (bytes "\x7b\"msgId\":\"" ++ (formatD n ++ (bytes "\"" ++ tail))).drop 10 =
      formatD n ++ (bytes "\"" ++ tail) := List.drop_left' (by decide)
  have hquote : bytes "\"" = [Json.dquote] := by decide
  rw [msgidText, if_pos (List.prefix_append _ _), hdrop, List.takeWhile_append_of_pos, hquote]
  · simp
  · intro c hc
    rw [decide_eq_true_eq]
    rintro rfl
    exact dquote_notMem_formatD n hc

/-- What a send does: it has no memory, or it publishes the value of the counter and returns it as an `int`. -/
theorem SendCall.run_spec (call : SendCall) (w : LinkWorld) :
    call.env.allocOk = false ∧ call.run w = some (oprtMallocFailed, w) ∨
      call.env.allocOk = true ∧ ∃ w' topic payload,
        call.run w = some (if sentId w.mqclient.nextPacketId call.publish = 0 then oprtLinkCoreMqttPublishError
          else asInt w.user.msgidInc, w') ∧
        w'.mqclient = (mqttGetPacketId w.mqclient).2 ∧
        w'.user.msgidInc = w.user.msgidInc + 1 ∧
        w'.trace = w.trace ++ [.publish w.mqclient.nextPacketId topic payload call.publish] ∧
        msgidText payload = some (formatD w.user.msgidInc) := by
  cases halloc : call.env.allocOk with
  | false =>
    left
    refine ⟨rfl, ?_⟩
    simp only [SendCall.run, sendOver, tuyalinkMessageSend, suffix_get call.entry, halloc, Bool.false_eq_true, ite_false,
      Option.map_some]
  | true =>
    right
    obtain ⟨p, tail, hsend, htext⟩ :=
      send_unnamed halloc (publishWith call.publish) w.user call.noMsgid call.entry w
    refine ⟨rfl, { (publishWith call.publish p w).2 with user := { w.user with msgidInc := w.user.msgidInc + 1 } },
      p.topic, p.payload.mem.take p.length, ?_, rfl, rfl, rfl, ?_⟩
    · rw [SendCall.run, sendOver, hsend]
      rfl
    · rw [htext]
      exact msgidText_start _ _

/-! ### The run -/

/-- The accepted sends return the counter of their attempts and carry it; the others return an error. -/
structure DescribedBy (attempts : List Nat) (sends : List SendOutcome) : Prop where
  accepted : (sends.filterMap fun s => s.accepted.map fun payload => (s.rc, msgidText payload)) =
    attempts.map fun n => (asInt (UInt32.ofNat n), some (formatD (UInt32.ofNat n)))
  refused : ∀ s ∈ sends, s.accepted = none → s.rc < 0

theorem DescribedBy.refuse {attempts : List Nat} {sends : List SendOutcome} (h : DescribedBy attempts sends)
    {s : SendOutcome} (hs : s.accepted = none) (hrc : s.rc < 0) : DescribedBy attempts (s :: sends) := by
  refine ⟨?_, ?_⟩
  · rw [List.filterMap_cons_none (by rw [hs]; rfl)]
    exact h.accepted
  · intro s' hs'
    rcases List.mem_cons.1 hs' with rfl | hs'
    · exact fun _ => hrc
    · exact h.refused s' hs'

theorem DescribedBy.accept {attempts : List Nat} {sends : List SendOutcome} (h : DescribedBy attempts sends) {n : Nat}
    {s : SendOutcome} {payload : List UInt8} (hs : s.accepted = some payload) (hrc : s.rc = asInt (UInt32.ofNat n))
    (htext : msgidText payload = some (formatD (UInt32.ofNat n))) : DescribedBy (n :: attempts) (s :: sends) := by
  refine ⟨?_, ?_⟩
  · rw [List.filterMap_cons_some (b := (s.rc, msgidText payload)) (by rw [hs]; rfl), List.map_cons, hrc, htext,
      h.accepted]
  · intro s' hs' hnone
    rcases List.mem_cons.1 hs' with rfl | hs'
    · rw [hs] at hnone
      cases hnone
    · exact h.refused s' hs' hnone

/-- A run makes all its sends; in it the counter counts the attempts that got memory. -/
theorem sendAll_described (calls : List SendCall) {w : LinkWorld} (hid : w.mqclient.nextPacketId ≠ 0) {n : Nat}
    (hn : w.user.msgidInc = UInt32.ofNat n) :
    ∃ sends, sendAll calls w = some sends ∧ sends.length = calls.length ∧
      DescribedBy (acceptedAttempts n calls) sends := by
  induction calls generalizing w n with
  | nil => exact ⟨[], rfl, rfl, rfl, fun s hs => absurd hs (by simp)⟩
  | cons call rest ih =>
    rcases call.run_spec w with ⟨halloc, hrun⟩ | ⟨halloc, w', topic, payload, hrun, hclient, hcounter, htrace, htext⟩
    · obtain ⟨sends, hsends, hlength, hdescribed⟩ := ih hid hn
      refine ⟨_, by simp only [sendAll, hrun, hsends, Option.map_some]; rfl, by simp [hlength], ?_⟩
      rw [acceptedAttempts, if_neg (by simp [halloc])]
      refine hdescribed.refuse ?_ (show oprtMallocFailed < 0 by decide)
      rw [SendOutcome.accepted, List.drop_length]
    · have hid' : w'.mqclient.nextPacketId ≠ 0 := by
        rw [hclient]
        exact mqttGetPacketId_ne_zero _ hid
      have hn' : w'.user.msgidInc = UInt32.ofNat (n + 1) := by
        rw [hcounter, hn]
        simp
      obtain ⟨sends, hsends, hlength, hdescribed⟩ := ih hid' hn'
      refine ⟨_, by simp only [sendAll, hrun, hsends, Option.map_some]; rfl, by simp [hlength], ?_⟩
      rw [acceptedAttempts, if_pos halloc, htrace, List.drop_left]
      by_cases hstatus : call.publish = .success
      · have hsent : sentId w.mqclient.nextPacketId call.publish ≠ 0 := by
          rw [sentId, if_neg (by simp [hstatus])]
          exact hid
        rw [if_pos hstatus, if_neg hsent]
        refine hdescribed.accept (if_neg hsent) ?_ ?_
        · rw [hn]
        · rw [htext, hn]
      · have hsent : sentId w.mqclient.nextPacketId call.publish = 0 := by rw [sentId, if_pos hstatus]
        rw [if_neg hstatus, if_pos hsent]
        exact hdescribed.refuse (if_pos hsent) (show oprtLinkCoreMqttPublishError < 0 by decide)

private theorem asInt_ofNat_nonneg_iff (n : Nat) : 0 ≤ asInt (UInt32.ofNat n) ↔ n % 2 ^ 32 < 2 ^ 31 := by
  unfold asInt
  rw [UInt32.toNat_ofNat']
  split <;> omega

/-- An accepted send is one of the attempts. -/
theorem DescribedBy.attempt {attempts : List Nat} {sends : List SendOutcome} (h : DescribedBy attempts sends)
    {s : SendOutcome} (hs : s ∈ sends) {payload : List UInt8} (hpayload : s.accepted = some payload) :
    ∃ n ∈ attempts, s.rc = asInt (UInt32.ofNat n) ∧ msgidText payload = some (formatD (UInt32.ofNat n)) := by
  have hmem : (s.rc, msgidText payload) ∈
      sends.filterMap fun s => s.accepted.map fun payload => (s.rc, msgidText payload) :=
    List.mem_filterMap.2 ⟨s, hs, by rw [hpayload]; rfl⟩
  rw [h.accepted] at hmem
  obtain ⟨n, hn, heq⟩ := List.mem_map.1 hmem
  rw [Prod.mk.injEq] at heq
  exact ⟨n, hn, heq.1.symm, heq.2.symm⟩

/-- Each attempt is one of the accepted sends. -/
theorem DescribedBy.send {attempts : List Nat} {sends : List SendOutcome} (h : DescribedBy attempts sends) {n : Nat}
    (hn : n ∈ attempts) : ∃ s ∈ sends, s.accepted ≠ none ∧ s.rc = asInt (UInt32.ofNat n) := by
  have hmem : (asInt (UInt32.ofNat n), some (formatD (UInt32.ofNat n))) ∈
      attempts.map fun n => (asInt (UInt32.ofNat n), some (formatD (UInt32.ofNat n))) := List.mem_map_of_mem hn
  rw [← h.accepted] at hmem
  obtain ⟨s, hs, heq⟩ := List.mem_filterMap.1 hmem
  obtain ⟨payload, hpayload, heq⟩ := Option.map_eq_some_iff.1 heq
  rw [Prod.mk.injEq] at heq
  exact ⟨s, hs, by simp [hpayload], heq.1⟩

/-- The identifier that is printed for a value of the counter. -/
private def counterText (k : Nat) : Option (List UInt8) := some (formatD (UInt32.ofNat k))

private theorem counterText_eq_iff (n m : Nat) : counterText n = counterText m ↔ n % 2 ^ 32 = m % 2 ^ 32 := by
  rw [counterText, counterText, Option.some_inj]
  constructor
  · intro h
    have hword := congrArg UInt32.toNat (formatD_injective h)
    rwa [UInt32.toNat_ofNat', UInt32.toNat_ofNat'] at hword
  · intro h
    congr 1
    apply UInt32.toNat_inj.1
    rw [UInt32.toNat_ofNat', UInt32.toNat_ofNat', h]

/-- The identifiers of the accepted payloads. -/
theorem DescribedBy.texts {attempts : List Nat} {sends : List SendOutcome} (h : DescribedBy attempts sends) :
    (sends.filterMap SendOutcome.accepted).map msgidText = attempts.map counterText := by
  have hsnd := congrArg (List.map Prod.snd) h.accepted
  rw [List.map_filterMap, List.map_map] at hsnd
  rw [List.map_filterMap]
  refine Eq.trans ?_ hsnd
  congr 1
  funext s
  cases s.accepted <;> rfl

/-- Identifiers differ when the values of the counter do. -/
private theorem counterText_nodup_iff (attempts : List Nat) :
    (attempts.map counterText).Nodup ↔ (attempts.map (· % 2 ^ 32)).Nodup := by
  simp only [List.Nodup, List.pairwise_map, ne_eq, counterText_eq_iff]

theorem sendsIdentified_iff {attempts : List Nat} {sends : List SendOutcome} (h : DescribedBy attempts sends) :
    SendsIdentified sends ↔ AttemptsFit attempts := by
  constructor
  · intro hid
    refine ⟨?_, ?_⟩
    · intro n hn
      obtain ⟨s, hs, haccepted, hrc⟩ := h.send hn
      have hsign := (hid.sign s hs).2 haccepted
      rwa [hrc, asInt_ofNat_nonneg_iff] at hsign
    · rw [← counterText_nodup_iff, ← h.texts]
      exact hid.distinct
  · intro hfits
    have hsign : ∀ s ∈ sends, 0 ≤ s.rc ↔ s.accepted ≠ none := by
      intro s hs
      cases haccepted : s.accepted with
      | none =>
        have hneg := h.refused s hs haccepted
        constructor
        · intro hle
          omega
        · intro hne
          exact absurd rfl hne
      | some payload =>
        obtain ⟨n, hn, hrc, -⟩ := h.attempt hs haccepted
        have hle := (asInt_ofNat_nonneg_iff n).2 (hfits.small n hn)
        simp [hrc, hle]
    refine ⟨hsign, ?_, ?_, ?_⟩
    · intro s hs payload haccepted
      obtain ⟨n, -, hrc, htext⟩ := h.attempt hs haccepted
      rw [htext, hrc]
      rfl
    · rw [h.texts, counterText_nodup_iff]
      exact hfits.apart
    · intro s hs
      rw [← hsign s hs, reportLog]
      split
      · rename_i hneg
        simp [hneg]
      · rename_i hnonneg
        simpa using hnonneg

/-- Every run of sends behind an initialisation ends, and its results identify the messages exactly when the values
that the counter has at the accepted attempts are below `2^31` and different. -/
theorem sendAll_identified_iff {ok : Nat → Bool} {hmac : Hmac} {env : InitEnv} {config : TuyaMqttConfig}
    {heap : MessageHeap} {w : LinkWorld} (hinit : tuyaMqttInit ok hmac env config heap = .ok (oprtOk, w))
    (calls : List SendCall) :
    ∃ sends, sendAll calls w = some sends ∧ sends.length = calls.length ∧
      (SendsIdentified sends ↔ AttemptsFit (acceptedAttempts 0 calls)) := by
  obtain ⟨auth, client, heap', rfl⟩ := tuyaMqttInit_spec hinit
  obtain ⟨sends, hsends, hlength, hdescribed⟩ :=
    sendAll_described calls (w := initialWorld config auth client heap') (show (1 : UInt16) ≠ 0 by decide)
      (show (0 : UInt32) = UInt32.ofNat 0 from rfl)
  exact ⟨sends, hsends, hlength, sendsIdentified_iff hdescribed⟩

/-- A property report that is accepted. -/
def acceptedReport : SendCall where
  env := ⟨true, fun _ => 0, 1700000000⟩
  publish := .success
  message := requestMessage .propertyReport none (some ⟨bytes "\x7b\"cpuUsage\":1\x7d", by decide, by decide⟩) false
  noMsgid := rfl
  entry := by decide

theorem sendAll_identified_iff_one : ∃ w sends, sendAll [acceptedReport] w = some sends ∧ sends.length = 1 ∧
    (SendsIdentified sends ↔ AttemptsFit (acceptedAttempts 0 [acceptedReport])) := by
  obtain ⟨auth, heap, hinit⟩ := exampleInit_succeeds
  exact ⟨_, sendAll_identified_iff hinit [acceptedReport]⟩

private theorem mem_acceptedAttempts_replicate (n : Nat) {m k : Nat} (hk : k < m) :
    n + k ∈ acceptedAttempts n (List.replicate m acceptedReport) := by
  induction m generalizing n k with
  | zero => exact absurd hk (Nat.not_lt_zero k)
  | succ m ih =>
    rw [List.replicate_succ, acceptedAttempts, if_pos (show acceptedReport.env.allocOk = true from rfl),
      if_pos (show acceptedReport.publish = .success from rfl)]
    cases k with
    | zero => exact List.mem_cons_self
    | succ k =>
      have hmem := ih (n + 1) (show k < m by omega)
      rw [Nat.add_right_comm] at hmem
      exact List.mem_cons_of_mem _ hmem

/-- Behind an initialisation the accepted send with the number `2^31` returns `-2147483648`. -/
theorem not_sendsIdentified_replicate : ∃ w sends,
    tuyaMqttInit (fun _ => true) constantHmac ⟨exampleAuthEnv, true⟩ exampleContext.config ⟨0, []⟩ = .ok (oprtOk, w) ∧
      sendAll (List.replicate (2 ^ 31 + 1) acceptedReport) w = some sends ∧ ¬ SendsIdentified sends := by
  obtain ⟨auth, heap, hinit⟩ := exampleInit_succeeds
  obtain ⟨sends, hsends, -, hdescribed⟩ := sendAll_described (List.replicate (2 ^ 31 + 1) acceptedReport)
    (w := initialWorld exampleContext.config auth 0 heap) (show (1 : UInt16) ≠ 0 by decide)
    (show (0 : UInt32) = UInt32.ofNat 0 from rfl)
  refine ⟨_, sends, hinit, hsends, fun hid => ?_⟩
  have hsmall := ((sendsIdentified_iff hdescribed).1 hid).small _
    (mem_acceptedAttempts_replicate 0 (show 2 ^ 31 < 2 ^ 31 + 1 by omega))
  omega

end TuyaDaemon
