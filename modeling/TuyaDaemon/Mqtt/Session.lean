import TuyaDaemon.Mqtt.ProcessLoop

/-!
# Sessions

How far the subscription to one topic has come, from the events of a client alone: a successful MQTT connect begins
a session, a subscription that was sent waits for its SUBACK, and a handled disconnect ends the session.  What the
session says has happened on the connection of the most recent successful connect (`session_holds`).  The contexts
of the link core are compared with it.
-/

namespace TuyaDaemon

variable {υ : Type}

/-- The subscription to a topic on the current connection. -/
inductive Session where
  | offline
  /-- connected, with the identifier of the subscription when it was sent -/
  | awaiting (pending : Option UInt16)
  | acknowledged
deriving DecidableEq, Repr

def Session.subscribed (id : UInt16) : Session → Session
  | .offline => .offline
  | .awaiting _ => .awaiting (some id)
  | .acknowledged => .acknowledged

def Session.acked (id : UInt16) : Session → Session
  | .offline => .offline
  | .awaiting pending => if pending = some id then .acknowledged else .awaiting pending
  | .acknowledged => .acknowledged

def Session.step (topic : List UInt8) (session : Session) : Event υ → Session
  | .mqttConnect status => if status = .success then .awaiting none else session
  | .disconnected => .offline
  | .subscribe id t status => if t = topic ∧ status = .success then session.subscribed id else session
  | .suback id _ _ _ => session.acked id
  | _ => session

/-- The session after the events of a trace. -/
def session (topic : List UInt8) (trace : List (Event υ)) : Session :=
  trace.foldl (Session.step topic) .offline

theorem session_append (topic : List UInt8) (trace es : List (Event υ)) :
    session topic (trace ++ es) = es.foldl (Session.step topic) (session topic trace) :=
  List.foldl_append

theorem session_concat (topic : List UInt8) (trace : List (Event υ)) (e : Event υ) :
    session topic (trace ++ [e]) = (session topic trace).step topic e :=
  session_append topic trace [e]

/-- A connect that ends with the subscription to the topic begins a session. -/
theorem session_connect (topic : List UInt8) (trace : List (Event υ)) (id : UInt16) (sent : MQTTStatus) :
    session topic (trace ++ [.networkConnect true, .mqttConnect .success, .subscribe id topic sent]) =
      .awaiting (if sent = .success then some id else none) := by
  rw [session_append]
  by_cases hsent : sent = .success <;> simp [Session.step, Session.subscribed, hsent]

/-! ### The current connection -/

/-- The events since the most recent successful MQTT connect. -/
def SinceConnect (trace es : List (Event υ)) : Prop :=
  ∃ earlier, trace = earlier ++ .mqttConnect .success :: es ∧ .mqttConnect .success ∉ es

theorem SinceConnect.concat {trace es : List (Event υ)} (h : SinceConnect trace es) {e : Event υ}
    (he : e ≠ .mqttConnect .success) : SinceConnect (trace ++ [e]) (es ++ [e]) := by
  obtain ⟨earlier, rfl, hes⟩ := h
  refine ⟨earlier, by simp, ?_⟩
  rw [List.mem_append, List.mem_singleton, not_or]
  exact ⟨hes, Ne.symm he⟩

theorem sinceConnect_nil (trace : List (Event υ)) : SinceConnect (trace ++ [.mqttConnect .success]) [] :=
  ⟨trace, rfl, by simp⟩

/-- The subscription was sent on the current connection. -/
def Subscribed (topic : List UInt8) (id : UInt16) (trace : List (Event υ)) : Prop :=
  ∃ es, SinceConnect trace es ∧ .subscribe id topic .success ∈ es

/-- The subscription was sent on the current connection and a SUBACK with its identifier came after it; since then
no disconnect was handled. -/
def Acknowledged (topic : List UInt8) (trace : List (Event υ)) : Prop :=
  ∃ sent id result before after later,
    SinceConnect trace (sent ++ .suback id result before after :: later) ∧
      .subscribe id topic .success ∈ sent ∧ .disconnected ∉ later

theorem Subscribed.concat {topic : List UInt8} {id : UInt16} {trace : List (Event υ)}
    (h : Subscribed topic id trace) {e : Event υ} (he : e ≠ .mqttConnect .success) :
    Subscribed topic id (trace ++ [e]) := by
  obtain ⟨es, hes, hmem⟩ := h
  exact ⟨es ++ [e], hes.concat he, List.mem_append_left _ hmem⟩

theorem Subscribed.suback {topic : List UInt8} {id : UInt16} {trace : List (Event υ)}
    (h : Subscribed topic id trace) (result : MQTTStatus) (before after : υ) :
    Acknowledged topic (trace ++ [.suback id result before after]) := by
  obtain ⟨es, hes, hmem⟩ := h
  exact ⟨es, id, result, before, after, [], hes.concat (by simp), hmem, by simp⟩

theorem Acknowledged.concat {topic : List UInt8} {trace : List (Event υ)} (h : Acknowledged topic trace)
    {e : Event υ} (hconnect : e ≠ .mqttConnect .success) (hdisconnect : e ≠ .disconnected) :
    Acknowledged topic (trace ++ [e]) := by
  obtain ⟨sent, id, result, before, after, later, hes, hmem, hlater⟩ := h
  refine ⟨sent, id, result, before, after, later ++ [e], ?_, hmem, ?_⟩
  · have := hes.concat hconnect
    rwa [List.append_assoc, List.cons_append] at this
  · rw [List.mem_append, List.mem_singleton, not_or]
    exact ⟨hlater, Ne.symm hdisconnect⟩

/-! ### What a session says -/

/-- What the session says about the trace behind it. -/
def Session.Holds (topic : List UInt8) (trace : List (Event υ)) : Session → Prop
  | .offline => True
  | .awaiting none => ∃ es, SinceConnect trace es
  | .awaiting (some id) => Subscribed topic id trace
  | .acknowledged => Acknowledged topic trace

/-- An event that neither connects nor disconnects leaves what the session says. -/
theorem Session.Holds.concat {topic : List UInt8} {trace : List (Event υ)} {session : Session}
    (h : session.Holds topic trace) {e : Event υ} (hconnect : e ≠ .mqttConnect .success)
    (hdisconnect : e ≠ .disconnected) : session.Holds topic (trace ++ [e]) := by
  match session, h with
  | .offline, _ => exact trivial
  | .awaiting none, ⟨es, hes⟩ => exact ⟨es ++ [e], hes.concat hconnect⟩
  | .awaiting (some id), h => exact Subscribed.concat h hconnect
  | .acknowledged, h => exact Acknowledged.concat h hconnect hdisconnect

theorem Session.Holds.subscribe {topic : List UInt8} {trace : List (Event υ)} {session : Session}
    (h : session.Holds topic trace) (id : UInt16) :
    (session.subscribed id).Holds topic (trace ++ [.subscribe id topic .success]) := by
  have hkeep := h.concat (e := .subscribe id topic .success) (by simp) (by simp)
  match session, h with
  | .offline, _ => exact trivial
  | .awaiting none, ⟨es, hes⟩ => exact ⟨_, hes.concat (by simp), by simp⟩
  | .awaiting (some _), ⟨es, hes, _⟩ => exact ⟨_, hes.concat (by simp), by simp⟩
  | .acknowledged, _ => exact hkeep

theorem Session.Holds.suback {topic : List UInt8} {trace : List (Event υ)} {session : Session}
    (h : session.Holds topic trace) (id : UInt16) (result : MQTTStatus) (before after : υ) :
    (session.acked id).Holds topic (trace ++ [.suback id result before after]) := by
  have hkeep := h.concat (e := .suback id result before after) (by simp) (by simp)
  match session, h with
  | .offline, _ => exact trivial
  | .awaiting pending, h =>
    show Session.Holds topic _ (if pending = some id then .acknowledged else .awaiting pending)
    split
    · rename_i hpending
      subst hpending
      exact Subscribed.suback h result before after
    · exact hkeep
  | .acknowledged, _ => exact hkeep

/-- What one event preserves, one case for each event. -/
theorem Session.Holds.step {topic : List UInt8} {trace : List (Event υ)} {session : Session}
    (h : session.Holds topic trace) (e : Event υ) : (session.step topic e).Holds topic (trace ++ [e]) := by
  cases e with
  | mqttConnect status =>
    show Session.Holds topic _ (if status = .success then .awaiting none else session)
    split
    · rename_i hstatus
      subst hstatus
      exact ⟨[], sinceConnect_nil trace⟩
    · rename_i hstatus
      exact h.concat (by simpa using hstatus) (by simp)
  | disconnected => exact trivial
  | subscribe id t status =>
    show Session.Holds topic _ (if t = topic ∧ status = .success then session.subscribed id else session)
    split
    · rename_i hsent
      obtain ⟨rfl, rfl⟩ := hsent
      exact h.subscribe id
    · exact h.concat (by simp) (by simp)
  | suback id result before after => exact h.suback id result before after
  | networkConnect _ => exact h.concat (by simp) (by simp)
  | networkDisconnect => exact h.concat (by simp) (by simp)
  | unsubscribe _ _ _ => exact h.concat (by simp) (by simp)
  | publish _ _ _ _ => exact h.concat (by simp) (by simp)
  | onConnected => exact h.concat (by simp) (by simp)
  | onDisconnect => exact h.concat (by simp) (by simp)
  | readOutside => exact h.concat (by simp) (by simp)

/-- What the session says is true of every trace, by induction on its events. -/
theorem session_holds (topic : List UInt8) (trace : List (Event υ)) :
    (session topic trace).Holds topic trace := by
  induction trace using List.reverseRecOn with
  | nil => exact trivial
  | append_singleton trace e ih =>
    rw [session_concat]
    exact ih.step e

/-! ### Honest brokers -/

/-- A packet with this identifier was sent. -/
def Sent (id : UInt16) (es : List (Event υ)) : Prop :=
  ∃ topic, .subscribe id topic .success ∈ es ∨ .unsubscribe id topic .success ∈ es ∨
    ∃ payload, .publish id topic payload .success ∈ es

/-- The broker acknowledges only packets that were sent on the current connection, and never the identifier `0`. -/
def Honest (trace : List (Event υ)) : Prop :=
  ∀ earlier id result before after later, trace = earlier ++ .suback id result before after :: later →
    id ≠ 0 ∧ ∃ es, SinceConnect earlier es ∧ Sent id es

theorem Honest.mono {trace trace' : List (Event υ)} (h : Honest trace') (hgrows : trace <+: trace') :
    Honest trace := by
  obtain ⟨es, rfl⟩ := hgrows
  rintro earlier id result before after later rfl
  exact h earlier id result before after (later ++ es) (by simp)

/-- A trace without acknowledgements is honest. -/
theorem honest_of_noSuback {trace : List (Event υ)}
    (h : ∀ id result before after, .suback id result before after ∉ trace) : Honest trace := by
  rintro earlier id result before after later rfl
  exact absurd (by simp) (h id result before after)

/-- An honest trace goes on with an event that, if it is a SUBACK, acknowledges something that was sent. -/
theorem Honest.concat {trace : List (Event υ)} (h : Honest trace) {e : Event υ}
    (he : ∀ id result before after, e = .suback id result before after →
      id ≠ 0 ∧ ∃ es, SinceConnect trace es ∧ Sent id es) : Honest (trace ++ [e]) := by
  intro earlier id result before after later heq
  rcases List.eq_nil_or_concat later with rfl | ⟨later, e', rfl⟩
  · obtain ⟨rfl, hlast⟩ := List.append_inj' heq rfl
    exact he id result before after (List.singleton_inj.1 hlast)
  · rw [List.concat_eq_append, ← List.cons_append, ← List.append_assoc] at heq
    exact h earlier id result before after later (List.append_inj' heq rfl).1

theorem Honest.suback_ne_zero {trace : List (Event υ)} {id : UInt16} {result : MQTTStatus} {before after : υ}
    (h : Honest (trace ++ [.suback id result before after])) : id ≠ 0 :=
  (h trace id result before after [] rfl).1

end TuyaDaemon
