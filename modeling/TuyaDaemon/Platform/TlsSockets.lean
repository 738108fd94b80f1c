import TuyaDaemon.CLib.Descriptors
import TuyaDaemon.Link.Types
import TuyaDaemon.Mqtt.Receive

/-!
# The descriptor of the TLS context

`network_tls_connect` and `network_tls_disconnect` over a table of descriptors that the rest of the process uses too.
The context is allocated with the number 0, a connect that fails early leaves the number as it is, and a refused
socket is closed and keeps its number.  So whether a disconnect closes the right descriptor depends on how the connects
before it ended, which `FdStatus` follows; `closesOwn_iff` is the exact condition.
-/

namespace TuyaDaemon

open CLib

/-! ### The model -/

abbrev mbedtlsErrNetSocketFailed : Int := -0x0042
abbrev mbedtlsErrNetConnectFailed : Int := -0x0044
abbrev mbedtlsErrNetUnknownHost : Int := -0x0052
abbrev oprtMidTlsNetConnectError : Int := -0x0a01
abbrev oprtMidTlsUnknownHostError : Int := -0x0a02
abbrev oprtMidTlsConnectionError : Int := -0x0a03
abbrev oprtMidTlsX509RootCrtParseError : Int := -0x0a05
abbrev oprtMidTlsX509DeviceCrtParseError : Int := -0x0a06
abbrev oprtMidTlsPkPrivateKeyParseError : Int := -0x0a08

/-- Who opened a descriptor. -/
inductive FdOwner where
  | context
  | process
deriving DecidableEq, Repr

/-- What becomes of one address: `socket` fails, `connect` fails, or neither. -/
inductive SocketAttempt where
  | socketFailed
  | refused
  | connected
deriving DecidableEq, Repr

/-- How the steps of a connect end, in their order. -/
structure TlsConnectEnv where
  caParsed : Bool
  /-- `client_cert && client_key` -/
  clientCert : Bool
  clientCertParsed : Bool
  keyParsed : Bool
  /-- the addresses that `getaddrinfo` finds -/
  addresses : Option (List SocketAttempt)
  setBlock : Bool
  configDefaults : Bool
  ownCert : Bool
  sslSetup : Bool
  setHostname : Bool
  handshake : Bool

inductive TlsEvent where
  /-- a `close`, with the owner of the descriptor at that moment -/
  | close (owner : Option FdOwner)
  /-- the end of a disconnect, and whether the context still has a descriptor open -/
  | disconnected (left : Bool)
deriving DecidableEq, Repr

/-- `server_fd.fd`, which is `none` for `-1`, and the descriptors of the process. -/
structure TlsWorld where
  fd : Option Nat
  table : FdTable FdOwner
  log : List TlsEvent

/-- `network_tls_init`: the context is zeroed.  The process has some descriptors open. -/
def networkTlsInit (process : List Bool) : TlsWorld where
  fd := some 0
  table := process.map fun isOpen => if isOpen then some .process else none
  log := []

/-- `close`, which the context calls -/
def TlsWorld.closeFd (w : TlsWorld) (n : Nat) : TlsWorld :=
  { w with table := w.table.close n, log := w.log ++ [.close (w.table.owner n)] }

/-- `socket` -/
def TlsWorld.openFd (w : TlsWorld) : TlsWorld :=
  { w with fd := some w.table.lowest, table := w.table.openAs .context }

/-- The loop of `mbedtls_net_connect`; `ret` is the result so far. -/
def netConnectFrom : Int → List SocketAttempt → TlsWorld → Int × TlsWorld
  | ret, [], w => (ret, w)
  | _, .socketFailed :: rest, w => netConnectFrom mbedtlsErrNetSocketFailed rest { w with fd := none }
  | _, .refused :: rest, w => netConnectFrom mbedtlsErrNetConnectFailed rest (w.openFd.closeFd w.table.lowest)
  | _, .connected :: _, w => (0, w.openFd)

def mbedtlsNetConnect (addresses : Option (List SocketAttempt)) (w : TlsWorld) : Int × TlsWorld :=
  match addresses with
  | none => (mbedtlsErrNetUnknownHost, w)
  | some attempts => netConnectFrom mbedtlsErrNetUnknownHost attempts w

def mbedtlsNetFree (w : TlsWorld) : TlsWorld :=
  match w.fd with
  | none => w
  | some n => { w.closeFd n with fd := none }

/-- The part of `network_tls_connect` behind the TCP connection. -/
def tlsSetup (env : TlsConnectEnv) : Int :=
  if env.setBlock = false then oprtMidTlsConnectionError
  else if env.configDefaults = false then oprtMidTlsConnectionError
  else if env.clientCert = true ∧ env.ownCert = false then oprtMidTlsConnectionError
  else if env.sslSetup = false then oprtMidTlsConnectionError
  else if env.setHostname = false then oprtMidTlsConnectionError
  else if env.handshake = false then oprtMidTlsConnectionError
  else oprtOk

def networkTlsConnect (env : TlsConnectEnv) (w : TlsWorld) : Int × TlsWorld :=
  if env.caParsed = false then (oprtMidTlsX509RootCrtParseError, w)
  else if env.clientCert = true ∧ env.clientCertParsed = false then (oprtMidTlsX509DeviceCrtParseError, w)
  else if env.clientCert = true ∧ env.keyParsed = false then (oprtMidTlsPkPrivateKeyParseError, w)
  else
    let (ret, w) := mbedtlsNetConnect env.addresses w
    if ret = mbedtlsErrNetSocketFailed then (oprtMidTlsNetSocketError, w)
    else if ret = mbedtlsErrNetUnknownHost then (oprtMidTlsUnknownHostError, w)
    else if ret ≠ 0 then (oprtMidTlsNetConnectError, w)
    else (tlsSetup env, w)

/-- `network_tls_disconnect`: of its calls, `mbedtls_net_free` is the one that closes. -/
def networkTlsDisconnect (w : TlsWorld) : Int × TlsWorld :=
  let w := mbedtlsNetFree w
  (oprtOk, { w with log := w.log ++ [.disconnected (decide (some .context ∈ w.table))] })

/-! ### Runs -/

/-- The calls, and what the rest of the process does between them. -/
inductive TlsCall where
  | connect (env : TlsConnectEnv)
  | disconnect
  | processOpen
  | processClose (n : Nat)

def TlsCall.run (call : TlsCall) (w : TlsWorld) : TlsWorld :=
  match call with
  | .connect env => (networkTlsConnect env w).2
  | .disconnect => (networkTlsDisconnect w).2
  | .processOpen => { w with table := w.table.openAs .process }
  -- the rest of the process closes its own descriptors only
  | .processClose n => if w.table.owner n = some .process then { w with table := w.table.close n } else w

def tlsRun (calls : List TlsCall) (w : TlsWorld) : TlsWorld := calls.foldl (fun w call => call.run w) w

/-- A close of an open descriptor of the context, or a disconnect that leaves none. -/
def TlsEvent.Good : TlsEvent → Prop
  | .close owner => owner = some .context
  | .disconnected left => left = false

/-- The context closes its own open descriptors only, and each disconnect leaves none. -/
def ClosesOwn (w : TlsWorld) : Prop := ∀ e ∈ w.log, e.Good

/-- What is known of the number that is stored. -/
inductive FdStatus where
  /-- it is `-1`, and the context has nothing open -/
  | closed
  /-- it is the one descriptor that the context has open -/
  | open
  /-- it is no descriptor of the context, which has nothing open -/
  | stale
  /-- the context has another descriptor open -/
  | leaked
deriving DecidableEq, Repr

namespace FdStatus

/-- The status behind one address. -/
def attempt : FdStatus → SocketAttempt → FdStatus
  | .open, _ => .leaked
  | .leaked, _ => .leaked
  | _, .socketFailed => .closed
  | _, .refused => .stale
  | _, .connected => .open

/-- The status behind a list of addresses, which ends with the first that connects. -/
def attempts : FdStatus → List SocketAttempt → FdStatus
  | s, [] => s
  | s, .connected :: _ => s.attempt .connected
  | s, a :: rest => (s.attempt a).attempts rest

/-- The status behind a connect; it gets to the addresses when the certificates and the key were parsed. -/
def connect (s : FdStatus) (env : TlsConnectEnv) : FdStatus :=
  if env.caParsed = true ∧ (env.clientCert = true → env.clientCertParsed = true ∧ env.keyParsed = true) then
    s.attempts (env.addresses.getD [])
  else s

def step (s : FdStatus) : TlsCall → FdStatus
  | .connect env => s.connect env
  | .disconnect => if s = .leaked then .leaked else .closed
  | _ => s

end FdStatus

/-- Each disconnect of the run comes when the stored number is `-1` or the one open descriptor of the context. -/
def DisconnectsFit : FdStatus → List TlsCall → Prop
  | _, [] => True
  | s, call :: rest => (call = .disconnect → s = .closed ∨ s = .open) ∧ DisconnectsFit (s.step call) rest

/-- A world with the status. -/
def Represents (s : FdStatus) (w : TlsWorld) : Prop :=
  match s with
  | .closed => w.fd = none ∧ ∀ n, w.table.owner n ≠ some .context
  | .open => ∃ n, w.fd = some n ∧ ∀ m, w.table.owner m = some .context ↔ m = n
  | .stale => ∃ n, w.fd = some n ∧ ∀ m, w.table.owner m ≠ some .context
  | .leaked => ∃ m, w.table.owner m = some .context ∧ w.fd ≠ some m

/-- The world has the status, and the log got good entries only. -/
structure GoesTo (w : TlsWorld) (s : FdStatus) (w' : TlsWorld) : Prop where
  status : Represents s w'
  log : ∃ es, w'.log = w.log ++ es ∧ ∀ e ∈ es, e.Good

/-! ### Connect -/

theorem GoesTo.refl {s : FdStatus} {w : TlsWorld} (h : Represents s w) : GoesTo w s w := ⟨h, [], by simp, by simp⟩

theorem GoesTo.trans {s s' : FdStatus} {w w' w'' : TlsWorld} (h : GoesTo w s w') (h' : GoesTo w' s' w'') :
    GoesTo w s' w'' := by
  obtain ⟨es, hlog, hes⟩ := h.log
  obtain ⟨es', hlog', hes'⟩ := h'.log
  refine ⟨h'.status, es ++ es', by rw [hlog', hlog, List.append_assoc], ?_⟩
  intro e he
  rcases List.mem_append.1 he with he | he
  · exact hes e he
  · exact hes' e he

/-- In each status a descriptor of the context is the stored one, or has leaked. -/
theorem Represents.leak {s : FdStatus} {w : TlsWorld} (h : Represents s w) (hs : s = .open ∨ s = .leaked) :
    ∃ m, w.table.owner m = some .context := by
  rcases hs with rfl | rfl
  · obtain ⟨n, -, hn⟩ := h
    exact ⟨n, (hn n).2 rfl⟩
  · obtain ⟨m, hm, -⟩ := h
    exact ⟨m, hm⟩

theorem Represents.nothing {s : FdStatus} {w : TlsWorld} (h : Represents s w) (hs : s = .closed ∨ s = .stale) :
    ∀ m, w.table.owner m ≠ some .context := by
  rcases hs with rfl | rfl
  · exact h.2
  · obtain ⟨n, -, hn⟩ := h
    exact hn

theorem openFd_owner (w : TlsWorld) (m : Nat) :
    w.openFd.table.owner m = if m = w.table.lowest then some .context else w.table.owner m :=
  FdTable.owner_openAs _ _ _

/-- A socket that was closed again leaves the table as it was. -/
theorem reclosed_owner (w : TlsWorld) (m : Nat) :
    (w.openFd.closeFd w.table.lowest).table.owner m = w.table.owner m := by
  show (w.openFd.table.close w.table.lowest).owner m = _
  rw [FdTable.owner_close, openFd_owner]
  by_cases hm : m = w.table.lowest
  · rw [if_pos hm, hm, FdTable.owner_lowest]
  · rw [if_neg hm, if_neg hm]

/-- The context has a descriptor open, and another number is stored. -/
theorem leaked_of_owner {w : TlsWorld} {m : Nat} (hm : w.table.owner m = some .context) (hfd : w.fd ≠ some m) :
    Represents .leaked w := ⟨m, hm, hfd⟩

/-- A failed `socket` stores `-1`. -/
theorem Represents.socketFailed {s : FdStatus} {w : TlsWorld} (h : Represents s w) :
    Represents (s.attempt .socketFailed) { w with fd := none } := by
  cases s with
  | closed => exact ⟨rfl, h.nothing (Or.inl rfl)⟩
  | stale => exact ⟨rfl, h.nothing (Or.inr rfl)⟩
  | «open» =>
    obtain ⟨m, hm⟩ := h.leak (Or.inl rfl)
    exact leaked_of_owner hm (by simp)
  | leaked =>
    obtain ⟨m, hm⟩ := h.leak (Or.inr rfl)
    exact leaked_of_owner hm (by simp)

/-- The number of a new socket is not that of an open descriptor. -/
theorem lowest_ne_of_owner {w : TlsWorld} {m : Nat} (hm : w.table.owner m = some .context) : w.table.lowest ≠ m := by
  rintro rfl
  rw [FdTable.owner_lowest] at hm
  cases hm

theorem Represents.connected {s : FdStatus} {w : TlsWorld} (h : Represents s w) :
    Represents (s.attempt .connected) w.openFd := by
  have hopen : (∀ m, w.table.owner m ≠ some .context) → Represents .open w.openFd := by
    intro hnothing
    refine ⟨w.table.lowest, rfl, fun m => ?_⟩
    rw [openFd_owner]
    by_cases hm : m = w.table.lowest
    · simp [hm]
    · simp [hm, hnothing m]
  have hleak : (∃ m, w.table.owner m = some .context) → Represents .leaked w.openFd := by
    rintro ⟨m, hm⟩
    have hne := lowest_ne_of_owner hm
    refine leaked_of_owner (m := m) ?_ ?_
    · rw [openFd_owner, if_neg (Ne.symm hne)]
      exact hm
    · simpa [TlsWorld.openFd] using hne
  cases s with
  | closed => exact hopen (h.nothing (Or.inl rfl))
  | stale => exact hopen (h.nothing (Or.inr rfl))
  | «open» => exact hleak (h.leak (Or.inl rfl))
  | leaked => exact hleak (h.leak (Or.inr rfl))

/-- A refused socket is closed, and its number stays stored. -/
theorem Represents.refused {s : FdStatus} {w : TlsWorld} (h : Represents s w) :
    GoesTo w (s.attempt .refused) (w.openFd.closeFd w.table.lowest) := by
  have hlog : (w.openFd.closeFd w.table.lowest).log = w.log ++ [.close (w.openFd.table.owner w.table.lowest)] := rfl
  rw [openFd_owner, if_pos rfl] at hlog
  refine ⟨?_, _, hlog, ?_⟩
  · have hstale : (∀ m, w.table.owner m ≠ some .context) →
        Represents .stale (w.openFd.closeFd w.table.lowest) := by
      intro hnothing
      refine ⟨w.table.lowest, rfl, fun m => ?_⟩
      rw [reclosed_owner]
      exact hnothing m
    have hleak : (∃ m, w.table.owner m = some .context) →
        Represents .leaked (w.openFd.closeFd w.table.lowest) := by
      rintro ⟨m, hm⟩
      refine leaked_of_owner (m := m) ?_ ?_
      · rw [reclosed_owner]
        exact hm
      · simpa [TlsWorld.closeFd, TlsWorld.openFd] using lowest_ne_of_owner hm
    cases s with
    | closed => exact hstale (h.nothing (Or.inl rfl))
    | stale => exact hstale (h.nothing (Or.inr rfl))
    | «open» => exact hleak (h.leak (Or.inl rfl))
    | leaked => exact hleak (h.leak (Or.inr rfl))
  · intro e he
    rw [List.mem_singleton.1 he]
    rfl

theorem netConnectFrom_goesTo (attempts : List SocketAttempt) {s : FdStatus} {w : TlsWorld} (h : Represents s w)
    (ret : Int) : GoesTo w (s.attempts attempts) (netConnectFrom ret attempts w).2 := by
  induction attempts generalizing s w ret with
  | nil => exact .refl h
  | cons a rest ih =>
    cases a with
    | socketFailed =>
      have hstep : GoesTo w (s.attempt .socketFailed) { w with fd := none } :=
        ⟨h.socketFailed, [], by simp, by simp⟩
      exact hstep.trans (ih hstep.status _)
    | refused => exact h.refused.trans (ih h.refused.status _)
    | connected => exact ⟨h.connected, [], by simp [netConnectFrom, TlsWorld.openFd], by simp⟩

/-- What a connect does to the descriptor, however it ends. -/
theorem networkTlsConnect_goesTo (env : TlsConnectEnv) {s : FdStatus} {w : TlsWorld} (h : Represents s w) :
    GoesTo w (s.connect env) (networkTlsConnect env w).2 := by
  unfold networkTlsConnect FdStatus.connect
  by_cases hca : env.caParsed = false
  · rw [if_pos hca, if_neg (by simp [hca])]
    exact .refl h
  by_cases hcert : env.clientCert = true ∧ env.clientCertParsed = false
  · rw [if_neg hca, if_pos hcert, if_neg (by simp [hcert])]
    exact .refl h
  by_cases hkey : env.clientCert = true ∧ env.keyParsed = false
  · rw [if_neg hca, if_neg hcert, if_pos hkey, if_neg (by simp [hkey])]
    exact .refl h
  have hparsed : env.caParsed = true ∧
      (env.clientCert = true → env.clientCertParsed = true ∧ env.keyParsed = true) := by
    refine ⟨Bool.of_not_eq_false hca, fun hclient => ⟨?_, ?_⟩⟩
    · exact Bool.of_not_eq_false fun hfalse => hcert ⟨hclient, hfalse⟩
    · exact Bool.of_not_eq_false fun hfalse => hkey ⟨hclient, hfalse⟩
  rw [if_neg hca, if_neg hcert, if_neg hkey, if_pos hparsed]
  have hworld : GoesTo w (s.attempts (env.addresses.getD [])) (mbedtlsNetConnect env.addresses w).2 := by
    cases env.addresses with
    | none => exact .refl h
    | some attempts => exact netConnectFrom_goesTo attempts h _
  -- the exits behind the TCP connection leave the descriptor alone
  dsimp only
  split
  · exact hworld
  · split
    · exact hworld
    · split <;> exact hworld

/-! ### The other calls -/

private theorem left_of_owner {t : FdTable FdOwner} {m : Nat} (hm : t.owner m = some .context) :
    decide (some FdOwner.context ∈ t) = true :=
  decide_eq_true ((FdTable.mem_iff_owner t _).2 ⟨m, hm⟩)

private theorem not_left {t : FdTable FdOwner} (hnothing : ∀ m, t.owner m ≠ some .context) :
    decide (some FdOwner.context ∈ t) = false := by
  apply decide_eq_false
  rw [FdTable.mem_iff_owner]
  rintro ⟨m, hm⟩
  exact hnothing m hm

theorem networkTlsDisconnect_none {w : TlsWorld} (hfd : w.fd = none) : (networkTlsDisconnect w).2 =
    { w with log := w.log ++ [.disconnected (decide (some FdOwner.context ∈ w.table))] } := by
  simp only [networkTlsDisconnect, mbedtlsNetFree, hfd]

/-- A stored number is closed, whoever owns it. -/
theorem networkTlsDisconnect_some {w : TlsWorld} {n : Nat} (hfd : w.fd = some n) : (networkTlsDisconnect w).2 =
    { fd := none
      table := w.table.close n
      log := w.log ++ [.close (w.table.owner n),
        .disconnected (decide (some FdOwner.context ∈ w.table.close n))] } := by
  simp only [networkTlsDisconnect, mbedtlsNetFree, hfd, TlsWorld.closeFd, List.append_assoc]
  rfl

/-- What a disconnect logs: it is good when the number is `-1` or the one open descriptor of the context. -/
theorem networkTlsDisconnect_spec {s : FdStatus} {w : TlsWorld} (h : Represents s w) :
    Represents (s.step .disconnect) (networkTlsDisconnect w).2 ∧
      ∃ es, (networkTlsDisconnect w).2.log = w.log ++ es ∧ ((∀ e ∈ es, e.Good) ↔ s = .closed ∨ s = .open) := by
  cases s with
  | closed =>
    obtain ⟨hfd, hnothing⟩ := h
    rw [networkTlsDisconnect_none hfd, not_left hnothing]
    refine ⟨⟨hfd, hnothing⟩, _, rfl, ?_⟩
    simp [TlsEvent.Good]
  | «open» =>
    obtain ⟨n, hfd, hown⟩ := h
    have hnothing : ∀ m, (w.table.close n).owner m ≠ some .context := by
      intro m
      rw [FdTable.owner_close]
      by_cases hm : m = n
      · simp [hm]
      · rw [if_neg hm]
        exact fun howner => hm ((hown m).1 howner)
    rw [networkTlsDisconnect_some hfd, not_left hnothing, (hown n).2 rfl]
    refine ⟨⟨rfl, hnothing⟩, _, rfl, ?_⟩
    simp [TlsEvent.Good]
  | stale =>
    obtain ⟨n, hfd, hnothing⟩ := h
    rw [networkTlsDisconnect_some hfd]
    refine ⟨⟨rfl, fun m => ?_⟩, _, rfl, ?_⟩
    · show (w.table.close n).owner m ≠ _
      rw [FdTable.owner_close]
      split
      · simp
      · exact hnothing m
    · simp [TlsEvent.Good, hnothing n]
  | leaked =>
    obtain ⟨m, hm, hfd⟩ := h
    -- the leaked descriptor stays open
    cases hstored : w.fd with
    | none =>
      rw [networkTlsDisconnect_none hstored, left_of_owner hm]
      refine ⟨⟨m, hm, hfd⟩, _, rfl, ?_⟩
      simp [TlsEvent.Good]
    | some n =>
      have hne : m ≠ n := by
        rintro rfl
        exact hfd hstored
      have hstays : (w.table.close n).owner m = some .context := by
        rw [FdTable.owner_close, if_neg hne]
        exact hm
      rw [networkTlsDisconnect_some hstored, left_of_owner hstays]
      refine ⟨⟨m, hstays, by simp⟩, _, rfl, ?_⟩
      simp [TlsEvent.Good]

/-- The rest of the process does not touch the descriptors of the context. -/
theorem Represents.congr {s : FdStatus} {w w' : TlsWorld} (h : Represents s w) (hfd : w'.fd = w.fd)
    (howner : ∀ m, w'.table.owner m = some .context ↔ w.table.owner m = some .context) : Represents s w' := by
  cases s with
  | closed => exact ⟨hfd.trans h.1, fun n hn => h.2 n ((howner n).1 hn)⟩
  | «open» =>
    obtain ⟨n, hn, hown⟩ := h
    exact ⟨n, hfd.trans hn, fun m => (howner m).trans (hown m)⟩
  | stale =>
    obtain ⟨n, hn, hnothing⟩ := h
    exact ⟨n, hfd.trans hn, fun m hm => hnothing m ((howner m).1 hm)⟩
  | leaked =>
    obtain ⟨m, hm, hne⟩ := h
    exact ⟨m, (howner m).2 hm, by rw [hfd]; exact hne⟩

/-- One call: the status goes on, and the log gets good entries unless it is a disconnect that comes too early or too
late. -/
theorem run_spec (call : TlsCall) {s : FdStatus} {w : TlsWorld} (h : Represents s w) :
    Represents (s.step call) (call.run w) ∧ ∃ es, (call.run w).log = w.log ++ es ∧
      ((∀ e ∈ es, e.Good) ↔ (call = .disconnect → s = .closed ∨ s = .open)) := by
  cases call with
  | connect env =>
    have hgoes := networkTlsConnect_goesTo env h
    obtain ⟨es, hlog, hes⟩ := hgoes.log
    exact ⟨hgoes.status, es, hlog, by simpa using hes⟩
  | disconnect =>
    obtain ⟨hstatus, es, hlog, hes⟩ := networkTlsDisconnect_spec h
    exact ⟨hstatus, es, hlog, by simpa using hes⟩
  | processOpen =>
    refine ⟨h.congr rfl fun m => ?_, [], by simp [TlsCall.run], by simp⟩
    show (w.table.openAs .process).owner m = _ ↔ _
    rw [FdTable.owner_openAs]
    by_cases hm : m = w.table.lowest
    · rw [if_pos hm, hm, FdTable.owner_lowest]
      simp
    · rw [if_neg hm]
  | processClose n =>
    by_cases howner : w.table.owner n = some .process
    · simp only [TlsCall.run, if_pos howner]
      refine ⟨h.congr rfl fun m => ?_, [], by simp, by simp⟩
      show (w.table.close n).owner m = _ ↔ _
      rw [FdTable.owner_close]
      by_cases hm : m = n
      · rw [if_pos hm, hm, howner]
        simp
      · rw [if_neg hm]
    · simp only [TlsCall.run, if_neg howner]
      exact ⟨h, [], by simp, by simp⟩

/-! ### Runs -/

theorem tlsRun_good_iff (calls : List TlsCall) {s : FdStatus} {w : TlsWorld} (h : Represents s w) :
    ClosesOwn (tlsRun calls w) ↔ ClosesOwn w ∧ DisconnectsFit s calls := by
  induction calls generalizing s w with
  | nil => simp [tlsRun, DisconnectsFit]
  | cons call rest ih =>
    obtain ⟨hstatus, es, hlog, hes⟩ := run_spec call h
    have hlogs : ClosesOwn (call.run w) ↔ ClosesOwn w ∧ ∀ e ∈ es, e.Good := by
      unfold ClosesOwn
      rw [hlog]
      simp only [List.mem_append, or_imp, forall_and]
    rw [show tlsRun (call :: rest) w = tlsRun rest (call.run w) from rfl, ih hstatus, hlogs, hes, DisconnectsFit,
      and_assoc]

/-- The number of a fresh context is no descriptor of the context. -/
theorem networkTlsInit_stale (process : List Bool) : Represents .stale (networkTlsInit process) := by
  refine ⟨0, rfl, fun m => ?_⟩
  unfold networkTlsInit FdTable.owner
  rw [List.getElem?_map]
  cases process[m]? with
  | none => simp
  | some isOpen => cases isOpen <;> simp

/-- Whatever the process has open and does, in a run from the initialisation on the context closes its own open
descriptors only, and leaves none behind a disconnect, exactly when each disconnect finds the number `-1` or the
number of its one open descriptor. -/
theorem closesOwn_iff (process : List Bool) (calls : List TlsCall) :
    ClosesOwn (tlsRun calls (networkTlsInit process)) ↔ DisconnectsFit .stale calls := by
  have hstart : ClosesOwn (networkTlsInit process) := fun e he => by cases he
  rw [tlsRun_good_iff calls (networkTlsInit_stale process)]
  exact and_iff_right hstart

/-- A connect that fails at the root certificate. -/
def uncertifiedConnect : TlsConnectEnv :=
  ⟨false, false, true, true, some [.connected], true, true, true, true, true, true⟩

/-- Behind it a disconnect closes the standard input. -/
theorem not_closesOwn_uncertified :
    ¬ ClosesOwn (tlsRun [.connect uncertifiedConnect, .disconnect] (networkTlsInit [true, true, true])) := by
  rw [tlsRun_good_iff _ (networkTlsInit_stale _)]
  rintro ⟨-, -, hdisconnect, -⟩
  exact absurd (hdisconnect rfl) (by decide)

end TuyaDaemon
