import TuyaDaemon.CLib.Sprintf
import TuyaDaemon.Link.MessageSend

/-!
# Identity strings and credentials

`tuya_mqtt_auth_signature_calculate` with the HMAC wrapper of `cipher_wrapper.c`, and the topic of
`mqtt_client_connected_cb`.  All strings made of the device id are printed into arrays without a bound; the array of
the subscription topic is the first that a long id overflows (`identityFits_iff`).  The signature takes 16 bytes of
the secret and ignores the result of the HMAC; `credentials_iff` is when what it prints can be verified.
-/

namespace TuyaDaemon

open CLib

/-! ### The model -/

/-- HMAC-SHA256 as a function of the key and the message: a short key is padded with zero bytes. -/
structure Hmac where
  mac : List UInt8 → List UInt8 → List UInt8
  length_mac : ∀ key message, (mac key message).length = 32
  zero_pad : ∀ key message, key.length < 64 → mac (key ++ [0]) message = mac key message

/-- What the environment contributes to the signature: the timestamp, the return codes of the mbedTLS calls, and the
uninitialised digest. -/
structure AuthEnv where
  timestamp : UInt32
  setup : Int
  starts : Int
  update : Int
  finish : Int
  digest : List UInt8
  length_digest : digest.length = 32

/-- The HMAC was computed. -/
def AuthEnv.Computed (env : AuthEnv) : Prop := env.setup = 0 ∧ env.starts = 0 ∧ env.update = 0 ∧ env.finish = 0

instance (env : AuthEnv) : Decidable env.Computed := inferInstanceAs (Decidable (_ ∧ _ ∧ _ ∧ _))

/-- `mbedtls_message_digest_hmac`: its return code, and the digest it leaves.  `mem` is the array the key points to. -/
def mbedtlsMessageDigestHmac (hmac : Hmac) (env : AuthEnv) (mem : List UInt8) (keylen : Nat) (input : List UInt8) :
    Except Fault (Int × List UInt8) :=
  if keylen = 0 ∨ input = [] then .ok (-1, env.digest)
  else if env.setup ≠ 0 then .ok (env.setup, env.digest)
  else if mem.length < keylen then .error .outOfBounds
  else .ok (env.setup, if env.Computed then hmac.mac (mem.take keylen) input else env.digest)

/-- `hmac_sha256_once`, with the key length 16. -/
def hmacSha256Once (hmac : Hmac) (env : AuthEnv) (mem input : List UInt8) : Except Fault (Int × List UInt8) :=
  mbedtlsMessageDigestHmac hmac env mem 16 input

def usernameText (deviceId timestamp : List UInt8) : List UInt8 :=
  deviceId ++ (bytes "|signMethod=hmacSha256,timestamp=" ++ (timestamp ++ bytes ",secureMode=1,accessType=1"))

def clientidText (deviceId : List UInt8) : List UInt8 := bytes "tuyalink_" ++ deviceId

def signedText (deviceId timestamp : List UInt8) : List UInt8 :=
  bytes "deviceId=" ++ (deviceId ++ (bytes ",timestamp=" ++ (timestamp ++ bytes ",secureMode=1,accessType=1")))

/-- `tuya_mqtt_auth_signature_calculate`. -/
def tuyaMqttAuthSignatureCalculate (hmac : Hmac) (env : AuthEnv) (deviceId deviceSecret : CString)
    (auth : TuyaMqttAuth) : Except Fault (Int × TuyaMqttAuth) := do
  let username ← sprintfAt auth.username 0 (usernameText deviceId.chars (formatD env.timestamp))
  let clientid ← sprintfAt auth.clientid 0 (clientidText deviceId.chars)
  let stuff := signedText deviceId.chars (formatD env.timestamp)
  let passwardStuff ← sprintfAt (List.replicate 255 0) 0 stuff
  -- the return code is not looked at
  let (_, digest) ← hmacSha256Once hmac env (deviceSecret.chars ++ [0]) (passwardStuff.take stuff.length)
  let password ← sprintfHex auth.password 0 digest
  .ok (oprtOk, ⟨clientid, username, password⟩)

def autoSubscribeText (deviceId : List UInt8) : List UInt8 :=
  bytes "tylink/" ++ (deviceId ++ bytes "/channel/downlink/auto_subscribe")

/-- The topic that `mqtt_client_connected_cb` prints into its array of 64 bytes. -/
def autoSubscribeTopic (deviceId : CString) : Except Fault (List UInt8) :=
  (sprintfAt (List.replicate 64 0) 0 (autoSubscribeText deviceId.chars)).map upToNul

/-! ### Lengths -/

theorem length_usernameText (d t : List UInt8) : (usernameText d t).length = d.length + t.length + 59 := by
  have h₁ : (bytes "|signMethod=hmacSha256,timestamp=").length = 33 := by decide
  have h₂ : (bytes ",secureMode=1,accessType=1").length = 26 := by decide
  simp only [usernameText, List.length_append, h₁, h₂]
  omega

theorem length_clientidText (d : List UInt8) : (clientidText d).length = d.length + 9 := by
  have h₁ : (bytes "tuyalink_").length = 9 := by decide
  simp only [clientidText, List.length_append, h₁]
  omega

theorem length_signedText (d t : List UInt8) : (signedText d t).length = d.length + t.length + 46 := by
  have h₁ : (bytes "deviceId=").length = 9 := by decide
  have h₂ : (bytes ",timestamp=").length = 11 := by decide
  have h₃ : (bytes ",secureMode=1,accessType=1").length = 26 := by decide
  simp only [signedText, List.length_append, h₁, h₂, h₃]
  omega

theorem length_autoSubscribeText (d : List UInt8) : (autoSubscribeText d).length = d.length + 39 := by
  have h₁ : (bytes "tylink/").length = 7 := by decide
  have h₂ : (bytes "/channel/downlink/auto_subscribe").length = 32 := by decide
  simp only [autoSubscribeText, List.length_append, h₁, h₂]
  omega

/-- The arrays of the signature hold what is printed into them. -/
structure BuffersSuffice (deviceId : CString) (timestamp : UInt32) : Prop where
  username : (usernameText deviceId.chars (formatD timestamp)).length < 128
  clientid : (clientidText deviceId.chars).length < 128
  stuff : (signedText deviceId.chars (formatD timestamp)).length < 255

theorem buffersSuffice_of_short {deviceId : CString} (h : deviceId.chars.length ≤ 57) (timestamp : UInt32) :
    BuffersSuffice deviceId timestamp := by
  have ht := length_formatD_le timestamp
  refine ⟨?_, ?_, ?_⟩
  · rw [length_usernameText]
    omega
  · rw [length_clientidText]
    omega
  · rw [length_signedText]
    omega

/-! ### What the signature computes -/

/-- The digest that the signature prints. -/
def printedDigest (hmac : Hmac) (env : AuthEnv) (deviceId deviceSecret : CString) : List UInt8 :=
  if env.Computed then
    hmac.mac ((deviceSecret.chars ++ [0]).take 16) (signedText deviceId.chars (formatD env.timestamp))
  else env.digest

private theorem signedText_ne_nil (d t : List UInt8) : signedText d t ≠ [] := by
  intro h
  have := length_signedText d t
  rw [h] at this
  simp at this

private theorem usernameText_noNul {d : List UInt8} (hd : 0 ∉ d) (t : UInt32) : 0 ∉ usernameText d (formatD t) := by
  have h₁ : 0 ∉ bytes "|signMethod=hmacSha256,timestamp=" := by decide
  have h₂ : 0 ∉ bytes ",secureMode=1,accessType=1" := by decide
  simp [usernameText, h₁, h₂, hd, formatD_noNul]

/-- The key length and the input are never empty. -/
private theorem hmacSha256Once_eq (hmac : Hmac) (env : AuthEnv) (mem d t : List UInt8) :
    hmacSha256Once hmac env mem (signedText d t) =
      if env.setup ≠ 0 then .ok (env.setup, env.digest)
      else if mem.length < 16 then .error .outOfBounds
      else .ok (env.setup, if env.Computed then hmac.mac (mem.take 16) (signedText d t) else env.digest) := by
  have hne : ¬ (16 = 0 ∨ signedText d t = []) := by
    rintro (h | h)
    · omega
    · exact signedText_ne_nil d t h
  rw [hmacSha256Once, mbedtlsMessageDigestHmac, if_neg hne]

private theorem hmacSha256Once_ok {hmac : Hmac} {env : AuthEnv} {deviceId deviceSecret : CString}
    (h : env.setup ≠ 0 ∨ 15 ≤ deviceSecret.chars.length) :
    hmacSha256Once hmac env (deviceSecret.chars ++ [0]) (signedText deviceId.chars (formatD env.timestamp)) =
      .ok (env.setup, printedDigest hmac env deviceId deviceSecret) := by
  rw [hmacSha256Once_eq]
  by_cases hsetup : env.setup = 0
  · have hlen : ¬ (deviceSecret.chars ++ [0]).length < 16 := by
      have := h.resolve_left (by simp [hsetup])
      simp only [List.length_append, List.length_singleton]
      omega
    rw [if_neg (by simp [hsetup]), if_neg hlen]
    rfl
  · have hnot : ¬ env.Computed := fun h => hsetup h.1
    rw [if_pos hsetup, printedDigest, if_neg hnot]

private theorem length_printedDigest (hmac : Hmac) (env : AuthEnv) (deviceId deviceSecret : CString) :
    (printedDigest hmac env deviceId deviceSecret).length = 32 := by
  unfold printedDigest
  split
  · exact hmac.length_mac _ _
  · exact env.length_digest

/-- With room in the arrays the signature gets as far as the HMAC. -/
private theorem signature_printed (hmac : Hmac) {env : AuthEnv} {deviceId : CString} (deviceSecret : CString)
    (hsuff : BuffersSuffice deviceId env.timestamp) :
    ∃ username clientid, tuyaMqttAuthSignatureCalculate hmac env deviceId deviceSecret .zero = (do
      let (_, digest) ← hmacSha256Once hmac env (deviceSecret.chars ++ [0])
        (signedText deviceId.chars (formatD env.timestamp))
      let password ← sprintfHex (List.replicate 96 0) 0 digest
      .ok (oprtOk, ⟨clientidText deviceId.chars ++ 0 :: clientid,
        usernameText deviceId.chars (formatD env.timestamp) ++ 0 :: username, password⟩)) := by
  obtain ⟨username, husername⟩ := sprintfAt_start (List.replicate 128 0)
    (s := usernameText deviceId.chars (formatD env.timestamp)) (by rw [List.length_replicate]; exact hsuff.username)
  obtain ⟨clientid, hclientid⟩ := sprintfAt_start (List.replicate 128 0)
    (s := clientidText deviceId.chars) (by rw [List.length_replicate]; exact hsuff.clientid)
  obtain ⟨stuff, hstuff⟩ := sprintfAt_start (List.replicate 255 0)
    (s := signedText deviceId.chars (formatD env.timestamp)) (by rw [List.length_replicate]; exact hsuff.stuff)
  refine ⟨username, clientid, ?_⟩
  simp only [tuyaMqttAuthSignatureCalculate, TuyaMqttAuth.zero, husername, hclientid, hstuff, ok_bind, List.take_left]

/-- With room in the arrays and a readable key the signature returns `OPRT_OK` and prints the three strings. -/
theorem signature_ok (hmac : Hmac) {env : AuthEnv} {deviceId deviceSecret : CString}
    (hsuff : BuffersSuffice deviceId env.timestamp) (hkey : env.setup ≠ 0 ∨ 15 ≤ deviceSecret.chars.length) :
    ∃ auth, tuyaMqttAuthSignatureCalculate hmac env deviceId deviceSecret .zero = .ok (oprtOk, auth) ∧
      upToNul auth.username = usernameText deviceId.chars (formatD env.timestamp) ∧
      upToNul auth.password = hexText (printedDigest hmac env deviceId deviceSecret) := by
  have hlen := length_printedDigest hmac env deviceId deviceSecret
  have hne : printedDigest hmac env deviceId deviceSecret ≠ [] := by
    intro h
    rw [h] at hlen
    cases hlen
  obtain ⟨username, clientid, hprinted⟩ := signature_printed hmac deviceSecret hsuff
  obtain ⟨password, hpassword⟩ := sprintfHex_start hne (List.replicate 96 0)
    (by rw [hlen, List.length_replicate]; decide)
  refine ⟨⟨clientidText deviceId.chars ++ 0 :: clientid,
    usernameText deviceId.chars (formatD env.timestamp) ++ 0 :: username,
    hexText (printedDigest hmac env deviceId deviceSecret) ++ 0 :: password⟩, ?_, ?_, ?_⟩
  · rw [hprinted, hmacSha256Once_ok hkey, ok_bind]
    simp only [hpassword, ok_bind]
  · exact upToNul_append_nul (usernameText_noNul deviceId.noNul _)
  · exact upToNul_append_nul (hexText_noNul _)

/-- Without room in an array the signature writes behind it. -/
theorem signature_overflow {hmac : Hmac} {env : AuthEnv} {deviceId deviceSecret : CString}
    (h : ¬ BuffersSuffice deviceId env.timestamp) :
    tuyaMqttAuthSignatureCalculate hmac env deviceId deviceSecret .zero = .error .overflow := by
  have hover : ∀ (n : Nat) (s : List UInt8), ¬ s.length < n →
      sprintfAt (List.replicate n 0) 0 s = .error .overflow := by
    intro n s hs
    apply sprintfAt_overflow
    rw [List.length_replicate]
    omega
  have hfits : ∀ (n : Nat) (s : List UInt8), s.length < n → ∃ mem, sprintfAt (List.replicate n 0) 0 s = .ok mem := by
    intro n s hs
    obtain ⟨rest, hrest⟩ := sprintfAt_start (List.replicate n 0) (s := s)
      (by rw [List.length_replicate]; exact hs)
    exact ⟨_, hrest⟩
  simp only [tuyaMqttAuthSignatureCalculate, TuyaMqttAuth.zero]
  by_cases hu : (usernameText deviceId.chars (formatD env.timestamp)).length < 128
  · obtain ⟨username, husername⟩ := hfits _ _ hu
    rw [husername, ok_bind]
    by_cases hc : (clientidText deviceId.chars).length < 128
    · obtain ⟨clientid, hclientid⟩ := hfits _ _ hc
      have hs : ¬ (signedText deviceId.chars (formatD env.timestamp)).length < 255 := fun hs => h ⟨hu, hc, hs⟩
      rw [hclientid, ok_bind, hover _ _ hs, error_bind]
    · rw [hover _ _ hc, error_bind]
  · rw [hover _ _ hu, error_bind]

/-- With room in the arrays but a secret of fewer than 15 characters, the HMAC reads behind the secret. -/
theorem signature_outOfBounds {hmac : Hmac} {env : AuthEnv} {deviceId deviceSecret : CString}
    (hsuff : BuffersSuffice deviceId env.timestamp) (hsetup : env.setup = 0) (hkey : deviceSecret.chars.length < 15) :
    tuyaMqttAuthSignatureCalculate hmac env deviceId deviceSecret .zero = .error .outOfBounds := by
  obtain ⟨username, clientid, hprinted⟩ := signature_printed hmac deviceSecret hsuff
  have hlen : (deviceSecret.chars ++ [0]).length < 16 := by
    simp only [List.length_append, List.length_singleton]
    omega
  rw [hprinted, hmacSha256Once_eq, if_neg (by simp [hsetup]), if_pos hlen, error_bind]

/-- The signature overflows an array exactly when one of them has no room. -/
theorem signature_overflow_iff {hmac : Hmac} {env : AuthEnv} {deviceId deviceSecret : CString} :
    tuyaMqttAuthSignatureCalculate hmac env deviceId deviceSecret .zero = .error .overflow ↔
      ¬ BuffersSuffice deviceId env.timestamp := by
  constructor
  · intro h hsuff
    by_cases hkey : env.setup ≠ 0 ∨ 15 ≤ deviceSecret.chars.length
    · obtain ⟨auth, hok, -, -⟩ := signature_ok hmac hsuff hkey
      rw [hok] at h
      cases h
    · rw [not_or, not_not] at hkey
      rw [signature_outOfBounds hsuff hkey.1 (by omega)] at h
      cases h
  · exact signature_overflow

/-! ### Identity strings -/

/-- Every string made of the device id fits the array it is printed into, and the topic of a report is not cut. -/
structure IdentityFits (deviceId : CString) (timestamp : UInt32) : Prop where
  signature : ∀ (hmac : Hmac) (env : AuthEnv) (deviceSecret : CString), env.timestamp = timestamp →
    tuyaMqttAuthSignatureCalculate hmac env deviceId deviceSecret .zero ≠ .error .overflow
  topic : autoSubscribeTopic deviceId ≠ .error .overflow
  report : topicStuff deviceId.chars (bytes "thing/property/report") =
    tylinkPrefix ++ deviceId.chars ++ slash :: bytes "thing/property/report"

private theorem autoSubscribeTopic_overflow_iff {deviceId : CString} :
    autoSubscribeTopic deviceId = .error .overflow ↔ 24 < deviceId.chars.length := by
  have hlen := length_autoSubscribeText deviceId.chars
  unfold autoSubscribeTopic
  by_cases h : (autoSubscribeText deviceId.chars).length < 64
  · obtain ⟨rest, hrest⟩ := sprintfAt_start (List.replicate 64 0) (s := autoSubscribeText deviceId.chars)
      (by rw [List.length_replicate]; exact h)
    rw [hrest]
    constructor
    · intro h'
      cases h'
    · intro h'
      omega
  · rw [sprintfAt_overflow (by rw [List.length_replicate]; omega)]
    constructor
    · intro _
      omega
    · intro _
      rfl

theorem autoSubscribeTopic_ok {deviceId : CString} {topic : List UInt8} (h : autoSubscribeTopic deviceId = .ok topic) :
    topic = autoSubscribeText deviceId.chars := by
  have hfit : (autoSubscribeText deviceId.chars).length < 64 := by
    by_contra hlong
    have hover : autoSubscribeTopic deviceId = .error .overflow := by
      rw [autoSubscribeTopic_overflow_iff]
      rw [length_autoSubscribeText] at hlong
      omega
    rw [hover] at h
    cases h
  have hnul : 0 ∉ autoSubscribeText deviceId.chars := by
    have h₁ : 0 ∉ bytes "tylink/" := by decide
    have h₂ : 0 ∉ bytes "/channel/downlink/auto_subscribe" := by decide
    simp [autoSubscribeText, h₁, h₂, deviceId.noNul]
  obtain ⟨rest, hrest⟩ := sprintfAt_start (List.replicate 64 0) (s := autoSubscribeText deviceId.chars)
    (by rw [List.length_replicate]; exact hfit)
  rw [autoSubscribeTopic, hrest] at h
  cases h
  exact upToNul_append_nul hnul

theorem length_le_of_identityFits {deviceId : CString} {timestamp : UInt32} (h : IdentityFits deviceId timestamp) :
    deviceId.chars.length ≤ 24 :=
  Nat.le_of_not_lt (mt autoSubscribeTopic_overflow_iff.2 h.topic)

/-- The identity strings fit exactly when the device id has at most 24 characters. -/
theorem identityFits_iff (deviceId : CString) (timestamp : UInt32) :
    IdentityFits deviceId timestamp ↔ deviceId.chars.length ≤ 24 := by
  constructor
  · exact length_le_of_identityFits
  · intro h
    refine ⟨?_, ?_, ?_⟩
    · intro hmac env deviceSecret htimestamp
      rw [ne_eq, signature_overflow_iff, not_not]
      exact buffersSuffice_of_short (by omega) env.timestamp
    · rw [ne_eq, autoSubscribeTopic_overflow_iff]
      omega
    · have h₁ : tylinkPrefix.length = 7 := by decide
      have h₂ : (bytes "thing/property/report").length = 21 := by decide
      apply List.take_of_length_le
      simp only [List.length_append, List.length_cons, h₁, h₂]
      omega

/-- An id of 25 characters, which is within `TUYA_MQTT_DEVICE_ID_MAXLEN`. -/
theorem not_identityFits_25 :
    ¬ IdentityFits ⟨bytes "1234567890123456789012345", by decide, by decide⟩ 1700000000 := by
  intro h
  exact absurd (length_le_of_identityFits h) (by decide)

/-! ### Credentials -/

/-- The credentials that the cloud verifies: the timestamp in decimal, and the HMAC keyed with the whole secret. -/
structure Verifiable (hmac : Hmac) (deviceId deviceSecret : CString) (timestamp : UInt32) (auth : TuyaMqttAuth) :
    Prop where
  username : upToNul auth.username = usernameText deviceId.chars (decimal timestamp.toNat)
  password : upToNul auth.password =
    hexText (hmac.mac deviceSecret.chars (signedText deviceId.chars (decimal timestamp.toNat)))

/-- When the signature returns `OPRT_OK` its credentials can be verified, and it does not when the HMAC was not
computed.  This is for every HMAC, so what is verified is what was meant and not a collision. -/
def SignsVerifiably (env : AuthEnv) (deviceId deviceSecret : CString) : Prop :=
  ∀ hmac : Hmac, ∃ rc auth, tuyaMqttAuthSignatureCalculate hmac env deviceId deviceSecret .zero = .ok (rc, auth) ∧
    (rc = oprtOk → Verifiable hmac deviceId deviceSecret env.timestamp auth) ∧ (¬ env.Computed → rc ≠ oprtOk)

/-- The condition: the HMAC is computed, the secret has 16 characters or 15 (the terminator is the padding), and the
timestamp is below `2^31`. -/
def SignatureFits (env : AuthEnv) (deviceSecret : CString) : Prop :=
  env.Computed ∧ (deviceSecret.chars.length = 15 ∨ deviceSecret.chars.length = 16) ∧ env.timestamp.toNat < 2 ^ 31

theorem signsVerifiably_of_fits {env : AuthEnv} {deviceId deviceSecret : CString}
    (hsuff : BuffersSuffice deviceId env.timestamp) (h : SignatureFits env deviceSecret) :
    SignsVerifiably env deviceId deviceSecret := by
  obtain ⟨hcomputed, hsecret, ht⟩ := h
  intro hmac
  have hread : env.setup ≠ 0 ∨ 15 ≤ deviceSecret.chars.length := Or.inr (by omega)
  obtain ⟨auth, hok, husername, hpassword⟩ := signature_ok hmac hsuff hread
  rw [formatD_of_lt ht] at husername
  rw [printedDigest, if_pos hcomputed, formatD_of_lt ht] at hpassword
  have hkey : hmac.mac ((deviceSecret.chars ++ [0]).take 16) (signedText deviceId.chars (decimal env.timestamp.toNat)) =
      hmac.mac deviceSecret.chars (signedText deviceId.chars (decimal env.timestamp.toNat)) := by
    rcases hsecret with h15 | h16
    · rw [List.take_of_length_le (by simp [h15])]
      exact hmac.zero_pad _ _ (by omega)
    · rw [List.take_left' h16]
  rw [hkey] at hpassword
  exact ⟨oprtOk, auth, hok, fun _ => ⟨husername, hpassword⟩, fun hnot => absurd hcomputed hnot⟩

private theorem getD_append_zero (key : List UInt8) (i : Nat) : (key ++ [0]).getD i 0 = key.getD i 0 := by
  rcases Nat.lt_trichotomy key.length i with h | h | h
  · rw [List.getD_eq_default _ _ (by simp; omega), List.getD_eq_default _ _ (by omega)]
  · rw [List.getD_eq_default key _ (by omega), List.getD_append_right _ _ _ _ (by omega), h, Nat.sub_self]
    rfl
  · rw [List.getD_append _ _ _ _ h]

/-- A function that shows the 17th character of the key. -/
private def seventeenth : Hmac where
  mac key _ := List.replicate 32 (key.getD 16 0)
  length_mac _ _ := List.length_replicate
  zero_pad key _ _ := congrArg (List.replicate 32) (getD_append_zero key 16)

theorem fits_of_signsVerifiably {env : AuthEnv} {deviceId deviceSecret : CString}
    (hsuff : BuffersSuffice deviceId env.timestamp) (h : SignsVerifiably env deviceId deviceSecret) :
    SignatureFits env deviceSecret := by
  have hkey : env.setup ≠ 0 ∨ 15 ≤ deviceSecret.chars.length := by
    by_contra hkey
    rw [not_or, not_not] at hkey
    obtain ⟨rc, auth, hrun, -, -⟩ := h seventeenth
    rw [signature_outOfBounds hsuff hkey.1 (by omega)] at hrun
    cases hrun
  obtain ⟨auth, hok, husername, hpassword⟩ := signature_ok seventeenth hsuff hkey
  obtain ⟨rc, auth', hrun, hverifiable, hnot⟩ := h seventeenth
  rw [hok] at hrun
  cases hrun
  have hcomputed : env.Computed := by
    by_contra hc
    exact hnot hc rfl
  obtain ⟨husername', hpassword'⟩ := hverifiable rfl
  have ht : env.timestamp.toNat < 2 ^ 31 := by
    by_contra hge
    rw [husername, usernameText, usernameText, formatD_of_ge (by omega)] at husername'
    have h₁ := List.append_cancel_left (List.append_cancel_left husername')
    rw [List.cons_append] at h₁
    exact minus_cons_ne_decimal_append _ _ _ h₁
  refine ⟨hcomputed, ?_, ht⟩
  have hlong : 15 ≤ deviceSecret.chars.length := hkey.resolve_left (not_not.2 hcomputed.1)
  by_contra hlen
  have h17 : 16 < deviceSecret.chars.length := by omega
  rw [hpassword, printedDigest, if_pos hcomputed] at hpassword'
  have hdigest := hexText_injective hpassword'
  -- the key that was used has no 17th character, the secret has one
  have hused : ((deviceSecret.chars ++ [0]).take 16).getD 16 0 = 0 := by
    apply List.getD_eq_default
    rw [List.length_take]
    omega
  have hread : (0 : UInt8) = deviceSecret.chars.getD 16 0 := by
    have := congrArg List.head? hdigest
    simp only [seventeenth, hused, List.head?_replicate] at this
    simpa using this
  apply deviceSecret.noNul
  rw [hread, List.getD_eq_getElem _ _ h17]
  exact List.getElem_mem h17

/-- With room in the arrays, the credentials can be verified exactly when the signature fits. -/
theorem signsVerifiably_iff {env : AuthEnv} {deviceId : CString} (deviceSecret : CString)
    (hsuff : BuffersSuffice deviceId env.timestamp) :
    SignsVerifiably env deviceId deviceSecret ↔ SignatureFits env deviceSecret :=
  ⟨fits_of_signsVerifiably hsuff, signsVerifiably_of_fits hsuff⟩

/-- The device `x` in 2023, all mbedTLS calls succeeding. -/
def exampleAuthEnv : AuthEnv := ⟨1700000000, 0, 0, 0, 0, List.replicate 32 0, rfl⟩

theorem signsVerifiably_iff_example :
    SignsVerifiably exampleAuthEnv ⟨bytes "x", by decide, by decide⟩ ⟨bytes "0123456789abcdef", by decide, by decide⟩ ↔
      SignatureFits exampleAuthEnv ⟨bytes "0123456789abcdef", by decide, by decide⟩ :=
  signsVerifiably_iff _ (buffersSuffice_of_short (by decide) _)

/-- A secret of 17 characters. -/
theorem not_signsVerifiably_17 :
    ¬ SignsVerifiably exampleAuthEnv ⟨bytes "x", by decide, by decide⟩
      ⟨bytes "0123456789abcdefg", by decide, by decide⟩ := by
  intro h
  have hsecret := (fits_of_signsVerifiably (buffersSuffice_of_short (by decide) _) h).2.1
  exact absurd hsecret (by decide)

end TuyaDaemon
