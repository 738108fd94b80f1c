import TuyaDaemon.Link.Auth

/-!
# The wrappers of mbedTLS

The four functions of `cipher_wrapper.c` over arbitrary answers of the mbedTLS calls, with a log of the calls.  The
decrypt wrapper keeps the status `0` when the lookup, the block size or the key fails, and does not look at the length
of the key; the encrypt wrapper computes that length modulo `2^64`; the digests drop the results behind the setup.
`successMeansSuccess_iff` says when the four report success only on success.
-/

namespace TuyaDaemon

namespace CipherWrapper

/-! ### The model -/

/-- The part of `mbedtls_cipher_info_t` that is read. -/
structure CipherInfo where
  keyBitlen : UInt32
deriving DecidableEq, Repr

/-- `cipher_params_t`, over the type `P` of its pointers. -/
structure CipherParams (P : Type) where
  key : P
  nonce : P
  ad : P
  data : P
  keyLen : UInt64
  nonceLen : UInt64
  adLen : UInt64
  dataLen : UInt64
  cipherType : Nat

/-- `mbedtls_operation_t` -/
inductive CipherOperation where
  | encrypt
  | decrypt
deriving DecidableEq, Repr

/-- The calls of mbedTLS that can fail, with their arguments. -/
inductive MbedtlsCall (P : Type) where
  | cipherInfoFromType (type : Nat)
  | cipherSetup (info : CipherInfo)
  | cipherGetBlockSize
  | cipherSetkey (key : P) (keyBitlen : UInt32) (operation : CipherOperation)
  | cipherAuthEncrypt (input : CipherParams P) (output olen tag : P) (tagLen : UInt64)
  | cipherAuthDecrypt (input : CipherParams P) (output olen tag : P) (tagLen : UInt64)
  | mdInfoFromType (type : Nat)
  | mdSetup (hmac : Bool)
  | mdStarts
  | mdUpdate (input : P) (ilen : UInt64)
  | mdFinish (digest : P)
  | mdHmacStarts (key : P) (keylen : UInt64)
  | mdHmacUpdate (input : P) (ilen : UInt64)
  | mdHmacFinish (digest : P)

/-- A call that was made, and whether it succeeded. -/
structure Answered (P : Type) where
  call : MbedtlsCall P
  ok : Bool

/-- What the calls for a cipher return; `crypt` is what the authenticated encryption or decryption returns. -/
structure CipherEnv where
  infoFromType : Nat → Option CipherInfo
  setup : Int
  blockSize : UInt32
  setkey : Int
  crypt : Int

/-- What the calls for a digest return; `setup` is for a digest that was found. -/
structure DigestEnv where
  infoFound : Bool
  setup : Int
  starts : Int
  update : Int
  finish : Int

/-- `mbedtls_md_setup`, which checks the result of the lookup. -/
def DigestEnv.mdSetup (env : DigestEnv) : Int := if env.infoFound then env.setup else -0x5100

variable {P : Type}

def mbedtlsCipherAuthEncryptWrapper (env : CipherEnv) (input : Option (CipherParams P)) (output olen : Option P)
    (tag : P) (tagLen : UInt64) : Int × List (Answered P) :=
  match input, output, olen with
  | some input, some output, some olen =>
    match env.infoFromType input.cipherType with
    | none => (oprtInvalidParm, [⟨.cipherInfoFromType input.cipherType, false⟩])
    | some info =>
      let calls := [⟨.cipherInfoFromType input.cipherType, true⟩, ⟨.cipherSetup info, env.setup == 0⟩]
      if env.setup ≠ 0 then (env.setup, calls)
      else if input.keyLen * 8 ≠ info.keyBitlen.toUInt64 then (oprtInvalidParm, calls)
      else
        let calls := calls ++ [⟨.cipherSetkey input.key info.keyBitlen .encrypt, env.setkey == 0⟩]
        -- `ret = mbedtls_cipher_setkey(…) != 0`
        if env.setkey ≠ 0 then (1, calls)
        else (env.crypt, calls ++ [⟨.cipherAuthEncrypt input output olen tag tagLen, env.crypt == 0⟩])
  | _, _, _ => (oprtInvalidParm, [])

def mbedtlsCipherAuthDecryptWrapper (env : CipherEnv) (input : Option (CipherParams P)) (output olen : Option P)
    (tag : P) (tagLen : UInt64) : Int × List (Answered P) :=
  match input, output, olen with
  | some input, some output, some olen =>
    -- `ret` is still `OPRT_OK`
    match env.infoFromType input.cipherType with
    | none => (oprtOk, [⟨.cipherInfoFromType input.cipherType, false⟩])
    | some info =>
      let calls := [⟨.cipherInfoFromType input.cipherType, true⟩, ⟨.cipherSetup info, env.setup == 0⟩]
      if env.setup ≠ 0 then (env.setup, calls)
      else
        let calls := calls ++ [⟨.cipherGetBlockSize, env.blockSize != 0⟩]
        if env.blockSize = 0 then (env.setup, calls)
        else
          let calls := calls ++ [⟨.cipherSetkey input.key info.keyBitlen .decrypt, env.setkey == 0⟩]
          if env.setkey ≠ 0 then (env.setup, calls)
          else (env.crypt, calls ++ [⟨.cipherAuthDecrypt input output olen tag tagLen, env.crypt == 0⟩])
  | _, _, _ => (oprtInvalidParm, [])

/-- The body of the two digests, behind the checks of their arguments. -/
def digestBody (env : DigestEnv) (type : Nat) (hmac : Bool) (starts update finish : MbedtlsCall P) :
    Int × List (Answered P) :=
  let ret := env.mdSetup
  let calls := [⟨.mdInfoFromType type, env.infoFound⟩, ⟨.mdSetup hmac, ret == 0⟩]
  if ret ≠ 0 then (ret, calls)
  else (ret, calls ++ [⟨starts, env.starts == 0⟩, ⟨update, env.update == 0⟩, ⟨finish, env.finish == 0⟩])

def mbedtlsMessageDigest (env : DigestEnv) (type : Nat) (input : Option P) (ilen : UInt64) (digest : Option P) :
    Int × List (Answered P) :=
  match input, digest with
  | some input, some digest =>
    if ilen = 0 then (-1, [])
    else digestBody env type false .mdStarts (.mdUpdate input ilen) (.mdFinish digest)
  | _, _ => (-1, [])

def mbedtlsMessageDigestHmac (env : DigestEnv) (type : Nat) (key : Option P) (keylen : UInt64) (input : Option P)
    (ilen : UInt64) (digest : Option P) : Int × List (Answered P) :=
  match key, input, digest with
  | some key, some input, some digest =>
    if keylen = 0 ∨ ilen = 0 then (-1, [])
    else digestBody env type true (.mdHmacStarts key keylen) (.mdHmacUpdate input ilen) (.mdHmacFinish digest)
  | _, _, _ => (-1, [])

/-! ### Success -/

/-- The calls were made and succeeded. -/
def AllSucceeded (required : List (MbedtlsCall P)) (calls : List (Answered P)) : Prop :=
  ∀ call ∈ required, ⟨call, true⟩ ∈ calls

/-- The key has the length of the cipher. -/
def KeyFits (input : CipherParams P) (info : CipherInfo) : Prop := input.keyLen.toNat * 8 = info.keyBitlen.toNat

section Properties

variable (cipherEnv : CipherEnv) (digestEnv : DigestEnv) (params : Option (CipherParams P)) (output olen : Option P)
  (tag : P) (tagLen : UInt64) (type : Nat) (key : Option P) (keylen : UInt64) (input : Option P) (ilen : UInt64)
  (digest : Option P)

/-- The encrypt wrapper returns `0` only behind all its calls, for a key of the right length. -/
def EncryptSound : Prop :=
  (mbedtlsCipherAuthEncryptWrapper cipherEnv params output olen tag tagLen).1 = 0 →
    ∃ p out len info, params = some p ∧ output = some out ∧ olen = some len ∧
      cipherEnv.infoFromType p.cipherType = some info ∧ KeyFits p info ∧
      AllSucceeded [.cipherInfoFromType p.cipherType, .cipherSetup info, .cipherSetkey p.key info.keyBitlen .encrypt,
        .cipherAuthEncrypt p out len tag tagLen]
        (mbedtlsCipherAuthEncryptWrapper cipherEnv params output olen tag tagLen).2

/-- The decrypt wrapper returns `0` only behind all its calls, for a key of the right length. -/
def DecryptSound : Prop :=
  (mbedtlsCipherAuthDecryptWrapper cipherEnv params output olen tag tagLen).1 = 0 →
    ∃ p out len info, params = some p ∧ output = some out ∧ olen = some len ∧
      cipherEnv.infoFromType p.cipherType = some info ∧ KeyFits p info ∧
      AllSucceeded [.cipherInfoFromType p.cipherType, .cipherSetup info, .cipherSetkey p.key info.keyBitlen .decrypt,
        .cipherAuthDecrypt p out len tag tagLen]
        (mbedtlsCipherAuthDecryptWrapper cipherEnv params output olen tag tagLen).2

/-- The digest returns `0` only behind all its calls. -/
def DigestSound : Prop :=
  (mbedtlsMessageDigest digestEnv type input ilen digest).1 = 0 →
    ∃ i d, input = some i ∧ digest = some d ∧
      AllSucceeded [.mdInfoFromType type, .mdSetup false, .mdStarts, .mdUpdate i ilen, .mdFinish d]
        (mbedtlsMessageDigest digestEnv type input ilen digest).2

/-- The HMAC returns `0` only behind all its calls. -/
def HmacSound : Prop :=
  (mbedtlsMessageDigestHmac digestEnv type key keylen input ilen digest).1 = 0 →
    ∃ k i d, key = some k ∧ input = some i ∧ digest = some d ∧
      AllSucceeded [.mdInfoFromType type, .mdSetup true, .mdHmacStarts k keylen, .mdHmacUpdate i ilen, .mdHmacFinish d]
        (mbedtlsMessageDigestHmac digestEnv type key keylen input ilen digest).2

/-- When the encryption gets through, the length of the key in bits fits a `size_t`. -/
def EncryptFits : Prop :=
  ∀ p info, params = some p → output ≠ none → olen ≠ none → cipherEnv.infoFromType p.cipherType = some info →
    cipherEnv.setup = 0 → p.keyLen * 8 = info.keyBitlen.toUInt64 → cipherEnv.setkey = 0 → cipherEnv.crypt = 0 →
      p.keyLen.toNat < 2 ^ 61

/-- The cipher is found, and behind its setup nothing fails but the decryption itself, and the key is of the right
length when that does not. -/
def DecryptFits : Prop :=
  ∀ p, params = some p → output ≠ none → olen ≠ none →
    ∃ info, cipherEnv.infoFromType p.cipherType = some info ∧
      (cipherEnv.setup = 0 →
        cipherEnv.blockSize ≠ 0 ∧ cipherEnv.setkey = 0 ∧ (cipherEnv.crypt = 0 → KeyFits p info))

/-- Behind a successful setup nothing fails. -/
def DigestFits (env : DigestEnv) : Prop :=
  env.infoFound = true → env.setup = 0 → env.starts = 0 ∧ env.update = 0 ∧ env.finish = 0

end Properties

/-! ### The encrypt wrapper -/

section Encrypt

variable {env : CipherEnv} {p : CipherParams P} {info : CipherInfo}

/-- Modulo `2^64` the length in bits is right for the right length, and for lengths from `2^61` on. -/
theorem keyFits_iff (h : p.keyLen * 8 = info.keyBitlen.toUInt64) : KeyFits p info ↔ p.keyLen.toNat < 2 ^ 61 := by
  have hbits := congrArg UInt64.toNat h
  have hlt := info.keyBitlen.toNat_lt
  rw [UInt64.toNat_mul, UInt32.toNat_toUInt64, show (8 : UInt64).toNat = 8 from rfl] at hbits
  unfold KeyFits
  omega

/-- The encryption is reached, and returns what mbedTLS returns. -/
theorem encrypt_through (hinfo : env.infoFromType p.cipherType = some info) (hsetup : env.setup = 0)
    (hkey : p.keyLen * 8 = info.keyBitlen.toUInt64) (hsetkey : env.setkey = 0) (out len tag : P) (tagLen : UInt64) :
    mbedtlsCipherAuthEncryptWrapper env (some p) (some out) (some len) tag tagLen =
      (env.crypt, [⟨.cipherInfoFromType p.cipherType, true⟩, ⟨.cipherSetup info, true⟩,
        ⟨.cipherSetkey p.key info.keyBitlen .encrypt, true⟩,
        ⟨.cipherAuthEncrypt p out len tag tagLen, env.crypt == 0⟩]) := by
  simp [mbedtlsCipherAuthEncryptWrapper, hinfo, hsetup, hkey, hsetkey]

/-- A `NULL` is an error. -/
theorem encrypt_pointers {params : Option (CipherParams P)} {output olen : Option P} {tag : P} {tagLen : UInt64}
    (h : (mbedtlsCipherAuthEncryptWrapper env params output olen tag tagLen).1 = 0) :
    ∃ p out len, params = some p ∧ output = some out ∧ olen = some len := by
  unfold mbedtlsCipherAuthEncryptWrapper at h
  split at h
  · exact ⟨_, _, _, rfl, rfl, rfl⟩
  · exact absurd h (show oprtInvalidParm ≠ 0 by decide)

/-- So is any other exit. -/
theorem encrypt_error {out len tag : P} {tagLen : UInt64}
    (h : (mbedtlsCipherAuthEncryptWrapper env (some p) (some out) (some len) tag tagLen).1 = 0) :
    ∃ info, env.infoFromType p.cipherType = some info ∧ env.setup = 0 ∧ p.keyLen * 8 = info.keyBitlen.toUInt64 ∧
      env.setkey = 0 := by
  simp only [mbedtlsCipherAuthEncryptWrapper] at h
  split at h
  · exact absurd h (show oprtInvalidParm ≠ 0 by decide)
  · rename_i info hinfo
    split at h
    · rename_i hsetup
      exact absurd h hsetup
    · rename_i hsetup
      split at h
      · exact absurd h (show oprtInvalidParm ≠ 0 by decide)
      · rename_i hkey
        split at h
        · exact absurd h (show (1 : Int) ≠ 0 by decide)
        · rename_i hsetkey
          exact ⟨info, hinfo, not_not.1 hsetup, not_not.1 hkey, not_not.1 hsetkey⟩

theorem encryptSound_iff (env : CipherEnv) (params : Option (CipherParams P)) (output olen : Option P) (tag : P)
    (tagLen : UInt64) : EncryptSound env params output olen tag tagLen ↔ EncryptFits env params output olen := by
  constructor
  · rintro h p info rfl hout hlen hinfo hsetup hkey hsetkey hcrypt
    obtain ⟨out, rfl⟩ := Option.ne_none_iff_exists'.1 hout
    obtain ⟨len, rfl⟩ := Option.ne_none_iff_exists'.1 hlen
    have hret : (mbedtlsCipherAuthEncryptWrapper env (some p) (some out) (some len) tag tagLen).1 = 0 := by
      rw [encrypt_through hinfo hsetup hkey hsetkey]
      exact hcrypt
    obtain ⟨p', _, _, info', hp, -, -, hinfo', hfits, -⟩ := h hret
    cases hp
    rw [hinfo, Option.some_inj] at hinfo'
    subst hinfo'
    exact (keyFits_iff hkey).1 hfits
  · intro h hret
    obtain ⟨p, out, len, rfl, rfl, rfl⟩ := encrypt_pointers hret
    obtain ⟨info, hinfo, hsetup, hkey, hsetkey⟩ := encrypt_error hret
    rw [encrypt_through hinfo hsetup hkey hsetkey] at hret
    have hcrypt : env.crypt = 0 := hret
    refine ⟨p, out, len, info, rfl, rfl, rfl, hinfo, ?_, ?_⟩
    · exact (keyFits_iff hkey).2 (h p info rfl (by simp) (by simp) hinfo hsetup hkey hsetkey hcrypt)
    · rw [encrypt_through hinfo hsetup hkey hsetkey, hcrypt]
      intro call hcall
      simpa using hcall

end Encrypt

/-! ### The decrypt wrapper -/

section Decrypt

variable {env : CipherEnv} {p : CipherParams P} {info : CipherInfo}

/-- A `NULL` is an error. -/
theorem decrypt_pointers {params : Option (CipherParams P)} {output olen : Option P} {tag : P} {tagLen : UInt64}
    (h : (mbedtlsCipherAuthDecryptWrapper env params output olen tag tagLen).1 = 0) :
    ∃ p out len, params = some p ∧ output = some out ∧ olen = some len := by
  unfold mbedtlsCipherAuthDecryptWrapper at h
  split at h
  · exact ⟨_, _, _, rfl, rfl, rfl⟩
  · exact absurd h (show oprtInvalidParm ≠ 0 by decide)

/-- The decryption is reached, and returns what mbedTLS returns. -/
theorem decrypt_through (hinfo : env.infoFromType p.cipherType = some info) (hsetup : env.setup = 0)
    (hsize : env.blockSize ≠ 0) (hsetkey : env.setkey = 0) (out len tag : P) (tagLen : UInt64) :
    mbedtlsCipherAuthDecryptWrapper env (some p) (some out) (some len) tag tagLen =
      (env.crypt, [⟨.cipherInfoFromType p.cipherType, true⟩, ⟨.cipherSetup info, true⟩, ⟨.cipherGetBlockSize, true⟩,
        ⟨.cipherSetkey p.key info.keyBitlen .decrypt, true⟩,
        ⟨.cipherAuthDecrypt p out len tag tagLen, env.crypt == 0⟩]) := by
  simp [mbedtlsCipherAuthDecryptWrapper, hinfo, hsetup, hsize, hsetkey]

/-- Before the decryption, only a failed setup is reported. -/
theorem decrypt_early (out len tag : P) (tagLen : UInt64)
    (h : env.infoFromType p.cipherType = none ∨ env.setup = 0 ∧ (env.blockSize = 0 ∨ env.setkey ≠ 0)) :
    (mbedtlsCipherAuthDecryptWrapper env (some p) (some out) (some len) tag tagLen).1 = 0 ∧
      ⟨.cipherAuthDecrypt p out len tag tagLen, true⟩ ∉
        (mbedtlsCipherAuthDecryptWrapper env (some p) (some out) (some len) tag tagLen).2 := by
  simp only [mbedtlsCipherAuthDecryptWrapper]
  cases hinfo : env.infoFromType p.cipherType with
  | none => exact ⟨rfl, by simp⟩
  | some info =>
    rcases h with h | ⟨hsetup, h⟩
    · rw [hinfo] at h
      cases h
    · simp only [hsetup, ne_eq, not_true_eq_false, ite_false]
      by_cases hsize : env.blockSize = 0
      · rw [if_pos hsize]
        exact ⟨rfl, by simp⟩
      · rw [if_neg hsize, if_pos (h.resolve_left hsize)]
        exact ⟨rfl, by simp⟩

theorem decrypt_setupFailed (hinfo : env.infoFromType p.cipherType = some info) (hsetup : env.setup ≠ 0)
    (out len tag : P) (tagLen : UInt64) :
    (mbedtlsCipherAuthDecryptWrapper env (some p) (some out) (some len) tag tagLen).1 ≠ 0 := by
  simp only [mbedtlsCipherAuthDecryptWrapper, hinfo, if_pos hsetup]
  exact hsetup

theorem decryptSound_iff (env : CipherEnv) (params : Option (CipherParams P)) (output olen : Option P) (tag : P)
    (tagLen : UInt64) : DecryptSound env params output olen tag tagLen ↔ DecryptFits env params output olen := by
  constructor
  · rintro h p rfl hout hlen
    obtain ⟨out, rfl⟩ := Option.ne_none_iff_exists'.1 hout
    obtain ⟨len, rfl⟩ := Option.ne_none_iff_exists'.1 hlen
    -- nothing fails before the decryption, or it would be missing in the log
    have hlate : ¬ (env.infoFromType p.cipherType = none ∨
        env.setup = 0 ∧ (env.blockSize = 0 ∨ env.setkey ≠ 0)) := by
      intro hearly
      obtain ⟨hret, hmissing⟩ := decrypt_early (p := p) out len tag tagLen hearly
      obtain ⟨p', out', len', info, hp, ho, hl, -, -, hall⟩ := h hret
      cases hp
      cases ho
      cases hl
      exact hmissing (hall _ (by simp))
    rw [not_or] at hlate
    obtain ⟨info, hinfo⟩ := Option.ne_none_iff_exists'.1 hlate.1
    refine ⟨info, hinfo, fun hsetup => ?_⟩
    have hrest : ¬ (env.blockSize = 0 ∨ env.setkey ≠ 0) := fun hfail => hlate.2 ⟨hsetup, hfail⟩
    rw [not_or, not_not] at hrest
    refine ⟨hrest.1, hrest.2, fun hcrypt => ?_⟩
    have hret : (mbedtlsCipherAuthDecryptWrapper env (some p) (some out) (some len) tag tagLen).1 = 0 := by
      rw [decrypt_through hinfo hsetup hrest.1 hrest.2]
      exact hcrypt
    obtain ⟨p', _, _, info', hp, -, -, hinfo', hfits, -⟩ := h hret
    cases hp
    rw [hinfo, Option.some_inj] at hinfo'
    subst hinfo'
    exact hfits
  · intro h hret
    obtain ⟨p, out, len, rfl, rfl, rfl⟩ := decrypt_pointers hret
    obtain ⟨info, hinfo, hrest⟩ := h p rfl (by simp) (by simp)
    have hsetup : env.setup = 0 := by
      by_contra hsetup
      exact decrypt_setupFailed hinfo hsetup out len tag tagLen hret
    obtain ⟨hsize, hsetkey, hfits⟩ := hrest hsetup
    rw [decrypt_through hinfo hsetup hsize hsetkey] at hret
    have hcrypt : env.crypt = 0 := hret
    refine ⟨p, out, len, info, rfl, rfl, rfl, hinfo, hfits hcrypt, ?_⟩
    rw [decrypt_through hinfo hsetup hsize hsetkey, hcrypt]
    intro call hcall
    simp only [List.mem_cons, List.not_mem_nil, or_false] at hcall
    rcases hcall with rfl | rfl | rfl | rfl <;> simp

end Decrypt

/-! ### The digests -/

/-- A digest is made exactly when nothing fails behind a successful setup. -/
theorem digestBody_sound_iff (env : DigestEnv) (type : Nat) (hmac : Bool) (starts update finish : MbedtlsCall P)
    (hdistinct : starts ≠ update ∧ starts ≠ finish ∧ update ≠ finish)
    (hsteps : ∀ call ∈ [starts, update, finish], call ≠ .mdInfoFromType type ∧ call ≠ .mdSetup hmac) :
    ((digestBody env type hmac starts update finish).1 = 0 →
      AllSucceeded [.mdInfoFromType type, .mdSetup hmac, starts, update, finish]
        (digestBody env type hmac starts update finish).2) ↔ DigestFits env := by
  obtain ⟨hsu, hsf, huf⟩ := hdistinct
  obtain ⟨hs, hs'⟩ := hsteps starts (by simp)
  obtain ⟨hu, hu'⟩ := hsteps update (by simp)
  obtain ⟨hf, hf'⟩ := hsteps finish (by simp)
  by_cases hfound : env.infoFound = true
  · by_cases hsetup : env.setup = 0
    · have hret : env.mdSetup = 0 := by rw [DigestEnv.mdSetup, if_pos hfound, hsetup]
      simp only [digestBody, hret, ne_eq, not_true_eq_false, ite_false, forall_const]
      constructor
      · intro h _ _
        have hstarts := h starts (by simp)
        have hupdate := h update (by simp)
        have hfinish := h finish (by simp)
        simp [hs, hs', hsu, hsf] at hstarts
        simp [hu, hu', huf, Ne.symm hsu] at hupdate
        simp [hf, hf', Ne.symm hsf, Ne.symm huf] at hfinish
        exact ⟨hstarts, hupdate, hfinish⟩
      · intro h call hcall
        obtain ⟨hstarts, hupdate, hfinish⟩ := h hfound hsetup
        simp only [List.mem_cons, List.not_mem_nil, or_false] at hcall
        rcases hcall with rfl | rfl | rfl | rfl | rfl <;> simp [hfound, hstarts, hupdate, hfinish]
    · have hret : env.mdSetup ≠ 0 := by
        rw [DigestEnv.mdSetup, if_pos hfound]
        exact hsetup
      rw [digestBody, if_pos hret]
      exact ⟨fun _ _ h => absurd h hsetup, fun _ h => absurd h hret⟩
  · have hret : env.mdSetup ≠ 0 := by
      rw [DigestEnv.mdSetup, if_neg hfound]
      decide
    rw [digestBody, if_pos hret]
    exact ⟨fun _ h => absurd h hfound, fun _ h => absurd h hret⟩

theorem digestSound_iff (env : DigestEnv) (type : Nat) (input : Option P) (ilen : UInt64) (digest : Option P) :
    DigestSound env type input ilen digest ↔ (input ≠ none → ilen ≠ 0 → digest ≠ none → DigestFits env) := by
  unfold DigestSound
  cases input with
  | none => exact ⟨fun _ h => absurd rfl h, fun _ h => absurd h (show (-1 : Int) ≠ 0 by decide)⟩
  | some i =>
    cases digest with
    | none => exact ⟨fun _ _ _ h => absurd rfl h, fun _ h => absurd h (show (-1 : Int) ≠ 0 by decide)⟩
    | some d =>
      by_cases hlen : ilen = 0
      · rw [mbedtlsMessageDigest, if_pos hlen]
        exact ⟨fun _ _ h => absurd hlen h, fun _ h => absurd h (show (-1 : Int) ≠ 0 by decide)⟩
      · have hbody := digestBody_sound_iff env type false (.mdStarts) (.mdUpdate i ilen) (.mdFinish d)
          (by simp) (by simp)
        simp only [mbedtlsMessageDigest, if_neg hlen]
        constructor
        · intro h _ _ _
          refine hbody.1 fun hret => ?_
          obtain ⟨i', d', hi, hd, hall⟩ := h hret
          cases hi
          cases hd
          exact hall
        · intro h hret
          exact ⟨i, d, rfl, rfl, hbody.2 (h (by simp) hlen (by simp)) hret⟩

theorem hmacSound_iff (env : DigestEnv) (type : Nat) (key : Option P) (keylen : UInt64) (input : Option P)
    (ilen : UInt64) (digest : Option P) :
    HmacSound env type key keylen input ilen digest ↔
      (key ≠ none → keylen ≠ 0 → input ≠ none → ilen ≠ 0 → digest ≠ none → DigestFits env) := by
  unfold HmacSound
  cases key with
  | none => exact ⟨fun _ h => absurd rfl h, fun _ h => absurd h (show (-1 : Int) ≠ 0 by decide)⟩
  | some k =>
    cases input with
    | none => exact ⟨fun _ _ _ h => absurd rfl h, fun _ h => absurd h (show (-1 : Int) ≠ 0 by decide)⟩
    | some i =>
      cases digest with
      | none => exact ⟨fun _ _ _ _ _ h => absurd rfl h, fun _ h => absurd h (show (-1 : Int) ≠ 0 by decide)⟩
      | some d =>
        by_cases hlen : keylen = 0 ∨ ilen = 0
        · rw [mbedtlsMessageDigestHmac, if_pos hlen]
          refine ⟨fun _ _ hk _ hi => ?_, fun _ h => absurd h (show (-1 : Int) ≠ 0 by decide)⟩
          rcases hlen with hlen | hlen
          · exact absurd hlen hk
          · exact absurd hlen hi
        · have hbody := digestBody_sound_iff env type true (.mdHmacStarts k keylen) (.mdHmacUpdate i ilen)
            (.mdHmacFinish d) (by simp) (by simp)
          simp only [mbedtlsMessageDigestHmac, if_neg hlen]
          rw [not_or] at hlen
          constructor
          · intro h _ _ _ _ _
            refine hbody.1 fun hret => ?_
            obtain ⟨k', i', d', hk, hi, hd, hall⟩ := h hret
            cases hk
            cases hi
            cases hd
            exact hall
          · intro h hret
            exact ⟨k, i, d, rfl, rfl, rfl, hbody.2 (h (by simp) hlen.1 (by simp) hlen.2 (by simp)) hret⟩

/-- The return code is that of the function that the credentials are made with. -/
theorem hmac_rc (hmac : Hmac) (auth : AuthEnv) (type : Nat) (mem : List UInt8) (k i d : P) {keylen : UInt64}
    (hmem : keylen.toNat ≤ mem.length) {input : List UInt8} {ilen : UInt64} (hilen : ilen.toNat = input.length) :
    ∃ digest, TuyaDaemon.mbedtlsMessageDigestHmac hmac auth mem keylen.toNat input =
      .ok ((mbedtlsMessageDigestHmac ⟨true, auth.setup, auth.starts, auth.update, auth.finish⟩ type (some k) keylen
        (some i) ilen (some d)).1, digest) := by
  have hzero : keylen.toNat = 0 ∨ input = [] ↔ keylen = 0 ∨ ilen = 0 := by
    rw [← List.length_eq_zero_iff, ← hilen, ← UInt64.toNat_inj, ← UInt64.toNat_inj]
    rfl
  simp only [TuyaDaemon.mbedtlsMessageDigestHmac, mbedtlsMessageDigestHmac, hzero]
  by_cases hlen : keylen = 0 ∨ ilen = 0
  · rw [if_pos hlen, if_pos hlen]
    exact ⟨_, rfl⟩
  · rw [if_neg hlen, if_neg hlen, if_neg (Nat.not_lt.2 hmem)]
    simp only [digestBody, DigestEnv.mdSetup, ite_true]
    split <;> exact ⟨_, rfl⟩

/-! ### All four -/

/-- The wrappers report success only on success: the encryption for a key of less than `2^61` bytes, the decryption when
nothing in front of it fails but the setup, and the key has the right length when it succeeds, and the digests when
nothing fails behind the setup. -/
theorem successMeansSuccess_iff (cipherEnv : CipherEnv) (digestEnv : DigestEnv) (params : Option (CipherParams P))
    (output olen : Option P) (tag : P) (tagLen : UInt64) (type : Nat) (key : Option P) (keylen : UInt64)
    (input : Option P) (ilen : UInt64) (digest : Option P) :
    (EncryptSound cipherEnv params output olen tag tagLen ↔ EncryptFits cipherEnv params output olen) ∧
      (DecryptSound cipherEnv params output olen tag tagLen ↔ DecryptFits cipherEnv params output olen) ∧
      (DigestSound digestEnv type input ilen digest ↔
        (input ≠ none → ilen ≠ 0 → digest ≠ none → DigestFits digestEnv)) ∧
      (HmacSound digestEnv type key keylen input ilen digest ↔
        (key ≠ none → keylen ≠ 0 → input ≠ none → ilen ≠ 0 → digest ≠ none → DigestFits digestEnv)) :=
  ⟨encryptSound_iff _ _ _ _ _ _, decryptSound_iff _ _ _ _ _ _, digestSound_iff _ _ _ _ _,
    hmacSound_iff _ _ _ _ _ _ _⟩

/-- A cipher type that is not found. -/
theorem not_decryptSound_unknown :
    ¬ DecryptSound ⟨fun _ => none, 0, 16, 0, 0⟩ (some ⟨(), (), (), (), 16, 12, 0, 32, 0⟩) (some ()) (some ()) () 16 := by
  intro h
  obtain ⟨info, hinfo, -⟩ := (decryptSound_iff _ _ _ _ _ _).1 h _ rfl (by simp) (by simp)
  cases hinfo

end CipherWrapper

end TuyaDaemon
