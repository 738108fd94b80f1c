import TuyaDaemon.CLib.Blocks
import TuyaDaemon.Endpoint.Base64
import TuyaDaemon.Endpoint.IotDns

/-!
# The two requests to iot-dns

`iotdnsCloudEndpointGet` asks for the address of the broker and stores it, drops the status of that, and asks for the
certificate, whose status it returns.  Each allocation, both transports and both replies are free.  What each part
does is said for every outcome: `iotdnsRequest` by the reply that arrives (`RequestEnv.received`), the decoder of the
certificate by the text it finds (`caOf`).
-/

namespace TuyaDaemon

open CLib

/-! ### The model -/

abbrev oprtLinkCoreHttpClientSendError : Int := -0x1e09

structure HttpRequest where
  path : List UInt8
  body : List UInt8

/-- How the steps of one request end: the allocations of the two buffers, and the reply, which is `none` when the
transport fails. -/
structure RequestEnv where
  body : Bool
  response : Bool
  reply : Option CString

/-- The two requests, and the allocation for the certificate. -/
structure RefreshEnv where
  endpoint : RequestEnv
  cacert : RequestEnv
  raw : Bool

/-- What a request comes to; the response buffer is still allocated behind a reply. -/
inductive RequestResult where
  | failed (rt : Int)
  | replied (reply : CString) (response : Nat)

/-- The part that `iotdns_cloud_endpoint_get` and `iotdns_cacert_get` share, up to the reply. -/
def iotdnsRequest (env : RequestEnv) (path text : List UInt8) (heap : Heap HttpRequest) :
    Except Fault (RequestResult × Heap HttpRequest) :=
  match heap.malloc fun _ => env.body with
  | (none, heap) => .ok (.failed oprtMallocFailed, heap)
  | (some bodyBuffer, heap) => do
    let body ← bodyPrint text
    match heap.malloc fun _ => env.response with
    | (none, heap) => .ok (.failed oprtMallocFailed, heap.free bodyBuffer)
    | (some responseBuffer, heap) =>
      let heap := (heap.call ⟨path, body⟩).free bodyBuffer
      match env.reply with
      | none => .ok (.failed oprtLinkCoreHttpClientSendError, heap.free responseBuffer)
      | some reply => .ok (.replied reply responseBuffer, heap)

/-- `cJSON_GetArrayItem`: the members of an object count as items. -/
def cJsonGetArrayItem (array : CJsonItem) (index : Nat) : Option CJsonItem :=
  match array with
  | .array items => items[index]?
  | .object members => (members[index]?).map Prod.snd
  | _ => none

/-- The text of the certificate in a reply. -/
def caArr0 (root : CJsonItem) : Except Fault (List UInt8) :=
  match (cJsonGetArrayItem root 0).bind fun item => cJsonGetObjectItem item (bytes "host") with
  -- the host is only printed, but its `valuestring` is read
  | none => .error .outOfBounds
  | some _ => valuestring ((cJsonGetArrayItem root 0).bind fun item => cJsonGetObjectItem item (bytes "ca"))

/-- `buffer_len`, a `size_t` -/
def bufferLen (ca : List UInt8) : Nat := ca.length * 3 % 2 ^ 64 / 4

/-- The pointer to what was allocated for the certificate. -/
def rawCacert (p : Option Nat) (der : List UInt8) : Cacert :=
  match p with
  | some b => .block b der
  | none => .null

/-- `iotdns_cacert_response_decode` from the allocation on. -/
def cacertDecode (raw : Bool) (ca : List UInt8) (endport : Endpoint) (heap : Heap HttpRequest) :
    Int × Endpoint × Heap HttpRequest :=
  let (caArrRaw, heap) := heap.malloc fun _ => raw
  match mbedtlsBase64Decode caArrRaw.isSome (bufferLen ca) ca with
  | .error _ => (oprtComError, endport, heap.freeIf caArrRaw)
  | .ok der => (oprtOk, { endport with cert := rawCacert caArrRaw der, certLen := der.length }, heap)

def iotdnsCacertResponseDecode (raw : Bool) (input : CString) (endport : Endpoint) (heap : Heap HttpRequest) :
    Except Fault (Int × Endpoint × Heap HttpRequest) :=
  match cJsonParse input with
  | none => .ok (oprtCjsonParseErr, endport, heap)
  | some root =>
    match cJsonGetObjectItem root (bytes "mqttsUrl") with
    | none => .ok (oprtCrCjsonErr, endport, heap)
    | some _ => do
      let ca ← caArr0 root
      .ok (cacertDecode raw ca endport heap)

def iotdnsCacertGet (env : RefreshEnv) (host : List UInt8) (port : UInt16) (endport : Endpoint)
    (heap : Heap HttpRequest) : Except Fault (Int × Endpoint × Heap HttpRequest) := do
  let (result, heap) ← iotdnsRequest env.cacert (bytes "/device/dns_query") (iotdnsCacertRequestFmt host port) heap
  match result with
  | .failed rt => .ok (rt, endport, heap)
  | .replied reply response =>
    let (rt, endport, heap) ← iotdnsCacertResponseDecode env.raw reply endport heap
    .ok (rt, endport, heap.free response)

/-- `IOTDNS_REQUEST_FMT`, and `IOTDNS_REQUEST_FMT_NOREGION` -/
def iotdnsRequestFmt (region : Option (List UInt8)) (env : List UInt8) : List UInt8 :=
  match region with
  | some region =>
    bytes "\x7b\"config\":[\x7b\"key\":\"mqttsUrl\",\"need_ca\":true\x7d],\"region\":\"" ++ region ++
      bytes "\",\"env\":\"" ++ env ++ bytes "\"\x7d"
  | none =>
    bytes "\x7b\"config\":[\x7b\"key\":\"mqttsUrl\",\"need_ca\":true\x7d],\"env\":\"" ++ env ++ bytes "\"\x7d"

/-- `if (region) strcpy(endport->region, region)` -/
def storeRegion (region : Option (List UInt8)) (endport : Endpoint) : Except Fault Endpoint :=
  match region with
  | some region => do
    let mem ← endport.region.strcpy region
    .ok { endport with region := mem }
  | none => .ok endport

def iotdnsCloudEndpointGet (env : RefreshEnv) (region : Option (List UInt8)) (registKey : List UInt8)
    (endport : Endpoint) (heap : Heap HttpRequest) : Except Fault (Int × Endpoint × Heap HttpRequest) := do
  let (result, heap) ← iotdnsRequest env.endpoint (bytes "/v2/url_config") (iotdnsRequestFmt region registKey) heap
  match result with
  | .failed rt => .ok (rt, endport, heap)
  | .replied reply response =>
    -- the status of the first reply is overwritten
    let (_, endport) ← iotdnsResponseDecode reply endport
    let (rt, endport, heap) ← iotdnsCacertGet env endport.host.chars endport.port endport heap
    let endport ← storeRegion region endport
    .ok (rt, endport, heap.free response)

/-! ### What a refresh finds -/

/-- The reply that arrives. -/
def RequestEnv.received (env : RequestEnv) : Option CString := if env.body ∧ env.response then env.reply else none

/-- The text of the certificate in a reply that is not refused. -/
def caOf (input : CString) : Option (Except Fault (List UInt8)) :=
  (cJsonParse input).bind fun root => (cJsonGetObjectItem root (bytes "mqttsUrl")).map fun _ => caArr0 root

/-- There is no certificate: no reply, a reply that is refused, or one that cannot be decoded. -/
inductive CacertFails (env : RefreshEnv) : Prop where
  | unsent : env.cacert.received = none → CacertFails env
  | refused {reply : CString} : env.cacert.received = some reply → caOf reply = none → CacertFails env
  | undecoded {reply : CString} {ca : List UInt8} {e : Int} : env.cacert.received = some reply →
      caOf reply = some (.ok ca) → mbedtlsBase64Decode env.raw (bufferLen ca) ca = .error e → CacertFails env

/-- The certificate that arrives. -/
inductive CacertArrives (env : RefreshEnv) (der : List UInt8) : Prop where
  | decoded {reply : CString} {ca : List UInt8} : env.cacert.received = some reply → caOf reply = some (.ok ca) →
      mbedtlsBase64Decode env.raw (bufferLen ca) ca = .ok der → CacertArrives env der

/-- What is scanned from an address is what is stored. -/
def ScanKeeps (addr : List UInt8) (endport : Endpoint) : Prop :=
  (∀ host, (sscanfAddr addr).1 = some host → host = endport.host.chars) ∧
    UInt16.ofInt ((sscanfAddr addr).2.getD 443) = endport.port

/-- The first reply leaves the host and the port as they are. -/
inductive AddrKept (reply : CString) (endport : Endpoint) : Prop where
  | refused : mqttsUrlOf reply = none → AddrKept reply endport
  | same {addr : List UInt8} : addrOf reply = some addr → ScanKeeps (upToNul addr) endport → AddrKept reply endport

/-- The refresh returns an error, and the host and the port stay. -/
inductive RefreshFails (env : RefreshEnv) (endport : Endpoint) : Prop where
  | unsent : env.endpoint.received = none → RefreshFails env endport
  | kept {reply : CString} : env.endpoint.received = some reply → AddrKept reply endport →
      (env.cacert.body = true → RequestFits endport.host.chars endport.port.toNat) → CacertFails env →
      RefreshFails env endport

/-- The refresh succeeds: a well-formed address, room for the second request, and a certificate with a block for it. -/
inductive RefreshRenews (env : RefreshEnv) : Prop where
  | renews {reply : CString} {addr host digits der : List UInt8} : env.endpoint.received = some reply →
      addrOf reply = some addr → IsAddr addr host digits → digitsValue (digits.take 99) = digitsValue digits →
      RequestFits host (digitsValue digits) → CacertArrives env der → env.raw = true → RefreshRenews env

/-- The broker and the certificate are as they were. -/
structure SameBroker (endport endport' : Endpoint) : Prop where
  host : endport'.host.chars = endport.host.chars
  port : endport'.port = endport.port
  cert : endport'.cert = endport.cert
  certLen : endport'.certLen = endport.certLen

/-- The broker is that of the first reply, and the certificate that of the second, in the block `b`. -/
def NewBroker (env : RefreshEnv) (endport' : Endpoint) (b : Nat) : Prop :=
  ∃ reply addr host digits der, env.endpoint.received = some reply ∧ addrOf reply = some addr ∧
    IsAddr addr host digits ∧ endport'.host.chars = host ∧ endport'.port.toNat = digitsValue digits ∧
    CacertArrives env der ∧ endport'.cert = .block b der ∧ endport'.certLen = der.length

/-! ### One request -/

theorem RequestEnv.allocated {env : RequestEnv} {reply : CString} (h : env.received = some reply) :
    env.body = true ∧ env.response = true ∧ env.reply = some reply := by
  unfold RequestEnv.received at h
  split at h
  · rename_i hboth
    exact ⟨hboth.1, hboth.2, h⟩
  · cases h

theorem iotdnsRequest_failed {env : RequestEnv} (path : List UInt8) {text : List UInt8} (heap : Heap HttpRequest)
    (h : env.received = none) (hfits : env.body = true → text.length < 128) :
    ∃ rt heap', iotdnsRequest env path text heap = .ok (.failed rt, heap') ∧ rt ≠ oprtOk ∧
      ∀ owned, Heap.OwnerStep heap owned heap' owned := by
  unfold iotdnsRequest
  cases hbody : env.body with
  | false =>
    rw [Heap.malloc_fail rfl]
    exact ⟨_, _, rfl, by decide, fun owned => .mallocFail heap owned⟩
  | true =>
    obtain ⟨body, hprint⟩ := (bodyPrint_iff text).2 (hfits hbody)
    rw [Heap.malloc_ok rfl]
    simp only [hprint, ok_bind]
    cases hresponse : env.response with
    | false =>
      rw [Heap.malloc_fail rfl]
      exact ⟨_, _, rfl, by decide, fun owned =>
        ((Heap.OwnerStep.malloc heap owned).trans (.mallocFail _ _)).trans (.free _ _ _)⟩
    | true =>
      rw [Heap.malloc_ok rfl]
      rw [RequestEnv.received, if_pos ⟨hbody, hresponse⟩] at h
      simp only [h]
      refine ⟨_, _, rfl, by decide, fun owned => ?_⟩
      -- the body goes first
      have htwo := (Heap.OwnerStep.malloc heap owned).trans (.malloc _ _)
      have hcall := (htwo.trans (.call _ ⟨path, body⟩ _)).perm (List.Perm.swap _ _ _)
      exact (hcall.trans (.free _ _ _)).trans (.free _ _ _)

theorem iotdnsRequest_replied {env : RequestEnv} (path : List UInt8) {text : List UInt8} (heap : Heap HttpRequest)
    {reply : CString} (h : env.received = some reply) (hfits : text.length < 128) :
    ∃ response heap', iotdnsRequest env path text heap = .ok (.replied reply response, heap') ∧
      ∀ owned, Heap.OwnerStep heap owned heap' (response :: owned) := by
  obtain ⟨hbody, hresponse, hreply⟩ := RequestEnv.allocated h
  obtain ⟨body, hprint⟩ := (bodyPrint_iff text).2 hfits
  unfold iotdnsRequest
  rw [hbody, Heap.malloc_ok rfl]
  simp only [hprint, ok_bind, hresponse]
  rw [Heap.malloc_ok rfl]
  simp only [hreply]
  refine ⟨_, _, rfl, fun owned => ?_⟩
  have htwo := (Heap.OwnerStep.malloc heap owned).trans (.malloc _ _)
  have hcall := (htwo.trans (.call _ ⟨path, body⟩ _)).perm (List.Perm.swap _ _ _)
  exact hcall.trans (.free _ _ _)

/-- A text that does not fit is written over the end of the buffer, if there is one. -/
theorem iotdnsRequest_overflow {env : RequestEnv} (path : List UInt8) {text : List UInt8} (heap : Heap HttpRequest)
    (h : env.body = true) (hlong : 128 ≤ text.length) : ∃ e, iotdnsRequest env path text heap = .error e := by
  unfold iotdnsRequest
  rw [h, Heap.malloc_ok rfl]
  cases hprint : bodyPrint text with
  | ok body => exact absurd ((bodyPrint_iff text).1 ⟨body, hprint⟩) (by omega)
  | error e => exact ⟨e, by simp only [error_bind]⟩

/-! ### The certificate -/

theorem iotdnsCacertResponseDecode_refused (raw : Bool) {input : CString} (endport : Endpoint)
    (heap : Heap HttpRequest) (h : caOf input = none) :
    ∃ rt, iotdnsCacertResponseDecode raw input endport heap = .ok (rt, endport, heap) ∧ rt ≠ oprtOk := by
  unfold caOf at h
  unfold iotdnsCacertResponseDecode
  cases hroot : cJsonParse input with
  | none => exact ⟨_, rfl, by decide⟩
  | some root =>
    rw [hroot, Option.bind_some, Option.map_eq_none_iff] at h
    simp only [h]
    exact ⟨_, rfl, by decide⟩

theorem iotdnsCacertResponseDecode_found (raw : Bool) {input : CString} (endport : Endpoint)
    (heap : Heap HttpRequest) {ca : Except Fault (List UInt8)} (h : caOf input = some ca) :
    iotdnsCacertResponseDecode raw input endport heap =
      (ca >>= fun ca => .ok (cacertDecode raw ca endport heap)) := by
  unfold caOf at h
  unfold iotdnsCacertResponseDecode
  cases hroot : cJsonParse input with
  | none =>
    rw [hroot] at h
    cases h
  | some root =>
    rw [hroot, Option.bind_some] at h
    obtain ⟨mqttsUrl, hmqtts, hca⟩ := Option.map_eq_some_iff.1 h
    simp only [hmqtts, hca]

theorem cacertDecode_error {raw : Bool} {ca : List UInt8} (endport : Endpoint) (heap : Heap HttpRequest) {e : Int}
    (h : mbedtlsBase64Decode raw (bufferLen ca) ca = .error e) :
    ∃ heap', cacertDecode raw ca endport heap = (oprtComError, endport, heap') ∧
      ∀ owned, Heap.OwnerStep heap owned heap' owned := by
  unfold cacertDecode
  cases raw with
  | false =>
    rw [Heap.malloc_fail rfl]
    simp only [Option.isSome_none, h]
    exact ⟨_, rfl, fun owned => .mallocFail heap owned⟩
  | true =>
    rw [Heap.malloc_ok rfl]
    simp only [Option.isSome_some, h]
    exact ⟨_, rfl, fun owned => (Heap.OwnerStep.malloc heap owned).trans (.free _ _ _)⟩

theorem cacertDecode_ok {raw : Bool} {ca der : List UInt8} (endport : Endpoint) (heap : Heap HttpRequest)
    (h : mbedtlsBase64Decode raw (bufferLen ca) ca = .ok der) :
    ∃ p heap', cacertDecode raw ca endport heap =
        (oprtOk, { endport with cert := rawCacert p der, certLen := der.length }, heap') ∧ p.isSome = raw ∧
      ∀ owned, Heap.OwnerStep heap owned heap' (p.toList ++ owned) := by
  unfold cacertDecode
  cases raw with
  | false =>
    rw [Heap.malloc_fail rfl]
    simp only [Option.isSome_none, h]
    exact ⟨none, _, rfl, rfl, fun owned => .mallocFail heap owned⟩
  | true =>
    rw [Heap.malloc_ok rfl]
    simp only [Option.isSome_some, h]
    exact ⟨some heap.next, _, rfl, rfl, fun owned => .malloc heap owned⟩

theorem iotdnsCacertGet_fails {env : RefreshEnv} {host : List UInt8} {port : UInt16} (endport : Endpoint)
    (heap : Heap HttpRequest) (hfits : env.cacert.body = true → RequestFits host port.toNat) (h : CacertFails env) :
    ∃ rt heap', iotdnsCacertGet env host port endport heap = .ok (rt, endport, heap') ∧ rt ≠ oprtOk ∧
      ∀ owned, Heap.OwnerStep heap owned heap' owned := by
  rw [requestFits_iff] at hfits
  have hreplied : ∀ {reply : CString}, env.cacert.received = some reply →
      (iotdnsCacertRequestFmt host port).length < 128 :=
    fun hreceived => hfits (RequestEnv.allocated hreceived).1
  unfold iotdnsCacertGet
  cases h with
  | unsent hnone =>
    obtain ⟨rt, heap', hrequest, hrt, hstep⟩ := iotdnsRequest_failed (bytes "/device/dns_query") heap hnone hfits
    exact ⟨rt, heap', by rw [hrequest, ok_bind], hrt, hstep⟩
  | refused hreceived hca =>
    obtain ⟨response, heap₁, hrequest, hstep⟩ :=
      iotdnsRequest_replied (bytes "/device/dns_query") heap hreceived (hreplied hreceived)
    obtain ⟨rt, hdecode, hrt⟩ := iotdnsCacertResponseDecode_refused env.raw endport heap₁ hca
    refine ⟨rt, heap₁.free response, ?_, hrt, fun owned => (hstep owned).trans (.free _ _ _)⟩
    rw [hrequest, ok_bind]
    simp only [hdecode, ok_bind]
  | undecoded hreceived hca hbase64 =>
    obtain ⟨response, heap₁, hrequest, hstep⟩ :=
      iotdnsRequest_replied (bytes "/device/dns_query") heap hreceived (hreplied hreceived)
    obtain ⟨heap₂, hdecode, hstep₂⟩ := cacertDecode_error endport heap₁ hbase64
    refine ⟨oprtComError, heap₂.free response, ?_, by decide, fun owned => ?_⟩
    · rw [hrequest, ok_bind]
      simp only [iotdnsCacertResponseDecode_found env.raw endport heap₁ hca, ok_bind, hdecode]
    · exact ((hstep owned).trans (hstep₂ _)).trans (.free _ _ _)

theorem iotdnsCacertGet_arrives {env : RefreshEnv} {host : List UInt8} {port : UInt16} (endport : Endpoint)
    (heap : Heap HttpRequest) {der : List UInt8} (hfits : RequestFits host port.toNat) (h : CacertArrives env der) :
    ∃ p heap', iotdnsCacertGet env host port endport heap =
        .ok (oprtOk, { endport with cert := rawCacert p der, certLen := der.length }, heap') ∧ p.isSome = env.raw ∧
      ∀ owned, Heap.OwnerStep heap owned heap' (p.toList ++ owned) := by
  obtain ⟨hreceived, hca, hbase64⟩ := h
  obtain ⟨response, heap₁, hrequest, hstep⟩ :=
    iotdnsRequest_replied (bytes "/device/dns_query") heap hreceived ((requestFits_iff host port).1 hfits)
  obtain ⟨p, heap₂, hdecode, hp, hstep₂⟩ := cacertDecode_ok endport heap₁ hbase64
  refine ⟨p, heap₂.free response, ?_, hp, fun owned => ?_⟩
  · unfold iotdnsCacertGet
    rw [hrequest, ok_bind]
    simp only [iotdnsCacertResponseDecode_found env.raw endport heap₁ hca, ok_bind, hdecode]
  · have hboth := ((hstep owned).trans (hstep₂ _)).perm (List.perm_middle)
    exact hboth.trans (.free _ _ _)

/-- When the request for the certificate returns, it has fitted, and there is a certificate or there is none. -/
theorem iotdnsCacertGet_cases {env : RefreshEnv} {host : List UInt8} {port : UInt16} {endport : Endpoint}
    {heap : Heap HttpRequest} {r : Int × Endpoint × Heap HttpRequest}
    (hrun : iotdnsCacertGet env host port endport heap = .ok r) :
    (env.cacert.body = true → RequestFits host port.toNat) ∧ (CacertFails env ∨ ∃ der, CacertArrives env der) := by
  have hfits : env.cacert.body = true → RequestFits host port.toNat := by
    intro hbody
    rw [requestFits_iff]
    by_contra hlong
    obtain ⟨e, he⟩ := iotdnsRequest_overflow (bytes "/device/dns_query") heap hbody (Nat.le_of_not_lt hlong)
    rw [iotdnsCacertGet, he, error_bind] at hrun
    cases hrun
  refine ⟨hfits, ?_⟩
  cases hreceived : env.cacert.received with
  | none => exact Or.inl (.unsent hreceived)
  | some reply =>
    cases hca : caOf reply with
    | none => exact Or.inl (.refused hreceived hca)
    | some text =>
      cases text with
      | error e =>
        have hbody := (RequestEnv.allocated hreceived).1
        obtain ⟨response, heap₁, hrequest, -⟩ := iotdnsRequest_replied (bytes "/device/dns_query") heap hreceived
          ((requestFits_iff host port).1 (hfits hbody))
        rw [iotdnsCacertGet, hrequest, ok_bind] at hrun
        simp only [iotdnsCacertResponseDecode_found env.raw endport heap₁ hca, error_bind] at hrun
        cases hrun
      | ok ca =>
        cases hbase64 : mbedtlsBase64Decode env.raw (bufferLen ca) ca with
        | error e => exact Or.inl (.undecoded hreceived hca hbase64)
        | ok der => exact Or.inr ⟨der, .decoded hreceived hca hbase64⟩

/-! ### The address -/

/-- What the scan of an address changes. -/
theorem mqttHostDecode_cases {s : List UInt8} (hs : 0 ∉ s) {endport endport' : Endpoint}
    (h : mqttHostDecode s endport = .ok endport') :
    endport' = { endport with host := endport'.host, port := UInt16.ofInt ((sscanfAddr s).2.getD 443) } ∧
      endport'.host.chars = (sscanfAddr s).1.getD endport.host.chars := by
  unfold mqttHostDecode at h
  cases hscan : (sscanfAddr s).1 with
  | none =>
    rw [hscan, scannedHost, ok_bind] at h
    cases h
    exact ⟨rfl, rfl⟩
  | some host =>
    have hnul : 0 ∉ host := by
      have hhost : host = sscanfHost s := by
        unfold sscanfAddr at hscan
        split at hscan
        · cases hscan
        · split at hscan <;> exact (Option.some.inj hscan).symm
      rw [hhost]
      exact fun hmem => hs (List.mem_of_mem_take ((List.takeWhile_prefix _).subset hmem))
    by_cases hlen : host.length < 65
    · obtain ⟨stored, hstored, hchars⟩ := endport.host.strcpy_ok hnul hlen
      rw [hscan, scannedHost, hstored, ok_bind] at h
      cases h
      exact ⟨rfl, hchars⟩
    · rw [hscan, scannedHost, endport.host.strcpy_overflow (Nat.le_of_not_lt hlen), error_bind] at h
      cases h

/-- The decoder leaves all else as it was. -/
theorem iotdnsResponseDecode_frame {reply : CString} {endport endport' : Endpoint} {rt : Int}
    (h : iotdnsResponseDecode reply endport = .ok (rt, endport')) :
    endport' = { endport with host := endport'.host, port := endport'.port } := by
  rcases iotdnsResponseDecode_cases h with ⟨-, -, rfl⟩ | ⟨addr, -, -, hdecode⟩
  · rfl
  · rw [(mqttHostDecode_cases (zero_notMem_upToNul addr) hdecode).1]

theorem iotdnsResponseDecode_kept {reply : CString} {endport : Endpoint} (h : AddrKept reply endport) :
    ∃ rt endport', iotdnsResponseDecode reply endport = .ok (rt, endport') ∧ SameBroker endport endport' := by
  cases h with
  | refused hmqtts =>
    obtain ⟨rt, hrefused, -⟩ := iotdnsResponseDecode_refused endport hmqtts
    exact ⟨rt, endport, hrefused, rfl, rfl, rfl, rfl⟩
  | @same addr haddr hkeeps =>
    obtain ⟨hhost, hport⟩ := hkeeps
    obtain ⟨stored, hstored, hchars⟩ : ∃ stored,
        scannedHost endport.host (sscanfAddr (upToNul addr)).1 = .ok stored ∧
          stored.chars = endport.host.chars := by
      cases hscan : (sscanfAddr (upToNul addr)).1 with
      | none => exact ⟨endport.host, rfl, rfl⟩
      | some host =>
        rw [hhost host hscan]
        exact endport.host.strcpy_ok (zero_notMem_upToNul endport.host.mem) endport.host.length_chars_lt
    refine ⟨oprtOk, { endport with host := stored, port := endport.port }, ?_, hchars, rfl, rfl, rfl⟩
    rw [iotdnsResponseDecode_addr endport haddr, mqttHostDecode, hstored, ok_bind, ok_bind, hport]

theorem addrKept_of_decode {reply : CString} {endport endport' : Endpoint} {rt : Int}
    (h : iotdnsResponseDecode reply endport = .ok (rt, endport')) (hhost : endport'.host.chars = endport.host.chars)
    (hport : endport'.port = endport.port) : AddrKept reply endport := by
  rcases iotdnsResponseDecode_cases h with ⟨hmqtts, -, -⟩ | ⟨addr, haddr, -, hdecode⟩
  · exact .refused hmqtts
  · obtain ⟨hfields, hchars⟩ := mqttHostDecode_cases (zero_notMem_upToNul addr) hdecode
    refine .same haddr ⟨fun host hscan => ?_, ?_⟩
    · rw [hscan] at hchars
      exact hchars.symm.trans hhost
    · rw [hfields] at hport
      exact hport

/-! ### A refresh -/

/-- A region and a key as the arrays of the manager can hold them. -/
structure ShortNames (region : Option (List UInt8)) (registKey : List UInt8) : Prop where
  region : ∀ r, region = some r → 0 ∉ r ∧ r.length ≤ 2
  registKey : registKey.length ≤ 4

/-- The first request fits. -/
theorem length_iotdnsRequestFmt_lt {region : Option (List UInt8)} {registKey : List UInt8}
    (h : ShortNames region registKey) : (iotdnsRequestFmt region registKey).length < 128 := by
  have hkey := h.registKey
  unfold iotdnsRequestFmt
  cases region with
  | none =>
    simp only [List.length_append]
    have h₁ : (bytes "\x7b\"config\":[\x7b\"key\":\"mqttsUrl\",\"need_ca\":true\x7d],\"env\":\"").length = 53 := rfl
    have h₂ : (bytes "\"\x7d").length = 2 := rfl
    omega
  | some r =>
    have hregion := (h.region r rfl).2
    simp only [List.length_append]
    have h₁ : (bytes "\x7b\"config\":[\x7b\"key\":\"mqttsUrl\",\"need_ca\":true\x7d],\"region\":\"").length = 56 := rfl
    have h₂ : (bytes "\",\"env\":\"").length = 9 := rfl
    have h₃ : (bytes "\"\x7d").length = 2 := rfl
    omega

theorem storeRegion_ok {region : Option (List UInt8)} {registKey : List UInt8} (h : ShortNames region registKey)
    (endport : Endpoint) : ∃ mem, storeRegion region endport = .ok { endport with region := mem } := by
  cases region with
  | none => exact ⟨endport.region, rfl⟩
  | some r =>
    obtain ⟨hnul, hlen⟩ := h.region r rfl
    obtain ⟨mem, hmem, -⟩ := endport.region.strcpy_ok hnul (Nat.lt_succ_of_le hlen)
    exact ⟨mem, by rw [storeRegion, hmem, ok_bind]⟩

section Refresh

variable {env : RefreshEnv} {region : Option (List UInt8)} {registKey : List UInt8} {endport : Endpoint}

/-- Behind a first reply that was decoded, it is the second request that counts. -/
theorem iotdnsCloudEndpointGet_decoded (hnames : ShortNames region registKey) (heap : Heap HttpRequest)
    {reply : CString} {rt : Int} {stored : Endpoint} (hreceived : env.endpoint.received = some reply)
    (hdecode : iotdnsResponseDecode reply endport = .ok (rt, stored)) :
    ∃ response heap₁, ∃ mem : Endpoint → CText 3,
      (∀ owned, Heap.OwnerStep heap owned heap₁ (response :: owned)) ∧
      iotdnsCloudEndpointGet env region registKey endport heap =
        (iotdnsCacertGet env stored.host.chars stored.port stored heap₁ >>= fun r =>
          .ok (r.1, { r.2.1 with region := mem r.2.1 }, r.2.2.free response)) := by
  obtain ⟨response, heap₁, hrequest, hstep⟩ :=
    iotdnsRequest_replied (bytes "/v2/url_config") heap hreceived (length_iotdnsRequestFmt_lt hnames)
  choose mem hmem using storeRegion_ok hnames
  refine ⟨response, heap₁, mem, hstep, ?_⟩
  unfold iotdnsCloudEndpointGet
  rw [hrequest, ok_bind]
  simp only [hdecode, ok_bind, hmem]

theorem iotdnsCloudEndpointGet_fails (hnames : ShortNames region registKey) (heap : Heap HttpRequest)
    (h : RefreshFails env endport) :
    ∃ rt endport' heap', iotdnsCloudEndpointGet env region registKey endport heap = .ok (rt, endport', heap') ∧
      rt ≠ oprtOk ∧ SameBroker endport endport' ∧ ∀ owned, Heap.OwnerStep heap owned heap' owned := by
  cases h with
  | unsent hnone =>
    obtain ⟨rt, heap', hrequest, hrt, hstep⟩ := iotdnsRequest_failed (bytes "/v2/url_config") heap hnone
      fun _ => length_iotdnsRequestFmt_lt hnames
    refine ⟨rt, endport, heap', ?_, hrt, ⟨rfl, rfl, rfl, rfl⟩, hstep⟩
    unfold iotdnsCloudEndpointGet
    rw [hrequest, ok_bind]
  | kept hreceived hkept hfits hcacert =>
    obtain ⟨rt₁, stored, hdecode, hsame⟩ := iotdnsResponseDecode_kept hkept
    rw [← hsame.host, ← hsame.port] at hfits
    obtain ⟨response, heap₁, mem, hstep, hget⟩ := iotdnsCloudEndpointGet_decoded hnames heap hreceived hdecode
    obtain ⟨rt, heap₂, hcacertGet, hrt, hstep₂⟩ := iotdnsCacertGet_fails stored heap₁ hfits hcacert
    refine ⟨rt, { stored with region := mem stored }, heap₂.free response, ?_, hrt, ?_, fun owned => ?_⟩
    · rw [hget, hcacertGet, ok_bind]
    · exact ⟨hsame.host, hsame.port, hsame.cert, hsame.certLen⟩
    · exact ((hstep owned).trans (hstep₂ _)).trans (.free _ _ _)

theorem iotdnsCloudEndpointGet_renews (hnames : ShortNames region registKey) (heap : Heap HttpRequest)
    (h : RefreshRenews env) :
    ∃ endport' heap' b, iotdnsCloudEndpointGet env region registKey endport heap = .ok (oprtOk, endport', heap') ∧
      NewBroker env endport' b ∧ ∀ owned, Heap.OwnerStep heap owned heap' (b :: owned) := by
  obtain ⟨hreceived, haddr, hisAddr, hwidth, hfits, hcacert, hraw⟩ := h
  rename_i reply addr host digits der
  have hlen : host.length ≤ 58 := Nat.le_trans (Nat.le_add_right _ _) hfits
  obtain ⟨storedHost, port, hstored, hchars, hscanned⟩ := mqttHostDecode_ok endport hisAddr (by omega)
  have hport : port.toNat = digitsValue digits := hscanned.trans hwidth
  have hdecode : iotdnsResponseDecode reply endport =
      .ok (oprtOk, { endport with host := storedHost, port := port }) := by
    rw [iotdnsResponseDecode_addr endport haddr, upToNul_of_isAddr hisAddr, hstored, ok_bind]
  obtain ⟨response, heap₁, mem, hstep, hget⟩ := iotdnsCloudEndpointGet_decoded hnames heap hreceived hdecode
  have hfits' : RequestFits storedHost.chars port.toNat := by
    rw [hchars, hport]
    exact hfits
  obtain ⟨p, heap₂, hcacertGet, hp, hstep₂⟩ :=
    iotdnsCacertGet_arrives { endport with host := storedHost, port := port } heap₁ hfits' hcacert
  rcases p with _ | b
  · rw [hraw] at hp
    cases hp
  refine ⟨_, heap₂.free response, b, by rw [hget, hcacertGet, ok_bind], ?_, fun owned => ?_⟩
  · exact ⟨reply, addr, host, digits, der, hreceived, haddr, hisAddr, hchars, hport, hcacert, rfl, rfl⟩
  · have hboth := ((hstep owned).trans (hstep₂ _)).perm (List.Perm.swap _ _ _)
    exact hboth.trans (.free _ _ _)

/-- When the decoder has stored a well-formed address, its port is the value of the first 99 digits. -/
theorem renews_of_stored {reply : CString} {stored : Endpoint} {rt : Int} {addr host digits der : List UInt8}
    (hreceived : env.endpoint.received = some reply) (hdecode : iotdnsResponseDecode reply endport = .ok (rt, stored))
    (haddr : addrOf reply = some addr) (h : IsAddr addr host digits) (hhost : stored.host.chars = host)
    (hport : stored.port.toNat = digitsValue digits) (hroom : RequestFits stored.host.chars stored.port.toNat)
    (harrives : CacertArrives env der) (hraw : env.raw = true) : RefreshRenews env := by
  have hlen : host.length < 65 := by
    rw [← hhost]
    exact stored.host.length_chars_lt
  obtain ⟨storedHost, port, hstored, -, hscanned⟩ := mqttHostDecode_ok endport h hlen
  rw [iotdnsResponseDecode_addr endport haddr, upToNul_of_isAddr h, hstored, ok_bind] at hdecode
  cases hdecode
  rw [show storedHost.chars = host from hhost, show port.toNat = digitsValue digits from hport] at hroom
  exact .renews hreceived haddr h (hscanned.symm.trans hport) hroom harrives hraw

/-- A refresh that returns an error and leaves the broker, or returns success with the new one, is one of those. -/
theorem iotdnsCloudEndpointGet_cases (hnames : ShortNames region registKey) {heap heap' : Heap HttpRequest}
    {rt : Int} {endport' : Endpoint}
    (hrun : iotdnsCloudEndpointGet env region registKey endport heap = .ok (rt, endport', heap')) :
    heap.log <+: heap'.log ∧ (rt ≠ oprtOk → SameBroker endport endport' → RefreshFails env endport) ∧
      (rt = oprtOk → ∀ b, NewBroker env endport' b → RefreshRenews env) := by
  cases hreceived : env.endpoint.received with
  | none =>
    have hfails : RefreshFails env endport := .unsent hreceived
    obtain ⟨rt', e, heap'', hget, hrt, -, hstep⟩ := iotdnsCloudEndpointGet_fails hnames heap hfails
    rw [hget] at hrun
    cases hrun
    exact ⟨(hstep []).log, fun _ _ => hfails, fun hok => absurd hok hrt⟩
  | some reply =>
    obtain ⟨⟨rt₁, stored⟩, hdecode⟩ : ∃ decoded, iotdnsResponseDecode reply endport = .ok decoded := by
      obtain ⟨response, heap₁, hrequest, -⟩ :=
        iotdnsRequest_replied (bytes "/v2/url_config") heap hreceived (length_iotdnsRequestFmt_lt hnames)
      rw [iotdnsCloudEndpointGet, hrequest, ok_bind] at hrun
      obtain ⟨decoded, hdecode, -⟩ := exists_of_bind_eq_ok hrun
      exact ⟨decoded, hdecode⟩
    obtain ⟨response, heap₁, mem, hstep, hget⟩ := iotdnsCloudEndpointGet_decoded hnames heap hreceived hdecode
    rw [hget] at hrun
    obtain ⟨r, hcacertGet, hstored⟩ := exists_of_bind_eq_ok hrun
    obtain ⟨hfits, hfails | ⟨der, harrives⟩⟩ := iotdnsCacertGet_cases hcacertGet
    · obtain ⟨rt', heap₂, hcacertGet', hrt, hstep₂⟩ := iotdnsCacertGet_fails stored heap₁ hfits hfails
      rw [hcacertGet'] at hcacertGet
      cases hcacertGet
      cases hstored
      refine ⟨?_, fun _ hsame => ?_, fun hok => absurd hok hrt⟩
      · exact (((hstep []).trans (hstep₂ _)).trans (.free _ _ _)).log
      · have hhost : stored.host.chars = endport.host.chars := hsame.host
        have hport : stored.port = endport.port := hsame.port
        rw [hhost, hport] at hfits
        exact .kept hreceived (addrKept_of_decode hdecode hhost hport) hfits hfails
    · have hroom : RequestFits stored.host.chars stored.port.toNat := by
        obtain ⟨hcacertReceived, -, -⟩ := harrives
        exact hfits (RequestEnv.allocated hcacertReceived).1
      obtain ⟨p, heap₂, hcacertGet', hp, hstep₂⟩ := iotdnsCacertGet_arrives stored heap₁ hroom harrives
      rw [hcacertGet'] at hcacertGet
      cases hcacertGet
      cases hstored
      refine ⟨?_, fun hne => absurd rfl hne, fun _ b hnew => ?_⟩
      · exact ((((hstep []).trans (hstep₂ _)).perm List.perm_middle).trans (.free _ _ _)).log
      · obtain ⟨reply', addr, host, digits, der', hreceived', haddr, hisAddr, hhost, hport, -, hcert, -⟩ := hnew
        cases hreceived.symm.trans hreceived'
        have hraw : env.raw = true := by
          rw [← hp]
          cases p with
          | none => cases hcert
          | some b => rfl
        exact renews_of_stored hreceived hdecode haddr hisAddr hhost hport hroom harrives hraw

end Refresh

end TuyaDaemon
