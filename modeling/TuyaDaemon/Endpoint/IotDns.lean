import TuyaDaemon.CLib.Arrays
import TuyaDaemon.Json.CJsonParse
import TuyaDaemon.Link.Types

/-!
# The reply of the iot-dns service

`iotdnsResponseDecode` reads the address of the broker from a reply into the endpoint, and `iotdnsCacertRequest` prints
the request for the certificate from what is stored there.  The address is scanned with room for 99 characters of host
and 99 digits, the host has room for 64 characters, and the request for 58 characters of host and port together;
`decodesBounded_iff` is the condition under which the three agree.
-/

namespace TuyaDaemon

open CLib

/-! ### The model -/

abbrev oprtCrCjsonErr : Int := -7

/-- The certificate of an endpoint: none, `default_tuya_cacert`, or a heap block with what was written to it. -/
inductive Cacert where
  | null
  | defaultTuyaCacert
  | block (b : Nat) (raw : List UInt8)
deriving DecidableEq, Repr

/-- `tuya_endpoint_t` -/
structure Endpoint where
  region : CText 3
  host : CText 65
  port : UInt16
  cert : Cacert
  certLen : Nat

/-- `item->valuestring`, which is read as a string. -/
def valuestring : Option CJsonItem → Except Fault (List UInt8)
  | some (.string v) => .ok (upToNul v)
  -- through `NULL`: there is no such item, or it has no string
  | _ => .error .outOfBounds

/-- `%99[^:]` -/
def sscanfHost (s : List UInt8) : List UInt8 := (s.take 99).takeWhile fun c => decide (c ≠ 58)

/-- `%99d` -/
def sscanfInt (s : List UInt8) : Option Int :=
  let field := (s.dropWhile isSpace).take 99
  let digits := match field with
    | 45 :: rest => rest
    | 43 :: rest => rest
    | rest => rest
  if digits.head?.any Json.isDigit then some (atoi field) else none

/-- `sscanf(s, "%99[^:]:%99d[^\n]", host, &port)`: what it stores.  An empty host does not match. -/
def sscanfAddr (s : List UInt8) : Option (List UInt8) × Option Int :=
  if sscanfHost s = [] then (none, none)
  else
    match s.drop (sscanfHost s).length with
    | 58 :: rest => (some (sscanfHost s), sscanfInt rest)
    | _ => (some (sscanfHost s), none)

/-- The host array behind the scan. -/
def scannedHost (mem : CText 65) : Option (List UInt8) → Except Fault (CText 65)
  | some host => mem.strcpy host
  | none => .ok mem

/-- The part of the decoder that stores the host and the port. -/
def mqttHostDecode (mqttsUrl : List UInt8) (endport : Endpoint) : Except Fault Endpoint := do
  let host ← scannedHost endport.host (sscanfAddr mqttsUrl).1
  .ok { endport with host := host, port := UInt16.ofInt ((sscanfAddr mqttsUrl).2.getD 443) }

def iotdnsResponseDecode (input : CString) (endport : Endpoint) : Except Fault (Int × Endpoint) :=
  match cJsonParse input with
  | none => .ok (oprtCjsonParseErr, endport)
  | some root =>
    match cJsonGetObjectItem root (bytes "mqttsUrl") with
    | none => .ok (oprtCrCjsonErr, endport)
    | some mqttsUrl => do
      let addr ← valuestring (cJsonGetObjectItem mqttsUrl (bytes "addr"))
      let endport ← mqttHostDecode addr endport
      .ok (oprtOk, endport)

/-- `IOTDNS_CACERT_REQUEST_FMT` -/
def iotdnsCacertRequestFmt (host : List UInt8) (port : UInt16) : List UInt8 :=
  bytes "[\x7b\"host\":\"" ++ host ++ bytes "\",\"port\":" ++ decimal port.toNat ++
    bytes ",\"need_ca\":true,\"need_ip\":false,\"need_ip6\":false\x7d]"

/-- A request in the body buffer, which has 128 bytes. -/
def bodyPrint (text : List UInt8) : Except Fault (List UInt8) := do
  let body ← sprintfAt (List.replicate 128 0) 0 text
  .ok (body.take text.length)

def iotdnsCacertRequest (host : List UInt8) (port : UInt16) : Except Fault (List UInt8) :=
  bodyPrint (iotdnsCacertRequestFmt host port)

/-! ### What a reply should do -/

/-- The member `mqttsUrl` of a reply. -/
def mqttsUrlOf (input : CString) : Option CJsonItem :=
  (cJsonParse input).bind fun root => cJsonGetObjectItem root (bytes "mqttsUrl")

/-- The string `mqttsUrl.addr` of a reply. -/
def addrOf (input : CString) : Option (List UInt8) :=
  match (mqttsUrlOf input).bind fun mqttsUrl => cJsonGetObjectItem mqttsUrl (bytes "addr") with
  | some (.string addr) => some addr
  | _ => none

/-- An address is `host` or `host:port`; `digits` are the digits of the port, `443` when it is absent. -/
structure IsAddr (addr host digits : List UInt8) : Prop where
  host_ne_nil : host ≠ []
  noColon : 58 ∉ host
  noNul : 0 ∉ host
  digits_ne_nil : digits ≠ []
  isDigit : ∀ c ∈ digits, Json.isDigit c = true
  port_le : digitsValue digits ≤ 65535
  addr_eq : addr = host ∧ digits = bytes "443" ∨ addr = host ++ 58 :: digits

/-- The decoder returns: an error, with the endpoint as it was, or success, with the host and the port of a well-formed
address and all else as it was.  The request for the certificate then fits its buffer. -/
def DecodesBounded (input : CString) (endport : Endpoint) : Prop :=
  ∃ rt endport', iotdnsResponseDecode input endport = .ok (rt, endport') ∧
    (rt ≠ oprtOk ∧ endport' = endport ∨
      rt = oprtOk ∧ ∃ addr host digits, addrOf input = some addr ∧ IsAddr addr host digits ∧
        host.length + 1 ≤ 65 ∧ endport'.host.chars = host ∧ endport'.port.toNat = digitsValue digits ∧
        endport' = { endport with host := endport'.host, port := endport'.port }) ∧
    ∃ body, iotdnsCacertRequest endport'.host.chars endport'.port = .ok body

/-- The request for the certificate has room for the host and the port. -/
def RequestFits (host : List UInt8) (port : Nat) : Prop := host.length + (decimal port).length ≤ 58

/-- The reply has no `mqttsUrl` and the request fits with what is stored, or the address is well formed, its port has
its value in the first 99 digits, and the request fits with what it says. -/
inductive ReplyFits (input : CString) (endport : Endpoint) : Prop where
  | refused : mqttsUrlOf input = none → RequestFits endport.host.chars endport.port.toNat → ReplyFits input endport
  | addr {addr host digits : List UInt8} : addrOf input = some addr → IsAddr addr host digits →
      digitsValue (digits.take 99) = digitsValue digits → RequestFits host (digitsValue digits) →
      ReplyFits input endport

/-! ### The request -/

theorem bodyPrint_iff (text : List UInt8) : (∃ body, bodyPrint text = .ok body) ↔ text.length < 128 := by
  constructor
  · rintro ⟨body, hbody⟩
    by_contra hlen
    rw [bodyPrint, sprintfAt_overflow (by simp only [List.length_replicate]; omega), error_bind] at hbody
    cases hbody
  · intro hlen
    obtain ⟨rest, hrest⟩ := sprintfAt_start (List.replicate 128 0) (s := text) (by simpa using hlen)
    exact ⟨_, by rw [bodyPrint, hrest, ok_bind]⟩

theorem length_iotdnsCacertRequestFmt (host : List UInt8) (port : UInt16) :
    (iotdnsCacertRequestFmt host port).length = host.length + (decimal port.toNat).length + 69 := by
  simp only [iotdnsCacertRequestFmt, List.length_append]
  have h₁ : (bytes "[\x7b\"host\":\"").length = 10 := rfl
  have h₂ : (bytes "\",\"port\":").length = 9 := rfl
  have h₃ : (bytes ",\"need_ca\":true,\"need_ip\":false,\"need_ip6\":false\x7d]").length = 50 := rfl
  omega

theorem requestFits_iff (host : List UInt8) (port : UInt16) :
    RequestFits host port.toNat ↔ (iotdnsCacertRequestFmt host port).length < 128 := by
  rw [length_iotdnsCacertRequestFmt, RequestFits]
  omega

theorem iotdnsCacertRequest_iff (host : List UInt8) (port : UInt16) :
    (∃ body, iotdnsCacertRequest host port = .ok body) ↔ RequestFits host port.toNat := by
  rw [iotdnsCacertRequest, bodyPrint_iff, requestFits_iff]

/-! ### The scan -/

theorem upToNul_of_isAddr {addr host digits : List UInt8} (h : IsAddr addr host digits) : upToNul addr = addr := by
  apply upToNul_eq_self
  have hdigits : (0 : UInt8) ∉ digits := fun hzero => absurd (h.isDigit 0 hzero) (by decide)
  rcases h.addr_eq with ⟨rfl, -⟩ | rfl
  · exact h.noNul
  · simp [h.noNul, hdigits]

/-- The host is scanned, up to its first 99 characters. -/
theorem sscanfHost_of_isAddr {addr host digits : List UInt8} (h : IsAddr addr host digits) :
    sscanfHost addr = host.take 99 := by
  have hall : ∀ c ∈ host.take 99, decide (c ≠ 58) = true := by
    intro c hc
    exact decide_eq_true (ne_of_mem_of_not_mem (List.mem_of_mem_take hc) h.noColon)
  rcases h.addr_eq with ⟨rfl, -⟩ | rfl
  · exact List.takeWhile_eq_self_iff.2 hall
  · rw [sscanfHost, List.take_append, List.takeWhile_append_of_pos hall]
    -- what follows is the colon, or cut off
    rcases 99 - host.length with _ | n
    · simp
    · simp [List.take_succ_cons]

private theorem digit_head {c : UInt8} (h : Json.isDigit c = true) : isSpace c = false ∧ c ≠ 45 ∧ c ≠ 43 := by
  have hall : ∀ k < 256, Json.isDigit (UInt8.ofNat k) = true →
      isSpace (UInt8.ofNat k) = false ∧ UInt8.ofNat k ≠ 45 ∧ UInt8.ofNat k ≠ 43 := by decide +kernel
  have hc := hall c.toNat c.toNat_lt
  rw [UInt8.ofNat_toNat] at hc
  exact hc h

/-- The number of digits is read with its value. -/
theorem atoi_digits {digits : List UInt8} (hne : digits ≠ []) (hdigit : ∀ c ∈ digits, Json.isDigit c = true)
    (hvalue : digitsValue digits < 2 ^ 31) : atoi digits = digitsValue digits := by
  obtain ⟨c, rest, rfl⟩ := List.exists_cons_of_ne_nil hne
  obtain ⟨hspace, hminus, hplus⟩ := digit_head (hdigit c (by simp))
  have hstrtol : strtol (c :: rest) = digitsValue (c :: rest) := by
    rw [strtol, List.dropWhile_cons_of_neg (by simp [hspace])]
    split
    · rename_i r heq
      exact absurd (List.cons.inj heq).1 hminus
    · rename_i r heq
      exact absurd (List.cons.inj heq).1 hplus
    · omega
  rw [atoi, hstrtol]
  apply Int.bmod_eq_of_le <;> omega

theorem sscanfInt_digits {digits : List UInt8} (hne : digits ≠ []) (hdigit : ∀ c ∈ digits, Json.isDigit c = true)
    (hvalue : digitsValue (digits.take 99) < 2 ^ 31) :
    sscanfInt digits = some (digitsValue (digits.take 99) : Int) := by
  obtain ⟨c, rest, rfl⟩ := List.exists_cons_of_ne_nil hne
  obtain ⟨hspace, hminus, hplus⟩ := digit_head (hdigit c (by simp))
  have hfield : ((c :: rest).dropWhile isSpace).take 99 = (c :: rest).take 99 := by
    rw [List.dropWhile_cons_of_neg (by simp [hspace])]
  have hatoi : atoi ((c :: rest).take 99) = digitsValue ((c :: rest).take 99) :=
    atoi_digits (by simp) (fun d hd => hdigit d (List.mem_of_mem_take hd)) hvalue
  have hhead : ∀ field : List UInt8, field = c :: rest.take 98 →
      (match field with
        | 45 :: rest => rest
        | 43 :: rest => rest
        | rest => rest) = field := by
    rintro field rfl
    split
    · rename_i r heq
      exact absurd (List.cons.inj heq).1 hminus
    · rename_i r heq
      exact absurd (List.cons.inj heq).1 hplus
    · rfl
  rw [sscanfInt, hfield]
  simp only [hhead _ (List.take_succ_cons), hatoi]
  rw [if_pos (by simp [hdigit c])]

private theorem digits_foldl_ge (digits : List UInt8) (n : Nat) :
    n ≤ digits.foldl (fun n c => 10 * n + (c.toNat - 48)) n := by
  induction digits generalizing n with
  | nil => exact Nat.le_refl n
  | cons c digits ih =>
    have hstep := ih (10 * n + (c.toNat - 48))
    rw [List.foldl_cons]
    omega

/-- The first digits are worth no more than all. -/
theorem digitsValue_take_le {digits : List UInt8} (hdigit : ∀ c ∈ digits, Json.isDigit c = true) (n : Nat) :
    digitsValue (digits.take n) ≤ digitsValue digits := by
  have hall : ∀ s : List UInt8, (∀ c ∈ s, Json.isDigit c = true) →
      digitsValue s = s.foldl (fun n c => 10 * n + (c.toNat - 48)) 0 := by
    intro s hs
    have hself : s.takeWhile (fun c => decide (48 ≤ c ∧ c ≤ 57)) = s := List.takeWhile_eq_self_iff.2 hs
    rw [digitsValue, hself]
  rw [hall digits hdigit, hall _ fun c hc => hdigit c (List.mem_of_mem_take hc)]
  conv_rhs => rw [← List.take_append_drop n digits, List.foldl_append]
  exact digits_foldl_ge _ _

/-- The scan of a well-formed address whose host is not cut off. -/
theorem sscanfAddr_of_isAddr {addr host digits : List UInt8} (h : IsAddr addr host digits) (hlen : host.length ≤ 99) :
    (sscanfAddr addr).1 = some host ∧ (sscanfAddr addr).2.getD 443 = (digitsValue (digits.take 99) : Int) := by
  have hhost : sscanfHost addr = host := by
    rw [sscanfHost_of_isAddr h, List.take_of_length_le hlen]
  rw [sscanfAddr, hhost, if_neg h.host_ne_nil]
  rcases h.addr_eq with ⟨rfl, rfl⟩ | rfl
  · rw [List.drop_length]
    exact ⟨rfl, rfl⟩
  · have hle := digitsValue_take_le h.isDigit 99
    have hport := h.port_le
    have hint := sscanfInt_digits h.digits_ne_nil h.isDigit (by omega)
    rw [List.drop_left]
    refine ⟨rfl, ?_⟩
    show (sscanfInt digits).getD 443 = _
    rw [hint]
    rfl

/-! ### The decoder -/

/-- Without `mqttsUrl` it returns an error. -/
theorem iotdnsResponseDecode_refused {input : CString} (endport : Endpoint) (h : mqttsUrlOf input = none) :
    ∃ rt, iotdnsResponseDecode input endport = .ok (rt, endport) ∧ rt ≠ oprtOk := by
  unfold mqttsUrlOf at h
  unfold iotdnsResponseDecode
  cases hroot : cJsonParse input with
  | none => exact ⟨_, rfl, by decide⟩
  | some root =>
    rw [hroot, Option.bind_some] at h
    simp only [h]
    exact ⟨_, rfl, by decide⟩

/-- With `mqttsUrl` it goes on to the address. -/
theorem iotdnsResponseDecode_found {input : CString} (endport : Endpoint) {mqttsUrl : CJsonItem}
    (h : mqttsUrlOf input = some mqttsUrl) :
    iotdnsResponseDecode input endport =
      (valuestring (cJsonGetObjectItem mqttsUrl (bytes "addr")) >>= fun addr =>
        mqttHostDecode addr endport >>= fun endport => .ok (oprtOk, endport)) := by
  unfold mqttsUrlOf at h
  unfold iotdnsResponseDecode
  cases hroot : cJsonParse input with
  | none =>
    rw [hroot] at h
    cases h
  | some root =>
    rw [hroot, Option.bind_some] at h
    simp only [h]

/-- With an address, it stores what is scanned. -/
theorem iotdnsResponseDecode_addr {input : CString} (endport : Endpoint) {addr : List UInt8}
    (haddr : addrOf input = some addr) :
    iotdnsResponseDecode input endport =
      (mqttHostDecode (upToNul addr) endport >>= fun endport => .ok (oprtOk, endport)) := by
  unfold addrOf at haddr
  cases hmqtts : mqttsUrlOf input with
  | none =>
    rw [hmqtts] at haddr
    cases haddr
  | some mqttsUrl =>
    rw [hmqtts, Option.bind_some] at haddr
    have hstring : valuestring (cJsonGetObjectItem mqttsUrl (bytes "addr")) = .ok (upToNul addr) := by
      split at haddr
      · rename_i addr' hitem
        cases haddr
        rw [hitem, valuestring]
      · cases haddr
    rw [iotdnsResponseDecode_found endport hmqtts, hstring, ok_bind]

/-- Without one, it reads through `NULL`. -/
theorem iotdnsResponseDecode_noAddr {input : CString} (endport : Endpoint) {mqttsUrl : CJsonItem}
    (hmqtts : mqttsUrlOf input = some mqttsUrl) (haddr : addrOf input = none) :
    iotdnsResponseDecode input endport = .error .outOfBounds := by
  unfold addrOf at haddr
  rw [hmqtts, Option.bind_some] at haddr
  have hstring : valuestring (cJsonGetObjectItem mqttsUrl (bytes "addr")) = .error .outOfBounds := by
    unfold valuestring
    split at haddr
    · cases haddr
    · rfl
  rw [iotdnsResponseDecode_found endport hmqtts, hstring, error_bind]

/-- A decoder that returns has refused the reply, or stored its address. -/
theorem iotdnsResponseDecode_cases {input : CString} {endport endport' : Endpoint} {rt : Int}
    (hdecode : iotdnsResponseDecode input endport = .ok (rt, endport')) :
    (mqttsUrlOf input = none ∧ rt ≠ oprtOk ∧ endport' = endport) ∨
      ∃ addr, addrOf input = some addr ∧ rt = oprtOk ∧ mqttHostDecode (upToNul addr) endport = .ok endport' := by
  cases hmqtts : mqttsUrlOf input with
  | none =>
    obtain ⟨rt', hrefused, hrt⟩ := iotdnsResponseDecode_refused endport hmqtts
    rw [hrefused] at hdecode
    cases hdecode
    exact .inl ⟨rfl, hrt, rfl⟩
  | some mqttsUrl =>
    cases haddr : addrOf input with
    | none =>
      rw [iotdnsResponseDecode_noAddr endport hmqtts haddr] at hdecode
      cases hdecode
    | some addr =>
      rw [iotdnsResponseDecode_addr endport haddr] at hdecode
      obtain ⟨stored, hhost, hstored⟩ := exists_of_bind_eq_ok hdecode
      cases hstored
      exact .inr ⟨addr, rfl, rfl, hhost⟩

private theorem toNat_ofInt {n : Nat} (h : n < 2 ^ 16) : (UInt16.ofInt (n : Int)).toNat = n := by
  rw [UInt16.ofInt, UInt16.toNat_ofNat']
  omega

theorem mqttHostDecode_ok (endport : Endpoint) {addr host digits : List UInt8} (h : IsAddr addr host digits)
    (hlen : host.length < 65) :
    ∃ stored port, mqttHostDecode addr endport = .ok { endport with host := stored, port := port } ∧
      stored.chars = host ∧ port.toNat = digitsValue (digits.take 99) := by
  obtain ⟨hhost, hport⟩ := sscanfAddr_of_isAddr h (by omega)
  obtain ⟨stored, hstored, hchars⟩ := endport.host.strcpy_ok h.noNul hlen
  refine ⟨stored, UInt16.ofInt (digitsValue (digits.take 99)), ?_, hchars, ?_⟩
  · rw [mqttHostDecode, hport, hhost, scannedHost, hstored, ok_bind]
  · have hle := digitsValue_take_le h.isDigit 99
    have hmax := h.port_le
    exact toNat_ofInt (by omega)

/-- A host that does not fit is written over what follows. -/
theorem mqttHostDecode_overflow (endport : Endpoint) {addr host digits : List UInt8} (h : IsAddr addr host digits)
    (hlen : 65 ≤ host.length) : mqttHostDecode addr endport = .error .overflow := by
  have htake : 65 ≤ (host.take 99).length := by
    rw [List.length_take]
    omega
  have hne : host.take 99 ≠ [] := by
    intro hnil
    rw [hnil] at htake
    exact absurd htake (by decide)
  have hhost : (sscanfAddr addr).1 = some (host.take 99) := by
    rw [sscanfAddr, sscanfHost_of_isAddr h, if_neg hne]
    split <;> rfl
  rw [mqttHostDecode, hhost, scannedHost, endport.host.strcpy_overflow htake, error_bind]

/-- For every text of a reply and every endpoint the decoder is bounded exactly when the reply fits. -/
theorem decodesBounded_iff (input : CString) (endport : Endpoint) :
    DecodesBounded input endport ↔ ReplyFits input endport := by
  constructor
  · rintro ⟨rt, endport', hdecode, hresult, hrequest⟩
    rw [iotdnsCacertRequest_iff] at hrequest
    rcases iotdnsResponseDecode_cases hdecode with ⟨hmqtts, hrt, rfl⟩ | ⟨addr', haddr', hrt, hstored'⟩
    · exact .refused hmqtts hrequest
    · rcases hresult with ⟨hne, -⟩ | ⟨-, addr, host, digits, haddr, h, hlen, hchars, hport, -⟩
      · exact absurd hrt hne
      cases haddr'.symm.trans haddr
      obtain ⟨stored, port, hstored, -, hscanned⟩ := mqttHostDecode_ok endport h (by omega)
      rw [upToNul_of_isAddr h, hstored] at hstored'
      cases hstored'
      rw [hchars, hport] at hrequest
      exact .addr haddr h (hscanned.symm.trans hport) hrequest
  · intro h
    cases h with
    | refused hmqtts hfits =>
      obtain ⟨rt, hrefused, hrt⟩ := iotdnsResponseDecode_refused endport hmqtts
      exact ⟨rt, endport, hrefused, Or.inl ⟨hrt, rfl⟩, (iotdnsCacertRequest_iff _ _).2 hfits⟩
    | @addr addr host digits haddr h hwidth hfits =>
      have hlen : host.length ≤ 58 := Nat.le_trans (Nat.le_add_right _ _) hfits
      obtain ⟨stored, port, hstored, hchars, hscanned⟩ := mqttHostDecode_ok endport h (by omega)
      have hport : port.toNat = digitsValue digits := hscanned.trans hwidth
      refine ⟨oprtOk, { endport with host := stored, port := port }, ?_, Or.inr ⟨rfl, addr, host, digits, haddr, h,
        by omega, hchars, hport, rfl⟩, ?_⟩
      · rw [iotdnsResponseDecode_addr endport haddr, upToNul_of_isAddr h, hstored, ok_bind]
      · rw [iotdnsCacertRequest_iff, hchars, hport]
        exact hfits

/-- A host of 65 characters. -/
def longHostReply : CString :=
  ⟨bytes "\x7b\"mqttsUrl\":\x7b\"addr\":\"" ++ (List.replicate 65 97 ++ bytes "\"\x7d\x7d"), by decide, by decide⟩

/-- The endpoint of a zeroed `endpoint_mgr`. -/
def zeroEndpoint : Endpoint := ⟨.empty 3 (by decide), .empty 65 (by decide), 0, .null, 0⟩

theorem addrOf_longHostReply : addrOf longHostReply = some (List.replicate 65 97) := by decide +kernel

/-- Its terminator is written behind the array. -/
theorem not_decodesBounded_longHost : ¬ DecodesBounded longHostReply zeroEndpoint := by
  rintro ⟨rt, endport', hdecode, -, -⟩
  have haddr : IsAddr (List.replicate 65 97) (List.replicate 65 97) (bytes "443") :=
    ⟨by decide, by decide, by decide, by decide, List.all_eq_true.1 (by decide), by decide, Or.inl ⟨rfl, rfl⟩⟩
  rw [iotdnsResponseDecode_addr zeroEndpoint addrOf_longHostReply, upToNul_of_isAddr haddr,
    mqttHostDecode_overflow zeroEndpoint haddr (by decide), error_bind] at hdecode
  cases hdecode

end TuyaDaemon
