import TuyaDaemon.Endpoint.CloudEndpoint
import TuyaDaemon.Endpoint.StoredPair

/-!
# Refreshing the endpoint

Runs of initialisations, sets and the two updates, with the certificates as blocks of a heap.  An update releases the
certificate first and keeps the pointer, so it is atomic only when it succeeds, or when there was no block to release
and the first reply did not change the host and the port.  `refreshRun_atomic_iff` says so for whole runs: atomic
refreshes keep the certificate owned (`EndpointOwned`), and the first that is not atomic ends that.
-/

namespace TuyaDaemon

open CLib

/-! ### The model -/

/-- The manager with its files, and the heap. -/
structure RefreshWorld where
  store : EndpointStore
  heap : Heap HttpRequest

/-- The release of a certificate that is neither `NULL` nor the default. -/
def freeCacert (cert : Cacert) (heap : Heap HttpRequest) : Heap HttpRequest :=
  match cert with
  | .block b _ => heap.free b
  | _ => heap

/-- The two updates, by the region they ask for. -/
def endpointUpdate (env : RefreshEnv) (region : Option (List UInt8)) (w : RefreshWorld) :
    Except Fault (Int × RefreshWorld) := do
  let heap := freeCacert w.store.mgr.endpoint.cert w.heap
  let registKey ← w.store.mgr.registKey.str
  let (rt, endpoint, heap) ← iotdnsCloudEndpointGet env region registKey w.store.mgr.endpoint heap
  .ok (rt, { store := { w.store with mgr := { w.store.mgr with endpoint := endpoint } }, heap := heap })

def tuyaEndpointUpdate (env : RefreshEnv) (w : RefreshWorld) : Except Fault (Int × RefreshWorld) := do
  let region ← w.store.mgr.region.str
  endpointUpdate env (some region) w

def tuyaEndpointUpdateAutoRegion (env : RefreshEnv) (w : RefreshWorld) : Except Fault (Int × RefreshWorld) :=
  endpointUpdate env none w

/-! ### Runs -/

inductive RefreshOp where
  | init
  | set (region registKey : Option CString) (regionWrite keyWrite : WriteOutcome)
  | update (env : RefreshEnv)
  | updateAutoRegion (env : RefreshEnv)

/-- An operation that does not touch the heap. -/
def onStore (r : Except Fault (Int × EndpointStore)) (w : RefreshWorld) : Except Fault (Int × RefreshWorld) :=
  r >>= fun r => .ok (r.1, { w with store := r.2 })

def RefreshOp.run (op : RefreshOp) (w : RefreshWorld) : Except Fault (Int × RefreshWorld) :=
  match op with
  | .init => onStore (tuyaEndpointInit w.store) w
  | .set region registKey regionWrite keyWrite =>
    onStore (tuyaEndpointRegionRegistSet region registKey regionWrite keyWrite w.store) w
  | .update env => tuyaEndpointUpdate env w
  | .updateAutoRegion env => tuyaEndpointUpdateAutoRegion env w

/-- The certificate is not released. -/
def Usable (w : RefreshWorld) : Prop :=
  ∀ b raw, w.store.mgr.endpoint.cert = .block b raw → frees w.heap.log b = 0

/-- A refresh is atomic: with an error the endpoint is as it was, with success it is the new one; the certificate is
usable. -/
def RefreshAtomic (env : RefreshEnv) (w : RefreshWorld) (rt : Int) (w' : RefreshWorld) : Prop :=
  (rt ≠ oprtOk → SameBroker w.store.mgr.endpoint w'.store.mgr.endpoint) ∧
    (rt = oprtOk → ∃ b, NewBroker env w'.store.mgr.endpoint b) ∧ Usable w'

def RefreshOp.Atomic (op : RefreshOp) (w : RefreshWorld) (rt : Int) (w' : RefreshWorld) : Prop :=
  match op with
  | .update env => RefreshAtomic env w rt w'
  | .updateAutoRegion env => RefreshAtomic env w rt w'
  | _ => True

/-- No block is released twice. -/
def ReleasedAtMostOnce (w : RefreshWorld) : Prop := ∀ b, 0 < mallocs w.heap.log b → frees w.heap.log b ≤ 1

/-- Each operation of the run returns, each refresh is atomic, and no block is released twice. -/
def AtomicRun : RefreshWorld → List RefreshOp → Prop
  | _, [] => True
  | w, op :: rest => ∃ rt w', op.run w = .ok (rt, w') ∧ op.Atomic w rt w' ∧ ReleasedAtMostOnce w' ∧ AtomicRun w' rest

/-- The start of a process, with any files. -/
def startWorld (files : Storage) : RefreshWorld := ⟨⟨files, zeroManagement⟩, ⟨0, []⟩⟩

/-! ### The condition -/

/-- The bytes that are read over an array leave a terminator, if there are any. -/
def ReadsString {size : Nat} (a : CArray size) (content : List UInt8) : Prop :=
  content ≠ [] → 0 ∈ (a.readInto content).mem

/-- A refresh succeeds, or it fails without a block to release and without an effect on the host and the port. -/
def RefreshFits (env : RefreshEnv) (endport : Endpoint) : Prop :=
  RefreshRenews env ∨ (∀ b raw, endport.cert ≠ .block b raw) ∧ RefreshFails env endport

def RefreshOp.Fits (op : RefreshOp) (w : RefreshWorld) : Prop :=
  match op with
  | .init => ReadsString w.store.mgr.region (w.store.files.content .region) ∧
      (w.store.files.content .region ≠ [] →
        ReadsString w.store.mgr.registKey (w.store.files.content .registKey))
  | .set (some region) (some registKey) regionWrite keyWrite =>
    regionWrite.Complete region.chars ∧ keyWrite.Complete registKey.chars →
      region.chars.length ≤ 2 ∧ registKey.chars.length ≤ 4
  | .set _ _ _ _ => True
  | .update env => RefreshFits env w.store.mgr.endpoint
  | .updateAutoRegion env => RefreshFits env w.store.mgr.endpoint

/-- Each operation meets the condition in the state in which it runs. -/
def RefreshesFit : RefreshWorld → List RefreshOp → Prop
  | _, [] => True
  | w, op :: rest => op.Fits w ∧ ∀ rt w', op.run w = .ok (rt, w') → RefreshesFit w' rest

/-- The arrays hold strings, and the certificate is a block that is owned, if it is a block. -/
structure EndpointOwned (w : RefreshWorld) (owned : List Nat) : Prop where
  region : 0 ∈ w.store.mgr.region.mem
  registKey : 0 ∈ w.store.mgr.registKey.mem
  owns : Heap.Owns w.heap owned
  cert : ∀ b raw, w.store.mgr.endpoint.cert = .block b raw → b ∈ owned

/-! ### Initialisations and sets -/

/-- The arrays behind the read hold strings exactly when what is read does. -/
theorem readsStrings_iff {w : EndpointStore} (hregion : 0 ∈ w.mgr.region.mem) (hkey : 0 ∈ w.mgr.registKey.mem) :
    (0 ∈ (tuyaRegionRegistKeyRead w).2.region.mem ∧ 0 ∈ (tuyaRegionRegistKeyRead w).2.registKey.mem) ↔
      ReadsString w.mgr.region (w.files.content .region) ∧
        (w.files.content .region ≠ [] → ReadsString w.mgr.registKey (w.files.content .registKey)) := by
  unfold tuyaRegionRegistKeyRead ReadsString
  rw [localStorageGet_eq (by decide), localStorageGet_eq (by decide)]
  by_cases hr : w.files.content .region = []
  · rw [if_pos hr]
    exact iff_of_true ⟨hregion, hkey⟩ ⟨fun hne => absurd hr hne, fun hne => absurd hr hne⟩
  · rw [if_neg hr]
    by_cases hk : w.files.content .registKey = []
    · rw [if_pos hk]
      show (_ ∧ 0 ∈ w.mgr.registKey.mem) ↔ _
      simp [hr, hk, hkey]
    · rw [if_neg hk]
      show (_ ∧ 0 ∈ (w.mgr.registKey.readInto (w.files.content .registKey)).mem) ↔ _
      simp [hr, hk]

theorem init_of_fits {w : RefreshWorld} {owned : List Nat} (h : EndpointOwned w owned)
    (hfits : RefreshOp.init.Fits w) :
    ∃ rt w', RefreshOp.init.run w = .ok (rt, w') ∧ EndpointOwned w' owned := by
  rw [RefreshOp.Fits, ← readsStrings_iff h.region h.registKey] at hfits
  obtain ⟨keyMem, hinit, hstr⟩ :=
    tuyaEndpointInit_ok (CArray.str_iff.2 ⟨hfits.1, rfl⟩) (CArray.str_iff.2 ⟨hfits.2, rfl⟩)
  refine ⟨_, _, by rw [RefreshOp.run, onStore, hinit, ok_bind], ?_⟩
  exact ⟨hfits.1, (CArray.str_iff.1 hstr).1, h.owns, fun b raw hcert => by cases hcert⟩

theorem fits_of_init {w w' : RefreshWorld} {rt : Int} {owned : List Nat} (h : EndpointOwned w owned)
    (hrun : RefreshOp.init.run w = .ok (rt, w')) : RefreshOp.init.Fits w := by
  rw [RefreshOp.Fits, ← readsStrings_iff h.region h.registKey]
  rw [RefreshOp.run, onStore] at hrun
  obtain ⟨r, hinit, -⟩ := exists_of_bind_eq_ok hrun
  exact strings_of_init hinit

section Set

variable {w : RefreshWorld} {owned : List Nat} {region registKey : Option CString}
  {regionWrite keyWrite : WriteOutcome}

/-- A set only touches the files and the arrays. -/
theorem set_of_fits (h : EndpointOwned w owned)
    (hfits : RefreshOp.Fits (.set region registKey regionWrite keyWrite) w) :
    ∃ rt w', RefreshOp.run (.set region registKey regionWrite keyWrite) w = .ok (rt, w') ∧
      EndpointOwned w' owned := by
  rcases region with _ | region
  · exact ⟨oprtKvsWrFail, w, rfl, h⟩
  rcases registKey with _ | registKey
  · exact ⟨oprtKvsWrFail, w, rfl, h⟩
  by_cases hcomplete : regionWrite.Complete region.chars ∧ keyWrite.Complete registKey.chars
  · obtain ⟨regionMem, keyMem, hset, hregion, hkey⟩ := set_ok w.store hcomplete (hfits hcomplete)
    refine ⟨_, _, by rw [RefreshOp.run, onStore, hset, ok_bind], ?_⟩
    exact ⟨(CArray.str_iff.1 hregion).1, (CArray.str_iff.1 hkey).1, h.owns, h.cert⟩
  · refine ⟨_, _, by rw [RefreshOp.run, onStore, set_failed w.store hcomplete, ok_bind], ?_⟩
    exact ⟨h.region, h.registKey, h.owns, h.cert⟩

theorem fits_of_set {w' : RefreshWorld} {rt : Int}
    (hrun : RefreshOp.run (.set region registKey regionWrite keyWrite) w = .ok (rt, w')) :
    RefreshOp.Fits (.set region registKey regionWrite keyWrite) w := by
  rcases region with _ | region
  · trivial
  rcases registKey with _ | registKey
  · trivial
  intro hcomplete
  by_contra hlong
  rw [RefreshOp.run, onStore, set_overflow w.store hcomplete hlong, error_bind] at hrun
  cases hrun

end Set

/-! ### Refreshes -/

/-- The release in front of a refresh. -/
theorem freeCacert_step {w : RefreshWorld} {owned : List Nat} (h : EndpointOwned w owned) :
    ∃ owned', Heap.OwnerStep w.heap owned (freeCacert w.store.mgr.endpoint.cert w.heap) owned' ∧
      ((∀ b raw, w.store.mgr.endpoint.cert ≠ .block b raw) → owned' = owned) := by
  unfold freeCacert
  cases hcert : w.store.mgr.endpoint.cert with
  | null => exact ⟨owned, .refl _ _, fun _ => rfl⟩
  | defaultTuyaCacert => exact ⟨owned, .refl _ _, fun _ => rfl⟩
  | block b raw =>
    have hperm : owned.Perm (b :: owned.erase b) := List.perm_cons_erase (h.cert b raw hcert)
    refine ⟨owned.erase b, ?_, fun hnone => absurd rfl (hnone b raw)⟩
    exact ((Heap.OwnerStep.refl _ _).perm hperm).trans (.free _ _ _)

/-- What the arrays hold is short. -/
theorem shortNames {w : RefreshWorld} {owned : List Nat} (h : EndpointOwned w owned) :
    ∃ region registKey, w.store.mgr.region.str = .ok region ∧ w.store.mgr.registKey.str = .ok registKey ∧
      ShortNames (some region) registKey ∧ ShortNames none registKey := by
  have hregion : w.store.mgr.region.str = .ok (upToNul w.store.mgr.region.mem) :=
    CArray.str_iff.2 ⟨h.region, rfl⟩
  have hkey : w.store.mgr.registKey.str = .ok (upToNul w.store.mgr.registKey.mem) :=
    CArray.str_iff.2 ⟨h.registKey, rfl⟩
  have hkeyLen : (upToNul w.store.mgr.registKey.mem).length ≤ 4 := Nat.le_of_lt_succ (CArray.length_str_lt hkey)
  refine ⟨_, _, hregion, hkey, ⟨?_, hkeyLen⟩, ⟨?_, hkeyLen⟩⟩
  swap
  · intro r hr
    cases hr
  intro r hr
  cases hr
  exact ⟨CArray.noNul_of_str hregion, Nat.le_of_lt_succ (CArray.length_str_lt hregion)⟩

section Update

variable {w : RefreshWorld} {owned : List Nat} {env : RefreshEnv} {region : Option (List UInt8)}
  {registKey : List UInt8}

/-- An update behind the two reads. -/
theorem endpointUpdate_eq (hkey : w.store.mgr.registKey.str = .ok registKey) :
    endpointUpdate env region w =
      (iotdnsCloudEndpointGet env region registKey w.store.mgr.endpoint
          (freeCacert w.store.mgr.endpoint.cert w.heap) >>= fun r =>
        .ok (r.1, { store := { w.store with mgr := { w.store.mgr with endpoint := r.2.1 } }, heap := r.2.2 })) := by
  unfold endpointUpdate
  rw [hkey]
  rfl

theorem update_of_fits (h : EndpointOwned w owned) (hkey : w.store.mgr.registKey.str = .ok registKey)
    (hnames : ShortNames region registKey) (hfits : RefreshFits env w.store.mgr.endpoint) :
    ∃ rt w' owned', endpointUpdate env region w = .ok (rt, w') ∧ RefreshAtomic env w rt w' ∧
      EndpointOwned w' owned' := by
  obtain ⟨owned₁, hfree, hsame⟩ := freeCacert_step h
  rw [endpointUpdate_eq hkey]
  rcases hfits with hrenews | ⟨hnone, hfails⟩
  · obtain ⟨endport, heap, b, hget, hnew, hstep⟩ := iotdnsCloudEndpointGet_renews hnames
      (freeCacert w.store.mgr.endpoint.cert w.heap) hrenews
    have howns := (hfree.trans (hstep owned₁)).owns h.owns
    obtain ⟨-, -, -, -, der, -, -, -, -, -, -, hcert, -⟩ := id hnew
    have hblock : ∀ b' raw, endport.cert = .block b' raw → b' = b := by
      intro b' raw hcert'
      rw [hcert] at hcert'
      cases hcert'
      rfl
    refine ⟨oprtOk, _, b :: owned₁, by rw [hget, ok_bind], ⟨fun hne => absurd rfl hne, fun _ => ⟨b, hnew⟩, ?_⟩, ?_⟩
    · intro b' raw hcert'
      rw [hblock b' raw hcert']
      exact (howns.held b (by simp)).2
    · refine ⟨h.region, h.registKey, howns, fun b' raw hcert' => ?_⟩
      rw [hblock b' raw hcert']
      simp
  · obtain ⟨rt, endport, heap, hget, hrt, hbroker, hstep⟩ := iotdnsCloudEndpointGet_fails hnames
      (freeCacert w.store.mgr.endpoint.cert w.heap) hfails
    have hcert : ∀ b raw, endport.cert ≠ .block b raw := by
      rw [hbroker.cert]
      exact hnone
    refine ⟨rt, _, owned₁, by rw [hget, ok_bind], ⟨fun _ => hbroker, fun hok => absurd hok hrt, ?_⟩, ?_⟩
    · exact fun b raw hblock => absurd hblock (hcert b raw)
    · exact ⟨h.region, h.registKey, (hfree.trans (hstep owned₁)).owns h.owns,
        fun b raw hblock => absurd hblock (hcert b raw)⟩

theorem fits_of_update (hkey : w.store.mgr.registKey.str = .ok registKey) (hnames : ShortNames region registKey)
    {rt : Int} {w' : RefreshWorld} (hrun : endpointUpdate env region w = .ok (rt, w'))
    (hatomic : RefreshAtomic env w rt w') : RefreshFits env w.store.mgr.endpoint := by
  rw [endpointUpdate_eq hkey] at hrun
  obtain ⟨⟨rt', endport, heap⟩, hget, hstored⟩ := exists_of_bind_eq_ok hrun
  cases hstored
  obtain ⟨hlog, hfails, hrenews⟩ := iotdnsCloudEndpointGet_cases hnames hget
  obtain ⟨hbroker, hnew, husable⟩ := hatomic
  by_cases hok : rt' = oprtOk
  · obtain ⟨b, hnew⟩ := hnew hok
    exact Or.inl (hrenews hok b hnew)
  · refine Or.inr ⟨fun b raw hcert => ?_, hfails hok (hbroker hok)⟩
    -- the block was released, and the pointer to it is still there
    have hzero : frees heap.log b = 0 := husable b raw ((hbroker hok).cert.trans hcert)
    have hgrows : frees (freeCacert w.store.mgr.endpoint.cert w.heap).log b ≤ frees heap.log b :=
      hlog.sublist.countP_le
    rw [hcert, freeCacert, Heap.free_log, frees_free_self] at hgrows
    omega

end Update

/-! ### Runs -/

theorem releasedAtMostOnce {w : RefreshWorld} {owned : List Nat} (h : EndpointOwned w owned) :
    ReleasedAtMostOnce w := by
  intro b hb
  by_cases hmem : b ∈ owned
  · rw [(h.owns.held b hmem).2]
    exact Nat.zero_le 1
  · rw [h.owns.released b hmem hb]

theorem RefreshOp.atomic_of_fits (op : RefreshOp) {w : RefreshWorld} {owned : List Nat} (h : EndpointOwned w owned)
    (hfits : op.Fits w) :
    ∃ rt w' owned', op.run w = .ok (rt, w') ∧ op.Atomic w rt w' ∧ EndpointOwned w' owned' := by
  obtain ⟨region, registKey, hregion, hkey, hnames, hnoRegion⟩ := shortNames h
  cases op with
  | init =>
    obtain ⟨rt, w', hrun, howned⟩ := init_of_fits h hfits
    exact ⟨rt, w', owned, hrun, trivial, howned⟩
  | set r k regionWrite keyWrite =>
    obtain ⟨rt, w', hrun, howned⟩ := set_of_fits h hfits
    exact ⟨rt, w', owned, hrun, trivial, howned⟩
  | update env =>
    obtain ⟨rt, w', owned', hrun, hatomic, howned⟩ := update_of_fits h hkey hnames hfits
    refine ⟨rt, w', owned', ?_, hatomic, howned⟩
    rw [RefreshOp.run, tuyaEndpointUpdate, hregion, ok_bind, hrun]
  | updateAutoRegion env => exact update_of_fits h hkey hnoRegion hfits

theorem RefreshOp.fits_of_atomic (op : RefreshOp) {w w' : RefreshWorld} {rt : Int} {owned : List Nat}
    (h : EndpointOwned w owned) (hrun : op.run w = .ok (rt, w')) (hatomic : op.Atomic w rt w') : op.Fits w := by
  obtain ⟨region, registKey, hregion, hkey, hnames, hnoRegion⟩ := shortNames h
  cases op with
  | init => exact fits_of_init h hrun
  | set r k regionWrite keyWrite => exact fits_of_set hrun
  | update env =>
    rw [RefreshOp.run, tuyaEndpointUpdate, hregion, ok_bind] at hrun
    exact fits_of_update hkey hnames hrun hatomic
  | updateAutoRegion env => exact fits_of_update hkey hnoRegion hrun hatomic

theorem atomicRun_of_owned (ops : List RefreshOp) {w : RefreshWorld} {owned : List Nat} (h : EndpointOwned w owned) :
    AtomicRun w ops ↔ RefreshesFit w ops := by
  induction ops generalizing w owned with
  | nil => exact Iff.rfl
  | cons op rest ih =>
    constructor
    · rintro ⟨rt, w', hrun, hatomic, -, hrest⟩
      have hfits := op.fits_of_atomic h hrun hatomic
      obtain ⟨rt', w'', owned', hrun', -, howned⟩ := op.atomic_of_fits h hfits
      refine ⟨hfits, fun rt₁ w₁ hrun₁ => ?_⟩
      cases hrun.symm.trans hrun'
      cases hrun.symm.trans hrun₁
      exact (ih howned).1 hrest
    · rintro ⟨hfits, hrest⟩
      obtain ⟨rt, w', owned', hrun, hatomic, howned⟩ := op.atomic_of_fits h hfits
      exact ⟨rt, w', hrun, hatomic, releasedAtMostOnce howned, (ih howned).2 (hrest rt w' hrun)⟩

theorem startWorld_owned (files : Storage) : EndpointOwned (startWorld files) [] where
  region := (CArray.str_iff.1 (CArray.str_zero (show 0 < 3 by decide))).1
  registKey := (CArray.str_iff.1 (CArray.str_zero (show 0 < 5 by decide))).1
  owns := Heap.Owns.start 0
  cert := fun b raw hcert => by cases hcert

/-- In a run from the start of a process, whatever the files hold, each operation returns, each refresh is atomic and
no block is released twice exactly when every operation meets its condition. -/
theorem refreshRun_atomic_iff (files : Storage) (ops : List RefreshOp) :
    AtomicRun (startWorld files) ops ↔ RefreshesFit (startWorld files) ops :=
  atomicRun_of_owned ops (startWorld_owned files)

/-- A reply with a broker. -/
def brokerReply : CString :=
  ⟨bytes "\x7b\"mqttsUrl\":\x7b\"addr\":\"a:1\"\x7d\x7d", by decide, by decide⟩

/-- A reply with a certificate of two bytes. -/
def cacertReply : CString :=
  ⟨bytes "\x7b\"x\":\x7b\"host\":\"a\",\"ca\":\"QUI=\"\x7d,\"mqttsUrl\":0\x7d", by decide, by decide⟩

def renewEnv : RefreshEnv := ⟨⟨true, true, some brokerReply⟩, ⟨true, true, some cacertReply⟩, true⟩

/-- The transport of the first request fails. -/
def unsentEnv : RefreshEnv := ⟨⟨true, true, none⟩, ⟨true, true, none⟩, true⟩

theorem renewEnv_renews : RefreshRenews renewEnv := by
  have haddr : addrOf brokerReply = some (bytes "a:1") := by decide +kernel
  have hca : caOf cacertReply = some (.ok (bytes "QUI=")) := by decide +kernel
  have hder : mbedtlsBase64Decode true (bufferLen (bytes "QUI=")) (bytes "QUI=") = .ok [65, 66] := by decide +kernel
  have hisAddr : IsAddr (bytes "a:1") (bytes "a") (bytes "1") :=
    ⟨by decide, by decide, by decide, by decide, List.all_eq_true.1 (by decide), by decide, Or.inr rfl⟩
  have hroom : RequestFits (bytes "a") (digitsValue (bytes "1")) := by
    unfold RequestFits
    decide
  have hcacert : CacertArrives renewEnv [65, 66] := .decoded rfl hca hder
  exact .renews rfl haddr hisAddr rfl hroom hcacert rfl

/-- A refresh that cannot be sent does not fit behind one that succeeded. -/
theorem not_refreshesFit_unsent {w : RefreshWorld} {owned : List Nat} (h : EndpointOwned w owned) :
    ¬ RefreshesFit w [.updateAutoRegion renewEnv, .updateAutoRegion unsentEnv] := by
  rintro ⟨-, hrest⟩
  obtain ⟨region, registKey, -, hkey, -, hnames⟩ := shortNames h
  obtain ⟨endport, heap, b, hget, hnew, -⟩ := @iotdnsCloudEndpointGet_renews renewEnv none registKey
    w.store.mgr.endpoint hnames (freeCacert w.store.mgr.endpoint.cert w.heap) renewEnv_renews
  have hfirst : RefreshOp.run (.updateAutoRegion renewEnv) w = _ := endpointUpdate_eq hkey
  rw [hget, ok_bind] at hfirst
  obtain ⟨hfits, -⟩ := hrest _ _ hfirst
  obtain ⟨-, -, -, -, der, -, -, -, -, -, -, hcert, -⟩ := hnew
  rcases hfits with ⟨hreceived, -⟩ | ⟨hnone, -⟩
  · cases hreceived
  · exact hnone b der hcert

/-- It releases the certificate of the other, and keeps the pointer. -/
theorem not_atomicRun_unsent :
    ¬ AtomicRun (startWorld fun _ => none) [.updateAutoRegion renewEnv, .updateAutoRegion unsentEnv] := by
  intro hrun
  have howned := startWorld_owned fun _ => none
  exact not_refreshesFit_unsent howned ((atomicRun_of_owned _ howned).1 hrun)

end TuyaDaemon
