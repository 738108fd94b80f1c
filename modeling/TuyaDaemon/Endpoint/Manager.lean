import Mathlib.Logic.Function.Basic
import TuyaDaemon.Endpoint.IotDns

/-!
# The endpoint manager

The region and the regist key live in two files and in the two arrays of `endpoint_mgr`.  A set writes one file after
the other and then copies both strings; `tuyaEndpointInit` reads what the files hold over the arrays and looks up the
endpoint.  A write is free to fail or to be short (`WriteOutcome`): `fwrite` may take less than the buffer, and what it
took may not get to the file, since `fclose` is not checked.
-/

namespace TuyaDaemon

open CLib

abbrev oprtKvsWrFail : Int := -0x11
abbrev oprtKvsRdFail : Int := -0x12

/-! ### Files -/

/-- The names of the files. -/
inductive StorageKey where
  | region
  | registKey
deriving DecidableEq, Repr

/-- The files that exist, with their bytes. -/
abbrev Storage := StorageKey → Option (List UInt8)

/-- What becomes of a write: `fopen` fails, or `fwrite` takes `taken` bytes, of which `kept` get to the file. -/
inductive WriteOutcome where
  | openFails
  | written (taken kept : Nat)
deriving DecidableEq, Repr

def localStorageSet (key : StorageKey) (buffer : List UInt8) (outcome : WriteOutcome) (files : Storage) :
    Int × Storage :=
  match outcome with
  | .openFails => (oprtComError, files)
  | .written taken kept =>
    let files := Function.update files key (some ((buffer.take taken).take kept))
    -- an `int`, which the comparison converts to `size_t`
    let fileLen : Int := ((buffer.take taken).length : Int).bmod (2 ^ 32)
    if fileLen % 2 ^ 64 ≠ buffer.length then (oprtComError, files) else (oprtOk, files)

def localStorageGet {size : Nat} (key : StorageKey) (buffer : CArray size) (files : Storage) : Int × CArray size :=
  match files key with
  | none => (oprtComError, buffer)
  | some content =>
    if content.take size = [] then (oprtComError, buffer) else (oprtOk, buffer.readInto content)

/-- `local_storage_del`; `deleted` is whether `remove` succeeds. -/
def localStorageDel (key : StorageKey) (deleted : Bool) (files : Storage) : Storage :=
  if deleted then Function.update files key none else files

/-- The bytes that are stored under a name. -/
def Storage.content (files : Storage) (key : StorageKey) : List UInt8 := (files key).getD []

/-! ### The default endpoints -/

/-- `tuya_cloud_environment_t` -/
structure CloudEnvironment where
  regist : CText 5
  endpoint : List Endpoint

/-- An entry of the tables. -/
def defaultEndpoint (region host : String) (hregion : (bytes region).length < 3) (hhost : (bytes host).length < 65) :
    Endpoint :=
  ⟨.literal 3 (bytes region) hregion, .literal 65 (bytes host) hhost, 8883, .null, 0⟩

def defaultEndpintPro : List Endpoint :=
  [defaultEndpoint "AY" "m1.tuyacn.com" (by decide) (by decide),
    defaultEndpoint "AZ" "m1.tuyaus.com" (by decide) (by decide),
    defaultEndpoint "EU" "m1.tuyaeu.com" (by decide) (by decide),
    defaultEndpoint "IN" "m1.tuyain.com" (by decide) (by decide),
    defaultEndpoint "UE" "m1-ueaz.tuyaus.com" (by decide) (by decide)]

def defaultEndpintPr0 : List Endpoint :=
  [defaultEndpoint "AY" "m1-cn.wgine.com" (by decide) (by decide),
    defaultEndpoint "AZ" "m1-us.wgine.com" (by decide) (by decide),
    defaultEndpoint "EU" "m1-eu.wgine.com" (by decide) (by decide),
    defaultEndpoint "IN" "m1-ind.wgine.com" (by decide) (by decide),
    defaultEndpoint "UE" "m1-ueaz.wgine.com" (by decide) (by decide)]

def defaultEnvList : List CloudEnvironment :=
  [⟨.literal 5 (bytes "pro") (by decide), defaultEndpintPro⟩, ⟨.literal 5 (bytes "pr_0") (by decide), defaultEndpintPr0⟩]

/-- `sizeof(default_tuya_cacert)` -/
abbrev sizeofDefaultTuyaCacert : Nat := 2813

/-- `memcmp(s, a, strlen(s)) == 0` -/
def startsArray {size : Nat} (s : List UInt8) (a : CText size) : Bool := decide (a.mem.take s.length = s)

def defaultEndpointGet (region registKey : List UInt8) : Endpoint :=
  let endpoints :=
    match defaultEnvList.find? fun env => startsArray registKey env.regist with
    | some env => env.endpoint
    | none => defaultEndpintPro
  let endpoint := (endpoints.find? fun endpoint => startsArray region endpoint.region).getD
    (endpoints.headD zeroEndpoint)
  { endpoint with cert := .defaultTuyaCacert, certLen := sizeofDefaultTuyaCacert }

/-! ### The manager -/

/-- `endpoint_management_t` -/
structure EndpointManagement where
  region : CArray 3
  registKey : CArray 5
  endpoint : Endpoint

/-- `endpoint_mgr` at the start of the process. -/
def zeroManagement : EndpointManagement := ⟨.zero 3, .zero 5, zeroEndpoint⟩

/-- The files, and `endpoint_mgr`. -/
structure EndpointStore where
  files : Storage
  mgr : EndpointManagement

def tuyaRegionRegistKeyWrite (region registKey : Option CString) (regionWrite keyWrite : WriteOutcome)
    (files : Storage) : Int × Storage :=
  match region, registKey with
  | some region, some registKey =>
    let (ret, files) := localStorageSet .region region.chars regionWrite files
    if ret ≠ oprtOk then (oprtKvsWrFail, files)
    else
      let (ret, files) := localStorageSet .registKey registKey.chars keyWrite files
      if ret ≠ oprtOk then (oprtKvsWrFail, files) else (oprtOk, files)
  | _, _ => (oprtInvalidParm, files)

/-- `tuya_region_regist_key_read` into the arrays of `endpoint_mgr`. -/
def tuyaRegionRegistKeyRead (w : EndpointStore) : Int × EndpointManagement :=
  let (ret, region) := localStorageGet .region w.mgr.region w.files
  if ret ≠ oprtOk then (oprtKvsRdFail, { w.mgr with region := region })
  else
    let (ret, registKey) := localStorageGet .registKey w.mgr.registKey w.files
    if ret ≠ oprtOk then (oprtKvsRdFail, { w.mgr with region := region, registKey := registKey })
    else (oprtOk, { w.mgr with region := region, registKey := registKey })

def tuyaEndpointRegionRegistSet (region registKey : Option CString) (regionWrite keyWrite : WriteOutcome)
    (w : EndpointStore) : Except Fault (Int × EndpointStore) :=
  match region, registKey with
  | some region', some registKey' =>
    let (ret, files) := tuyaRegionRegistKeyWrite region registKey regionWrite keyWrite w.files
    if ret ≠ oprtOk then .ok (oprtKvsWrFail, { w with files := files })
    else do
      let regionMem ← w.mgr.region.strcpy region'.chars
      let keyMem ← w.mgr.registKey.strcpy registKey'.chars
      .ok (oprtOk, { files := files, mgr := { w.mgr with region := regionMem, registKey := keyMem } })
  | _, _ => .ok (oprtKvsWrFail, w)

def tuyaEndpointRemove (regionDeleted keyDeleted : Bool) (w : EndpointStore) : Int × EndpointStore :=
  (oprtOk, { w with files := localStorageDel .registKey keyDeleted (localStorageDel .region regionDeleted w.files) })

/-- The default online environment, for an empty key. -/
def defaultOnlineEnv (registKey : CArray 5) : Except Fault (CArray 5) := do
  let s ← registKey.str
  if s = [] then registKey.strcpy (bytes "pro") else .ok registKey

def tuyaEndpointInit (w : EndpointStore) : Except Fault (Int × EndpointStore) := do
  let mgr := (tuyaRegionRegistKeyRead w).2
  let region ← mgr.region.str
  let keyMem ← defaultOnlineEnv mgr.registKey
  let registKey ← keyMem.str
  .ok (oprtOk, { w with
    mgr := { region := mgr.region, registKey := keyMem, endpoint := defaultEndpointGet region registKey } })

/-- The process starts again. -/
def restart (w : EndpointStore) : EndpointStore := { w with mgr := zeroManagement }

/-! ### The files behind each operation -/

namespace WriteOutcome

/-- `fwrite` takes everything, and its result is an `int`. -/
def Complete (outcome : WriteOutcome) (buffer : List UInt8) : Prop :=
  match outcome with
  | .openFails => False
  | .written taken _ => buffer.length ≤ taken ∧ buffer.length < 2 ^ 31

instance (outcome : WriteOutcome) (buffer : List UInt8) : Decidable (outcome.Complete buffer) := by
  unfold Complete
  cases outcome <;> infer_instance

/-- What is stored behind the write, when `old` was stored before. -/
def leaves (outcome : WriteOutcome) (buffer old : List UInt8) : List UInt8 :=
  match outcome with
  | .openFails => old
  | .written taken kept => (buffer.take taken).take kept

theorem leaves_prefix {outcome : WriteOutcome} {buffer : List UInt8} (h : outcome.Complete buffer) (old : List UInt8) :
    outcome.leaves buffer old <+: buffer := by
  cases outcome with
  | openFails => exact h.elim
  | written taken kept => exact (List.take_prefix kept _).trans (List.take_prefix taken buffer)

end WriteOutcome

private theorem fileLen_eq_iff {n length : Nat} (hn : n ≤ length) (hlen : length < 2 ^ 63) :
    ((n : Int).bmod (2 ^ 32)) % 2 ^ 64 = length ↔ n = length ∧ length < 2 ^ 31 := by
  rw [Int.bmod]
  split <;> omega

theorem localStorageSet_ok_iff (key : StorageKey) {buffer : List UInt8} (hlen : buffer.length < 2 ^ 63)
    (outcome : WriteOutcome) (files : Storage) :
    (localStorageSet key buffer outcome files).1 = oprtOk ↔ outcome.Complete buffer := by
  cases outcome with
  | openFails => exact iff_of_false (show ¬ oprtComError = oprtOk by decide) id
  | written taken kept =>
    have htaken : (buffer.take taken).length ≤ buffer.length := List.length_take_le' _ _
    have hcomplete : (buffer.take taken).length = buffer.length ∧ buffer.length < 2 ^ 31 ↔
        buffer.length ≤ taken ∧ buffer.length < 2 ^ 31 := by
      rw [List.length_take]
      omega
    rw [WriteOutcome.Complete, ← hcomplete, ← fileLen_eq_iff htaken hlen]
    unfold localStorageSet
    dsimp only
    split
    · rename_i h
      exact iff_of_false (show ¬ oprtComError = oprtOk by decide) h
    · rename_i h
      exact iff_of_true rfl (not_not.1 h)

theorem localStorageSet_content (key : StorageKey) (buffer : List UInt8) (outcome : WriteOutcome) (files : Storage)
    (key' : StorageKey) :
    (localStorageSet key buffer outcome files).2.content key' =
      if key' = key then outcome.leaves buffer (files.content key) else files.content key' := by
  cases outcome with
  | openFails =>
    by_cases hkey : key' = key
    · rw [if_pos hkey, hkey]
      rfl
    · rw [if_neg hkey]
      rfl
  | written taken kept =>
    have hfiles : (localStorageSet key buffer (.written taken kept) files).2 =
        Function.update files key (some ((buffer.take taken).take kept)) := by
      unfold localStorageSet
      dsimp only
      split <;> rfl
    rw [hfiles, Storage.content, Function.update_apply]
    by_cases hkey : key' = key
    · rw [if_pos hkey, if_pos hkey]
      rfl
    · rw [if_neg hkey, if_neg hkey]
      rfl

theorem tuyaRegionRegistKeyWrite_ok_iff (region registKey : CString) (regionWrite keyWrite : WriteOutcome)
    (files : Storage) :
    (tuyaRegionRegistKeyWrite (some region) (some registKey) regionWrite keyWrite files).1 = oprtOk ↔
      regionWrite.Complete region.chars ∧ keyWrite.Complete registKey.chars := by
  have hlen : ∀ s : CString, s.chars.length < 2 ^ 63 := fun s => Nat.lt_of_lt_of_le s.fits (Nat.sub_le _ _)
  unfold tuyaRegionRegistKeyWrite
  dsimp only
  rw [← localStorageSet_ok_iff .region (hlen region) regionWrite files,
    ← localStorageSet_ok_iff .registKey (hlen registKey) keyWrite
      (localStorageSet .region region.chars regionWrite files).2]
  split
  · rename_i h
    exact iff_of_false (show ¬ oprtKvsWrFail = oprtOk by decide) fun hboth => h hboth.1
  · rename_i hregion
    split
    · rename_i h
      exact iff_of_false (show ¬ oprtKvsWrFail = oprtOk by decide) fun hboth => h hboth.2
    · rename_i h
      exact iff_of_true rfl ⟨not_not.1 hregion, not_not.1 h⟩

/-- The key is written behind a region that was written. -/
theorem tuyaRegionRegistKeyWrite_content (region registKey : CString) (regionWrite keyWrite : WriteOutcome)
    (files : Storage) :
    (tuyaRegionRegistKeyWrite (some region) (some registKey) regionWrite keyWrite files).2.content .region =
        regionWrite.leaves region.chars (files.content .region) ∧
      (tuyaRegionRegistKeyWrite (some region) (some registKey) regionWrite keyWrite files).2.content .registKey =
        if regionWrite.Complete region.chars then keyWrite.leaves registKey.chars (files.content .registKey)
        else files.content .registKey := by
  have hlen : region.chars.length < 2 ^ 63 := Nat.lt_of_lt_of_le region.fits (Nat.sub_le _ _)
  have hregion := localStorageSet_content .region region.chars regionWrite files
  have hkey := localStorageSet_content .registKey registKey.chars keyWrite
    (localStorageSet .region region.chars regionWrite files).2
  unfold tuyaRegionRegistKeyWrite
  dsimp only
  by_cases hcomplete : regionWrite.Complete region.chars
  · have hok := (localStorageSet_ok_iff .region hlen regionWrite files).2 hcomplete
    rw [if_neg (not_not.2 hok), if_pos hcomplete]
    have hsnd : ∀ (c : Prop) [Decidable c] (files : Storage),
        (if c then (oprtKvsWrFail, files) else (oprtOk, files)).2 = files := by
      intro c _ files
      split <;> rfl
    rw [hsnd, hkey, hkey, hregion, hregion]
    exact ⟨rfl, rfl⟩
  · have hok := mt (localStorageSet_ok_iff .region hlen regionWrite files).1 hcomplete
    rw [if_pos hok, if_neg hcomplete, hregion, hregion]
    exact ⟨rfl, rfl⟩

/-- A read succeeds exactly when something is stored. -/
theorem localStorageGet_eq {size : Nat} (hsize : 0 < size) (key : StorageKey) (buffer : CArray size)
    (files : Storage) :
    localStorageGet key buffer files =
      if files.content key = [] then (oprtComError, buffer) else (oprtOk, buffer.readInto (files.content key)) := by
  unfold localStorageGet Storage.content
  cases files key with
  | none => rfl
  | some content => simp [List.take_eq_nil_iff, Nat.ne_of_gt hsize]

theorem localStorageDel_content (key : StorageKey) (deleted : Bool) (files : Storage) (key' : StorageKey) :
    (localStorageDel key deleted files).content key' = if key' = key ∧ deleted then [] else files.content key' := by
  unfold localStorageDel
  cases deleted with
  | false => simp
  | true =>
    rw [if_pos rfl, Storage.content, Function.update_apply]
    by_cases hkey : key' = key
    · simp [hkey]
    · simp [hkey, Storage.content]

/-! ### Initialisation -/

/-- An empty key becomes `pro`. -/
def orPro (registKey : List UInt8) : List UInt8 := if registKey = [] then bytes "pro" else registKey

private theorem str_bind {size : Nat} {α : Type} {a : CArray size} {s : List UInt8} (h : a.str = .ok s)
    (f : List UInt8 → Except Fault α) : (a.str >>= f) = f s := by
  rw [h, ok_bind]

theorem defaultOnlineEnv_ok {key : CArray 5} {registKey : List UInt8} (h : key.str = .ok registKey) :
    ∃ keyMem, defaultOnlineEnv key = .ok keyMem ∧ keyMem.str = .ok (orPro registKey) := by
  unfold defaultOnlineEnv orPro
  rw [str_bind h]
  by_cases hnil : registKey = []
  · rw [if_pos hnil, if_pos hnil]
    exact key.strcpy_ok (by decide) (by decide)
  · rw [if_neg hnil, if_neg hnil]
    exact ⟨key, rfl, h⟩

/-- An initialisation that reads two strings uses them. -/
theorem tuyaEndpointInit_ok {w : EndpointStore} {region registKey : List UInt8}
    (hregion : (tuyaRegionRegistKeyRead w).2.region.str = .ok region)
    (hkey : (tuyaRegionRegistKeyRead w).2.registKey.str = .ok registKey) :
    ∃ keyMem, tuyaEndpointInit w = .ok (oprtOk, { w with
        mgr := ⟨(tuyaRegionRegistKeyRead w).2.region, keyMem, defaultEndpointGet region (orPro registKey)⟩ }) ∧
      keyMem.str = .ok (orPro registKey) := by
  obtain ⟨keyMem, hmem, hused⟩ := defaultOnlineEnv_ok hkey
  refine ⟨keyMem, ?_, hused⟩
  unfold tuyaEndpointInit
  simp only [str_bind hregion, hmem, ok_bind, str_bind hused]

/-- An initialisation that returns has read two strings. -/
theorem strings_of_init {w : EndpointStore} {r : Int × EndpointStore} (h : tuyaEndpointInit w = .ok r) :
    0 ∈ (tuyaRegionRegistKeyRead w).2.region.mem ∧ 0 ∈ (tuyaRegionRegistKeyRead w).2.registKey.mem := by
  unfold tuyaEndpointInit at h
  obtain ⟨region, hregion, hrest⟩ := exists_of_bind_eq_ok h
  obtain ⟨keyMem, hmem, -⟩ := exists_of_bind_eq_ok hrest
  unfold defaultOnlineEnv at hmem
  obtain ⟨registKey, hkey, -⟩ := exists_of_bind_eq_ok hmem
  exact ⟨(CArray.str_iff.1 hregion).1, (CArray.str_iff.1 hkey).1⟩

/-! ### Sets -/

/-- A set whose writes do not both succeed returns an error and leaves the memory alone. -/
theorem set_failed {region registKey : CString} {regionWrite keyWrite : WriteOutcome} (w : EndpointStore)
    (h : ¬ (regionWrite.Complete region.chars ∧ keyWrite.Complete registKey.chars)) :
    tuyaEndpointRegionRegistSet (some region) (some registKey) regionWrite keyWrite w = .ok (oprtKvsWrFail,
      { w with files :=
        (tuyaRegionRegistKeyWrite (some region) (some registKey) regionWrite keyWrite w.files).2 }) := by
  rw [← tuyaRegionRegistKeyWrite_ok_iff region registKey regionWrite keyWrite w.files] at h
  unfold tuyaEndpointRegionRegistSet
  dsimp only
  rw [if_pos h]

/-- One whose writes succeed goes on to the memory. -/
theorem set_written {region registKey : CString} {regionWrite keyWrite : WriteOutcome} (w : EndpointStore)
    (h : regionWrite.Complete region.chars ∧ keyWrite.Complete registKey.chars) :
    tuyaEndpointRegionRegistSet (some region) (some registKey) regionWrite keyWrite w =
      (w.mgr.region.strcpy region.chars >>= fun regionMem => w.mgr.registKey.strcpy registKey.chars >>= fun keyMem =>
        .ok (oprtOk, {
          files := (tuyaRegionRegistKeyWrite (some region) (some registKey) regionWrite keyWrite w.files).2
          mgr := { w.mgr with region := regionMem, registKey := keyMem } })) := by
  have hok := (tuyaRegionRegistKeyWrite_ok_iff region registKey regionWrite keyWrite w.files).2 h
  unfold tuyaEndpointRegionRegistSet
  dsimp only
  rw [if_neg (not_not.2 hok)]

theorem set_overflow {region registKey : CString} {regionWrite keyWrite : WriteOutcome} (w : EndpointStore)
    (h : regionWrite.Complete region.chars ∧ keyWrite.Complete registKey.chars)
    (hlong : ¬ (region.chars.length ≤ 2 ∧ registKey.chars.length ≤ 4)) :
    tuyaEndpointRegionRegistSet (some region) (some registKey) regionWrite keyWrite w = .error .overflow := by
  rw [set_written w h]
  by_cases hregion : region.chars.length < 3
  · obtain ⟨regionMem, hmem, -⟩ := w.mgr.region.strcpy_ok region.noNul hregion
    rw [hmem, ok_bind, w.mgr.registKey.strcpy_overflow (by omega), error_bind]
  · rw [w.mgr.region.strcpy_overflow (by omega), error_bind]

/-- With short strings a set succeeds, and has them in memory. -/
theorem set_ok {region registKey : CString} {regionWrite keyWrite : WriteOutcome} (w : EndpointStore)
    (h : regionWrite.Complete region.chars ∧ keyWrite.Complete registKey.chars)
    (hlen : region.chars.length ≤ 2 ∧ registKey.chars.length ≤ 4) :
    ∃ regionMem keyMem, tuyaEndpointRegionRegistSet (some region) (some registKey) regionWrite keyWrite w =
        .ok (oprtOk, {
          files := (tuyaRegionRegistKeyWrite (some region) (some registKey) regionWrite keyWrite w.files).2
          mgr := { w.mgr with region := regionMem, registKey := keyMem } }) ∧
      regionMem.str = .ok region.chars ∧ keyMem.str = .ok registKey.chars := by
  obtain ⟨regionMem, hregionMem, hregion⟩ := w.mgr.region.strcpy_ok region.noNul (Nat.lt_succ_of_le hlen.1)
  obtain ⟨keyMem, hkeyMem, hkey⟩ := w.mgr.registKey.strcpy_ok registKey.noNul (Nat.lt_succ_of_le hlen.2)
  exact ⟨regionMem, keyMem, by rw [set_written w h, hregionMem, ok_bind, hkeyMem, ok_bind], hregion, hkey⟩

end TuyaDaemon
