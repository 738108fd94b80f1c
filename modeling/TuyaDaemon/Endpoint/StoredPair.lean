import TuyaDaemon.Endpoint.Manager

/-!
# The stored region and key

Runs of sets, removes, initialisations and restarts.  `PairStatus` is the abstract view of a run: the pair that an
initialisation should use, the pair that the process has in memory, if any, and what the two files hold.  Nothing ties
the files to each other or to the memory, and a remove leaves the memory alone, so an initialisation uses the pair in
memory when there is one and otherwise what the files hold (`PairStatus.used`).  `storedPair_iff` is the condition
under which that is always the pair it should use.
-/

namespace TuyaDaemon

open CLib

/-! ### Runs -/

/-- The operations; each write and each deletion is free to fail. -/
inductive PairOp where
  | set (region registKey : Option CString) (regionWrite keyWrite : WriteOutcome)
  | remove (regionDeleted keyDeleted : Bool)
  | init
  | restart

def PairOp.run (op : PairOp) (w : EndpointStore) : Except Fault (Int × EndpointStore) :=
  match op with
  | .set region registKey regionWrite keyWrite =>
    tuyaEndpointRegionRegistSet region registKey regionWrite keyWrite w
  | .remove regionDeleted keyDeleted => .ok (tuyaEndpointRemove regionDeleted keyDeleted w)
  | .init => tuyaEndpointInit w
  | .restart => .ok (oprtOk, TuyaDaemon.restart w)

/-- The pair of a device that has nothing stored. -/
def defaultPair : List UInt8 × List UInt8 := ([], bytes "pro")

/-- The pair that an initialisation behind the operation should use. -/
def PairOp.expectedAfter (op : PairOp) (rt : Int) (expected : List UInt8 × List UInt8) : List UInt8 × List UInt8 :=
  match op with
  | .set (some region) (some registKey) _ _ => if rt = oprtOk then (region.chars, registKey.chars) else expected
  | .remove _ _ => defaultPair
  | _ => expected

/-- What one operation keeps: a set that returns an error changes neither the stored pair nor the pair in memory, and
an initialisation uses the pair it should. -/
def PairOp.Keeps (op : PairOp) (expected : List UInt8 × List UInt8) (w : EndpointStore) (rt : Int)
    (w' : EndpointStore) : Prop :=
  match op with
  | .set _ _ _ _ => rt ≠ oprtOk → (∀ key, w'.files.content key = w.files.content key) ∧
      w'.mgr.region = w.mgr.region ∧ w'.mgr.registKey = w.mgr.registKey
  | .init => rt = oprtOk ∧ w'.mgr.region.str = .ok expected.1 ∧ w'.mgr.registKey.str = .ok expected.2 ∧
      w'.mgr.endpoint = defaultEndpointGet expected.1 expected.2
  | _ => True

/-- Each operation of the run returns, and keeps what it should. -/
def StoredPair : List UInt8 × List UInt8 → EndpointStore → List PairOp → Prop
  | _, _, [] => True
  | expected, w, op :: rest => ∃ rt w', op.run w = .ok (rt, w') ∧ op.Keeps expected w rt w' ∧
      StoredPair (op.expectedAfter rt expected) w' rest

/-- A process that has just started, on a device that has nothing stored. -/
def emptyStore : EndpointStore := ⟨fun _ => none, zeroManagement⟩

/-! ### The abstract view -/

structure PairStatus where
  expected : List UInt8 × List UInt8
  /-- the pair of the last set that succeeded, or the last initialisation, since the start of the process -/
  inMemory : Option (List UInt8 × List UInt8)
  regionFile : List UInt8
  keyFile : List UInt8

namespace PairStatus

/-- The pair that an initialisation uses. -/
def used (s : PairStatus) : List UInt8 × List UInt8 :=
  match s.inMemory with
  | some (region, registKey) => (region, orPro registKey)
  | none => if s.regionFile = [] then defaultPair else (s.regionFile, orPro s.keyFile)

def step (s : PairStatus) : PairOp → PairStatus
  | .set (some region) (some registKey) regionWrite keyWrite =>
    if regionWrite.Complete region.chars ∧ keyWrite.Complete registKey.chars then
      { expected := (region.chars, registKey.chars)
        inMemory := some (region.chars, registKey.chars)
        regionFile := regionWrite.leaves region.chars s.regionFile
        keyFile := keyWrite.leaves registKey.chars s.keyFile }
    else s
  | .set _ _ _ _ => s
  | .remove regionDeleted keyDeleted =>
    { s with
      expected := defaultPair
      regionFile := if regionDeleted then [] else s.regionFile
      keyFile := if keyDeleted then [] else s.keyFile }
  | .init => { s with inMemory := some s.used }
  | .restart => { s with inMemory := none }

end PairStatus

/-- The condition on one operation.  A set that returns an error has written what is there already, one that succeeds
has strings that fit, and an initialisation would use the pair it should. -/
def PairOp.Fits (op : PairOp) (s : PairStatus) : Prop :=
  match op with
  | .set (some region) (some registKey) regionWrite keyWrite =>
    if regionWrite.Complete region.chars then
      if keyWrite.Complete registKey.chars then region.chars.length ≤ 2 ∧ registKey.chars.length ≤ 4
      else regionWrite.leaves region.chars s.regionFile = s.regionFile ∧
        keyWrite.leaves registKey.chars s.keyFile = s.keyFile
    else regionWrite.leaves region.chars s.regionFile = s.regionFile
  | .init => s.used = s.expected
  | _ => True

def OpsFit : PairStatus → List PairOp → Prop
  | _, [] => True
  | s, op :: rest => op.Fits s ∧ OpsFit (s.step op) rest

/-- The memory of a process that has no pair is zeroed; one that has a pair has it in the arrays, and the files hold
beginnings of it. -/
def MemoryHolds (s : PairStatus) (mgr : EndpointManagement) : Prop :=
  match s.inMemory with
  | none => mgr.region = .zero 3 ∧ mgr.registKey = .zero 5
  | some (region, registKey) => mgr.region.str = .ok region ∧ mgr.registKey.str = .ok registKey ∧
      s.regionFile <+: region ∧ (s.regionFile ≠ [] → s.keyFile <+: registKey)

/-- The world has the status. -/
structure HasStatus (s : PairStatus) (w : EndpointStore) : Prop where
  regionFile : w.files.content .region = s.regionFile
  keyFile : w.files.content .registKey = s.keyFile
  memory : MemoryHolds s w.mgr
  region_le : s.regionFile.length ≤ 2
  key_le : s.keyFile.length ≤ 4
  region_noNul : 0 ∉ s.regionFile
  key_noNul : 0 ∉ s.keyFile

/-! ### Initialisation -/

/-- What is read: a region, and a key that is still to be completed. -/
theorem tuyaRegionRegistKeyRead_spec {s : PairStatus} {w : EndpointStore} (h : HasStatus s w) :
    ∃ region key registKey, (tuyaRegionRegistKeyRead w).2 = { w.mgr with region := region, registKey := key } ∧
      region.str = .ok s.used.1 ∧ key.str = .ok registKey ∧ orPro registKey = s.used.2 := by
  unfold tuyaRegionRegistKeyRead
  rw [localStorageGet_eq (by decide), localStorageGet_eq (by decide), h.regionFile, h.keyFile]
  have hmemory := h.memory
  unfold MemoryHolds at hmemory
  unfold PairStatus.used
  cases hin : s.inMemory with
  | none =>
    rw [hin] at hmemory
    obtain ⟨hregion, hkey⟩ := hmemory
    rw [hregion]
    have hempty : w.mgr.registKey.str = .ok [] := by
      rw [hkey]
      exact CArray.str_zero (by decide)
    by_cases hr : s.regionFile = []
    · simp only [if_pos hr]
      exact ⟨.zero 3, w.mgr.registKey, [], rfl, CArray.str_zero (by decide), hempty, rfl⟩
    · have hstored : ((CArray.zero 3).readInto s.regionFile).str = .ok s.regionFile :=
        CArray.str_readInto_zero (Nat.lt_succ_of_le h.region_le) h.region_noNul
      simp only [if_neg hr]
      by_cases hk : s.keyFile = []
      · refine ⟨_, w.mgr.registKey, [], ?_, hstored, hempty, by rw [hk]⟩
        rw [if_pos hk]
        rfl
      · refine ⟨_, w.mgr.registKey.readInto s.keyFile, s.keyFile, ?_, hstored, ?_, rfl⟩
        · rw [if_neg hk]
          rfl
        · rw [hkey]
          exact CArray.str_readInto_zero (Nat.lt_succ_of_le h.key_le) h.key_noNul
  | some pair =>
    obtain ⟨region, registKey⟩ := pair
    rw [hin] at hmemory
    obtain ⟨hregion, hkey, hregionPrefix, hkeyPrefix⟩ := hmemory
    refine ⟨w.mgr.region, w.mgr.registKey, registKey, ?_, hregion, hkey, rfl⟩
    -- the files hold beginnings of what is there
    by_cases hr : s.regionFile = []
    · rw [if_pos hr]
      rfl
    · rw [if_neg hr, CArray.readInto_prefix hregion hregionPrefix, CArray.readInto_prefix hkey (hkeyPrefix hr)]
      by_cases hk : s.keyFile = []
      · rw [if_pos hk]
        rfl
      · rw [if_neg hk]
        rfl

/-- An initialisation uses the pair of the status, and has it in memory. -/
theorem tuyaEndpointInit_spec {s : PairStatus} {w : EndpointStore} (h : HasStatus s w) :
    ∃ mgr, tuyaEndpointInit w = .ok (oprtOk, { w with mgr := mgr }) ∧ mgr.region.str = .ok s.used.1 ∧
      mgr.registKey.str = .ok s.used.2 ∧ mgr.endpoint = defaultEndpointGet s.used.1 s.used.2 := by
  obtain ⟨region, key, registKey, hread, hregion, hkey, hpro⟩ := tuyaRegionRegistKeyRead_spec h
  have hread' : (tuyaRegionRegistKeyRead w).2.region = region ∧ (tuyaRegionRegistKeyRead w).2.registKey = key := by
    rw [hread]
    exact ⟨rfl, rfl⟩
  rw [← hread'.1] at hregion
  rw [← hread'.2] at hkey
  obtain ⟨keyMem, hinit, hused⟩ := tuyaEndpointInit_ok hregion hkey
  rw [hpro] at hinit hused
  exact ⟨_, hinit, hregion, hused, rfl⟩

theorem HasStatus.init {s : PairStatus} {w : EndpointStore} {mgr : EndpointManagement} (h : HasStatus s w)
    (hregion : mgr.region.str = .ok s.used.1) (hkey : mgr.registKey.str = .ok s.used.2) :
    HasStatus (s.step .init) { w with mgr := mgr } := by
  refine { h with memory := ⟨hregion, hkey, ?_⟩ }
  have hmemory := h.memory
  unfold MemoryHolds at hmemory
  show s.regionFile <+: s.used.1 ∧ (s.regionFile ≠ [] → s.keyFile <+: s.used.2)
  have hpro : ∀ registKey : List UInt8, s.keyFile <+: registKey → s.keyFile <+: orPro registKey := by
    intro registKey hfile
    unfold orPro
    split
    · rename_i hnil
      rw [hnil, List.prefix_nil] at hfile
      rw [hfile]
      exact List.nil_prefix
    · exact hfile
  unfold PairStatus.used
  cases hin : s.inMemory with
  | none =>
    dsimp only
    split
    · rename_i hr
      exact ⟨by rw [hr]; exact List.nil_prefix, fun hne => absurd hr hne⟩
    · exact ⟨List.prefix_refl _, fun _ => hpro _ (List.prefix_refl _)⟩
  | some pair =>
    rw [hin] at hmemory
    exact ⟨hmemory.2.2.1, fun hne => hpro _ (hmemory.2.2.2 hne)⟩

/-! ### Sets -/

theorem set_fits {s : PairStatus} {w : EndpointStore} {region registKey : CString}
    {regionWrite keyWrite : WriteOutcome} (hstatus : HasStatus s w)
    (h : regionWrite.Complete region.chars ∧ keyWrite.Complete registKey.chars)
    (hlen : region.chars.length ≤ 2 ∧ registKey.chars.length ≤ 4) :
    ∃ w', tuyaEndpointRegionRegistSet (some region) (some registKey) regionWrite keyWrite w = .ok (oprtOk, w') ∧
      HasStatus (s.step (.set (some region) (some registKey) regionWrite keyWrite)) w' := by
  obtain ⟨regionMem, keyMem, hset, hregion, hkey⟩ := set_ok w h hlen
  obtain ⟨hregionFile, hkeyFile⟩ :=
    tuyaRegionRegistKeyWrite_content region registKey regionWrite keyWrite w.files
  rw [if_pos h.1, hstatus.keyFile] at hkeyFile
  rw [hstatus.regionFile] at hregionFile
  have hregionPrefix := WriteOutcome.leaves_prefix h.1 s.regionFile
  have hkeyPrefix := WriteOutcome.leaves_prefix h.2 s.keyFile
  refine ⟨_, hset, ?_⟩
  rw [PairStatus.step, if_pos h]
  exact
    { regionFile := hregionFile
      keyFile := hkeyFile
      memory := ⟨hregion, hkey, hregionPrefix, fun _ => hkeyPrefix⟩
      region_le := Nat.le_trans hregionPrefix.length_le hlen.1
      key_le := Nat.le_trans hkeyPrefix.length_le hlen.2
      region_noNul := fun hmem => region.noNul (hregionPrefix.subset hmem)
      key_noNul := fun hmem => registKey.noNul (hkeyPrefix.subset hmem) }

/-- The files behind a set that failed are as they were exactly when it wrote what was there. -/
theorem set_failed_files_iff {s : PairStatus} {w : EndpointStore} {region registKey : CString}
    {regionWrite keyWrite : WriteOutcome} (hstatus : HasStatus s w)
    (h : ¬ (regionWrite.Complete region.chars ∧ keyWrite.Complete registKey.chars)) :
    (∀ key, (tuyaRegionRegistKeyWrite (some region) (some registKey) regionWrite keyWrite w.files).2.content key =
        w.files.content key) ↔
      PairOp.Fits (.set (some region) (some registKey) regionWrite keyWrite) s := by
  obtain ⟨hregionFile, hkeyFile⟩ :=
    tuyaRegionRegistKeyWrite_content region registKey regionWrite keyWrite w.files
  rw [hstatus.regionFile] at hregionFile
  rw [hstatus.keyFile] at hkeyFile
  have hboth : (∀ key, (tuyaRegionRegistKeyWrite (some region) (some registKey) regionWrite keyWrite
      w.files).2.content key = w.files.content key) ↔
      regionWrite.leaves region.chars s.regionFile = s.regionFile ∧
        (if regionWrite.Complete region.chars then keyWrite.leaves registKey.chars s.keyFile else s.keyFile) =
          s.keyFile := by
    rw [← hregionFile, ← hkeyFile, ← hstatus.regionFile, ← hstatus.keyFile]
    constructor
    · intro hall
      exact ⟨hall .region, hall .registKey⟩
    · rintro ⟨hregion, hkey⟩ key
      cases key with
      | region => exact hregion
      | registKey => exact hkey
  rw [hboth, PairOp.Fits]
  by_cases hregion : regionWrite.Complete region.chars
  · rw [if_pos hregion, if_pos hregion, if_neg fun hkey => h ⟨hregion, hkey⟩]
  · rw [if_neg hregion, if_neg hregion, and_iff_left rfl]

/-! ### Runs -/

/-- The files may be read from another place. -/
theorem HasStatus.congr {s : PairStatus} {w w' : EndpointStore} (h : HasStatus s w)
    (hfiles : ∀ key, w'.files.content key = w.files.content key) (hmgr : w'.mgr = w.mgr) : HasStatus s w' :=
  { h with
    regionFile := (hfiles .region).trans h.regionFile
    keyFile := (hfiles .registKey).trans h.keyFile
    memory := by rw [hmgr]; exact h.memory }

theorem HasStatus.remove {s : PairStatus} {w : EndpointStore} (h : HasStatus s w) (regionDeleted keyDeleted : Bool) :
    HasStatus (s.step (.remove regionDeleted keyDeleted)) (tuyaEndpointRemove regionDeleted keyDeleted w).2 := by
  have hcontent : ∀ (deleted : Bool) (file : List UInt8), (if deleted then [] else file) <+: file := by
    intro deleted file
    cases deleted with
    | false => exact List.prefix_refl file
    | true => exact List.nil_prefix
  have hregion := hcontent regionDeleted s.regionFile
  have hkey := hcontent keyDeleted s.keyFile
  refine
    { regionFile := ?_
      keyFile := ?_
      memory := ?_
      region_le := Nat.le_trans hregion.length_le h.region_le
      key_le := Nat.le_trans hkey.length_le h.key_le
      region_noNul := fun hmem => h.region_noNul (hregion.subset hmem)
      key_noNul := fun hmem => h.key_noNul (hkey.subset hmem) }
  · show (localStorageDel .registKey keyDeleted (localStorageDel .region regionDeleted w.files)).content .region = _
    rw [localStorageDel_content, localStorageDel_content, h.regionFile]
    simp [PairStatus.step]
  · show (localStorageDel .registKey keyDeleted (localStorageDel .region regionDeleted w.files)).content .registKey = _
    rw [localStorageDel_content, localStorageDel_content, h.keyFile]
    simp [PairStatus.step]
  · have hmemory := h.memory
    show MemoryHolds _ w.mgr
    unfold MemoryHolds at hmemory ⊢
    simp only [PairStatus.step]
    cases hin : s.inMemory with
    | none =>
      rw [hin] at hmemory
      exact hmemory
    | some pair =>
      rw [hin] at hmemory
      refine ⟨hmemory.1, hmemory.2.1, hregion.trans hmemory.2.2.1, fun hne => hkey.trans (hmemory.2.2.2 ?_)⟩
      intro hnil
      rw [hnil] at hne
      exact hne (ite_self [])

theorem HasStatus.restart {s : PairStatus} {w : EndpointStore} (h : HasStatus s w) :
    HasStatus (s.step .restart) (TuyaDaemon.restart w) :=
  { h with memory := ⟨rfl, rfl⟩ }

/-- An operation that fits returns, keeps what it should, and leads to the next status. -/
theorem PairOp.keeps_of_fits (op : PairOp) {s : PairStatus} {w : EndpointStore} (h : HasStatus s w)
    (hfits : op.Fits s) :
    ∃ rt w', op.run w = .ok (rt, w') ∧ op.Keeps s.expected w rt w' ∧ HasStatus (s.step op) w' ∧
      op.expectedAfter rt s.expected = (s.step op).expected := by
  cases op with
  | set region registKey regionWrite keyWrite =>
    rcases region with _ | region
    · exact ⟨oprtKvsWrFail, w, rfl, fun _ => ⟨fun _ => rfl, rfl, rfl⟩, h, rfl⟩
    rcases registKey with _ | registKey
    · exact ⟨oprtKvsWrFail, w, rfl, fun _ => ⟨fun _ => rfl, rfl, rfl⟩, h, rfl⟩
    by_cases hcomplete : regionWrite.Complete region.chars ∧ keyWrite.Complete registKey.chars
    · rw [PairOp.Fits, if_pos hcomplete.1, if_pos hcomplete.2] at hfits
      obtain ⟨w', hrun, hstatus⟩ := set_fits h hcomplete hfits
      refine ⟨oprtOk, w', hrun, fun hne => absurd rfl hne, hstatus, ?_⟩
      rw [PairOp.expectedAfter, if_pos rfl, PairStatus.step, if_pos hcomplete]
    · have hfiles := (set_failed_files_iff h hcomplete).2 hfits
      refine ⟨oprtKvsWrFail, _, set_failed w hcomplete, fun _ => ⟨hfiles, rfl, rfl⟩, ?_, ?_⟩
      · rw [PairStatus.step, if_neg hcomplete]
        exact h.congr hfiles rfl
      · rw [PairOp.expectedAfter, if_neg (by decide), PairStatus.step, if_neg hcomplete]
  | remove regionDeleted keyDeleted =>
    exact ⟨oprtOk, _, rfl, trivial, h.remove regionDeleted keyDeleted, rfl⟩
  | init =>
    obtain ⟨mgr, hrun, hregion, hkey, hendpoint⟩ := tuyaEndpointInit_spec h
    have hused : s.used = s.expected := hfits
    refine ⟨oprtOk, _, hrun, ?_, h.init hregion hkey, rfl⟩
    rw [hused] at hregion hkey hendpoint
    exact ⟨rfl, hregion, hkey, hendpoint⟩
  | restart => exact ⟨oprtOk, _, rfl, trivial, h.restart, rfl⟩

/-- Only an operation that fits keeps what it should. -/
theorem PairOp.fits_of_keeps (op : PairOp) {s : PairStatus} {w w' : EndpointStore} {rt : Int} (h : HasStatus s w)
    (hrun : op.run w = .ok (rt, w')) (hkeeps : op.Keeps s.expected w rt w') : op.Fits s := by
  cases op with
  | set region registKey regionWrite keyWrite =>
    rcases region with _ | region
    · trivial
    rcases registKey with _ | registKey
    · trivial
    by_cases hcomplete : regionWrite.Complete region.chars ∧ keyWrite.Complete registKey.chars
    · rw [PairOp.Fits, if_pos hcomplete.1, if_pos hcomplete.2]
      by_contra hlong
      rw [PairOp.run, set_overflow w hcomplete hlong] at hrun
      cases hrun
    · rw [PairOp.run, set_failed w hcomplete] at hrun
      cases hrun
      exact (set_failed_files_iff h hcomplete).1 (hkeeps (by decide)).1
  | remove regionDeleted keyDeleted => trivial
  | init =>
    obtain ⟨mgr, hinit, hregion, hkey, -⟩ := tuyaEndpointInit_spec h
    rw [PairOp.run, hinit] at hrun
    cases hrun
    obtain ⟨-, hregion', hkey', -⟩ := hkeeps
    exact Prod.ext (Except.ok.inj (hregion.symm.trans hregion')) (Except.ok.inj (hkey.symm.trans hkey'))
  | restart => trivial

theorem storedPair_of_status (ops : List PairOp) {s : PairStatus} {w : EndpointStore} (h : HasStatus s w) :
    StoredPair s.expected w ops ↔ OpsFit s ops := by
  induction ops generalizing s w with
  | nil => exact Iff.rfl
  | cons op rest ih =>
    constructor
    · rintro ⟨rt, w', hrun, hkeeps, hrest⟩
      have hfits := op.fits_of_keeps h hrun hkeeps
      obtain ⟨rt', w'', hrun', -, hstatus, hexpected⟩ := op.keeps_of_fits h hfits
      rw [hrun'] at hrun
      cases hrun
      rw [hexpected] at hrest
      exact ⟨hfits, (ih hstatus).1 hrest⟩
    · rintro ⟨hfits, hrest⟩
      obtain ⟨rt, w', hrun, hkeeps, hstatus, hexpected⟩ := op.keeps_of_fits h hfits
      refine ⟨rt, w', hrun, hkeeps, ?_⟩
      rw [hexpected]
      exact (ih hstatus).2 hrest

/-- The status of a device with nothing stored. -/
def emptyStatus : PairStatus := ⟨defaultPair, none, [], []⟩

theorem emptyStore_hasStatus : HasStatus emptyStatus emptyStore :=
  ⟨rfl, rfl, ⟨rfl, rfl⟩, by decide, by decide, by decide, by decide⟩

/-- In a run from an empty device, however the writes and the deletions end, the stored region and key stay a pair
exactly when every operation fits. -/
theorem storedPair_iff (ops : List PairOp) : StoredPair defaultPair emptyStore ops ↔ OpsFit emptyStatus ops :=
  storedPair_of_status ops emptyStore_hasStatus

/-- The region of one pair is stored, then the key of another cannot be. -/
theorem not_storedPair_halfWritten : ¬ StoredPair defaultPair emptyStore
    [.set (some ⟨bytes "AY", by decide, by decide⟩) (some ⟨bytes "pro", by decide, by decide⟩) (.written 2 2)
        (.written 3 3),
      .set (some ⟨bytes "EU", by decide, by decide⟩) (some ⟨bytes "pr_0", by decide, by decide⟩) (.written 2 2)
        .openFails] := by
  intro h
  obtain ⟨-, hfits, -⟩ := (storedPair_of_status _ emptyStore_hasStatus).1 h
  have hregion : bytes "EU" = bytes "AY" := hfits.1
  exact absurd hregion (by decide)

end TuyaDaemon
