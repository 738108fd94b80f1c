import TuyaDaemon.Telemetry.MemoryPressure

/-!
# What telemetry says about the interfaces

Without failing allocations the document has one string for each usable entry of `getifaddrs`, in order, with the
entry's own texts.  A counter goes through two narrowings: its file is looked up under a name cut to 63 characters,
and its megabytes are an `int`.  `reportsFaithfully_iff` is exactly when both leave the numbers as they are.
-/

namespace TuyaDaemon

open CLib

variable {D : Doubles}

/-! ### Counters -/

/-- The megabytes of a counter, rounded down. -/
def wholeMegabytes (n : UInt64) : Nat := n.toNat / 2 ^ 20

/-- The megabytes of an interface's own counter. -/
def ownMegabytes (files : StatFiles) (interface : Interface) (stat : List UInt8) : Nat :=
  wholeMegabytes (ownCounter files interface.name stat)

/-- The megabytes of the counter that is read. -/
def readMegabytes (files : StatFiles) (interface : Interface) (stat : List UInt8) : Nat :=
  wholeMegabytes (readInterfaceStat files (cut 63 interface.name) stat)

theorem wholeMegabytes_lt (n : UInt64) : wholeMegabytes n < 2 ^ 44 := by
  have := n.toNat_lt
  unfold wholeMegabytes
  omega

/-- The conversion to `int` keeps the lower 32 bits. -/
theorem megabytes_eq (n : UInt64) :
    megabytes n = if wholeMegabytes n % 2 ^ 32 < 2 ^ 31 then ((wholeMegabytes n % 2 ^ 32 : Nat) : Int)
      else ((wholeMegabytes n % 2 ^ 32 : Nat) : Int) - 2 ^ 32 := by
  have h : ((n / (1024 * 1024)).toUInt32).toNat = wholeMegabytes n % 2 ^ 32 := by
    rw [UInt64.toNat_toUInt32, UInt64.toNat_div]
    rfl
  rw [megabytes, asInt, h]

/-- An `int` of megabytes is the number `k` exactly when `k` fits and the lower bits agree. -/
theorem megabytes_eq_natCast_iff (n : UInt64) (k : Nat) :
    megabytes n = k ↔ k < 2 ^ 31 ∧ wholeMegabytes n % 2 ^ 32 = k := by
  rw [megabytes_eq]
  split <;> omega

/-- The number that is read narrows to the interface's own megabytes. -/
def Narrows (files : StatFiles) (interface : Interface) (stat : List UInt8) : Prop :=
  ownMegabytes files interface stat < 2 ^ 31 ∧
    readMegabytes files interface stat % 2 ^ 32 = ownMegabytes files interface stat

/-- For a name that fits the array, a counter below `2^51` is what it takes. -/
theorem narrows_iff_of_short {files : StatFiles} {interface : Interface} {stat : List UInt8}
    (hname : interface.name.chars.length ≤ 63) (hstat : stat.length ≤ 8) :
    Narrows files interface stat ↔ (ownCounter files interface.name stat).toNat < 2 ^ 51 := by
  have hread : readMegabytes files interface stat = ownMegabytes files interface stat := by
    rw [readMegabytes, readInterfaceStat_of_short hname hstat]
    rfl
  unfold Narrows
  rw [hread]
  unfold ownMegabytes wholeMegabytes
  omega

/-! ### The document -/

/-- The text of the netmask. -/
def Interface.netmaskText (interface : Interface) : CString :=
  match interface.netmask with
  | some mask => numericHost mask
  | none => emptyString

/-- A string whose object has the texts and the counters of the interface. -/
def Describes (text : CJsonText D) (files : StatFiles) (interface : Interface) (item : CJson D.Val) : Prop :=
  ∃ s ms, item = .string s ∧ text.parse s = some (.object ms) ∧
    ms.lookup (bytes "name") = some (.string (interface.name.chars.take 63)) ∧
    ms.lookup (bytes "ip_addr") = some (.string (numericHost interface.addr).chars) ∧
    ms.lookup (bytes "netmask") = some (.string interface.netmaskText.chars) ∧
    ms.lookup (bytes "tx_mb") = some (.number (D.ofInt (ownMegabytes files interface txBytesStat))) ∧
    ms.lookup (bytes "rx_mb") = some (.number (D.ofInt (ownMegabytes files interface rxBytesStat)))

/-- The collection returns the number of usable entries, and the document made of it describes each of them. -/
structure ReportsFaithfully (text : CJsonText D) (files : StatFiles) (ifaddrs : List IfAddr) (maxInterfaces : Int)
    (system : SystemInfo) (cpuUsage : D.Val) : Prop where
  count : (collectNetworkInfo (some ifaddrs) files maxInterfaces).1 = (usable maxInterfaces.toNat ifaddrs).length
  document : ∃ root item items,
    buildTelemetryJson text (fun _ => true) (some system)
        (some (collectNetworkInfo (some ifaddrs) files maxInterfaces).2)
        (collectNetworkInfo (some ifaddrs) files maxInterfaces).1 cpuUsage = some (.object root) ∧
      root.lookup (bytes "interfaces") = some (.object item) ∧
      item.lookup (bytes "value") = some (.array items) ∧
      List.Forall₂ (Describes text files) (usable maxInterfaces.toNat ifaddrs) items

/-- The string of one interface describes it exactly when both counters narrow to its own. -/
theorem describes_interfaceString_iff {text : CJsonText D} (htext : text.Lossless) (files : StatFiles)
    (interface : Interface) :
    Describes text files interface (interfaceString text (fun _ => true) (interface.info files)) ↔
      Narrows files interface txBytesStat ∧ Narrows files interface rxBytesStat := by
  have hparse := parse_interfaceString htext (fun _ => true) (interface.info files)
  have hlookup : ∀ f : InterfaceField,
      (kept (interfaceEntries D (fun _ => true) (interface.info files))).lookup f.key =
        some (f.value D (interface.info files)) := fun f => lookup_interfaceEntries _ _ f
  have hnumber : ∀ stat, D.ofInt (megabytes (readInterfaceStat files (cut 63 interface.name) stat)) =
      D.ofInt (ownMegabytes files interface stat) ↔ Narrows files interface stat := by
    intro stat
    constructor
    · intro h
      have hown := wholeMegabytes_lt (ownCounter files interface.name stat)
      have hint := D.ofInt_injective _ _ (natAbs_megabytes_le _) (by unfold ownMegabytes; omega) h
      exact (megabytes_eq_natCast_iff _ _).1 hint
    · intro h
      exact congrArg D.ofInt ((megabytes_eq_natCast_iff _ _).2 h)
  constructor
  · rintro ⟨_, ms, hs, hms, -, -, -, htx, hrx⟩
    cases hs
    rw [hparse] at hms
    cases hms
    have htx' := (hlookup .txMb).symm.trans htx
    have hrx' := (hlookup .rxMb).symm.trans hrx
    simp only [InterfaceField.value, Option.some.injEq, CJson.number.injEq] at htx' hrx'
    exact ⟨(hnumber _).1 htx', (hnumber _).1 hrx'⟩
  · rintro ⟨htx, hrx⟩
    refine ⟨_, _, rfl, hparse, hlookup .name, hlookup .ipAddr, ?_, ?_, ?_⟩
    · exact hlookup .netmask
    · exact (hlookup .txMb).trans (congrArg (fun x => some (CJson.number x)) ((hnumber _).2 htx))
    · exact (hlookup .rxMb).trans (congrArg (fun x => some (CJson.number x)) ((hnumber _).2 hrx))

theorem forall₂_interfaceStrings_iff {text : CJsonText D} {files : StatFiles} {P : Interface → CJson D.Val → Prop}
    {i : Nat} {interfaces : List Interface} :
    List.Forall₂ P interfaces (interfaceStrings text (fun _ _ => true) i (interfaces.map (Interface.info files))) ↔
      ∀ interface ∈ interfaces, P interface (interfaceString text (fun _ => true) (interface.info files)) := by
  induction interfaces generalizing i with
  | nil =>
    constructor
    · intro _ interface h
      cases h
    · intro _
      exact .nil
  | cons interface rest ih =>
    rw [List.map_cons, interfaceStrings, List.forall_mem_cons]
    constructor
    · rintro (_ | ⟨h, hrest⟩)
      exact ⟨h, ih.1 hrest⟩
    · rintro ⟨h, hrest⟩
      exact .cons h (ih.2 hrest)

/-- Collection and document keep the entries and their order; what is left is each string on its own. -/
theorem reportsFaithfully_iff_describes (text : CJsonText D) (files : StatFiles) (ifaddrs : List IfAddr)
    {maxInterfaces : Int} (hmax : 0 < maxInterfaces) (system : SystemInfo) (cpuUsage : D.Val) :
    ReportsFaithfully text files ifaddrs maxInterfaces system cpuUsage ↔
      ∀ interface ∈ usable maxInterfaces.toNat ifaddrs,
        Describes text files interface (interfaceString text (fun _ => true) (interface.info files)) := by
  have hcollect := collectNetworkInfo_eq ifaddrs files hmax
  generalize hL : usable maxInterfaces.toNat ifaddrs = L at hcollect ⊢
  have hbuild : buildTelemetryJson text (fun _ => true) (some system) (some (L.map (Interface.info files)))
      (L.map (Interface.info files)).length cpuUsage =
        some (.object (kept (documentEntries text (fun _ => true) system (L.map (Interface.info files)) cpuUsage))) :=
    buildTelemetryJson_eq_some_iff.2 ⟨fun _ _ _ => rfl, rfl⟩
  rw [List.length_map] at hbuild
  have hinterfaces := lookup_interfacesItem text (fun _ => true) system (L.map (Interface.info files)) cpuUsage
  have hvalue : (kept [(true, bytes "value",
      CJson.array (interfaceStrings text (fun _ _ => true) 0 (L.map (Interface.info files))))]).lookup (bytes "value") =
        some (.array (interfaceStrings text (fun _ _ => true) 0 (L.map (Interface.info files)))) :=
    lookup_value
  rw [← forall₂_interfaceStrings_iff]
  constructor
  · rintro ⟨-, root, item, items, hdoc, hitem, hitems, hall⟩
    rw [hcollect] at hdoc
    cases hbuild.symm.trans hdoc
    cases hinterfaces.symm.trans hitem
    cases hvalue.symm.trans hitems
    rw [hL] at hall
    exact hall
  · intro hall
    refine ⟨by rw [hcollect, hL], _, _, _, ?_, hinterfaces, hvalue, ?_⟩
    · rw [hcollect]
      exact hbuild
    · rw [hL]
      exact hall

/-- The interfaces are reported faithfully exactly when every counter narrows to its own. -/
theorem reportsFaithfully_iff {text : CJsonText D} (htext : text.Lossless) (files : StatFiles)
    (ifaddrs : List IfAddr) {maxInterfaces : Int} (hmax : 0 < maxInterfaces) (system : SystemInfo)
    (cpuUsage : D.Val) :
    ReportsFaithfully text files ifaddrs maxInterfaces system cpuUsage ↔
      ∀ interface ∈ usable maxInterfaces.toNat ifaddrs,
        Narrows files interface txBytesStat ∧ Narrows files interface rxBytesStat := by
  rw [reportsFaithfully_iff_describes text files ifaddrs hmax]
  exact forall_congr' fun interface => forall_congr' fun _ => describes_interfaceString_iff htext files interface

/-- `eth0` at `10.0.0.2`. -/
def exampleIfAddr : IfAddr where
  name := some exampleInterface.name
  addr := some ⟨true, some exampleInterface.ipAddress⟩
  netmask := some ⟨true, some exampleInterface.netmask⟩

/-- Every file of the statistics holds this number. -/
def constantFiles (n : UInt64) : StatFiles := fun _ => some n

theorem reportsFaithfully_iff_eth0 :
    ReportsFaithfully flatText (constantFiles 1048576) [exampleIfAddr] 16 ⟨0, 0, 0⟩ (0 : Rat) ↔
      ∀ interface ∈ usable 16 [exampleIfAddr],
        Narrows (constantFiles 1048576) interface txBytesStat ∧ Narrows (constantFiles 1048576) interface rxBytesStat :=
  reportsFaithfully_iff flatText_lossless (constantFiles 1048576) [exampleIfAddr] (by decide) ⟨0, 0, 0⟩ (0 : Rat)

/-- `2^51` bytes are `2^31` megabytes, which are negative as an `int`. -/
theorem not_reportsFaithfully_2_51 :
    ¬ ReportsFaithfully flatText (constantFiles 2251799813685248) [exampleIfAddr] 16 ⟨0, 0, 0⟩ (0 : Rat) := by
  intro h
  have hall := (reportsFaithfully_iff_describes flatText (constantFiles 2251799813685248) [exampleIfAddr] (by decide)
    ⟨0, 0, 0⟩ (0 : Rat)).1 h
  obtain ⟨interface, husable⟩ : ∃ interface, usable 16 [exampleIfAddr] = [interface] := ⟨_, rfl⟩
  have hdescribes := hall interface (by rw [show (16 : Int).toNat = 16 from rfl, husable]; simp)
  have hnarrows := ((describes_interfaceString_iff flatText_lossless _ interface).1 hdescribes).1
  have hname : interface.name.chars.length ≤ 63 := by
    obtain rfl := List.singleton_inj.1 husable
    decide
  have hcounter := (narrows_iff_of_short hname (by decide)).1 hnarrows
  exact absurd hcounter (show ¬ (2251799813685248 : UInt64).toNat < 2 ^ 51 by decide)

end TuyaDaemon
