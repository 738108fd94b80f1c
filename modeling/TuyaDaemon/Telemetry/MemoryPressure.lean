import TuyaDaemon.Telemetry.FlatText

/-!
# Telemetry when memory runs out

`build_telemetry_json` returns nothing when a result it looks at is a failure, and otherwise leaves out whatever
could not be added.  So it returns nothing or a complete document exactly when a result that is looked at is a
failure, or none that is ignored is (`allOrNothing_iff`).
-/

namespace TuyaDaemon

open CLib

variable {D : Doubles}

/-! ### Interface strings -/

theorem natAbs_megabytes_le (n : UInt64) : (megabytes n).natAbs ≤ 2 ^ 53 := by
  have hlt := (n / (1024 * 1024)).toUInt32.toNat_lt
  unfold megabytes asInt
  split <;> omega

theorem InterfaceField.key_plain (f : InterfaceField) : Json.PlainKey f.key := by
  cases f <;> decide

/-- The fields of an interface are strings without NUL and exact integers. -/
theorem interfaceEntries_flat (ok : InterfaceSite → Bool) (interface : NetworkInfo) :
    ∀ m ∈ kept (interfaceEntries D ok interface), FlatMember D m := by
  intro m hm
  obtain ⟨f, -, hf⟩ := List.mem_map.1 (mem_kept hm)
  obtain rfl : m = (f.key, f.value D interface) := (congrArg Prod.snd hf).symm
  refine ⟨f.key_plain, ?_⟩
  cases f with
  | name => exact Or.inl ⟨_, rfl, interface.name.noNul⟩
  | ipAddr => exact Or.inl ⟨_, rfl, interface.ipAddress.noNul⟩
  | netmask => exact Or.inl ⟨_, rfl, interface.netmask.noNul⟩
  | txMb => exact Or.inr ⟨_, rfl, natAbs_megabytes_le _⟩
  | rxMb => exact Or.inr ⟨_, rfl, natAbs_megabytes_le _⟩

theorem parse_interfaceString {text : CJsonText D} (htext : text.Lossless) (ok : InterfaceSite → Bool)
    (interface : NetworkInfo) :
    text.parse (text.print (.object (kept (interfaceEntries D ok interface)))) =
      some (.object (kept (interfaceEntries D ok interface))) :=
  htext _ (interfaceEntries_flat ok interface)

/-- A field is found exactly when it was added. -/
theorem lookup_interfaceEntries (ok : InterfaceSite → Bool) (interface : NetworkInfo) (f : InterfaceField) :
    (kept (interfaceEntries D ok interface)).lookup f.key =
      if added fun s => ok (.field f s) then some (f.value D interface) else none := by
  refine lookup_kept ?_ (List.mem_map.2 ⟨f, mem_interfaceFields f, rfl⟩)
  rw [interfaceEntries, List.map_map]
  show (interfaceFields.map InterfaceField.key).Nodup
  decide

theorem length_interfaceStrings (text : CJsonText D) (ok : Nat → InterfaceSite → Bool) (i : Nat)
    (interfaces : List NetworkInfo) : (interfaceStrings text ok i interfaces).length = interfaces.length := by
  induction interfaces generalizing i with
  | nil => rfl
  | cons interface rest ih => simp [interfaceStrings, ih]

theorem forall_interfaceStrings_iff {text : CJsonText D} {ok : Nat → InterfaceSite → Bool} {i : Nat}
    {interfaces : List NetworkInfo} {P : CJson D.Val → Prop} :
    (∀ item ∈ interfaceStrings text ok i interfaces, P item) ↔
      ∀ j (h : j < interfaces.length), P (interfaceString text (ok (i + j)) (interfaces.get ⟨j, h⟩)) := by
  induction interfaces generalizing i with
  | nil => simp [interfaceStrings]
  | cons interface rest ih =>
    rw [interfaceStrings, List.forall_mem_cons, ih]
    constructor
    · rintro ⟨hfirst, hrest⟩ j hj
      cases j with
      | zero => exact hfirst
      | succ j =>
        have := hrest j (by simpa using hj)
        rwa [show i + 1 + j = i + (j + 1) by omega] at this
    · intro h
      refine ⟨h 0 (by simp), fun j hj => ?_⟩
      have := h (j + 1) (by simpa using hj)
      rwa [show i + (j + 1) = i + 1 + j by omega] at this

/-! ### Complete documents -/

/-- The string parses to an object with all five fields. -/
def HasFields (text : CJsonText D) (s : List UInt8) : Prop :=
  ∃ ms, text.parse s = some (.object ms) ∧ ∀ f : InterfaceField, (ms.lookup f.key).isSome

/-- The five members are there, each with its value, and the interfaces are `k` strings with all fields. -/
def CompleteDocument (text : CJsonText D) (k : Nat) (doc : CJson D.Val) : Prop :=
  ∃ root, doc = .object root ∧
    (∀ n : NumberItem, ∃ item x, root.lookup n.key = some (.object item) ∧
      item.lookup (bytes "value") = some (.number x)) ∧
    ∃ item items, root.lookup (bytes "interfaces") = some (.object item) ∧
      item.lookup (bytes "value") = some (.array items) ∧ items.length = k ∧
      ∀ string ∈ items, ∃ s, string = .string s ∧ HasFields text s

/-- Nothing, or a complete document. -/
def AllOrNothing (text : CJsonText D) (k : Nat) (result : Option (CJson D.Val)) : Prop :=
  result = none ∨ ∃ doc, result = some doc ∧ CompleteDocument text k doc

theorem hasFields_iff {text : CJsonText D} (htext : text.Lossless) (ok : InterfaceSite → Bool)
    (interface : NetworkInfo) :
    (∃ s, interfaceString text ok interface = .string s ∧ HasFields text s) ↔
      ∀ f s, ok (.field f s) = true := by
  have hparse := parse_interfaceString htext ok interface
  constructor
  · rintro ⟨_, hs, ms, hms, hall⟩ f s
    cases hs
    rw [hparse] at hms
    cases hms
    have hf := hall f
    rw [lookup_interfaceEntries] at hf
    by_cases hadded : (added fun s => ok (.field f s)) = true
    · exact added_eq_true_iff.1 hadded s
    · rw [if_neg hadded] at hf
      cases hf
  · intro h
    refine ⟨_, rfl, _, hparse, ?_⟩
    intro f
    rw [lookup_interfaceEntries, if_pos (added_eq_true_iff.2 (h f))]
    rfl

theorem lookup_value {b : Bool} {v : CJson D.Val} :
    (kept [(b, bytes "value", v)]).lookup (bytes "value") = if b then some v else none :=
  lookup_kept (by simp) (by simp)

private theorem documentEntries_nodup (text : CJsonText D) (ok : Site → Bool) (system : SystemInfo)
    (interfaces : List NetworkInfo) (cpuUsage : D.Val) :
    ((documentEntries text ok system interfaces cpuUsage).map fun m => m.2.1).Nodup := by
  show (numberItems.map NumberItem.key ++ [bytes "interfaces"]).Nodup
  decide

theorem lookup_numberItem (text : CJsonText D) (ok : Site → Bool) (system : SystemInfo)
    (interfaces : List NetworkInfo) (cpuUsage : D.Val) (n : NumberItem) :
    (kept (documentEntries text ok system interfaces cpuUsage)).lookup n.key =
      if ok (.item n .key) then some (numberItem (fun s => ok (.item n s)) (n.value D system cpuUsage)) else none := by
  refine lookup_kept (documentEntries_nodup _ _ _ _ _) (List.mem_append_left _ ?_)
  exact List.mem_map.2 ⟨n, by cases n <;> simp [numberItems], rfl⟩

theorem lookup_interfacesItem (text : CJsonText D) (ok : Site → Bool) (system : SystemInfo)
    (interfaces : List NetworkInfo) (cpuUsage : D.Val) :
    (kept (documentEntries text ok system interfaces cpuUsage)).lookup (bytes "interfaces") =
      if ok (.interfaces .key) then some (interfacesItem text ok interfaces) else none :=
  lookup_kept (documentEntries_nodup _ _ _ _ _) (List.mem_append_right _ (by simp))

/-- The sites whose results are ignored, one by one. -/
theorem unchecked_iff {ok : Site → Bool} {k : Nat} :
    (∀ s : Site, s.Reached k → s.checked = false → ok s = true) ↔
      (∀ n, ok (.item n .key) = true ∧ ∀ s, ok (.item n (.value s)) = true) ∧
        (∀ i < k, ∀ f s, ok (.interface i (.field f s)) = true) ∧
          ok (.interfaces .valueKey) = true ∧ ok (.interfaces .key) = true := by
  constructor
  · intro h
    exact ⟨fun n => ⟨h (.item n .key) trivial rfl, fun s => h (.item n (.value s)) trivial rfl⟩,
      fun i hi f s => h (.interface i (.field f s)) hi rfl, h (.interfaces .valueKey) trivial rfl,
      h (.interfaces .key) trivial rfl⟩
  · rintro ⟨hitem, hinterface, hvalue, hkey⟩ s hreached hs
    cases s with
    | root => cases hs
    | item n s =>
      cases s with
      | object => cases hs
      | value s => exact (hitem n).2 s
      | key => exact (hitem n).1
    | array => cases hs
    | interface i s =>
      cases s with
      | field f s => exact hinterface i hreached f s
      | object => cases hs
      | print => cases hs
      | string => cases hs
    | interfaces s =>
      cases s with
      | object => cases hs
      | valueKey => exact hvalue
      | key => exact hkey

private theorem numberItem_complete_iff {root : CJsonMembers D.Val} {keyOk : Bool} {ok : ItemSite → Bool}
    {key : List UInt8} {value : D.Val}
    (hroot : root.lookup key = if keyOk then some (numberItem ok value) else none) :
    (∃ item x, root.lookup key = some (.object item) ∧ item.lookup (bytes "value") = some (.number x)) ↔
      keyOk = true ∧ ∀ s, ok (.value s) = true := by
  rw [hroot]
  constructor
  · rintro ⟨item, x, hitem, hx⟩
    cases hkey : keyOk with
    | false =>
      rw [hkey] at hitem
      cases hitem
    | true =>
      rw [hkey, if_pos rfl] at hitem
      cases hitem
      rw [lookup_value] at hx
      by_cases hadded : (added fun s => ok (.value s)) = true
      · exact ⟨rfl, added_eq_true_iff.1 hadded⟩
      · rw [if_neg hadded] at hx
        cases hx
  · rintro ⟨rfl, hvalue⟩
    refine ⟨_, value, if_pos rfl, ?_⟩
    rw [lookup_value, if_pos (added_eq_true_iff.2 hvalue)]

/-- A document is complete exactly when no result that is ignored is a failure. -/
theorem completeDocument_iff {text : CJsonText D} (htext : text.Lossless) (ok : Site → Bool) (system : SystemInfo)
    (interfaces : List NetworkInfo) (cpuUsage : D.Val) :
    CompleteDocument text interfaces.length (.object (kept (documentEntries text ok system interfaces cpuUsage))) ↔
      ∀ s : Site, s.Reached interfaces.length → s.checked = false → ok s = true := by
  have hnumber := fun n => numberItem_complete_iff (lookup_numberItem text ok system interfaces cpuUsage n)
  have hlast := lookup_interfacesItem text ok system interfaces cpuUsage
  have hstrings : (∀ string ∈ interfaceStrings text (fun i s => ok (.interface i s)) 0 interfaces,
      ∃ s, string = .string s ∧ HasFields text s) ↔
        ∀ i < interfaces.length, ∀ f s, ok (.interface i (.field f s)) = true := by
    rw [forall_interfaceStrings_iff]
    refine forall_congr' fun j => forall_congr' fun hj => ?_
    rw [Nat.zero_add, hasFields_iff htext]
  rw [unchecked_iff]
  constructor
  · rintro ⟨root, hroot, hitems, item, items, hitem, hvalue, -, hall⟩
    cases hroot
    rw [hlast] at hitem
    by_cases hkey : ok (.interfaces .key) = true
    · rw [if_pos hkey] at hitem
      cases hitem
      rw [lookup_value] at hvalue
      by_cases hvkey : ok (.interfaces .valueKey) = true
      · rw [if_pos hvkey] at hvalue
        cases hvalue
        exact ⟨fun n => (hnumber n).1 (hitems n), hstrings.1 hall, hvkey, hkey⟩
      · rw [if_neg hvkey] at hvalue
        cases hvalue
    · rw [if_neg hkey] at hitem
      cases hitem
  · rintro ⟨hitem, hinterface, hvkey, hkey⟩
    refine ⟨_, rfl, fun n => (hnumber n).2 (hitem n), kept [(ok (.interfaces .valueKey), bytes "value",
      .array (interfaceStrings text (fun i s => ok (.interface i s)) 0 interfaces))], _, ?_, ?_, ?_,
      hstrings.2 hinterface⟩
    · rw [hlast, if_pos hkey]
      rfl
    · rw [lookup_value, if_pos hvkey]
    · exact length_interfaceStrings _ _ _ _

/-- What `build_telemetry_json` returns is nothing or complete exactly when a result it looks at is a failure, or
none that it ignores is. -/
theorem allOrNothing_iff {text : CJsonText D} (htext : text.Lossless) (ok : Site → Bool) (system : SystemInfo)
    (interfaces : List NetworkInfo) (cpuUsage : D.Val) :
    AllOrNothing text interfaces.length
        (buildTelemetryJson text ok (some system) (some interfaces) interfaces.length cpuUsage) ↔
      (∃ s : Site, s.Reached interfaces.length ∧ s.checked = true ∧ ok s = false) ∨
        ∀ s : Site, s.Reached interfaces.length → s.checked = false → ok s = true := by
  rw [← completeDocument_iff htext ok system interfaces cpuUsage]
  by_cases hchecked : ∀ s : Site, s.Reached interfaces.length → s.checked = true → ok s = true
  · have hnone : ¬ ∃ s : Site, s.Reached interfaces.length ∧ s.checked = true ∧ ok s = false := by
      rintro ⟨s, hreached, hs, hfail⟩
      rw [hchecked s hreached hs] at hfail
      cases hfail
    have hsome : buildTelemetryJson text ok (some system) (some interfaces) interfaces.length cpuUsage =
        some (.object (kept (documentEntries text ok system interfaces cpuUsage))) :=
      buildTelemetryJson_eq_some_iff.2 ⟨hchecked, rfl⟩
    rw [AllOrNothing, hsome]
    simp [hnone]
  · have hresult : buildTelemetryJson text ok (some system) (some interfaces) interfaces.length cpuUsage = none := by
      rw [Option.eq_none_iff_forall_ne_some]
      intro doc hdoc
      exact hchecked (buildTelemetryJson_eq_some_iff.1 hdoc).1
    constructor
    · intro _
      left
      by_contra hno
      apply hchecked
      intro s hreached hs
      by_contra hfail
      exact hno ⟨s, hreached, hs, by simpa using hfail⟩
    · intro _
      exact Or.inl hresult

/-- `eth0` with one megabyte sent and two received. -/
def exampleInterface : NetworkInfo where
  name := ⟨bytes "eth0", by decide, by decide⟩
  ipAddress := ⟨bytes "10.0.0.2", by decide, by decide⟩
  netmask := ⟨bytes "255.0.0.0", by decide, by decide⟩
  txBytes := 1048576
  rxBytes := 2097152

theorem allOrNothing_iff_eth0 :
    AllOrNothing flatText [exampleInterface].length
        (buildTelemetryJson flatText (fun _ => true) (some ⟨0, 0, 0⟩) (some [exampleInterface])
          [exampleInterface].length (0 : Rat)) ↔
      (∃ s : Site, s.Reached [exampleInterface].length ∧ s.checked = true ∧ true = false) ∨
        ∀ s : Site, s.Reached [exampleInterface].length → s.checked = false → true = true :=
  allOrNothing_iff flatText_lossless (fun _ => true) ⟨0, 0, 0⟩ [exampleInterface] (0 : Rat)

/-- Only the number in `total_ram` cannot be created: the document has that item without its value. -/
theorem not_allOrNothing_noValue :
    ¬ AllOrNothing flatText 0
      (buildTelemetryJson flatText (fun s => decide (s ≠ .item .totalRam (.value .create))) (some ⟨0, 0, 0⟩)
        (some []) 0 (0 : Rat)) := by
  generalize hok : (fun s : Site => decide (s ≠ .item .totalRam (.value .create))) = ok
  have hchecked : ∀ s : Site, s.Reached ([] : List NetworkInfo).length → s.checked = true → ok s = true := by
    intro s _ hs
    rw [← hok, decide_eq_true_eq]
    rintro rfl
    cases hs
  have hdoc : buildTelemetryJson flatText ok (some ⟨0, 0, 0⟩) (some []) 0 (0 : Rat) =
      some (.object (kept (documentEntries flatText ok ⟨0, 0, 0⟩ [] (0 : Rat)))) :=
    buildTelemetryJson_eq_some_iff.2 ⟨hchecked, rfl⟩
  rintro (hnone | ⟨doc, hsome, hcomplete⟩)
  · cases hdoc.symm.trans hnone
  · cases hdoc.symm.trans hsome
    have hvalue := (completeDocument_iff flatText_lossless ok _ [] _).1 hcomplete (.item .totalRam (.value .create))
      trivial rfl
    rw [← hok] at hvalue
    simp at hvalue

end TuyaDaemon
