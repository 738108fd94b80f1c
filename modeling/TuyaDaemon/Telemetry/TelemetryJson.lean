import TuyaDaemon.Json.Scalars
import TuyaDaemon.Telemetry.NetworkInfo

/-!
# The telemetry document

`build_telemetry_json` of `telemetry_json.c` with its helpers, over trees of cJSON.  Doubles are a parameter, and so
is the text that cJSON prints and parses.  Each creation, key copy and print is a `Site` that may fail on its own;
the code looks at some of the results and ignores the others.  `buildTelemetryJson_eq_some_iff` says when there is a
document and what it contains.
-/

namespace TuyaDaemon

open CLib

/-! ### Trees of cJSON -/

/-- The arithmetic of doubles; integers up to `2^53` are exact. -/
structure Doubles where
  Val : Type
  ofInt : Int → Val
  mul : Val → Val → Val
  div : Val → Val → Val
  round : Val → Val
  ofInt_injective : ∀ a b : Int, a.natAbs ≤ 2 ^ 53 → b.natAbs ≤ 2 ^ 53 → ofInt a = ofInt b → a = b

inductive CJson (Val : Type) where
  | number (x : Val)
  | string (s : List UInt8)
  | array (items : List (CJson Val))
  | object (members : List (List UInt8 × CJson Val))

abbrev CJsonMembers (Val : Type) := List (List UInt8 × CJson Val)

/-- `cJSON_PrintUnformatted` and `cJSON_Parse`. -/
structure CJsonText (D : Doubles) where
  print : CJson D.Val → List UInt8
  parse : List UInt8 → Option (CJson D.Val)

/-- A member with a plain key, and a string without NUL or an exact integer. -/
def FlatMember (D : Doubles) (m : List UInt8 × CJson D.Val) : Prop :=
  Json.PlainKey m.1 ∧
    ((∃ s, m.2 = .string s ∧ 0 ∉ s) ∨ ∃ n : Int, m.2 = .number (D.ofInt n) ∧ n.natAbs ≤ 2 ^ 53)

/-- Objects of strings and integers are parsed back as they were printed. -/
def CJsonText.Lossless {D : Doubles} (text : CJsonText D) : Prop :=
  ∀ ms : CJsonMembers D.Val, (∀ m ∈ ms, FlatMember D m) → text.parse (text.print (.object ms)) = some (.object ms)

/-! ### Where memory can run out -/

/-- In `cJSON_Add…ToObject`. -/
inductive AddSite where
  | create
  | key
deriving DecidableEq, Repr

/-- In `add_number_item`. -/
inductive ItemSite where
  | object
  | value (s : AddSite)
  | key
deriving DecidableEq, Repr

inductive NumberItem where
  | totalRam
  | freeRam
  | systemUptime
  | cpuUsage
deriving DecidableEq, Repr

inductive InterfaceField where
  | name
  | ipAddr
  | netmask
  | txMb
  | rxMb
deriving DecidableEq, Repr

/-- In `build_network_interface_json`. -/
inductive InterfaceSite where
  | object
  | field (f : InterfaceField) (s : AddSite)
  | print
  | string
deriving DecidableEq, Repr

/-- In `add_array_item`. -/
inductive ArraySite where
  | object
  | valueKey
  | key
deriving DecidableEq, Repr

/-- In `build_telemetry_json`; `interface i` is for the `i`-th interface. -/
inductive Site where
  | root
  | item (n : NumberItem) (s : ItemSite)
  | array
  | interface (i : Nat) (s : InterfaceSite)
  | interfaces (s : ArraySite)
deriving DecidableEq, Repr

def NumberItem.key : NumberItem → List UInt8
  | .totalRam => bytes "total_ram"
  | .freeRam => bytes "free_ram"
  | .systemUptime => bytes "system_uptime"
  | .cpuUsage => bytes "cpu_usage"

def InterfaceField.key : InterfaceField → List UInt8
  | .name => bytes "name"
  | .ipAddr => bytes "ip_addr"
  | .netmask => bytes "netmask"
  | .txMb => bytes "tx_mb"
  | .rxMb => bytes "rx_mb"

/-! ### The model -/

/-- `struct system_info` -/
structure SystemInfo where
  totalRam : UInt64
  freeRam : UInt64
  uptime : Int64

section Model

variable {D : Doubles}

/-- `cJSON_AddItemToObject`: without an item, or without a copy of the key, nothing is added. -/
def addItemToObject (keyCopied : Bool) (object : CJsonMembers D.Val) (name : List UInt8)
    (item : Option (CJson D.Val)) : CJsonMembers D.Val :=
  match item with
  | none => object
  | some item => if keyCopied then object ++ [(name, item)] else object

def addNumberToObject (ok : AddSite → Bool) (object : CJsonMembers D.Val) (name : List UInt8) (number : D.Val) :
    CJsonMembers D.Val :=
  addItemToObject (ok .key) object name (if ok .create then some (.number number) else none)

def addStringToObject (ok : AddSite → Bool) (object : CJsonMembers D.Val) (name string : List UInt8) :
    CJsonMembers D.Val :=
  addItemToObject (ok .key) object name (if ok .create then some (.string string) else none)

/-- `add_number_item`: the root with the item, or `none` when it returns `-1`. -/
def addNumberItem (ok : ItemSite → Bool) (root : CJsonMembers D.Val) (name : List UInt8) (value : D.Val) :
    Option (CJsonMembers D.Val) :=
  if ok .object then
    let item := addNumberToObject (fun s => ok (.value s)) [] (bytes "value") value
    some (addItemToObject (ok .key) root name (some (.object item)))
  else none

def addArrayItem (ok : ArraySite → Bool) (root : CJsonMembers D.Val) (name : List UInt8)
    (array : Option (CJson D.Val)) : Option (CJsonMembers D.Val) :=
  match array with
  | none => none
  | some array =>
    if ok .object then
      let item := addItemToObject (ok .valueKey) [] (bytes "value") (some array)
      some (addItemToObject (ok .key) root name (some (.object item)))
    else none

/-- `(int)(bytes / (1024ULL * 1024ULL))` -/
def megabytes (n : UInt64) : Int := asInt (n / (1024 * 1024)).toUInt32

def buildNetworkInterfaceJson (text : CJsonText D) (ok : InterfaceSite → Bool) (interface : NetworkInfo) :
    Option (CJson D.Val) :=
  if ok .object then
    let object := addStringToObject (fun s => ok (.field .name s)) [] InterfaceField.name.key interface.name.chars
    let object := addStringToObject (fun s => ok (.field .ipAddr s)) object InterfaceField.ipAddr.key
      interface.ipAddress.chars
    let object := addStringToObject (fun s => ok (.field .netmask s)) object InterfaceField.netmask.key
      interface.netmask.chars
    let object := addNumberToObject (fun s => ok (.field .txMb s)) object InterfaceField.txMb.key
      (D.ofInt (megabytes interface.txBytes))
    let object := addNumberToObject (fun s => ok (.field .rxMb s)) object InterfaceField.rxMb.key
      (D.ofInt (megabytes interface.rxBytes))
    if ok .print then
      let jsonString := text.print (.object object)
      if ok .string then some (.string jsonString) else none
    else none
  else none

/-- The loop of `build_network_json`, from the `i`-th interface on. -/
def addInterfaces (text : CJsonText D) (ok : Nat → InterfaceSite → Bool) :
    Nat → List NetworkInfo → List (CJson D.Val) → Option (List (CJson D.Val))
  | _, [], items => some items
  | i, interface :: rest, items =>
    match buildNetworkInterfaceJson text (ok i) interface with
    | none => none
    | some item => addInterfaces text ok (i + 1) rest (items ++ [item])

def buildNetworkJson (text : CJsonText D) (ok : Site → Bool) (interfaces : List NetworkInfo) : Option (CJson D.Val) :=
  if ok .array then
    (addInterfaces text (fun i s => ok (.interface i s)) 0 interfaces []).map CJson.array
  else none

/-- `round(ram / (1024.0 * 1024.0) * 100.0) / 100.0` -/
def roundedMegabytes (D : Doubles) (ram : UInt64) : D.Val :=
  D.div (D.round (D.mul (D.div (D.ofInt ram.toNat) (D.mul (D.ofInt 1024) (D.ofInt 1024))) (D.ofInt 100)))
    (D.ofInt 100)

/-- `round(cpu_usage * 100.0) / 100.0` -/
def roundedUsage (D : Doubles) (cpuUsage : D.Val) : D.Val :=
  D.div (D.round (D.mul cpuUsage (D.ofInt 100))) (D.ofInt 100)

/-- The value that goes into a number item. -/
def NumberItem.value (D : Doubles) (system : SystemInfo) (cpuUsage : D.Val) : NumberItem → D.Val
  | .totalRam => roundedMegabytes D system.totalRam
  | .freeRam => roundedMegabytes D system.freeRam
  | .systemUptime => D.ofInt system.uptime.toInt
  | .cpuUsage => roundedUsage D cpuUsage

/-- `build_telemetry_json`; a pointer is `none` when it is `NULL`. -/
def buildTelemetryJson (text : CJsonText D) (ok : Site → Bool) (system : Option SystemInfo)
    (interfaces : Option (List NetworkInfo)) (interfaceCount : Int) (cpuUsage : D.Val) : Option (CJson D.Val) :=
  match system with
  | none => none
  | some system =>
    if interfaceCount < 0 then none
    else if 0 < interfaceCount ∧ interfaces.isNone then none
    else if ok .root then do
      let root ← addNumberItem (fun s => ok (.item .totalRam s)) [] NumberItem.totalRam.key
        (roundedMegabytes D system.totalRam)
      let root ← addNumberItem (fun s => ok (.item .freeRam s)) root NumberItem.freeRam.key
        (roundedMegabytes D system.freeRam)
      let root ← addNumberItem (fun s => ok (.item .systemUptime s)) root NumberItem.systemUptime.key
        (D.ofInt system.uptime.toInt)
      let root ← addNumberItem (fun s => ok (.item .cpuUsage s)) root NumberItem.cpuUsage.key
        (roundedUsage D cpuUsage)
      let networkArray ← buildNetworkJson text ok ((interfaces.getD []).take interfaceCount.toNat)
      let root ← addArrayItem (fun s => ok (.interfaces s)) root (bytes "interfaces") (some networkArray)
      some (.object root)
    else none

/-! ### What a document contains -/

/-- The members whose flag is set, in order. -/
def kept {α : Type} (l : List (Bool × List UInt8 × α)) : List (List UInt8 × α) :=
  l.filterMap fun m => if m.1 then some m.2 else none

theorem kept_append {α : Type} (l l' : List (Bool × List UInt8 × α)) : kept (l ++ l') = kept l ++ kept l' :=
  List.filterMap_append

theorem mem_kept {α : Type} {l : List (Bool × List UInt8 × α)} {m : List UInt8 × α} (h : m ∈ kept l) :
    (true, m) ∈ l := by
  simp only [kept, List.mem_filterMap, Option.ite_none_right_eq_some, Option.some.injEq] at h
  obtain ⟨⟨b, m'⟩, hm, hb, rfl⟩ := h
  simp only at hb
  rw [← hb]
  exact hm

/-- With distinct keys, a member is found exactly when its flag is set. -/
theorem lookup_kept {α : Type} {l : List (Bool × List UInt8 × α)} (hnd : (l.map fun m => m.2.1).Nodup) {b : Bool}
    {k : List UInt8} {v : α} (h : (b, k, v) ∈ l) : (kept l).lookup k = if b then some v else none := by
  induction l with
  | nil => cases h
  | cons m l ih =>
    simp only [List.map_cons, List.nodup_cons, List.mem_map, not_exists, not_and] at hnd
    rcases List.mem_cons.1 h with rfl | hmem
    · -- the other members have other keys
      have hrest : (kept l).lookup k = none := by
        rw [List.lookup_eq_none_iff]
        intro m' hm'
        have hne := hnd.1 _ (mem_kept hm')
        simpa using Ne.symm hne
      cases b with
      | true => simp [kept]
      | false => simpa [kept] using hrest
    · have hne : k ≠ m.2.1 := hnd.1 _ hmem
      have htail := ih hnd.2 hmem
      obtain ⟨b', k', v'⟩ := m
      cases b' with
      | true =>
        have hbeq : (k == k') = false := by simpa using hne
        simpa [kept, List.lookup_cons, hbeq] using htail
      | false => simpa [kept] using htail

/-- A value is created and added. -/
def added (ok : AddSite → Bool) : Bool := ok .create && ok .key

theorem added_eq_true_iff {ok : AddSite → Bool} : added ok = true ↔ ∀ s, ok s = true := by
  rw [added, Bool.and_eq_true]
  constructor
  · rintro ⟨hcreate, hkey⟩ s
    cases s with
    | create => exact hcreate
    | key => exact hkey
  · intro h
    exact ⟨h .create, h .key⟩

theorem addNumberToObject_eq (ok : AddSite → Bool) (object : CJsonMembers D.Val) (name : List UInt8) (x : D.Val) :
    addNumberToObject ok object name x = object ++ kept [(added ok, name, .number x)] := by
  cases hc : ok .create <;> cases hk : ok .key <;> simp [addNumberToObject, addItemToObject, added, kept, hc, hk]

theorem addStringToObject_eq (ok : AddSite → Bool) (object : CJsonMembers D.Val) (name s : List UInt8) :
    addStringToObject ok object name s = object ++ kept [(added ok, name, .string s)] := by
  cases hc : ok .create <;> cases hk : ok .key <;> simp [addStringToObject, addItemToObject, added, kept, hc, hk]

/-- The value of a field in the object of an interface. -/
def InterfaceField.value (D : Doubles) (interface : NetworkInfo) : InterfaceField → CJson D.Val
  | .name => .string interface.name.chars
  | .ipAddr => .string interface.ipAddress.chars
  | .netmask => .string interface.netmask.chars
  | .txMb => .number (D.ofInt (megabytes interface.txBytes))
  | .rxMb => .number (D.ofInt (megabytes interface.rxBytes))

def interfaceFields : List InterfaceField := [.name, .ipAddr, .netmask, .txMb, .rxMb]

theorem mem_interfaceFields (f : InterfaceField) : f ∈ interfaceFields := by
  cases f <;> simp [interfaceFields]

/-- The fields of an interface, each with whether it is added. -/
def interfaceEntries (D : Doubles) (ok : InterfaceSite → Bool) (interface : NetworkInfo) :
    List (Bool × List UInt8 × CJson D.Val) :=
  interfaceFields.map fun f => (added fun s => ok (.field f s), f.key, f.value D interface)

/-- The results that `build_network_interface_json` looks at. -/
def InterfaceSite.checked : InterfaceSite → Bool
  | .field _ _ => false
  | _ => true

/-- The string of an interface. -/
def interfaceString (text : CJsonText D) (ok : InterfaceSite → Bool) (interface : NetworkInfo) : CJson D.Val :=
  .string (text.print (.object (kept (interfaceEntries D ok interface))))

theorem buildNetworkInterfaceJson_eq_some_iff {text : CJsonText D} {ok : InterfaceSite → Bool}
    {interface : NetworkInfo} {item : CJson D.Val} :
    buildNetworkInterfaceJson text ok interface = some item ↔
      (∀ s : InterfaceSite, s.checked = true → ok s = true) ∧ item = interfaceString text ok interface := by
  have hall : (∀ s : InterfaceSite, s.checked = true → ok s = true) ↔
      ok .object = true ∧ ok .print = true ∧ ok .string = true := by
    constructor
    · intro h
      exact ⟨h .object rfl, h .print rfl, h .string rfl⟩
    · rintro ⟨h₁, h₂, h₃⟩ s hs
      cases s with
      | object => exact h₁
      | field f s => cases hs
      | print => exact h₂
      | string => exact h₃
  rw [hall]
  simp only [buildNetworkInterfaceJson, addStringToObject_eq, addNumberToObject_eq, List.nil_append]
  rw [← kept_append, ← kept_append, ← kept_append, ← kept_append]
  show (if ok .object then if ok .print then if ok .string then some (interfaceString text ok interface) else none
    else none else none) = some item ↔ _
  cases ok .object <;> cases ok .print <;> cases ok .string <;> simp [eq_comm]

/-- The strings of the interfaces from the `i`-th on. -/
def interfaceStrings (text : CJsonText D) (ok : Nat → InterfaceSite → Bool) :
    Nat → List NetworkInfo → List (CJson D.Val)
  | _, [] => []
  | i, interface :: rest => interfaceString text (ok i) interface :: interfaceStrings text ok (i + 1) rest

theorem addInterfaces_eq_some_iff {text : CJsonText D} {ok : Nat → InterfaceSite → Bool} {i : Nat}
    {interfaces : List NetworkInfo} {items out : List (CJson D.Val)} :
    addInterfaces text ok i interfaces items = some out ↔
      (∀ j < interfaces.length, ∀ s : InterfaceSite, s.checked = true → ok (i + j) s = true) ∧
        out = items ++ interfaceStrings text ok i interfaces := by
  induction interfaces generalizing i items with
  | nil =>
    constructor
    · intro h
      cases h
      exact ⟨by simp, (List.append_nil out).symm⟩
    · rintro ⟨-, rfl⟩
      simp [addInterfaces, interfaceStrings]
  | cons interface rest ih =>
    have hsplit : (∀ j < (interface :: rest).length, ∀ s : InterfaceSite, s.checked = true → ok (i + j) s = true) ↔
        (∀ s : InterfaceSite, s.checked = true → ok i s = true) ∧
          ∀ j < rest.length, ∀ s : InterfaceSite, s.checked = true → ok (i + 1 + j) s = true := by
      constructor
      · intro h
        refine ⟨h 0 (by simp), fun j hj s hs => ?_⟩
        have := h (j + 1) (by simpa using hj) s hs
        rwa [show i + (j + 1) = i + 1 + j by omega] at this
      · rintro ⟨h₀, h₁⟩ j hj s hs
        cases j with
        | zero => exact h₀ s hs
        | succ j =>
          rw [show i + (j + 1) = i + 1 + j by omega]
          exact h₁ j (by simpa using hj) s hs
    unfold addInterfaces
    rw [hsplit]
    cases hone : buildNetworkInterfaceJson text (ok i) interface with
    | none =>
      have hbad : ¬ ∀ s : InterfaceSite, s.checked = true → ok i s = true := by
        intro h
        rw [buildNetworkInterfaceJson_eq_some_iff.2 ⟨h, rfl⟩] at hone
        cases hone
      simp [hbad]
    | some item =>
      obtain ⟨hgood, rfl⟩ := buildNetworkInterfaceJson_eq_some_iff.1 hone
      rw [ih, interfaceStrings, List.append_assoc]
      constructor
      · intro h
        exact ⟨⟨hgood, h.1⟩, h.2⟩
      · intro h
        exact ⟨h.1.2, h.2⟩

def numberItems : List NumberItem := [.totalRam, .freeRam, .systemUptime, .cpuUsage]

/-- The object of a number item. -/
def numberItem (ok : ItemSite → Bool) (value : D.Val) : CJson D.Val :=
  .object (kept [(added fun s => ok (.value s), bytes "value", .number value)])

/-- The object of the interfaces. -/
def interfacesItem (text : CJsonText D) (ok : Site → Bool) (interfaces : List NetworkInfo) : CJson D.Val :=
  .object (kept [(ok (.interfaces .valueKey), bytes "value",
    .array (interfaceStrings text (fun i s => ok (.interface i s)) 0 interfaces))])

/-- The members of the document, each with whether it is added. -/
def documentEntries (text : CJsonText D) (ok : Site → Bool) (system : SystemInfo) (interfaces : List NetworkInfo)
    (cpuUsage : D.Val) : List (Bool × List UInt8 × CJson D.Val) :=
  (numberItems.map fun n =>
    (ok (.item n .key), n.key, numberItem (fun s => ok (.item n s)) (n.value D system cpuUsage))) ++
  [(ok (.interfaces .key), bytes "interfaces", interfacesItem text ok interfaces)]

/-- The sites that `k` interfaces reach. -/
def Site.Reached (k : Nat) : Site → Prop
  | .interface i _ => i < k
  | _ => True

/-- The results that `build_telemetry_json` and its helpers look at. -/
def Site.checked : Site → Bool
  | .root => true
  | .item _ s => s = .object
  | .array => true
  | .interface _ s => s.checked
  | .interfaces s => s = .object

theorem addNumberItem_eq (ok : ItemSite → Bool) (root : CJsonMembers D.Val) (name : List UInt8) (value : D.Val) :
    addNumberItem ok root name value =
      if ok .object then some (root ++ kept [(ok .key, name, numberItem ok value)]) else none := by
  unfold addNumberItem numberItem
  rw [addNumberToObject_eq, List.nil_append]
  cases ok .object <;> cases ok .key <;> simp [addItemToObject, kept]

theorem addArrayItem_eq (ok : ArraySite → Bool) (root : CJsonMembers D.Val) (name : List UInt8)
    (array : CJson D.Val) :
    addArrayItem ok root name (some array) =
      if ok .object then
        some (root ++ kept [(ok .key, name, .object (kept [(ok .valueKey, bytes "value", array)]))])
      else none := by
  unfold addArrayItem
  cases ok .object <;> cases ok .key <;> cases ok .valueKey <;> simp [addItemToObject, kept]

theorem buildNetworkJson_eq_some_iff {text : CJsonText D} {ok : Site → Bool} {interfaces : List NetworkInfo}
    {array : CJson D.Val} :
    buildNetworkJson text ok interfaces = some array ↔
      ok .array = true ∧
        (∀ i < interfaces.length, ∀ s : InterfaceSite, s.checked = true → ok (.interface i s) = true) ∧
          array = .array (interfaceStrings text (fun i s => ok (.interface i s)) 0 interfaces) := by
  unfold buildNetworkJson
  cases ok .array with
  | false => simp
  | true =>
    simp only [ite_true, true_and, Option.map_eq_some_iff, addInterfaces_eq_some_iff, Nat.zero_add, List.nil_append]
    constructor
    · rintro ⟨items, ⟨hok, rfl⟩, rfl⟩
      exact ⟨hok, rfl⟩
    · rintro ⟨hok, rfl⟩
      exact ⟨_, ⟨hok, rfl⟩, rfl⟩

/-- The sites whose results are looked at, one by one. -/
theorem checked_iff {ok : Site → Bool} {k : Nat} :
    (∀ s : Site, s.Reached k → s.checked = true → ok s = true) ↔
      ok .root = true ∧ (∀ n, ok (.item n .object) = true) ∧ ok .array = true ∧
        (∀ i < k, ∀ s : InterfaceSite, s.checked = true → ok (.interface i s) = true) ∧
          ok (.interfaces .object) = true := by
  constructor
  · intro h
    exact ⟨h .root trivial rfl, fun n => h (.item n .object) trivial rfl, h .array trivial rfl,
      fun i hi s hs => h (.interface i s) hi hs, h (.interfaces .object) trivial rfl⟩
  · rintro ⟨hroot, hitem, harray, hinterface, hlast⟩ s hreached hs
    cases s with
    | root => exact hroot
    | item n s =>
      have hs' : s = .object := by simpa [Site.checked] using hs
      rw [hs']
      exact hitem n
    | array => exact harray
    | interface i s => exact hinterface i hreached s hs
    | interfaces s =>
      have hs' : s = .object := by simpa [Site.checked] using hs
      rw [hs']
      exact hlast

/-- There is a document exactly when no result that is looked at is a failure, and then it is this one. -/
theorem buildTelemetryJson_eq_some_iff {text : CJsonText D} {ok : Site → Bool} {system : SystemInfo}
    {interfaces : List NetworkInfo} {cpuUsage : D.Val} {doc : CJson D.Val} :
    buildTelemetryJson text ok (some system) (some interfaces) interfaces.length cpuUsage = some doc ↔
      (∀ s : Site, s.Reached interfaces.length → s.checked = true → ok s = true) ∧
        doc = .object (kept (documentEntries text ok system interfaces cpuUsage)) := by
  have hcount : ¬ ((interfaces.length : Int) < 0) := by omega
  have htake : interfaces.take (interfaces.length : Int).toNat = interfaces := List.take_of_length_le (by simp)
  rw [checked_iff]
  simp only [buildTelemetryJson, hcount, ite_false, Option.isNone_some, Bool.false_eq_true, and_false, Option.getD_some,
    htake, addNumberItem_eq, addArrayItem_eq, List.nil_append, Option.bind_eq_bind, Option.ite_none_right_eq_some,
    Option.bind_eq_some_iff, Option.some.injEq, buildNetworkJson_eq_some_iff]
  have hdoc : ∀ array : CJson D.Val,
      array = .array (interfaceStrings text (fun i s => ok (.interface i s)) 0 interfaces) →
      kept [(ok (.item .totalRam .key), NumberItem.totalRam.key,
          numberItem (fun s => ok (.item .totalRam s)) (roundedMegabytes D system.totalRam))] ++
        kept [(ok (.item .freeRam .key), NumberItem.freeRam.key,
          numberItem (fun s => ok (.item .freeRam s)) (roundedMegabytes D system.freeRam))] ++
        kept [(ok (.item .systemUptime .key), NumberItem.systemUptime.key,
          numberItem (fun s => ok (.item .systemUptime s)) (D.ofInt system.uptime.toInt))] ++
        kept [(ok (.item .cpuUsage .key), NumberItem.cpuUsage.key,
          numberItem (fun s => ok (.item .cpuUsage s)) (roundedUsage D cpuUsage))] ++
        kept [(ok (.interfaces .key), bytes "interfaces",
          CJson.object (kept [(ok (.interfaces .valueKey), bytes "value", array)]))] =
      kept (documentEntries text ok system interfaces cpuUsage) := by
    rintro array rfl
    rw [← kept_append, ← kept_append, ← kept_append, ← kept_append]
    rfl
  constructor
  · rintro ⟨hroot, _, ⟨hram, rfl⟩, _, ⟨hfree, rfl⟩, _, ⟨hup, rfl⟩, _, ⟨hcpu, rfl⟩, array,
      ⟨harray, hinterface, hitems⟩, _, ⟨hlast, rfl⟩, rfl⟩
    refine ⟨⟨hroot, ?_, harray, hinterface, hlast⟩, congrArg CJson.object (hdoc array hitems)⟩
    intro n
    cases n with
    | totalRam => exact hram
    | freeRam => exact hfree
    | systemUptime => exact hup
    | cpuUsage => exact hcpu
  · rintro ⟨⟨hroot, hitem, harray, hinterface, hlast⟩, rfl⟩
    exact ⟨hroot, _, ⟨hitem .totalRam, rfl⟩, _, ⟨hitem .freeRam, rfl⟩, _, ⟨hitem .systemUptime, rfl⟩, _,
      ⟨hitem .cpuUsage, rfl⟩, _, ⟨harray, hinterface, rfl⟩, _, ⟨hlast, rfl⟩, congrArg CJson.object (hdoc _ rfl)⟩

end Model

end TuyaDaemon
