import TuyaDaemon.CLib.Strings

/-!
# Network interfaces

`collect_network_info` of `network_info.c` over what `getifaddrs` returns and the statistics files.  The loop with
its skip conditions collects exactly the first entries that are usable (`collectFrom_eq`).
-/

namespace TuyaDaemon

open CLib

/-- A socket address: whether it is `AF_INET`, and the text that `getnameinfo` finds for it when it succeeds. -/
structure SockAddr where
  inet : Bool
  host : Option CString

/-- `struct ifaddrs` -/
structure IfAddr where
  name : Option CString
  addr : Option SockAddr
  netmask : Option SockAddr

/-- `struct network_info` -/
structure NetworkInfo where
  name : CString
  ipAddress : CString
  netmask : CString
  txBytes : UInt64
  rxBytes : UInt64

/-- The number in the file with this path, when it can be opened and starts with one. -/
abbrev StatFiles := List UInt8 → Option UInt64

def emptyString : CString := ⟨[], List.not_mem_nil, by decide⟩

/-- A string cut to `n` characters. -/
def cut (n : Nat) (s : CString) : CString where
  chars := s.chars.take n
  noNul := fun h => s.noNul (List.mem_of_mem_take h)
  fits := Nat.lt_of_le_of_lt (List.length_take_le' n s.chars) s.fits

/-- `/sys/class/net/<name>/statistics/<stat>` -/
def statPath (name stat : List UInt8) : List UInt8 :=
  bytes "/sys/class/net/" ++ (name ++ (bytes "/statistics/" ++ stat))

/-- `read_interface_stat`, whose path has room for 255 characters; a failure counts as `0`. -/
def readInterfaceStat (files : StatFiles) (name : CString) (stat : List UInt8) : UInt64 :=
  (files ((statPath name.chars stat).take 255)).getD 0

/-- `getnameinfo` with `NI_NUMERICHOST`; a failure leaves the empty string. -/
def numericHost (addr : SockAddr) : CString := addr.host.getD emptyString

def txBytesStat : List UInt8 := bytes "tx_bytes"

def rxBytesStat : List UInt8 := bytes "rx_bytes"

/-- What the body of the loop writes into the array. -/
def interfaceInfo (files : StatFiles) (name : CString) (addr : SockAddr) (netmask : Option SockAddr) : NetworkInfo where
  -- the statistics are read under the name that was cut to fit the array
  name := cut 63 name
  ipAddress := numericHost addr
  netmask := match netmask with
    | some mask => numericHost mask
    | none => emptyString
  txBytes := readInterfaceStat files (cut 63 name) txBytesStat
  rxBytes := readInterfaceStat files (cut 63 name) rxBytesStat

/-- The loop of `collect_network_info`, with the entries written so far. -/
def collectFrom (files : StatFiles) (maxInterfaces : Nat) : List IfAddr → List NetworkInfo → List NetworkInfo
  | [], interfaces => interfaces
  | ifa :: rest, interfaces =>
    if maxInterfaces ≤ interfaces.length then interfaces
    else
      match ifa.name, ifa.addr with
      | some name, some addr =>
        if name.chars = bytes "lo" then collectFrom files maxInterfaces rest interfaces
        else if addr.inet = false then collectFrom files maxInterfaces rest interfaces
        else collectFrom files maxInterfaces rest (interfaces ++ [interfaceInfo files name addr ifa.netmask])
      | _, _ => collectFrom files maxInterfaces rest interfaces

/-- `collect_network_info`: the count it returns, and the entries of the array that it has written. -/
def collectNetworkInfo (ifaddrs : Option (List IfAddr)) (files : StatFiles) (maxInterfaces : Int) :
    Int × List NetworkInfo :=
  if maxInterfaces ≤ 0 then (-1, [])
  else
    match ifaddrs with
    | none => (-1, [])
    | some ifaddrs =>
      let interfaces := collectFrom files maxInterfaces.toNat ifaddrs []
      (interfaces.length, interfaces)

/-! ### The usable entries -/

/-- An entry that is reported: it has a name and an address, is not `lo`, and is `AF_INET`. -/
structure Interface where
  name : CString
  addr : SockAddr
  netmask : Option SockAddr
  notLo : name.chars ≠ bytes "lo"
  inet : addr.inet = true

def IfAddr.interface (ifa : IfAddr) : Option Interface :=
  match ifa.name, ifa.addr with
  | some name, some addr =>
    if hlo : name.chars = bytes "lo" then none
    else if hinet : addr.inet = true then some ⟨name, addr, ifa.netmask, hlo, hinet⟩ else none
  | _, _ => none

/-- The first `n` usable entries, in order. -/
def usable (n : Nat) (ifaddrs : List IfAddr) : List Interface := (ifaddrs.filterMap IfAddr.interface).take n

def Interface.info (files : StatFiles) (interface : Interface) : NetworkInfo :=
  interfaceInfo files interface.name interface.addr interface.netmask

/-- The loop adds the usable entries as long as there is room. -/
theorem collectFrom_eq (files : StatFiles) (maxInterfaces : Nat) (ifaddrs : List IfAddr)
    (interfaces : List NetworkInfo) :
    collectFrom files maxInterfaces ifaddrs interfaces =
      interfaces ++ (usable (maxInterfaces - interfaces.length) ifaddrs).map (Interface.info files) := by
  induction ifaddrs generalizing interfaces with
  | nil => simp [collectFrom, usable]
  | cons ifa rest ih =>
    unfold collectFrom
    by_cases hfull : maxInterfaces ≤ interfaces.length
    · rw [if_pos hfull, Nat.sub_eq_zero_of_le hfull]
      simp [usable]
    · rw [if_neg hfull]
      -- an entry that is skipped is none of the usable ones
      have hskip : ifa.interface = none →
          usable (maxInterfaces - interfaces.length) (ifa :: rest) =
            usable (maxInterfaces - interfaces.length) rest := by
        intro h
        rw [usable, List.filterMap_cons_none h]
        rfl
      cases hname : ifa.name with
      | none => rw [ih, hskip (by simp [IfAddr.interface, hname])]
      | some name =>
        cases haddr : ifa.addr with
        | none => rw [ih, hskip (by simp [IfAddr.interface, hname, haddr])]
        | some addr =>
          dsimp only
          by_cases hlo : name.chars = bytes "lo"
          · rw [if_pos hlo, ih, hskip (by simp [IfAddr.interface, hname, haddr, hlo])]
          · rw [if_neg hlo]
            cases hinet : addr.inet with
            | false => rw [if_pos rfl, ih, hskip (by simp [IfAddr.interface, hname, haddr, hinet])]
            | true =>
              have hsome : ifa.interface = some ⟨name, addr, ifa.netmask, hlo, hinet⟩ := by
                simp [IfAddr.interface, hname, haddr, hlo, hinet]
              obtain ⟨m, hm⟩ : ∃ m, maxInterfaces - interfaces.length = m + 1 :=
                ⟨maxInterfaces - interfaces.length - 1, by omega⟩
              have hm' : maxInterfaces - (interfaces.length + 1) = m := by omega
              rw [if_neg (by simp), ih, List.length_append, List.length_singleton, hm, hm', usable, usable,
                List.filterMap_cons_some hsome, List.take_succ_cons, List.map_cons, List.append_assoc]
              rfl

/-- `collect_network_info` collects the first usable entries and returns how many they are. -/
theorem collectNetworkInfo_eq (ifaddrs : List IfAddr) (files : StatFiles) {maxInterfaces : Int}
    (h : 0 < maxInterfaces) :
    collectNetworkInfo (some ifaddrs) files maxInterfaces =
      (((usable maxInterfaces.toNat ifaddrs).length : Int),
        (usable maxInterfaces.toNat ifaddrs).map (Interface.info files)) := by
  have hfrom := collectFrom_eq files maxInterfaces.toNat ifaddrs []
  rw [List.nil_append, List.length_nil, Nat.sub_zero] at hfrom
  simp only [collectNetworkInfo, if_neg (show ¬ maxInterfaces ≤ 0 by omega), hfrom, List.length_map]

/-! ### Counters -/

/-- The counter of an interface, in the file under its own name; `0` when it cannot be read. -/
def ownCounter (files : StatFiles) (name : CString) (stat : List UInt8) : UInt64 :=
  (files (statPath name.chars stat)).getD 0

/-- The path of a name that fits the array is not cut. -/
theorem readInterfaceStat_of_short {files : StatFiles} {name : CString} {stat : List UInt8}
    (hname : name.chars.length ≤ 63) (hstat : stat.length ≤ 8) :
    readInterfaceStat files (cut 63 name) stat = ownCounter files name stat := by
  have hcut : (cut 63 name).chars = name.chars := List.take_of_length_le hname
  have hlen : (statPath name.chars stat).length ≤ 255 := by
    have h₁ : (bytes "/sys/class/net/").length = 15 := by decide
    have h₂ : (bytes "/statistics/").length = 12 := by decide
    simp only [statPath, List.length_append, h₁, h₂]
    omega
  rw [readInterfaceStat, hcut, List.take_of_length_le hlen]
  rfl

end TuyaDaemon
