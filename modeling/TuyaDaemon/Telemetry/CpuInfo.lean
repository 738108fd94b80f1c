import Mathlib.Algebra.Order.Field.Rat
import Mathlib.Data.List.Chain
import Mathlib.Tactic.FieldSimp
import Mathlib.Tactic.Linarith
import Mathlib.Tactic.Positivity
import Mathlib.Tactic.Ring

/-!
# CPU usage

`cpu_info.c`, with the counters of `/proc/stat` as 64-bit values and the usage as an exact rational.  What a run
reports depends on the samples that it reads and on nothing else (`getCpuUsage_eq`).  The reports are percentages
exactly when no idle delta exceeds its total delta, both cut to 64 bits (`usage_percent_iff`), and over counters that
never go back they account for the busy time, each tick in one report (`reportedTime_eq`, `countedIn_eq`).
-/

namespace TuyaDaemon

/-- The eight counters of the first line of `/proc/stat`. -/
structure CpuSample where
  user : UInt64
  nice : UInt64
  system : UInt64
  idleTime : UInt64
  iowait : UInt64
  irq : UInt64
  softirq : UInt64
  steal : UInt64
deriving DecidableEq, Repr

/-- What `read_cpu_times` stores, and what `get_cpu_usage` keeps of it in its static variables. -/
structure CpuTimes where
  idle : UInt64
  total : UInt64
deriving DecidableEq, Repr

def CpuSample.times (s : CpuSample) : CpuTimes where
  idle := s.idleTime + s.iowait
  total := s.user + s.nice + s.system + s.idleTime + s.iowait + s.irq + s.softirq + s.steal

/-- `read_cpu_times`: there is no sample when the file cannot be opened or has fewer items. -/
def readCpuTimes (stat : Option CpuSample) : Option CpuTimes := stat.map CpuSample.times

/-- The static variables before the first call. -/
def CpuTimes.zero : CpuTimes := ⟨0, 0⟩

/-- A call of `get_cpu_usage`: whether its pointer is there, and what it reads. -/
structure CpuCall where
  pointer : Bool
  stat : Option CpuSample

/-- What a call returns, the value it stores, and the static variables it leaves. -/
structure CpuResult where
  rc : Int
  usage : Option ℚ
  previous : CpuTimes

def getCpuUsage (call : CpuCall) (previous : CpuTimes) : CpuResult :=
  if call.pointer = false then ⟨-1, none, previous⟩
  else
    match readCpuTimes call.stat with
    | none => ⟨-1, none, previous⟩
    | some current =>
      if previous.total = 0 then ⟨0, some 0, current⟩
      else
        let idleDelta := current.idle - previous.idle
        let totalDelta := current.total - previous.total
        if totalDelta = 0 then ⟨0, some 0, current⟩
        else ⟨0, some (100 * (1 - (idleDelta.toNat : ℚ) / totalDelta.toNat)), current⟩

/-- The successful calls of a run, with their samples and the values they store. -/
def cpuReports (previous : CpuTimes) : List CpuCall → List (CpuSample × ℚ)
  | [] => []
  | call :: calls =>
    let result := getCpuUsage call previous
    match call.stat, result.usage with
    | some s, some usage => (s, usage) :: cpuReports result.previous calls
    | _, _ => cpuReports result.previous calls

/-! ### One call -/

/-- The sample that a call uses. -/
def CpuCall.accepted (call : CpuCall) : Option CpuSample := if call.pointer then call.stat else none

/-- The value stored for the times of a sample. -/
def usageOf (previous current : CpuTimes) : ℚ :=
  if previous.total = 0 ∨ current.total - previous.total = 0 then 0
  else 100 * (1 - ((current.idle - previous.idle).toNat : ℚ) / (current.total - previous.total).toNat)

/-- A call fails and changes nothing, or it stores the usage since the sample before. -/
theorem getCpuUsage_eq (call : CpuCall) (previous : CpuTimes) :
    getCpuUsage call previous =
      match call.accepted with
      | none => ⟨-1, none, previous⟩
      | some s => ⟨0, some (usageOf previous s.times), s.times⟩ := by
  obtain ⟨pointer, stat⟩ := call
  cases pointer with
  | false => rfl
  | true =>
    cases stat with
    | none => rfl
    | some s =>
      simp only [getCpuUsage, readCpuTimes, CpuCall.accepted, usageOf, Option.map_some, ite_true,
        Bool.true_eq_false, ite_false]
      by_cases hfirst : previous.total = 0
      · rw [if_pos hfirst, if_pos (Or.inl hfirst)]
      · rw [if_neg hfirst]
        by_cases hdelta : s.times.total - previous.total = 0
        · rw [if_pos hdelta, if_pos (Or.inr hdelta)]
        · rw [if_neg hdelta, if_neg (by simp [hfirst, hdelta])]

theorem cpuReports_failing {call : CpuCall} (h : call.accepted = none) (previous : CpuTimes) (calls : List CpuCall) :
    cpuReports previous (call :: calls) = cpuReports previous calls := by
  rw [cpuReports, getCpuUsage_eq, h]
  cases call.stat <;> rfl

theorem cpuReports_accepted {call : CpuCall} {s : CpuSample} (h : call.accepted = some s) (previous : CpuTimes)
    (calls : List CpuCall) :
    cpuReports previous (call :: calls) = (s, usageOf previous s.times) :: cpuReports s.times calls := by
  have hstat : call.stat = some s := by
    unfold CpuCall.accepted at h
    split at h
    · exact h
    · cases h
  rw [cpuReports, getCpuUsage_eq, h, hstat]

/-- The samples that the calls of a run use. -/
def acceptedSamples (calls : List CpuCall) : List CpuSample := calls.filterMap CpuCall.accepted

/-- There is a report for each successful read, and no other. -/
theorem cpuReports_samples (previous : CpuTimes) (calls : List CpuCall) :
    (cpuReports previous calls).map Prod.fst = acceptedSamples calls := by
  induction calls generalizing previous with
  | nil => rfl
  | cons call calls ih =>
    cases haccepted : call.accepted with
    | none => rw [cpuReports_failing haccepted, ih, acceptedSamples, acceptedSamples, List.filterMap_cons_none haccepted]
    | some s =>
      rw [cpuReports_accepted haccepted, List.map_cons, ih, acceptedSamples, acceptedSamples,
        List.filterMap_cons_some haccepted]

/-! ### Percentages -/

/-- The idle delta, cut to 64 bits, does not exceed the total delta, or the quotient is not formed. -/
def IdleWithin (previous current : CpuTimes) : Prop :=
  previous.total = 0 ∨ current.total - previous.total = 0 ∨
    current.idle - previous.idle ≤ current.total - previous.total

theorem usageOf_percent_iff (previous current : CpuTimes) :
    0 ≤ usageOf previous current ∧ usageOf previous current ≤ 100 ↔ IdleWithin previous current := by
  unfold usageOf IdleWithin
  by_cases hfirst : previous.total = 0
  · simp [hfirst]
  · by_cases hdelta : current.total - previous.total = 0
    · simp [hdelta]
    · rw [if_neg (by simp [hfirst, hdelta])]
      have hpos : (0 : ℚ) < (current.total - previous.total).toNat := by
        rw [Nat.cast_pos, Nat.pos_iff_ne_zero]
        exact fun h => hdelta (UInt64.toNat_inj.1 h)
      have hidle : (0 : ℚ) ≤ (current.idle - previous.idle).toNat := Nat.cast_nonneg _
      have hquot := div_nonneg hidle hpos.le
      simp only [hfirst, hdelta, false_or, UInt64.le_iff_toNat_le]
      rw [← Nat.cast_le (α := ℚ), ← div_le_one hpos]
      constructor
      · rintro ⟨h, -⟩
        linarith
      · intro h
        constructor <;> linarith

/-- In every run of calls, every value stored is a percentage exactly when between any two consecutive samples the idle
time grows, modulo `2^64`, by at most what the total grows by, or the total does not change, or it was zero. -/
theorem usage_percent_iff (calls : List CpuCall) :
    (∀ r ∈ cpuReports .zero calls, 0 ≤ r.2 ∧ r.2 ≤ 100) ↔
      (CpuTimes.zero :: (acceptedSamples calls).map CpuSample.times).IsChain IdleWithin := by
  generalize CpuTimes.zero = previous
  induction calls generalizing previous with
  | nil => simp [cpuReports, acceptedSamples]
  | cons call calls ih =>
    cases haccepted : call.accepted with
    | none => rw [cpuReports_failing haccepted, acceptedSamples, List.filterMap_cons_none haccepted, ih, acceptedSamples]
    | some s =>
      rw [cpuReports_accepted haccepted, acceptedSamples, List.filterMap_cons_some haccepted, List.map_cons,
        List.isChain_cons_cons, List.forall_mem_cons, usageOf_percent_iff, ih, acceptedSamples]

/-- A sample with `100` ticks, and one in which `iowait` is lower. -/
def backwardSample : CpuSample := ⟨50, 0, 0, 40, 10, 0, 0, 0⟩

theorem not_percent_backward : ¬ ∀ r ∈ cpuReports .zero
    [⟨true, some backwardSample⟩, ⟨true, some { backwardSample with user := 52, iowait := 9 }⟩], 0 ≤ r.2 ∧ r.2 ≤ 100 := by
  intro h
  have hreports : cpuReports .zero
      [⟨true, some backwardSample⟩, ⟨true, some { backwardSample with user := 52, iowait := 9 }⟩] =
        [(backwardSample, 0), ({ backwardSample with user := 52, iowait := 9 }, 100 * (1 - 18446744073709551615 / 1))] := by
    rfl
  rw [hreports] at h
  have hlast := (h _ (List.mem_cons_of_mem _ (List.mem_singleton_self _))).1
  norm_num at hlast

/-! ### Accounting -/

/-- The ticks of a sample. -/
def CpuSample.ticks (s : CpuSample) : Nat :=
  s.user.toNat + s.nice.toNat + s.system.toNat + s.idleTime.toNat + s.iowait.toNat + s.irq.toNat + s.softirq.toNat +
    s.steal.toNat

/-- The ticks in which the CPU did not wait. -/
def CpuSample.busy (s : CpuSample) : Nat := s.ticks - s.idleTime.toNat - s.iowait.toNat

/-- No counter is lower. -/
structure CpuSample.NotLower (s t : CpuSample) : Prop where
  user : s.user ≤ t.user
  nice : s.nice ≤ t.nice
  system : s.system ≤ t.system
  idleTime : s.idleTime ≤ t.idleTime
  iowait : s.iowait ≤ t.iowait
  irq : s.irq ≤ t.irq
  softirq : s.softirq ≤ t.softirq
  steal : s.steal ≤ t.steal

/-- The sum over some reports of the usage times the ticks since the sample before. -/
def reportedTime (previous : CpuSample) : List (CpuSample × ℚ) → ℚ
  | [] => 0
  | (s, usage) :: rest => usage * ((s.ticks : ℚ) - previous.ticks) + reportedTime s rest

def lastSample (previous : CpuSample) : List (CpuSample × ℚ) → CpuSample
  | [] => previous
  | (s, _) :: rest => lastSample s rest

/-- The number of reports in which a tick is counted: it lies behind the sample before, and not behind the sample. -/
def countedIn (tick : Nat) (previous : CpuSample) : List (CpuSample × ℚ) → Nat
  | [] => 0
  | (s, _) :: rest => (if previous.ticks < tick ∧ tick ≤ s.ticks then 1 else 0) + countedIn tick s rest

/-- A call that fails changes nothing, and the others report the successful reads in order.  The reports behind the
first sample with ticks add up to the busy time between that sample and the last one, each tick in one of them. -/
structure CpuAccounting (calls : List CpuCall) : Prop where
  failing : ∀ call previous, (getCpuUsage call previous).rc ≠ 0 → (getCpuUsage call previous).previous = previous
  succeeding : ∀ call previous, (getCpuUsage call previous).rc = 0 ↔ call.accepted.isSome
  reported : (cpuReports .zero calls).map Prod.fst = acceptedSamples calls
  conserved : ∀ before first usage later, cpuReports .zero calls = before ++ (first, usage) :: later →
    (∀ r ∈ before, r.1.ticks = 0) → first.ticks ≠ 0 →
    reportedTime first later = 100 * (((lastSample first later).busy : ℚ) - first.busy)
  once : ∀ before first usage later, cpuReports .zero calls = before ++ (first, usage) :: later →
    (∀ r ∈ before, r.1.ticks = 0) → first.ticks ≠ 0 →
    ∀ tick, first.ticks < tick → tick ≤ (lastSample first later).ticks → countedIn tick first later = 1

section Accounting

variable {s t : CpuSample}

theorem toNat_total (hs : s.ticks < 2 ^ 64) : s.times.total.toNat = s.ticks := by
  unfold CpuSample.ticks at hs ⊢
  simp only [CpuSample.times, UInt64.toNat_add]
  omega

theorem toNat_idle (hs : s.ticks < 2 ^ 64) : s.times.idle.toNat = s.idleTime.toNat + s.iowait.toNat := by
  unfold CpuSample.ticks at hs
  simp only [CpuSample.times, UInt64.toNat_add]
  omega

theorem total_ne_zero (hs : s.ticks < 2 ^ 64) (hpos : s.ticks ≠ 0) : s.times.total ≠ 0 := by
  intro hzero
  have htotal := toNat_total hs
  rw [hzero] at htotal
  exact hpos htotal.symm

theorem busy_add_idle (s : CpuSample) : s.busy + (s.idleTime.toNat + s.iowait.toNat) = s.ticks := by
  unfold CpuSample.busy CpuSample.ticks
  omega

theorem CpuSample.NotLower.idle_le (h : s.NotLower t) :
    s.idleTime.toNat + s.iowait.toNat ≤ t.idleTime.toNat + t.iowait.toNat :=
  Nat.add_le_add (UInt64.le_iff_toNat_le.1 h.idleTime) (UInt64.le_iff_toNat_le.1 h.iowait)

theorem CpuSample.NotLower.busy_le (h : s.NotLower t) : s.busy ≤ t.busy := by
  obtain ⟨h₁, h₂, h₃, -, -, h₆, h₇, h₈⟩ := h
  rw [UInt64.le_iff_toNat_le] at h₁ h₂ h₃ h₆ h₇ h₈
  unfold CpuSample.busy CpuSample.ticks
  omega

theorem CpuSample.NotLower.ticks_le (h : s.NotLower t) : s.ticks ≤ t.ticks := by
  have hidle := h.idle_le
  have hbusy := h.busy_le
  have hs := busy_add_idle s
  have ht := busy_add_idle t
  omega

/-- The differences do not wrap. -/
theorem toNat_total_sub (hs : s.ticks < 2 ^ 64) (ht : t.ticks < 2 ^ 64) (h : s.NotLower t) :
    (t.times.total - s.times.total).toNat = t.ticks - s.ticks := by
  have hsub := UInt64.toNat_sub_of_le t.times.total s.times.total
    (by rw [UInt64.le_iff_toNat_le, toNat_total hs, toNat_total ht]; exact h.ticks_le)
  rw [hsub, toNat_total hs, toNat_total ht]

theorem toNat_idle_sub (hs : s.ticks < 2 ^ 64) (ht : t.ticks < 2 ^ 64) (h : s.NotLower t) :
    (t.times.idle - s.times.idle).toNat =
      t.idleTime.toNat + t.iowait.toNat - (s.idleTime.toNat + s.iowait.toNat) := by
  have hsub := UInt64.toNat_sub_of_le t.times.idle s.times.idle
    (by rw [UInt64.le_iff_toNat_le, toNat_idle hs, toNat_idle ht]; exact h.idle_le)
  rw [hsub, toNat_idle hs, toNat_idle ht]

/-- One report: the usage times the ticks since the last sample is the busy time since then. -/
theorem usageOf_mul_ticks (hs : s.ticks < 2 ^ 64) (ht : t.ticks < 2 ^ 64) (hpos : s.ticks ≠ 0) (h : s.NotLower t) :
    usageOf s.times t.times * ((t.ticks : ℚ) - s.ticks) = 100 * ((t.busy : ℚ) - s.busy) := by
  have htotal := toNat_total_sub hs ht h
  have hsumS := busy_add_idle s
  have hsumT := busy_add_idle t
  unfold usageOf
  by_cases hdelta : t.times.total - s.times.total = 0
  · -- no counter has moved
    rw [if_pos (Or.inr hdelta)]
    have hsame : t.ticks = s.ticks := by
      rw [hdelta, UInt64.toNat_zero] at htotal
      have hle := h.ticks_le
      omega
    have hbusy : t.busy = s.busy := by
      have hidle := h.idle_le
      have hle := h.busy_le
      omega
    rw [hsame, hbusy]
    ring
  · rw [if_neg (by simp [total_ne_zero hs hpos, hdelta]), htotal, toNat_idle_sub hs ht h, Nat.cast_sub h.ticks_le,
      Nat.cast_sub h.idle_le]
    have hne : (t.ticks : ℚ) - s.ticks ≠ 0 := by
      rw [sub_ne_zero, Ne, Nat.cast_inj]
      intro hsame
      apply hdelta
      rw [← UInt64.toNat_inj, htotal, hsame, Nat.sub_self]
      rfl
    rw [← hsumS, ← hsumT] at hne ⊢
    push_cast at hne ⊢
    field_simp
    ring

/-- What the reports of a run add up to, by induction on its calls. -/
theorem reportedTime_eq (calls : List CpuCall) (hs : s.ticks < 2 ^ 64) (hpos : s.ticks ≠ 0)
    (hchain : (s :: acceptedSamples calls).IsChain CpuSample.NotLower)
    (hfits : ∀ t ∈ acceptedSamples calls, t.ticks < 2 ^ 64) :
    reportedTime s (cpuReports s.times calls) =
      100 * (((lastSample s (cpuReports s.times calls)).busy : ℚ) - s.busy) := by
  induction calls generalizing s with
  | nil => simp [cpuReports, reportedTime, lastSample]
  | cons call calls ih =>
    cases haccepted : call.accepted with
    | none =>
      rw [acceptedSamples, List.filterMap_cons_none haccepted] at hchain hfits
      rw [cpuReports_failing haccepted]
      exact ih hs hpos hchain hfits
    | some t =>
      rw [acceptedSamples, List.filterMap_cons_some haccepted] at hchain hfits
      rw [List.isChain_cons_cons] at hchain
      obtain ⟨hlower, hchain⟩ := hchain
      have ht := hfits t List.mem_cons_self
      have htpos : t.ticks ≠ 0 := by
        have hle := hlower.ticks_le
        omega
      rw [cpuReports_accepted haccepted, reportedTime, lastSample, usageOf_mul_ticks hs ht hpos hlower,
        ih ht htpos hchain fun r hr => hfits r (List.mem_cons_of_mem _ hr)]
      ring

/-- A tick of an earlier sample is not counted again. -/
theorem countedIn_past (calls : List CpuCall) (hchain : (s :: acceptedSamples calls).IsChain CpuSample.NotLower)
    {tick : Nat} (hpast : tick ≤ s.ticks) : countedIn tick s (cpuReports s.times calls) = 0 := by
  induction calls generalizing s with
  | nil => rfl
  | cons call calls ih =>
    cases haccepted : call.accepted with
    | none =>
      rw [acceptedSamples, List.filterMap_cons_none haccepted] at hchain
      rw [cpuReports_failing haccepted]
      exact ih hchain hpast
    | some t =>
      rw [acceptedSamples, List.filterMap_cons_some haccepted, List.isChain_cons_cons] at hchain
      obtain ⟨hlower, hchain⟩ := hchain
      rw [cpuReports_accepted haccepted, countedIn, if_neg (by omega), ih hchain (hpast.trans hlower.ticks_le)]

/-- A tick behind the first sample is counted in one report, by induction on the calls. -/
theorem countedIn_eq (calls : List CpuCall) (hchain : (s :: acceptedSamples calls).IsChain CpuSample.NotLower)
    {tick : Nat} (hfirst : s.ticks < tick) (hlast : tick ≤ (lastSample s (cpuReports s.times calls)).ticks) :
    countedIn tick s (cpuReports s.times calls) = 1 := by
  induction calls generalizing s with
  | nil => exact absurd hfirst (Nat.not_lt_of_le hlast)
  | cons call calls ih =>
    cases haccepted : call.accepted with
    | none =>
      rw [acceptedSamples, List.filterMap_cons_none haccepted] at hchain
      rw [cpuReports_failing haccepted] at hlast ⊢
      exact ih hchain hfirst hlast
    | some t =>
      rw [acceptedSamples, List.filterMap_cons_some haccepted, List.isChain_cons_cons] at hchain
      rw [cpuReports_accepted haccepted] at hlast ⊢
      rw [countedIn]
      by_cases hin : tick ≤ t.ticks
      · rw [if_pos ⟨hfirst, hin⟩, countedIn_past calls hchain.2 hin]
      · rw [if_neg (by omega), ih hchain.2 (Nat.lt_of_not_le hin) hlast]

/-- The calls behind a report start from its sample. -/
theorem cpuReports_split {previous : CpuTimes} {calls : List CpuCall} {before later : List (CpuSample × ℚ)}
    {first : CpuSample} {usage : ℚ} (h : cpuReports previous calls = before ++ (first, usage) :: later) :
    ∃ calls', later = cpuReports first.times calls' ∧ first :: acceptedSamples calls' <:+ acceptedSamples calls := by
  induction calls generalizing previous before with
  | nil => simp [cpuReports] at h
  | cons call calls ih =>
    cases haccepted : call.accepted with
    | none =>
      rw [cpuReports_failing haccepted] at h
      rw [acceptedSamples, List.filterMap_cons_none haccepted]
      exact ih h
    | some s =>
      rw [cpuReports_accepted haccepted] at h
      rw [acceptedSamples, List.filterMap_cons_some haccepted]
      cases before with
      | nil =>
        rw [List.nil_append, List.cons.injEq, Prod.mk.injEq] at h
        obtain ⟨⟨rfl, -⟩, rfl⟩ := h
        exact ⟨calls, rfl, List.suffix_refl _⟩
      | cons r before =>
        rw [List.cons_append, List.cons.injEq] at h
        obtain ⟨calls', hlater, hsuffix⟩ := ih h.2
        exact ⟨calls', hlater, hsuffix.trans (List.suffix_cons _ _)⟩

/-- In every run whose successful reads never go back and stay below `2^64`, every tick is counted once. -/
theorem cpuAccounting {calls : List CpuCall} (hchain : (acceptedSamples calls).IsChain CpuSample.NotLower)
    (hfits : ∀ t ∈ acceptedSamples calls, t.ticks < 2 ^ 64) : CpuAccounting calls where
  failing call previous hrc := by
    rw [getCpuUsage_eq] at hrc ⊢
    cases haccepted : call.accepted with
    | none => rfl
    | some s =>
      rw [haccepted] at hrc
      exact absurd rfl hrc
  succeeding call previous := by
    rw [getCpuUsage_eq]
    cases call.accepted with
    | none => simp
    | some s => simp
  reported := cpuReports_samples .zero calls
  conserved before first usage later hreports _ hpos := by
    obtain ⟨calls', rfl, hsuffix⟩ := cpuReports_split hreports
    have hmem := hsuffix.subset
    exact reportedTime_eq calls' (hfits _ (hmem List.mem_cons_self)) hpos (hchain.suffix hsuffix)
      fun t ht => hfits t (hmem (List.mem_cons_of_mem _ ht))
  once before first usage later hreports _ _ tick hfirst hlast := by
    obtain ⟨calls', rfl, hsuffix⟩ := cpuReports_split hreports
    exact countedIn_eq calls' (hchain.suffix hsuffix) hfirst hlast

end Accounting

/-- Two samples with a failed read between them. -/
theorem cpuAccounting_twoSamples : CpuAccounting
    [⟨true, some ⟨50, 0, 0, 40, 10, 0, 0, 0⟩⟩, ⟨true, none⟩, ⟨true, some ⟨52, 0, 0, 41, 10, 0, 0, 1⟩⟩] := by
  refine cpuAccounting ?_ ?_
  · exact .cons_cons ⟨by decide, by decide, by decide, by decide, by decide, by decide, by decide, by decide⟩
      (.singleton _)
  · intro t ht
    have hmem : t = ⟨50, 0, 0, 40, 10, 0, 0, 0⟩ ∨ t = ⟨52, 0, 0, 41, 10, 0, 0, 1⟩ := by
      simpa [acceptedSamples, CpuCall.accepted] using ht
    rcases hmem with rfl | rfl <;> decide

end TuyaDaemon
