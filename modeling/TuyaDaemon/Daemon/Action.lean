import TuyaDaemon.Json.CJsonParse

/-!
# The action log

`handle_action` appends the `text` of an action to `/tmp/tuya_action.log` with `fprintf("%s\n")`, unescaped.  The log is
a record of one line per action exactly when no text holds a newline or a terminator (`faithfulRecord_iff`).
-/

namespace TuyaDaemon

open CLib

def newline : UInt8 := 10

/-- What `fprintf` writes for a text. -/
def logEntry (valuestring : List UInt8) : List UInt8 := upToNul valuestring ++ [newline]

/-- `handle_action` on the contents of the log; `opened` tells whether `fopen` succeeds. -/
def handleAction (opened : Bool) (data : CString) (log : List UInt8) : List UInt8 :=
  match cJsonParse data with
  | none => log
  | some root =>
    match cJsonGetObjectItem root (bytes "inputParams") with
    | some (.object members) =>
      match cJsonGetObjectItem (.object members) (bytes "text") with
      | some (.string valuestring) => if opened then log ++ logEntry valuestring else log
      | _ => log
    | _ => log

/-- The log after a sequence of actions; every `fopen` succeeds. -/
def actionLog (datas : List CString) : List UInt8 := datas.foldl (fun log data => handleAction true data log) []

/-- The string member `text` of the object member `inputParams`. -/
def actionText (data : CString) : Option (List UInt8) := do
  let root ← cJsonParse data
  let .object members ← cJsonGetObjectItem root (bytes "inputParams") | none
  let .string text ← cJsonGetObjectItem (.object members) (bytes "text") | none
  some text

/-- The lines of a file; what follows the last newline is not a line. -/
def logLines (log : List UInt8) : List (List UInt8) := (log.splitOn newline).dropLast

/-- The lines are the texts in order, and none of the messages can add more than one. -/
structure FaithfulRecord (datas : List CString) : Prop where
  lines : logLines (actionLog datas) = datas.filterMap actionText
  oneLine : ∀ data ∈ datas, ∀ log, (logLines (handleAction true data log)).length ≤ (logLines log).length + 1

/-! ### Lines -/

theorem logLines_nil : logLines [] = [] := rfl

theorem logLines_line (line rest : List UInt8) :
    logLines (line ++ newline :: rest) = line.splitOn newline ++ logLines rest := by
  rw [logLines, List.splitOn_append_cons_self, List.dropLast_append_of_ne_nil (List.splitOn_ne_nil _ _)]
  rfl

theorem length_splitOn (s : List UInt8) : (s.splitOn newline).length = s.count newline + 1 := by
  induction s with
  | nil => rfl
  | cons c s ih =>
    rw [List.splitOn_cons_eq_if_modifyHead, List.count_cons]
    split
    · rw [List.length_cons, ih]
    · rw [List.length_modifyHead, ih, Nat.add_zero]

/-- A line ends with each newline. -/
theorem length_logLines (log : List UInt8) : (logLines log).length = log.count newline := by
  rw [logLines, List.length_dropLast, length_splitOn]
  rfl

/-- The pieces of a text hold its characters, without the newlines. -/
theorem mem_splitOn {s line : List UInt8} (h : line ∈ s.splitOn newline) {c : UInt8} (hc : c ∈ line) :
    c ∈ s ∧ c ≠ newline := by
  induction s generalizing line with
  | nil =>
    rw [List.splitOn_nil, List.mem_singleton] at h
    subst h
    cases hc
  | cons d s ih =>
    rw [List.splitOn_cons_eq_if_modifyHead] at h
    split at h
    · rcases List.mem_cons.1 h with rfl | h
      · cases hc
      · exact ⟨List.mem_cons_of_mem _ (ih h hc).1, (ih h hc).2⟩
    · rename_i hd
      obtain ⟨head, tail, hsplit⟩ := List.exists_cons_of_ne_nil (List.splitOn_ne_nil newline s)
      rw [hsplit, List.modifyHead_cons] at h
      rw [hsplit] at ih
      rcases List.mem_cons.1 h with rfl | h
      · rcases List.mem_cons.1 hc with rfl | hc
        · exact ⟨List.mem_cons_self, fun heq => hd (by simp [heq])⟩
        · have hmem := ih List.mem_cons_self hc
          exact ⟨List.mem_cons_of_mem _ hmem.1, hmem.2⟩
      · have hmem := ih (List.mem_cons_of_mem _ h) hc
        exact ⟨List.mem_cons_of_mem _ hmem.1, hmem.2⟩

/-! ### The log -/

/-- Rejected messages write nothing, and an accepted one appends its entry. -/
theorem handleAction_eq (opened : Bool) (data : CString) (log : List UInt8) :
    handleAction opened data log = if opened then log ++ ((actionText data).map logEntry).getD [] else log := by
  unfold handleAction actionText
  cases cJsonParse data with
  | none => cases opened <;> simp
  | some root =>
    simp only [Option.bind_eq_bind, Option.bind_some]
    cases cJsonGetObjectItem root (bytes "inputParams") with
    | none => cases opened <;> simp
    | some params =>
      cases params with
      | object members =>
        simp only [Option.bind_some]
        cases cJsonGetObjectItem (.object members) (bytes "text") with
        | none => cases opened <;> simp
        | some item => cases item <;> cases opened <;> simp
      | _ => cases opened <;> simp

theorem foldl_handleAction (datas : List CString) (log : List UInt8) :
    datas.foldl (fun log data => handleAction true data log) log =
      log ++ (datas.filterMap actionText).flatMap logEntry := by
  induction datas generalizing log with
  | nil => simp
  | cons data datas ih =>
    rw [List.foldl_cons, ih, handleAction_eq, if_pos rfl, List.append_assoc, List.filterMap_cons]
    cases actionText data with
    | none => simp
    | some text => simp

/-- A text adds the pieces that its newlines cut it into. -/
theorem logLines_actionLog (datas : List CString) :
    logLines (actionLog datas) = (datas.filterMap actionText).flatMap fun t => (upToNul t).splitOn newline := by
  rw [actionLog, foldl_handleAction, List.nil_append]
  induction datas.filterMap actionText with
  | nil => exact logLines_nil
  | cons t texts ih =>
    rw [List.flatMap_cons, List.flatMap_cons, logEntry, List.append_assoc, List.singleton_append, logLines_line, ih]

/-- Every line comes from some text, and holds its characters without newlines and terminators. -/
theorem mem_logLines {datas : List CString} {line : List UInt8} (h : line ∈ logLines (actionLog datas)) :
    newline ∉ line ∧ 0 ∉ line := by
  rw [logLines_actionLog, List.mem_flatMap] at h
  obtain ⟨t, -, hline⟩ := h
  constructor
  · intro hc
    exact (mem_splitOn hline hc).2 rfl
  · intro hc
    exact zero_notMem_upToNul t (mem_splitOn hline hc).1

theorem splitOn_clean {t : List UInt8} (hnewline : newline ∉ t) (hnul : 0 ∉ t) :
    (upToNul t).splitOn newline = [t] := by
  rw [upToNul_eq_self hnul, List.splitOn_eq_singleton hnewline]

/-- A clean text adds one line to any log. -/
theorem length_handleAction {data : CString} (h : ∀ t, actionText data = some t → newline ∉ t ∧ 0 ∉ t)
    (log : List UInt8) : (logLines (handleAction true data log)).length ≤ (logLines log).length + 1 := by
  rw [length_logLines, length_logLines, handleAction_eq, if_pos rfl, List.count_append]
  cases htext : actionText data with
  | none => simp
  | some t =>
    have hcount : (upToNul t).count newline = 0 := by
      rw [upToNul_eq_self (h t htext).2]
      exact List.count_eq_zero.2 (h t htext).1
    simp [logEntry, hcount]

/-! ### The record -/

theorem faithfulRecord_iff (datas : List CString) :
    FaithfulRecord datas ↔ ∀ data ∈ datas, ∀ t, actionText data = some t → newline ∉ t ∧ 0 ∉ t := by
  constructor
  · rintro ⟨hlines, -⟩ data hdata t ht
    have hmem : t ∈ datas.filterMap actionText := List.mem_filterMap.2 ⟨data, hdata, ht⟩
    rw [← hlines] at hmem
    exact mem_logLines hmem
  · intro hclean
    refine ⟨?_, fun data hdata => length_handleAction (hclean data hdata)⟩
    have hsingle : ∀ t ∈ datas.filterMap actionText, (upToNul t).splitOn newline = [t] := by
      intro t ht
      obtain ⟨data, hdata, ht⟩ := List.mem_filterMap.1 ht
      exact splitOn_clean (hclean data hdata t ht).1 (hclean data hdata t ht).2
    rw [logLines_actionLog, List.flatMap_congr hsingle, List.flatMap_singleton']

/-- `{"inputParams":{"text":"a\nb"}}`, with the newline escaped. -/
def twoLineData : CString :=
  ⟨bytes "\x7b\"inputParams\":\x7b\"text\":\"a\\nb\"\x7d\x7d", by decide, by decide⟩

def aData : CString := ⟨bytes "\x7b\"inputParams\":\x7b\"text\":\"a\"\x7d\x7d", by decide, by decide⟩

def bData : CString := ⟨bytes "\x7b\"inputParams\":\x7b\"text\":\"b\"\x7d\x7d", by decide, by decide⟩

/-- One message writes the two lines of two other messages. -/
theorem not_faithfulRecord_newline :
    ¬ FaithfulRecord [twoLineData] ∧ actionLog [twoLineData] = actionLog [aData, bData] := by
  have htext : actionText twoLineData = some (bytes "a\nb") := by decide +kernel
  constructor
  · intro h
    have hmem : bytes "a\nb" ∈ logLines (actionLog [twoLineData]) := by
      rw [h.lines, List.filterMap_cons_some htext]
      exact List.mem_cons_self
    exact (mem_logLines hmem).1 (by decide)
  · decide +kernel

end TuyaDaemon
