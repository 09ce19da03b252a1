import Beetle.Lib.Pool
import Beetle.Tools.SensorWatch

/-! Calls of the sensor watch tool beside checks of the cron loop, each of which loads the list in
one step and saves its own copy of it in a later one. -/
namespace Beetle.Tools.SensorWatches
open Beetle.Lib
variable {N : Json.NumberFormat} {a b : List (SensorWatch N)} {watches : List (SensorWatch N)} {tool : SensorWatchTool}

/-- A watch without what the checks write into it. -/
def SensorWatch.settings (watch : SensorWatch N) : SensorWatch N := { watch with lastValue := none, lastCheckSecs := 0 }

/-- The note, and the settings of the watches that are added and not removed. -/
structure WatchState (N : Json.NumberFormat) where
  note : Option (List Char)
  expected : List (SensorWatch N)

inductive WatchEntry where
  | call (call : WatchCall)
  | check

/-- Where a call or a check stands: before the step that the name says. -/
inductive WatchPc (N : Json.NumberFormat) where
  -- SensorWatchTool::execute
  | load (call : WatchCall) (request : WatchRequest N)
  | save (op : WatchOp N) (seen : List (SensorWatch N)) (reply : WatchReply N)
  | answered (result : Except Error (WatchReply N))
  -- check_sensor_watches
  | loadCheck
  | readSensors (seen : List (SensorWatch N))
  | saveCheck (now : UInt64) (readings : Nat → Option (F64 N)) (seen : List (SensorWatch N))
  | checked

def WatchPc.isOver : WatchPc N → Bool
  | answered _ | checked => true
  | _ => false

/-- What the outside decides about a step: whether it fails to read or to write the note, the time,
whether the sensors may be read, and what they give. -/
structure WatchChoice (N : Json.NumberFormat) where
  fails : Bool
  now : UInt64
  accepting : Bool
  readings : Nat → Option (F64 N)

def enter (N : Json.NumberFormat) (tool : SensorWatchTool) (s : WatchState N) : WatchEntry → Option (WatchState N × WatchPc N)
  | .call call =>
    match tool.request N call.obj with
    | .ok request => some (s, .load call request)
    | .error e => some (s, .answered (.error e))
  | .check => some (s, .loadCheck)

@[grind =]
def next (tool : SensorWatchTool) (choice : WatchChoice N) (s : WatchState N) : WatchPc N → Option (WatchState N × WatchPc N)
  | .load call request =>
    match tool.loadWatches N s.note choice.fails with
    | .error e => some (s, .answered (.error e))
    | .ok seen =>
      match call.plan choice.now seen request with
      | .answer result => some (s, .answered result)
      | .save op reply => some (s, .save op seen reply)
  | .save op seen reply =>
    match saveWatches s.note choice.fails (op.apply seen) with
    | (note, .ok ()) => some (⟨note, (op.apply s.expected).map SensorWatch.settings⟩, .answered (.ok reply))
    | (note, .error e) => some (⟨note, s.expected⟩, .answered (.error e))
  | .loadCheck =>
    let seen := loadSensorWatches N s.note choice.fails
    if seen = [] ∨ choice.accepting = false then some (s, .checked) else some (s, .readSensors seen)
  | .readSensors seen =>
    if seen.any (·.due choice.now) then some (s, .saveCheck choice.now choice.readings seen) else some (s, .checked)
  | .saveCheck now readings seen =>
    some (⟨(saveWatches s.note choice.fails (checkedWatches now readings seen)).1, s.expected⟩, .checked)
  | .answered _ => none
  | .checked => none

@[grind =] def watchSystem (N : Json.NumberFormat) (tool : SensorWatchTool) :
    CallSystem (WatchState N) WatchEntry (WatchChoice N) (WatchPc N) where
  enter := enter N tool
  next := next tool

abbrev WatchPool (N : Json.NumberFormat) := Pool (WatchState N) (WatchPc N)

def noWatches : WatchPool N := ⟨⟨none, []⟩, []⟩

def stored (N : Json.NumberFormat) (note : Option (List Char)) : List (SensorWatch N) := loadSensorWatches N note false

@[grind =] def watchIds (watches : List (SensorWatch N)) : List String := watches.map (·.id)

def SameSettings (a b : List (SensorWatch N)) : Prop :=
  (a.map SensorWatch.settings).Perm (b.map SensorWatch.settings)

/-- With no call in progress the list has the watches that are added and not removed, each with the
fields of its last update, and an id of its own. -/
def KeepsWatches (w : WatchPool N) : Prop :=
  (∀ pc ∈ w.calls, pc.isOver = true) →
    ((stored N w.shared.note).map SensorWatch.settings).Perm w.shared.expected ∧ (watchIds (stored N w.shared.note)).Nodup

def Saves (choice : WatchChoice N) (watches : List (SensorWatch N)) : Prop :=
  choice.fails = false ∧ (utf8 (watchesToString watches)).length ≤ maxMemoryContentLen

/-- The copy that a call has loaded is as good as the list that is stored: it has the same settings,
but for a watch that the call removes or for fields that it changes. -/
def WatchOp.Current : WatchOp N → List (SensorWatch N) → List (SensorWatch N) → Prop
  | add watch, seen, stored => SameSettings seen stored ∧ watch.id ∉ watchIds stored
  | remove id, seen, stored =>
    SameSettings (seen.filter fun watch => watch.id ≠ id) (stored.filter fun watch => watch.id ≠ id)
  | update id obj, seen, stored => SameSettings ((update id obj).apply seen) ((update id obj).apply stored)

/-- What is saved is made of a copy that is as good as the list that is stored. -/
def SavesCurrent (w : WatchPool N) : Move WatchEntry (WatchChoice N) → Prop
  | .begin _ => True
  | .advance i choice =>
    match w.calls[i]? with
    | some (.save op seen _) => Saves choice (op.apply seen) → op.Current seen (stored N w.shared.note)
    | some (.saveCheck now readings seen) =>
      Saves choice (checkedWatches now readings seen) → SameSettings seen (stored N w.shared.note)
    | _ => True

/-! What the operations do to the settings and the ids. -/

theorem SensorWatch.settings_checked (now : UInt64) (reading : Option (F64 N)) (watch : SensorWatch N) :
    (watch.checked now reading).settings = watch.settings := by
  unfold SensorWatch.checked
  split
  · cases reading <;> rfl
  · rfl

theorem settings_checkedWatches (now : UInt64) (readings : Nat → Option (F64 N)) (watches : List (SensorWatch N)) :
    (checkedWatches now readings watches).map SensorWatch.settings = watches.map SensorWatch.settings := by
  apply List.ext_getElem
  · simp [checkedWatches]
  · intro i hi hi'
    simp [checkedWatches, SensorWatch.settings_checked]

def WatchChange.settings (change : WatchChange N) : WatchChange N := (change.1.settings, change.2)

section
variable (obj : ToolArgs) (change : WatchChange N)

theorem updateEnabled_settings : updateEnabled obj (WatchChange.settings change) = WatchChange.settings (updateEnabled obj change) := by
  unfold updateEnabled
  split <;> rfl

theorem updateInterval_settings :
    updateInterval obj (WatchChange.settings change) = (updateInterval obj change).map WatchChange.settings := by
  unfold updateInterval
  split
  · rename_i interval _
    cases checkInterval interval <;> rfl
  · rfl

theorem updateThresholdValue_settings :
    updateThresholdValue obj (WatchChange.settings change) = WatchChange.settings (updateThresholdValue obj change) := by
  unfold updateThresholdValue
  split <;> rfl

theorem updateThresholdType_settings :
    updateThresholdType obj (WatchChange.settings change) = (updateThresholdType obj change).map WatchChange.settings := by
  unfold updateThresholdType
  split
  · rename_i text _
    cases thresholdTypeOf text <;> rfl
  · rfl

theorem updateAlert_settings :
    updateAlert obj (WatchChange.settings change) = (updateAlert obj change).map WatchChange.settings := by
  unfold updateAlert
  split
  · rename_i message _
    cases checkAlert message <;> rfl
  · rfl

/-- An update reads nothing that a check writes. -/
theorem updateWatch_settings (watch : SensorWatch N) :
    updateWatch obj watch.settings = (updateWatch obj watch).map WatchChange.settings := by
  have hstart : ((watch.settings, []) : WatchChange N) = WatchChange.settings (watch, []) := rfl
  unfold updateWatch
  rw [hstart, updateEnabled_settings, updateInterval_settings]
  cases updateInterval obj (updateEnabled obj (watch, [])) with
  | error e => rfl
  | ok change =>
    change (updateThresholdType obj (updateThresholdValue obj (WatchChange.settings change))).bind (updateAlert obj) =
      ((updateThresholdType obj (updateThresholdValue obj change)).bind (updateAlert obj)).map WatchChange.settings
    rw [updateThresholdValue_settings, updateThresholdType_settings]
    cases updateThresholdType obj (updateThresholdValue obj change) with
    | error e => rfl
    | ok change => exact updateAlert_settings obj change

theorem updated_settings (watch : SensorWatch N) : updated obj watch.settings = (updated obj watch).settings := by
  unfold updated
  rw [updateWatch_settings]
  cases updateWatch obj watch <;> rfl

end

section
variable {obj : ToolArgs} {change change' : WatchChange N}

theorem updateInterval_id (h : updateInterval obj change = .ok change') : change'.1.id = change.1.id := by
  unfold updateInterval at h
  split at h
  · obtain ⟨-, -, hset⟩ := except_map_ok h
    rw [← hset]
  · cases h
    rfl

theorem updateThresholdType_id (h : updateThresholdType obj change = .ok change') : change'.1.id = change.1.id := by
  unfold updateThresholdType at h
  split at h
  · obtain ⟨threshold, _, rfl⟩ := except_map_ok h
    rfl
  · cases h
    rfl

theorem updateAlert_id (h : updateAlert obj change = .ok change') : change'.1.id = change.1.id := by
  unfold updateAlert at h
  split at h
  · obtain ⟨-, -, hset⟩ := except_map_ok h
    rw [← hset]
  · cases h
    rfl

theorem updateEnabled_id : (updateEnabled obj change).1.id = change.1.id := by
  unfold updateEnabled
  split <;> rfl

theorem updateThresholdValue_id : (updateThresholdValue obj change).1.id = change.1.id := by
  unfold updateThresholdValue
  split <;> rfl

end

theorem updated_id (obj : ToolArgs) (watch : SensorWatch N) : (updated obj watch).id = watch.id := by
  unfold updated
  split
  · rename_i watch' fields hupdate
    obtain ⟨change, hinterval, hrest⟩ := except_bind_ok hupdate
    obtain ⟨change', htype, halert⟩ := except_bind_ok hrest
    have hid := updateAlert_id halert
    rwa [updateThresholdType_id htype, updateThresholdValue_id, updateInterval_id hinterval, updateEnabled_id] at hid
  · rfl

/-- Where at most one entry passes the test, it is changed wherever it stands. -/
theorem modifyFirst_eq_map {α β : Type} [DecidableEq β] {key : α → β} {b : β} {f : α → α} {l : List α}
    (h : (l.map key).Nodup) : modifyFirst (fun a => key a = b) f l = l.map fun a => if key a = b then f a else a := by
  induction l with
  | nil => rfl
  | cons a as ih =>
    rw [List.map_cons, List.nodup_cons] at h
    rw [modifyFirst, List.map_cons]
    by_cases hkey : key a = b
    · have hrest : ∀ c ∈ as, key c ≠ b := by
        rintro c hc rfl
        exact h.1 (hkey ▸ List.mem_map_of_mem hc)
      rw [if_pos (decide_eq_true hkey), if_pos hkey, List.map_congr_left fun c hc => if_neg (hrest c hc), List.map_id']
    · rw [if_neg (by simpa using hkey), if_neg hkey, ih h.2]

theorem watchIds_settings (watches : List (SensorWatch N)) : watchIds (watches.map SensorWatch.settings) = watchIds watches := by
  rw [watchIds, List.map_map]
  rfl

theorem watchIds_perm (h : (a.map SensorWatch.settings).Perm (b.map SensorWatch.settings)) :
    (watchIds a).Perm (watchIds b) := by
  have hids := h.map (·.id)
  rwa [← watchIds, ← watchIds, watchIds_settings, watchIds_settings] at hids

theorem settings_map_settings (watches : List (SensorWatch N)) :
    (watches.map SensorWatch.settings).map SensorWatch.settings = watches.map SensorWatch.settings := by
  rw [List.map_map]
  rfl

/-- An operation does the same to the settings. -/
theorem settings_apply (op : WatchOp N) (watches : List (SensorWatch N)) :
    (op.apply (watches.map SensorWatch.settings)).map SensorWatch.settings = (op.apply watches).map SensorWatch.settings := by
  cases op with
  | add watch => rw [WatchOp.apply, WatchOp.apply, List.map_append, List.map_append, settings_map_settings]
  | remove id =>
    rw [WatchOp.apply, WatchOp.apply, List.filter_map, settings_map_settings]
    rfl
  | update id obj =>
    simp only [WatchOp.apply]
    induction watches with
    | nil => rfl
    | cons watch watches ih =>
      rw [List.map_cons, modifyFirst, modifyFirst]
      by_cases hid : watch.id = id
      · have hid' : watch.settings.id = id := hid
        rw [if_pos (decide_eq_true hid), if_pos (decide_eq_true hid'), List.map_cons, List.map_cons, updated_settings,
          settings_map_settings]
        rfl
      · have hid' : ¬ watch.settings.id = id := hid
        rw [if_neg (by rw [decide_eq_true_iff]; exact hid), if_neg (by rw [decide_eq_true_iff]; exact hid'), List.map_cons,
          List.map_cons, ih]
        rfl

theorem apply_perm {op : WatchOp N} (h : a.Perm b) (hids : (watchIds a).Nodup) : (op.apply a).Perm (op.apply b) := by
  cases op with
  | add watch => exact h.append_right [watch]
  | remove id => exact h.filter _
  | update id obj =>
    have hsame : (watchIds a).Perm (watchIds b) := h.map _
    have hids' : (watchIds b).Nodup := hsame.nodup_iff.mp hids
    rw [WatchOp.apply, WatchOp.apply, modifyFirst_eq_map hids, modifyFirst_eq_map hids']
    exact h.map _

theorem nodup_apply {op : WatchOp N} (hids : (watchIds watches).Nodup)
    (hadd : ∀ watch, op = .add watch → watch.id ∉ watchIds watches) : (watchIds (op.apply watches)).Nodup := by
  cases op with
  | add watch =>
    rw [WatchOp.apply, watchIds, List.map_append]
    exact hids.append (List.nodup_singleton _) (by simpa [watchIds] using hadd watch rfl)
  | remove id => exact hids.sublist (List.filter_sublist.map _)
  | update id obj =>
    rw [WatchOp.apply, watchIds, map_modifyFirst fun watch _ => updated_id obj watch]
    exact hids

/-- The note holds the watches that are expected, with an id each. -/
structure Holds (s : WatchState N) (watches : List (SensorWatch N)) : Prop where
  note : NoteHolds s.note watches
  settings : (watches.map SensorWatch.settings).Perm s.expected
  ids : (watchIds watches).Nodup

section
variable {s : WatchState N} {watches : List (SensorWatch N)} {choice : WatchChoice N} {seen : List (SensorWatch N)}
  {op : WatchOp N}

theorem Holds.stored (h : Holds s watches) : stored N s.note = watches := h.note.loadSensorWatches false

theorem saveWatches_of_saves (note : Option (List Char)) {choice : WatchChoice N} {list : List (SensorWatch N)}
    (h : Saves choice list) : saveWatches note choice.fails list = (some (watchesToString list), .ok ()) := by
  rw [saveWatches, h.1, if_neg Bool.false_ne_true, writeDailyNote]
  exact if_neg (Nat.not_lt.mpr h.2)

/-- A list is saved whole, or the note stays as it is. -/
theorem saveWatches_cases (note : Option (List Char)) (choice : WatchChoice N) (list : List (SensorWatch N)) :
    (∃ e, saveWatches note choice.fails list = (note, .error e)) ∨
    (Saves choice list ∧ saveWatches note choice.fails list = (some (watchesToString list), .ok ())) := by
  by_cases hsaves : Saves choice list
  · exact .inr ⟨hsaves, saveWatches_of_saves note hsaves⟩
  · left
    unfold saveWatches
    by_cases hfails : choice.fails = true
    · exact ⟨_, if_pos hfails⟩
    · have hlong : maxMemoryContentLen < (utf8 (watchesToString list)).length :=
        Nat.not_le.mp fun hle => hsaves ⟨Bool.eq_false_iff.mpr hfails, hle⟩
      rw [if_neg hfails, writeDailyNote]
      exact ⟨_, if_pos hlong⟩

/-- What an operation makes of a copy that is as good as the list is what it makes of the list. -/
theorem WatchOp.Current.same (h : op.Current seen watches)
    (hids : (watchIds watches).Nodup) : SameSettings (op.apply seen) (op.apply watches) := by
  cases op with
  | add watch =>
    have hseen : (watchIds seen).Nodup := (watchIds_perm h.1).nodup_iff.mpr hids
    unfold SameSettings
    rw [← settings_apply (.add watch) seen, ← settings_apply (.add watch) watches]
    exact (apply_perm h.1 (by rwa [watchIds_settings])).map _
  | remove id => exact h
  | update id obj => exact h

theorem WatchOp.Current.fresh (h : op.Current seen watches)
    {watch : SensorWatch N} (hop : op = .add watch) : watch.id ∉ watchIds watches := by
  subst hop
  exact h.2

theorem Holds.save (h : Holds s watches) (hcurrent : op.Current seen watches) :
    Holds ⟨some (watchesToString (op.apply seen)), (op.apply s.expected).map SensorWatch.settings⟩ (op.apply seen) := by
  have hsame := hcurrent.same h.ids
  refine ⟨.inr rfl, ?_, ?_⟩
  · refine hsame.trans ?_
    rw [← settings_apply op watches]
    exact (apply_perm h.settings (by rw [watchIds_settings]; exact h.ids)).map _
  · exact (watchIds_perm hsame).nodup_iff.mpr (nodup_apply h.ids fun _ hop => hcurrent.fresh hop)

theorem Holds.saveCheck (h : Holds s watches) {now : UInt64} {readings : Nat → Option (F64 N)}
    (hsame : SameSettings seen watches) :
    Holds ⟨some (watchesToString (checkedWatches now readings seen)), s.expected⟩ (checkedWatches now readings seen) := by
  have hchecked : SameSettings (checkedWatches now readings seen) watches := by
    unfold SameSettings
    rwa [settings_checkedWatches]
  exact ⟨.inr rfl, hchecked.trans h.settings, (watchIds_perm hchecked).nodup_iff.mpr h.ids⟩

theorem Holds.keepsWatches {w : WatchPool N} (h : Holds w.shared watches) : KeepsWatches w := by
  intro _
  rw [h.stored]
  exact ⟨h.settings, h.ids⟩

/-- What a step of a call or a check does, when what it saves is made of a copy that is as good as
the list. -/
theorem Holds.next (h : Holds s watches) {tool : SensorWatchTool} {pc pc' : WatchPc N} {t : WatchState N}
    (hop : ∀ op seen reply, pc = .save op seen reply → Saves choice (op.apply seen) → op.Current seen watches)
    (hcheck : ∀ now readings seen, pc = .saveCheck now readings seen → Saves choice (checkedWatches now readings seen) →
      SameSettings seen watches)
    (ht : next tool choice s pc = some (t, pc')) : ∃ watches', Holds t watches' := by
  cases pc with
  | load call request =>
    simp only [SensorWatches.next] at ht
    split at ht
    · cases ht
      exact ⟨watches, h⟩
    · split at ht <;> (cases ht; exact ⟨watches, h⟩)
  | save op seen reply =>
    simp only [SensorWatches.next] at ht
    rcases saveWatches_cases s.note choice (op.apply seen) with ⟨e, hsave⟩ | ⟨hsaves, hsave⟩
    · rw [hsave] at ht
      cases ht
      exact ⟨watches, h⟩
    · rw [hsave] at ht
      cases ht
      exact ⟨_, h.save (hop op seen reply rfl hsaves)⟩
  | loadCheck =>
    simp only [SensorWatches.next] at ht
    split at ht <;> (cases ht; exact ⟨watches, h⟩)
  | readSensors seen =>
    simp only [SensorWatches.next] at ht
    split at ht <;> (cases ht; exact ⟨watches, h⟩)
  | saveCheck now readings seen =>
    simp only [SensorWatches.next] at ht
    rcases saveWatches_cases s.note choice (checkedWatches now readings seen) with ⟨e, hsave⟩ | ⟨hsaves, hsave⟩
    · rw [hsave] at ht
      cases ht
      exact ⟨watches, h⟩
    · rw [hsave] at ht
      cases ht
      exact ⟨_, h.saveCheck (hcheck now readings seen rfl hsaves)⟩
  | answered result => cases ht
  | checked => cases ht

end

theorem holds_step {w t : WatchPool N} {move : Move WatchEntry (WatchChoice N)}
    (h : ∃ watches, Holds w.shared watches) (hc : SavesCurrent w move)
    (ht : w.step (watchSystem N tool) move = some t) : ∃ watches, Holds t.shared watches := by
  obtain ⟨watches, h⟩ := h
  cases Pool.fires_of_step ht with
  | begun entry shared pc henter =>
    refine ⟨watches, ?_⟩
    cases entry with
    | check =>
      cases henter
      exact h
    | call call =>
      simp only [watchSystem, enter] at henter
      split at henter <;> (cases henter; exact h)
  | advanced i choice pc pc' shared hpc hnext =>
    simp only [SavesCurrent, hpc, h.stored] at hc
    refine h.next ?_ ?_ hnext
    · rintro op seen reply rfl
      exact hc
    · rintro now readings seen rfl
      exact hc

/-- In every interleaving of calls of the tool with checks the list is kept, as long as everything
that is saved is made of a copy that is as good as the list. -/
theorem always_keepsWatches (tool : SensorWatchTool) (moves : List (Move WatchEntry (WatchChoice N)))
    (h : Meets (Pool.step (watchSystem N tool)) SavesCurrent moves noWatches) :
    Always (Pool.step (watchSystem N tool)) KeepsWatches moves noWatches :=
  always_of_meets (I := fun w => ∃ watches, Holds w.shared watches) (fun _ _ _ hw hc ht => holds_step hw hc ht)
    (fun _ ⟨_, hw⟩ => hw.keepsWatches) moves _ ⟨[], .inl ⟨rfl, rfl⟩, List.Perm.refl _, List.nodup_nil⟩ h

/-- A call to watch a pin. -/
def addCall : WatchCall where
  obj := [
    (Json.string "op".toList, jsonText "add"), (Json.string "device_id".toList, jsonText "d"),
    (Json.string "interval_secs".toList, .num (Lib.decimal 60)), (Json.string "threshold_type".toList, jsonText "above"),
    (Json.string "threshold_value".toList, .num ['1']), (Json.string "alert_message".toList, jsonText "m")]
  channel := none
  chatId := none

def pinTool : SensorWatchTool := ⟨[⟨"d", "gpio_in"⟩], [], fun _ => ""⟩

def pinWatch : NewWatch .literal := ⟨"d", 60, .above, ⟨['1'], by decide⟩, "m"⟩

def atTime (now : UInt64) (fails : Bool) : WatchChoice .literal := ⟨fails, now, true, fun _ => none⟩

theorem pinTool_request : pinTool.request .literal addCall.obj = .ok (.add pinWatch) := eq_ok_of_toOption (by decide)

/-- A watch is added to a list that is not there yet. -/
theorem first_watch_kept : Always (Pool.step (watchSystem .literal pinTool)) KeepsWatches
    [.begin (.call addCall), .advance 0 (atTime 10 false), .advance 0 (atTime 10 false)] noWatches := by
  apply always_keepsWatches pinTool
  intro t ht
  refine ⟨trivial, fun u hu => ?_⟩
  simp only [Pool.step, watchSystem, enter, pinTool_request, Option.map_some, Option.some.injEq] at ht
  subst ht
  refine ⟨trivial, fun v hv => ⟨?_, trivial⟩⟩
  have hnone : NoteHolds none ([] : List (SensorWatch .literal)) := .inl ⟨rfl, rfl⟩
  have hload : next pinTool (atTime 10 false) noWatches.shared (.load addCall (.add pinWatch)) =
      some (noWatches.shared, .save (.add (addCall.newWatch 10 pinWatch)) [] (.added (addCall.newWatch 10 pinWatch).id)) := by
    have hread : pinTool.loadWatches .literal none false = .ok [] := hnone.loadWatches pinTool false
    simp only [next, atTime, noWatches, hread]
    rfl
  have hpc : (noWatches.calls ++ [.load addCall (.add pinWatch)])[0]? = some (.load addCall (.add pinWatch)) := rfl
  simp only [Pool.step, hpc, watchSystem, Option.bind_some, hload, Option.map_some, Option.some.injEq] at hu
  subst hu
  intro _
  exact ⟨List.Perm.refl _, List.not_mem_nil⟩

/-- A call that adds a watch and is not disturbed, whether or not it has read the note. -/
theorem exec_add {call : WatchCall} {new : NewWatch N} (s : WatchState N) (calls : List (WatchPc N))
    (hrequest : tool.request N call.obj = .ok (.add new)) (hnote : NoteHolds s.note watches)
    (load save : WatchChoice N) (hroom : (if load.fails then [] else watches).length < sensorWatchMaxEntries)
    (hsaves : Saves save ((if load.fails then [] else watches) ++ [call.newWatch load.now new])) :
    exec (Pool.step (watchSystem N tool)) [.begin (.call call), .advance calls.length load, .advance calls.length save]
        ⟨s, calls⟩ =
      some ⟨⟨some (watchesToString ((if load.fails then [] else watches) ++ [call.newWatch load.now new])),
        (s.expected ++ [call.newWatch load.now new]).map SensorWatch.settings⟩,
        calls ++ [.answered (.ok (.added (call.newWatch load.now new).id))]⟩ := by
  have hload : next tool load s (.load call (.add new)) = some (s, .save (.add (call.newWatch load.now new))
      (if load.fails then [] else watches) (.added (call.newWatch load.now new).id)) := by
    simp only [next, hnote.loadWatches tool load.fails, WatchCall.plan, if_neg (Nat.not_le.mpr hroom)]
  have hsaved (reply : WatchReply N) : next tool save s (.save (.add (call.newWatch load.now new))
      (if load.fails then [] else watches) reply) =
        some (⟨some (watchesToString ((if load.fails then [] else watches) ++ [call.newWatch load.now new])),
          (s.expected ++ [call.newWatch load.now new]).map SensorWatch.settings⟩, .answered (.ok reply)) := by
    simp only [next, WatchOp.apply, saveWatches_of_saves s.note hsaves]
  simp only [exec_cons, Pool.step, watchSystem, enter, hrequest, Option.map_some, Option.bind_some, List.getElem?_concat_length,
    hload, List.set_append_right _ _ (Nat.le_refl _), Nat.sub_self, List.set_cons_zero, hsaved, exec_nil]

/-- Two calls one after the other, of which the second cannot read the note. -/
def unreadMoves : List (Move WatchEntry (WatchChoice .literal)) :=
  [.begin (.call addCall), .advance 0 (atTime 10 false), .advance 0 (atTime 10 false)] ++
    [.begin (.call addCall), .advance 1 (atTime 20 true), .advance 1 (atTime 20 false)]

/-- What the two calls leave behind: a note with the second watch alone. -/
def oneWatch : WatchPool .literal :=
  ⟨⟨some (watchesToString [addCall.newWatch 10 pinWatch]), [addCall.newWatch 10 pinWatch]⟩,
    [.answered (.ok (.added (addCall.newWatch 10 pinWatch).id))]⟩

def lostWatch : WatchPool .literal :=
  ⟨⟨some (watchesToString [addCall.newWatch 20 pinWatch]), [addCall.newWatch 10 pinWatch, addCall.newWatch 20 pinWatch]⟩,
    [.answered (.ok (.added (addCall.newWatch 10 pinWatch).id)), .answered (.ok (.added (addCall.newWatch 20 pinWatch).id))]⟩

theorem unread_note_loses_watch :
    ¬ Always (Pool.step (watchSystem .literal pinTool)) KeepsWatches unreadMoves noWatches := by
  intro h
  have hrequest := pinTool_request
  have hnone : NoteHolds none ([] : List (SensorWatch .literal)) := .inl ⟨rfl, rfl⟩
  have hfirst : exec (Pool.step (watchSystem .literal pinTool))
      [.begin (.call addCall), .advance 0 (atTime 10 false), .advance 0 (atTime 10 false)] noWatches = some oneWatch :=
    exec_add ⟨none, []⟩ [] hrequest hnone (atTime 10 false) (atTime 10 false) (by decide) ⟨rfl, by decide +kernel⟩
  have hsome : NoteHolds oneWatch.shared.note [addCall.newWatch 10 pinWatch] := .inr rfl
  have hsecond : exec (Pool.step (watchSystem .literal pinTool))
      [.begin (.call addCall), .advance 1 (atTime 20 true), .advance 1 (atTime 20 false)] oneWatch = some lostWatch :=
    exec_add oneWatch.shared oneWatch.calls hrequest hsome (atTime 20 true) (atTime 20 false) (by decide)
      ⟨rfl, by decide +kernel⟩
  have hrun : exec (Pool.step (watchSystem .literal pinTool)) unreadMoves noWatches = some lostWatch := by
    rw [unreadMoves, exec_append, hfirst, Option.bind_some, hsecond]
  obtain ⟨hsettings, -⟩ := h.last hrun (by simp [lostWatch, WatchPc.isOver])
  have hstored : stored .literal lostWatch.shared.note = [addCall.newWatch 20 pinWatch] :=
    NoteHolds.loadSensorWatches (.inr rfl) false
  rw [hstored] at hsettings
  exact absurd hsettings.length_eq (by decide)

end Beetle.Tools.SensorWatches
