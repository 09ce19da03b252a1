import Beetle.Lib.JsonSpells
import Beetle.Lib.JsonValue
import Beetle.Platform.TaskLedger
import Beetle.Tools.Cron
import Beetle.Tools.ToolArgs

/-! The tool that manages the watches of the sensors, and the check that the cron loop makes of
them. Both keep the whole list in one note. -/
namespace Beetle.Tools.SensorWatches
open Beetle.Lib

def sensorWatchMaxEntries : Nat := 8
def sensorWatchMinIntervalSecs : UInt64 := 60
def sensorWatchMaxAlertLen : Nat := 512

inductive ThresholdType where
  | above
  | below
  | change
  deriving DecidableEq

def ThresholdType.name : ThresholdType → String
  | above => "above"
  | below => "below"
  | change => "change"

def thresholdTypes : List ThresholdType := [.above, .below, .change]

/-- A floating-point number, by the text that it is written as. -/
structure F64 (N : Json.NumberFormat) where
  literal : List Char
  canon : N.canon literal = some literal
  deriving DecidableEq

/-- `Value::as_f64` -/
def F64.ofJson (N : Json.NumberFormat) : Json → Option (F64 N)
  | .num literal =>
    match h : N.canon literal with
    | some canon => some ⟨canon, N.canon_canon h⟩
    | none => none
  | _ => none

structure SensorWatch (N : Json.NumberFormat) where
  id : String
  deviceId : String
  intervalSecs : UInt64
  thresholdType : ThresholdType
  thresholdValue : F64 N
  alertMessage : String
  channel : String
  chatId : String
  enabled : Bool
  lastValue : Option (F64 N)
  lastCheckSecs : UInt64

variable {N : Json.NumberFormat}

def F64.toJson (x : F64 N) : Json := .num x.literal

def asText (json : Json) : Option String := (Json.asString json).map String.ofList

namespace SensorWatch

def members (watch : SensorWatch N) : List (JsonString × Json) :=
  [
    (Json.string "id".toList, jsonText watch.id),
    (Json.string "device_id".toList, jsonText watch.deviceId),
    (Json.string "interval_secs".toList, .num (Lib.decimal watch.intervalSecs.toNat)),
    (Json.string "threshold_type".toList, jsonText watch.thresholdType.name),
    (Json.string "threshold_value".toList, watch.thresholdValue.toJson),
    (Json.string "alert_message".toList, jsonText watch.alertMessage),
    (Json.string "channel".toList, jsonText watch.channel),
    (Json.string "chat_id".toList, jsonText watch.chatId),
    (Json.string "enabled".toList, .bool watch.enabled),
    (Json.string "last_value".toList, (watch.lastValue.map F64.toJson).getD .null),
    (Json.string "last_check_secs".toList, .num (Lib.decimal watch.lastCheckSecs.toNat))]

def toJson (watch : SensorWatch N) : Json := .obj watch.members

def ofJson (N : Json.NumberFormat) : Json → Option (SensorWatch N) :=
  Json.asObj fun members => do
    let id ← Json.requiredField asText members "id"
    let deviceId ← Json.requiredField asText members "device_id"
    let intervalSecs ← Json.requiredField Json.asU64 members "interval_secs"
    let thresholdType ← Json.requiredField (Platform.Storage.asVariant ThresholdType.name thresholdTypes) members "threshold_type"
    let thresholdValue ← Json.requiredField (F64.ofJson N) members "threshold_value"
    let alertMessage ← Json.requiredField asText members "alert_message"
    let channel ← Json.requiredField asText members "channel"
    let chatId ← Json.requiredField asText members "chat_id"
    let enabled ← Json.requiredField Json.asBool members "enabled"
    let lastValue ← Json.optionalField (F64.ofJson N) members "last_value"
    let lastCheckSecs ← Json.defaultField Json.asU64 0 members "last_check_secs"
    return ⟨id, deviceId, .ofNat intervalSecs, thresholdType, thresholdValue, alertMessage, channel, chatId, enabled,
      lastValue, .ofNat lastCheckSecs⟩

end SensorWatch

/-- `serde_json::to_string_pretty` of the watches. -/
def watchesToString (watches : List (SensorWatch N)) : List Char :=
  Json.print .pretty 0 (.arr (watches.map SensorWatch.toJson))

def watchesFromStr (N : Json.NumberFormat) (text : List Char) : Option (List (SensorWatch N)) :=
  (Json.fromStr serdeMaxDepth text).bind (Json.asArr (SensorWatch.ofJson N))

def sensorWatchError {α : Type} (message : String) : Except Error α := .error (.config message "tool_sensor_watch")

structure DeviceEntry where
  id : String
  deviceType : String

structure I2cSensorEntry where
  id : String
  model : String

/-- `jsonErrorText` is what `serde_json` says of a text that it cannot read. -/
structure SensorWatchTool where
  devices : List DeviceEntry
  i2cSensors : List I2cSensorEntry
  jsonErrorText : List Char → String

/-- A note that cannot be read counts as an empty list. -/
def SensorWatchTool.loadWatches (tool : SensorWatchTool) (N : Json.NumberFormat) (note : Option (List Char)) (readFails : Bool) :
    Except Error (List (SensorWatch N)) :=
  match getDailyNote note readFails with
  | .ok s =>
    if s = [] then .ok []
    else
      match watchesFromStr N s with
      | some watches => .ok watches
      | none => sensorWatchError (tool.jsonErrorText s)
  | .error _ => .ok []

def saveWatches (note : Option (List Char)) (writeFails : Bool) (watches : List (SensorWatch N)) :
    Option (List Char) × Except Error Unit :=
  if writeFails then (note, .error (.io ⟨.other, none⟩ "storage_write"))
  else writeDailyNote note (watchesToString watches)

def SensorWatchTool.isValidSensorDevice (tool : SensorWatchTool) (deviceId : String) : Bool :=
  tool.i2cSensors.any (fun s => decide (s.id = deviceId ∧ s.model ≠ "raw")) ||
    tool.devices.any fun d => decide (d.id = deviceId ∧ d.deviceType ∈ ["adc_in", "gpio_in", "dht"])

def thresholdTypeOf (text : String) : Except Error ThresholdType :=
  match thresholdTypes.find? fun threshold => threshold.name = text with
  | some threshold => .ok threshold
  | none => sensorWatchError "threshold_type must be above|below|change"

def checkInterval (interval : UInt64) : Except Error Unit :=
  if interval < sensorWatchMinIntervalSecs then
    sensorWatchError ("interval_secs must be >= " ++ toString sensorWatchMinIntervalSecs)
  else .ok ()

def checkAlert (message : String) : Except Error Unit :=
  if sensorWatchMaxAlertLen < message.utf8ByteSize then
    sensorWatchError ("alert_message exceeds " ++ toString sensorWatchMaxAlertLen ++ " bytes")
  else .ok ()

def required {α : Type} (field : String) : Option α → Except Error α
  | some value => .ok value
  | none => sensorWatchError ("missing " ++ field)

def u64Arg (obj : ToolArgs) (key : String) : Option UInt64 := ((obj.get key).bind Json.asU64).map .ofNat

/-- What an `add` asks for. -/
structure NewWatch (N : Json.NumberFormat) where
  deviceId : String
  intervalSecs : UInt64
  thresholdType : ThresholdType
  thresholdValue : F64 N
  alertMessage : String
  deriving DecidableEq

def SensorWatchTool.addRequest (tool : SensorWatchTool) (N : Json.NumberFormat) (obj : ToolArgs) : Except Error (NewWatch N) := do
  let deviceId ← required "device_id" (obj.str "device_id")
  if tool.isValidSensorDevice deviceId = false then
    sensorWatchError ("device_id '" ++ deviceId ++
      "' not found or not a monitorable sensor (adc_in/gpio_in/dht or i2c_sensors non-raw)")
  else
    let intervalSecs ← required "interval_secs" (u64Arg obj "interval_secs")
    checkInterval intervalSecs
    let thresholdType ← (required "threshold_type" (obj.str "threshold_type")).bind thresholdTypeOf
    let thresholdValue ← required "threshold_value" ((obj.get "threshold_value").bind (F64.ofJson N))
    let alertMessage ← required "alert_message" (obj.str "alert_message")
    checkAlert alertMessage
    .ok ⟨deviceId, intervalSecs, thresholdType, thresholdValue, alertMessage⟩

/-- A watch, and the names of the fields that are changed so far. -/
abbrev WatchChange (N : Json.NumberFormat) := SensorWatch N × List String

def updateEnabled (obj : ToolArgs) (change : WatchChange N) : WatchChange N :=
  match (obj.get "enabled").bind Json.asBool with
  | some enabled => ({ change.1 with enabled }, change.2 ++ ["enabled"])
  | none => change

def updateInterval (obj : ToolArgs) (change : WatchChange N) : Except Error (WatchChange N) :=
  match u64Arg obj "interval_secs" with
  | some intervalSecs =>
    (checkInterval intervalSecs).map fun _ => ({ change.1 with intervalSecs }, change.2 ++ ["interval_secs"])
  | none => .ok change

def updateThresholdValue (obj : ToolArgs) (change : WatchChange N) : WatchChange N :=
  match (obj.get "threshold_value").bind (F64.ofJson N) with
  | some thresholdValue => ({ change.1 with thresholdValue }, change.2 ++ ["threshold_value"])
  | none => change

def updateThresholdType (obj : ToolArgs) (change : WatchChange N) : Except Error (WatchChange N) :=
  match obj.str "threshold_type" with
  | some text => (thresholdTypeOf text).map fun thresholdType =>
      ({ change.1 with thresholdType }, change.2 ++ ["threshold_type"])
  | none => .ok change

def updateAlert (obj : ToolArgs) (change : WatchChange N) : Except Error (WatchChange N) :=
  match obj.str "alert_message" with
  | some alertMessage => (checkAlert alertMessage).map fun _ => ({ change.1 with alertMessage }, change.2 ++ ["alert_message"])
  | none => .ok change

def updateWatch (obj : ToolArgs) (watch : SensorWatch N) : Except Error (WatchChange N) := do
  let change ← updateInterval obj (updateEnabled obj (watch, []))
  let change ← updateThresholdType obj (updateThresholdValue obj change)
  updateAlert obj change

/-- A call of the tool: its arguments and the conversation it comes from. -/
structure WatchCall where
  obj : ToolArgs
  channel : Option String
  chatId : Option String

inductive WatchRequest (N : Json.NumberFormat) where
  | add (new : NewWatch N)
  | list
  | remove (id : String)
  | update (id : String)
  deriving DecidableEq

/-- What a call reads out of its arguments before it loads the watches. -/
def SensorWatchTool.request (tool : SensorWatchTool) (N : Json.NumberFormat) (obj : ToolArgs) : Except Error (WatchRequest N) :=
  match obj.str "op" with
  | none => sensorWatchError "missing op"
  | some op =>
    if op = "add" then (tool.addRequest N obj).map .add
    else if op = "list" then .ok .list
    else if op = "remove" then (required "id" (obj.str "id")).map .remove
    else if op = "update" then (required "id" (obj.str "id")).map .update
    else sensorWatchError ("unknown op: " ++ op)

inductive WatchReply (N : Json.NumberFormat) where
  | added (id : String)
  | listed (watches : List (SensorWatch N))
  | removed (id : String)
  | notFound
  | updated (id : String) (fields : List String)
  | nothingToUpdate

/-- What a call does to the list that it has loaded. -/
inductive WatchOp (N : Json.NumberFormat) where
  | add (watch : SensorWatch N)
  | remove (id : String)
  | update (id : String) (obj : ToolArgs)

/-- The watch after its update, where that is one. -/
def updated (obj : ToolArgs) (watch : SensorWatch N) : SensorWatch N :=
  match updateWatch obj watch with
  | .ok (watch, _) => watch
  | .error _ => watch

@[grind =] def WatchOp.apply : WatchOp N → List (SensorWatch N) → List (SensorWatch N)
  | add watch, watches => watches ++ [watch]
  | remove id, watches => watches.filter fun watch => watch.id ≠ id
  | update id obj, watches => modifyFirst (fun watch => watch.id = id) (updated obj) watches

def WatchCall.newWatch (call : WatchCall) (now : UInt64) (new : NewWatch N) : SensorWatch N :=
  ⟨"sw_" ++ toString now.toNat, new.deviceId, new.intervalSecs, new.thresholdType, new.thresholdValue, new.alertMessage,
    call.channel.getD "cron", call.chatId.getD "cron", true, none, 0⟩

/-- What a call goes on with once it has loaded the watches: an answer, or a list to save. -/
inductive WatchPlan (N : Json.NumberFormat) where
  | answer (result : Except Error (WatchReply N))
  | save (op : WatchOp N) (reply : WatchReply N)

def WatchCall.plan (call : WatchCall) (now : UInt64) (watches : List (SensorWatch N)) : WatchRequest N → WatchPlan N
  | .add new =>
    if sensorWatchMaxEntries ≤ watches.length then
      .answer (sensorWatchError ("max " ++ toString sensorWatchMaxEntries ++ " watches reached"))
    else
      let watch := call.newWatch now new
      .save (.add watch) (.added watch.id)
  | .list => .answer (.ok (.listed watches))
  | .remove id =>
    if (watches.filter fun watch => watch.id ≠ id).length = watches.length then .answer (.ok .notFound)
    else .save (.remove id) (.removed id)
  | .update id =>
    match watches.find? fun watch => watch.id = id with
    | none => .answer (sensorWatchError "watch not found")
    | some watch =>
      match updateWatch call.obj watch with
      | .error e => .answer (.error e)
      | .ok (_, fields) =>
        if fields = [] then .answer (.ok .nothingToUpdate)
        else .save (.update id call.obj) (.updated id fields)

/-- What the cron loop reads, with nothing for an error. -/
def loadSensorWatches (N : Json.NumberFormat) (note : Option (List Char)) (readFails : Bool) : List (SensorWatch N) :=
  match getDailyNote note readFails with
  | .ok s => if s = [] then [] else (watchesFromStr N s).getD []
  | .error _ => []

/-- Whether the check reads the sensor of a watch. -/
def SensorWatch.due (now : UInt64) (watch : SensorWatch N) : Bool :=
  watch.enabled && decide (watch.intervalSecs.toNat ≤ now.toNat - watch.lastCheckSecs.toNat)

/-- A watch after its sensor has been read, which may have failed. -/
def SensorWatch.checked (now : UInt64) (reading : Option (F64 N)) (watch : SensorWatch N) : SensorWatch N :=
  if watch.due now then
    match reading with
    | some value => { watch with lastValue := some value, lastCheckSecs := now }
    | none => { watch with lastCheckSecs := now }
  else watch

/-- The list that `check_sensor_watches` saves; `readings` are what the sensors give in the order of
the watches. -/
def checkedWatches (now : UInt64) (readings : Nat → Option (F64 N)) (watches : List (SensorWatch N)) : List (SensorWatch N) :=
  watches.mapIdx fun i watch => watch.checked now (readings i)

/-! The note is read back. -/

namespace F64

theorem ofJson_toJson (x : F64 N) : ofJson N x.toJson = some x := by
  obtain ⟨literal, canon⟩ := x
  unfold ofJson toJson
  dsimp only
  split
  · rename_i canon' hcanon
    obtain rfl := Option.some.inj (hcanon.symm.trans canon)
    rfl
  · rename_i hnone
    rw [canon] at hnone
    cases hnone

theorem isNumber (x : F64 N) : Json.isNumber x.literal = true := N.isNumber_canon x.canon

end F64

namespace SensorWatch

variable (watch : SensorWatch N)

theorem printed_toJson : watch.toJson.Printed := by
  have hlast : ((watch.lastValue.map F64.toJson).getD .null).Printed := by
    cases watch.lastValue with
    | none => trivial
    | some x => exact x.isNumber
  exact ⟨rfl, rfl, rfl, rfl, rfl, isNumber_decimal _, rfl, rfl, rfl, watch.thresholdValue.isNumber, rfl, rfl, rfl, rfl,
    rfl, rfl, rfl, trivial, rfl, hlast, rfl, isNumber_decimal _, trivial⟩

theorem depth_toJson : watch.toJson.depth = 1 := by
  cases hlast : watch.lastValue with
  | none => simp [toJson, members, Json.depth, Json.depthMembers, jsonText, F64.toJson, hlast]
  | some x => simp [toJson, members, Json.depth, Json.depthMembers, jsonText, F64.toJson, hlast]

theorem optional_lastValue : Json.optionalField (F64.ofJson N) watch.members "last_value" = some watch.lastValue := by
  have hfield : Json.field watch.members "last_value".toList = some (some ((watch.lastValue.map F64.toJson).getD .null)) := rfl
  rw [Json.optionalField, hfield]
  cases watch.lastValue with
  | none => rfl
  | some x =>
    change (F64.ofJson N x.toJson).map some = some (some x)
    rw [F64.ofJson_toJson]
    rfl

theorem ofJson_toJson : ofJson N watch.toJson = some watch := by
  have htext (text : String) : asText (jsonText text) = some text := by
    simp [asText, jsonText, Json.asString, Json.string]
  have htypeName : Platform.Storage.asVariant ThresholdType.name thresholdTypes (jsonText watch.thresholdType.name) =
      some watch.thresholdType := by
    cases watch.thresholdType <;> decide
  have hid : Json.requiredField asText watch.members "id" = some watch.id := htext watch.id
  have hdeviceId : Json.requiredField asText watch.members "device_id" = some watch.deviceId := htext watch.deviceId
  have hinterval : Json.requiredField Json.asU64 watch.members "interval_secs" = some watch.intervalSecs.toNat :=
    asU64_decimal watch.intervalSecs.toNat_lt
  have htype : Json.requiredField (Platform.Storage.asVariant ThresholdType.name thresholdTypes) watch.members
      "threshold_type" = some watch.thresholdType := htypeName
  have hvalue : Json.requiredField (F64.ofJson N) watch.members "threshold_value" = some watch.thresholdValue :=
    watch.thresholdValue.ofJson_toJson
  have halert : Json.requiredField asText watch.members "alert_message" = some watch.alertMessage :=
    htext watch.alertMessage
  have hchannel : Json.requiredField asText watch.members "channel" = some watch.channel := htext watch.channel
  have hchatId : Json.requiredField asText watch.members "chat_id" = some watch.chatId := htext watch.chatId
  have henabled : Json.requiredField Json.asBool watch.members "enabled" = some watch.enabled := rfl
  have hcheck : Json.defaultField Json.asU64 0 watch.members "last_check_secs" = some watch.lastCheckSecs.toNat :=
    asU64_decimal watch.lastCheckSecs.toNat_lt
  rw [ofJson, toJson, Json.asObj, hid, hdeviceId, hinterval, htype, hvalue, halert, hchannel, hchatId, henabled,
    watch.optional_lastValue, hcheck]
  simp only [Option.bind_eq_bind, Option.bind_some, UInt64.ofNat_toNat]
  rfl

end SensorWatch

section
variable (watches : List (SensorWatch N))
include watches

theorem printed_watches :
    (Json.arr (watches.map SensorWatch.toJson)).Printed ∧ (Json.arr (watches.map SensorWatch.toJson)).depth ≤ serdeMaxDepth := by
  suffices h : Json.PrintedItems (watches.map SensorWatch.toJson) ∧ Json.depthItems (watches.map SensorWatch.toJson) ≤ 1 by
    refine ⟨h.1, ?_⟩
    rw [Json.depth, serdeMaxDepth]
    omega
  induction watches with
  | nil => exact ⟨trivial, by simp [Json.depthItems]⟩
  | cons watch watches ih =>
    refine ⟨⟨watch.printed_toJson, ih.1⟩, ?_⟩
    rw [List.map_cons, Json.depthItems, watch.depth_toJson]
    exact Nat.max_le.mpr ⟨Nat.le_refl 1, ih.2⟩

theorem mapM_ofJson_toJson : (watches.map SensorWatch.toJson).mapM (SensorWatch.ofJson N) = some watches := by
  induction watches with
  | nil => rfl
  | cons watch watches ih => simp [SensorWatch.ofJson_toJson, ih]

theorem watchesFromStr_toString : watchesFromStr N (watchesToString watches) = some watches := by
  obtain ⟨hprinted, hdepth⟩ := printed_watches watches
  have hread := Json.fromStr_print .pretty hprinted hdepth 0 Json.spaces_nil Json.spaces_nil
  rw [List.append_nil, List.nil_append] at hread
  rw [watchesFromStr, watchesToString, hread, Option.bind_some, Json.asArr, mapM_ofJson_toJson]

theorem watchesToString_ne_nil : watchesToString watches ≠ [] := by
  obtain ⟨c, text, hprint, -⟩ := Json.print_eq_cons .pretty 0 (printed_watches watches).1
  rw [watchesToString, hprint]
  exact List.cons_ne_nil c text

end

/-- A note that is not there yet, or as it is saved. -/
def NoteHolds (note : Option (List Char)) (watches : List (SensorWatch N)) : Prop :=
  (note = none ∧ watches = []) ∨ note = some (watchesToString watches)

section
variable {note : Option (List Char)} {watches : List (SensorWatch N)}

theorem NoteHolds.loadSensorWatches (h : NoteHolds note watches) (readFails : Bool) :
    loadSensorWatches N note readFails = if readFails then [] else watches := by
  cases readFails with
  | true => rfl
  | false =>
    rcases h with ⟨rfl, rfl⟩ | rfl
    · rfl
    · simp [SensorWatches.loadSensorWatches, getDailyNote, watchesToString_ne_nil, watchesFromStr_toString]

theorem NoteHolds.loadWatches (h : NoteHolds note watches) (tool : SensorWatchTool) (readFails : Bool) :
    tool.loadWatches N note readFails = .ok (if readFails then [] else watches) := by
  cases readFails with
  | true => rfl
  | false =>
    rcases h with ⟨rfl, rfl⟩ | rfl
    · rfl
    · simp [SensorWatchTool.loadWatches, getDailyNote, watchesToString_ne_nil, watchesFromStr_toString]

end

end Beetle.Tools.SensorWatches
