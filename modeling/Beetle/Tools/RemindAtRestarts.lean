import Beetle.Lib.Pool
import Beetle.Platform.RemindAtStore
import Beetle.Tools.RemindAt

/-! The reminders that a process schedules beside those that it found in its file. -/
namespace Beetle.Tools.RemindAt
open Beetle.Lib Beetle.Reminder Beetle.Calendar Beetle.Platform.Storage

/-- The id that `next_reminder_id` makes of a value of its counter, which starts at 1. -/
def reminderId (seq : Nat) : String := "rem_" ++ toString seq

/-- What happens to the reads and writes of the calls that an operation makes on the store. -/
structure StoreFaults where
  get : Faults
  upsert : Faults
  delete : Faults

/-- The store of reminders as the tool uses it in one operation. -/
def storageStore (store : CachedJsonFileStore (List ReminderItem)) (faults : StoreFaults) :
    RemindAtStore (StoreState (List ReminderItem)) where
  get s channel chatId id := StorageRemindAtStore.get store s faults.get channel chatId id
  upsert s reminder := StorageRemindAtStore.upsert store s faults.upsert reminder
  delete s channel chatId id := StorageRemindAtStore.delete store s faults.delete channel chatId id

/-- A reminder is stored under its chat and its id. -/
structure ReminderKey where
  channel : String
  chatId : String
  id : String

def keyOf (item : ReminderItem) : ReminderKey := ⟨item.channel, item.chatId, item.id⟩

/-- The device over its restarts. Beside the stores and the counter there are the number of ids
taken since the last restart, the keys of the reminders scheduled since then, and of the last
operation, if it was a schedule that went through, the store before it and the reminder. -/
structure Device (σ : Type) where
  reminders : StoreState (List ReminderItem)
  calendars : σ
  reminderSeq : Nat
  taken : Nat
  named : List ReminderKey
  last : Option (StoreState (List ReminderItem) × ReminderItem)

def Device.start {σ : Type} (disk : Option Bytes) (calendars : σ) : Device σ :=
  ⟨⟨none, disk⟩, calendars, 1, 0, [], none⟩

inductive RemindOp where
  | schedule (channel chatId : String) (obj : ToolArgs) (nowSecs : Nat)
  | update (channel chatId : String) (obj : ToolArgs) (nowSecs : Nat)
  | delete (channel chatId : String) (obj : ToolArgs)
  | popDue (nowSecs : Nat)
  | restart

/-- The counter after a schedule: it moves on once the request is complete. -/
def seqAfter (obj : ToolArgs) (seq : Nat) : Nat :=
  match scheduleRequest obj with
  | .ok _ => fetchAdd 32 seq
  | .error _ => seq

def takenAfter (obj : ToolArgs) (taken : Nat) : Nat :=
  match scheduleRequest obj with
  | .ok _ => taken + 1
  | .error _ => taken

def namedAfter (named : List ReminderKey) : Except RemindStop ReminderItem → List ReminderKey
  | .ok reminder => keyOf reminder :: named
  | .error _ => named

/-- The device after a schedule that came out like this. -/
def Device.scheduled {σ : Type} (d : Device σ) (obj : ToolArgs)
    (outcome : StoreState (List ReminderItem) × σ × Except RemindStop ReminderItem) : Device σ where
  reminders := outcome.1
  calendars := outcome.2.1
  reminderSeq := seqAfter obj d.reminderSeq
  taken := takenAfter obj d.taken
  named := namedAfter d.named outcome.2.2
  last := outcome.2.2.toOption.map fun reminder => (d.reminders, reminder)

section
variable {σ : Type} (store : CachedJsonFileStore (List ReminderItem)) (localCalendarStore : Option (CalendarStore σ))
  (calendarService : Option (CalendarService σ))

def toolWith (faults : StoreFaults) : RemindAtTool (StoreState (List ReminderItem)) σ :=
  ⟨storageStore store faults, localCalendarStore, calendarService⟩

@[grind =] def step (d : Device σ) : RemindOp × StoreFaults → Option (Device σ)
  | (.schedule channel chatId obj nowSecs, faults) =>
    some (d.scheduled obj ((toolWith store localCalendarStore calendarService faults).executeSchedule
      d.reminders d.calendars channel chatId obj (reminderId d.reminderSeq) nowSecs))
  | (.update channel chatId obj nowSecs, faults) =>
    let (reminders, calendars, _) := (toolWith store localCalendarStore calendarService faults).executeUpdate
      d.reminders d.calendars channel chatId obj nowSecs
    some { d with reminders, calendars, last := none }
  | (.delete channel chatId obj, faults) =>
    let (reminders, calendars, _) := (toolWith store localCalendarStore calendarService faults).executeDelete
      d.reminders d.calendars channel chatId obj
    some { d with reminders, calendars, last := none }
  | (.popDue nowSecs, faults) =>
    some { d with reminders := (StorageRemindAtStore.popDue store d.reminders faults.get nowSecs).1, last := none }
  | (.restart, _) => some (.start d.reminders.disk d.calendars)

/-- A schedule that went through added its reminder to those stored, and its key was not there. -/
def Adds (d : Device σ) : Prop :=
  ∀ before reminder, d.last = some (before, reminder) → ∃ items items',
    store.cachedValue before = .ok items ∧ store.cachedValue d.reminders = .ok items' ∧
      items'.Perm (reminder :: items) ∧ ∀ item ∈ items, keyOf item ≠ keyOf reminder

/-- The key that a schedule for this chat takes now. -/
def nextKey (d : Device σ) (channel chatId : String) : ReminderKey where
  channel := Reminder.normalizeField channel maxReminderChannelChars
  chatId := Reminder.normalizeField chatId maxReminderChatIdChars
  id := reminderId d.reminderSeq

/-- The counter has not come round since the restart, and no reminder that is left from before
it has the number that the counter is at in the chat of the schedule. -/
def NoneLeftOver (d : Device σ) : RemindOp × StoreFaults → Prop
  | (.schedule channel chatId obj _, _) => (∃ request, scheduleRequest obj = .ok request) → d.taken < 2 ^ 32 ∧
      ∀ items, store.cachedValue d.reminders = .ok items →
        ∀ item ∈ items, keyOf item = nextKey d channel chatId → keyOf item ∈ d.named
  | _ => True

end

theorem toList_reminderId (seq : Nat) : (reminderId seq).toList = ['r', 'e', 'm', '_'] ++ Lib.decimal seq := by
  rw [reminderId, String.toList_append, Nat.toString_eq_repr, Nat.toList_repr]
  rfl

theorem reminderId_injective : Function.Injective reminderId := by
  intro a b h
  have htext := congrArg String.toList h
  rw [toList_reminderId, toList_reminderId, List.append_cancel_left_eq] at htext
  have hvalue := congrArg (fun digits => Nat.ofDigitChars 10 digits 0) htext
  simpa only [Lib.decimal, Nat.ofDigitChars_ten_toDigits] using hvalue

/-- Such an id is short and is not trimmed. -/
theorem normalizeField_reminderId {seq : Nat} (h : seq < 2 ^ 32) :
    Reminder.normalizeField (reminderId seq) maxReminderIdChars = reminderId seq := by
  apply normalizeField_eq_self
  · unfold Trimmed trimStr
    rw [toList_reminderId, trim_eq_trimEnds, trimEnds_eq_self, ← toList_reminderId, String.ofList_toList]
    · intro c hc
      cases hc
      decide
    · intro c hc
      rw [List.getLast?_append_of_ne_nil _ (Lib.decimal_ne_nil seq)] at hc
      exact isWhitespace_of_isDigit (isDigit_of_mem_decimal (List.mem_of_getLast? hc))
  · have hdigits : (Lib.decimal seq).length ≤ 10 :=
      (Nat.length_toDigits_le_iff (by decide) (by decide)).mpr (h.trans (by decide))
    rw [toList_reminderId, List.length_append]
    exact (Nat.add_le_add_left hdigits 4).trans (by decide)

theorem hasKey_iff {channel chatId id : String} {item : ReminderItem} :
    hasKey channel chatId id item = true ↔ keyOf item = ⟨channel, chatId, id⟩ := by
  simp [hasKey, keyOf, and_assoc]

section
variable {store : CachedJsonFileStore (List ReminderItem)} {s : StoreState (List ReminderItem)} {faults : Faults}
  {items list : List ReminderItem} {reminder : ReminderItem} {changed : Bool}

/-- A reminder with a new key is added to the others. -/
theorem perm_of_upsertReminder (h : upsertReminder items reminder = .ok (list, changed))
    (hfresh : ∀ item ∈ items, keyOf item ≠ keyOf reminder) : list.Perm (reminder :: items) := by
  have hnone : items.find? (hasKey reminder.channel reminder.chatId reminder.id) = none :=
    List.find?_eq_none.mpr fun item hitem hkey => hfresh item hitem (hasKey_iff.mp hkey)
  simp only [upsertReminder, hnone] at h
  split at h
  · cases h
  · cases h
    exact (List.mergeSort_perm _ _).trans (List.perm_append_singleton reminder items)

theorem upsert_of_normal {normal : ReminderItem} (h : normalizeReminderItem reminder = .ok normal) :
    StorageRemindAtStore.upsert store s faults reminder =
      ((store.withCachedMut s faults (StorageRemindAtStore.upsertClosure normal)).1,
        (store.withCachedMut s faults (StorageRemindAtStore.upsertClosure normal)).2.map fun _ => ()) := by
  unfold StorageRemindAtStore.upsert
  rw [h]

theorem upsert_adds (hnormal : normalizeReminderItem reminder = .ok reminder)
    (hok : (StorageRemindAtStore.upsert store s faults reminder).2 = .ok ())
    (hfresh : ∀ items, store.cachedValue s = .ok items → ∀ item ∈ items, keyOf item ≠ keyOf reminder) :
    ∃ items items', store.cachedValue s = .ok items ∧
      store.cachedValue (StorageRemindAtStore.upsert store s faults reminder).1 = .ok items' ∧
        items'.Perm (reminder :: items) ∧ ∀ item ∈ items, keyOf item ≠ keyOf reminder := by
  rw [upsert_of_normal hnormal] at hok ⊢
  obtain ⟨changed, hchanged⟩ : ∃ changed,
      (store.withCachedMut s faults (StorageRemindAtStore.upsertClosure reminder)).2 = .ok changed := by
    cases hresult : (store.withCachedMut s faults (StorageRemindAtStore.upsertClosure reminder)).2 with
    | ok changed => exact ⟨changed, rfl⟩
    | error e =>
      rw [hresult] at hok
      cases hok
  obtain ⟨items, op, hseen, hclosure, -⟩ := store.withCachedMut_eq_ok hchanged
  have hafter := store.cachedValue_withCachedMut (StorageRemindAtStore.upsertClosure reminder) hseen
  have hnew := hfresh items (store.seen_eq_ok hseen)
  cases hupsert : upsertReminder items reminder with
  | error e =>
    rw [StorageRemindAtStore.upsertClosure, hupsert] at hclosure
    cases hclosure
  | ok edited =>
    refine ⟨items, edited.1, store.seen_eq_ok hseen, ?_, perm_of_upsertReminder hupsert hnew, hnew⟩
    rw [hafter, StorageRemindAtStore.upsertClosure, hupsert]

end

section
variable {ρ σ : Type} {tool : RemindAtTool ρ σ} {reminders : ρ} {calendars : σ} {channel chatId id : String}
  {obj : ToolArgs} {nowSecs : Nat}

theorem prepareSchedule_eq_ok {draft reminder : ReminderItem}
    (h : (tool.prepareSchedule calendars obj draft).2 = .ok reminder) :
    ∃ linked, clearCalendarLink linked = clearCalendarLink draft ∧ normalizeReminderItem linked = .ok reminder := by
  unfold RemindAtTool.prepareSchedule at h
  split at h
  · cases h
  · rename_i asked hasked
    split at h
    · cases h
    · rename_i linked hlinked
      refine ⟨linked, ?_, ?_⟩
      · rw [RemindAtTool.clearCalendarLink_of_applyCalendarLink hlinked, clearCalendarLink_of_populate hasked]
      · cases hnormal : normalizeReminderItem linked with
        | error e =>
          rw [hnormal] at h
          cases h
        | ok normal =>
          rw [hnormal] at h
          rw [Except.ok.inj h]

/-- A schedule that goes through stores the reminder that it answers. -/
theorem executeSchedule_eq_ok {reminder : ReminderItem}
    (h : (tool.executeSchedule reminders calendars channel chatId obj id nowSecs).2.2 = .ok reminder) :
    (∃ request, scheduleRequest obj = .ok request) ∧ (tool.store.upsert reminders reminder).2 = .ok () ∧
      (tool.executeSchedule reminders calendars channel chatId obj id nowSecs).1 =
        (tool.store.upsert reminders reminder).1 ∧
      normalizeReminderItem reminder = .ok reminder ∧
      keyOf reminder = ⟨Reminder.normalizeField channel maxReminderChannelChars,
        Reminder.normalizeField chatId maxReminderChatIdChars, Reminder.normalizeField id maxReminderIdChars⟩ := by
  unfold RemindAtTool.executeSchedule at h ⊢
  split at h
  · cases h
  · rename_i atSecs context hrequest
    split at h
    · cases h
    · rename_i after prepared hprepared
      have hsame : prepared = reminder ∧ (tool.store.upsert reminders prepared).2 = .ok () := by
        simp only [RemindAtTool.storeReminder] at h
        cases hstored : (tool.store.upsert reminders prepared).2 with
        | error e =>
          rw [hstored] at h
          cases h
        | ok _ =>
          rw [hstored] at h
          exact ⟨Except.ok.inj h, rfl⟩
      obtain ⟨rfl, hstored⟩ := hsame
      obtain ⟨linked, hclear, hnormal⟩ := prepareSchedule_eq_ok (congrArg Prod.snd hprepared)
      refine ⟨⟨_, hrequest⟩, hstored, ?_, normalizeReminderItem_idem hnormal, ?_⟩
      · rfl
      · obtain ⟨-, rfl⟩ := acceptable_of_normalizeReminderItem hnormal
        have hid : linked.id = id := congrArg ReminderItem.id hclear
        have hchannel : linked.channel = channel := congrArg ReminderItem.channel hclear
        have hchat : linked.chatId = chatId := congrArg ReminderItem.chatId hclear
        simp only [keyOf, normalForm, hid, hchannel, hchat]

end

/-- The number that the id of that place has, counted from the restart. -/
def seqAt (i : Nat) : Nat := (1 + i) % 2 ^ 32

theorem seqAt_lt (i : Nat) : seqAt i < 2 ^ 32 := Nat.mod_lt _ (Nat.two_pow_pos 32)

theorem seqAt_ne {i n : Nat} (hlt : i < n) (hn : n < 2 ^ 32) : seqAt i ≠ seqAt n := by
  unfold seqAt
  omega

/-- The ids given since the restart are those of the numbers before that of the counter. -/
structure Numbered {σ : Type} (d : Device σ) : Prop where
  seq : d.reminderSeq = seqAt d.taken
  named : ∀ key ∈ d.named, ∃ i < d.taken, key.id = reminderId (seqAt i)

section
variable {σ : Type} {store : CachedJsonFileStore (List ReminderItem)} {localCalendarStore : Option (CalendarStore σ)}
  {calendarService : Option (CalendarService σ)} {d t : Device σ}

/-- The counter and the ids given are as before, or one more id is taken and may be given. -/
theorem Numbered.next (hd : Numbered d) (obj : ToolArgs) {named : List ReminderKey}
    (hnamed : ∀ key ∈ named, key ∈ d.named ∨
      (∃ request, scheduleRequest obj = .ok request) ∧ key.id = reminderId d.reminderSeq)
    {reminders : StoreState (List ReminderItem)} {calendars : σ}
    {last : Option (StoreState (List ReminderItem) × ReminderItem)} :
    Numbered ⟨reminders, calendars, seqAfter obj d.reminderSeq, takenAfter obj d.taken, named, last⟩ := by
  unfold seqAfter takenAfter
  cases hrequest : scheduleRequest obj with
  | error stop =>
    refine ⟨hd.seq, fun key hkey => ?_⟩
    rcases hnamed key hkey with hold | ⟨⟨request, hok⟩, -⟩
    · exact hd.named key hold
    · rw [hrequest] at hok
      cases hok
  | ok request =>
    refine ⟨?_, fun key hkey => ?_⟩
    · show fetchAdd 32 d.reminderSeq = seqAt (d.taken + 1)
      rw [hd.seq, seqAt, fetchAdd_mod, seqAt, Nat.add_assoc]
    · rcases hnamed key hkey with hold | ⟨-, hid⟩
      · obtain ⟨i, hi, hid⟩ := hd.named key hold
        exact ⟨i, Nat.lt_succ_of_lt hi, hid⟩
      · exact ⟨d.taken, Nat.lt_succ_self _, by rw [hid, hd.seq]⟩

theorem upsert_toolWith (faults : StoreFaults) (s : StoreState (List ReminderItem)) (reminder : ReminderItem) :
    (toolWith store localCalendarStore calendarService faults).store.upsert s reminder =
      StorageRemindAtStore.upsert store s faults.upsert reminder := by
  simp only [toolWith, storageStore]

theorem adds_of_last {before : StoreState (List ReminderItem)} {reminder : ReminderItem}
    (hlast : d.last = some (before, reminder))
    (h : ∃ items items', store.cachedValue before = .ok items ∧ store.cachedValue d.reminders = .ok items' ∧
      items'.Perm (reminder :: items) ∧ ∀ item ∈ items, keyOf item ≠ keyOf reminder) : Adds store d := by
  intro before' reminder' h'
  rw [hlast] at h'
  obtain ⟨rfl, rfl⟩ := Prod.mk.inj (Option.some.inj h')
  exact h

theorem numbered_start (disk : Option Bytes) (calendars : σ) : Numbered (Device.start disk calendars) :=
  ⟨rfl, fun _ hkey => absurd hkey List.not_mem_nil⟩

/-- A step leaves the ids numbered; where nothing is left over, a schedule adds its reminder. -/
theorem step_keeps (hd : Numbered d) {a : RemindOp × StoreFaults} (hc : NoneLeftOver store d a)
    (ht : step store localCalendarStore calendarService d a = some t) : Numbered t ∧ Adds store t := by
  obtain ⟨op, faults⟩ := a
  cases op with
  | schedule channel chatId obj nowSecs =>
    obtain rfl := Option.some.inj ht
    unfold Device.scheduled
    cases hresult : ((toolWith store localCalendarStore calendarService faults).executeSchedule d.reminders d.calendars
        channel chatId obj (reminderId d.reminderSeq) nowSecs).2.2 with
    | error stop => exact ⟨hd.next obj fun key hmem => .inl hmem, fun before reminder h => by cases h⟩
    | ok reminder =>
      obtain ⟨hrequest, hstored, hafter, hnormal, hkey⟩ := executeSchedule_eq_ok hresult
      rw [normalizeField_reminderId (hd.seq ▸ seqAt_lt d.taken)] at hkey
      obtain ⟨htaken, hleft⟩ := hc hrequest
      have hfresh : ∀ items, store.cachedValue d.reminders = .ok items → ∀ item ∈ items, keyOf item ≠ keyOf reminder := by
        intro items hitems item hitem heq
        have hgiven := hleft items hitems item hitem (heq.trans hkey)
        obtain ⟨i, hi, hid⟩ := hd.named _ hgiven
        rw [heq, hkey, hd.seq] at hid
        exact seqAt_ne hi htaken (reminderId_injective hid).symm
      rw [upsert_toolWith] at hstored hafter
      rw [hafter]
      constructor
      · apply hd.next obj
        intro key hmem
        rcases List.mem_cons.mp hmem with rfl | hold
        · exact .inr ⟨hrequest, congrArg ReminderKey.id hkey⟩
        · exact .inl hold
      · have hadds := @upsert_adds store d.reminders faults.upsert reminder hnormal hstored hfresh
        apply adds_of_last rfl
        simpa only using hadds
  | update channel chatId obj nowSecs =>
    obtain rfl := Option.some.inj ht
    exact ⟨⟨hd.seq, hd.named⟩, fun before reminder h => by cases h⟩
  | delete channel chatId obj =>
    obtain rfl := Option.some.inj ht
    exact ⟨⟨hd.seq, hd.named⟩, fun before reminder h => by cases h⟩
  | popDue nowSecs =>
    obtain rfl := Option.some.inj ht
    exact ⟨⟨hd.seq, hd.named⟩, fun before reminder h => by cases h⟩
  | restart =>
    obtain rfl := Option.some.inj ht
    exact ⟨numbered_start _ _, fun before reminder h => by cases h⟩

end

/-- Where no schedule finds its number with a reminder from before the restart, every one that
goes through adds one reminder and leaves the others as they are. -/
theorem schedules_add_of_none_left_over {σ : Type} (store : CachedJsonFileStore (List ReminderItem))
    (localCalendarStore : Option (CalendarStore σ)) (calendarService : Option (CalendarService σ))
    (disk : Option Bytes) (calendars : σ) (run : List (RemindOp × StoreFaults))
    (hrun : Meets (step store localCalendarStore calendarService) (NoneLeftOver store) run (.start disk calendars)) :
    Always (step store localCalendarStore calendarService) (Adds store) run (.start disk calendars) := by
  apply always_of_meets (I := fun d => Numbered d ∧ Adds store d)
  · exact fun d a t hd hc ht => step_keeps hd.1 hc ht
  · exact fun d hd => hd.2
  · exact ⟨numbered_start disk calendars, fun before reminder h => by cases h⟩
  · exact hrun

/-- The JSON library on the empty list and on those of a table. -/
def tableCodec (table : List (List ReminderItem × Bytes)) (hlong : ∀ e ∈ table, 2 < e.2.length)
    (hdistinct : table.Pairwise fun e e' => e.2 ≠ e'.2) : RemindAtCodec where
  toVec list :=
    if list = [] then .ok [91, 93]
    else
      match table.find? (·.1 = list) with
      | some e => .ok e.2
      | none => .error "not written here"
  fromSlice buf := if buf = [91, 93] then some [] else (table.find? (·.2 = buf)).map Prod.fst
  legacyFromSlice _ := none
  fromSlice_toVec list json h := by
    split at h
    · rename_i hempty
      cases h
      rw [if_pos rfl, hempty]
    · split at h
      · rename_i e hfind
        cases h
        have hmem := List.mem_of_find?_eq_some hfind
        have hne : e.2 ≠ [91, 93] := fun heq => absurd (heq ▸ hlong e hmem) (by decide)
        have hfound : table.find? (·.2 = e.2) = some e := by
          clear hfind hlong
          induction table with
          | nil => cases hmem
          | cons first rest ih =>
            rw [List.pairwise_cons] at hdistinct
            rcases List.mem_cons.mp hmem with rfl | hmem
            · simp
            · rw [List.find?_cons_of_neg (by simpa using hdistinct.1 e hmem), ih hdistinct.2 hmem]
        rw [if_neg hne, hfound, Option.map_some]
        exact congrArg some (by simpa using List.find?_some hfind)
      · cases h
  short list json h hshort := by
    split at h
    · assumption
    · split at h
      · rename_i e hfind
        cases h
        exact absurd (hlong e (List.mem_of_find?_eq_some hfind)) (Nat.not_lt.mpr hshort)
      · cases h

theorem desiredCalendarProvider_of_empty {reminder : ReminderItem} (h : reminder.calendarProvider = "") :
    desiredCalendarProvider reminder = none := by
  rw [desiredCalendarProvider, h]
  exact if_pos (by decide)

@[simp] theorem mapError_ok {ε ε' α : Type} (f : ε → ε') (a : α) :
    (Except.ok a : Except ε α).mapError f = .ok a := rfl

variable {obj : ToolArgs}

theorem prepareSchedule_of_ok {ρ σ : Type} {tool : RemindAtTool ρ σ} {calendars calendars' : σ}
    {draft asked left linked reminder : ReminderItem}
    (hpopulate : populateCalendarRequest draft obj draft.atUnixSecs = .ok asked)
    (hlink : tool.applyCalendarLink calendars asked .default = (calendars', left, .ok linked))
    (hform : normalizeReminderItem linked = .ok reminder) :
    tool.prepareSchedule calendars obj draft = (calendars', .ok reminder) := by
  unfold RemindAtTool.prepareSchedule
  simp only [hpopulate, hlink, hform, mapError_ok]

/-- A schedule whose request asks for no calendar event. -/
theorem executeSchedule_plain {ρ σ : Type} {tool : RemindAtTool ρ σ} {atSecs : Nat} {context : String}
    (hrequest : (scheduleRequest obj).toOption = some (atSecs, context)) (hplain : explicitCalendarSignal obj = false)
    (reminders : ρ) (calendars : σ) {channel chatId id : String} {nowSecs : Nat} {draft : ReminderItem}
    (hdraft : newReminder id channel chatId atSecs context nowSecs = draft)
    (hnormal : (normalizeReminderItem draft).toOption = some draft) :
    tool.executeSchedule reminders calendars channel chatId obj id nowSecs =
      ((tool.storeReminder reminders draft).1, calendars, (tool.storeReminder reminders draft).2) := by
  have hform : normalizeReminderItem draft = .ok draft := eq_ok_of_toOption hnormal
  have hpopulate : populateCalendarRequest draft obj draft.atUnixSecs = .ok draft := by
    simp only [populateCalendarRequest, hplain, if_true]
  have hnone : desiredCalendarProvider draft = none := by
    apply desiredCalendarProvider_of_empty
    simp only [← hdraft, newReminder, ReminderItem.default]
  have hempty : ReminderCalendarLink.default.isEmpty = true := by decide
  have hclear : clearCalendarLink draft = draft := by
    simp only [← hdraft, clearCalendarLink, newReminder, ReminderItem.default]
  have hlink : tool.applyCalendarLink calendars draft .default = (calendars, draft, .ok draft) := by
    simp only [RemindAtTool.applyCalendarLink, hnone, RemindAtTool.deleteCalendarLink, hempty, if_true, hclear]
  have hprepare := prepareSchedule_of_ok hpopulate hlink hform
  unfold RemindAtTool.executeSchedule
  simp only [eq_ok_of_toOption hrequest, hdraft, hprepare]

def morningReminder : ReminderItem := newReminder (reminderId 1) "qq" "c" 100 "call" 50
def eveningReminder : ReminderItem := newReminder (reminderId 1) "qq" "c" 200 "rent" 60

def reminderJson (time context updated : String) : Bytes :=
  bytes ("[\x7b\"id\":\"rem_1\",\"channel\":\"qq\",\"chat_id\":\"c\",\"at_unix_secs\":" ++ time ++
    ",\"context\":\"" ++ context ++ "\",\"calendar_start_at_unix_secs\":0,\"calendar_end_at_unix_secs\":0," ++
    "\"calendar_timezone\":\"\",\"calendar_location\":\"\",\"calendar_notes\":\"\",\"updated_at\":" ++ updated ++ "\x7d]")

def morningJson : Bytes := reminderJson "100" "call" "50"
def eveningJson : Bytes := reminderJson "200" "rent" "60"

def dayStore : CachedJsonFileStore (List ReminderItem) :=
  StorageRemindAtStore.new (tableCodec [([morningReminder], morningJson), ([eveningReminder], eveningJson)]
    (by decide +kernel) (by decide +kernel)) maxWriteSizeHost

def callArgs : ToolArgs :=
  [(Json.string "at".toList, .num ['1', '0', '0']), (Json.string "context".toList, .str (Json.string "call".toList))]

def rentArgs : ToolArgs :=
  [(Json.string "at".toList, .num ['2', '0', '0']), (Json.string "context".toList, .str (Json.string "rent".toList))]

def noFaults : StoreFaults := ⟨StorageRemindAtStore.healthy, StorageRemindAtStore.healthy, StorageRemindAtStore.healthy⟩

def dayTool : RemindAtTool (StoreState (List ReminderItem)) Unit := toolWith dayStore none none noFaults

theorem normalize_morningReminder : (normalizeReminderItem morningReminder).toOption = some morningReminder := by
  decide

theorem normalize_eveningReminder : (normalizeReminderItem eveningReminder).toOption = some eveningReminder := by
  decide

theorem scheduleRequest_call : (scheduleRequest callArgs).toOption = some (100, "call") := by decide
theorem scheduleRequest_rent : (scheduleRequest rentArgs).toOption = some (200, "rent") := by decide

theorem executeSchedule_call (reminders : StoreState (List ReminderItem)) :
    dayTool.executeSchedule reminders () "qq" "c" callArgs (reminderId 1) 50 =
      ((dayTool.storeReminder reminders morningReminder).1, (), (dayTool.storeReminder reminders morningReminder).2) :=
  executeSchedule_plain scheduleRequest_call (by decide) reminders () rfl normalize_morningReminder

theorem executeSchedule_rent (reminders : StoreState (List ReminderItem)) :
    dayTool.executeSchedule reminders () "qq" "c" rentArgs (reminderId 1) 60 =
      ((dayTool.storeReminder reminders eveningReminder).1, (), (dayTool.storeReminder reminders eveningReminder).2) :=
  executeSchedule_plain scheduleRequest_rent (by decide) reminders () rfl normalize_eveningReminder

theorem storeReminder_written {disk : Option Bytes} {items : List ReminderItem} {item : ReminderItem} {json : Bytes}
    (hload : dayStore.loadFromDisk disk none = .ok items) (hupsert : upsertReminder items item = .ok ([item], true))
    (hform : (normalizeReminderItem item).toOption = some item) (hjson : dayStore.toVec [item] = .ok json)
    (hsize : json.length ≤ dayStore.maxWriteSize) :
    dayTool.storeReminder ⟨none, disk⟩ item = (⟨some [item], some json⟩, .ok item) := by
  have hclosure : StorageRemindAtStore.upsertClosure item items = ([item], .ok (.changed true)) := by
    rw [StorageRemindAtStore.upsertClosure, hupsert]
    rfl
  have hwritten : dayStore.withCachedMut ⟨none, disk⟩ StorageRemindAtStore.healthy (StorageRemindAtStore.upsertClosure item) =
      (⟨some [item], some json⟩, .ok true) :=
    dayStore.withCachedMut_of_written hload hclosure hjson hsize rfl
  unfold RemindAtTool.storeReminder
  rw [dayTool, upsert_toolWith, upsert_of_normal (eq_ok_of_toOption hform)]
  simp only [noFaults, hwritten, Except.map, mapError_ok]

theorem storeReminder_morning : dayTool.storeReminder ⟨none, none⟩ morningReminder =
    (⟨some [morningReminder], some morningJson⟩, .ok morningReminder) := by
  have hupsert : upsertReminder [] morningReminder = .ok ([morningReminder], true) := by
    unfold upsertReminder
    exact congrArg (fun list => Except.ok (list, true)) (List.mergeSort_singleton _)
  exact storeReminder_written rfl hupsert normalize_morningReminder (by decide +kernel) (by decide +kernel)

theorem storeReminder_evening : dayTool.storeReminder ⟨none, some morningJson⟩ eveningReminder =
    (⟨some [eveningReminder], some eveningJson⟩, .ok eveningReminder) := by
  have hload : dayStore.loadFromDisk (some morningJson) none = .ok [morningReminder] :=
    eq_ok_of_toOption (by decide +kernel)
  have hupsert : upsertReminder [morningReminder] eveningReminder = .ok ([eveningReminder], true) :=
    eq_ok_of_toOption (by decide +kernel)
  exact storeReminder_written hload hupsert normalize_eveningReminder (by decide +kernel) (by decide +kernel)

theorem seqAfter_of_request {request : Nat × String} (h : (scheduleRequest obj).toOption = some request) (n : Nat) :
    seqAfter obj n = fetchAdd 32 n ∧ takenAfter obj n = n + 1 := by
  simp only [seqAfter, takenAfter, eq_ok_of_toOption h, and_self]

/-- The device is restarted between the two schedules, and the second takes the id of the first. -/
def acrossRestart : List (RemindOp × StoreFaults) :=
  [(.schedule "qq" "c" callArgs 50, noFaults), (.restart, noFaults), (.schedule "qq" "c" rentArgs 60, noFaults)]

/-- The device after one of these schedules. -/
def dayDevice (before : StoreState (List ReminderItem)) (item : ReminderItem) (json : Bytes) : Device Unit where
  reminders := ⟨some [item], some json⟩
  calendars := ()
  reminderSeq := 2
  taken := 1
  named := [keyOf item]
  last := some (before, item)

theorem step_call : step dayStore none none (.start none ()) (.schedule "qq" "c" callArgs 50, noFaults) =
    some (dayDevice ⟨none, none⟩ morningReminder morningJson) := by
  have hseq := seqAfter_of_request scheduleRequest_call
  show some (Device.scheduled _ callArgs
    (dayTool.executeSchedule ⟨none, none⟩ () "qq" "c" callArgs (reminderId 1) 50)) = _
  rw [executeSchedule_call, storeReminder_morning]
  simp only [Device.scheduled, hseq]
  rfl

theorem step_rent : step dayStore none none (.start (some morningJson) ()) (.schedule "qq" "c" rentArgs 60, noFaults) =
    some (dayDevice ⟨none, some morningJson⟩ eveningReminder eveningJson) := by
  have hseq := seqAfter_of_request scheduleRequest_rent
  show some (Device.scheduled _ rentArgs
    (dayTool.executeSchedule ⟨none, some morningJson⟩ () "qq" "c" rentArgs (reminderId 1) 60)) = _
  rw [executeSchedule_rent, storeReminder_evening]
  simp only [Device.scheduled, hseq]
  rfl

theorem exec_acrossRestart : exec (step dayStore none none) acrossRestart (.start none ()) =
    some (dayDevice ⟨none, some morningJson⟩ eveningReminder eveningJson) := by
  rw [acrossRestart, exec_cons, step_call, Option.bind_some, exec_cons]
  show Option.bind (some (Device.start (some morningJson) ())) _ = _
  rw [Option.bind_some, exec_cons, step_rent, Option.bind_some, exec_nil]

theorem schedule_after_restart_replaces : ¬ ∀ run : List (RemindOp × StoreFaults),
    Always (step dayStore none none) (Adds dayStore) run (.start none ()) := by
  intro hall
  have hadds := (hall acrossRestart).last exec_acrossRestart
  obtain ⟨items, items', hbefore, hafter, hperm, -⟩ := hadds _ _ rfl
  have hload : dayStore.loadFromDisk (some morningJson) none = .ok [morningReminder] :=
    eq_ok_of_toOption (by decide +kernel)
  obtain rfl : [morningReminder] = items := Except.ok.inj (hload.symm.trans hbefore)
  obtain rfl : [eveningReminder] = items' := Except.ok.inj hafter
  exact absurd hperm.length_eq (by decide)

theorem schedule_after_empty_restart_adds : Always (step dayStore none none) (Adds dayStore)
    [(.restart, noFaults), (.schedule "qq" "c" callArgs 50, noFaults), (.popDue 150, noFaults)] (.start none ()) := by
  apply schedules_add_of_none_left_over
  rintro t ht
  obtain rfl := Option.some.inj ht
  refine ⟨trivial, ?_⟩
  rintro t -
  refine ⟨fun _ => ⟨by decide, ?_⟩, fun _ _ => ⟨trivial, trivial⟩⟩
  intro items hitems item hitem
  obtain rfl : [] = items := Except.ok.inj hitems
  cases hitem

end Beetle.Tools.RemindAt
