import Beetle.Platform.CachedJson
import Beetle.Reminder
import Mathlib.Data.String.Basic

/-! The store of reminders: one list for all chats. -/
namespace Beetle.Platform.Storage
open Beetle.Lib Beetle.Reminder

def remindAtMaxEntries : Nat := 32

structure LegacyRemindEntry where
  channel : String
  chatId : String
  atUnixSecs : Nat
  context : String

/-- What the JSON library does for this store: it reads back what it wrote, and two bytes are
the brackets of the empty list. -/
structure RemindAtCodec where
  toVec : List ReminderItem → Except String Bytes
  fromSlice : Bytes → Option (List ReminderItem)
  legacyFromSlice : Bytes → Option (List LegacyRemindEntry)
  fromSlice_toVec : ∀ items json, toVec items = .ok json → fromSlice json = some items
  short : ∀ items json, toVec items = .ok json → json.length ≤ 2 → items = []

/-- An entry of the legacy file at its place there. -/
def upgradeLegacyEntry (legacy : LegacyRemindEntry) (index : Nat) : Option ReminderItem :=
  (normalizeReminderItem { ReminderItem.default with
    id := "legacy_rem_" ++ toString index
    channel := legacy.channel
    chatId := legacy.chatId
    atUnixSecs := legacy.atUnixSecs
    context := legacy.context }).toOption

def loadRemindersOrDefault (codec : RemindAtCodec) (buf : Except Error Bytes) (stage : String) :
    Except Error (List ReminderItem) :=
  match buf with
  | .ok buf =>
    if buf.length > 2 then
      match codec.fromSlice buf with
      | some items => .ok items
      | none =>
        match codec.legacyFromSlice buf with
        | some items => .ok (items.zipIdx.filterMap fun (legacy, index) => upgradeLegacyEntry legacy index)
        | none => .error (.config "invalid reminder cache json" stage)
    else .ok []
  | .error e => if e.isNotFound then .ok [] else .error (e.withStage stage)

/-- Whether the item has this key. -/
def hasKey (channel chatId id : String) (entry : ReminderItem) : Bool :=
  entry.channel = channel && entry.chatId = chatId && entry.id = id

/-- The order that `upsert` sorts by. -/
def comesBefore (left right : ReminderItem) : Bool :=
  left.atUnixSecs < right.atUnixSecs || left.atUnixSecs = right.atUnixSecs && left.id ≤ right.id

def sortReminders (list : List ReminderItem) : List ReminderItem := list.mergeSort comesBefore

def upsertReminder (list : List ReminderItem) (reminder : ReminderItem) : Except Error (List ReminderItem × Bool) :=
  let isIt := hasKey reminder.channel reminder.chatId reminder.id
  match list.find? isIt with
  | some existing =>
    if existing = reminder then .ok (list, false)
    else .ok (sortReminders (modifyFirst isIt (fun _ => reminder) list), true)
  | none =>
    if remindAtMaxEntries ≤ list.length then
      .error (.config ("reminder store full (max " ++ toString remindAtMaxEntries ++ ")") "remind_at_capacity")
    else .ok (sortReminders (list ++ [reminder]), true)

namespace StorageRemindAtStore

def new (codec : RemindAtCodec) (maxWriteSize : Nat) : CachedJsonFileStore (List ReminderItem) where
  maxWriteSize
  toVec := codec.toVec
  loadFn := loadRemindersOrDefault codec
  stageCache := "remind_at_cache"
  stagePersist := "remind_at_persist"
  load_toVec items json stage hjson := by
    unfold loadRemindersOrDefault
    by_cases hlen : json.length > 2
    · simp [hlen, codec.fromSlice_toVec items json hjson]
    · simp [hlen, codec.short items json hjson (by omega)]
  load_error e stage he := ⟨e.withStage stage, by simp [loadRemindersOrDefault, he]⟩

def getClosure (channel chatId id : String) (list : List ReminderItem) :
    List ReminderItem × Except Error (StoreOp (Option ReminderItem)) :=
  (list, .ok (.clean (list.find? (hasKey channel chatId id))))

def upsertClosure (reminder : ReminderItem) (list : List ReminderItem) :
    List ReminderItem × Except Error (StoreOp Bool) :=
  match upsertReminder list reminder with
  | .error e => (list, .error e)
  | .ok (list, changed) => (list, .ok ⟨changed, changed⟩)

def deleteClosure (channel chatId id : String) (list : List ReminderItem) :
    List ReminderItem × Except Error (StoreOp Bool) :=
  if list.any (hasKey channel chatId id) then
    (list.eraseP (hasKey channel chatId id), .ok (.changed true))
  else (list, .ok (.clean false))

def isDue (nowUnixSecs : Nat) (entry : ReminderItem) : Bool := entry.atUnixSecs ≤ nowUnixSecs

def popDueClosure (nowUnixSecs : Nat) (list : List ReminderItem) :
    List ReminderItem × Except Error (StoreOp (Option ReminderItem)) :=
  match list.find? (isDue nowUnixSecs) with
  | none => (list, .ok (.clean none))
  | some removed => (list.eraseP (isDue nowUnixSecs), .ok (.changed (some removed)))

def nextDueAtClosure (list : List ReminderItem) : List ReminderItem × Except Error (StoreOp (Option Nat)) :=
  (list, .ok (.clean (list.map (·.atUnixSecs)).min?))

def isUpcoming (channel chatId : String) (nowUnixSecs : Nat) (entry : ReminderItem) : Bool :=
  entry.channel = channel && entry.chatId = chatId && decide (nowUnixSecs ≤ entry.atUnixSecs)

/-- The loop over the list, which stops at the limit. -/
def collectUpcoming (wanted : ReminderItem → Bool) (limit : Nat) (out : List ReminderItem) :
    List ReminderItem → List ReminderItem
  | [] => out
  | entry :: rest =>
    if wanted entry then
      let out := out ++ [entry]
      if limit ≤ out.length then out else collectUpcoming wanted limit out rest
    else collectUpcoming wanted limit out rest

def listUpcomingClosure (channel chatId : String) (nowUnixSecs limit : Nat) (list : List ReminderItem) :
    List ReminderItem × Except Error (StoreOp (List ReminderItem)) :=
  (list, .ok (.clean (collectUpcoming (isUpcoming channel chatId nowUnixSecs) limit [] list)))

section
variable (store : CachedJsonFileStore (List ReminderItem)) (s : StoreState (List ReminderItem)) (faults : Faults)

def get (channel chatId id : String) : StoreState (List ReminderItem) × Except Error (Option ReminderItem) :=
  store.withCachedMut s faults (getClosure channel chatId id)

/-- A change is notified to the background timer. -/
def upsert (reminder : ReminderItem) : StoreState (List ReminderItem) × Except Error Unit :=
  match normalizeReminderItem reminder with
  | .error e => (s, .error e)
  | .ok reminder =>
    let (s, changed) := store.withCachedMut s faults (upsertClosure reminder)
    (s, changed.map fun _ => ())

def delete (channel chatId id : String) : StoreState (List ReminderItem) × Except Error Bool :=
  store.withCachedMut s faults (deleteClosure channel chatId id)

def popDue (nowUnixSecs : Nat) : StoreState (List ReminderItem) × Except Error (Option ReminderItem) :=
  store.withCachedMut s faults (popDueClosure nowUnixSecs)

def nextDueAt : StoreState (List ReminderItem) × Except Error (Option Nat) :=
  store.withCachedMut s faults nextDueAtClosure

def listUpcoming (channel chatId : String) (nowUnixSecs limit : Nat) :
    StoreState (List ReminderItem) × Except Error (List ReminderItem) :=
  if limit = 0 then (s, .ok []) else store.withCachedMut s faults (listUpcomingClosure channel chatId nowUnixSecs limit)

end

inductive RemindAtCall where
  | get (channel chatId id : String)
  | upsert (reminder : ReminderItem)
  | delete (channel chatId id : String)
  | popDue (nowUnixSecs : Nat)
  | nextDueAt
  | listUpcoming (channel chatId : String) (nowUnixSecs limit : Nat)

/-- A call, and what happens to its reads and writes. -/
def step (store : CachedJsonFileStore (List ReminderItem)) (s : StoreState (List ReminderItem)) :
    RemindAtCall × Faults → Option (StoreState (List ReminderItem))
  | (.get channel chatId id, faults) => some (get store s faults channel chatId id).1
  | (.upsert reminder, faults) => some (upsert store s faults reminder).1
  | (.delete channel chatId id, faults) => some (delete store s faults channel chatId id).1
  | (.popDue nowUnixSecs, faults) => some (popDue store s faults nowUnixSecs).1
  | (.nextDueAt, faults) => some (nextDueAt store s faults).1
  | (.listUpcoming channel chatId nowUnixSecs limit, faults) =>
    some (listUpcoming store s faults channel chatId nowUnixSecs limit).1

/-- A call for which nothing goes wrong in reading and writing. -/
def healthy : Faults := ⟨none, .done⟩

/-- The reminders that `pop_due` gives one after the other, until there is none left. -/
inductive PopsAll (store : CachedJsonFileStore (List ReminderItem)) (nowUnixSecs : Nat) :
    StoreState (List ReminderItem) → List ReminderItem → Prop
  | done (s s' : StoreState (List ReminderItem)) (hpop : popDue store s healthy nowUnixSecs = (s', .ok none)) :
      PopsAll store nowUnixSecs s []
  | more (s s' : StoreState (List ReminderItem)) (item : ReminderItem) (items : List ReminderItem)
      (hpop : popDue store s healthy nowUnixSecs = (s', .ok (some item)))
      (hrest : PopsAll store nowUnixSecs s' items) : PopsAll store nowUnixSecs s (item :: items)

/-- The result has the `limit` first of the items, and they come in order. -/
structure Earliest (items : List ReminderItem) (limit : Nat) (result : List ReminderItem) : Prop where
  sorted : result.Pairwise fun left right => comesBefore left right = true
  first : ∃ rest, (result ++ rest).Perm items ∧ ∀ chosen ∈ result, ∀ other ∈ rest, comesBefore chosen other = true
  length : result.length = min limit items.length

/-- What the readers of the store are promised. -/
structure ServesInOrder (store : CachedJsonFileStore (List ReminderItem)) (s : StoreState (List ReminderItem))
    (items : List ReminderItem) : Prop where
  stored : store.cachedValue s = .ok items
  upcoming : ∀ channel chatId nowUnixSecs limit, ∃ result,
    (listUpcoming store s healthy channel chatId nowUnixSecs limit).2 = .ok result ∧
      Earliest (items.filter (isUpcoming channel chatId nowUnixSecs)) limit result
  due : ∀ nowUnixSecs popped, PopsAll store nowUnixSecs s popped →
    popped.Perm (items.filter (isDue nowUnixSecs)) ∧
      popped.Pairwise fun left right => left.atUnixSecs ≤ right.atUnixSecs
  next : ∃ dueAt, (nextDueAt store s healthy).2 = .ok dueAt ∧ (dueAt = none → items = []) ∧
    ∀ at_, dueAt = some at_ → (∃ item ∈ items, item.atUnixSecs = at_) ∧ ∀ item ∈ items, at_ ≤ item.atUnixSecs

/-- The list is in the order of the times, and the part of each chat in that of the times
and the ids. -/
structure Ordered (items : List ReminderItem) : Prop where
  times : items.Pairwise fun left right => left.atUnixSecs ≤ right.atUnixSecs
  chats : ∀ channel chatId,
    (items.filter fun entry => entry.channel = channel ∧ entry.chatId = chatId).Pairwise fun left right =>
      comesBefore left right = true

end StorageRemindAtStore

/-! When the reminder store answers in the order of the times. -/

theorem comesBefore_iff {left right : ReminderItem} :
    comesBefore left right = true ↔
      left.atUnixSecs < right.atUnixSecs ∨ left.atUnixSecs = right.atUnixSecs ∧ left.id ≤ right.id := by
  simp [comesBefore]

theorem comesBefore_trans (first second third : ReminderItem) (h : comesBefore first second = true)
    (h' : comesBefore second third = true) : comesBefore first third = true := by
  rw [comesBefore_iff] at *
  obtain h | ⟨htime, hid⟩ := h
  · exact .inl (by omega)
  · obtain h' | ⟨htime', hid'⟩ := h'
    · exact .inl (by omega)
    · exact .inr ⟨htime.trans htime', hid.trans hid'⟩

theorem comesBefore_total (left right : ReminderItem) : comesBefore left right || comesBefore right left := by
  rw [Bool.or_eq_true, comesBefore_iff, comesBefore_iff]
  obtain h | h | h := lt_trichotomy left.atUnixSecs right.atUnixSecs
  · exact .inl (.inl h)
  · obtain hid | hid := le_total left.id right.id
    · exact .inl (.inr ⟨h, hid⟩)
    · exact .inr (.inr ⟨h.symm, hid⟩)
  · exact .inr (.inl h)

theorem atUnixSecs_le_of_comesBefore {left right : ReminderItem} (h : comesBefore left right = true) :
    left.atUnixSecs ≤ right.atUnixSecs := by
  rw [comesBefore_iff] at h
  omega

namespace StorageRemindAtStore

theorem Ordered.sublist {items part : List ReminderItem} (h : Ordered items) (hpart : part.Sublist items) :
    Ordered part where
  times := h.times.sublist hpart
  chats channel chatId := (h.chats channel chatId).sublist (hpart.filter _)

variable {items : List ReminderItem}

theorem ordered_of_pairwise (h : items.Pairwise fun left right => comesBefore left right = true) : Ordered items where
  times := h.imp atUnixSecs_le_of_comesBefore
  chats _ _ := h.sublist List.filter_sublist

theorem ordered_sortReminders (list : List ReminderItem) : Ordered (sortReminders list) :=
  ordered_of_pairwise (List.pairwise_mergeSort comesBefore_trans comesBefore_total list)

theorem collectUpcoming_eq (wanted : ReminderItem → Bool) (limit : Nat) (list : List ReminderItem) :
    ∀ out : List ReminderItem, out.length < limit →
      collectUpcoming wanted limit out list = out ++ (list.filter wanted).take (limit - out.length) := by
  induction list with
  | nil =>
    intro out _
    simp [collectUpcoming]
  | cons entry rest ih =>
    intro out hroom
    by_cases hwanted : wanted entry = true
    · have htake : limit - out.length = (limit - (out ++ [entry]).length) + 1 := by
        rw [List.length_append, List.length_singleton]
        omega
      simp only [collectUpcoming, hwanted, if_true, List.filter_cons_of_pos]
      rw [htake, List.take_succ_cons]
      split
      · rename_i hfull
        rw [Nat.sub_eq_zero_of_le hfull, List.take_zero]
      · rename_i hmore
        rw [ih _ (Nat.not_le.mp hmore), List.append_assoc, List.singleton_append]
    · simp only [collectUpcoming, hwanted, Bool.false_eq_true, if_false, not_false_eq_true,
        List.filter_cons_of_neg]
      exact ih out hroom

theorem earliest_take (h : items.Pairwise fun left right => comesBefore left right = true) (limit : Nat) :
    Earliest items limit (items.take limit) where
  sorted := h.sublist (List.take_sublist limit items)
  first := by
    have hparts := h
    rw [← List.take_append_drop limit items, List.pairwise_append] at hparts
    exact ⟨items.drop limit, by rw [List.take_append_drop], hparts.2.2⟩
  length := List.length_take

/-- Taking out the first that is due leaves the others that are. -/
theorem filter_eq_cons_of_find? {p : ReminderItem → Bool} {item : ReminderItem}
    (h : items.find? p = some item) : items.filter p = item :: (items.eraseP p).filter p := by
  induction items with
  | nil => cases h
  | cons entry rest ih =>
    by_cases hp : p entry = true
    · rw [List.find?_cons_of_pos hp] at h
      cases h
      rw [List.filter_cons_of_pos hp, List.eraseP_cons_of_pos hp]
    · rw [List.find?_cons_of_neg hp] at h
      rw [List.filter_cons_of_neg hp, List.eraseP_cons_of_neg hp, List.filter_cons_of_neg hp, ih h]

section
variable {store : CachedJsonFileStore (List ReminderItem)} {s : StoreState (List ReminderItem)}
  {items : List ReminderItem} {s' : StoreState (List ReminderItem)}

theorem seen_healthy : store.seen s healthy = store.cachedValue s := by
  unfold CachedJsonFileStore.seen CachedJsonFileStore.cachedValue
  cases s.cache <;> rfl

/-- A call that keeps the order in the list keeps it in the store. -/
theorem ordered_withCachedMut {R : Type} {faults : Faults}
    {closure : List ReminderItem → List ReminderItem × Except Error (StoreOp R)}
    (hstored : store.cachedValue s = .ok items) (hordered : Ordered items)
    (hclosure : Ordered (closure items).1) :
    ∃ items', store.cachedValue (store.withCachedMut s faults closure).1 = .ok items' ∧ Ordered items' := by
  cases hseen : store.seen s faults with
  | ok value =>
    have hvalue : value = items := by
      have hcached := store.seen_eq_ok hseen
      rw [hstored] at hcached
      exact (Except.ok.inj hcached).symm
    subst hvalue
    exact ⟨_, store.cachedValue_withCachedMut closure hseen, hclosure⟩
  | error e =>
    refine ⟨items, ?_, hordered⟩
    rw [CachedJsonFileStore.withCachedMut, hseen]
    exact hstored

section
variable (hordered : Ordered items)
include hordered

theorem ordered_upsertReminder {reminder : ReminderItem}
    {list : List ReminderItem} {changed : Bool} (h : upsertReminder items reminder = .ok (list, changed)) :
    Ordered list := by
  simp only [upsertReminder] at h
  split at h
  · split at h
    · cases h
      exact hordered
    · cases h
      exact ordered_sortReminders _
  · split at h
    · cases h
    · cases h
      exact ordered_sortReminders _

theorem ordered_upsertClosure (reminder : ReminderItem) : Ordered (upsertClosure reminder items).1 := by
  unfold upsertClosure
  cases hupsert : upsertReminder items reminder with
  | error e => exact hordered
  | ok result => exact ordered_upsertReminder hordered hupsert

theorem ordered_deleteClosure (channel chatId id : String) : Ordered (deleteClosure channel chatId id items).1 := by
  unfold deleteClosure
  split
  · exact hordered.sublist List.eraseP_sublist
  · exact hordered

theorem ordered_popDueClosure (nowUnixSecs : Nat) : Ordered (popDueClosure nowUnixSecs items).1 := by
  unfold popDueClosure
  split
  · exact hordered
  · exact hordered.sublist List.eraseP_sublist

end

section
variable (hstored : store.cachedValue s = .ok items)
include hstored

/-- Every call keeps the order. -/
theorem ordered_step {call : RemindAtCall × Faults} (hordered : Ordered items) (hstep : step store s call = some s') :
    ∃ items', store.cachedValue s' = .ok items' ∧ Ordered items' := by
  obtain ⟨call, faults⟩ := call
  cases call with
  | get channel chatId id =>
    have hkept : Ordered (getClosure channel chatId id items).1 := hordered
    obtain rfl := Option.some.inj hstep
    exact ordered_withCachedMut hstored hordered hkept
  | upsert reminder =>
    obtain rfl := Option.some.inj hstep
    unfold upsert
    cases normalizeReminderItem reminder with
    | error e => exact ⟨items, hstored, hordered⟩
    | ok reminder => exact ordered_withCachedMut hstored hordered (ordered_upsertClosure hordered reminder)
  | delete channel chatId id =>
    obtain rfl := Option.some.inj hstep
    exact ordered_withCachedMut hstored hordered (ordered_deleteClosure hordered channel chatId id)
  | popDue nowUnixSecs =>
    obtain rfl := Option.some.inj hstep
    exact ordered_withCachedMut hstored hordered (ordered_popDueClosure hordered nowUnixSecs)
  | nextDueAt =>
    have hkept : Ordered (nextDueAtClosure items).1 := hordered
    obtain rfl := Option.some.inj hstep
    exact ordered_withCachedMut hstored hordered hkept
  | listUpcoming channel chatId nowUnixSecs limit =>
    have hkept : Ordered (listUpcomingClosure channel chatId nowUnixSecs limit items).1 := hordered
    obtain rfl := Option.some.inj hstep
    unfold listUpcoming
    split
    · exact ⟨items, hstored, hordered⟩
    · exact ordered_withCachedMut hstored hordered hkept

theorem listUpcoming_answer (channel chatId : String) (nowUnixSecs limit : Nat) :
    (listUpcoming store s healthy channel chatId nowUnixSecs limit).2 =
      .ok ((items.filter (isUpcoming channel chatId nowUnixSecs)).take limit) := by
  unfold listUpcoming
  split
  · rename_i hzero
    rw [hzero, List.take_zero]
  · rename_i hpos
    have hanswer := @CachedJsonFileStore.withCachedMut_of_clean _ _ store s healthy
      (collectUpcoming (isUpcoming channel chatId nowUnixSecs) limit [])
    rw [seen_healthy, hstored] at hanswer
    refine hanswer.trans ?_
    rw [Except.map, collectUpcoming_eq _ _ _ [] (Nat.pos_of_ne_zero hpos)]
    rfl

/-- A pop that answers has taken out the first reminder that is due. -/
theorem popDue_answer {nowUnixSecs : Nat} {popped : Option ReminderItem}
    (hpop : popDue store s healthy nowUnixSecs = (s', .ok popped)) :
    popped = items.find? (isDue nowUnixSecs) ∧
      store.cachedValue s' = .ok (items.eraseP (isDue nowUnixSecs)) := by
  have hseen : store.seen s healthy = .ok items := seen_healthy.trans hstored
  have hcached := store.cachedValue_withCachedMut (popDueClosure nowUnixSecs) hseen
  obtain ⟨value, op, hvalue, hop, hresult⟩ := store.withCachedMut_eq_ok (congrArg Prod.snd hpop)
  obtain rfl := Except.ok.inj (hseen.symm.trans hvalue)
  rw [show store.withCachedMut s healthy (popDueClosure nowUnixSecs) = _ from hpop] at hcached
  unfold popDueClosure at hop hcached
  cases hfind : items.find? (isDue nowUnixSecs) with
  | none =>
    rw [hfind] at hop hcached
    cases hop
    refine ⟨hresult.symm, hcached.trans ?_⟩
    rw [List.eraseP_of_forall_not fun item hitem => List.find?_eq_none.mp hfind item hitem]
  | some item =>
    rw [hfind] at hop hcached
    cases hop
    exact ⟨hresult.symm, hcached⟩

theorem popsAll_eq_filter {nowUnixSecs : Nat} {popped : List ReminderItem}
    (hpops : PopsAll store nowUnixSecs s popped) : popped = items.filter (isDue nowUnixSecs) := by
  induction hpops generalizing items with
  | done s s' hpop =>
    obtain ⟨hnone, -⟩ := popDue_answer hstored hpop
    rw [eq_comm, List.filter_eq_nil_iff]
    exact List.find?_eq_none.mp hnone.symm
  | more s s' item rest hpop hrest ih =>
    obtain ⟨hsome, hleft⟩ := popDue_answer hstored hpop
    rw [filter_eq_cons_of_find? hsome.symm, ih hleft]

theorem nextDueAt_answer : (nextDueAt store s healthy).2 = .ok (items.map (·.atUnixSecs)).min? := by
  have hanswer := @CachedJsonFileStore.withCachedMut_of_clean _ _ store s healthy
    fun list : List ReminderItem => (list.map (·.atUnixSecs)).min?
  rw [seen_healthy, hstored] at hanswer
  exact hanswer

theorem servesInOrder (hordered : Ordered items) : ServesInOrder store s items where
  stored := hstored
  upcoming channel chatId nowUnixSecs limit := by
    refine ⟨_, listUpcoming_answer hstored channel chatId nowUnixSecs limit, earliest_take ?_ limit⟩
    have hchat : items.filter (isUpcoming channel chatId nowUnixSecs) =
        (items.filter fun entry => entry.channel = channel ∧ entry.chatId = chatId).filter
          fun entry => nowUnixSecs ≤ entry.atUnixSecs := by
      rw [List.filter_filter]
      refine congrArg (List.filter · items) (funext fun entry => ?_)
      simp [isUpcoming, Bool.and_comm]
    rw [hchat]
    exact (hordered.chats channel chatId).sublist List.filter_sublist
  due nowUnixSecs popped hpops := by
    rw [popsAll_eq_filter hstored hpops]
    exact ⟨List.Perm.refl _, hordered.times.sublist List.filter_sublist⟩
  next := by
    refine ⟨_, nextDueAt_answer hstored, ?_, ?_⟩
    · intro hnone
      exact List.map_eq_nil_iff.mp (List.min?_eq_none_iff.mp hnone)
    · intro at_ hsome
      obtain ⟨hmem, hleast⟩ := List.min?_eq_some_iff.mp hsome
      obtain ⟨item, hitem, htime⟩ := List.mem_map.mp hmem
      exact ⟨⟨item, hitem, htime⟩, fun other hother => hleast _ (List.mem_map_of_mem hother)⟩

end

end

/-- The JSON library on the empty list and on one other. -/
def oneListCodec (items : List ReminderItem) (json : Bytes) (hlong : 2 < json.length) : RemindAtCodec where
  toVec list := if list = [] then .ok [91, 93] else if list = items then .ok json else .error "not written here"
  fromSlice buf := if buf = [91, 93] then some [] else if buf = json then some items else none
  legacyFromSlice _ := none
  fromSlice_toVec list buf h := by
    have hne : json ≠ [91, 93] := fun hjson => absurd (hjson ▸ hlong) (by decide)
    split_ifs at h with hempty hitems
    · cases h
      rw [if_pos rfl, hempty]
    · cases h
      rw [if_neg hne, if_pos rfl, hitems]
  short list buf h hshort := by
    split_ifs at h with hempty hitems
    · exact hempty
    · cases h
      omega

theorem loadFromDisk_oneList {json : Bytes} (hlong : 2 < json.length) (hfits : json.length ≤ maxWriteSizeHost) :
    (new (oneListCodec items json hlong) maxWriteSizeHost).loadFromDisk (some json) none = .ok items := by
  have hne : json ≠ [91, 93] := fun hjson => absurd (hjson ▸ hlong) (by decide)
  have hread : readFile maxWriteSizeHost (some json) none = .ok json := by
    unfold readFile
    exact if_neg (Nat.not_lt.mpr hfits)
  show loadRemindersOrDefault _ (readFile maxWriteSizeHost (some json) none) _ = _
  rw [hread, loadRemindersOrDefault, if_pos hlong]
  simp only [oneListCodec, if_neg hne, if_pos]

def callReminder : ReminderItem :=
  { ReminderItem.default with id := "a", channel := "qq", chatId := "c", atUnixSecs := 100, context := "call" }

def rentReminder : ReminderItem :=
  { ReminderItem.default with id := "b", channel := "qq", chatId := "c", atUnixSecs := 200, context := "rent" }

def callReminderJson : String :=
  "\x7b\"id\":\"a\",\"channel\":\"qq\",\"chat_id\":\"c\",\"at_unix_secs\":100,\"context\":\"call\"," ++
    "\"calendar_start_at_unix_secs\":0,\"calendar_end_at_unix_secs\":0,\"calendar_timezone\":\"\"," ++
    "\"calendar_location\":\"\",\"calendar_notes\":\"\",\"updated_at\":0\x7d"

def rentReminderJson : String :=
  "\x7b\"id\":\"b\",\"channel\":\"qq\",\"chat_id\":\"c\",\"at_unix_secs\":200,\"context\":\"rent\"," ++
    "\"calendar_start_at_unix_secs\":0,\"calendar_end_at_unix_secs\":0,\"calendar_timezone\":\"\"," ++
    "\"calendar_location\":\"\",\"calendar_notes\":\"\",\"updated_at\":0\x7d"

def sortedFile : Bytes := bytes ("[" ++ callReminderJson ++ "," ++ rentReminderJson ++ "]")

def unsortedFile : Bytes := bytes ("[" ++ rentReminderJson ++ "," ++ callReminderJson ++ "]")

def sortedCodec : RemindAtCodec := oneListCodec [callReminder, rentReminder] sortedFile (by decide +kernel)

def unsortedCodec : RemindAtCodec := oneListCodec [rentReminder, callReminder] unsortedFile (by decide +kernel)

end StorageRemindAtStore
end Beetle.Platform.Storage
