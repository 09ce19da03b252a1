import Mathlib.Data.Finset.Sort
import Mathlib.Data.List.MinMax
import Mathlib.Data.String.Basic
import Beetle.Calendar
import Beetle.Platform.CachedJson

/-! The store of local calendar events: a map by id that is trimmed to a number of events. -/
namespace Beetle.Platform.Storage
open Beetle.Lib Beetle.Calendar

def maxCalendarEvents : Nat := 256

/-- Which of the oldest events the iteration over a map comes to first. -/
structure OldestEvent where
  pick : HashMap String CalendarEvent → Option String
  pick_none : ∀ map, pick map = none → map = ∅
  pick_some : ∀ map id, pick map = some id → ∃ event, map.lookup id = some event ∧
    ∀ id' event', map.lookup id' = some event' → event.updatedAt ≤ event'.updatedAt

namespace StorageCalendarStore

/-- The loop of `trim_if_needed`; it is over after as many rounds as there are events. -/
def trimLoop (oldest : OldestEvent) : Nat → HashMap String CalendarEvent → HashMap String CalendarEvent
  | 0, map => map
  | rounds + 1, map =>
    if maxCalendarEvents < map.keys.card then
      match oldest.pick map with
      | some id => trimLoop oldest rounds (map.erase id)
      | none => map
    else map

def trimIfNeeded (oldest : OldestEvent) (map : HashMap String CalendarEvent) : HashMap String CalendarEvent :=
  trimLoop oldest map.keys.card map

def getClosure (id : String) (map : HashMap String CalendarEvent) :
    HashMap String CalendarEvent × Except Error (StoreOp (Option CalendarEvent)) :=
  (map, .ok (.clean (map.lookup id)))

def upsertClosure (oldest : OldestEvent) (event : CalendarEvent) (map : HashMap String CalendarEvent) :
    HashMap String CalendarEvent × Except Error (StoreOp Unit) :=
  match normalizeCalendarEvent event with
  | .error e => (map, .error e)
  | .ok normalized =>
    if map.lookup normalized.id = some normalized then (map, .ok (.clean ()))
    else (trimIfNeeded oldest (map.insert normalized.id normalized), .ok (.changed ()))

def deleteClosure (id : String) (map : HashMap String CalendarEvent) :
    HashMap String CalendarEvent × Except Error (StoreOp Bool) :=
  (map.erase id, .ok ⟨(map.lookup id).isSome, (map.lookup id).isSome⟩)

section
variable {oldest : OldestEvent} {map : HashMap String CalendarEvent}

theorem trimLoop_of_fits (h : map.keys.card ≤ maxCalendarEvents) (rounds : Nat) : trimLoop oldest rounds map = map := by
  cases rounds with
  | zero => rfl
  | succ rounds => exact if_neg (Nat.not_lt.mpr h)

/-- A map that fits is left as it is. -/
theorem trimIfNeeded_of_fits (h : map.keys.card ≤ maxCalendarEvents) : trimIfNeeded oldest map = map :=
  trimLoop_of_fits h _

theorem keys_insert (id : String) (event : CalendarEvent) : (map.insert id event).keys = insert id map.keys := by
  ext key
  simp [Finmap.mem_keys]

end

end StorageCalendarStore

/-- The first of the oldest events in the order of the ids. -/
def firstById : OldestEvent where
  pick map := (map.keys.sort (· ≤ ·)).argmin fun id => ((map.lookup id).map (·.updatedAt)).getD 0
  pick_none map h := by
    have hnil := List.argmin_eq_none.mp h
    apply Finmap.ext_lookup
    intro id
    rw [Finmap.lookup_empty, Finmap.lookup_eq_none, ← Finmap.mem_keys, ← Finset.mem_sort (· ≤ ·), hnil]
    exact List.not_mem_nil
  pick_some map id h := by
    have hmem := List.argmin_mem h
    obtain ⟨event, hevent⟩ := Finmap.mem_iff.mp (Finmap.mem_keys.mp ((Finset.mem_sort _).mp hmem))
    refine ⟨event, hevent, fun id' event' hevent' => ?_⟩
    have hmem' : id' ∈ map.keys.sort (· ≤ ·) :=
      (Finset.mem_sort _).mpr (Finmap.mem_keys.mpr (Finmap.mem_of_lookup_eq_some hevent'))
    simpa [hevent, hevent'] using List.le_of_mem_argmin hmem' h

end Beetle.Platform.Storage
