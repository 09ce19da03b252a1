import Beetle.Util

/-! The guard of the state files that the file tools may not change or show, and the
paths that get past it. -/
namespace Beetle.Tools
open Beetle.Lib

def protectedStatePaths : List (List Char) :=
  ["config/llm.json", "config/channels.json", "config/wifi.json", "memory/MEMORY.md"].map String.toList

def retiredStatePaths : List (List Char) := ["config/SOUL.md", "config/USER.md"].map String.toList

def sensitiveReadPaths : List (List Char) :=
  ["config/llm.json", "config/channels.json", "config/wifi.json"].map String.toList

def normalizeStateToolPath (pathArg : List Char) (stage : String) : Except Error (List Char) :=
  (normalizeStateRelPath pathArg).mapError fun _ => .config "invalid path" stage

def ensureStatePathMutable (relPath : List Char) (stage : String) : Except Error Unit :=
  if relPath ∈ protectedStatePaths then .error (.config "path is protected" stage)
  else if relPath ∈ retiredStatePaths then .error (.config "path is retired" stage)
  else .ok ()

/-- `redact` stands for `redact_sensitive_config_text`. -/
def sanitizeStateFileRead (redact : List Char → List Char) (relPath : List Char) (raw : Bytes) (stage : String) :
    Except Error Bytes :=
  if relPath ∈ retiredStatePaths then .error (.config "path is retired" stage)
  else if relPath ∉ sensitiveReadPaths then .ok raw
  else
    match fromUtf8 raw with
    | some text => .ok (utf8 (redact text))
    | none => .error (.config "sensitive config file is not valid UTF-8" stage)

/-! The state file system on Linux, which resolves a path below the mount point. -/

/-- A path as the file system walks it. -/
abbrev StatePath := List (List Char)

def components (relPath : List Char) : StatePath :=
  (relPath.splitOn '/').filter fun part => part ≠ [] ∧ part ≠ ['.']

def LinuxStateFs.abs (relPath : List Char) : Except Error StatePath := (normalizeStateRelPath relPath).map components

/-- What reading each file gives, `none` where there is none. -/
abbrev StateFiles := StatePath → Except Error (Option Bytes)

def LinuxStateFs.read (files : StateFiles) (relPath : List Char) : Except Error (Option Bytes) :=
  (LinuxStateFs.abs relPath).bind files

/-- How the tools read a local file: the path is normalized, then the file is read and its
content sanitized under the normalized path. -/
def readLocalFile (redact : List Char → List Char) (maxRawBytes : Nat) (stage : String) (files : StateFiles)
    (pathArg : List Char) : Except Error (Option Bytes) := do
  let rel ← normalizeStateToolPath pathArg stage
  match ← LinuxStateFs.read files rel with
  | none => return none
  | some raw =>
    if raw.length > maxRawBytes then .error (.config "file too large" stage)
    else return some (← sanitizeStateFileRead redact rel raw stage)

/-- The file that a tool is let to change at a path: written, edited or deleted. -/
def mutablePath (stage : String) (pathArg : List Char) : Except Error StatePath := do
  let rel ← normalizeStateToolPath pathArg stage
  ensureStatePathMutable rel stage
  LinuxStateFs.abs rel

/-! What the guard is for, and when it does it. -/

/-- A path that is one of the guarded files, or lies below one. -/
def Guarded (path : StatePath) : Prop :=
  ∃ c ∈ protectedStatePaths ++ sensitiveReadPaths ++ retiredStatePaths, components c <+: path

/-- The canonical spelling of a path. -/
def spell (path : StatePath) : List Char := ['/'].intercalate path

/-- Where the path leads to a guarded file it cannot be changed, and is read as under the
canonical spelling. -/
def GuardHolds (redact : List Char → List Char) (maxRawBytes : Nat) (stage : String) (pathArg : List Char) : Prop :=
  ∀ rel target, normalizeStateRelPath pathArg = .ok rel → LinuxStateFs.abs rel = .ok target → Guarded target →
    (∃ e, ensureStatePathMutable rel stage = .error e) ∧
    ∀ files, readLocalFile redact maxRawBytes stage files pathArg =
      readLocalFile redact maxRawBytes stage files (spell target)

/-- Where the path leads to a guarded file, it is that file itself and not one below it,
and nothing but trimming and leading slashes sets the path apart from its canonical spelling. -/
def CanonicallySpelled (pathArg : List Char) : Prop :=
  ∀ rel target, normalizeStateRelPath pathArg = .ok rel → LinuxStateFs.abs rel = .ok target → Guarded target →
    rel = spell target ∧ target ∈ (protectedStatePaths ++ retiredStatePaths).map components

theorem ensureStatePathMutable_error_iff (rel : List Char) (stage : String) :
    (∃ e, ensureStatePathMutable rel stage = .error e) ↔ rel ∈ protectedStatePaths ++ retiredStatePaths := by
  rw [List.mem_append]
  unfold ensureStatePathMutable
  constructor
  · rintro ⟨e, he⟩
    split at he
    · rename_i hprotected
      exact .inl hprotected
    · split at he
      · rename_i hretired
        exact .inr hretired
      · cases he
  · intro hrel
    split
    · exact ⟨_, rfl⟩
    · rename_i hprotected
      rw [if_pos (hrel.resolve_left hprotected)]
      exact ⟨_, rfl⟩

variable {c : List Char}

section
variable (h : c ∈ protectedStatePaths ++ retiredStatePaths)
include h

/-- The lists have canonical spellings only. -/
theorem canonical_of_mem :
    (trim c).dropWhile (· = '/') = c ∧ ¬ ['.', '.'] <:+: c ∧ c.head? ≠ some '/' ∧ spell (components c) = c := by
  have hall : ∀ c ∈ protectedStatePaths ++ retiredStatePaths,
      (trim c).dropWhile (· = '/') = c ∧ ¬ ['.', '.'] <:+: c ∧ c.head? ≠ some '/' ∧ spell (components c) = c := by
    decide +kernel
  exact hall c h

theorem normalizeStateRelPath_of_mem : normalizeStateRelPath c = .ok c := by
  obtain ⟨htrim, hdots, hslash, -⟩ := canonical_of_mem h
  simp only [normalizeStateRelPath, htrim, if_neg hdots, if_neg hslash]

end

/-- Reading looks only at what the path is normalized to. -/
theorem readLocalFile_congr {redact : List Char → List Char} {maxRawBytes : Nat} {stage : String}
    {files : StateFiles} {p q : List Char} (h : normalizeStateRelPath p = normalizeStateRelPath q) :
    readLocalFile redact maxRawBytes stage files p = readLocalFile redact maxRawBytes stage files q := by
  simp only [readLocalFile, normalizeStateToolPath, h]

theorem abs_of_mem (h : c ∈ protectedStatePaths ++ retiredStatePaths) : LinuxStateFs.abs c = .ok (components c) := by
  rw [LinuxStateFs.abs, normalizeStateRelPath_of_mem h]
  rfl

/-- The guard holds for just the paths that are spelled canonically. -/
theorem state_guard_holds_iff (redact : List Char → List Char) (maxRawBytes : Nat) (stage : String)
    (pathArg : List Char) : GuardHolds redact maxRawBytes stage pathArg ↔ CanonicallySpelled pathArg := by
  constructor
  · intro h rel target hrel htarget hguarded
    have hlisted : rel ∈ protectedStatePaths ++ retiredStatePaths :=
      (ensureStatePathMutable_error_iff rel stage).mp (h rel target hrel htarget hguarded).1
    obtain rfl : components rel = target := Except.ok.inj ((abs_of_mem hlisted).symm.trans htarget)
    exact ⟨(canonical_of_mem hlisted).2.2.2.symm, List.mem_map_of_mem hlisted⟩
  · intro h rel target hrel htarget hguarded
    obtain ⟨hspelled, htarget'⟩ := h rel target hrel htarget hguarded
    obtain ⟨c, hlisted, rfl⟩ := List.mem_map.mp htarget'
    obtain rfl : rel = c := hspelled.trans (canonical_of_mem hlisted).2.2.2
    refine ⟨(ensureStatePathMutable_error_iff rel stage).mpr hlisted, fun files => ?_⟩
    rw [(canonical_of_mem hlisted).2.2.2]
    exact readLocalFile_congr (hrel.trans (normalizeStateRelPath_of_mem hlisted).symm)

/-- A dot in front is enough. -/
theorem dotted_path_passes_guard :
    ¬ ∀ (redact : List Char → List Char) (maxRawBytes : Nat) (stage : String) (pathArg : List Char),
      GuardHolds redact maxRawBytes stage pathArg := by
  intro h
  have hguarded : Guarded (components "./config/llm.json".toList) :=
    ⟨"config/llm.json".toList, by decide +kernel, by decide +kernel⟩
  have hnormal : normalizeStateRelPath "./config/llm.json".toList = .ok "./config/llm.json".toList := by
    rw [normalizeStateRelPath, if_neg (by decide +kernel), if_neg (by decide +kernel)]
    exact congrArg Except.ok (by decide +kernel)
  have hresolve : LinuxStateFs.abs "./config/llm.json".toList = .ok (components "./config/llm.json".toList) := by
    rw [LinuxStateFs.abs, hnormal]
    rfl
  obtain ⟨⟨e, he⟩, -⟩ := h id 0 "" "./config/llm.json".toList _ _ hnormal hresolve hguarded
  rw [ensureStatePathMutable, if_neg (by decide +kernel), if_neg (by decide +kernel)] at he
  cases he

end Beetle.Tools
