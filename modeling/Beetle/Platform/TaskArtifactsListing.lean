import Beetle.Lib.Overwrites
import Beetle.Platform.TaskArtifacts

/-! What the files of artifacts are after any puts, and which of them are read for a run. -/
namespace Beetle.Platform.Storage
open Beetle.Lib Beetle.Tools

/-- The ids that the agent makes are names of files. -/
structure IsFileId (id : List Char) : Prop where
  slash : '/' ∉ id
  ne_nil : id ≠ []
  ne_dot : id ≠ ['.']
  ne_dots : id ≠ ['.', '.']

structure TaskArtifactRecord.HasFileIds (record : TaskArtifactRecord) : Prop where
  runId : IsFileId record.artifact.runId
  artifactId : IsFileId record.artifact.artifactId

/-! Paths. -/

theorem fileName_plain (layout : StateLayout) {runId artifactId : List Char} (hrun : IsFileId runId)
    (hartifact : IsFileId artifactId) :
    '/' ∉ layout.artifactFileName runId artifactId ∧ layout.artifactFileName runId artifactId ≠ [] ∧
      layout.artifactFileName runId artifactId ≠ ['.'] := by
  have hlong : 1 < (layout.artifactFileName runId artifactId).length := by
    cases layout with
    | linux => simp [StateLayout.artifactFileName]
    | esp32 =>
      rw [StateLayout.artifactFileName, List.length_append, List.length_cons, List.length_append]
      have hext : ".j".toList.length = 2 := rfl
      omega
  refine ⟨?_, ?_, ?_⟩
  · cases layout with
    | linux => simp [StateLayout.artifactFileName, hartifact.slash]
    | esp32 => simp [StateLayout.artifactFileName, hrun.slash, hartifact.slash]
  · intro h
    simp [h] at hlong
  · intro h
    simp [h] at hlong

theorem linux_artifactDir {runId : List Char} (hrun : IsFileId runId) :
    statePathJoin .linux (StateLayout.linux.artifactDir runId) = ["memory".toList, "task_artifacts".toList, runId] := by
  have hsplit : StateLayout.linux.artifactDir runId = "memory".toList ++ '/' :: ("task_artifacts".toList ++ '/' :: runId) :=
    rfl
  rw [statePathJoin, hsplit, pathComponents_cons _ (by decide) (by decide) (by decide), components_append_cons,
    components_of_notMem hrun.slash hrun.ne_nil hrun.ne_dot, components_of_notMem (by decide) (by decide) (by decide)]
  rfl

theorem linux_artifactEntry {runId name : List Char} (hrun : IsFileId runId) (hslash : '/' ∉ name) (hne : name ≠ [])
    (hdot : name ≠ ['.']) :
    statePathJoin .linux (StateLayout.linux.artifactEntry runId name) =
      ["memory".toList, "task_artifacts".toList, runId, name] := by
  have hsplit : StateLayout.linux.artifactEntry runId name =
      "memory".toList ++ '/' :: ("task_artifacts".toList ++ '/' :: (runId ++ '/' :: name)) := by
    rw [StateLayout.artifactEntry, StateLayout.artifactDir, List.append_assoc]
    rfl
  rw [statePathJoin, hsplit, pathComponents_cons _ (by decide) (by decide) (by decide), components_append_cons,
    components_append_cons, components_of_notMem hrun.slash hrun.ne_nil hrun.ne_dot, components_of_notMem hslash hne hdot,
    components_of_notMem (by decide) (by decide) (by decide)]
  rfl

/-- Nothing else than its length takes the name from such a path. -/
theorem keepsName_iff_of_x (rest : List Char) :
    KeepsName ('x' :: rest) ↔ (utf8 ('x' :: rest)).length ≤ espSafeRelPathLen := by
  have hfixed : 'x' :: rest ∉ espFixedAliases.map Prod.fst := by
    intro h
    have hall : ∀ rel ∈ espFixedAliases.map Prod.fst, rel.head? = some 'm' := by decide
    exact absurd (Option.some.inj (hall _ h)) (by decide)
  have hgarden : ¬ relPathPrivateGardenDir <+: 'x' :: rest := by
    rintro ⟨back, hback⟩
    exact absurd (List.cons.inj hback).1 (by decide)
  exact ⟨fun h => h.2.2, fun h => ⟨hfixed, hgarden, h⟩⟩

theorem espStorageRelPath_of_keepsName {rel : List Char} (h : KeepsName rel) : espStorageRelPath rel = rel := by
  rcases filedAs_or_keepsName rel with ⟨-, hname⟩ | hfiled
  · exact hname
  · exact absurd h hfiled.not_keepsName

theorem esp_artifactDir (runId : List Char) :
    statePathJoin .esp32 (StateLayout.esp32.artifactDir runId) = [['x'], ['a']] := by
  have hkeeps : KeepsName (StateLayout.esp32.artifactDir runId) := (keepsName_iff_of_x ['/', 'a']).mpr (by decide)
  have hsplit : StateLayout.esp32.artifactDir runId = ['x'] ++ '/' :: ['a'] := rfl
  rw [statePathJoin, espStorageRelPath_of_keepsName hkeeps, hsplit]
  exact pathComponents_pair (by decide) (by decide) (by decide) (by decide) (by decide) (by decide)

theorem esp_artifactEntry (runId : List Char) {name : List Char} (hslash : '/' ∉ name) (hne : name ≠ []) (hdot : name ≠ ['.']) :
    (utf8 (StateLayout.esp32.artifactEntry runId name)).length ≤ espSafeRelPathLen ∧
        statePathJoin .esp32 (StateLayout.esp32.artifactEntry runId name) = [['x'], ['a'], name] ∨
      espSafeRelPathLen < (utf8 (StateLayout.esp32.artifactEntry runId name)).length ∧
        (statePathJoin .esp32 (StateLayout.esp32.artifactEntry runId name)).length = 2 := by
  rcases filedAs_or_keepsName (StateLayout.esp32.artifactEntry runId name) with ⟨hkeeps, hname⟩ | hfiled
  · left
    have hsplit : StateLayout.esp32.artifactEntry runId name = ['x'] ++ '/' :: (['a'] ++ '/' :: name) := rfl
    refine ⟨hkeeps.2.2, ?_⟩
    rw [statePathJoin, hname, hsplit, pathComponents_cons _ (by decide) (by decide) (by decide), components_append_cons,
      components_of_notMem hslash hne hdot, components_of_notMem (by decide) (by decide) (by decide)]
    rfl
  · right
    have hlong := mt (keepsName_iff_of_x ('/' :: 'a' :: '/' :: name)).mpr hfiled.not_keepsName
    exact ⟨Nat.lt_of_not_le hlong, hfiled.length_eq⟩

namespace StorageTaskArtifactStore
variable {store : StorageTaskArtifactStore} {record : TaskArtifactRecord} {listed : Except Error (List (List Char))}
  {names : List (List Char)} {dir : StatePath} {files : Files} {records : List TaskArtifactRecord}

def recordName (store : StorageTaskArtifactStore) (record : TaskArtifactRecord) : List Char :=
  store.layout.artifactFileName record.artifact.runId record.artifact.artifactId

def recordEntry (store : StorageTaskArtifactStore) (record : TaskArtifactRecord) : List Char :=
  store.layout.artifactEntry record.artifact.runId (store.recordName record)

/-- The artifact's file is in the directory that is listed for the run. -/
def InDir (store : StorageTaskArtifactStore) (runId : List Char) (record : TaskArtifactRecord) : Prop :=
  match store.layout with
  | .linux => record.artifact.runId = runId
  | .esp32 => (utf8 (store.recordEntry record)).length ≤ espSafeRelPathLen

theorem recordPath_eq_iff (hids : record.HasFileIds) {runId : List Char} (hrun : IsFileId runId) (name : List Char) :
    store.recordPath record = statePathJoin store.layout (store.layout.artifactDir runId) ++ [name] ↔
      store.InDir runId record ∧ store.recordName record = name := by
  obtain ⟨hslash, hne, hdot⟩ := fileName_plain store.layout hids.runId hids.artifactId
  unfold InDir recordEntry recordName recordPath StateLayout.artifactFilePath
  cases hlayout : store.layout with
  | linux =>
    rw [hlayout] at hslash hne hdot
    rw [linux_artifactEntry hids.runId hslash hne hdot, linux_artifactDir hrun]
    simp
  | esp32 =>
    rw [hlayout] at hslash hne hdot
    rw [esp_artifactDir]
    rcases esp_artifactEntry record.artifact.runId hslash hne hdot with ⟨hshort, hpath⟩ | ⟨hlong, hlength⟩
    · rw [hpath]
      simp [hshort]
    · constructor
      · intro h
        rw [h] at hlength
        exact absurd hlength (by simp)
      · intro h
        exact absurd h.1 (Nat.not_le_of_lt hlong)

/-- The name leads back to the file. -/
theorem statePathJoin_recordName {runId : List Char} (h : store.InDir runId record) :
    statePathJoin store.layout (store.layout.artifactEntry runId (store.recordName record)) = store.recordPath record := by
  unfold InDir at h
  unfold recordPath StateLayout.artifactFilePath recordName
  cases hlayout : store.layout with
  | linux =>
    rw [hlayout] at h
    rw [h]
  | esp32 => rfl

/-! Runs. -/

/-- The puts so far: the files, and the artifacts of the puts that returned `Ok`. -/
structure PutRun where
  files : Files
  stored : List TaskArtifactRecord

def stepRun (store : StorageTaskArtifactStore) (run : PutRun) (record : TaskArtifactRecord) : PutRun where
  files := (store.put run.files record .none).1
  stored := if (store.put run.files record .none).2.isOk then run.stored ++ [record] else run.stored

def runPuts (store : StorageTaskArtifactStore) (records : List TaskArtifactRecord) : PutRun :=
  records.foldl store.stepRun ⟨fun _ => none, []⟩

/-- The artifacts that have a file. -/
def onDisk (store : StorageTaskArtifactStore) (run : PutRun) : List TaskArtifactRecord :=
  overwrites store.recordPath run.stored

/-- What the files are after a run. -/
structure Stored (store : StorageTaskArtifactStore) (run : PutRun) : Prop where
  files_iff : ∀ path bytes, run.files path = some bytes ↔
    ∃ record ∈ store.onDisk run, store.recordPath record = path ∧ record.toVec = bytes
  fits : ∀ record ∈ run.stored, record.toVec.length ≤ store.maxWriteSize
  ids : ∀ record ∈ run.stored, record.HasFileIds

/-- A put without a fault writes the file, if that is not too large. -/
theorem put_cases (files : Files) (record : TaskArtifactRecord) :
    (store.maxWriteSize < record.toVec.length ∧ ∃ e, store.put files record .none = (files, .error e)) ∨
      record.toVec.length ≤ store.maxWriteSize ∧
        store.put files record .none = (Function.update files (store.recordPath record) (some record.toVec), .ok ()) := by
  have hparent : ensureParentDir store.layout .none "task_artifact_dir" = .ok () := by
    cases store.layout <;> rfl
  unfold put writeFileUnlocked
  simp only [PutFaults.none, hparent]
  by_cases hsize : record.toVec.length > store.maxWriteSize
  · left
    rw [if_pos hsize, Function.update_eq_self]
    exact ⟨hsize, _, rfl⟩
  · right
    rw [if_neg hsize]
    exact ⟨Nat.le_of_not_lt hsize, rfl⟩

theorem stored_stepRun {run : PutRun} (h : store.Stored run) (hids : record.HasFileIds) :
    store.Stored (store.stepRun run record) := by
  unfold stepRun
  rcases store.put_cases run.files record with ⟨-, e, hput⟩ | ⟨hsize, hput⟩
  · rw [hput]
    exact h
  · rw [hput]
    constructor
    case files_iff =>
      intro path bytes
      have hdisk : store.onDisk ⟨Function.update run.files (store.recordPath record) (some record.toVec),
          run.stored ++ [record]⟩ = overwrite store.recordPath (store.onDisk run) record :=
        overwrites_concat store.recordPath run.stored record
      simp only [Except.isOk, Except.toBool, if_true]
      rw [hdisk, overwrite]
      by_cases hpath : path = store.recordPath record
      · subst hpath
        rw [Function.update_self, Option.some.injEq]
        constructor
        · intro hbytes
          exact ⟨record, List.mem_cons_self, rfl, hbytes⟩
        · rintro ⟨other, hother, heq, hbytes⟩
          rcases List.mem_cons.mp hother with rfl | hother
          · exact hbytes
          · exact absurd heq (of_decide_eq_true (List.mem_filter.mp hother).2)
      · rw [Function.update_of_ne hpath, h.files_iff]
        have hpath' : ¬ store.recordPath record = path := fun heq => hpath heq.symm
        simp only [List.mem_cons, List.mem_filter, exists_eq_or_imp, hpath', false_and, false_or]
        constructor
        · rintro ⟨other, hother, rfl, hbytes⟩
          exact ⟨other, ⟨hother, decide_eq_true hpath⟩, rfl, hbytes⟩
        · rintro ⟨other, ⟨hother, -⟩, heq, hbytes⟩
          exact ⟨other, hother, heq, hbytes⟩
    case fits =>
      intro other hother
      rcases List.mem_append.mp hother with hother | hother
      · exact h.fits other hother
      · rw [List.mem_singleton.mp hother]
        exact hsize
    case ids =>
      intro other hother
      rcases List.mem_append.mp hother with hother | hother
      · exact h.ids other hother
      · rw [List.mem_singleton.mp hother]
        exact hids

theorem stored_runPuts (hids : ∀ record ∈ records, record.HasFileIds) : store.Stored (store.runPuts records) := by
  induction records using List.reverseRecOn with
  | nil => exact ⟨by simp [runPuts, onDisk], List.forall_mem_nil _, List.forall_mem_nil _⟩
  | append_singleton records record ih =>
    rw [runPuts, List.foldl_concat]
    have hrun := ih fun other hother => hids other (List.mem_append_left _ hother)
    exact stored_stepRun hrun (hids record (List.mem_append_right _ List.mem_cons_self))

theorem stored_eq_of_fits
    (hfits : ∀ record ∈ records, record.toVec.length ≤ store.maxWriteSize) : (store.runPuts records).stored = records := by
  induction records using List.reverseRecOn with
  | nil => rfl
  | append_singleton records record ih =>
    have hbefore : (store.runPuts records).stored = records := ih fun other hother => hfits other (List.mem_append_left _ hother)
    have hsize := hfits record (List.mem_append_right _ List.mem_cons_self)
    rw [runPuts, List.foldl_concat, ← runPuts, stepRun]
    rcases store.put_cases (store.runPuts records).files record with ⟨hlong, -⟩ | ⟨-, hput⟩
    · exact absurd hlong (Nat.not_lt_of_le hsize)
    · rw [hput, hbefore]
      rfl

/-! What is read. -/

theorem readOptionalJson_toVec (hsize : record.toVec.length ≤ store.maxWriteSize)
    (stage : String) : store.readOptionalJson (some record.toVec) stage none = .ok (some record) := by
  have hread : readFile store.maxWriteSize (some record.toVec) none = .ok record.toVec := by
    rw [readFile]
    exact if_neg (Nat.not_lt_of_le hsize)
  rw [readOptionalJson, hread]
  dsimp only
  rw [if_neg record.toVec_ne_nil, record.fromSlice_toVec]

/-- What `list_dir` gives: the name of each file once, in any order, or an error where there is no directory. -/
inductive ListsDir (files : Files) (dir : StatePath) : List (List Char) → Except Error (List (List Char)) → Prop where
  | found (names : List (List Char)) (hnodup : names.Nodup)
      (hmem : ∀ name, name ∈ names ↔ (files (dir ++ [name])).isSome = true) : ListsDir files dir names (.ok names)
  | missing (e : Error) (he : e.isNotFound = true) (hempty : ∀ name, files (dir ++ [name]) = none) :
      ListsDir files dir [] (.error e)

section
variable (h : ListsDir files dir names listed)
include h

theorem ListsDir.nodup : names.Nodup := by
  cases h with
  | found _ hnodup => exact hnodup
  | missing => exact List.nodup_nil

theorem ListsDir.mem_iff (name : List Char) : name ∈ names ↔ (files (dir ++ [name])).isSome = true := by
  cases h with
  | found _ _ hmem => exact hmem name
  | missing _ _ hempty => simp [hempty]

theorem ListsDir.listDirOptional (stage : String) : listDirOptional listed stage = .ok names := by
  cases h with
  | found => rfl
  | missing e he => rw [Storage.listDirOptional, if_pos he]

end

section
variable {run : PutRun} (hstored : store.Stored run) {runId : List Char} {listed : Except Error (List (List Char))}
  {names : List (List Char)}
include hstored

/-- The files in the directory are those of the artifacts in it. -/
theorem isSome_files_iff (hrun : IsFileId runId) (name : List Char) :
    (run.files (statePathJoin store.layout (store.layout.artifactDir runId) ++ [name])).isSome = true ↔
      ∃ record ∈ store.onDisk run, store.InDir runId record ∧ store.recordName record = name := by
  have hpath {record : TaskArtifactRecord} (hrecord : record ∈ store.onDisk run) :=
    @recordPath_eq_iff store record (hstored.ids record (mem_of_mem_overwrites hrecord)) runId hrun name
  rw [Option.isSome_iff_exists]
  constructor
  · rintro ⟨bytes, hbytes⟩
    obtain ⟨record, hrecord, heq, -⟩ := (hstored.files_iff _ _).mp hbytes
    exact ⟨record, hrecord, (hpath hrecord).mp heq⟩
  · rintro ⟨record, hrecord, hin⟩
    exact ⟨record.toVec, (hstored.files_iff _ _).mpr ⟨record, hrecord, (hpath hrecord).mpr hin, rfl⟩⟩

theorem mem_names_iff (hrun : IsFileId runId)
    (hlisted : ListsDir run.files (statePathJoin store.layout (store.layout.artifactDir runId)) names listed)
    (name : List Char) :
    name ∈ names ↔ ∃ record ∈ store.onDisk run, store.InDir runId record ∧ store.recordName record = name := by
  rw [hlisted.mem_iff, isSome_files_iff hstored hrun]

/-- One artifact is read for each name. -/
theorem exists_readRecords {taken : List (List Char)}
    (htaken : ∀ name ∈ taken, ∃ record ∈ store.onDisk run, store.InDir runId record ∧ store.recordName record = name) :
    ∃ seen, store.readRecords run.files runId (fun _ => none) taken = .ok seen ∧ seen.map store.recordName = taken ∧
      ∀ record ∈ seen, record ∈ store.onDisk run ∧ store.InDir runId record := by
  induction taken with
  | nil => exact ⟨[], rfl, rfl, List.forall_mem_nil _⟩
  | cons name taken ih =>
    obtain ⟨⟨record, hrecord, hin, rfl⟩, hrest⟩ := List.forall_mem_cons.mp htaken
    obtain ⟨seen, hread, hnames, hseen⟩ := ih hrest
    have hfile : run.files (store.recordPath record) = some record.toVec :=
      (hstored.files_iff _ _).mpr ⟨record, hrecord, rfl, rfl⟩
    have hsize := hstored.fits record (mem_of_mem_overwrites hrecord)
    refine ⟨record :: seen, ?_, ?_, List.forall_mem_cons.mpr ⟨⟨hrecord, hin⟩, hseen⟩⟩
    · rw [readRecords, statePathJoin_recordName hin, hfile, readOptionalJson_toVec hsize, hread]
      rfl
    · rw [List.map_cons, hnames]

/-- The artifacts that are sorted are those in the directory that have one of the first names. -/
theorem exists_listForRun (hrun : IsFileId runId)
    (hlisted : ListsDir run.files (statePathJoin store.layout (store.layout.artifactDir runId)) names listed)
    {limit : Nat} (hlimit : 0 < limit) :
    ∃ seen, store.listForRun run.files listed (fun _ => none) runId limit =
        .ok (sortDescending TaskArtifactRecord.createdAt seen) ∧
      seen.Nodup ∧ seen.length = min limit (store.namesOfRun runId names).length ∧
      ∀ record, record ∈ seen ↔ record ∈ store.onDisk run ∧ store.InDir runId record ∧
        store.recordName record ∈ (store.namesOfRun runId names).take limit := by
  have hsub : (store.namesOfRun runId names).Sublist names := by
    unfold namesOfRun
    cases store.layout with
    | linux => exact List.Sublist.refl _
    | esp32 => exact List.filter_sublist
  have hnodup : ((store.namesOfRun runId names).take limit).Nodup :=
    hlisted.nodup.sublist ((List.take_sublist _ _).trans hsub)
  have htaken : ∀ name ∈ (store.namesOfRun runId names).take limit,
      ∃ record ∈ store.onDisk run, store.InDir runId record ∧ store.recordName record = name := by
    intro name hname
    exact (mem_names_iff hstored hrun hlisted name).mp (hsub.subset (List.mem_of_mem_take hname))
  obtain ⟨seen, hread, hnames, hseen⟩ := exists_readRecords hstored htaken
  have hlength : seen.length = min limit (store.namesOfRun runId names).length := by
    rw [← List.length_take, ← hnames, List.length_map]
  refine ⟨seen, ?_, (hnames ▸ hnodup).of_map _, hlength, fun record => ?_⟩
  · have hcut : ¬ limit < (sortDescending TaskArtifactRecord.createdAt seen).length := by
      rw [(perm_sortDescending _ seen).length_eq]
      omega
    rw [listForRun, hlisted.listDirOptional, Nat.max_eq_left hlimit, except_ok_bind, hread, except_ok_bind]
    dsimp only
    rw [if_neg hcut]
    rfl
  · constructor
    · intro hrecord
      exact ⟨(hseen record hrecord).1, (hseen record hrecord).2, hnames ▸ List.mem_map_of_mem hrecord⟩
    · rintro ⟨hdisk, hin, hname⟩
      rw [← hnames] at hname
      obtain ⟨other, hother, heq⟩ := List.mem_map.mp hname
      obtain ⟨hotherDisk, hotherIn⟩ := hseen other hother
      have hpath : store.recordPath other = store.recordPath record := by
        rw [← statePathJoin_recordName hotherIn, ← statePathJoin_recordName hin, heq]
      rw [← eq_of_mem_overwrites hotherDisk hdisk hpath]
      exact hother

end

end StorageTaskArtifactStore

/-! When the newest artifacts of a run are listed. -/

namespace StorageTaskArtifactStore
variable {store : StorageTaskArtifactStore} {run : PutRun} {runId : List Char} {names : List (List Char)}

/-- Of each artifact of the run, what was put last. -/
def artifactsOf (run : PutRun) (runId : List Char) : List TaskArtifactRecord :=
  (overwrites (fun record => (record.artifact.runId, record.artifact.artifactId)) run.stored).filter
    fun record => record.artifact.runId = runId

theorem nodup_artifactsOf (run : PutRun) (runId : List Char) : (artifactsOf run runId).Nodup :=
  (nodup_overwrites _ _).filter _

/-- What has a file has been put last. -/
theorem mem_artifactsOf_of_onDisk {record : TaskArtifactRecord} (h : record ∈ store.onDisk run) :
    record ∈ artifactsOf run runId ↔ record.artifact.runId = runId := by
  have hpath (a b : TaskArtifactRecord)
      (hids : (a.artifact.runId, a.artifact.artifactId) = (b.artifact.runId, b.artifact.artifactId)) :
      store.recordPath a = store.recordPath b := by
    obtain ⟨hrun, hartifact⟩ := Prod.mk.inj hids
    rw [recordPath, recordPath, hrun, hartifact]
  have hlast : record ∈ overwrites (fun r => (r.artifact.runId, r.artifact.artifactId)) run.stored :=
    mem_overwrites_of_coarser (fun a _ b _ => hpath a b) h
  simp [artifactsOf, hlast]

/-- When the artifacts in the first files of the directory are the newest ones of the run. On ESP the names that start
with the run's id count as its files, and an artifact has no file in the directory if its path is too long or another
artifact has been put under the same name. -/
def NewestNamedFirst (store : StorageTaskArtifactStore) (run : PutRun) (runId : List Char) (names : List (List Char))
    (limit : Nat) : Prop :=
  let first := (store.namesOfRun runId names).take limit
  let later := (store.namesOfRun runId names).drop limit
  match store.layout with
  | .linux =>
    ∀ a ∈ artifactsOf run runId, store.recordName a ∈ later →
      ∀ b ∈ artifactsOf run runId, store.recordName b ∈ first → a.createdAt ≤ b.createdAt
  | .esp32 =>
    (∀ b ∈ store.onDisk run, store.recordName b ∈ first → b.artifact.runId = runId) ∧
    ∀ a ∈ artifactsOf run runId,
      a ∉ store.onDisk run ∨ espSafeRelPathLen < (utf8 (store.recordEntry a)).length ∨ store.recordName a ∈ later →
      limit ≤ (store.namesOfRun runId names).length ∧
        ∀ b ∈ store.onDisk run, store.recordName b ∈ first → a.createdAt ≤ b.createdAt

/-- On Linux the directory is that of the run, and each artifact of the run has a file in it. -/
theorem linux_mem_iff (hlayout : store.layout = .linux) (hstored : store.Stored run) (record : TaskArtifactRecord) :
    record ∈ store.onDisk run ∧ store.InDir runId record ↔ record ∈ artifactsOf run runId := by
  have hin (runId : List Char) (record : TaskArtifactRecord) :
      store.InDir runId record ↔ record.artifact.runId = runId := by
    rw [InDir, hlayout]
  constructor
  · rintro ⟨hdisk, hrecord⟩
    exact (mem_artifactsOf_of_onDisk hdisk).mpr ((hin runId record).mp hrecord)
  · intro hrecord
    obtain ⟨hlast, hrun⟩ := List.mem_filter.mp hrecord
    refine ⟨mem_overwrites_of_coarser ?_ hlast, (hin runId record).mpr (of_decide_eq_true hrun)⟩
    intro a ha b hb hpath
    have hbpath := (recordPath_eq_iff (hstored.ids b hb) (hstored.ids b hb).runId (store.recordName b)).mpr
      ⟨(hin _ b).mpr rfl, rfl⟩
    obtain ⟨hrun, hname⟩ := (recordPath_eq_iff (hstored.ids a ha) (hstored.ids b hb).runId (store.recordName b)).mp
      (hpath.trans hbpath)
    rw [recordName, recordName, hlayout] at hname
    exact Prod.ext ((hin _ a).mp hrun) (List.append_cancel_right hname)

/-- On ESP the name alone says whether the file is in the directory. -/
theorem esp_inDir_congr (hlayout : store.layout = .esp32) {a b : TaskArtifactRecord}
    (hname : store.recordName a = store.recordName b) : store.InDir runId a ↔ store.InDir runId b := by
  have hentry : store.recordEntry a = store.recordEntry b := by
    rw [recordEntry, recordEntry, hname, hlayout]
    rfl
  rw [InDir, InDir, hlayout, hentry]

section
variable (hstored : store.Stored run) (hrun : IsFileId runId) {listed : Except Error (List (List Char))}
  (hlisted : ListsDir run.files (statePathJoin store.layout (store.layout.artifactDir runId)) names listed)
  {limit : Nat} {seen : List TaskArtifactRecord}
  (hlength : seen.length = min limit (store.namesOfRun runId names).length)
  (hmem : ∀ record, record ∈ seen ↔ record ∈ store.onDisk run ∧ store.InDir runId record ∧
    store.recordName record ∈ (store.namesOfRun runId names).take limit)
include hstored hrun hlisted hlength hmem

theorem linux_seen_newest_iff (hlayout : store.layout = .linux) :
    ((∀ b ∈ seen, b ∈ artifactsOf run runId) ∧ ∀ a ∈ artifactsOf run runId, a ∉ seen →
        limit ≤ seen.length ∧ ∀ b ∈ seen, a.createdAt ≤ b.createdAt) ↔
      store.NewestNamedFirst run runId names limit := by
  have hnames : store.namesOfRun runId names = names := by
    rw [namesOfRun, hlayout]
  have hseen (record : TaskArtifactRecord) :
      record ∈ seen ↔ record ∈ artifactsOf run runId ∧ store.recordName record ∈ names.take limit := by
    rw [hmem, ← and_assoc, linux_mem_iff hlayout hstored, hnames]
  have hlater {a : TaskArtifactRecord} (ha : a ∈ artifactsOf run runId) :
      a ∉ seen ↔ store.recordName a ∈ names.drop limit := by
    obtain ⟨hdisk, hin⟩ := (linux_mem_iff hlayout hstored a).mpr ha
    have hname : store.recordName a ∈ names := (mem_names_iff hstored hrun hlisted _).mpr ⟨a, hdisk, hin, rfl⟩
    rw [hseen, not_and, ← notMem_take_iff hlisted.nodup hname limit]
    exact ⟨fun h => h ha, fun h _ => h⟩
  unfold NewestNamedFirst
  rw [hlayout, hnames]
  dsimp only
  constructor
  · rintro ⟨-, hothers⟩ a ha hname b hb hfirst
    exact (hothers a ha ((hlater ha).mpr hname)).2 b ((hseen b).mpr ⟨hb, hfirst⟩)
  · intro h
    refine ⟨fun b hb => ((hseen b).mp hb).1, fun a ha hmissing => ⟨?_, fun b hb => ?_⟩⟩
    · have hdrop := List.length_pos_of_mem ((hlater ha).mp hmissing)
      rw [List.length_drop] at hdrop
      rw [hlength, hnames]
      omega
    · exact h a ha ((hlater ha).mp hmissing) b ((hseen b).mp hb).1 ((hseen b).mp hb).2

theorem esp_seen_newest_iff (hlayout : store.layout = .esp32) :
    ((∀ b ∈ seen, b ∈ artifactsOf run runId) ∧ ∀ a ∈ artifactsOf run runId, a ∉ seen →
        limit ≤ seen.length ∧ ∀ b ∈ seen, a.createdAt ≤ b.createdAt) ↔
      store.NewestNamedFirst run runId names limit := by
  have hnames : store.namesOfRun runId names = names.filter fun name => runId.isPrefixOf name := by
    rw [namesOfRun, hlayout]
  have hnodup : (store.namesOfRun runId names).Nodup := by
    rw [hnames]
    exact hlisted.nodup.filter _
  have hin (record : TaskArtifactRecord) :
      store.InDir runId record ↔ (utf8 (store.recordEntry record)).length ≤ espSafeRelPathLen := by
    rw [InDir, hlayout]
  have hseen (record : TaskArtifactRecord) : record ∈ seen ↔
      record ∈ store.onDisk run ∧ store.recordName record ∈ (store.namesOfRun runId names).take limit := by
    rw [hmem]
    refine ⟨fun h => ⟨h.1, h.2.2⟩, fun h => ⟨h.1, ?_, h.2⟩⟩
    have hname := List.mem_of_mem_take h.2
    rw [hnames] at hname
    obtain ⟨other, -, hother, heq⟩ := (mem_names_iff hstored hrun hlisted _).mp (List.mem_of_mem_filter hname)
    exact (esp_inDir_congr hlayout heq).mp hother
  have hmissing {a : TaskArtifactRecord} (ha : a ∈ artifactsOf run runId) :
      a ∉ seen ↔ a ∉ store.onDisk run ∨ espSafeRelPathLen < (utf8 (store.recordEntry a)).length ∨
        store.recordName a ∈ (store.namesOfRun runId names).drop limit := by
    by_cases hdisk : a ∈ store.onDisk run
    · by_cases hshort : (utf8 (store.recordEntry a)).length ≤ espSafeRelPathLen
      · have hname : store.recordName a ∈ store.namesOfRun runId names := by
          have hprefix : runId.isPrefixOf (store.recordName a) = true := by
            rw [List.isPrefixOf_iff_prefix, recordName, hlayout, (mem_artifactsOf_of_onDisk hdisk).mp ha]
            exact List.prefix_append _ _
          rw [hnames]
          exact List.mem_filter.mpr
            ⟨(mem_names_iff hstored hrun hlisted _).mpr ⟨a, hdisk, (hin a).mpr hshort, rfl⟩, hprefix⟩
        have hlong : ¬ espSafeRelPathLen < (utf8 (store.recordEntry a)).length := Nat.not_lt_of_le hshort
        rw [hseen, ← notMem_take_iff hnodup hname limit]
        simp [hdisk, hlong]
      · have hout : a ∉ seen := fun h => hshort ((hin a).mp ((hmem a).mp h).2.1)
        simp [hout, Nat.lt_of_not_le hshort]
    · have hout : a ∉ seen := fun h => hdisk ((hmem a).mp h).1
      simp [hout, hdisk]
  have hcount : limit ≤ seen.length ↔ limit ≤ (store.namesOfRun runId names).length := by
    rw [hlength]
    omega
  unfold NewestNamedFirst
  rw [hlayout]
  dsimp only
  constructor
  · rintro ⟨hown, hothers⟩
    refine ⟨fun b hb hfirst => ?_, fun a ha hhidden => ⟨?_, fun b hb hfirst => ?_⟩⟩
    · exact (mem_artifactsOf_of_onDisk hb).mp (hown b ((hseen b).mpr ⟨hb, hfirst⟩))
    · exact hcount.mp (hothers a ha ((hmissing ha).mpr hhidden)).1
    · exact (hothers a ha ((hmissing ha).mpr hhidden)).2 b ((hseen b).mpr ⟨hb, hfirst⟩)
  · rintro ⟨hown, hothers⟩
    refine ⟨fun b hb => ?_, fun a ha hout => ⟨?_, fun b hb => ?_⟩⟩
    · obtain ⟨hdisk, hfirst⟩ := (hseen b).mp hb
      exact (mem_artifactsOf_of_onDisk hdisk).mpr (hown b hdisk hfirst)
    · exact hcount.mpr (hothers a ha ((hmissing ha).mp hout)).1
    · obtain ⟨hdisk, hfirst⟩ := (hseen b).mp hb
      exact (hothers a ha ((hmissing ha).mp hout)).2 b hdisk hfirst

end

theorem listForRun_newest_iff (hstored : store.Stored run) (hrun : IsFileId runId)
    {listed : Except Error (List (List Char))}
    (hlisted : ListsDir run.files (statePathJoin store.layout (store.layout.artifactDir runId)) names listed)
    {limit : Nat} (hlimit : 0 < limit) :
    (∃ out, store.listForRun run.files listed (fun _ => none) runId limit = .ok out ∧
      Greatest TaskArtifactRecord.createdAt limit (artifactsOf run runId) out) ↔
    store.NewestNamedFirst run runId names limit := by
  obtain ⟨seen, hlist, hnodup, hlength, hmem⟩ := exists_listForRun hstored hrun hlisted hlimit
  have hgreatest := @greatest_sortDescending_iff _ _ _ TaskArtifactRecord.createdAt limit _ seen hnodup
    (nodup_artifactsOf run runId) (by omega)
  have hout : (∃ out, store.listForRun run.files listed (fun _ => none) runId limit = .ok out ∧
      Greatest TaskArtifactRecord.createdAt limit (artifactsOf run runId) out) ↔
      Greatest TaskArtifactRecord.createdAt limit (artifactsOf run runId)
        (sortDescending TaskArtifactRecord.createdAt seen) := by
    rw [hlist]
    exact ⟨fun ⟨out, heq, h⟩ => Except.ok.inj heq ▸ h, fun h => ⟨_, rfl, h⟩⟩
  rw [hout, hgreatest]
  cases hlayout : store.layout with
  | linux => exact linux_seen_newest_iff hstored hrun hlisted hlength hmem hlayout
  | esp32 => exact esp_seen_newest_iff hstored hrun hlisted hlength hmem hlayout

end StorageTaskArtifactStore

/-- After any puts, the newest artifacts of a run are listed, as many as the limit allows and the newest first, exactly
if those in the first files of the directory are the newest. -/
theorem lists_newest_iff (store : StorageTaskArtifactStore) {records : List TaskArtifactRecord}
    (hids : ∀ record ∈ records, record.HasFileIds) {runId : List Char} (hrun : IsFileId runId)
    {names : List (List Char)} {listed : Except Error (List (List Char))}
    (hlisted : StorageTaskArtifactStore.ListsDir (store.runPuts records).files
      (statePathJoin store.layout (store.layout.artifactDir runId)) names listed)
    {limit : Nat} (hlimit : 0 < limit) :
    (∃ out, store.listForRun (store.runPuts records).files listed (fun _ => none) runId limit = .ok out ∧
      Greatest TaskArtifactRecord.createdAt limit
        (StorageTaskArtifactStore.artifactsOf (store.runPuts records) runId) out) ↔
    store.NewestNamedFirst (store.runPuts records) runId names limit :=
  StorageTaskArtifactStore.listForRun_newest_iff (StorageTaskArtifactStore.stored_runPuts hids) hrun hlisted hlimit

/-! Two artifacts of one run, of which one is to be listed. -/

def hostArtifactStore : StorageTaskArtifactStore :=
  ⟨.linux, maxWriteSizeHost, fun _ => "EOF while parsing an object"⟩

def stepArtifact (artifactId : String) (createdAt : UInt64) : TaskArtifactRecord where
  artifact :=
    { artifactId := artifactId.toList
      runId := "tr1".toList
      stepId := "s1".toList
      kind := .stepResult
      summary := "done".toList
      contentRef := "inline".toList
      provenance := []
      createdAt }
  content := "done".toList

def twoArtifacts : List TaskArtifactRecord := [stepArtifact "a01" 1, stepArtifact "a02" 2]

theorem isFileId_tr1 : IsFileId "tr1".toList := ⟨by decide, by decide, by decide, by decide⟩

theorem hasFileIds_twoArtifacts : ∀ record ∈ twoArtifacts, record.HasFileIds := by
  have hids : ∀ record ∈ twoArtifacts, record.artifact.runId = "tr1".toList ∧
      '/' ∉ record.artifact.artifactId ∧ record.artifact.artifactId ≠ [] ∧ record.artifact.artifactId ≠ ['.'] ∧
      record.artifact.artifactId ≠ ['.', '.'] := by decide
  intro record hrecord
  obtain ⟨hrun, hslash, hne, hdot, hdots⟩ := hids record hrecord
  exact ⟨hrun ▸ isFileId_tr1, ⟨hslash, hne, hdot, hdots⟩⟩

theorem artifactsOf_twoArtifacts :
    StorageTaskArtifactStore.artifactsOf (hostArtifactStore.runPuts twoArtifacts) "tr1".toList = twoArtifacts.reverse := by
  have hfits : ∀ record ∈ twoArtifacts, record.toVec.length ≤ hostArtifactStore.maxWriteSize := by decide +kernel
  rw [StorageTaskArtifactStore.artifactsOf, StorageTaskArtifactStore.stored_eq_of_fits hfits]
  decide

/-- Both orders of the two names can be listed. -/
theorem listsDir_twoArtifacts {names : List (List Char)} (hnames : names.Perm ["a01.json".toList, "a02.json".toList]) :
    StorageTaskArtifactStore.ListsDir (hostArtifactStore.runPuts twoArtifacts).files
      (statePathJoin hostArtifactStore.layout (hostArtifactStore.layout.artifactDir "tr1".toList)) names (.ok names) := by
  have hstored : hostArtifactStore.Stored (hostArtifactStore.runPuts twoArtifacts) :=
    StorageTaskArtifactStore.stored_runPuts hasFileIds_twoArtifacts
  refine .found names (hnames.nodup_iff.mpr (by decide)) fun name => ?_
  rw [StorageTaskArtifactStore.isSome_files_iff hstored isFileId_tr1, hnames.mem_iff]
  have hmem (record : TaskArtifactRecord) :
      record ∈ hostArtifactStore.onDisk (hostArtifactStore.runPuts twoArtifacts) ∧
        hostArtifactStore.InDir "tr1".toList record ↔ record ∈ twoArtifacts.reverse := by
    rw [StorageTaskArtifactStore.linux_mem_iff rfl hstored, artifactsOf_twoArtifacts]
  have hnamesOf : twoArtifacts.reverse.map hostArtifactStore.recordName = ["a02.json".toList, "a01.json".toList] := rfl
  have hswap : name ∈ ["a01.json".toList, "a02.json".toList] ↔ name ∈ twoArtifacts.reverse.map hostArtifactStore.recordName := by
    rw [hnamesOf]
    exact (List.Perm.swap _ _ []).mem_iff
  simp only [← and_assoc, hmem]
  rw [hswap, List.mem_map]

theorem newestNamedFirst_twoArtifacts (names : List (List Char)) :
    hostArtifactStore.NewestNamedFirst (hostArtifactStore.runPuts twoArtifacts) "tr1".toList names 1 ↔
      ∀ a ∈ twoArtifacts.reverse, hostArtifactStore.recordName a ∈ names.drop 1 →
        ∀ b ∈ twoArtifacts.reverse, hostArtifactStore.recordName b ∈ names.take 1 → a.createdAt ≤ b.createdAt := by
  rw [← artifactsOf_twoArtifacts]
  rfl

/-- The newer one is listed when its name comes first. -/
theorem newer_name_first_lists_newest :
    ∃ out, hostArtifactStore.listForRun (hostArtifactStore.runPuts twoArtifacts).files
        (.ok ["a02.json".toList, "a01.json".toList]) (fun _ => none) "tr1".toList 1 = .ok out ∧
      Greatest TaskArtifactRecord.createdAt 1
        (StorageTaskArtifactStore.artifactsOf (hostArtifactStore.runPuts twoArtifacts) "tr1".toList) out := by
  refine (lists_newest_iff hostArtifactStore hasFileIds_twoArtifacts isFileId_tr1
    (listsDir_twoArtifacts (.swap _ _ [])) Nat.one_pos).mpr ?_
  rw [newestNamedFirst_twoArtifacts]
  decide

theorem older_name_first_hides_newest :
    ¬ ∀ (store : StorageTaskArtifactStore) (records : List TaskArtifactRecord), (∀ record ∈ records, record.HasFileIds) →
      ∀ runId, IsFileId runId → ∀ names listed,
      StorageTaskArtifactStore.ListsDir (store.runPuts records).files
        (statePathJoin store.layout (store.layout.artifactDir runId)) names listed →
      ∀ limit, 0 < limit →
      ∃ out, store.listForRun (store.runPuts records).files listed (fun _ => none) runId limit = .ok out ∧
        Greatest TaskArtifactRecord.createdAt limit
          (StorageTaskArtifactStore.artifactsOf (store.runPuts records) runId) out := by
  intro h
  have hlists := h hostArtifactStore twoArtifacts hasFileIds_twoArtifacts _ isFileId_tr1 _ _
    (listsDir_twoArtifacts (.refl _)) 1 Nat.one_pos
  rw [StorageTaskArtifactStore.listForRun_newest_iff
    (StorageTaskArtifactStore.stored_runPuts hasFileIds_twoArtifacts) isFileId_tr1 (listsDir_twoArtifacts (.refl _))
    Nat.one_pos, newestNamedFirst_twoArtifacts] at hlists
  revert hlists
  decide

end Beetle.Platform.Storage
