import Beetle.Platform.PrivateGarden

/-! The names that state files have on the ESP storage, where long paths are not possible. -/
namespace Beetle.Platform.Storage
open Beetle.Lib Beetle.Tools

def espSafeRelPathLen : Nat := 31

/-- The internal paths with a name of their own. -/
def espFixedAliases : List (List Char × List Char) :=
  [("memory/active_works.json", "m/aw.json"), ("memory/detached_works.json", "m/dw.json"),
    ("memory/execution_states.json", "m/es.json"), ("memory/important_message.json", "m/im.json"),
    ("memory/session_summaries.json", "m/ss.json"), ("memory/long_term_memories.json", "m/ltm.json"),
    ("memory/autonomy_strategies.json", "m/as.json"), ("memory/felt_significances.json", "m/fs.json"),
    ("memory/temperament_continuities.json", "m/tc.json"), ("memory/inner_conflicts.json", "m/ic.json"),
    ("memory/continuity_capsules.json", "m/cc.json"), ("memory/continuity_capsule_index.sqlite3", "m/cci.db"),
    ("memory/self_authored_cores.json", "m/sac.json"), ("memory/core_revision_ledgers.json", "m/crl.json"),
    ("memory/relationship_constitutions.json", "m/rct.json"), ("memory/relationship_portfolios.json", "m/rpf.json"),
    ("memory/relationship_topologies.json", "m/rtp.json"), ("memory/long_term_extraction_states.json", "m/lte.json"),
    ("memory/mental_privacy_states.json", "m/mps.json"), ("memory/private_doc_workspaces.json", "m/pdw.json"),
    ("memory/private_garden_index.json", "m/pgi.json"), ("memory/tool_execution_governance.json", "m/teg.json"),
    ("memory/tool_execution_governance.corrupt.json", "m/teg_bad.json")].map fun row => (row.1.toList, row.2.toList)

/-- `Path::extension`. -/
def pathExtension (path : List Char) : Option (List Char) :=
  match (components path).getLast? with
  | none => none
  | some file =>
    let back := file.reverse.takeWhile (· ≠ '.')
    let front := file.reverse.dropWhile (· ≠ '.')
    if file = ['.', '.'] ∨ front.length ≤ 1 then none else some back.reverse

def espAliasExtension (rel : List Char) : List Char :=
  (match (pathExtension rel).map String.ofList with
  | some "md" => "md"
  | some "json" => "j"
  | some "jsonl" => "jl"
  | some "sqlite3" => "db"
  | some "txt" => "txt"
  | _ => "bin").toList

def espNamespace (rel : List Char) : List Char :=
  (match String.ofList (rel.takeWhile (· ≠ '/')) with
  | "memory" => "m"
  | "runtime" => "r"
  | "config" => "c"
  | "skills" => "k"
  | _ => "s").toList

def hashDigits (rel : List Char) : List Char := hex 16 (fnv1a64Hash rel).toNat

def espHashedRelPath (rel : List Char) : List Char :=
  espNamespace rel ++ '/' :: 'h' :: (hashDigits rel ++ '.' :: espAliasExtension rel)

/-- `None` where a path keeps its name. -/
def espAlias? (rel : List Char) : Option (List Char) :=
  match espFixedAliases.lookup rel with
  | some name => some name
  | none =>
    if relPathPrivateGardenDir <+: rel then some ('g' :: '/' :: (hashDigits rel ++ ".md".toList))
    else if espSafeRelPathLen < (utf8 rel).length then some (espHashedRelPath rel)
    else none

def espStorageRelPath (rel : List Char) : List Char := (espAlias? rel).getD rel

/-- A path as it is compared: by its components, of which a dot counts only at the front. -/
def pathComponents (path : List Char) : StatePath :=
  if path.head? = some '/' then ['/'] :: components path
  else if path.takeWhile (· ≠ '/') = ['.'] then ['.'] :: components path
  else components path

/-! What names there are. -/

theorem components_of_notMem {part : List Char} (hslash : '/' ∉ part) (hne : part ≠ []) (hdot : part ≠ ['.']) :
    components part = [part] := by
  rw [components, List.splitOn_eq_singleton hslash]
  simp [hne, hdot]

theorem components_append_cons (front back : List Char) :
    components (front ++ '/' :: back) = components front ++ components back := by
  rw [components, List.splitOn_append_cons_self, List.filter_append]
  rfl

theorem pathComponents_cons {dir : List Char} (rest : List Char) (hdir : '/' ∉ dir) (hdirne : dir ≠ [])
    (hdirdot : dir ≠ ['.']) : pathComponents (dir ++ '/' :: rest) = dir :: components rest := by
  have hhead : (dir ++ '/' :: rest).head? ≠ some '/' := by
    obtain ⟨c, dir, rfl⟩ := List.exists_cons_of_ne_nil hdirne
    intro h
    exact hdir (by simp [Option.some.inj h])
  have htake : (dir ++ '/' :: rest).takeWhile (· ≠ '/') = dir := by
    have hall : ∀ c ∈ dir, decide (c ≠ '/') = true := by
      intro c hc
      exact decide_eq_true fun heq => hdir (heq ▸ hc)
    rw [List.takeWhile_append_of_pos hall]
    simp
  rw [pathComponents, if_neg hhead, htake, if_neg hdirdot, components_append_cons,
    components_of_notMem hdir hdirne hdirdot]
  rfl

theorem pathComponents_pair {dir file : List Char} (hdir : '/' ∉ dir) (hdirne : dir ≠ []) (hdirdot : dir ≠ ['.'])
    (hfile : '/' ∉ file) (hfilene : file ≠ []) (hfiledot : file ≠ ['.']) :
    pathComponents (dir ++ '/' :: file) = [dir, file] := by
  rw [pathComponents_cons file hdir hdirne hdirdot, components_of_notMem hfile hfilene hfiledot]

theorem slash_notMem_hashDigits (rel : List Char) : '/' ∉ hashDigits rel := by
  intro h
  obtain ⟨d, hd, heq⟩ := mem_hex h
  exact absurd heq.symm ((by decide : ∀ d < 16, Nat.digitChar d ≠ '/') d hd)

theorem hashDigits_inj {a b : List Char} (h : hashDigits a = hashDigits b) : fnv1a64Hash a = fnv1a64Hash b :=
  UInt64.toNat_inj.mp (hex_inj (fnv1a64Hash a).toNat_lt (fnv1a64Hash b).toNat_lt h)

theorem espNamespace_mem (rel : List Char) : espNamespace rel ∈ [['m'], ['r'], ['c'], ['k'], ['s']] := by
  unfold espNamespace
  split <;> decide

theorem slash_notMem_espAliasExtension (rel : List Char) : '/' ∉ espAliasExtension rel := by
  unfold espAliasExtension
  split <;> decide

/-- The path is not in the list, not in the private garden and not too long. -/
def KeepsName (rel : List Char) : Prop :=
  rel ∉ espFixedAliases.map Prod.fst ∧ ¬ relPathPrivateGardenDir <+: rel ∧ (utf8 rel).length ≤ espSafeRelPathLen

instance (rel : List Char) : Decidable (KeepsName rel) := inferInstanceAs (Decidable (_ ∧ _ ∧ _))

/-- The components of the file of a path, where it is not its own name. -/
inductive FiledAs (rel : List Char) : StatePath → Prop where
  | fixed (name : List Char) (h : (rel, name) ∈ espFixedAliases) : FiledAs rel (pathComponents name)
  | garden (hfixed : rel ∉ espFixedAliases.map Prod.fst) (hdir : relPathPrivateGardenDir <+: rel) :
      FiledAs rel [['g'], hashDigits rel ++ ".md".toList]
  | hashed (hfixed : rel ∉ espFixedAliases.map Prod.fst) (hdir : ¬ relPathPrivateGardenDir <+: rel)
      (hlong : espSafeRelPathLen < (utf8 rel).length) :
      FiledAs rel [espNamespace rel, 'h' :: (hashDigits rel ++ '.' :: espAliasExtension rel)]

/-- A text as a number, to tell the texts of a list apart. -/
def textCode (s : List Char) : Nat := s.foldl (fun n c => n * 256 + c.toNat) 0

variable {row row' : List Char × List Char} {rel : List Char} {row : List Char × List Char} {name name' : StatePath}

theorem eq_of_path_eq (h : row ∈ espFixedAliases) (h' : row' ∈ espFixedAliases)
    (heq : row.1 = row'.1) : row = row' := by
  have hnodup : (espFixedAliases.map fun row => textCode row.1).Nodup := by decide
  exact List.inj_on_of_nodup_map hnodup h h' (congrArg textCode heq)

theorem eq_of_name_eq (h : row ∈ espFixedAliases) (h' : row' ∈ espFixedAliases)
    (heq : row.2.drop 2 = row'.2.drop 2) : row = row' := by
  have hnodup : (espFixedAliases.map fun row => textCode (row.2.drop 2)).Nodup := by decide
  exact List.inj_on_of_nodup_map hnodup h h' (congrArg textCode heq)

theorem lookup_espFixedAliases_eq_none : espFixedAliases.lookup rel = none ↔ rel ∉ espFixedAliases.map Prod.fst := by
  rw [List.lookup_eq_none_iff, List.mem_map]
  constructor
  · rintro h ⟨row, hrow, rfl⟩
    simpa using h row hrow
  · intro h row hrow
    simpa using fun heq : rel = row.1 => h ⟨row, hrow, heq.symm⟩

theorem mem_of_lookup_espFixedAliases {rel name : List Char} (h : espFixedAliases.lookup rel = some name) :
    (rel, name) ∈ espFixedAliases := by
  obtain ⟨front, back, heq, -⟩ := List.lookup_eq_some_iff.mp h
  rw [heq]
  simp

theorem lookup_espFixedAliases (h : row ∈ espFixedAliases) : espFixedAliases.lookup row.1 = some row.2 := by
  cases hlookup : espFixedAliases.lookup row.1 with
  | none => exact absurd (List.mem_map_of_mem h) (lookup_espFixedAliases_eq_none.mp hlookup)
  | some name =>
    have heq := eq_of_path_eq (mem_of_lookup_espFixedAliases hlookup) h rfl
    rw [← heq]

theorem filedAs_or_keepsName (rel : List Char) :
    (KeepsName rel ∧ espStorageRelPath rel = rel) ∨ FiledAs rel (pathComponents (espStorageRelPath rel)) := by
  have hslash := slash_notMem_hashDigits rel
  have hdigits : hashDigits rel ≠ [] := List.length_pos_iff.mp (by simp [hashDigits])
  have hlength : (hashDigits rel).length = 16 := length_hex 16 _
  unfold espStorageRelPath espAlias?
  cases hlookup : espFixedAliases.lookup rel with
  | some name =>
    exact .inr (.fixed name (mem_of_lookup_espFixedAliases hlookup))
  | none =>
    have hfixed := lookup_espFixedAliases_eq_none.mp hlookup
    by_cases hdir : relPathPrivateGardenDir <+: rel
    · have hcomponents : pathComponents ('g' :: '/' :: (hashDigits rel ++ ".md".toList)) =
          [['g'], hashDigits rel ++ ".md".toList] := by
        refine @pathComponents_pair ['g'] _ (by decide) (by decide) (by decide) ?_ ?_ ?_
        · simp [hslash]
        · simp
        · intro heq
          have hlength' := congrArg List.length heq
          simp [hlength] at hlength'
      rw [if_pos hdir, Option.getD_some, hcomponents]
      exact .inr (.garden hfixed hdir)
    · by_cases hlong : espSafeRelPathLen < (utf8 rel).length
      · have hnamespace : ∀ dir ∈ [['m'], ['r'], ['c'], ['k'], ['s']], '/' ∉ dir ∧ dir ≠ [] ∧ dir ≠ ['.'] := by decide
        obtain ⟨hdirslash, hdirne, hdirdot⟩ := hnamespace _ (espNamespace_mem rel)
        have hcomponents : pathComponents (espHashedRelPath rel) =
            [espNamespace rel, 'h' :: (hashDigits rel ++ '.' :: espAliasExtension rel)] := by
          refine pathComponents_pair hdirslash hdirne hdirdot ?_ ?_ ?_
          · simp [hslash, slash_notMem_espAliasExtension]
          · simp
          · simp
        rw [if_neg hdir, if_pos hlong, Option.getD_some, hcomponents]
        exact .inr (.hashed hfixed hdir hlong)
      · rw [if_neg hdir, if_neg hlong, Option.getD_none]
        exact .inl ⟨⟨hfixed, hdir, Nat.le_of_not_lt hlong⟩, rfl⟩

theorem FiledAs.not_keepsName {name : StatePath} (h : FiledAs rel name) : ¬ KeepsName rel := by
  intro hkeeps
  cases h with
  | fixed name hmem => exact hkeeps.1 (List.mem_map_of_mem hmem)
  | garden _ hdir => exact hkeeps.2.1 hdir
  | hashed _ _ hlong => exact Nat.not_lt.mpr hkeeps.2.2 hlong

/-- There is one name for each path. -/
theorem FiledAs.unique (h : FiledAs rel name) (h' : FiledAs rel name') : name = name' := by
  cases h with
  | fixed name hmem =>
    cases h' with
    | fixed name' hmem' =>
      have hname : espFixedAliases.lookup rel = some name := lookup_espFixedAliases hmem
      have hname' : espFixedAliases.lookup rel = some name' := lookup_espFixedAliases hmem'
      rw [Option.some.inj (hname.symm.trans hname')]
    | garden hfixed => exact absurd (List.mem_map_of_mem hmem) hfixed
    | hashed hfixed => exact absurd (List.mem_map_of_mem hmem) hfixed
  | garden hfixed hdir =>
    cases h' with
    | fixed name' hmem' => exact absurd (List.mem_map_of_mem hmem') hfixed
    | garden => rfl
    | hashed _ hdir' => exact absurd hdir hdir'
  | hashed hfixed hdir =>
    cases h' with
    | fixed name' hmem' => exact absurd (List.mem_map_of_mem hmem') hfixed
    | garden _ hdir' => exact absurd hdir' hdir
    | hashed => rfl

/-- The names in the list are in one directory, and none looks like one that is made of a hash. -/
theorem pathComponents_of_mem (h : row ∈ espFixedAliases) :
    pathComponents row.2 = [['m'], row.2.drop 2] ∧ (row.2.drop 2).head? ≠ some 'h' := by
  have hall : ∀ row ∈ espFixedAliases, row.2 = ['m'] ++ '/' :: row.2.drop 2 ∧ '/' ∉ row.2.drop 2 ∧
      1 < (row.2.drop 2).length ∧ (row.2.drop 2).head? ≠ some 'h' := by
    decide
  obtain ⟨hname, hslash, hlength, hhead⟩ := hall row h
  refine ⟨?_, hhead⟩
  conv_lhs => rw [hname]
  apply pathComponents_pair (by decide) (by decide) (by decide) hslash
  · rintro hnil
    simp [hnil] at hlength
  · rintro hdot
    simp [hdot] at hlength

theorem FiledAs.length_eq {name : StatePath} (h : FiledAs rel name) : name.length = 2 := by
  cases h with
  | fixed name hname =>
    rw [(pathComponents_of_mem hname).1]
    rfl
  | garden => rfl
  | hashed => rfl

theorem espFixedAliases_inj (h : row ∈ espFixedAliases) (h' : row' ∈ espFixedAliases)
    (heq : pathComponents row.2 = pathComponents row'.2) : row.1 = row'.1 := by
  rw [(pathComponents_of_mem h).1, (pathComponents_of_mem h').1] at heq
  rw [eq_of_name_eq h h' (List.cons.inj (List.cons.inj heq).2).1]

/-- Files of paths with different hashes are different. -/
theorem FiledAs.ne {a b : List Char} (hhash : fnv1a64Hash a ≠ fnv1a64Hash b)
    (ha : FiledAs a name) (hb : FiledAs b name') : name ≠ name' := by
  have hgarden (rel : List Char) : ['g'] ≠ espNamespace rel := by
    have hall : ∀ dir ∈ [['m'], ['r'], ['c'], ['k'], ['s']], ['g'] ≠ dir := by decide
    exact hall _ (espNamespace_mem rel)
  have hdigits {x y : List Char} : hashDigits a ++ x = hashDigits b ++ y → False := fun heq =>
    hhash (hashDigits_inj (List.append_inj_left heq (by simp [hashDigits])))
  intro heq
  cases ha with
  | fixed name hname =>
    obtain ⟨hcomponents, hhead⟩ := pathComponents_of_mem hname
    cases hb with
    | fixed name' hname' => exact hhash (congrArg fnv1a64Hash (espFixedAliases_inj hname hname' heq))
    | garden =>
      rw [hcomponents] at heq
      exact absurd (List.cons.inj heq).1 (by decide)
    | hashed =>
      rw [hcomponents] at heq
      dsimp only at heq hhead
      rw [(List.cons.inj (List.cons.inj heq).2).1] at hhead
      exact hhead rfl
  | garden =>
    cases hb with
    | fixed name' hname' =>
      rw [(pathComponents_of_mem hname').1] at heq
      exact absurd (List.cons.inj heq).1 (by decide)
    | garden => exact hdigits (List.cons.inj (List.cons.inj heq).2).1
    | hashed => exact hgarden b (List.cons.inj heq).1
  | hashed =>
    cases hb with
    | fixed name' hname' =>
      obtain ⟨hcomponents, hhead⟩ := pathComponents_of_mem hname'
      rw [hcomponents] at heq
      dsimp only at heq hhead
      rw [← (List.cons.inj (List.cons.inj heq).2).1] at hhead
      exact hhead rfl
    | garden => exact hgarden a (List.cons.inj heq).1.symm
    | hashed => exact hdigits (List.cons.inj (List.cons.inj (List.cons.inj heq).2).1).2

/-! Two paths. -/

/-- The first path keeps its name, and is spelled like the second one, which keeps its own too, or like the file of
the second one. -/
def SpelledLike (a b : List Char) : Prop :=
  KeepsName a ∧ (KeepsName b ∧ pathComponents a = pathComponents b ∨ FiledAs b (pathComponents a))

/-- Paths with different hashes have different files, unless one of them is spelled like the file of the other. -/
theorem espStorageRelPath_ne_iff {a b : List Char} (hhash : fnv1a64Hash a ≠ fnv1a64Hash b) :
    pathComponents (espStorageRelPath a) ≠ pathComponents (espStorageRelPath b) ↔
      ¬ (SpelledLike a b ∨ SpelledLike b a) := by
  rw [not_iff_not]
  constructor
  · intro heq
    rcases filedAs_or_keepsName a with ⟨ha, hname⟩ | hfiled
    · rw [hname] at heq
      rcases filedAs_or_keepsName b with ⟨hb, hname'⟩ | hfiled'
      · rw [hname'] at heq
        exact .inl ⟨ha, .inl ⟨hb, heq⟩⟩
      · rw [← heq] at hfiled'
        exact .inl ⟨ha, .inr hfiled'⟩
    · rcases filedAs_or_keepsName b with ⟨hb, hname'⟩ | hfiled'
      · rw [heq, hname'] at hfiled
        exact .inr ⟨hb, .inr hfiled⟩
      · exact absurd heq (hfiled.ne hhash hfiled')
  · have hspelled {a b : List Char} (h : SpelledLike a b) :
        pathComponents (espStorageRelPath a) = pathComponents (espStorageRelPath b) := by
      obtain ⟨ha, hspelled⟩ := h
      rcases filedAs_or_keepsName a with ⟨-, hname⟩ | hfiled
      · rw [hname]
        rcases hspelled with ⟨hb, heq⟩ | hspelled
        · rcases filedAs_or_keepsName b with ⟨-, hname'⟩ | hfiled'
          · rw [hname', heq]
          · exact absurd hb hfiled'.not_keepsName
        · rcases filedAs_or_keepsName b with ⟨hb, -⟩ | hfiled'
          · exact absurd hb hspelled.not_keepsName
          · exact hspelled.unique hfiled'
      · exact absurd ha hfiled.not_keepsName
    rintro (h | h)
    · exact hspelled h
    · exact (hspelled h).symm

theorem activeWorks_differ_from_notes :
    pathComponents (espStorageRelPath "memory/active_works.json".toList) ≠
        pathComponents (espStorageRelPath "memory/notes.md".toList) ↔
      ¬ (SpelledLike "memory/active_works.json".toList "memory/notes.md".toList ∨
        SpelledLike "memory/notes.md".toList "memory/active_works.json".toList) :=
  espStorageRelPath_ne_iff (by decide)

theorem short_path_filed_as_activeWorks :
    ¬ ∀ a b : List Char, normalizeStateRelPath a = .ok a → normalizeStateRelPath b = .ok b → a ≠ b →
      fnv1a64Hash a ≠ fnv1a64Hash b → pathComponents (espStorageRelPath a) ≠ pathComponents (espStorageRelPath b) := by
  intro h
  have hnormal {s : List Char} (htrim : (trim s).dropWhile (· = '/') = s) (hdots : ¬ ['.', '.'] <:+: s)
      (hslash : s.head? ≠ some '/') : normalizeStateRelPath s = .ok s := by
    simp only [normalizeStateRelPath, htrim, if_neg hdots, if_neg hslash]
  refine h "m/aw.json".toList "memory/active_works.json".toList ?_ ?_ (by decide) (by decide) (by decide)
  · exact hnormal (by decide) (by decide) (by decide)
  · exact hnormal (by decide) (by decide) (by decide)

end Beetle.Platform.Storage
