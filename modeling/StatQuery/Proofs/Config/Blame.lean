import Mathlib
import StatQuery.Proofs.Config.Accepted
import StatQuery.Proofs.Config.Files

/-!
# Which file is at fault

An error names a file. A file that has no table is named itself, and has the same error on its own. If all
files have tables but make no configuration together, at least one of them makes none on its own
(`exists_of_faulty`), but it is the last file that is named, which may well be another one
(`load_blames_sound`).
-/

namespace StatQuery

/-- The path that an error names. -/
def ConfigError.path? : ConfigError → Option String
  | unreadable path _ => some path
  | malformed path => some path
  | faulty path _ => some path
  | unwritable => none

namespace Config

open Toml

theorem path?_of_table {file : File} {error : ConfigError} (h : file.table = .error error) :
    error.path? = some file.path := by
  rw [File.table] at h
  split at h
  · cases h
    rfl
  · split at h
    · cases h
      rfl
    · cases h

theorem load_of_table_error {file : File} {error : ConfigError} (h : file.table = .error error) :
    load [file] = .error error := by
  rw [load, mergeFiles, h]

/-- A file on its own is its table laid over nothing. -/
theorem merge_empty {table : Toml.Table} (h : (Toml.table table).Canonical) : merge [] table = table := by
  refine Entries.ext_get? (canonical_merge [] table canonical_empty h).1 h.1 fun name => ?_
  rw [get?_merge h.1]
  cases Entries.get? name table <;> simp

theorem load_of_table {file : File} {table : Toml.Table} (h : file.table = .ok table) :
    load [file] = match ofTable table with
      | .error fault => .error (.faulty file.path fault)
      | .ok config => .ok config := by
  rw [load, mergeFiles, h]
  dsimp only
  rw [mergeFiles, merge_empty (canonical_of_table h)]
  rfl

/-- Files that are configurations on their own are one together. -/
theorem exists_ofTable_tables {files : List File}
    (h : ∀ file ∈ files, ∃ config, load [file] = .ok config) :
    ∃ config, ofTable ((tables files).foldl merge []) = .ok config := by
  have hlayers : ∀ layer ∈ tables files, (Toml.table layer).Canonical ∧ Acceptable layer := by
    intro layer hmem
    obtain ⟨file, hfile, htable⟩ := mem_tables_iff.1 hmem
    obtain ⟨config, hconfig⟩ := h file hfile
    have hcanonical := canonical_of_table htable
    refine ⟨hcanonical, (exists_ofTable_iff hcanonical).1 ?_⟩
    rw [load_of_table htable] at hconfig
    split at hconfig
    · cases hconfig
    · next own hown => exact ⟨own, hown⟩
  have hcanonical : ∀ layer ∈ tables files, (Toml.table layer).Canonical :=
    fun layer hmem => (hlayers layer hmem).1
  refine (exists_ofTable_iff (canonical_foldl_merge canonical_empty hcanonical)).2 ?_
  exact acceptable_foldl_merge canonical_empty hcanonical acceptable_empty fun layer hmem =>
    (hlayers layer hmem).2

/-- If files with tables make no configuration together, one of them makes none on its own. -/
theorem exists_of_faulty {files : List File} (htables : ∀ file ∈ files, ∃ table, file.table = .ok table)
    {fault : Fault} (h : ofTable ((tables files).foldl merge []) = .error fault) :
    ∃ file ∈ files, ∃ own, load [file] = .error (.faulty file.path own) := by
  by_contra hnone
  have hsound : ∀ file ∈ files, ∃ config, load [file] = .ok config := by
    intro file hfile
    obtain ⟨table, htable⟩ := htables file hfile
    cases hconfig : ofTable table with
    | error own =>
      refine absurd ⟨file, hfile, own, ?_⟩ hnone
      rw [load_of_table htable, hconfig]
    | ok config => exact ⟨config, by rw [load_of_table htable, hconfig]⟩
  obtain ⟨config, hconfig⟩ := exists_ofTable_tables hsound
  rw [h] at hconfig
  cases hconfig

/-! ### Two files, one of them at fault -/

/-- A truth value in the place of a text. -/
def faultyFile : File := ⟨"layer0.toml", .bytes (Utf8.encode "[bind]\nstats_endpoint = true\n")⟩

/-- A file with nothing wrong. -/
def soundFile : File := ⟨"layer1.toml", .bytes (Utf8.encode "[telemetry]\nlog_level = \"debug\"\n")⟩

theorem table_faultyFile :
    faultyFile.table = .ok [("bind", .table [("stats_endpoint", .boolean true)])] := by
  refine table_of_parse? (?_ : parse? "[bind]\nstats_endpoint = true\n" = _) "layer0.toml"
  cbv

theorem table_soundFile :
    soundFile.table = .ok [("telemetry", .table [("log_level", .string "debug")])] := by
  refine table_of_parse? (?_ : parse? "[telemetry]\nlog_level = \"debug\"\n" = _) "layer1.toml"
  cbv

/-- The fault of the lower file, whichever file it is blamed on. -/
def endpointFault : Fault := ⟨.kind (.boolean true) .string, []⟩

theorem load_faulty_sound :
    load [faultyFile, soundFile] = .error (.faulty "layer1.toml" endpointFault) := by
  rw [load, mergeFiles, table_faultyFile]
  dsimp only
  rw [mergeFiles, table_soundFile]
  rfl

/-! ### The file that is named -/

/-- Either the first file without a table is named, which has the same error on its own, or the last file
is, and then some file, not always this one, is no configuration on its own. -/
theorem load_eq_error {files : List File} {error : ConfigError} (h : load files = .error error) :
    (∃ before file after, files = before ++ file :: after ∧
      (∀ earlier ∈ before, ∃ table, earlier.table = .ok table) ∧ file.table = .error error ∧
      error.path? = some file.path ∧ load [file] = .error error) ∨
    (∀ file ∈ files, ∃ table, file.table = .ok table) ∧
      ∃ last fault, files.getLast? = some last ∧ error = .faulty last.path fault ∧
        ∃ file ∈ files, ∃ own, load [file] = .error (.faulty file.path own) := by
  rw [load] at h
  cases hmerge : mergeFiles [] files with
  | error own =>
    rw [hmerge] at h
    cases h
    obtain ⟨before, file, after, hfiles, hbefore, hfile⟩ := (mergeFiles_eq_error_iff []).1 hmerge
    exact Or.inl ⟨before, file, after, hfiles, hbefore, hfile, path?_of_table hfile,
      load_of_table_error hfile⟩
  | ok table =>
    obtain ⟨htables, rfl⟩ := mergeFiles_eq_ok_iff.1 hmerge
    rw [hmerge] at h
    dsimp only at h
    split at h
    · next fault hfault =>
      cases h
      obtain ⟨file, hfile, own, hown⟩ := exists_of_faulty htables hfault
      refine Or.inr ⟨htables, ?_⟩
      cases hlast : files.getLast? with
      | none =>
        rw [List.getLast?_eq_none_iff.1 hlast] at hfile
        cases hfile
      | some last => exact ⟨last, fault, rfl, rfl, file, hfile, own, hown⟩
    · cases h

/-- Of the two files the lower one is at fault. -/
theorem load_eq_error_lower :
    load [faultyFile, soundFile] = .error (.faulty "layer1.toml" endpointFault) ∧
    ∃ file ∈ [faultyFile, soundFile], ∃ own, load [file] = .error (.faulty file.path own) := by
  have htables : ∀ file ∈ [faultyFile, soundFile], ∃ table, file.table = .ok table :=
    List.forall_mem_cons.2 ⟨⟨_, table_faultyFile⟩, List.forall_mem_singleton.2 ⟨_, table_soundFile⟩⟩
  refine ⟨load_faulty_sound, ?_⟩
  rcases load_eq_error load_faulty_sound with ⟨before, file, after, hfiles, -, herror, -⟩ | hblamed
  · obtain ⟨table, htable⟩ := htables file (hfiles ▸ by simp)
    rw [herror] at htable
    cases htable
  · obtain ⟨-, last, fault, -, -, hfaulty⟩ := hblamed
    exact hfaulty

/-- The upper file is named, with which nothing is wrong. -/
theorem load_blames_sound : ∃ error,
    load [faultyFile, soundFile] = .error error ∧ error.path? = some soundFile.path ∧
    (∃ config, load [soundFile] = .ok config) ∧
    ∃ own, load [faultyFile] = .error own ∧ own.path? = some faultyFile.path := by
  refine ⟨_, load_faulty_sound, rfl, ⟨{ default with logLevel := "debug" }, ?_⟩,
    .faulty "layer0.toml" endpointFault, ?_, rfl⟩
  · rw [load_of_table table_soundFile]
    rfl
  · rw [load_of_table table_faultyFile]
    rfl

end Config

end StatQuery
