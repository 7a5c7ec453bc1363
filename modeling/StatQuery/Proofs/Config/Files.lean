import StatQuery.Config.Sources
import StatQuery.Proofs.Toml.Canonical
import StatQuery.Proofs.Toml.Repetition

/-!
# Files laid over one another

The files of a list either all have tables, and then these are laid over one another (`mergeFiles_of_ok`),
or the first file that has none stops everything with its own error (`mergeFiles_eq_error_iff`). So to
read a list of files twice, or its last file twice, comes to the same as to read it once (`load_again`):
the tables decide at each path as they did the first time, an error arises in the first pass already, and
the last file, which is blamed for a fault of the whole, is the same one.
-/

namespace StatQuery.Config

/-- The tables of the files that have one. -/
def tables (files : List File) : List Toml.Table := files.filterMap fun file => file.table.toOption

theorem tables_cons_of_ok {file : File} {table : Toml.Table} (h : file.table = .ok table)
    (files : List File) : tables (file :: files) = table :: tables files := by
  rw [tables, List.filterMap_cons, h]
  rfl

/-- The table of a file is that of its text. -/
theorem table_eq_ok_iff {file : File} {table : Toml.Table} :
    file.table = .ok table ↔ ∃ text, file.text = .ok text ∧ Toml.parse? text = some table := by
  rw [File.table]
  cases file.text with
  | error failure => simp
  | ok text => cases hparse : Toml.parse? text <;> simp [hparse]

theorem table_of_parse? {text : String} {table : Toml.Table} (h : Toml.parse? text = some table)
    (path : String) : (File.mk path (.bytes (Utf8.encode text))).table = .ok table := by
  refine table_eq_ok_iff.2 ⟨text, ?_, h⟩
  rw [File.text]
  dsimp only
  rw [Utf8.decode?_encode]

variable {P : Toml → Prop}

theorem inherited_of_table (hP : Toml.Inherited P) {file : File} {table : Toml.Table}
    (h : file.table = .ok table) : P (.table table) := by
  obtain ⟨text, -, hparse⟩ := table_eq_ok_iff.1 h
  exact hP.of_parse? hparse

theorem canonical_of_table {file : File} {table : Toml.Table} (h : file.table = .ok table) :
    (Toml.table table).Canonical :=
  inherited_of_table Toml.inherited_canonical h

theorem mem_tables_iff {files : List File} {layer : Toml.Table} :
    layer ∈ tables files ↔ ∃ file ∈ files, file.table = .ok layer := by
  rw [tables, List.mem_filterMap]
  refine exists_congr fun file => and_congr_right fun _ => ?_
  cases file.table <;> simp [Except.toOption]

theorem inherited_of_mem_tables (hP : Toml.Inherited P) {files : List File} {layer : Toml.Table}
    (h : layer ∈ tables files) : P (.table layer) := by
  obtain ⟨file, -, hlayer⟩ := mem_tables_iff.1 h
  exact inherited_of_table hP hlayer

theorem mergeFiles_append (base : Toml.Table) (files later : List File) :
    mergeFiles base (files ++ later) = (mergeFiles base files).bind (mergeFiles · later) := by
  induction files generalizing base with
  | nil => rfl
  | cons file files ih =>
    rw [List.cons_append, mergeFiles, mergeFiles]
    cases file.table with
    | error error => rfl
    | ok table => exact ih _

theorem mergeFiles_of_ok {files : List File} (h : ∀ file ∈ files, ∃ table, file.table = .ok table)
    (base : Toml.Table) : mergeFiles base files = .ok ((tables files).foldl Toml.merge base) := by
  induction files generalizing base with
  | nil => rfl
  | cons file files ih =>
    obtain ⟨⟨table, htable⟩, hothers⟩ := List.forall_mem_cons.1 h
    rw [mergeFiles, htable, tables_cons_of_ok htable]
    exact ih hothers _

/-- Which file stops the reading does not depend on what the files are laid over. -/
theorem mergeFiles_eq_error_iff {files : List File} {error : ConfigError} (base : Toml.Table) :
    mergeFiles base files = .error error ↔ ∃ before file after, files = before ++ file :: after ∧
      (∀ earlier ∈ before, ∃ table, earlier.table = .ok table) ∧ file.table = .error error := by
  induction files generalizing base with
  | nil => simp [mergeFiles]
  | cons first files ih =>
    rw [mergeFiles]
    cases hfirst : first.table with
    | error own =>
      constructor
      · intro heq
        cases heq
        exact ⟨[], first, files, rfl, by simp, hfirst⟩
      · rintro ⟨before, file, after, hfiles, hbefore, hfile⟩
        cases before with
        | nil =>
          cases hfiles
          rw [hfirst] at hfile
          exact hfile
        | cons head before =>
          cases hfiles
          obtain ⟨table, htable⟩ := hbefore _ List.mem_cons_self
          rw [hfirst] at htable
          cases htable
    | ok table =>
      refine (ih _).trans ⟨?_, ?_⟩
      · rintro ⟨before, file, after, rfl, hbefore, hfile⟩
        exact ⟨first :: before, file, after, rfl, List.forall_mem_cons.2 ⟨⟨table, hfirst⟩, hbefore⟩, hfile⟩
      · rintro ⟨before, file, after, hfiles, hbefore, hfile⟩
        cases before with
        | nil =>
          cases hfiles
          rw [hfirst] at hfile
          cases hfile
        | cons head before =>
          cases hfiles
          exact ⟨before, file, after, rfl, (List.forall_mem_cons.1 hbefore).2, hfile⟩

/-- If files can be laid over one another, each has a table. -/
theorem exists_table_of_mergeFiles {files : List File} {base merged : Toml.Table}
    (h : mergeFiles base files = .ok merged) : ∀ file ∈ files, ∃ table, file.table = .ok table := by
  induction files generalizing base with
  | nil => simp
  | cons file files ih =>
    rw [mergeFiles] at h
    cases htable : file.table with
    | error error =>
      rw [htable] at h
      cases h
    | ok table =>
      rw [htable] at h
      exact List.forall_mem_cons.2 ⟨⟨table, htable⟩, ih h⟩

theorem mergeFiles_eq_ok_iff {files : List File} {base merged : Toml.Table} :
    mergeFiles base files = .ok merged ↔ (∀ file ∈ files, ∃ table, file.table = .ok table) ∧
      merged = (tables files).foldl Toml.merge base := by
  constructor
  · intro hmerged
    have htables := exists_table_of_mergeFiles hmerged
    rw [mergeFiles_of_ok htables] at hmerged
    exact ⟨htables, (Except.ok.inj hmerged).symm⟩
  · rintro ⟨htables, rfl⟩
    exact mergeFiles_of_ok htables base

/-- What holds of every document and of the table below holds of the files laid over it. -/
theorem inherited_mergeFiles (hP : Toml.Inherited P) {files : List File} {base merged : Toml.Table}
    (hbase : P (.table base)) (h : mergeFiles base files = .ok merged) : P (.table merged) := by
  obtain ⟨-, rfl⟩ := mergeFiles_eq_ok_iff.1 h
  exact hP.foldl_merge hbase fun _ => inherited_of_mem_tables hP

theorem load_eq_ok_iff {files : List File} :
    load files = .ok config ↔ ∃ table, mergeFiles [] files = .ok table ∧ ofTable table = .ok config := by
  rw [load]
  cases mergeFiles [] files with
  | error error => simp
  | ok table => cases hconfig : ofTable table <;> simp [hconfig]

/-! ### Files read again -/

/-- Laying files again over what they have made changes nothing, and files that cannot be laid over one
another fail in the same way. -/
theorem mergeFiles_again {base : Toml.Table} (hbase : (Toml.table base).Canonical) (files : List File) :
    (mergeFiles base files).bind (mergeFiles · files) = mergeFiles base files := by
  cases hfiles : mergeFiles base files with
  | error error => rfl
  | ok merged =>
    obtain ⟨htables, rfl⟩ := mergeFiles_eq_ok_iff.1 hfiles
    refine (mergeFiles_of_ok htables _).trans (congrArg Except.ok ?_)
    exact Toml.foldl_merge_again hbase fun _ => inherited_of_mem_tables Toml.inherited_canonical

/-- Only the merged table and the last path matter. -/
theorem load_congr {files others : List File} (hmerge : mergeFiles [] files = mergeFiles [] others)
    (hlast : files.getLast? = others.getLast?) : load files = load others := by
  rw [load, load, hmerge, hlast]

theorem load_append_self (files : List File) : load (files ++ files) = load files := by
  refine load_congr ?_ ?_
  · rw [mergeFiles_append]
    exact mergeFiles_again Toml.canonical_empty files
  · rw [List.getLast?_append, Option.or_self]

theorem load_append_twice (files : List File) (file : File) :
    load (files ++ [file, file]) = load (files ++ [file]) := by
  refine load_congr ?_ (by simp)
  rw [mergeFiles_append, mergeFiles_append]
  cases hfiles : mergeFiles [] files with
  | error error => rfl
  | ok base =>
    have hbase := inherited_mergeFiles Toml.inherited_canonical Toml.canonical_empty hfiles
    refine Eq.trans ?_ (mergeFiles_again hbase [file])
    exact mergeFiles_append base [file] [file]

/-- To ask for the file of the user lists it once more. -/
theorem discover_user {view : FileView} {user : String} (h : view.exists user = true) :
    discover view (some user) (some user) = [systemFile].filter view.exists ++ [user, user] := by
  rw [discover, Option.filter_some, if_pos h]
  simp [List.filter_cons, h]
  split <;> rfl

theorem config_loadFiles_congr {files others : List File} (h : load files = load others)
    (environment : Environment) : (loadFiles environment files).map Loaded.config =
      (loadFiles environment others).map Loaded.config := by
  rw [loadFiles, loadFiles, h]
  cases load others <;> rfl

/-- Reading files again changes nothing: neither all of them, nor the last one, nor the tables laid over
any table. So it makes no difference to ask for the file of the user, which is read anyway. -/
theorem load_again (files : List File) :
    load (files ++ files) = load files ∧
    (∀ file, load (files ++ [file, file]) = load (files ++ [file])) ∧
    (∀ (base : Toml.Table) (layers : List Toml.Table), (Toml.table base).Canonical →
      (∀ layer ∈ layers, (Toml.table layer).Canonical) →
      layers.foldl Toml.merge (layers.foldl Toml.merge base) = layers.foldl Toml.merge base) ∧
    ∀ (view : FileView) (user : String) (environment : Environment), view.exists user = true →
      (loadSources view (some user) (some user) environment).map Loaded.config =
        (loadFiles environment (([systemFile, user].filter view.exists).map fun path =>
          ⟨path, view path⟩)).map Loaded.config := by
  refine ⟨load_append_self files, load_append_twice files, ?_, ?_⟩
  · intro base layers hbase hlayers
    exact Toml.foldl_merge_again hbase hlayers
  · intro view user environment huser
    have hlower : [systemFile, user].filter view.exists = [systemFile].filter view.exists ++ [user] := by
      rw [← List.singleton_append, List.filter_append, List.filter_cons_of_pos huser, List.filter_nil]
    rw [loadSources, discover_user huser, hlower, List.map_append, List.map_append]
    exact config_loadFiles_congr (load_append_twice _ _) environment

/-- The lower layer builds a section that the upper one puts an array in the place of. Laid again, the
lower one builds it again. -/
theorem load_again_rebuilt :
    let lower : Toml.Table := [("statistics", .table [("enabled", .boolean false)])]
    let upper : Toml.Table := [("statistics", .array [.boolean true])]
    let view : FileView := fun path => if path = "user.toml" then .bytes [] else .missing
    (∀ layer ∈ [[], lower, upper], (Toml.table layer).Canonical) ∧ view.exists "user.toml" = true ∧
    Toml.merge upper lower = lower ∧ [lower, upper].foldl Toml.merge [] = upper ∧
    [lower, upper].foldl Toml.merge upper = upper ∧
    (loadSources view (some "user.toml") (some "user.toml") .empty).map Loaded.config =
      (loadFiles .empty [⟨"user.toml", .bytes []⟩]).map Loaded.config := by
  intro lower upper view
  have hcanonical : ∀ layer ∈ [[], lower, upper], (Toml.table layer).Canonical := by
    simp only [lower, upper, List.forall_mem_cons, Toml.Canonical, Toml.CanonicalEntries,
      Toml.CanonicalItems, and_true, List.not_mem_nil, false_implies, implies_true]
    decide
  have huser : view.exists "user.toml" = true := by decide
  obtain ⟨hbase, hlayers⟩ := List.forall_mem_cons.1 hcanonical
  obtain ⟨-, -, htables, hdiscovered⟩ := load_again []
  have hmade : [lower, upper].foldl Toml.merge [] = upper := rfl
  have hagain := htables [] [lower, upper] hbase hlayers
  rw [hmade] at hagain
  exact ⟨hcanonical, huser, rfl, hmade, hagain, hdiscovered view "user.toml" .empty huser⟩

end StatQuery.Config
