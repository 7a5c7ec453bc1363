import StatQuery.Proofs.Dict
import StatQuery.Proofs.Toml.Statements

/-!
# Tables that sections build

A header opens a table, and the assignments after it all change the inside of that one table
(`Focus`). So a section adds one table to the tree, provided that its header is new and its names are
distinct: at the top (`build_section`), or inside a table that has no header of its own and that the
first such section brings along (`build_sections`).
-/

namespace StatQuery.Toml

open Writer

/-- The table of some settings. -/
def Writer.settingsTable (settings : List (String × Setting)) : Table :=
  Entries.ofList (settings.map fun setting => (setting.1, setting.2.value))

namespace Node

theorem closeEntries_eq_map (nodes : Nodes) :
    closeEntries nodes = nodes.map fun entry => (entry.1, entry.2.close) := by
  induction nodes with
  | nil => rfl
  | cons entry rest ih =>
    rw [closeEntries, ih]
    rfl

theorem closeEntries_insert (key : String) (node : Node) (nodes : Nodes) :
    closeEntries (Entries.insert key node nodes) =
      Entries.insert key node.close (closeEntries nodes) := by
  rw [closeEntries_eq_map, closeEntries_eq_map, Entries.map_insert fun _ => close]

theorem closeEntries_ofList (entries : List (String × Node)) :
    closeEntries (Entries.ofList entries) =
      Entries.ofList (entries.map fun entry => (entry.1, entry.2.close)) := by
  rw [closeEntries_eq_map, Entries.map_ofList fun _ => close]

/-! ### Changes at a path -/

/-- What is done at the path is done to what the context surrounds. -/
def Focus (path : List String) (context : Nodes → Nodes) : Prop :=
  ∀ change inner, within change path (context inner) = (change inner).map context

theorem focus_nil : Focus [] id := by
  intro change inner
  rw [within, Option.map_id]
  rfl

theorem Focus.cons {path : List String} {context : Nodes → Nodes} (h : Focus path context)
    (key : String) (origin : Origin) (nodes : Nodes) :
    Focus (key :: path) fun inner => Entries.insert key (table origin (context inner)) nodes := by
  intro change inner
  have hget : Entries.get? key (Entries.insert key (table origin (context inner)) nodes) =
      some (table origin (context inner)) := by
    rw [Entries.get?_insert, if_pos rfl]
  rw [within, hget]
  dsimp only
  rw [h, Option.map_map]
  simp only [Function.comp_def, Entries.insert_insert]

/-- A table that is missing on the way is as good as an empty one that was passed through. -/
theorem within_fresh (change : Nodes → Option Nodes) {key : String} (path : List String)
    {nodes : Nodes} (h : Entries.get? key nodes = none) :
    within change (key :: path) nodes =
      within change (key :: path) (Entries.insert key (table .passed []) nodes) := by
  rw [within, h, within, Entries.get?_insert, if_pos rfl]
  simp only [Entries.insert_insert]

end Node

open Node

/-- The entries of a table under construction after some settings. -/
def settingNodes (settings : List (String × Setting)) (inner : Nodes) : Nodes :=
  settings.foldl (fun inner setting => Entries.insert setting.1 (.value setting.2.value) inner) inner

theorem close_settingNodes (settings : List (String × Setting)) (origin : Origin) :
    (Node.table origin (settingNodes settings [])).close = .table (settingsTable settings) := by
  have hlist : settingNodes settings [] =
      Entries.ofList (settings.map fun setting => (setting.1, Node.value setting.2.value)) := by
    rw [settingNodes, Entries.ofList, List.foldl_map]
  rw [close, hlist, closeEntries_ofList, List.map_map]
  rfl

/-- An assignment adds to the table of the last header. -/
theorem step_assign {path : List String} {context : Nodes → Nodes} (h : Focus path context)
    {name : String} {value : Toml} {inner : Nodes} (hfresh : Entries.get? name inner = none) :
    Draft.step ⟨context inner, path⟩ (.assign ⟨[], name⟩ value) =
      some ⟨context (Entries.insert name (.value value) inner), path⟩ := by
  have hassign : Node.assign name value true [] inner =
      some (Entries.insert name (.value value) inner) := by
    simp [Node.assign, add, hfresh]
  rw [Draft.step]
  dsimp only
  rw [h, hassign]
  rfl

theorem foldlM_assignments {path : List String} {context : Nodes → Nodes} (h : Focus path context)
    {settings : List (String × Setting)} (hdistinct : (settings.map (·.1)).Nodup) {inner : Nodes}
    (hfresh : ∀ setting ∈ settings, Entries.get? setting.1 inner = none) :
    (assignments settings).foldlM Draft.step ⟨context inner, path⟩ =
      some ⟨context (settingNodes settings inner), path⟩ := by
  induction settings generalizing inner with
  | nil => rfl
  | cons setting settings ih =>
    obtain ⟨hfirst, hothers⟩ := List.forall_mem_cons.1 hfresh
    rw [List.map_cons, List.nodup_cons] at hdistinct
    have hstill : ∀ other ∈ settings,
        Entries.get? other.1 (Entries.insert setting.1 (.value setting.2.value) inner) = none := by
      intro other hmem
      have hne : setting.1 ≠ other.1 := fun heq =>
        hdistinct.1 (heq ▸ List.mem_map_of_mem hmem)
      rw [Entries.get?_insert, if_neg hne, hothers other hmem]
    rw [assignments, List.map_cons, List.foldlM_cons, step_assign h hfirst]
    exact ih hdistinct.2 hstill

/-- A header that opens a table, and the settings below it. -/
theorem foldlM_statements {parents : List String} {name : String}
    {settings : List (String × Setting)} {context : Nodes → Nodes}
    (h : Focus (parents ++ [name]) context) {nodes : Nodes}
    (hopen : within (openTable name) parents nodes = some (context []))
    (hdistinct : (settings.map (·.1)).Nodup) (current : List String) :
    (Section.mk (parents ++ [name]) settings).statements.foldlM Draft.step ⟨nodes, current⟩ =
      some ⟨context (settingNodes settings []), parents ++ [name]⟩ := by
  have hheader : Draft.step ⟨nodes, current⟩ (.table ⟨parents, name⟩) =
      some ⟨context [], parents ++ [name]⟩ := by
    rw [Draft.step]
    dsimp only
    rw [hopen]
    rfl
  rw [Section.statements, List.dropLast_concat, List.foldlM_cons]
  have hlast : (parents ++ [name]).getLastD "" = name := by simp
  rw [hlast, hheader]
  exact foldlM_assignments h hdistinct fun _ _ => rfl

/-- Sections are built one after the other. -/
theorem foldlM_sections {s : Section} {draft next : Draft}
    (h : s.statements.foldlM Draft.step draft = some next) (sections : List Section) :
    ((s :: sections).flatMap Section.statements).foldlM Draft.step draft =
      (sections.flatMap Section.statements).foldlM Draft.step next := by
  rw [List.flatMap_cons, List.foldlM_append, h, Option.bind_eq_bind, Option.bind_some]

/-- A section under a new name at the top. -/
theorem build_section {name : String} {settings : List (String × Setting)}
    (hdistinct : (settings.map (·.1)).Nodup) {nodes : Nodes} (hfresh : Entries.get? name nodes = none)
    (current : List String) :
    (Section.mk [name] settings).statements.foldlM Draft.step ⟨nodes, current⟩ =
      some ⟨Entries.insert name (.table .header (settingNodes settings [])) nodes, [name]⟩ := by
  have hopen : within (openTable name) [] nodes =
      some (Entries.insert name (.table .header []) nodes) := by
    rw [within, openTable, hfresh]
  exact @foldlM_statements [] name settings _ (focus_nil.cons name .header nodes) nodes hopen hdistinct
    current

/-- The tables of some settings under their names, each with its header. -/
def sectionNodes (entries : List (String × List (String × Setting))) : List (String × Node) :=
  entries.map fun entry => (entry.1, .table .header (settingNodes entry.2 []))

/-- Sections under new names, inside a table that has no header. -/
theorem build_within (outer : String) {entries : List (String × List (String × Setting))}
    (hnames : (entries.map (·.1)).Nodup) (hdistinct : ∀ entry ∈ entries, (entry.2.map (·.1)).Nodup)
    {inner : Nodes} (hfresh : ∀ entry ∈ entries, Entries.get? entry.1 inner = none) (nodes : Nodes)
    (current : List String) :
    ∃ last, ((entries.map fun entry => Section.mk [outer, entry.1] entry.2).flatMap
        Section.statements).foldlM Draft.step
          ⟨Entries.insert outer (.table .passed inner) nodes, current⟩ =
      some ⟨Entries.insert outer (.table .passed ((sectionNodes entries).foldl
        (fun inner entry => Entries.insert entry.1 entry.2 inner) inner)) nodes, last⟩ := by
  induction entries generalizing inner current with
  | nil => exact ⟨current, rfl⟩
  | cons entry entries ih =>
    obtain ⟨name, settings⟩ := entry
    rw [List.map_cons, List.nodup_cons] at hnames
    obtain ⟨hfirst, hothers⟩ := List.forall_mem_cons.1 hfresh
    obtain ⟨hsettings, hdistinct⟩ := List.forall_mem_cons.1 hdistinct
    have hopen : within (openTable name) [outer] (Entries.insert outer (.table .passed inner) nodes) =
        some (Entries.insert outer (.table .passed
          (Entries.insert name (.table .header []) inner)) nodes) := by
      have hinner : openTable name inner = some (Entries.insert name (.table .header []) inner) := by
        rw [openTable, hfirst]
      exact ((focus_nil.cons outer .passed nodes) (openTable name) inner).trans (by rw [hinner]; rfl)
    have hsection := @foldlM_statements [outer] name settings _
      ((focus_nil.cons name .header inner).cons outer .passed nodes) _ hopen hsettings current
    have hstill : ∀ other ∈ entries, Entries.get? other.1
        (Entries.insert name (.table .header (settingNodes settings [])) inner) = none := by
      intro other hmem
      have hne : name ≠ other.1 := fun heq => hnames.1 (List.mem_map.2 ⟨other, hmem, heq.symm⟩)
      rw [Entries.get?_insert, if_neg hne, hothers other hmem]
    obtain ⟨last, hrest⟩ := ih hnames.2 hdistinct hstill [outer, name]
    exact ⟨last, (foldlM_sections hsection _).trans hrest⟩

/-- The table around them is new, too, if there is at least one of them. -/
theorem build_sections {outer : String} {entries : List (String × List (String × Setting))}
    (hsome : entries ≠ []) (hnames : (entries.map (·.1)).Nodup)
    (hdistinct : ∀ entry ∈ entries, (entry.2.map (·.1)).Nodup) {nodes : Nodes}
    (hfresh : Entries.get? outer nodes = none) (current : List String) :
    ∃ last, ((entries.map fun entry => Section.mk [outer, entry.1] entry.2).flatMap
        Section.statements).foldlM Draft.step ⟨nodes, current⟩ =
      some ⟨Entries.insert outer (.table .passed (Entries.ofList (sectionNodes entries))) nodes,
        last⟩ := by
  obtain ⟨entry, rest, rfl⟩ := List.exists_cons_of_ne_nil hsome
  obtain ⟨last, hbuild⟩ :=
    @build_within outer (entry :: rest) hnames hdistinct [] (fun _ _ => rfl) nodes current
  refine ⟨last, ?_⟩
  rw [Entries.ofList, ← hbuild]
  have hheader : Draft.step ⟨nodes, current⟩ (.table ⟨[outer], entry.1⟩) =
      Draft.step ⟨Entries.insert outer (.table .passed []) nodes, current⟩
        (.table ⟨[outer], entry.1⟩) := by
    rw [Draft.step, Draft.step]
    dsimp only
    rw [within_fresh _ [] hfresh]
  rw [List.map_cons, List.flatMap_cons, Section.statements, List.cons_append, List.foldlM_cons,
    List.foldlM_cons]
  exact congrArg (· >>= _) hheader

end StatQuery.Toml
