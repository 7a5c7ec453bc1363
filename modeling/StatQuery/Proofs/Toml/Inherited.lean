import StatQuery.Proofs.Toml.Building
import StatQuery.Proofs.Toml.Layering
import StatQuery.Proofs.Toml.Scan

/-!
# What holds of every value of a document

A property that passes between values and their parts, and holds of texts and of scalars, holds of every
document (`Inherited.of_parse?`) and of everything that layers make (`Inherited.merge`). Entries are only
ever inserted, in the tree that statements build as well as in inline tables, and what a part of the tree
would become if it were closed now has the property at any time.
-/

namespace StatQuery.Toml

/-- A property that a value has if its parts have it, and its parts if it has it. -/
structure Inherited (P : Toml → Prop) : Prop where
  empty : P (table [])
  insert : ∀ {entries : Table} {value : Toml} (key : String), P (table entries) → P value →
    P (table (Entries.insert key value entries))
  uncons : ∀ {key : String} {value : Toml} {rest : Table}, P (table ((key, value) :: rest)) →
    P value ∧ P (table rest)
  array_iff : ∀ items, P (array items) ↔ ∀ item ∈ items, P item
  string : ∀ s, P (string s)
  scalar : ∀ {run : List Char} {value : Toml}, Scalar.ofRun? run = some value → P value

variable {P : Toml → Prop}

namespace Inherited

theorem of_mem (hP : Inherited P) {entries : Table} (h : P (table entries)) {entry : String × Toml}
    (hmem : entry ∈ entries) : P entry.2 := by
  induction entries with
  | nil => cases hmem
  | cons first rest ih =>
    obtain ⟨hfirst, hrest⟩ := hP.uncons h
    rcases List.mem_cons.1 hmem with rfl | hmem
    · exact hfirst
    · exact ih hrest hmem

theorem get? (hP : Inherited P) {entries : Table} (h : P (table entries)) {key : String} {value : Toml}
    (hget : Entries.get? key entries = some value) : P value :=
  hP.of_mem h (Entries.mem_of_get? hget)

theorem ofList (hP : Inherited P) {entries : Table} (h : ∀ entry ∈ entries, P entry.2) :
    P (table (Entries.ofList entries)) :=
  List.foldlRecOn (motive := fun sorted => P (table sorted)) entries _ hP.empty
    fun _ hsorted entry hmem => hP.insert entry.1 hsorted (h entry hmem)

/-! ### Layers -/

mutual

theorem merge (hP : Inherited P) : ∀ (base overlay : Table), P (table base) → P (table overlay) →
    P (table (Toml.merge base overlay))
  | base, [], hbase, _ => by
    rw [Toml.merge]
    exact hbase
  | base, (key, value) :: rest, hbase, hoverlay => by
    obtain ⟨hvalue, hrest⟩ := hP.uncons hoverlay
    rw [Toml.merge]
    exact merge hP _ rest (set hP base key value hbase hvalue) hrest

theorem set (hP : Inherited P) : ∀ (base : Table) (key : String) (value : Toml), P (table base) →
    P value → P (table (Toml.set base key value))
  | base, key, table incoming, hbase, hvalue => by
    rw [Toml.set]
    split
    · next existing hget =>
      exact hP.insert key hbase (merge hP existing incoming (hP.get? hbase hget) hvalue)
    · exact hP.insert key hbase hvalue
  | _, key, .string _, hbase, hvalue => hP.insert key hbase hvalue
  | _, key, .integer _, hbase, hvalue => hP.insert key hbase hvalue
  | _, key, .float _, hbase, hvalue => hP.insert key hbase hvalue
  | _, key, .boolean _, hbase, hvalue => hP.insert key hbase hvalue
  | _, key, .datetime _, hbase, hvalue => hP.insert key hbase hvalue
  | _, key, .array _, hbase, hvalue => hP.insert key hbase hvalue

end

theorem foldl_merge (hP : Inherited P) {layers : List Table} {base : Table} (hbase : P (table base))
    (h : ∀ layer ∈ layers, P (table layer)) : P (table (layers.foldl Toml.merge base)) :=
  List.foldlRecOn (motive := fun below => P (table below)) layers _ hbase
    fun below hbelow layer hmem => hP.merge below layer hbelow (h layer hmem)

end Inherited

/-- What each step keeps is there after all of them. -/
theorem foldlM_keeps {σ α : Type} {Holds : σ → Prop} {step : σ → α → Option σ} {steps : List α}
    (h : ∀ x ∈ steps, ∀ state next, Holds state → step state x = some next → Holds next)
    {state final : σ} (hstate : Holds state) (hfold : steps.foldlM step state = some final) :
    Holds final := by
  induction steps generalizing state with
  | nil =>
    cases hfold
    exact hstate
  | cons x steps ih =>
    obtain ⟨hfirst, hothers⟩ := List.forall_mem_cons.1 h
    obtain ⟨next, hnext, hrest⟩ := Option.bind_eq_some_iff.1 hfold
    exact ih hothers (hfirst state next hstate hnext) hrest

namespace Node

/-! ### The tree -/

/-- The table that some entries would become now has the property. -/
def Closable (P : Toml → Prop) (nodes : Nodes) : Prop := P (Toml.table (closeEntries nodes))

variable {nodes next : Nodes}

theorem closable_empty (hP : Inherited P) : Closable P [] := hP.empty

theorem Closable.insert (hP : Inherited P) (h : Closable P nodes) (key : String) {node : Node}
    (hnode : P node.close) : Closable P (Entries.insert key node nodes) := by
  rw [Closable, closeEntries_insert]
  exact hP.insert key h hnode

theorem Closable.of_get? (hP : Inherited P) (h : Closable P nodes) {key : String} {node : Node}
    (hget : Entries.get? key nodes = some node) : P node.close := by
  refine hP.get? h (?_ : Entries.get? key (closeEntries nodes) = some node.close)
  rw [closeEntries_eq_map, Entries.get?_map, hget, Option.map_some]

theorem closable_of_table {origin : Origin} (h : P (table origin nodes).close) : Closable P nodes := h

theorem tables_iff (hP : Inherited P) {closed : List Toml} :
    P (tables closed nodes).close ↔ (∀ item ∈ closed, P item) ∧ Closable P nodes := by
  rw [close, hP.array_iff, List.forall_mem_append, List.forall_mem_singleton]
  rfl

/-- A change keeps the tree closable. -/
def Keeps (P : Toml → Prop) (change : Nodes → Option Nodes) : Prop :=
  ∀ nodes next, Closable P nodes → change nodes = some next → Closable P next

theorem Keeps.within (hP : Inherited P) {change : Nodes → Option Nodes} (h : Keeps P change)
    (path : List String) : Keeps P (within change path) := by
  induction path with
  | nil => exact h
  | cons key path ih =>
    intro nodes next hnodes hchange
    rw [Node.within] at hchange
    split at hchange
    · obtain ⟨inner, hinner, rfl⟩ := Option.map_eq_some_iff.1 hchange
      exact hnodes.insert hP key (ih [] inner (closable_empty hP) hinner)
    · next origin inner hget =>
      obtain ⟨changed, hchanged, rfl⟩ := Option.map_eq_some_iff.1 hchange
      have hinner := closable_of_table (hnodes.of_get? hP hget)
      exact hnodes.insert hP key (ih inner changed hinner hchanged)
    · next closed last hget =>
      obtain ⟨changed, hchanged, rfl⟩ := Option.map_eq_some_iff.1 hchange
      obtain ⟨hclosed, hlast⟩ := (tables_iff hP).1 (hnodes.of_get? hP hget)
      have hnext := ih last changed hlast hchanged
      exact hnodes.insert hP key ((tables_iff hP).2 ⟨hclosed, hnext⟩)
    · cases hchange

theorem keeps_add (hP : Inherited P) (key : String) {entry : Toml} (h : P entry) (takes : Bool) :
    Keeps P (add key entry takes) := by
  intro nodes next hnodes hadd
  rw [add] at hadd
  split at hadd
  · cases hadd
    exact hnodes.insert hP key h
  · cases hadd

theorem keeps_assign (hP : Inherited P) (key : String) {entry : Toml} (h : P entry)
    (path : List String) (takes : Bool) : Keeps P (assign key entry takes path) := by
  induction path generalizing takes with
  | nil =>
    intro nodes next hnodes hassign
    rw [assign] at hassign
    exact keeps_add hP key h takes nodes next hnodes hassign
  | cons name path ih =>
    intro nodes next hnodes hassign
    rw [assign] at hassign
    split at hassign
    · obtain ⟨inner, hinner, rfl⟩ := Option.map_eq_some_iff.1 hassign
      exact hnodes.insert hP name (ih true [] inner (closable_empty hP) hinner)
    · cases hassign
    · next inner hget =>
      obtain ⟨changed, hchanged, rfl⟩ := Option.map_eq_some_iff.1 hassign
      have hinner := closable_of_table (hnodes.of_get? hP hget)
      exact hnodes.insert hP name (ih false inner changed hinner hchanged)
    · next inner hget =>
      obtain ⟨changed, hchanged, rfl⟩ := Option.map_eq_some_iff.1 hassign
      have hinner := closable_of_table (hnodes.of_get? hP hget)
      exact hnodes.insert hP name (ih true inner changed hinner hchanged)
    · next closed last hget =>
      obtain ⟨changed, hchanged, rfl⟩ := Option.map_eq_some_iff.1 hassign
      obtain ⟨hclosed, hlast⟩ := (tables_iff hP).1 (hnodes.of_get? hP hget)
      have hnext := ih false last changed hlast hchanged
      exact hnodes.insert hP name ((tables_iff hP).2 ⟨hclosed, hnext⟩)
    · cases hassign

theorem keeps_openTable (hP : Inherited P) (key : String) : Keeps P (openTable key) := by
  intro nodes next hnodes hopen
  rw [openTable] at hopen
  split at hopen
  · cases hopen
    exact hnodes.insert hP key (closable_empty hP)
  · next inner hget =>
    cases hopen
    exact hnodes.insert hP key (closable_of_table (hnodes.of_get? hP hget))
  · cases hopen

theorem keeps_openElement (hP : Inherited P) (key : String) : Keeps P (openElement key) := by
  have hempty := closable_empty hP
  intro nodes next hnodes hopen
  rw [openElement] at hopen
  split at hopen
  · cases hopen
    exact hnodes.insert hP key ((tables_iff hP).2 ⟨by simp, hempty⟩)
  · next closed last hget =>
    cases hopen
    have hitems := hnodes.of_get? hP hget
    rw [close, hP.array_iff] at hitems
    exact hnodes.insert hP key ((tables_iff hP).2 ⟨hitems, hempty⟩)
  · cases hopen

theorem of_inlineTable? (hP : Inherited P) {pairs : List (KeyPath × Toml)} {entries : Table}
    (hpairs : ∀ pair ∈ pairs, P pair.2) (h : inlineTable? pairs = some entries) :
    P (Toml.table entries) := by
  obtain ⟨nodes, hnodes, rfl⟩ := Option.map_eq_some_iff.1 h
  have hkeeps : ∀ pair ∈ pairs, Keeps P (assign pair.1.key pair.2 true pair.1.parents) :=
    fun pair hmem => keeps_assign hP pair.1.key (hpairs pair hmem) pair.1.parents true
  exact @foldlM_keeps _ _ (Closable P) _ _ hkeeps _ _ (closable_empty hP) hnodes

end Node

/-! ### Statements -/

/-- The value of an assignment has the property. -/
def Statement.Assigns (P : Toml → Prop) : Statement → Prop
  | .assign _ value => P value
  | _ => True

open Node

theorem closable_step (hP : Inherited P) {draft next : Draft} {statement : Statement}
    (hdraft : Closable P draft.nodes) (hstatement : statement.Assigns P)
    (h : draft.step statement = some next) : Closable P next.nodes := by
  cases statement with
  | assign path value =>
    obtain ⟨nodes, hnodes, hnext⟩ := Option.bind_eq_some_iff.1 h
    cases hnext
    exact (keeps_assign hP path.key hstatement path.parents true).within hP _ _ _ hdraft hnodes
  | table path =>
    obtain ⟨nodes, hnodes, hnext⟩ := Option.bind_eq_some_iff.1 h
    cases hnext
    exact (keeps_openTable hP _).within hP _ _ _ hdraft hnodes
  | element path =>
    obtain ⟨nodes, hnodes, hnext⟩ := Option.bind_eq_some_iff.1 h
    cases hnext
    exact (keeps_openElement hP _).within hP _ _ _ hdraft hnodes

theorem Inherited.of_build? (hP : Inherited P) {statements : List Statement} {entries : Table}
    (hstatements : ∀ statement ∈ statements, statement.Assigns P)
    (h : build? statements = some entries) : P (table entries) := by
  obtain ⟨draft, hdraft, rfl⟩ := Option.map_eq_some_iff.1 h
  have hkeeps : ∀ statement ∈ statements, ∀ draft next : Draft, Closable P draft.nodes →
      draft.step statement = some next → Closable P next.nodes :=
    fun statement hmem _ _ hdraft hstep => closable_step hP hdraft (hstatements statement hmem) hstep
  exact @foldlM_keeps _ _ (Closable P ∘ Draft.nodes) _ _ hkeeps .empty _ (closable_empty hP) hdraft

namespace Scan

variable {α β : Type}

/-! ### Scans -/

/-- Whatever the scan yields has the property. -/
def Yields (scan : Scan α) (P : α → Prop) : Prop :=
  ∀ text x rest, scan text = some (x, rest) → P x

theorem Yields.bind {scan : Scan α} {next : α → Scan β} {P : α → Prop} {Q : β → Prop}
    (h : Yields scan P) (hnext : ∀ x, P x → Yields (next x) Q) : Yields (scan >>= next) Q := by
  intro text y rest hrun
  obtain ⟨⟨x, left⟩, hx, hy⟩ := Option.bind_eq_some_iff.1 hrun
  exact hnext x (h text x left hx) left y rest hy

theorem Yields.pure {x : α} {P : α → Prop} (h : P x) : Yields (Pure.pure x) P := by
  intro text y rest hrun
  cases hrun
  exact h

theorem yields_failure {P : α → Prop} : Yields (failure : Scan α) P := by
  intro text x rest hrun
  cases hrun

/-- Nothing need be known of a value on the way. -/
theorem yields_true (scan : Scan α) : Yields scan fun _ => True := fun _ _ _ _ => trivial

/-- A scan whose value does not matter may come first. -/
theorem Yields.after {next : α → Scan β} {Q : β → Prop} (h : ∀ x, Yields (next x) Q)
    (scan : Scan α) : Yields (scan >>= next) Q :=
  (yields_true scan).bind fun x _ => h x

theorem yields_scalar (hP : Inherited P) : Yields scalar P := by
  intro text value rest hrun
  obtain ⟨found, hfound, heq⟩ := Option.map_eq_some_iff.1 hrun
  cases heq
  exact hP.scalar hfound

variable {value : Scan Toml}

theorem yields_keyValue (h : Yields value P) : Yields (keyValue value) fun pair => P pair.2 := by
  refine .after (fun path => .after (fun _ => .after (fun _ => ?_) _) _) _
  exact h.bind fun x hx => .pure hx

theorem yields_itemsUpTo (h : Yields value P) (limit : Nat) :
    Yields (itemsUpTo value limit) fun items => ∀ item ∈ items, P item := by
  induction limit with
  | zero => exact yields_failure
  | succ limit ih =>
    refine .after (fun _ => .after (fun next => ?_) _) _
    split
    · exact .after (fun _ => .pure (by simp)) _
    · refine h.bind fun item hitem => .after (fun _ => .after (fun next => ?_) _) _
      split
      · refine .after (fun _ => ih.bind fun items hitems => .pure ?_) _
        exact List.forall_mem_cons.2 ⟨hitem, hitems⟩
      · exact .after (fun _ => .pure (by simpa using hitem)) _

theorem yields_pairsUpTo (h : Yields value P) (limit : Nat) :
    Yields (pairsUpTo value limit) fun pairs => ∀ pair ∈ pairs, P pair.2 := by
  induction limit with
  | zero => exact yields_failure
  | succ limit ih =>
    refine (yields_keyValue h).bind fun pair hpair => .after (fun _ => .after (fun next => ?_) _) _
    split
    · refine .after (fun _ => ih.bind fun pairs hpairs => .pure ?_) _
      exact List.forall_mem_cons.2 ⟨hpair, hpairs⟩
    · refine .after (fun _ => .pure ?_) _
      exact List.forall_mem_cons.2 ⟨hpair, fun _ hmem => absurd hmem List.not_mem_nil⟩

theorem yields_array (hP : Inherited P) (h : Yields value P) : Yields (array value) P := by
  refine .after (fun limit => (yields_itemsUpTo h _).bind fun items hitems => .pure ?_) _
  exact (hP.array_iff items).2 hitems

theorem yields_inlineTable (hP : Inherited P) (h : Yields value P) :
    Yields (inlineTable value) P := by
  refine .after (fun _ => .after (fun next => ?_) _) _
  split
  · exact .after (fun _ => .pure hP.empty) _
  · refine .after (fun limit => (yields_pairsUpTo h _).bind fun pairs hpairs => ?_) _
    split
    · next entries hentries => exact .pure (of_inlineTable? hP hpairs hentries)
    · exact yields_failure

theorem yields_valueWithin (hP : Inherited P) (depth : Nat) : Yields (valueWithin depth) P := by
  have hstring : Yields (do return .string (← Text.string)) P :=
    .after (fun s => .pure (hP.string s)) _
  induction depth with
  | zero =>
    refine .after (fun next => ?_) _
    split
    · exact hstring
    · exact hstring
    · exact yields_scalar hP
  | succ depth ih =>
    refine .after (fun next => ?_) _
    split
    · exact hstring
    · exact hstring
    · exact .after (fun _ => yields_array hP ih) _
    · exact .after (fun _ => yields_inlineTable hP ih) _
    · exact yields_scalar hP

theorem yields_header (P : Toml → Prop) : Yields header (Statement.Assigns P) := by
  refine .after (fun next => ?_) _
  split
  · exact .after (fun _ => .after (fun path => .after (fun _ => .after (fun _ => .pure trivial) _) _) _) _
  · exact .after (fun path => .after (fun _ => .pure trivial) _) _

theorem yields_statement (hP : Inherited P) : Yields statement (Statement.Assigns P) := by
  refine .after (fun next => ?_) _
  split
  · refine .after (fun _ => (yields_header P).bind fun header hheader => ?_) _
    exact .after (fun _ => .pure hheader) _
  · refine (yields_keyValue (yields_valueWithin hP maxDepth)).bind fun ⟨path, value⟩ hvalue => ?_
    have hassign : (Statement.assign path value).Assigns P := hvalue
    exact .after (fun _ => .pure hassign) _

theorem yields_statementsUpTo (hP : Inherited P) (limit : Nat) :
    Yields (statementsUpTo limit) fun statements => ∀ s ∈ statements, s.Assigns P := by
  induction limit with
  | zero => exact yields_failure
  | succ limit ih =>
    refine .after (fun _ => .after (fun next => ?_) _) _
    split
    · exact .pure (by simp)
    · exact .after (fun _ => ih) _
    · exact .after (fun _ => ih) _
    · exact .after (fun _ => ih) _
    · refine (yields_statement hP).bind fun first hfirst => ih.bind fun others hothers => .pure ?_
      exact List.forall_mem_cons.2 ⟨hfirst, hothers⟩

end Scan

/-- A document has every property that is inherited. -/
theorem Inherited.of_parse? (hP : Inherited P) {text : String} {entries : Table}
    (h : parse? text = some entries) : P (table entries) := by
  obtain ⟨statements, hstatements, hbuild⟩ := Option.bind_eq_some_iff.1 h
  refine hP.of_build? ?_ hbuild
  rw [Scan.run] at hstatements
  split at hstatements
  · next found hfound =>
    cases hstatements
    have hyields : Scan.Yields Scan.statements fun statements => ∀ s ∈ statements, s.Assigns P :=
      .after (fun limit => Scan.yields_statementsUpTo hP _) _
    exact hyields _ _ _ hfound
  · cases hstatements

end StatQuery.Toml
