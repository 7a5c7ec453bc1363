import StatQuery.Proofs.Json.Outcome
import StatQuery.Protocol.Response

/-!
# What the members of a reply tell

A reply frame that is an object is read as its members tell (`Tells`), and it is malformed if they tell
of no reply (`decode_object`). Each field is told by the trees of its name, which may stand anywhere
among the members, and members of other names tell nothing.

The reader meets the members one after the other and collects them in a draft. What the draft must have
is said field by field (`Drafts`), so a member that is added asks only for the field of its name
(`drafts_concat`), and the draft that the reader ends with is the one that the members ask for
(`foldMembers?_eq_some_iff`).
-/

namespace StatQuery.Json

variable {α β : Type} {f : Tree → Option α}

/-! ### The trees of a name -/

/-- The trees of the members with a name, as they stand. -/
def treesOf (name : String) (members : List (List Nat × Tree)) : List Tree :=
  (members.filter fun member => text? member.1 = some name).map (·.2)

theorem treesOf_append (name : String) (xs ys : List (List Nat × Tree)) :
    treesOf name (xs ++ ys) = treesOf name xs ++ treesOf name ys := by
  simp [treesOf]

theorem treesOf_cons_self {name : String} {units : List Nat} (h : text? units = some name) (tree : Tree)
    (members : List (List Nat × Tree)) :
    treesOf name ((units, tree) :: members) = tree :: treesOf name members := by
  simp [treesOf, h]

theorem treesOf_cons_of_ne {name : String} {units : List Nat} (h : text? units ≠ some name) (tree : Tree)
    (members : List (List Nat × Tree)) :
    treesOf name ((units, tree) :: members) = treesOf name members := by
  simp [treesOf, h]

theorem treesOf_concat {other : String} {units : List Nat} (h : text? units = some other) (name : String)
    (tree : Tree) (members : List (List Nat × Tree)) :
    treesOf name (members ++ [(units, tree)]) =
      treesOf name members ++ if other = name then [tree] else [] := by
  rw [treesOf_append]
  by_cases hname : other = name
  · rw [if_pos hname, treesOf_cons_self (h.trans (congrArg some hname))]
    rfl
  · have hne : text? units ≠ some name := fun heq => hname (Option.some.inj (h.symm.trans heq))
    rw [if_neg hname, treesOf_cons_of_ne hne]
    rfl

theorem treesOf_perm (name : String) {members members' : List (List Nat × Tree)}
    (h : members.Perm members') : (treesOf name members).Perm (treesOf name members') :=
  (h.filter _).map _

theorem exists_of_mem_treesOf {name : String} {members : List (List Nat × Tree)} {tree : Tree}
    (h : tree ∈ treesOf name members) : ∃ member ∈ members, member.2 = tree := by
  obtain ⟨member, hmem, htree⟩ := List.mem_map.1 h
  exact ⟨member, List.mem_of_mem_filter hmem, htree⟩

theorem mem_treesOf {name : String} {member : List Nat × Tree} {members : List (List Nat × Tree)}
    (hmem : member ∈ members) (hname : text? member.1 = some name) : member.2 ∈ treesOf name members :=
  List.mem_map_of_mem (List.mem_filter.2 ⟨hmem, by simpa using hname⟩)

/-! ### What they stand for -/

/-- What the trees of one name stand for, which must not be several: nothing, or what `f` makes of the
one. -/
def met? (f : Tree → Option α) : List Tree → Option (Option α)
  | [] => some none
  | [tree] => (f tree).map some
  | _ => none

/-- What the trees of one name tell of a field: nothing also if the one tree is `null`. -/
def field? (f : Tree → Option α) (trees : List Tree) : Option (Option α) :=
  (met? (Tree.nullOr? f) trees).map Option.join

/-- If the trees stand for something, there is none of them or one. -/
theorem met?_cases {trees : List Tree} {met : Option α} (h : met? f trees = some met) :
    (trees = [] ∧ met = none) ∨ ∃ tree x, trees = [tree] ∧ f tree = some x ∧ met = some x := by
  match trees with
  | [] =>
    cases h
    exact .inl ⟨rfl, rfl⟩
  | [tree] =>
    obtain ⟨x, hx, rfl⟩ := Option.map_eq_some_iff.1 h
    exact .inr ⟨tree, x, rfl, hx, rfl⟩
  | _ :: _ :: _ => cases h

/-- One more tree must be the first, and `f` must make something of it. -/
theorem met?_concat_eq_some {trees : List Tree} {tree : Tree} {met : Option α} :
    met? f (trees ++ [tree]) = some met ↔
      met? f trees = some none ∧ ∃ x, f tree = some x ∧ met = some x := by
  match trees with
  | [] => simp [met?, eq_comm]
  | [first] => simp [met?]
  | first :: second :: rest => simp [met?]

theorem met?_perm (f : Tree → Option α) {trees trees' : List Tree} (h : trees.Perm trees') :
    met? f trees = met? f trees' := by
  match trees, trees' with
  | [], trees' => rw [h.nil_eq]
  | [tree], trees' => rw [h.singleton_eq]
  | _ :: _ :: _, [] => cases h.length_eq
  | _ :: _ :: _, [_] => cases h.length_eq
  | _ :: _ :: _, _ :: _ :: _ => rfl

theorem met?_congr {tree tree' : Tree} (h : f tree = f tree') (rest : List Tree) :
    met? f (tree :: rest) = met? f (tree' :: rest) := by
  cases rest with
  | nil => rw [met?, met?, h]
  | cons next rest => rfl

end StatQuery.Json

namespace StatQuery.Response

open Json Json.Reader Json.Tree

/-- The members tell of a reply: every name is a text, no field is given twice, and each field is what
its tree stands for. -/
structure Tells (members : List (List Nat × Tree)) (reply : Response) : Prop where
  names : ∀ member ∈ members, (text? member.1).isSome = true
  ok : met? boolean? (treesOf "ok" members) = some (some reply.ok)
  data : field? (dict? value?) (treesOf "data" members) = some reply.data
  errors : field? (dict? string?) (treesOf "errors" members) = some reply.errors
  error : field? string? (treesOf "error" members) = some reply.error
  detail : field? string? (treesOf "detail" members) = some reply.detail

theorem Tells.unique {members : List (List Nat × Tree)} {reply reply' : Response}
    (h : Tells members reply) (h' : Tells members reply') : reply = reply' := by
  obtain ⟨ok, data, errors, error, detail⟩ := reply
  obtain ⟨ok', data', errors', error', detail'⟩ := reply'
  cases h.ok.symm.trans h'.ok
  cases h.data.symm.trans h'.data
  cases h.errors.symm.trans h'.errors
  cases h.error.symm.trans h'.error
  cases h.detail.symm.trans h'.detail
  rfl

/-! ### Drafts -/

/-- A field that was not met before is put into the draft. -/
def once {β : Type} (met : Option β) (outcome : Option β) (put : β → Draft) : Option Draft :=
  if met.isSome then none else outcome.map put

theorem once_eq_some {β : Type} {met outcome : Option β} {put : β → Draft} {draft : Draft} :
    once met outcome put = some draft ↔ met = none ∧ ∃ x, outcome = some x ∧ put x = draft := by
  cases met <;> simp [once]

/-- The draft with one more member. -/
def step (name : String) (tree : Tree) (draft : Draft) : Option Draft :=
  if name = "ok" then once draft.ok tree.boolean? fun x => { draft with ok := some x }
  else if name = "data" then
    once draft.data (tree.nullOr? (dict? value?)) fun x => { draft with data := some x }
  else if name = "errors" then
    once draft.errors (tree.nullOr? (dict? string?)) fun x => { draft with errors := some x }
  else if name = "error" then
    once draft.error (tree.nullOr? string?) fun x => { draft with error := some x }
  else if name = "detail" then
    once draft.detail (tree.nullOr? string?) fun x => { draft with detail := some x }
  else some draft

/-- The draft has what the members ask for. -/
@[mk_iff] structure Drafts (members : List (List Nat × Tree)) (draft : Draft) : Prop where
  names : ∀ member ∈ members, (text? member.1).isSome = true
  ok : met? boolean? (treesOf "ok" members) = some draft.ok
  data : met? (nullOr? (dict? value?)) (treesOf "data" members) = some draft.data
  errors : met? (nullOr? (dict? string?)) (treesOf "errors" members) = some draft.errors
  error : met? (nullOr? string?) (treesOf "error" members) = some draft.error
  detail : met? (nullOr? string?) (treesOf "detail" members) = some draft.detail

/-- The members that a reply has. -/
def fieldNames : List String := ["ok", "data", "errors", "error", "detail"]

theorem names_concat {members : List (List Nat × Tree)} {units : List Nat} {name : String}
    (hname : text? units = some name) (tree : Tree) :
    (∀ member ∈ members ++ [(units, tree)], (text? member.1).isSome = true) ↔
      ∀ member ∈ members, (text? member.1).isSome = true := by
  simp [hname, or_imp, forall_and]

/-- A member of a known name asks for a field that was not met, one of another name for nothing. -/
theorem drafts_concat {members : List (List Nat × Tree)} {units : List Nat} {name : String}
    (hname : text? units = some name) (tree : Tree) (draft : Draft) :
    Drafts (members ++ [(units, tree)]) draft ↔
      ∃ before, Drafts members before ∧ step name tree before = some draft := by
  simp only [drafts_iff, names_concat hname, treesOf_concat hname]
  by_cases hfield : name ∈ fieldNames
  · -- The draft before is the same without the field, which must not have been met.
    simp only [fieldNames, List.mem_cons, List.not_mem_nil, or_false] at hfield
    rcases hfield with rfl | rfl | rfl | rfl | rfl <;>
      simp only [step, reduceIte, String.reduceEq, List.append_nil, met?_concat_eq_some,
        once_eq_some] <;>
      constructor
    · rintro ⟨hnames, ⟨hok, x, hx, hput⟩, hrest⟩
      exact ⟨{ draft with ok := none }, ⟨hnames, hok, hrest⟩, rfl, x, hx, by rw [← hput]⟩
    · rintro ⟨before, ⟨hnames, hok, hrest⟩, hnone, x, hx, rfl⟩
      exact ⟨hnames, ⟨hnone ▸ hok, x, hx, rfl⟩, hrest⟩
    · rintro ⟨hnames, hok, ⟨hdata, x, hx, hput⟩, hrest⟩
      exact ⟨{ draft with data := none }, ⟨hnames, hok, hdata, hrest⟩, rfl, x, hx, by rw [← hput]⟩
    · rintro ⟨before, ⟨hnames, hok, hdata, hrest⟩, hnone, x, hx, rfl⟩
      exact ⟨hnames, hok, ⟨hnone ▸ hdata, x, hx, rfl⟩, hrest⟩
    · rintro ⟨hnames, hok, hdata, ⟨herrors, x, hx, hput⟩, hrest⟩
      exact ⟨{ draft with errors := none }, ⟨hnames, hok, hdata, herrors, hrest⟩, rfl, x, hx,
        by rw [← hput]⟩
    · rintro ⟨before, ⟨hnames, hok, hdata, herrors, hrest⟩, hnone, x, hx, rfl⟩
      exact ⟨hnames, hok, hdata, ⟨hnone ▸ herrors, x, hx, rfl⟩, hrest⟩
    · rintro ⟨hnames, hok, hdata, herrors, ⟨herror, x, hx, hput⟩, hdetail⟩
      exact ⟨{ draft with error := none }, ⟨hnames, hok, hdata, herrors, herror, hdetail⟩, rfl, x, hx,
        by rw [← hput]⟩
    · rintro ⟨before, ⟨hnames, hok, hdata, herrors, herror, hdetail⟩, hnone, x, hx, rfl⟩
      exact ⟨hnames, hok, hdata, herrors, ⟨hnone ▸ herror, x, hx, rfl⟩, hdetail⟩
    · rintro ⟨hnames, hok, hdata, herrors, herror, hdetail, x, hx, hput⟩
      exact ⟨{ draft with detail := none }, ⟨hnames, hok, hdata, herrors, herror, hdetail⟩, rfl, x, hx,
        by rw [← hput]⟩
    · rintro ⟨before, ⟨hnames, hok, hdata, herrors, herror, hdetail⟩, hnone, x, hx, rfl⟩
      exact ⟨hnames, hok, hdata, herrors, herror, hnone ▸ hdetail, x, hx, rfl⟩
  · simp only [fieldNames, List.mem_cons, List.not_mem_nil, or_false, not_or] at hfield
    obtain ⟨hok, hdata, herrors, herror, hdetail⟩ := hfield
    simp [step, hok, hdata, herrors, herror, hdetail]

theorem foldMembers?_concat {σ : Type} (step : String → Tree → σ → Option σ)
    (members : List (List Nat × Tree)) (units : List Nat) (tree : Tree) (state : σ) :
    foldMembers? step (members ++ [(units, tree)]) state =
      (foldMembers? step members state).bind fun last =>
        (text? units).bind fun name => step name tree last := by
  induction members generalizing state with
  | nil =>
    rw [List.nil_append, foldMembers?, foldMembers?, Option.bind_some]
    exact congrArg _ (funext fun name => Option.bind_fun_some _)
  | cons member members ih =>
    obtain ⟨first, head⟩ := member
    rw [List.cons_append, foldMembers?, foldMembers?, funext ih]
    simp only [Option.bind_assoc]

/-- Going along the members leads to the draft that they ask for, if they ask for one. -/
theorem foldMembers?_eq_some_iff {members : List (List Nat × Tree)} {draft : Draft} :
    foldMembers? step members record.draft = some draft ↔ Drafts members draft := by
  -- A draft is of the members met so far, so the induction adds members at the end.
  induction members using List.reverseRecOn generalizing draft with
  | nil =>
    constructor
    · intro h
      cases h
      exact ⟨by simp, rfl, rfl, rfl, rfl, rfl⟩
    · rintro ⟨-, hok, hdata, herrors, herror, hdetail⟩
      obtain ⟨ok, data, errors, error, detail⟩ := draft
      cases hok
      cases hdata
      cases herrors
      cases herror
      cases hdetail
      rfl
  | append_singleton members member ih =>
    obtain ⟨units, tree⟩ := member
    rw [foldMembers?_concat]
    cases hname : text? units with
    | none =>
      constructor
      · intro h
        simp at h
      · intro h
        have hlast := h.names (units, tree) (by simp)
        simp [hname] at hlast
    | some name =>
      rw [drafts_concat hname]
      simp only [Option.bind_eq_some_iff, Option.some.injEq, exists_eq_left', ih]

/-! ### From the draft to the reply -/

theorem field?_eq_some_iff {β : Type} {f : Tree → Option β} {trees : List Tree} {x : Option β} :
    field? f trees = some x ↔ ∃ met, met? (nullOr? f) trees = some met ∧ met.join = x :=
  Option.map_eq_some_iff

/-- The members tell of the reply that stands for the draft they ask for, if the draft has all that is
required. -/
theorem tells_iff {members : List (List Nat × Tree)} {reply : Response} :
    Tells members reply ↔ ∃ draft, Drafts members draft ∧ record.finish? draft = some reply := by
  constructor
  · rintro ⟨hnames, hok, hdata, herrors, herror, hdetail⟩
    obtain ⟨ok, _, _, _, _⟩ := reply
    obtain ⟨data, hdrafted, rfl⟩ := field?_eq_some_iff.1 hdata
    obtain ⟨errors, herrorsDrafted, rfl⟩ := field?_eq_some_iff.1 herrors
    obtain ⟨error, herrorDrafted, rfl⟩ := field?_eq_some_iff.1 herror
    obtain ⟨detail, hdetailDrafted, rfl⟩ := field?_eq_some_iff.1 hdetail
    exact ⟨⟨some ok, data, errors, error, detail⟩,
      ⟨hnames, hok, hdrafted, herrorsDrafted, herrorDrafted, hdetailDrafted⟩, rfl⟩
  · rintro ⟨draft, ⟨hnames, hok, hdata, herrors, herror, hdetail⟩, hfinish⟩
    obtain ⟨ok, data, errors, error, detail⟩ := draft
    cases ok with
    | none => cases hfinish
    | some ok =>
      cases hfinish
      exact ⟨hnames, hok, field?_eq_some_iff.2 ⟨_, hdata, rfl⟩, field?_eq_some_iff.2 ⟨_, herrors, rfl⟩,
        field?_eq_some_iff.2 ⟨_, herror, rfl⟩, field?_eq_some_iff.2 ⟨_, hdetail, rfl⟩⟩

/-! ### Reading -/

/-- The tree can be read as data: its numbers are plain integers, and it nests no deeper than data may. -/
structure Readable (tree : Tree) : Prop where
  plain : tree.Plain
  depth_le : tree.depth ≤ maxDepth - 1

/-- The reader of members takes the step. -/
theorem step_gives {name : String} {tree : Tree} {text : List UInt8} (htext : tree.Spelled text)
    (hdata : name = "data" → Readable tree) (draft : Draft) :
    (record.readMember name draft).GivesMember text (step name tree draft) := by
  by_cases hfield : name ∈ fieldNames
  · simp only [fieldNames, List.mem_cons, List.not_mem_nil, or_false] at hfield
    rcases hfield with rfl | rfl | rfl | rfl | rfl
    · exact Record.readMember_gives (by rfl) (by rfl) (boolean_gives htext) (by rfl)
    · refine Record.readMember_gives (by rfl) (by rfl)
        (optional_gives htext (dict_gives htext ?_)) (by rfl)
      rintro members rfl entry hmem text hentry
      obtain ⟨hplain, hdepth⟩ := hdata rfl
      have hentries : ∀ entry ∈ members, entry.2.depth ≤ maxDepth - 2 := (depth_object_le_iff.1 hdepth).2
      exact valueWithin_gives (hplain.member hmem) (hentries entry hmem) hentry
    · refine Record.readMember_gives (by rfl) (by rfl)
        (optional_gives htext (dict_gives htext ?_)) (by rfl)
      intro members _ entry _ text hentry
      exact string_gives hentry
    · exact Record.readMember_gives (by rfl) (by rfl) (optional_gives htext (string_gives htext)) (by rfl)
    · exact Record.readMember_gives (by rfl) (by rfl) (optional_gives htext (string_gives htext)) (by rfl)
  · have hunknown : record.fields.find? (·.name = name) = none := by
      apply List.find?_eq_none.2
      intro field hmem heq
      have hname : field.name = name := by simpa using heq
      exact hfield (hname ▸ List.mem_map_of_mem (f := Json.Field.name) hmem)
    have hstep : step name tree draft = some draft := by
      simp only [fieldNames, List.mem_cons, List.not_mem_nil, or_false, not_or] at hfield
      obtain ⟨hok, hdata, herrors, herror, hdetail⟩ := hfield
      simp [step, hok, hdata, herrors, herror, hdetail]
    rw [hstep]
    exact Record.readMember_unknown hunknown (skipValue_isText (Spelled.isText tree htext))

theorem finish?_eq_some_iff {members : List (List Nat × Tree)} {reply : Response} :
    (foldMembers? step members record.draft).bind record.finish? = some reply ↔ Tells members reply := by
  simp only [Option.bind_eq_some_iff, foldMembers?_eq_some_iff, tells_iff]

/-- An object is read as a reply exactly if its members tell of that reply. -/
theorem decode_object {members : List (List Nat × Tree)} {frame : List UInt8}
    (h : (Tree.object members).SpelledIn frame)
    (hdata : ∀ tree ∈ treesOf "data" members, Readable tree) (reply : Response) :
    decode frame = .ok reply ↔ Tells members reply := by
  obtain ⟨before, inner, behind, hbefore, hbehind, hinner, rfl⟩ := h
  have hread : record.read.Gives inner
      ((foldMembers? step members record.draft).bind record.finish?) := by
    apply Record.read_spelled ?_ hinner
    intro entry hmem name text draft hname htext
    apply step_gives htext
    intro heq
    exact hdata entry.2 (mem_treesOf hmem (heq ▸ hname))
  rw [← finish?_eq_some_iff, decode]
  cases houtcome : (foldMembers? step members record.draft).bind record.finish? with
  | none =>
    rw [houtcome] at hread
    obtain ⟨e, he⟩ := run_of_refuses hread.refuses hbefore hbehind
    rw [he]
    constructor <;> intro heq <;> cases heq
  | some last =>
    rw [houtcome] at hread
    rw [run_of_takes hread.takes hbefore hbehind, Except.ok.injEq, Option.some.injEq]

/-- A frame that is not read as a reply is malformed. -/
theorem decode_error {frame : List UInt8} (h : ∀ reply, decode frame ≠ .ok reply) :
    ∃ reason, decode frame = .error (.malformedResponse reason) := by
  rw [decode] at h ⊢
  cases hrun : record.read.run frame with
  | error e => exact ⟨_, rfl⟩
  | ok reply =>
    rw [hrun] at h
    exact absurd rfl (h reply)

end StatQuery.Response
