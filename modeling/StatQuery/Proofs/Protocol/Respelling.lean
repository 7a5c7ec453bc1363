import StatQuery.Proofs.Protocol.Members
import StatQuery.Proofs.Protocol.Response

/-!
# Replies written again

A frame that is an object may be spelled in many ways: with its members in another order at any depth,
with other blanks and escapes, with members that nobody asks for, and with `null` in place of an absent
field (`Alike`). All of them tell of the same reply, or none of them tells of one (`Alike.tells_iff`),
since what a field tells depends on none of this (`Blind`).

Writing a reply again after reading it (`reencode`) therefore leads every spelling to one frame, from
which the reply is read back (`Tells.readBack`): in it the fields that were given stand in the order
of the record, with ascending keys throughout (`ListsInOrder`).
-/

namespace StatQuery.Response

open Json Json.Reader Json.Tree

/-- The members that may be absent, or `null` instead. -/
def optionalNames : List String := ["data", "errors", "error", "detail"]

/-- The members differ by nothing that a reply is read from: their order and the order of members within
them, members whose names are other texts, and `null` in place of an absent field. A name that is no
text is none of these, as it makes every reply malformed (`Tells.names`). -/
inductive Alike : List (List Nat × Tree) → List (List Nat × Tree) → Prop
  | perm {members members' : List (List Nat × Tree)} (h : members.Perm members') :
      Alike members members'
  | reordered {members : List (List Nat × Tree)} {units : List Nat} {tree tree' : Tree}
      (h : Reordered tree tree') : Alike ((units, tree) :: members) ((units, tree') :: members)
  | other {members : List (List Nat × Tree)} {name : String} (tree : Tree) (hname : name ∉ fieldNames) :
      Alike members ((unitsOf name, tree) :: members)
  | null {members : List (List Nat × Tree)} {name : String} (hname : name ∈ optionalNames)
      (habsent : treesOf name members = []) : Alike members ((unitsOf name, .null) :: members)
  | symm {members members' : List (List Nat × Tree)} (h : Alike members members') :
      Alike members' members
  | trans {members members' members'' : List (List Nat × Tree)} (h : Alike members members')
      (h' : Alike members' members'') : Alike members members''

/-! ### What the trees of a field have in common -/

section Alike

variable {members members' : List (List Nat × Tree)} {name : String}

theorem Alike.names_iff (h : Alike members members') :
    (∀ member ∈ members, (text? member.1).isSome = true) ↔
      ∀ member ∈ members', (text? member.1).isSome = true := by
  induction h with
  | perm h => simp only [h.mem_iff]
  | reordered h => simp only [List.forall_mem_cons]
  | other tree hname => simp
  | null hname habsent => simp
  | symm _ ih => exact ih.symm
  | trans _ _ ih ih' => exact ih.trans ih'

/-- A member of another name is none of a field's. -/
theorem treesOf_other {other : String} (hname : name ∈ fieldNames) (hother : other ∉ fieldNames)
    (tree : Tree) : treesOf name ((unitsOf other, tree) :: members) = treesOf name members := by
  apply treesOf_cons_of_ne
  rw [text?_unitsOf]
  rintro ⟨⟩
  exact hother hname

/-- The trees of a field keep what does not depend on the order of members and holds of `null`. -/
theorem Alike.forall_treesOf_iff {P : Tree → Prop}
    (hreordered : ∀ {tree tree' : Tree}, Reordered tree tree' → P tree → P tree') (hnull : P .null)
    (hname : name ∈ fieldNames) (h : Alike members members') :
    (∀ tree ∈ treesOf name members, P tree) ↔ ∀ tree ∈ treesOf name members', P tree := by
  induction h with
  | perm h => simp only [(treesOf_perm name h).mem_iff]
  | @reordered members units tree tree' h =>
    by_cases hunits : text? units = some name
    · have htree : P tree ↔ P tree' := ⟨hreordered h, hreordered h.symm⟩
      simp only [treesOf_cons_self hunits, List.forall_mem_cons, htree]
    · rw [treesOf_cons_of_ne hunits, treesOf_cons_of_ne hunits]
  | other tree hother => rw [treesOf_other hname hother]
  | @null members other _ _ =>
    by_cases hunits : text? (unitsOf other) = some name
    · simp only [treesOf_cons_self hunits, List.forall_mem_cons, hnull, true_and]
    · rw [treesOf_cons_of_ne hunits]
  | symm _ ih => exact ih.symm
  | trans _ _ ih ih' => exact ih.trans ih'

/-- What the trees of a name tell does not depend on the order, theirs or that of their members, nor on
whether the field is `null` or absent if it may be so. -/
structure Blind {β : Type} (name : String) (tell : List Tree → β) : Prop where
  perm : ∀ {trees trees' : List Tree}, trees.Perm trees' → tell trees = tell trees'
  reordered : ∀ {tree tree' : Tree} (rest : List Tree), Reordered tree tree' → tree.Distinct →
    tell (tree :: rest) = tell (tree' :: rest)
  null : name ∈ optionalNames → tell [.null] = tell []

theorem blind_ok : Blind "ok" (met? boolean?) where
  perm h := met?_perm boolean? h
  reordered rest h hdistinct := met?_congr (orderFree_boolean? h hdistinct) rest
  null hname := absurd hname (by decide)

theorem blind_field {α : Type} {f : Tree → Option α} (hf : OrderFree f) (name : String) :
    Blind name (field? f) where
  perm h := congrArg (Option.map Option.join) (met?_perm _ h)
  reordered rest h hdistinct := congrArg (Option.map Option.join) (met?_congr (hf.nullOr? h hdistinct) rest)
  null _ := rfl

theorem Blind.tell_eq {β : Type} {tell : List Tree → β} (htell : Blind name tell)
    (hname : name ∈ fieldNames) (h : Alike members members')
    (hdistinct : ∀ tree ∈ treesOf name members, tree.Distinct) :
    tell (treesOf name members) = tell (treesOf name members') := by
  -- Distinct names are known of one end of a chain only, and are carried along it.
  have hkept {members members' : List (List Nat × Tree)} (h : Alike members members') :=
    h.forall_treesOf_iff Reordered.distinct distinct_null hname
  induction h with
  | perm h => exact htell.perm (treesOf_perm name h)
  | @reordered members units tree tree' h =>
    by_cases hunits : text? units = some name
    · rw [treesOf_cons_self hunits] at hdistinct ⊢
      rw [treesOf_cons_self hunits]
      exact htell.reordered _ h (hdistinct tree List.mem_cons_self)
    · rw [treesOf_cons_of_ne hunits, treesOf_cons_of_ne hunits]
  | other tree hother => rw [treesOf_other hname hother]
  | @null members other hoptional habsent =>
    by_cases hunits : text? (unitsOf other) = some name
    · obtain rfl : other = name := by simpa using hunits
      rw [treesOf_cons_self hunits, habsent]
      exact (htell.null hoptional).symm
    · rw [treesOf_cons_of_ne hunits]
  | symm h ih => exact (ih ((hkept h).2 hdistinct)).symm
  | trans h _ ih ih' => exact (ih hdistinct).trans (ih' ((hkept h).1 hdistinct))

theorem Alike.tells {reply : Response} (h : Alike members members')
    (hdistinct : ∀ name ∈ fieldNames, ∀ tree ∈ treesOf name members, tree.Distinct)
    (htells : Tells members reply) : Tells members' reply where
  names := h.names_iff.1 htells.names
  ok := (blind_ok.tell_eq (by decide) h (hdistinct "ok" (by decide))).symm.trans htells.ok
  data := ((blind_field orderFree_value?.dict? "data").tell_eq (by decide) h
    (hdistinct "data" (by decide))).symm.trans htells.data
  errors := ((blind_field orderFree_string?.dict? "errors").tell_eq (by decide) h
    (hdistinct "errors" (by decide))).symm.trans htells.errors
  error := ((blind_field orderFree_string? "error").tell_eq (by decide) h
    (hdistinct "error" (by decide))).symm.trans htells.error
  detail := ((blind_field orderFree_string? "detail").tell_eq (by decide) h
    (hdistinct "detail" (by decide))).symm.trans htells.detail

/-- Members that are alike tell of the same reply. -/
theorem Alike.tells_iff {reply : Response} (h : Alike members members')
    (hdistinct : ∀ name ∈ fieldNames, ∀ tree ∈ treesOf name members, tree.Distinct) :
    Tells members reply ↔ Tells members' reply := by
  have hdistinct' : ∀ name ∈ fieldNames, ∀ tree ∈ treesOf name members', tree.Distinct :=
    fun name hname => (h.forall_treesOf_iff Reordered.distinct distinct_null hname).1
      (hdistinct name hname)
  exact ⟨h.tells hdistinct, h.symm.tells hdistinct'⟩

theorem Readable.reordered {tree tree' : Tree} (h : Reordered tree tree') (hreadable : Readable tree) :
    Readable tree' :=
  ⟨h.plain hreadable.plain, h.depth_le hreadable.depth_le⟩

end Alike

/-! ### What is told and written -/

/-- Nothing is told of a field whose trees are `null`; otherwise it has one tree, and `f` makes of it
what is told. -/
theorem field?_cases {α : Type} {f : Tree → Option α} {trees : List Tree} {x : Option α}
    (h : field? f trees = some x) :
    (x = none ∧ ∀ tree ∈ trees, tree = .null) ∨
      ∃ tree y, trees = [tree] ∧ tree ≠ .null ∧ f tree = some y ∧ x = some y := by
  obtain ⟨met, hmet, rfl⟩ := field?_eq_some_iff.1 h
  rcases met?_cases hmet with ⟨rfl, rfl⟩ | ⟨tree, told, rfl, htold, rfl⟩
  · exact .inl ⟨rfl, by simp⟩
  · by_cases hnull : tree = .null
    · subst hnull
      cases htold
      exact .inl ⟨rfl, by simp⟩
    · rw [nullOr?_of_ne_null hnull] at htold
      obtain ⟨y, hy, rfl⟩ := Option.map_eq_some_iff.1 htold
      exact .inr ⟨tree, y, rfl, hnull, hy, rfl⟩

/-- The members give a field, and not as `null`. -/
def given (members : List (List Nat × Tree)) (name : String) : Bool :=
  (treesOf name members).any fun tree => !tree.isNull

theorem given_eq_isSome {α : Type} {f : Tree → Option α} {members : List (List Nat × Tree)}
    {name : String} {x : Option α} (h : field? f (treesOf name members) = some x) :
    given members name = x.isSome := by
  rcases field?_cases h with ⟨rfl, hnull⟩ | ⟨tree, y, htrees, hne, -, rfl⟩
  · apply List.any_eq_false.2
    intro tree hmem
    rw [hnull tree hmem]
    decide
  · rw [given, htrees]
    simp [isNull_eq_false_of_ne hne]

/-- The frame is an object of the fields that the members give, in the order of the record, and every
object in it has ascending keys. -/
def ListsInOrder (members : List (List Nat × Tree)) (frame : List UInt8) : Prop :=
  ∃ written : List (String × Json), (Json.object written).WrittenAs frame ∧
    written.map (·.1) = fieldNames.filter (given members) ∧
    ∀ member ∈ written, member.2.Canonical

section Tells

variable {members : List (List Nat × Tree)} {reply : Response}

theorem mem_optionalMember {name : String} {value : Option Json} {member : String × Json} :
    member ∈ optionalMember name value ↔ ∃ v, value = some v ∧ member = (name, v) := by
  cases value <;> simp [optionalMember]

/-- The data is the value of a tree, and nests no deeper than that. -/
theorem Tells.regular_data (h : Tells members reply)
    (hreadable : ∀ tree ∈ treesOf "data" members, Readable tree) {data : Dict Json}
    (hdata : reply.data = some data) : Regular (maxDepth - 1) (ofDict data) := by
  rcases field?_cases h.data with ⟨hnone, -⟩ | ⟨tree, told, htrees, -, htold, hsome⟩
  · rw [hdata] at hnone
    cases hnone
  · obtain rfl : data = told := Option.some.inj (hdata.symm.trans hsome)
    have hdepth : tree.depth ≤ maxDepth - 1 := (hreadable tree (by simp [htrees])).depth_le
    have hvalue : tree.value? = some (ofDict data) := by
      cases tree with
      | object entries => rw [value?_object, htold, Option.map_some]
      | _ => cases htold
    exact regular_of_value? hdepth hvalue

theorem Tells.regular_members (h : Tells members reply)
    (hreadable : ∀ tree ∈ treesOf "data" members, Readable tree) :
    ∀ member ∈ reply.members, Regular (maxDepth - 1) member.2 := by
  intro member hmem
  simp only [Response.members, List.mem_cons, List.mem_append, mem_optionalMember,
    Option.map_eq_some_iff] at hmem
  rcases hmem with rfl | ((⟨_, ⟨data, hdata, rfl⟩, rfl⟩ | ⟨_, ⟨errors, -, rfl⟩, rfl⟩) |
    ⟨_, ⟨error, -, rfl⟩, rfl⟩) | ⟨_, ⟨detail, -, rfl⟩, rfl⟩
  · exact ⟨trivial, trivial, Nat.zero_le _⟩
  · exact h.regular_data hreadable hdata
  · have hentries : Regular (maxDepth - 2 + 1) (ofDict (errors.map .string)) := by
      apply regular_ofDict
      intro entry hmem
      obtain ⟨origin, -, rfl⟩ := List.mem_map.1 hmem
      exact regular_string _ origin.2
    exact hentries
  · exact regular_string _ error
  · exact regular_string _ detail

theorem Tells.canonical (h : Tells members reply)
    (hreadable : ∀ tree ∈ treesOf "data" members, Readable tree) : reply.Canonical :=
  fun _ hdata => (h.regular_data hreadable hdata).canonical.2

theorem Tells.floatFree (h : Tells members reply)
    (hreadable : ∀ tree ∈ treesOf "data" members, Readable tree) : reply.toJson.FloatFree :=
  floatFreeMembers_iff.2 fun member hmem => (h.regular_members hreadable member hmem).floatFree

/-- A reply that was told of is read back from its frame. -/
theorem Tells.readBack (h : Tells members reply)
    (hreadable : ∀ tree ∈ treesOf "data" members, Readable tree) : decode reply.encode = .ok reply := by
  have hdepth : depthMembers reply.members ≤ maxDepth - 1 :=
    Json.depthMembers_le_iff.2 fun member hmem => (h.regular_members hreadable member hmem).depth_le
  exact decode_encode_of_canonical (h.canonical hreadable) (h.floatFree hreadable)
    (Nat.succ_le_succ hdepth)

theorem Tells.listsInOrder (h : Tells members reply)
    (hreadable : ∀ tree ∈ treesOf "data" members, Readable tree) :
    ListsInOrder members reply.encode := by
  refine ⟨reply.members, ?_, ?_, fun member hmem => (h.regular_members hreadable member hmem).canonical⟩
  · have hexact : reply.toJson.Exact := exact_toJson (h.canonical hreadable) (h.floatFree hreadable)
    rw [encode, text, compact, Utf8.encode, String.toList_ofList]
    exact compactChars_written _ hexact
  · have hok : given members "ok" = true := by
      rcases met?_cases h.ok with ⟨-, hnone⟩ | ⟨tree, b, htrees, htold, -⟩
      · cases hnone
      · have hne : tree ≠ .null := by
          rintro rfl
          cases htold
        simp [given, htrees, isNull_eq_false_of_ne hne]
    simp only [fieldNames, List.filter_cons, hok, given_eq_isSome h.data, given_eq_isSome h.errors,
      given_eq_isSome h.error, given_eq_isSome h.detail, List.filter_nil]
    obtain ⟨ok, data, errors, error, detail⟩ := reply
    cases data <;> cases errors <;> cases error <;> cases detail <;> rfl

end Tells

/-! ### Writing again -/

/-- The frame of the reply that a frame is read as. -/
def reencode (frame : List UInt8) : Except ProtocolError (List UInt8) := (decode frame).map encode

theorem readable_data {members : List (List Nat × Tree)}
    (hplain : ∀ tree ∈ treesOf "data" members, tree.Plain)
    (hdepth : (Tree.object members).depth ≤ maxDepth) :
    ∀ tree ∈ treesOf "data" members, Readable tree := by
  intro tree hmem
  obtain ⟨member, hmember, rfl⟩ := exists_of_mem_treesOf hmem
  exact ⟨hplain _ hmem, (depth_object_le_iff.1 hdepth).2 member hmember⟩

/-- All frames of members that are alike are written again as one frame, in which the fields stand in
order and which is written again as it is; or they are all malformed. -/
theorem reencode_alike {members members' : List (List Nat × Tree)} {frame frame' : List UInt8}
    (h : (Tree.object members).SpelledIn frame) (h' : (Tree.object members').SpelledIn frame')
    (halike : Alike members members') (hdistinct : (Tree.object members).Distinct)
    (hplain : ∀ tree ∈ treesOf "data" members, tree.Plain)
    (hdepth : (Tree.object members).depth ≤ maxDepth) :
    (∃ reply, Tells members reply ∧ reencode frame = .ok reply.encode ∧
      reencode frame' = .ok reply.encode ∧ reencode reply.encode = .ok reply.encode ∧
      ListsInOrder members reply.encode) ∨
    ((∀ reply, ¬ Tells members reply) ∧
      (∃ reason, reencode frame = .error (.malformedResponse reason)) ∧
      ∃ reason, reencode frame' = .error (.malformedResponse reason)) := by
  have hreadable := readable_data hplain hdepth
  have hreadable' : ∀ tree ∈ treesOf "data" members', Readable tree :=
    (halike.forall_treesOf_iff Readable.reordered ⟨plain_null, Nat.zero_le _⟩ (by decide)).1 hreadable
  have hdecode := decode_object h hreadable
  have hdecode' : ∀ reply, decode frame' = .ok reply ↔ Tells members reply := by
    intro reply
    rw [decode_object h' hreadable', halike.tells_iff]
    intro name _ tree hmem
    obtain ⟨member, hmember, rfl⟩ := exists_of_mem_treesOf hmem
    exact hdistinct.member hmember
  by_cases htells : ∃ reply, Tells members reply
  · obtain ⟨reply, htells⟩ := htells
    refine .inl ⟨reply, htells, ?_, ?_, ?_, htells.listsInOrder hreadable⟩
    · rw [reencode, (hdecode reply).2 htells, Except.map]
    · rw [reencode, (hdecode' reply).2 htells, Except.map]
    · rw [reencode, htells.readBack hreadable, Except.map]
  · have hnone : ∀ reply, ¬ Tells members reply := not_exists.1 htells
    obtain ⟨reason, hreason⟩ := decode_error fun reply heq => hnone reply ((hdecode reply).1 heq)
    obtain ⟨reason', hreason'⟩ := decode_error fun reply heq => hnone reply ((hdecode' reply).1 heq)
    refine .inr ⟨hnone, ⟨reason, ?_⟩, reason', ?_⟩
    · rw [reencode, hreason, Except.map]
    · rw [reencode, hreason', Except.map]

/-- A success with members that nobody asks for, and data that is not in order. -/
def scrambled : List (List Nat × Tree) :=
  [(unitsOf "ok", .boolean true),
    (unitsOf "data", .object [(unitsOf "b", .number true 1 []), (unitsOf "a", .object [])]),
    (unitsOf "x", .string [0xD800])]

/-- The success in another order, and with an error that is `null`. -/
def rearranged : List (List Nat × Tree) :=
  [(unitsOf "data", .object [(unitsOf "a", .object []), (unitsOf "b", .number true 1 [])]),
    (unitsOf "error", .null), (unitsOf "ok", .boolean true)]

def scrambledFrame : List UInt8 :=
  Utf8.encode "\x7b\"ok\":true,\"data\":\x7b\"b\":-1,\"a\":\x7b\x7d\x7d,\"x\":\"\\ud800\"\x7d"

def rearrangedFrame : List UInt8 :=
  Utf8.encode "\x7b\"\\u0064ata\":\x7b\"a\":\x7b\x7d,\"b\":-1\x7d, \"error\":null,\"ok\":true\x7d\n"

theorem quoted_spelled (s : String) : UnitsWritten (unitsOf s) (Utf8.encodeChars (quoted s)) :=
  unitsWritten_of_stringWritten (quoted_written s)

theorem scrambled_spelled : (Tree.object scrambled).SpelledIn scrambledFrame := by
  have hnumber : Spelled (.number true 1 []) (0x2D :: (decimal 1 ++ [])) :=
    ⟨⟨[], [], .absent, .absent, rfl⟩, rfl⟩
  have hempty : Spelled (.object []) [0x7B, 0x7D] := ⟨[], Blanks.nil, rfl⟩
  have hhalf : Spelled (.string [0xD800]) [0x22, 0x5C, 0x75, 0x64, 0x38, 0x30, 0x30, 0x22] :=
    ⟨_, .unit (by rfl) .nil, rfl⟩
  have hdata : MembersSpelled [(unitsOf "b", .number true 1 []), (unitsOf "a", .object [])] true _ :=
    ⟨[], _, [], [], _, _, separates_nil, quoted_spelled "b", Blanks.nil, Blanks.nil, hnumber,
      ⟨[0x2C], _, [], [], _, [], separates_comma, quoted_spelled "a", Blanks.nil, Blanks.nil, hempty,
        Blanks.nil, rfl⟩, rfl⟩
  have hmembers : MembersSpelled scrambled true _ :=
    ⟨[], _, [], [], _, _, separates_nil, quoted_spelled "ok", Blanks.nil, Blanks.nil, rfl,
      ⟨[0x2C], _, [], [], _, _, separates_comma, quoted_spelled "data", Blanks.nil, Blanks.nil,
        ⟨_, hdata, rfl⟩,
        ⟨[0x2C], _, [], [], _, [], separates_comma, quoted_spelled "x", Blanks.nil, Blanks.nil, hhalf,
          Blanks.nil, rfl⟩, rfl⟩, rfl⟩
  exact ⟨[], _, [], Blanks.nil, Blanks.nil, ⟨_, hmembers, rfl⟩, by decide⟩

theorem rearranged_spelled : (Tree.object rearranged).SpelledIn rearrangedFrame := by
  have hnumber : Spelled (.number true 1 []) (0x2D :: (decimal 1 ++ [])) :=
    ⟨⟨[], [], .absent, .absent, rfl⟩, rfl⟩
  have hempty : Spelled (.object []) [0x7B, 0x7D] := ⟨[], Blanks.nil, rfl⟩
  have hname : UnitsWritten (unitsOf "data") (0x22 :: ([0x5C, 0x75, 0x30, 0x30, 0x36, 0x34] ++
      Utf8.encodeChars ("ata".toList.flatMap escape) ++ [0x22])) := by
    refine ⟨_, ?_, rfl⟩
    rw [show unitsOf "data" = 0x64 :: "ata".toList.flatMap codeUnits by decide]
    exact .unit (by rfl) (contentOf_of_charsWritten (chars_written "ata".toList))
  have hspace : Separates false [0x2C, 0x20] := ⟨[], [0x20], Blanks.nil, by simp [Blanks, isBlank], rfl⟩
  have hdata : MembersSpelled [(unitsOf "a", .object []), (unitsOf "b", .number true 1 [])] true _ :=
    ⟨[], _, [], [], _, _, separates_nil, quoted_spelled "a", Blanks.nil, Blanks.nil, hempty,
      ⟨[0x2C], _, [], [], _, [], separates_comma, quoted_spelled "b", Blanks.nil, Blanks.nil, hnumber,
        Blanks.nil, rfl⟩, rfl⟩
  have hmembers : MembersSpelled rearranged true _ :=
    ⟨[], _, [], [], _, _, separates_nil, hname, Blanks.nil, Blanks.nil, ⟨_, hdata, rfl⟩,
      ⟨[0x2C, 0x20], _, [], [], _, _, hspace, quoted_spelled "error", Blanks.nil, Blanks.nil, rfl,
        ⟨[0x2C], _, [], [], _, [], separates_comma, quoted_spelled "ok", Blanks.nil, Blanks.nil, rfl,
          Blanks.nil, rfl⟩, rfl⟩, rfl⟩
  exact ⟨[], _, [0x0A], Blanks.nil, by simp [Blanks, isBlank], ⟨_, hmembers, rfl⟩, by decide⟩

theorem alike_rearranged : Alike scrambled rearranged := by
  have hdata : Reordered (.object [(unitsOf "b", .number true 1 []), (unitsOf "a", .object [])])
      (.object [(unitsOf "a", .object []), (unitsOf "b", .number true 1 [])]) :=
    .perm (.swap _ _ _)
  have hreversed : Alike scrambled scrambled.reverse := .perm (List.reverse_perm scrambled).symm
  have hknown : Alike scrambled.reverse scrambled.reverse.tail := .symm (.other _ (by decide))
  have hordered := hknown.trans (.reordered hdata)
  have hfailed := hordered.trans (.null (by decide : "error" ∈ optionalNames) (by simp [treesOf]))
  exact hreversed.trans (hfailed.trans (.perm (.swap _ _ _)))

theorem tells_scrambled : Tells scrambled
    ⟨true, some (Dict.ofList [("b", .integer (-1)), ("a", .object [])]), none, none, none⟩ where
  names := by simp [scrambled]
  ok := by simp [scrambled, treesOf, met?, boolean?]
  data := by
    have hnumber : value? (.number true 1 []) = some (.integer (-1)) := by
      simp [value?, integer?, twoTo_63]
    have hempty : value? (.object []) = some (.object []) := by rfl
    simp [scrambled, treesOf, field?, met?, nullOr?, dict?, entriesBy?, hnumber, hempty]
  errors := by simp [scrambled, treesOf, field?, met?]
  error := by simp [scrambled, treesOf, field?, met?]
  detail := by simp [scrambled, treesOf, field?, met?]

/-- Both frames are written again as one, which is neither of them. -/
theorem reencode_scrambled :
    (Tree.object scrambled).SpelledIn scrambledFrame ∧
      (Tree.object rearranged).SpelledIn rearrangedFrame ∧ Alike scrambled rearranged ∧
      (Tree.object scrambled).Distinct ∧ (∀ tree ∈ treesOf "data" scrambled, tree.Plain) ∧
      ∃ frame, frame = Utf8.encode "\x7b\"ok\":true,\"data\":\x7b\"a\":\x7b\x7d,\"b\":-1\x7d\x7d" ∧
        reencode scrambledFrame = .ok frame ∧ reencode rearrangedFrame = .ok frame ∧
        reencode frame = .ok frame := by
  have hdistinct : (Tree.object scrambled).Distinct := by
    rintro members (_ | _ | ⟨hmem, hwithin⟩)
    · decide
    · simp only [scrambled, List.mem_cons, List.not_mem_nil, or_false] at hmem
      rcases hmem with rfl | rfl | rfl
      · cases hwithin
      · rcases hwithin with _ | _ | ⟨hmem, hwithin⟩
        · decide
        · simp only [List.mem_cons, List.not_mem_nil, or_false] at hmem
          rcases hmem with rfl | rfl
          · cases hwithin
          · rcases hwithin with _ | _ | ⟨hmem, hwithin⟩
            · decide
            · cases hmem
      · cases hwithin
  have hplain : ∀ tree ∈ treesOf "data" scrambled, tree.Plain := by
    intro tree hmem
    obtain rfl : tree = .object [(unitsOf "b", .number true 1 []), (unitsOf "a", .object [])] := by
      simpa [scrambled, treesOf] using hmem
    rintro negative whole tail (_ | _ | ⟨hmem, hwithin⟩)
    simp only [List.mem_cons, List.not_mem_nil, or_false] at hmem
    rcases hmem with rfl | rfl
    · cases hwithin
      simp [integer?, twoTo_63]
    · rcases hwithin with _ | _ | ⟨hmem, hwithin⟩
      cases hmem
  refine ⟨scrambled_spelled, rearranged_spelled, alike_rearranged, hdistinct, hplain, ?_⟩
  rcases reencode_alike scrambled_spelled rearranged_spelled alike_rearranged hdistinct hplain
    (by decide) with ⟨reply, htells, hframe, hframe', hagain, -⟩ | ⟨hnone, -⟩
  · obtain rfl := htells.unique tells_scrambled
    exact ⟨_, by decide, hframe, hframe', hagain⟩
  · exact absurd tells_scrambled (hnone _)

end StatQuery.Response
