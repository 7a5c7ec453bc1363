import StatQuery.Proofs.Json.Meaning
import StatQuery.Proofs.Json.Refusal

/-!
# What readers make of trees

`Reader.Gives reader text outcome` says that a reader yields the outcome for a text wherever it stands,
or refuses it if there is none. The readers of fields and of values give what the tree of the text stands
for (`string_gives`, `boolean_gives`, `dict_gives`, `valueWithin_gives`), success and failure alike, so
that whatever is said of meanings of trees is said of the readers too.

The loops over items and members are run once for all readers of parts. They go along the tree, and what
they come to is a fold over it (`foldMembers?`).
-/

namespace StatQuery.Json

open Reader Json.Tree

/-- The first bytes of the texts of a tree. -/
def Tree.isHead : Tree → UInt8 → Bool
  | null, b => b = 0x6E
  | boolean _, b => b = 0x74 || b = 0x66
  | number _ _ _, b => b = 0x2D || isDigit b
  | string _, b => b = 0x22
  | array _, b => b = 0x5B
  | object _, b => b = 0x7B

theorem Tree.Spelled.exists_head {tree : Tree} {text : List UInt8} (h : tree.Spelled text) :
    ∃ b tail, text = b :: tail ∧ tree.isHead b = true := by
  cases tree with
  | null => exact ⟨_, _, h, rfl⟩
  | boolean b => cases b <;> exact ⟨_, _, h, rfl⟩
  | number negative whole tail =>
    obtain ⟨-, rfl⟩ := h
    cases negative with
    | true => exact ⟨_, _, rfl, rfl⟩
    | false =>
      obtain ⟨b, digits, hcons, -⟩ := exists_decimal_eq_cons whole
      have hdigit : isDigit b = true := isDigit_of_mem_decimal whole b (by simp [hcons])
      refine ⟨b, digits ++ tail, ?_, by simp [isHead, hdigit]⟩
      rw [hcons]
      rfl
  | string units =>
    obtain ⟨content, -, rfl⟩ := h
    exact ⟨_, _, rfl, rfl⟩
  | array items =>
    obtain ⟨body, -, rfl⟩ := h
    exact ⟨_, _, rfl, rfl⟩
  | object members =>
    obtain ⟨body, -, rfl⟩ := h
    exact ⟨_, _, rfl, rfl⟩

theorem Tree.isBlank_eq_false_of_isHead {tree : Tree} {b : UInt8} (h : tree.isHead b = true) :
    isBlank b = false := by
  cases tree <;> simp only [isHead, Bool.or_eq_true, decide_eq_true_eq] at h
  · subst h; decide
  · rcases h with rfl | rfl <;> decide
  · rcases h with rfl | hdigit
    · decide
    · exact isBlank_eq_false_of_isDigit hdigit
  · subst h; decide
  · subst h; decide
  · subst h; decide

/-- Units that are a text are written as that text. -/
theorem stringWritten_of_unitsWritten {units : List Nat} {text : List UInt8} {s : String}
    (h : UnitsWritten units text) (hs : text? units = some s) : StringWritten s text := by
  obtain ⟨content, hcontent, rfl⟩ := h
  obtain ⟨cs, hcs, rfl⟩ := Option.map_eq_some_iff.1 hs
  have hstands := (standsFor_chars? hcontent).1
  rw [hcs] at hstands
  exact ⟨content, by rwa [String.toList_ofList], rfl⟩

theorem contentOf_of_charsWritten {cs : List Char} {content : List UInt8}
    (h : CharsWritten cs content) : ContentOf (cs.flatMap codeUnits) content := by
  induction cs generalizing content with
  | nil =>
    obtain rfl : content = [] := h
    exact .nil
  | cons c cs ih =>
    obtain ⟨head, tail, hhead, htail, rfl⟩ := h
    have hrest := ih htail
    rw [List.flatMap_cons]
    cases hhead with
    | itself hc hquote hslash => exact .char hc hquote hslash hrest
    | @short b content hb =>
      have hscalar : IsScalar content.toNat := .inl (Nat.lt_trans content.toNat_lt (by decide))
      rw [codeUnits_ofNat hscalar]
      exact .short hb hrest
    | @unit _ _ _ _ code hword hwhole =>
      have hbound := hexWord?_lt hword
      have hscalar : IsScalar code := by
        simp only [IsScalar]
        omega
      rw [codeUnits_ofNat hscalar]
      exact .unit hword hrest
    | pair hhigh hlow h1 h2 h3 h4 =>
      have hunits := codeUnits_pairChar ⟨⟨h1, h2⟩, h3, h4⟩
      rw [pairChar] at hunits
      rw [hunits]
      exact .unit hhigh (.unit hlow hrest)

/-- A text is written as its units are. -/
theorem unitsWritten_of_stringWritten {s : String} {text : List UInt8} (h : StringWritten s text) :
    UnitsWritten (unitsOf s) text := by
  obtain ⟨content, hcontent, rfl⟩ := h
  exact ⟨content, contentOf_of_charsWritten hcontent, rfl⟩

/-- The text of a plain integer is that of the number it stands for. -/
theorem decimalInt_of_integer? {negative : Bool} {whole : Nat} {tail : List UInt8} {n : Int}
    (h : integer? negative whole tail = some n) :
    signText negative ++ (decimal whole ++ tail) = decimalInt n := by
  rw [integer?] at h
  split at h
  · cases h
  · next htail =>
    obtain rfl : tail = [] := by simpa using htail
    rw [List.append_nil]
    split at h
    · next hnegative =>
      subst hnegative
      split at h
      · next hbounds =>
        cases h
        obtain ⟨m, rfl⟩ := Nat.exists_eq_add_one.2 hbounds.1
        exact (decimalInt_negSucc m).symm
      · cases h
    · next hpositive =>
      obtain rfl : negative = false := by simpa using hpositive
      split at h
      · cases h
        rfl
      · cases h

namespace Reader

variable {α β σ : Type}

/-! ### Outcomes -/

/-- The reader yields the outcome and goes on from `c'`, or it fails if there is none. -/
def Ends (reader : Reader α) (c : Cursor) (outcome : Option α) (c' : Cursor) : Prop :=
  match outcome with
  | some x => reader c = .ok (x, c')
  | none => ∃ e, reader c = .error e

/-- The reader takes the text as the outcome, or refuses it if there is none. -/
def Gives (reader : Reader α) (text : List UInt8) (outcome : Option α) : Prop :=
  ∀ (blanks rest : List UInt8) (p : Position), Blanks blanks → Delimited rest →
    reader.Ends ⟨blanks ++ (text ++ rest), p⟩ outcome ⟨rest, p.afterAll (blanks ++ text)⟩

/-- The reader takes a colon and the text as the outcome, or refuses them. -/
def GivesMember (reader : Reader α) (text : List UInt8) (outcome : Option α) : Prop :=
  ∀ behind, Blanks behind → reader.Gives (0x3A :: (behind ++ text)) outcome

theorem Takes.gives {reader : Reader α} {text : List UInt8} {x : α} (h : reader.Takes text x) :
    reader.Gives text (some x) := h

theorem Refuses.gives {reader : Reader α} {text : List UInt8} (h : reader.Refuses text) :
    reader.Gives text none := h

theorem Gives.takes {reader : Reader α} {text : List UInt8} {x : α} (h : reader.Gives text (some x)) :
    reader.Takes text x := h

theorem Gives.refuses {reader : Reader α} {text : List UInt8} (h : reader.Gives text none) :
    reader.Refuses text := h

theorem Gives.ends {reader : Reader α} {text rest : List UInt8} {outcome : Option α}
    (h : reader.Gives text outcome) (hrest : Delimited rest) (p : Position) :
    reader.Ends ⟨text ++ rest, p⟩ outcome ⟨rest, p.afterAll text⟩ :=
  h [] rest p Blanks.nil hrest

/-- Readers that run alike end alike. -/
theorem Ends.of_eq {reader reader' : Reader α} {c d c' : Cursor} {outcome : Option α}
    (h : reader'.Ends d outcome c') (heq : reader c = reader' d) : reader.Ends c outcome c' := by
  cases outcome with
  | none =>
    obtain ⟨e, he⟩ := h
    exact ⟨e, heq.trans he⟩
  | some x => exact heq.trans h

theorem Ends.bind {reader : Reader α} {next : α → Reader β} {c c' c'' : Cursor} {outcome : Option α}
    {f : α → Option β} (h : reader.Ends c outcome c') (hnext : ∀ x, (next x).Ends c' (f x) c'') :
    Ends (reader >>= next) c (outcome.bind f) c'' := by
  cases outcome with
  | none =>
    obtain ⟨e, he⟩ := h
    exact ⟨e, bind_of_error he⟩
  | some x => exact (hnext x).of_eq (bind_of_ok h)

theorem Ends.map {reader : Reader α} {c c' : Cursor} {outcome : Option α}
    (h : reader.Ends c outcome c') (f : α → β) :
    Ends (do return f (← reader)) c (outcome.map f) c' := by
  cases outcome with
  | none =>
    obtain ⟨e, he⟩ := h
    exact ⟨e, bind_of_error he⟩
  | some x => exact bind_of_ok h

theorem Gives.map {reader : Reader α} {text : List UInt8} {outcome : Option α}
    (h : reader.Gives text outcome) (f : α → β) :
    Gives (do return f (← reader)) text (outcome.map f) :=
  fun blanks rest p hblanks hrest => (h blanks rest p hblanks hrest).map f

theorem gives_peekValue {next : UInt8 → Reader α} {b : UInt8} {tail : List UInt8}
    {outcome : Option α} (hb : isBlank b = false)
    (h : ∀ rest p, Delimited rest →
      (next b).Ends ⟨b :: (tail ++ rest), p⟩ outcome ⟨rest, p.afterAll (b :: tail)⟩) :
    Gives (peekValue >>= next) (b :: tail) outcome := by
  cases outcome with
  | none => exact refuses_peekValue hb h
  | some x => exact takes_peekValue hb h

theorem colon_gives {reader : Reader α} {text : List UInt8} {outcome : Option α}
    (h : reader.Gives text outcome) : GivesMember (do colon; reader) text outcome := by
  cases outcome with
  | none => exact colon_refuses h
  | some x => exact colon_takes h

/-! ### Strings -/

theorem stringBody_ends {units : List Nat} {content : List UInt8} (h : ContentOf units content)
    (rest : List UInt8) (p : Position) :
    stringBody.Ends ⟨content ++ 0x22 :: rest, p⟩ (text? units) ⟨rest, p.afterAll (content ++ [0x22])⟩ := by
  have hstands := (standsFor_chars? h).1
  rw [text?]
  cases hchars : chars? units with
  | none =>
    rw [hchars] at hstands
    obtain ⟨e, he⟩ := hstands ((content ++ 0x22 :: rest).length + 1) rest p
    refine ⟨e, ?_⟩
    rw [stringBody, bind_of_ok (remaining_eq _ p), bind_of_error he]
  | some cs =>
    rw [hchars] at hstands
    have hwritten : CharsWritten (String.ofList cs).toList content := by rwa [String.toList_ofList]
    exact stringBody_written hwritten rest p

/-- A string behind its opening quote, which the reader takes first. -/
theorem quoted_ends {units : List Nat} {content : List UInt8} (h : ContentOf units content)
    (rest : List UInt8) (p : Position) :
    Ends (do advance; stringBody) ⟨0x22 :: (content ++ [0x22] ++ rest), p⟩ (text? units)
      ⟨rest, p.afterAll (0x22 :: (content ++ [0x22]))⟩ := by
  rw [List.append_assoc, List.singleton_append]
  exact (stringBody_ends h rest (p.after 0x22)).of_eq (bind_of_ok (advance_cons _ _ p))

/-- A name that is no text makes the reader of names fail. -/
theorem nextName_fails {first : Bool} {separator nameText : List UInt8} {units : List Nat}
    (rest : List UInt8) (p : Position) (h : Separates first separator)
    (hname : UnitsWritten units nameText) (hnone : text? units = none) :
    ∃ e, nextName first ⟨separator ++ (nameText ++ rest), p⟩ = .error e := by
  obtain ⟨content, hcontent, rfl⟩ := hname
  have hquoted (p : Position) := (quoted_ends hcontent rest p).map some
  rw [hnone] at hquoted
  cases first with
  | true =>
    obtain ⟨e, he⟩ := hquoted (p.afterAll separator)
    refine ⟨e, ?_⟩
    rw [List.cons_append, nextName, bind_of_ok (peekPastBlanks_cons _ p h (by decide))]
    exact he
  | false =>
    obtain ⟨before, behind, hbefore, hbehind, rfl⟩ : ∃ before behind, _ := h
    obtain ⟨e, he⟩ := hquoted (((p.afterAll before).after 0x2C).afterAll behind)
    refine ⟨e, ?_⟩
    rw [List.append_assoc, List.cons_append, List.cons_append, nextName,
      bind_of_ok (peekPastBlanks_cons _ p hbefore (by decide))]
    change (advance >>= fun _ => peekPastBlanks >>= _) _ = _
    rw [bind_of_ok (advance_cons _ _ _), bind_of_ok (peekPastBlanks_cons _ _ hbehind (by decide))]
    exact he

/-! ### Loops -/

/-- The state to which members lead, if every name is a text and every step leads somewhere. -/
def foldMembers? (step : String → Tree → σ → Option σ) : List (List Nat × Tree) → σ → Option σ
  | [], state => some state
  | (name, tree) :: rest, state =>
    (text? name).bind fun name => (step name tree state).bind (foldMembers? step rest)

/-- The loop over members comes to the fold over them, if the reader of each member takes the step. -/
theorem foldMembersUpTo_spelled {member : String → σ → Reader σ} {step : String → Tree → σ → Option σ}
    {members : List (List Nat × Tree)}
    (h : ∀ entry ∈ members, ∀ name text state, text? entry.1 = some name → entry.2.Spelled text →
      (member name state).GivesMember text (step name entry.2 state))
    {first : Bool} {body : List UInt8} (hbody : MembersSpelled members first body) (rest : List UInt8)
    (p : Position) {limit : Nat} (hlimit : body.length < limit) (state : σ) :
    (foldMembersUpTo member limit first state).Ends ⟨body ++ 0x7D :: rest, p⟩
      (foldMembers? step members state) ⟨0x7D :: rest, p.afterAll body⟩ := by
  induction members generalizing first body p limit state with
  | nil =>
    obtain ⟨limit, rfl⟩ := Nat.exists_eq_add_one.2 (Nat.zero_lt_of_lt hlimit)
    exact bind_of_ok (nextName_close rest p hbody)
  | cons entry members ih =>
    obtain ⟨name, tree⟩ := entry
    obtain ⟨limit, rfl⟩ := Nat.exists_eq_add_one.2 (Nat.zero_lt_of_lt hlimit)
    obtain ⟨separator, nameText, before, behind, text, more, hseparator, hname, hbefore, hbehind, htext,
      hmore, rfl⟩ := hbody
    have htail := (MembersSpelled.isMembers members hmore).delimited rest
    simp only [List.length_append, List.length_cons] at hlimit
    simp only [List.append_assoc, List.cons_append]
    rw [foldMembers?]
    cases hs : text? name with
    | none =>
      obtain ⟨e, he⟩ := nextName_fails _ p hseparator hname hs
      refine ⟨e, ?_⟩
      rw [foldMembersUpTo, bind_of_error he]
    | some s =>
      have hwritten := stringWritten_of_unitsWritten hname hs
      have hstep := h (name, tree) List.mem_cons_self s text state hs htext
      rw [Option.bind_some]
      cases hnext : step s tree state with
      | none =>
        rw [hnext] at hstep
        exact foldMembersUpTo_refused hseparator hwritten hbefore hbehind hstep htail limit p
      | some next =>
        rw [hnext] at hstep
        have hrest := ih (fun entry hmem => h entry (List.mem_cons_of_mem _ hmem)) hmore
          (p.afterAll (separator ++ (nameText ++ (before ++ 0x3A :: (behind ++ text)))))
          (show more.length < limit by omega) next
        simp only [Position.afterAll_append, Position.afterAll_cons] at hrest ⊢
        refine hrest.of_eq ?_
        rw [foldMembersUpTo_taken hseparator hwritten hbefore hbehind hstep htail]
        simp only [Position.afterAll_append, Position.afterAll_cons]

theorem foldMembers_spelled {member : String → σ → Reader σ} {step : String → Tree → σ → Option σ}
    {members : List (List Nat × Tree)}
    (h : ∀ entry ∈ members, ∀ name text state, text? entry.1 = some name → entry.2.Spelled text →
      (member name state).GivesMember text (step name entry.2 state))
    {body : List UInt8} (hbody : MembersSpelled members true body) (rest : List UInt8) (p : Position)
    (state : σ) :
    (foldMembers member state).Ends ⟨body ++ 0x7D :: rest, p⟩ (foldMembers? step members state)
      ⟨0x7D :: rest, p.afterAll body⟩ := by
  have hlimit : body.length < (body ++ 0x7D :: rest).length + 1 := by
    rw [List.length_append]
    omega
  exact (foldMembersUpTo_spelled h hbody rest p hlimit state).of_eq (bind_of_ok (remaining_eq _ p))

/-- The loop over items comes to their values, if the reader of items gives the value of each. -/
theorem itemsUpTo_spelled {item : Reader Json} {items : List Tree}
    (h : ∀ tree ∈ items, ∀ text, tree.Spelled text → item.Gives text tree.value?) {first : Bool}
    {body : List UInt8} (hbody : ItemsSpelled items first body) (rest : List UInt8) (p : Position)
    {limit : Nat} (hlimit : body.length < limit) :
    (itemsUpTo item limit first).Ends ⟨body ++ 0x5D :: rest, p⟩ (values? items)
      ⟨rest, p.afterAll (body ++ [0x5D])⟩ := by
  induction items generalizing first body p limit with
  | nil =>
    obtain ⟨limit, rfl⟩ := Nat.exists_eq_add_one.2 (Nat.zero_lt_of_lt hlimit)
    rw [Position.afterAll_append]
    exact bind_of_ok (anotherItem_close rest p hbody)
  | cons tree items ih =>
    obtain ⟨limit, rfl⟩ := Nat.exists_eq_add_one.2 (Nat.zero_lt_of_lt hlimit)
    obtain ⟨separator, text, more, hseparator, htext, hmore, rfl⟩ := hbody
    have htail := (ItemsSpelled.isItems items hmore).delimited rest
    have hisText := Spelled.isText tree htext
    have hlength := hisText.length_pos
    simp only [List.length_append] at hlimit
    have hitem := (h tree List.mem_cons_self text htext).ends htail (p.afterAll separator)
    have hrest := ih (fun tree hmem => h tree (List.mem_cons_of_mem _ hmem)) hmore
      ((p.afterAll separator).afterAll text) (show more.length < limit by omega)
    have hboth := hitem.bind fun x => hrest.map (x :: ·)
    rw [values?]
    simp only [List.append_assoc, Position.afterAll_append] at hboth ⊢
    refine hboth.of_eq ?_
    rw [itemsUpTo, bind_of_ok (Record.anotherItem_text _ p hseparator hisText)]
    rfl

/-! ### Readers of parts -/

/-- Entries are put into a map one after the other. -/
theorem foldMembers?_insert (f : Tree → Option α) (members : List (List Nat × Tree)) (dict : Dict α) :
    foldMembers? (fun name tree dict => (f tree).map (dict.insert name)) members dict =
      (entriesBy? f members).map fun entries =>
        entries.foldl (fun dict entry => dict.insert entry.1 entry.2) dict := by
  induction members generalizing dict with
  | nil => rfl
  | cons member members ih =>
    obtain ⟨name, tree⟩ := member
    rw [foldMembers?, entriesBy?]
    cases text? name with
    | none => rfl
    | some name =>
      cases f tree with
      | none => rfl
      | some x =>
        simp only [Option.bind_some, Option.map_some, Option.map_map, ih]
        rfl

theorem members_spelled {reader : Reader α} {f : Tree → Option α} {members : List (List Nat × Tree)}
    (h : ∀ entry ∈ members, ∀ text, entry.2.Spelled text → reader.Gives text (f entry.2))
    {body : List UInt8} (hbody : MembersSpelled members true body) (rest : List UInt8) (p : Position) :
    (Reader.members reader).Ends ⟨body ++ 0x7D :: rest, p⟩ (dict? f (.object members))
      ⟨rest, p.afterAll (body ++ [0x7D])⟩ := by
  have hfold : (foldMembers (fun name dict => do colon; return dict.insert name (← reader))
      Dict.empty).Ends ⟨body ++ 0x7D :: rest, p⟩
      (foldMembers? (fun name tree dict => (f tree).map (dict.insert name)) members Dict.empty)
      ⟨0x7D :: rest, p.afterAll body⟩ := by
    apply foldMembers_spelled ?_ hbody
    intro entry hmem name text dict _ htext
    exact colon_gives ((h entry hmem text htext).map (dict.insert name))
  rw [foldMembers?_insert] at hfold
  have hdict : dict? f (.object members) = ((entriesBy? f members).map fun entries =>
      entries.foldl (fun dict entry => dict.insert entry.1 entry.2) Dict.empty).bind some := by
    rw [Option.bind_fun_some, dict?]
    exact congrArg (Option.map · (entriesBy? f members)) (funext Dict.ofList_eq_foldl)
  rw [hdict, Position.afterAll_append]
  exact hfold.bind fun dict => bind_of_ok (advance_cons 0x7D rest _)

/-- A tree of another kind than the reader asks for begins with another byte. -/
theorem refuses_of_isHead {next : UInt8 → Reader α} {tree : Tree} {text : List UInt8}
    (htext : tree.Spelled text) (h : ∀ b, tree.isHead b = true → Fails (next b)) :
    Gives (peekValue >>= next) text none := by
  obtain ⟨b, tail, rfl, hhead⟩ := htext.exists_head
  exact refuses_peekValue (isBlank_eq_false_of_isHead hhead) fun rest p _ => h b hhead _

theorem string_gives {tree : Tree} {text : List UInt8} (htext : tree.Spelled text) :
    Reader.text.Gives text tree.string? := by
  cases tree with
  | string units =>
    obtain ⟨content, hcontent, rfl⟩ := htext
    exact gives_peekValue (by decide) fun rest p _ => quoted_ends hcontent rest p
  | _ =>
    refine refuses_of_isHead htext fun b hhead => ?_
    split
    · simp [isHead, isDigit] at hhead
    · exact fails_wrongKind _

theorem boolean_gives {tree : Tree} {text : List UInt8} (htext : tree.Spelled text) :
    flag.Gives text tree.boolean? := by
  cases tree with
  | boolean b =>
    have hwritten : (Json.boolean b).WrittenAs text := by cases b <;> exact htext
    exact (flag_reads b text hwritten).gives
  | _ =>
    refine refuses_of_isHead htext fun b hhead => ?_
    split
    · simp [isHead, isDigit] at hhead
    · simp [isHead, isDigit] at hhead
    · exact fails_wrongKind _

theorem dict_gives {reader : Reader α} {f : Tree → Option α} {tree : Tree} {text : List UInt8}
    (htext : tree.Spelled text)
    (h : ∀ members, tree = .object members → ∀ entry ∈ members, ∀ text, entry.2.Spelled text →
      reader.Gives text (f entry.2)) :
    reader.dict.Gives text (dict? f tree) := by
  cases tree with
  | object members =>
    obtain ⟨body, hbody, rfl⟩ := htext
    refine gives_peekValue (by decide) fun rest p _ => ?_
    rw [List.append_assoc, List.singleton_append]
    exact (members_spelled (h members rfl) hbody rest (p.after 0x7B)).of_eq
      (bind_of_ok (advance_cons _ _ p))
  | _ =>
    refine refuses_of_isHead htext fun b hhead => ?_
    split
    · simp [isHead, isDigit] at hhead
    · exact fails_wrongKind _

/-! ### Whole values -/

/-- A value is given if its parts are; a bracket needs a reader for them. -/
theorem valueWith_gives {nested : Option (Reader Json)} {tree : Tree} {text : List UInt8}
    (htext : tree.Spelled text) (hplain : tree.Plain)
    (hitems : ∀ items, tree = .array items → ∃ value, nested = some value ∧
      ∀ item ∈ items, ∀ text, item.Spelled text → value.Gives text item.value?)
    (hmembers : ∀ members, tree = .object members → ∃ value, nested = some value ∧
      ∀ member ∈ members, ∀ text, member.2.Spelled text → value.Gives text member.2.value?) :
    (valueWith nested).Gives text tree.value? := by
  cases tree with
  | null => exact (valueWith_null text htext).gives
  | boolean b =>
    have hwritten : (Json.boolean b).WrittenAs text := by cases b <;> exact htext
    exact (valueWith_boolean b text hwritten).gives
  | number negative whole tail =>
    obtain ⟨n, hn⟩ := Option.isSome_iff_exists.1 (hplain negative whole tail (.self _))
    have hwritten : (Json.integer n).WrittenAs text :=
      ⟨fits_of_integer? hn, htext.2.trans (decimalInt_of_integer? hn)⟩
    rw [value?, hn]
    exact (valueWith_integer n text hwritten).gives
  | string units =>
    obtain ⟨content, hcontent, rfl⟩ := htext
    refine gives_peekValue (by decide) fun rest p _ => ?_
    exact ((quoted_ends hcontent rest p).map Json.string)
  | array items =>
    obtain ⟨value, rfl, hvalue⟩ := hitems items rfl
    obtain ⟨body, hbody, rfl⟩ := htext
    refine gives_peekValue (by decide) fun rest p _ => ?_
    have hlimit : body.length < (body ++ 0x5D :: rest).length + 1 := by
      rw [List.length_append]
      omega
    have hloop := itemsUpTo_spelled hvalue hbody rest (p.after 0x5B) hlimit
    rw [List.append_assoc, List.singleton_append]
    refine (hloop.map Json.array).of_eq ?_
    exact bind_of_ok (advance_cons _ _ p)
  | object members =>
    obtain ⟨value, rfl, hvalue⟩ := hmembers members rfl
    obtain ⟨body, hbody, rfl⟩ := htext
    refine gives_peekValue (by decide) fun rest p _ => ?_
    rw [List.append_assoc, List.singleton_append, value?_object]
    refine ((members_spelled hvalue hbody rest (p.after 0x7B)).map Json.ofDict).of_eq ?_
    exact bind_of_ok (advance_cons _ _ p)

/-- A tree of plain integers that nests no deeper than is allowed gives its value. -/
theorem valueWithin_gives {depth : Nat} {tree : Tree} (hplain : tree.Plain) (hdepth : tree.depth ≤ depth)
    {text : List UInt8} (htext : tree.Spelled text) : (valueWithin depth).Gives text tree.value? := by
  induction depth generalizing tree text with
  | zero =>
    apply valueWith_gives htext hplain
    · rintro items rfl
      exact absurd (Tree.depth_array_le_iff.1 hdepth).1 (Nat.lt_irrefl 0)
    · rintro members rfl
      exact absurd (Tree.depth_object_le_iff.1 hdepth).1 (Nat.lt_irrefl 0)
  | succ depth ih =>
    apply valueWith_gives htext hplain
    · rintro items rfl
      have hitems := (Tree.depth_array_le_iff.1 hdepth).2
      exact ⟨_, rfl, fun item hmem text hitem => ih (hplain.item hmem) (hitems item hmem) hitem⟩
    · rintro members rfl
      have hmembers := (Tree.depth_object_le_iff.1 hdepth).2
      exact ⟨_, rfl, fun member hmem text hmember =>
        ih (hplain.member hmem) (hmembers member hmem) hmember⟩

theorem optional_gives {reader : Reader α} {f : Tree → Option α} {tree : Tree} {text : List UInt8}
    (htext : tree.Spelled text) (h : reader.Gives text (f tree)) :
    reader.optional.Gives text (nullOr? f tree) := by
  by_cases hnull : tree = .null
  · subst hnull
    obtain rfl : text = nullText := htext
    exact optional_null.gives
  · have hne : text ≠ nullText := by
      rintro rfl
      obtain ⟨b, tail, hcons, hhead⟩ := htext.exists_head
      obtain rfl : 0x6E = b := (List.cons.inj hcons).1
      cases tree with
      | null => exact hnull rfl
      | _ => simp [isHead, isDigit] at hhead
    intro blanks rest p hblanks hrest
    have hread := (h.ends hrest (p.afterAll blanks)).map some
    rw [nullOr?_of_ne_null hnull, Position.afterAll_append]
    exact hread.of_eq (optional_of_ne_null (Spelled.isText tree htext) hne rest p hblanks)

end Reader

/-! ### Records -/

namespace Record

variable {α β σ : Type} {record : Record σ α}

/-- The record that a draft stands for, if it has all that is required. -/
def finish? (record : Record σ α) (draft : σ) : Option α :=
  match record.fields.find? fun field => field.required && !field.isPresent draft with
  | some _ => none
  | none => some (record.build draft)

/-- A field is read into the draft, unless it was met before. -/
theorem readMember_gives {name : String} {field : Field σ} {draft : σ} {reader : Reader β}
    {put : β → σ} {text : List UInt8} {outcome : Option β} {next : Option σ}
    (hfield : record.fields.find? (·.name = name) = some field)
    (hread : field.read draft = (do return put (← reader))) (h : reader.Gives text outcome)
    (hnext : next = if field.isPresent draft then none else outcome.map put) :
    (record.readMember name draft).GivesMember text next := by
  rw [hnext]
  by_cases hpresent : field.isPresent draft = true
  · rw [if_pos hpresent]
    exact readMember_present hfield hpresent text
  · rw [if_neg hpresent, readMember_of_new hfield (by simpa using hpresent), hread]
    exact colon_gives (h.map put)

/-- An object gives what the draft after its last member stands for. -/
theorem read_spelled {step : String → Tree → σ → Option σ} {members : List (List Nat × Tree)}
    (h : ∀ entry ∈ members, ∀ name text draft, text? entry.1 = some name → entry.2.Spelled text →
      (record.readMember name draft).GivesMember text (step name entry.2 draft))
    {text : List UInt8} (htext : (Tree.object members).Spelled text) :
    record.read.Gives text ((foldMembers? step members record.draft).bind record.finish?) := by
  obtain ⟨body, hbody, rfl⟩ := htext
  refine gives_peekValue (by decide) fun rest p _ => ?_
  have hclose (draft : σ) : Ends (do
      advance
      match record.fields.find? fun field => field.required && !field.isPresent draft with
      | some field => failHere (.mismatch (.missing field.name))
      | none => return record.build draft)
      ⟨0x7D :: rest, (p.after 0x7B).afterAll body⟩ (record.finish? draft)
      ⟨rest, ((p.after 0x7B).afterAll body).after 0x7D⟩ := by
    rw [finish?]
    cases record.fields.find? fun field => field.required && !field.isPresent draft with
    | none => exact bind_of_ok (advance_cons 0x7D rest _)
    | some field => exact ⟨_, bind_of_ok (advance_cons 0x7D rest _)⟩
  have hread := (foldMembers_spelled h hbody rest (p.after 0x7B) record.draft).bind hclose
  rw [List.append_assoc, List.singleton_append, Position.afterAll_cons, Position.afterAll_append]
  exact hread.of_eq (bind_of_ok (advance_cons 0x7B _ p))

end Record

end StatQuery.Json
