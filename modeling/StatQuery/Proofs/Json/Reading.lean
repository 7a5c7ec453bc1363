import Mathlib.Data.List.Forall2
import StatQuery.Json.Reader
import StatQuery.Json.Record
import StatQuery.Proofs.Json.Written

/-!
# Reading written values

`Reader.Reads reader value x` says that a reader makes `x` of every text of a value. It holds of the
reader of whole trees for every value that nests no deeper than the reader allows
(`valueWithin_reads`): the induction is on that depth, so arrays and objects have readers for their
parts at hand. The loops over items and members are run once for all readers of parts.
-/

namespace StatQuery.Json.Reader

variable {α β σ : Type}

/-- The reader makes `x` of every text of the value. -/
def Reads (reader : Reader α) (value : Json) (x : α) : Prop :=
  ∀ text, value.WrittenAs text → reader.Takes text x

/-- The reader makes `x` of a colon and any text of the value. -/
def ReadsMember (reader : Reader α) (value : Json) (x : α) : Prop :=
  ∀ behind text, Blanks behind → value.WrittenAs text →
    reader.Takes (0x3A :: (behind ++ text)) x

/-- The reader makes `x` of a colon and the text. -/
def TakesMember (reader : Reader α) (text : List UInt8) (x : α) : Prop :=
  ∀ behind, Blanks behind → reader.Takes (0x3A :: (behind ++ text)) x

/-- The reader fails on a colon and the text. -/
def RefusesMember (reader : Reader α) (text : List UInt8) : Prop :=
  ∀ behind, Blanks behind → reader.Refuses (0x3A :: (behind ++ text))

/-! ### Taking by the first byte -/

theorem takes_peekValue {next : UInt8 → Reader α} {b : UInt8} {tail : List UInt8} {x : α}
    (hb : isBlank b = false)
    (h : ∀ rest p, Delimited rest →
      next b ⟨b :: (tail ++ rest), p⟩ = .ok (x, ⟨rest, p.afterAll (b :: tail)⟩)) :
    Takes (peekValue >>= next) (b :: tail) x := by
  intro blanks rest p hblanks hrest
  rw [List.cons_append, bind_of_ok (peekValue_cons _ p hblanks hb), h rest _ hrest,
    Position.afterAll_append]

theorem takes_peekPastBlanks {next : Option UInt8 → Reader α} {b : UInt8} {tail : List UInt8}
    {x : α} (hb : isBlank b = false)
    (h : ∀ rest p, Delimited rest →
      next (some b) ⟨b :: (tail ++ rest), p⟩ = .ok (x, ⟨rest, p.afterAll (b :: tail)⟩)) :
    Takes (peekPastBlanks >>= next) (b :: tail) x := by
  intro blanks rest p hblanks hrest
  rw [List.cons_append, bind_of_ok (peekPastBlanks_cons _ p hblanks hb), h rest _ hrest,
    Position.afterAll_append]

/-- A reader goes on from the value of another. -/
theorem Takes.bind_pure {reader : Reader α} {text : List UInt8} {x : α} (h : reader.Takes text x)
    (f : α → β) : Takes (do return f (← reader)) text (f x) := by
  intro blanks rest p hblanks hrest
  rw [bind_of_ok (h blanks rest p hblanks hrest)]
  rfl

theorem Refuses.bind_pure {reader : Reader α} {text : List UInt8} (h : reader.Refuses text)
    (f : α → β) : Refuses (do return f (← reader)) text := by
  intro blanks rest p hblanks hrest
  obtain ⟨e, he⟩ := h blanks rest p hblanks hrest
  exact ⟨e, bind_of_error he⟩

theorem Reads.bind_pure {reader : Reader α} {value : Json} {x : α} (h : reader.Reads value x)
    (f : α → β) : Reads (do return f (← reader)) value (f x) :=
  fun text htext => (h text htext).bind_pure f

theorem colon_cons {blanks : List UInt8} (rest : List UInt8) (p : Position) (h : Blanks blanks) :
    colon ⟨blanks ++ 0x3A :: rest, p⟩ = .ok ((), ⟨rest, p.afterAll (blanks ++ [0x3A])⟩) := by
  rw [colon, bind_of_ok (peekPastBlanks_cons _ p h (by decide)), Position.afterAll_append]
  rfl

theorem colon_takes {reader : Reader α} {text : List UInt8} {x : α} (h : reader.Takes text x) :
    TakesMember (do colon; reader) text x := by
  intro behind hbehind blanks rest p hblanks hrest
  rw [List.cons_append, List.append_assoc, bind_of_ok (colon_cons _ p hblanks),
    h behind rest _ hbehind hrest]
  simp [Position.afterAll_append]

theorem colon_refuses {reader : Reader α} {text : List UInt8} (h : reader.Refuses text) :
    RefusesMember (do colon; reader) text := by
  intro behind hbehind blanks rest p hblanks hrest
  obtain ⟨e, he⟩ := h behind rest (p.afterAll (blanks ++ [0x3A])) hbehind hrest
  refine ⟨e, ?_⟩
  rw [List.cons_append, List.append_assoc, bind_of_ok (colon_cons _ p hblanks), he]

theorem colon_reads {reader : Reader α} {value : Json} {x : α} (h : reader.Reads value x) :
    ReadsMember (do colon; reader) value x :=
  fun behind text hbehind htext => colon_takes (h text htext) behind hbehind

/-! ### Items -/

theorem anotherItem_close {first : Bool} {blanks : List UInt8} (rest : List UInt8) (p : Position)
    (h : Blanks blanks) :
    anotherItem first ⟨blanks ++ 0x5D :: rest, p⟩ =
      .ok (false, ⟨0x5D :: rest, p.afterAll blanks⟩) := by
  rw [anotherItem, bind_of_ok (peekPastBlanks_cons rest p h (by decide))]
  rfl

theorem anotherItem_separates {first : Bool} {separator : List UInt8} {b : UInt8}
    (rest : List UInt8) (p : Position) (h : Separates first separator) (hb : isBlank b = false)
    (hclose : b ≠ 0x5D) :
    anotherItem first ⟨separator ++ b :: rest, p⟩ =
      .ok (true, ⟨b :: rest, p.afterAll separator⟩) := by
  cases first with
  | true =>
    rw [anotherItem, bind_of_ok (peekPastBlanks_cons rest p h hb)]
    generalize hhead : some b = head
    split
    · cases hhead
    · cases hhead
      exact absurd rfl hclose
    · rfl
  | false =>
    obtain ⟨before, behind, hbefore, hbehind, rfl⟩ : ∃ before behind, _ := h
    rw [List.append_assoc, List.cons_append, anotherItem,
      bind_of_ok (peekPastBlanks_cons _ p hbefore (by decide))]
    change (advance >>= fun _ => peekPastBlanks >>= _) _ = _
    rw [bind_of_ok (advance_cons _ _ _), bind_of_ok (peekPastBlanks_cons rest _ hbehind hb),
      Position.afterAll_append]
    generalize hhead : some b = head
    split
    · cases hhead
    · cases hhead
      exact absurd rfl hclose
    · rfl

theorem itemsUpTo_written {item : Reader α} {values : List Json} {xs : List α}
    (h : List.Forall₂ item.Reads values xs) {first : Bool} {body : List UInt8}
    (hbody : ItemsWritten values first body) (rest : List UInt8) (p : Position) {limit : Nat}
    (hlimit : values.length < limit) :
    itemsUpTo item limit first ⟨body ++ 0x5D :: rest, p⟩ =
      .ok (xs, ⟨rest, p.afterAll (body ++ [0x5D])⟩) := by
  induction h generalizing first body p limit with
  | nil =>
    obtain ⟨limit, rfl⟩ : ∃ left, limit = left + 1 := ⟨limit - 1, by omega⟩
    rw [itemsUpTo, bind_of_ok (anotherItem_close rest p hbody), Position.afterAll_append]
    rfl
  | cons hitem hitems ih =>
    obtain ⟨limit, rfl⟩ : ∃ left, limit = left + 1 := ⟨limit - 1, by omega⟩
    obtain ⟨separator, text, more, hseparator, htext, hmore, rfl⟩ := hbody
    obtain ⟨b, tail, rfl, hblank, hclose, -⟩ := htext.exists_cons
    -- Behind the item stands its separator or the bracket, so that a number ends there.
    have hread := hitem _ htext [] (more ++ 0x5D :: rest) (p.afterAll separator) Blanks.nil
      (hmore.delimited rest)
    simp only [List.nil_append, List.cons_append] at hread
    simp only [List.append_assoc, List.cons_append]
    rw [itemsUpTo, bind_of_ok (anotherItem_separates _ p hseparator hblank hclose)]
    simp only [if_true]
    rw [bind_of_ok hread, bind_of_ok (ih hmore _ (Nat.lt_of_succ_lt_succ hlimit))]
    simp only [Position.afterAll_append, Position.afterAll_cons]
    rfl

theorem items_written {item : Reader α} {values : List Json} {xs : List α}
    (h : List.Forall₂ item.Reads values xs) {body : List UInt8}
    (hbody : ItemsWritten values true body) (rest : List UInt8) (p : Position) :
    items item ⟨body ++ 0x5D :: rest, p⟩ = .ok (xs, ⟨rest, p.afterAll (body ++ [0x5D])⟩) := by
  -- Every item takes a byte or more, so the bound of the loop is never reached.
  have hlimit : values.length < (body ++ 0x5D :: rest).length + 1 := by
    have := hbody.length_le
    rw [List.length_append]
    omega
  rw [items, bind_of_ok (remaining_eq _ p), itemsUpTo_written h hbody rest p hlimit]

/-! ### Members -/

theorem nextName_close {first : Bool} {blanks : List UInt8} (rest : List UInt8) (p : Position)
    (h : Blanks blanks) :
    nextName first ⟨blanks ++ 0x7D :: rest, p⟩ = .ok (none, ⟨0x7D :: rest, p.afterAll blanks⟩) := by
  rw [nextName, bind_of_ok (peekPastBlanks_cons rest p h (by decide))]
  rfl

theorem nextName_separates {first : Bool} {separator nameText : List UInt8} {name : String}
    (rest : List UInt8) (p : Position) (h : Separates first separator)
    (hname : StringWritten name nameText) :
    nextName first ⟨separator ++ (nameText ++ rest), p⟩ =
      .ok (some name, ⟨rest, p.afterAll (separator ++ nameText)⟩) := by
  obtain ⟨content, hcontent, rfl⟩ := hname
  rw [Position.afterAll_append, List.cons_append, List.append_assoc, List.singleton_append]
  have hstring := stringBody_written hcontent rest
  cases first with
  | true =>
    rw [nextName, bind_of_ok (peekPastBlanks_cons _ p h (by decide))]
    change (advance >>= fun _ => stringBody >>= fun name => pure (some name)) _ = _
    rw [bind_of_ok (advance_cons _ _ _), bind_of_ok (hstring _)]
    rfl
  | false =>
    obtain ⟨before, behind, hbefore, hbehind, rfl⟩ : ∃ before behind, _ := h
    rw [List.append_assoc, List.cons_append, nextName,
      bind_of_ok (peekPastBlanks_cons _ p hbefore (by decide))]
    change (advance >>= fun _ => peekPastBlanks >>= _) _ = _
    rw [bind_of_ok (advance_cons _ _ _), bind_of_ok (peekPastBlanks_cons _ _ hbehind (by decide))]
    change (advance >>= fun _ => stringBody >>= fun name => pure (some name)) _ = _
    rw [bind_of_ok (advance_cons _ _ _), bind_of_ok (hstring _)]
    simp only [Position.afterAll_append, Position.afterAll_cons]
    rfl

/-- Some members lead a state to another, each of them read from its colon on. -/
inductive Folds (member : String → σ → Reader σ) : σ → List (String × Json) → σ → Prop
  | nil (state : σ) : Folds member state [] state
  | cons {state next last : σ} {name : String} {value : Json} {rest : List (String × Json)} :
      ReadsMember (member name state) value next → Folds member next rest last →
      Folds member state ((name, value) :: rest) last

theorem Folds.append {member : String → σ → Reader σ} {state next last : σ}
    {xs ys : List (String × Json)} (hx : Folds member state xs next)
    (hy : Folds member next ys last) : Folds member state (xs ++ ys) last := by
  induction hx with
  | nil => exact hy
  | cons hmember _ ih => exact .cons hmember (ih hy)

/-- Members, given by the texts of their values, lead a state to another. -/
inductive FoldsTexts (member : String → σ → Reader σ) : σ → List (String × List UInt8) → σ → Prop
  | nil (state : σ) : FoldsTexts member state [] state
  | cons {state next last : σ} {name : String} {text : List UInt8}
      {rest : List (String × List UInt8)} :
      TakesMember (member name state) text next → FoldsTexts member next rest last →
      FoldsTexts member state ((name, text) :: rest) last

/-- One of some members is refused in the state to which the members before it lead. -/
inductive BreaksAtText (member : String → σ → Reader σ) : σ → List (String × List UInt8) → Prop
  | here {state : σ} {name : String} {text : List UInt8} {rest : List (String × List UInt8)} :
      RefusesMember (member name state) text → BreaksAtText member state ((name, text) :: rest)
  | later {state next : σ} {name : String} {text : List UInt8}
      {rest : List (String × List UInt8)} :
      TakesMember (member name state) text next → BreaksAtText member next rest →
      BreaksAtText member state ((name, text) :: rest)

/-- A member that is taken leaves the loop before the rest. -/
theorem foldMembersUpTo_taken {member : String → σ → Reader σ} {state next : σ} {name : String}
    {first : Bool} {separator nameText before behind text tail : List UInt8}
    (hseparator : Separates first separator) (hname : StringWritten name nameText)
    (hbefore : Blanks before) (hbehind : Blanks behind)
    (hmember : TakesMember (member name state) text next) (htail : Delimited tail) (limit : Nat)
    (p : Position) :
    foldMembersUpTo member (limit + 1) first state
        ⟨separator ++ (nameText ++ (before ++ 0x3A :: (behind ++ (text ++ tail)))), p⟩ =
      foldMembersUpTo member limit false next
        ⟨tail, p.afterAll (separator ++ (nameText ++ (before ++ 0x3A :: (behind ++ text))))⟩ := by
  have hread := hmember behind hbehind before tail (p.afterAll (separator ++ nameText)) hbefore htail
  simp only [List.append_assoc, List.cons_append] at hread
  rw [foldMembersUpTo, bind_of_ok (nextName_separates _ p hseparator hname)]
  simp only
  rw [bind_of_ok hread]
  simp only [Position.afterAll_append]

theorem foldMembersUpTo_refused {member : String → σ → Reader σ} {state : σ} {name : String}
    {first : Bool} {separator nameText before behind text tail : List UInt8}
    (hseparator : Separates first separator) (hname : StringWritten name nameText)
    (hbefore : Blanks before) (hbehind : Blanks behind)
    (hmember : RefusesMember (member name state) text) (htail : Delimited tail) (limit : Nat)
    (p : Position) :
    ∃ e, foldMembersUpTo member (limit + 1) first state
      ⟨separator ++ (nameText ++ (before ++ 0x3A :: (behind ++ (text ++ tail)))), p⟩ = .error e := by
  obtain ⟨e, hread⟩ :=
    hmember behind hbehind before tail (p.afterAll (separator ++ nameText)) hbefore htail
  simp only [List.append_assoc, List.cons_append] at hread
  refine ⟨e, ?_⟩
  rw [foldMembersUpTo, bind_of_ok (nextName_separates _ p hseparator hname)]
  simp only
  rw [bind_of_error hread]

theorem foldMembersUpTo_texts {member : String → σ → Reader σ} {state last : σ}
    {texts : List (String × List UInt8)} (h : FoldsTexts member state texts last) {first : Bool}
    {body : List UInt8} (hbody : MembersText texts first body) (rest : List UInt8) (p : Position)
    {limit : Nat} (hlimit : texts.length < limit) :
    foldMembersUpTo member limit first state ⟨body ++ 0x7D :: rest, p⟩ =
      .ok (last, ⟨0x7D :: rest, p.afterAll body⟩) := by
  induction h generalizing first body p limit with
  | nil =>
    obtain ⟨limit, rfl⟩ : ∃ left, limit = left + 1 := ⟨limit - 1, by omega⟩
    rw [foldMembersUpTo, bind_of_ok (nextName_close rest p hbody)]
    rfl
  | cons hmember _ ih =>
    obtain ⟨limit, rfl⟩ : ∃ left, limit = left + 1 := ⟨limit - 1, by omega⟩
    obtain ⟨separator, nameText, before, behind, more, hseparator, hname, hbefore, hbehind, hmore,
      rfl⟩ := hbody
    have htail := hmore.delimited rest
    simp only [List.append_assoc, List.cons_append]
    rw [foldMembersUpTo_taken hseparator hname hbefore hbehind hmember htail,
      ih hmore _ (Nat.lt_of_succ_lt_succ hlimit)]
    simp only [Position.afterAll_append, Position.afterAll_cons]

theorem foldMembersUpTo_breaks {member : String → σ → Reader σ} {state : σ}
    {texts : List (String × List UInt8)} (h : BreaksAtText member state texts) {first : Bool}
    {body : List UInt8} (hbody : MembersText texts first body) (rest : List UInt8) (p : Position)
    {limit : Nat} (hlimit : texts.length < limit) :
    ∃ e, foldMembersUpTo member limit first state ⟨body ++ 0x7D :: rest, p⟩ = .error e := by
  induction h generalizing first body p limit with
  | here hmember =>
    obtain ⟨limit, rfl⟩ : ∃ left, limit = left + 1 := ⟨limit - 1, by omega⟩
    obtain ⟨separator, nameText, before, behind, more, hseparator, hname, hbefore, hbehind, hmore,
      rfl⟩ := hbody
    have htail := hmore.delimited rest
    simp only [List.append_assoc, List.cons_append]
    exact foldMembersUpTo_refused hseparator hname hbefore hbehind hmember htail limit p
  | later hmember _ ih =>
    obtain ⟨limit, rfl⟩ : ∃ left, limit = left + 1 := ⟨limit - 1, by omega⟩
    obtain ⟨separator, nameText, before, behind, more, hseparator, hname, hbefore, hbehind, hmore,
      rfl⟩ := hbody
    have htail := hmore.delimited rest
    simp only [List.append_assoc, List.cons_append]
    rw [foldMembersUpTo_taken hseparator hname hbefore hbehind hmember htail]
    exact ih hmore _ (Nat.lt_of_succ_lt_succ hlimit)

/-- The members of an object are folded up to its closing brace. -/
theorem foldMembers_texts {member : String → σ → Reader σ} {state last : σ}
    {texts : List (String × List UInt8)} (h : FoldsTexts member state texts last)
    {body : List UInt8} (hbody : MembersText texts true body) (rest : List UInt8) (p : Position) :
    foldMembers member state ⟨body ++ 0x7D :: rest, p⟩ =
      .ok (last, ⟨0x7D :: rest, p.afterAll body⟩) := by
  rw [foldMembers, bind_of_ok (remaining_eq _ p)]
  exact foldMembersUpTo_texts h hbody rest p (hbody.length_lt _)

theorem foldMembers_breaks {member : String → σ → Reader σ} {state : σ}
    {texts : List (String × List UInt8)} (h : BreaksAtText member state texts) {body : List UInt8}
    (hbody : MembersText texts true body) (rest : List UInt8) (p : Position) :
    ∃ e, foldMembers member state ⟨body ++ 0x7D :: rest, p⟩ = .error e := by
  rw [foldMembers, bind_of_ok (remaining_eq _ p)]
  exact foldMembersUpTo_breaks h hbody rest p (hbody.length_lt _)

/-- Members that lead a state to another do so by whichever texts they are written. -/
theorem Folds.exists_texts {member : String → σ → Reader σ} {state last : σ}
    {values : List (String × Json)} (h : Folds member state values last) {first : Bool}
    {body : List UInt8} (hbody : MembersWritten values first body) :
    ∃ texts, MembersText texts first body ∧ FoldsTexts member state texts last := by
  induction h generalizing first body with
  | nil state => exact ⟨[], hbody, .nil state⟩
  | @cons _ _ _ name _ _ hmember _ ih =>
    obtain ⟨separator, nameText, before, behind, text, more, hseparator, hname, hbefore, hbehind,
      htext, hmore, rfl⟩ := hbody
    obtain ⟨texts, hmembers, hfolds⟩ := ih hmore
    refine ⟨(name, text) :: texts, .cons hseparator hname hbefore hbehind hmembers, ?_⟩
    exact .cons (fun behind hbehind => hmember behind text hbehind htext) hfolds

theorem foldMembers_written {member : String → σ → Reader σ} {state last : σ}
    {values : List (String × Json)} (h : Folds member state values last) {body : List UInt8}
    (hbody : MembersWritten values true body) (rest : List UInt8) (p : Position) :
    foldMembers member state ⟨body ++ 0x7D :: rest, p⟩ =
      .ok (last, ⟨0x7D :: rest, p.afterAll body⟩) := by
  obtain ⟨texts, hmembers, hfolds⟩ := h.exists_texts hbody
  exact foldMembers_texts hfolds hmembers rest p

/-- A member and the entry that is read from it. -/
def ReadsEntry (reader : Reader α) (member : String × Json) (entry : String × α) : Prop :=
  member.1 = entry.1 ∧ reader.Reads member.2 entry.2

theorem folds_insert {reader : Reader α} {values : List (String × Json)}
    {entries : List (String × α)} (h : List.Forall₂ reader.ReadsEntry values entries)
    (dict : Dict α) :
    Folds (fun name dict => do
      colon
      return dict.insert name (← reader)) dict values
      (entries.foldl (fun dict entry => dict.insert entry.1 entry.2) dict) := by
  induction h generalizing dict with
  | nil => exact .nil dict
  | @cons member entry values entries hentry _ ih =>
    obtain ⟨name, value⟩ := member
    obtain ⟨key, x⟩ := entry
    obtain ⟨rfl, hread⟩ : name = key ∧ reader.Reads value x := hentry
    exact .cons (colon_reads (hread.bind_pure fun x => dict.insert name x)) (ih _)

/-- The entries of an object are read into a map, in which the last of a name counts. -/
theorem members_written {reader : Reader α} {values : List (String × Json)}
    {entries : List (String × α)} (h : List.Forall₂ reader.ReadsEntry values entries)
    {body : List UInt8} (hbody : MembersWritten values true body) (rest : List UInt8)
    (p : Position) :
    members reader ⟨body ++ 0x7D :: rest, p⟩ =
      .ok (entries.foldl (fun dict entry => dict.insert entry.1 entry.2) Dict.empty,
        ⟨rest, p.afterAll (body ++ [0x7D])⟩) := by
  rw [members, bind_of_ok (foldMembers_written (folds_insert h Dict.empty) hbody rest p),
    bind_of_ok (advance_cons _ rest _), Position.afterAll_append]
  rfl

end StatQuery.Json.Reader
