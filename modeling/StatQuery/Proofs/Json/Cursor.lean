import StatQuery.Json.Cursor

/-!
# What a reader takes

`Reader.Takes reader text x` says that a reader turns a text, with any blanks before it, into `x` and
stops right behind the text. The rest must be `Delimited`, since a number ends only where something
else begins. The laws below run the small readers on a known rest; every reader of values is run by
them, one `bind` after the other.
-/

namespace StatQuery.Json.Reader

variable {α β : Type}

/-- A reader that goes on after a success goes on from where that one stopped. -/
theorem bind_of_ok {reader : Reader α} {next : α → Reader β} {c c' : Cursor} {x : α}
    (h : reader c = .ok (x, c')) : (reader >>= next) c = next x c' := by
  change Except.bind (reader c) (fun result => next result.1 result.2) = next x c'
  rw [h]
  rfl

theorem bind_of_error {reader : Reader α} {next : α → Reader β} {c : Cursor} {e : ReadError}
    (h : reader c = .error e) : (reader >>= next) c = .error e := by
  change Except.bind (reader c) (fun result => next result.1 result.2) = .error e
  rw [h]
  rfl

theorem peek_eq (rest : List UInt8) (p : Position) :
    peek ⟨rest, p⟩ = .ok (rest.head?, ⟨rest, p⟩) := rfl

theorem advance_cons (b : UInt8) (rest : List UInt8) (p : Position) :
    advance ⟨b :: rest, p⟩ = .ok ((), ⟨rest, p.after b⟩) := rfl

theorem remaining_eq (rest : List UInt8) (p : Position) :
    remaining ⟨rest, p⟩ = .ok (rest.length, ⟨rest, p⟩) := rfl

/-- The rest does not begin with a byte of the run. -/
def EndsRun (inRun : UInt8 → Bool) (rest : List UInt8) : Prop := ∀ b ∈ rest.head?, inRun b = false

theorem takeWhile_run {inRun : UInt8 → Bool} {run rest : List UInt8}
    (hrun : ∀ b ∈ run, inRun b = true) (hrest : EndsRun inRun rest) :
    (run ++ rest).takeWhile inRun = run ∧ (run ++ rest).dropWhile inRun = rest := by
  have hnil : rest.takeWhile inRun = [] ∧ rest.dropWhile inRun = rest := by
    cases rest with
    | nil => exact ⟨rfl, rfl⟩
    | cons b rest => simp [hrest b (by simp)]
  rw [List.takeWhile_append_of_pos hrun, List.dropWhile_append_of_pos hrun, hnil.1, hnil.2,
    List.append_nil]
  exact ⟨rfl, rfl⟩

theorem takeRun_run {inRun : UInt8 → Bool} {run rest : List UInt8} (p : Position)
    (hrun : ∀ b ∈ run, inRun b = true) (hrest : EndsRun inRun rest) :
    takeRun inRun ⟨run ++ rest, p⟩ = .ok (run, ⟨rest, p.afterAll run⟩) := by
  obtain ⟨htake, hdrop⟩ := takeWhile_run hrun hrest
  simp only [takeRun, htake, hdrop]

/-! ### Blanks -/

/-- Nothing but blanks. -/
def Blanks (text : List UInt8) : Prop := ∀ b ∈ text, isBlank b = true

theorem Blanks.nil : Blanks [] := by simp [Blanks]

theorem skipBlanks_blanks {blanks rest : List UInt8} (p : Position) (hb : Blanks blanks)
    (hrest : EndsRun isBlank rest) :
    skipBlanks ⟨blanks ++ rest, p⟩ = .ok ((), ⟨rest, p.afterAll blanks⟩) := by
  change Except.bind (takeRun isBlank _) (fun result => Except.ok ((), result.2)) = _
  rw [takeRun_run p hb hrest]
  rfl

theorem peekPastBlanks_blanks {blanks rest : List UInt8} (p : Position) (hb : Blanks blanks)
    (hrest : EndsRun isBlank rest) :
    peekPastBlanks ⟨blanks ++ rest, p⟩ = .ok (rest.head?, ⟨rest, p.afterAll blanks⟩) := by
  rw [peekPastBlanks, bind_of_ok (skipBlanks_blanks p hb hrest), peek_eq]

theorem peekPastBlanks_cons {blanks : List UInt8} {b : UInt8} (rest : List UInt8) (p : Position)
    (hb : Blanks blanks) (hne : isBlank b = false) :
    peekPastBlanks ⟨blanks ++ b :: rest, p⟩ = .ok (some b, ⟨b :: rest, p.afterAll blanks⟩) :=
  peekPastBlanks_blanks p hb (by simpa [EndsRun] using hne)

theorem peekValue_cons {blanks : List UInt8} {b : UInt8} (rest : List UInt8) (p : Position)
    (hb : Blanks blanks) (hne : isBlank b = false) :
    peekValue ⟨blanks ++ b :: rest, p⟩ = .ok (b, ⟨b :: rest, p.afterAll blanks⟩) := by
  rw [peekValue, bind_of_ok (peekPastBlanks_cons rest p hb hne)]
  rfl

/-! ### Texts that are taken as a whole -/

/-- The rest does not go on with a number. -/
def Delimited (rest : List UInt8) : Prop :=
  ∀ b ∈ rest.head?, isDigit b = false ∧ b ≠ 0x2E ∧ b ≠ 0x65 ∧ b ≠ 0x45

theorem Delimited.nil : Delimited [] := by simp [Delimited]

theorem delimited_cons {b : UInt8} (rest : List UInt8)
    (h : isDigit b = false ∧ b ≠ 0x2E ∧ b ≠ 0x65 ∧ b ≠ 0x45) : Delimited (b :: rest) := by
  simpa [Delimited] using h

theorem isDigit_eq_false_of_isBlank {b : UInt8} (h : isBlank b = true) :
    isDigit b = false ∧ b ≠ 0x2E ∧ b ≠ 0x65 ∧ b ≠ 0x45 := by
  simp only [isBlank, Bool.or_eq_true, decide_eq_true_eq] at h
  rcases h with ((rfl | rfl) | rfl) | rfl <;> decide

theorem isBlank_eq_false_of_isDigit {b : UInt8} (h : isDigit b = true) : isBlank b = false := by
  cases hblank : isBlank b with
  | false => rfl
  | true => simp [(isDigit_eq_false_of_isBlank hblank).1] at h

theorem Delimited.blanks_append {blanks rest : List UInt8} (hb : Blanks blanks)
    (hrest : Delimited rest) : Delimited (blanks ++ rest) := by
  cases blanks with
  | nil => exact hrest
  | cons b blanks => exact delimited_cons _ (isDigit_eq_false_of_isBlank (hb b (by simp)))

/-- The reader turns the text, blanks before it or not, into `x`, and takes no byte of the rest. -/
def Takes (reader : Reader α) (text : List UInt8) (x : α) : Prop :=
  ∀ (blanks rest : List UInt8) (p : Position), Blanks blanks → Delimited rest →
    reader ⟨blanks ++ (text ++ rest), p⟩ = .ok (x, ⟨rest, p.afterAll (blanks ++ text)⟩)

/-- The reader fails on the text, blanks before it or not. -/
def Refuses (reader : Reader α) (text : List UInt8) : Prop :=
  ∀ (blanks rest : List UInt8) (p : Position), Blanks blanks → Delimited rest →
    ∃ e, reader ⟨blanks ++ (text ++ rest), p⟩ = .error e

/-- A text stands for one thing at most. -/
theorem Takes.unique {reader : Reader α} {text : List UInt8} {x y : α} (hx : reader.Takes text x)
    (hy : reader.Takes text y) : x = y := by
  have hreadx := hx [] [] Position.start Blanks.nil Delimited.nil
  have hready := hy [] [] Position.start Blanks.nil Delimited.nil
  rw [hreadx] at hready
  exact (Prod.mk.inj (Except.ok.inj hready)).1

/-- A text taken up to its last blank is read as a whole. -/
theorem run_of_takes {reader : Reader α} {before text behind : List UInt8} {x : α}
    (h : reader.Takes text x) (hbefore : Blanks before) (hbehind : Blanks behind) :
    reader.run (before ++ (text ++ behind)) = .ok x := by
  have hrest : Delimited behind := by
    simpa using Delimited.blanks_append hbehind Delimited.nil
  have hread := h before behind Position.start hbefore hrest
  have hends : EndsRun isBlank [] := by simp [EndsRun]
  have hend := peekPastBlanks_blanks (Position.start.afterAll (before ++ text)) hbehind hends
  rw [List.append_nil] at hend
  rw [run, StateT.run', Cursor.start, bind_of_ok hread, bind_of_ok hend]
  rfl

theorem run_of_refuses {reader : Reader α} {before text behind : List UInt8}
    (h : reader.Refuses text) (hbefore : Blanks before) (hbehind : Blanks behind) :
    ∃ e, reader.run (before ++ (text ++ behind)) = .error e := by
  have hrest : Delimited behind := by
    simpa using Delimited.blanks_append hbehind Delimited.nil
  obtain ⟨e, hread⟩ := h before behind Position.start hbefore hrest
  refine ⟨e, ?_⟩
  rw [run, StateT.run', Cursor.start, bind_of_error hread]
  rfl

end StatQuery.Json.Reader
