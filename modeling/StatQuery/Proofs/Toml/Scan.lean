import StatQuery.Toml.Scan

/-!
# What a scan takes

The laws of the small scans on a text whose beginning is known. Each of them says what is taken and
what is left, so a larger scan is run by them one after the other (`bind_of_some`).
-/

namespace StatQuery.Toml.Scan

variable {α β : Type}

/-- A scan that goes on after a success goes on with what that one left. -/
theorem bind_of_some {scan : Scan α} {next : α → Scan β} {text rest : List Char} {x : α}
    (h : scan text = some (x, rest)) : (scan >>= next) text = next x rest := by
  change Option.bind (scan text) (fun result => next result.1 result.2) = next x rest
  rw [h]
  rfl

theorem peek_eq (text : List Char) : peek text = some (text.head?, text) := rfl

theorem peek_cons (c : Char) (rest : List Char) : peek (c :: rest) = some (some c, c :: rest) := rfl

theorem advance_cons (c : Char) (rest : List Char) : advance (c :: rest) = some ((), rest) := rfl

theorem remaining_eq (text : List Char) : remaining text = some (text.length, text) := rfl

theorem expect_cons (c : Char) (rest : List Char) : expect c (c :: rest) = some ((), rest) := by
  rw [expect, bind_of_some (peek_cons c rest), if_pos rfl, advance_cons]

/-! ### Runs -/

/-- The text does not begin with a character of the run. -/
def EndsRun (inRun : Char → Bool) (text : List Char) : Prop := ∀ c ∈ text.head?, inRun c = false

theorem endsRun_cons {inRun : Char → Bool} {c : Char} (h : inRun c = false) (rest : List Char) :
    EndsRun inRun (c :: rest) := by
  intro d hd
  cases hd
  exact h

variable {inRun : Char → Bool} {run rest : List Char}

theorem takeWhile_append (hrun : ∀ c ∈ run, inRun c = true) (hrest : EndsRun inRun rest) :
    (run ++ rest).takeWhile inRun = run := by
  rw [List.takeWhile_append_of_pos hrun]
  cases rest with
  | nil => exact List.append_nil run
  | cons c rest => rw [List.takeWhile_cons_of_neg (by simp [hrest c rfl]), List.append_nil]

theorem dropWhile_append (hrun : ∀ c ∈ run, inRun c = true) (hrest : EndsRun inRun rest) :
    (run ++ rest).dropWhile inRun = rest := by
  rw [List.dropWhile_append_of_pos hrun]
  cases rest with
  | nil => rfl
  | cons c rest => rw [List.dropWhile_cons_of_neg (by simp [hrest c rfl])]

theorem takeRun_append (hrun : ∀ c ∈ run, inRun c = true) (hrest : EndsRun inRun rest) :
    takeRun inRun (run ++ rest) = some (run, rest) := by
  rw [takeRun, takeWhile_append hrun hrest, dropWhile_append hrun hrest]

theorem discard_of_some {scan : Scan α} {text rest : List Char} {x : α}
    (h : scan text = some (x, rest)) : (discard scan : Scan PUnit) text = some (⟨⟩, rest) := by
  change Option.bind (scan text) (fun result => some (PUnit.unit, result.2)) = _
  rw [h]
  rfl

theorem skipBlanks_append {blanks rest : List Char} (hblanks : ∀ c ∈ blanks, isBlank c = true)
    (hrest : EndsRun isBlank rest) : skipBlanks (blanks ++ rest) = some ((), rest) :=
  discard_of_some (takeRun_append hblanks hrest)

/-- There is nothing to skip. -/
theorem skipBlanks_of_endsRun {text : List Char} (h : EndsRun isBlank text) :
    skipBlanks text = some ((), text) :=
  @skipBlanks_append [] text (by simp) h

/-! ### Ends of lines -/

theorem afterNewline?_eq_none {c : Char} (hnewline : c ≠ '\n') (hreturn : c ≠ '\r')
    (rest : List Char) : afterNewline? (c :: rest) = none := by
  rw [afterNewline?]
  · exact fun _ heq => hnewline (List.cons.inj heq).1
  · exact fun _ heq => hreturn (List.cons.inj heq).1

theorem lineEnd_newline (rest : List Char) : lineEnd ('\n' :: rest) = some ((), rest) := by
  rw [lineEnd, bind_of_some (skipBlanks_of_endsRun (endsRun_cons rfl rest))]
  rfl

/-- A comment reaches to the end of its line. -/
theorem lineEnd_comment {comment : List Char} (h : ∀ c ∈ comment, isPlain c = true)
    (rest : List Char) : lineEnd ('#' :: comment ++ '\n' :: rest) = some ((), rest) := by
  have hplain : ∀ c ∈ '#' :: comment, isPlain c = true := List.forall_mem_cons.2 ⟨rfl, h⟩
  have hcomment : skipComment ('#' :: comment ++ '\n' :: rest) = some ((), '\n' :: rest) := by
    rw [skipComment, List.cons_append, bind_of_some (peek_cons _ _), if_pos rfl]
    exact discard_of_some (takeRun_append hplain (endsRun_cons rfl rest))
  have hblanks : skipBlanks ('#' :: comment ++ '\n' :: rest) =
      some ((), '#' :: comment ++ '\n' :: rest) := skipBlanks_of_endsRun (endsRun_cons rfl _)
  rw [lineEnd, bind_of_some hblanks, bind_of_some hcomment]
  rfl

end StatQuery.Toml.Scan
