import StatQuery.Proofs.Toml.Scan
import StatQuery.Toml.Text
import StatQuery.Toml.Writer

/-!
# Strings read back

`CharSpelled` lists the ways in which a character may stand inside a string, `LineSpelled` and
`LinesSpelled` those of a whole content, and whatever is spelled so is read (`lineContent_spelled`,
`linesContent_spelled`). On several lines the reader takes a run of marks at once while the spelling
has them one by one, so the induction there keeps the marks that stand just before. Every form that a
text is written in spells it, hence the string reads back as that text (`string_written`).
-/

namespace StatQuery.Toml

open Scan Writer

/-- The text stands for the character inside a string; it takes no mark for itself. -/
inductive CharSpelled (mark : Char) (escapes : Bool) : Char → List Char → Prop
  | raw {c : Char} : isPlain c = true → c ≠ mark → (escapes = true → c ≠ '\\') →
      CharSpelled mark escapes c [c]
  | escape {c : Char} {tail : List Char} : escapes = true →
      (∀ rest, Text.escape? (tail ++ rest) = some (c, rest)) →
      (∀ rest, Text.continuation? (tail ++ rest) = none) → CharSpelled mark escapes c ('\\' :: tail)

/-- The content of a string on one line. -/
inductive LineSpelled (mark : Char) (escapes : Bool) : (content text : List Char) → Prop
  | nil : LineSpelled mark escapes [] []
  | char {c : Char} {head tail text : List Char} : CharSpelled mark escapes c head →
      LineSpelled mark escapes tail text → LineSpelled mark escapes (head ++ tail) (c :: text)

/-- The content of a string on several lines; `marks` counts the marks just before. -/
inductive LinesSpelled (mark : Char) (escapes : Bool) :
    (marks : Nat) → (content text : List Char) → Prop
  | nil {marks : Nat} : LinesSpelled mark escapes marks [] []
  | mark {marks : Nat} {tail text : List Char} : marks < 2 →
      LinesSpelled mark escapes (marks + 1) tail text →
      LinesSpelled mark escapes marks (mark :: tail) (mark :: text)
  | newline {marks : Nat} {tail text : List Char} : LinesSpelled mark escapes 0 tail text →
      LinesSpelled mark escapes marks ('\n' :: tail) ('\n' :: text)
  | char {marks : Nat} {c : Char} {head tail text : List Char} : CharSpelled mark escapes c head →
      LinesSpelled mark escapes 0 tail text →
      LinesSpelled mark escapes marks (head ++ tail) (c :: text)

variable {mark : Char} {escapes : Bool}

/-! ### Reading -/

/-- A character begins with no mark and with no line break. -/
theorem CharSpelled.exists_cons {c : Char} {head : List Char} (h : CharSpelled mark escapes c head)
    (hslash : mark ≠ '\\') :
    ∃ first tail, head = first :: tail ∧ first ≠ mark ∧ first ≠ '\n' ∧ first ≠ '\r' := by
  cases h with
  | raw hplain hmark hescape =>
    refine ⟨c, [], rfl, hmark, ?_, ?_⟩
    · rintro rfl
      cases hplain
    · rintro rfl
      cases hplain
  | escape hescapes hread hcontinue => exact ⟨'\\', _, rfl, hslash.symm, by decide, by decide⟩

theorem lineContent_char {c : Char} {head : List Char} (h : CharSpelled mark escapes c head)
    (hslash : mark ≠ '\\') {limit : Nat} {tail text rest : List Char}
    (htail : Text.lineContent mark escapes limit tail = some (text, rest)) :
    Text.lineContent mark escapes (limit + 1) (head ++ tail) = some (c :: text, rest) := by
  cases h with
  | raw hplain hmark hescape =>
    have hescape : ¬ (escapes && decide (c = '\\')) = true := by simpa using hescape
    rw [List.singleton_append, Text.lineContent, if_neg hmark, if_neg hescape, if_pos hplain, htail]
    rfl
  | escape hescapes hread hcontinue =>
    rw [List.cons_append, Text.lineContent, if_neg hslash.symm, if_pos (by simp [hescapes]), hread]
    dsimp only [bind, Option.bind]
    rw [htail]
    rfl

theorem linesContent_char {c : Char} {head : List Char} (h : CharSpelled mark escapes c head)
    (hslash : mark ≠ '\\') {limit : Nat} {tail text rest : List Char}
    (htail : Text.linesContent mark escapes limit tail = some (text, rest)) :
    Text.linesContent mark escapes (limit + 1) (head ++ tail) = some (c :: text, rest) := by
  obtain ⟨first, others, heq, -, hnewline, hreturn⟩ := h.exists_cons hslash
  cases h with
  | raw hplain hmark hescape =>
    obtain ⟨rfl, rfl⟩ := List.cons.inj heq
    have hescape : ¬ (escapes && decide (c = '\\')) = true := by simpa using hescape
    rw [List.singleton_append, Text.linesContent, if_neg hmark, if_neg hescape,
      afterNewline?_eq_none hnewline hreturn]
    dsimp only
    rw [if_pos hplain, htail]
    rfl
  | escape hescapes hread hcontinue =>
    rw [List.cons_append, Text.linesContent, if_neg hslash.symm, if_pos (by simp [hescapes]),
      hcontinue]
    dsimp only
    rw [hread]
    dsimp only [bind, Option.bind]
    rw [htail]
    rfl

theorem lineContent_spelled {content text : List Char} (h : LineSpelled mark escapes content text)
    (hslash : mark ≠ '\\') (rest : List Char) {limit : Nat} (hlimit : content.length < limit) :
    Text.lineContent mark escapes limit (content ++ mark :: rest) = some (text, rest) := by
  induction h generalizing limit with
  | nil =>
    obtain ⟨limit, rfl⟩ := Nat.exists_eq_add_one_of_ne_zero (Nat.ne_of_gt hlimit)
    rw [List.nil_append, Text.lineContent, if_pos rfl]
  | char hchar htail ih =>
    obtain ⟨first, others, rfl, -⟩ := hchar.exists_cons hslash
    rw [List.length_append, List.length_cons] at hlimit
    obtain ⟨limit, rfl⟩ : ∃ left, limit = left + 1 := ⟨limit - 1, by omega⟩
    rw [List.append_assoc, lineContent_char hchar hslash (ih (by omega))]

theorem linesContent_newline (hnewline : mark ≠ '\n') {limit : Nat} {tail text rest : List Char}
    (htail : Text.linesContent mark escapes limit tail = some (text, rest)) :
    Text.linesContent mark escapes (limit + 1) ('\n' :: tail) = some ('\n' :: text, rest) := by
  have hescape : ¬ (escapes && decide ('\n' = '\\')) = true := by simp
  rw [Text.linesContent, if_neg hnewline.symm, if_neg hescape, afterNewline?]
  dsimp only
  rw [htail]
  rfl

theorem takeWhile_marks {tail : List Char} (h : EndsRun (· = mark) tail) (marks : Nat) :
    (List.replicate marks mark ++ tail).takeWhile (· = mark) = List.replicate marks mark :=
  takeWhile_append (fun _ hmem => decide_eq_true (List.eq_of_mem_replicate hmem)) h

/-- Marks that no third one follows are content. -/
theorem linesContent_marks {marks : Nat} (hmarks : marks ≤ 2) {limit : Nat}
    {tail text rest : List Char} (hends : EndsRun (· = mark) tail)
    (htail : ∀ left, limit ≤ left →
      Text.linesContent mark escapes left tail = some (text, rest)) :
    Text.linesContent mark escapes (limit + marks) (List.replicate marks mark ++ tail) =
      some (List.replicate marks mark ++ text, rest) := by
  cases marks with
  | zero => exact htail limit (Nat.le_refl _)
  | succ marks =>
    have htake := takeWhile_marks hends (marks + 1)
    rw [List.replicate_succ, List.cons_append] at htake ⊢
    rw [← Nat.add_assoc, Text.linesContent, if_pos rfl, htake]
    dsimp only
    rw [if_neg (by simp; omega), ← List.cons_append, List.drop_left]
    dsimp only [bind, Option.bind]
    rw [htail _ (by omega)]
    rfl

theorem linesContent_closing {marks : Nat} (hmarks : marks ≤ 2) {rest : List Char}
    (hrest : EndsRun (· = mark) rest) (limit : Nat) :
    Text.linesContent mark escapes (limit + 1) (List.replicate (marks + 3) mark ++ rest) =
      some (List.replicate marks mark, rest) := by
  have htake := takeWhile_marks hrest (marks + 3)
  have hextra : min 2 (marks + 3 - 3) = marks := by omega
  rw [List.replicate_succ, List.cons_append] at htake ⊢
  rw [Text.linesContent, if_pos rfl, htake]
  dsimp only
  rw [if_pos (by simp), List.length_cons, List.length_replicate, hextra, ← List.cons_append,
    ← List.replicate_succ, List.drop_left' (by simp)]

/-- The marks just before the content belong to it, and so do those right before the closing ones. -/
theorem linesContent_spelled {marks : Nat} {content text : List Char}
    (h : LinesSpelled mark escapes marks content text) (hmarks : marks ≤ 2) (hslash : mark ≠ '\\')
    (hnewline : mark ≠ '\n') {rest : List Char} (hrest : EndsRun (· = mark) rest) {limit : Nat}
    (hlimit : marks + content.length < limit) :
    Text.linesContent mark escapes limit
        (List.replicate marks mark ++ (content ++ mark :: mark :: mark :: rest)) =
      some (List.replicate marks mark ++ text, rest) := by
  induction h generalizing limit with
  | @nil marks =>
    obtain ⟨limit, rfl⟩ : ∃ left, limit = left + 1 := ⟨limit - 1, by omega⟩
    have hall : List.replicate marks mark ++ ([] ++ mark :: mark :: mark :: rest) =
        List.replicate (marks + 3) mark ++ rest := by
      simp [List.replicate_succ']
    rw [hall, linesContent_closing hmarks hrest, List.append_nil]
  | @mark marks tail text hlt htail ih =>
    rw [List.length_cons] at hlimit
    have hmore := @ih (by omega) limit (by omega)
    simpa [List.replicate_succ'] using hmore
  | @newline marks tail text htail ih =>
    rw [List.length_cons] at hlimit
    obtain ⟨limit, rfl⟩ : ∃ left, limit = left + marks := ⟨limit - marks, by omega⟩
    refine linesContent_marks hmarks (endsRun_cons (by simp [hnewline.symm]) _) fun left hleft => ?_
    obtain ⟨left, rfl⟩ : ∃ fewer, left = fewer + 1 := ⟨left - 1, by omega⟩
    exact linesContent_newline hnewline (@ih (by omega) left (by omega))
  | @char marks c head tail text hchar htail ih =>
    obtain ⟨first, others, rfl, hfirst, -⟩ := hchar.exists_cons hslash
    rw [List.length_append, List.length_cons] at hlimit
    obtain ⟨limit, rfl⟩ : ∃ left, limit = left + marks := ⟨limit - marks, by omega⟩
    refine linesContent_marks hmarks (endsRun_cons (by simp [hfirst]) _) fun left hleft => ?_
    obtain ⟨left, rfl⟩ : ∃ fewer, left = fewer + 1 := ⟨left - 1, by omega⟩
    rw [List.append_assoc]
    exact linesContent_char hchar hslash (@ih (by omega) left (by omega))

/-! ### Writing -/

theorem codePoint?_four {a b c d x : Char} {code : Nat}
    (hcode : Text.hexNumber? [a, b, c, d] = some code) (hx : Text.character? code = some x)
    (rest : List Char) : Text.codePoint? 4 (a :: b :: c :: d :: rest) = some (x, rest) := by
  have henough : 4 ≤ (a :: b :: c :: d :: rest).length := by simp
  have hguard : (guard (4 ≤ (a :: b :: c :: d :: rest).length) : Option Unit) = some () :=
    if_pos henough
  have htake : (a :: b :: c :: d :: rest).take 4 = [a, b, c, d] := rfl
  rw [Text.codePoint?, hguard, htake, hcode, Option.bind_eq_bind, Option.bind_some,
    Option.bind_eq_bind, Option.bind_some, hx]
  rfl

/-- The two last digits of a control character's escape tell the character. -/
theorem hexNumber?_code : ∀ n < 0x80,
    Text.hexNumber? ['0', '0', (Nat.digitChar (n / 16)).toUpper, (Nat.digitChar (n % 16)).toUpper] =
        some n ∧ Text.character? n = some (Char.ofNat n) := by
  decide +kernel

theorem toNat_lt_of_isControl {c : Char} (h : isControl c = true) : c.toNat < 0x80 := by
  simp only [isControl, isPlain, Bool.and_eq_true, Bool.not_eq_true', Bool.or_eq_false_iff,
    Bool.and_eq_false_iff, decide_eq_false_iff_not, Decidable.not_not] at h
  rcases h with ⟨-, -, hlow | rfl⟩
  · have : ¬ 0x20 ≤ c.toNat := hlow
    omega
  · decide

/-- A character that is written as an escape is read from it. -/
theorem charSpelled_escape {c : Char}
    (h : c = '"' ∨ c = '\t' ∨ c = '\n' ∨ c = '\\' ∨ isControl c = true) :
    CharSpelled mark true c (escape c) := by
  by_cases hcode : isControl c = true ∧ c ≠ '\x08' ∧ c ≠ '\x0c' ∧ c ≠ '\r'
  · obtain ⟨hcontrol, hb, hf, hr⟩ := hcode
    have hplain : ∀ d, isControl d = false → c ≠ d := by
      rintro d hd rfl
      rw [hcontrol] at hd
      cases hd
    obtain ⟨hnumber, hcharacter⟩ := hexNumber?_code c.toNat (toNat_lt_of_isControl hcontrol)
    rw [Char.ofNat_toNat] at hcharacter
    rw [escape, if_neg hb, if_neg (hplain _ (by decide)), if_neg (hplain _ (by decide)), if_neg hf,
      if_neg hr, if_neg (hplain _ (by decide)), if_neg (hplain _ (by decide))]
    exact .escape rfl (codePoint?_four hnumber hcharacter) fun _ => rfl
  · have hshort : c = '\x08' ∨ c = '\t' ∨ c = '\n' ∨ c = '\x0c' ∨ c = '\r' ∨ c = '"' ∨ c = '\\' := by
      grind
    rcases hshort with rfl | rfl | rfl | rfl | rfl | rfl | rfl <;>
      exact .escape rfl (fun _ => rfl) fun _ => rfl

theorem charSpelled_raw {c : Char} (hcontrol : isControl c = false) (hnewline : c ≠ '\n')
    (hmark : c ≠ mark) (hescape : escapes = true → c ≠ '\\') : CharSpelled mark escapes c [c] := by
  rw [isControl, decide_eq_true hnewline, Bool.true_and, Bool.not_eq_false'] at hcontrol
  exact .raw hcontrol hmark hescape

/-- What the writer puts for a character that is no quote and no line break to be kept. -/
theorem exists_charSpelled {c : Char} (hquote : c ≠ '"') (tail : List Char) :
    ∃ head, CharSpelled '"' true c head ∧
      (if c = '\t' || c = '\n' || c = '\\' || isControl c then escape c ++ tail else c :: tail) =
        head ++ tail := by
  split
  · next hescape =>
    simp only [Bool.or_eq_true, decide_eq_true_eq, or_assoc] at hescape
    exact ⟨escape c, charSpelled_escape (Or.inr hescape), rfl⟩
  · next hescape =>
    simp only [Bool.or_eq_true, decide_eq_true_eq, not_or, Bool.not_eq_true] at hescape
    obtain ⟨⟨⟨-, hnewline⟩, hslash⟩, hcontrol⟩ := hescape
    exact ⟨[c], charSpelled_raw hcontrol hnewline hquote fun _ => hslash, rfl⟩

theorem lineSpelled_escaped (text : List Char) : LineSpelled '"' true (escaped false 0 text) text := by
  induction text with
  | nil => exact .nil
  | cons c text ih =>
    rw [escaped]
    split
    · next hquote => exact .char (charSpelled_escape (Or.inl hquote)) ih
    · next hquote =>
      obtain ⟨head, hchar, heq⟩ := exists_charSpelled hquote (escaped false 0 text)
      rw [if_neg (by simp), heq]
      exact .char hchar ih

theorem linesSpelled_escaped (marks : Nat) (text : List Char) :
    LinesSpelled '"' true marks (escaped true marks text) text := by
  induction text generalizing marks with
  | nil => exact .nil
  | cons c text ih =>
    rw [escaped]
    split
    · next hquote =>
      subst hquote
      split
      · next hmarks => exact .mark (by simpa using hmarks) (ih _)
      · exact .char (charSpelled_escape (Or.inl rfl)) (ih 0)
    · next hquote =>
      split
      · next hnewline =>
        obtain rfl : c = '\n' := by simpa using hnewline
        exact .newline (ih 0)
      · obtain ⟨head, hchar, heq⟩ := exists_charSpelled hquote (escaped true 0 text)
        rw [heq]
        exact .char hchar (ih 0)

/-- A text without control characters, line breaks and marks spells itself. -/
theorem lineSpelled_raw {text : List Char} (hcontrol : ∀ c ∈ text, isControl c = false)
    (hnewline : ∀ c ∈ text, c ≠ '\n') (hmark : ∀ c ∈ text, c ≠ mark) :
    LineSpelled mark false text text := by
  induction text with
  | nil => exact .nil
  | cons c text ih =>
    rw [List.forall_mem_cons] at hcontrol hnewline hmark
    exact .char (charSpelled_raw hcontrol.1 hnewline.1 hmark.1 (by simp))
      (ih hcontrol.2 hnewline.2 hmark.2)

theorem le_longestRun (mark : Char) (run : Nat) (text : List Char) :
    run ≤ longestRun mark run text := by
  induction text generalizing run with
  | nil => exact Nat.le_refl run
  | cons c text ih =>
    rw [longestRun]
    split
    · exact Nat.le_trans (Nat.le_succ run) (ih _)
    · exact Nat.le_max_left _ _

theorem ne_of_longestRun_eq_zero {text : List Char} (h : longestRun mark 0 text = 0) :
    ∀ c ∈ text, c ≠ mark := by
  induction text with
  | nil => exact fun _ hmem => absurd hmem List.not_mem_nil
  | cons c text ih =>
    rw [longestRun] at h
    split at h
    · have := le_longestRun mark (0 + 1) text
      omega
    · next hmark =>
      have hzero := Nat.le_zero.1 (h ▸ Nat.le_max_right 0 (longestRun mark 0 text))
      exact List.forall_mem_cons.2 ⟨hmark, ih hzero⟩

/-- On several lines a text may also have line breaks, and its marks if no three of them follow each
other. -/
theorem linesSpelled_raw {text : List Char} (hcontrol : ∀ c ∈ text, isControl c = false)
    {marks : Nat} (hrun : longestRun mark marks text ≤ 2) :
    LinesSpelled mark false marks text text := by
  induction text generalizing marks with
  | nil => exact .nil
  | cons c text ih =>
    rw [List.forall_mem_cons] at hcontrol
    rw [longestRun] at hrun
    split at hrun
    · next hmark =>
      subst hmark
      have := le_longestRun c (marks + 1) text
      exact .mark (by omega) (ih hcontrol.2 hrun)
    · next hmark =>
      have htail := ih hcontrol.2 (Nat.le_trans (Nat.le_max_right _ _) hrun)
      by_cases hnewline : c = '\n'
      · subst hnewline
        exact .newline htail
      · exact .char (charSpelled_raw hcontrol.1 hnewline hmark (by simp)) htail

/-! ### Whole strings -/

theorem line_spelled {content text : List Char} (h : LineSpelled mark escapes content text)
    (hslash : mark ≠ '\\') (rest : List Char) :
    Text.line mark escapes (content ++ mark :: rest) = some (String.ofList text, rest) := by
  have hlimit : content.length < (content ++ mark :: rest).length := by simp
  rw [Text.line, lineContent_spelled h hslash rest hlimit]
  rfl

/-- A text with line breaks begins on a line of its own, so its first line break is not lost. -/
theorem dropFirstNewline_opening {content text : List Char}
    (h : LinesSpelled mark escapes 0 content text) (hslash : mark ≠ '\\') (hnewline : mark ≠ '\n')
    (hreturn : mark ≠ '\r') (rest : List Char) :
    Text.dropFirstNewline (opening text ++ (content ++ mark :: rest)) = content ++ mark :: rest := by
  have hnone : ∀ {c : Char}, c ≠ '\n' → c ≠ '\r' → ∀ rest : List Char,
      Text.dropFirstNewline (c :: rest) = c :: rest := by
    intro c hc hc' rest
    rw [Text.dropFirstNewline, afterNewline?_eq_none hc hc', Option.getD_none]
  by_cases htext : text.contains '\n' = true
  · rw [opening, if_pos htext]
    rfl
  · rw [opening, if_neg htext, List.nil_append]
    cases h with
    | nil => exact hnone hnewline hreturn rest
    | mark => exact hnone hnewline hreturn _
    | newline => simp at htext
    | char hchar htail =>
      obtain ⟨first, others, rfl, -, hfirst, hfirst'⟩ := hchar.exists_cons hslash
      exact hnone hfirst hfirst' _

theorem lines_spelled {content text : List Char} (h : LinesSpelled mark escapes 0 content text)
    (hslash : mark ≠ '\\') (hnewline : mark ≠ '\n') (hreturn : mark ≠ '\r') {rest : List Char}
    (hrest : EndsRun (· = mark) rest) :
    Text.lines mark escapes (opening text ++ (content ++ mark :: mark :: mark :: rest)) =
      some (String.ofList text, rest) := by
  have hlimit : 0 + content.length < (content ++ mark :: mark :: mark :: rest).length := by
    simp
  have hread := linesContent_spelled h (Nat.zero_le 2) hslash hnewline hrest hlimit
  rw [List.replicate_zero, List.nil_append, List.nil_append] at hread
  rw [Text.lines, dropFirstNewline_opening h hslash hnewline hreturn]
  dsimp only
  rw [hread]
  rfl

/-- A string on one line is not taken for one on several: its opening mark is not one of three. -/
theorem ne_two_marks {content text : List Char} (h : LineSpelled mark escapes content text)
    (hslash : mark ≠ '\\') {rest : List Char} (hrest : EndsRun (· = mark) rest) (tail : List Char) :
    content ++ mark :: rest ≠ mark :: mark :: tail := by
  intro heq
  cases h with
  | nil =>
    obtain rfl := (List.cons.inj heq).2
    simpa using hrest mark rfl
  | char hchar htail =>
    obtain ⟨first, others, rfl, hfirst, -⟩ := hchar.exists_cons hslash
    exact hfirst (List.cons.inj heq).1

theorem string_basic (text : List Char) {rest : List Char} (hrest : EndsRun (· = '"') rest) :
    Text.string (styled text .basic ++ rest) = some (String.ofList text, rest) := by
  have hspelled := lineSpelled_escaped text
  have hform : styled text .basic ++ rest = '"' :: (escaped false 0 text ++ '"' :: rest) := by
    simp [styled]
  rw [hform, Text.string, line_spelled hspelled (by decide)]
  exact ne_two_marks hspelled (by decide) hrest

theorem string_literal {text : List Char} (h : LineSpelled '\'' false text text) {rest : List Char}
    (hrest : EndsRun (· = '\'') rest) :
    Text.string (styled text .literal ++ rest) = some (String.ofList text, rest) := by
  have hform : styled text .literal ++ rest = '\'' :: (text ++ '\'' :: rest) := by simp [styled]
  rw [hform, Text.string, line_spelled h (by decide)]
  exact ne_two_marks h (by decide) hrest

theorem string_basicLines (text : List Char) {rest : List Char} (hrest : EndsRun (· = '"') rest) :
    Text.string (styled text .basicLines ++ rest) = some (String.ofList text, rest) := by
  have hform : styled text .basicLines ++ rest =
      '"' :: '"' :: '"' :: (opening text ++ (escaped true 0 text ++ '"' :: '"' :: '"' :: rest)) := by
    simp [styled]
  rw [hform, Text.string,
    lines_spelled (linesSpelled_escaped 0 text) (by decide) (by decide) (by decide) hrest]

theorem string_literalLines {text : List Char} (h : LinesSpelled '\'' false 0 text text)
    {rest : List Char} (hrest : EndsRun (· = '\'') rest) :
    Text.string (styled text .literalLines ++ rest) = some (String.ofList text, rest) := by
  have hform : styled text .literalLines ++ rest =
      '\'' :: '\'' :: '\'' :: (opening text ++ (text ++ '\'' :: '\'' :: '\'' :: rest)) := by
    simp [styled]
  rw [hform, Text.string, lines_spelled h (by decide) (by decide) (by decide) hrest]

/-- A form without escapes is only chosen for a text that it can hold. -/
theorem style_raw (text : List Char) :
    (style text = .literal → text.any isControl = false ∧ longestRun '\'' 0 text = 0 ∧
        text.contains '\n' = false) ∧
      (style text = .literalLines → text.any isControl = false ∧ longestRun '\'' 0 text ≤ 2) := by
  unfold style
  dsimp only
  split
  · simp
  · split
    · next hliteral => simpa [and_assoc] using hliteral
    · split
      · simp
      · split
        · next hliteral => simpa using hliteral
        · split <;> simp

theorem lineSpelled_of_style {text : List Char} (h : style text = .literal) :
    LineSpelled '\'' false text text := by
  obtain ⟨hcontrol, hmark, hnewline⟩ := (style_raw text).1 h
  refine lineSpelled_raw (by simpa using hcontrol) ?_ (ne_of_longestRun_eq_zero hmark)
  rintro c hmem rfl
  simp [hmem] at hnewline

theorem linesSpelled_of_style {text : List Char} (h : style text = .literalLines) :
    LinesSpelled '\'' false 0 text text := by
  obtain ⟨hcontrol, hmark⟩ := (style_raw text).2 h
  exact linesSpelled_raw (by simpa using hcontrol) hmark

/-- The form that is chosen for a string can hold it, so it reads back. -/
theorem string_written (s : String) {rest : List Char} (hquote : EndsRun (· = '"') rest)
    (hapostrophe : EndsRun (· = '\'') rest) :
    Text.string (Writer.string s ++ rest) = some (s, rest) := by
  rw [Writer.string]
  cases hstyle : style s.toList with
  | basic => rw [string_basic _ hquote, String.ofList_toList]
  | literal =>
    rw [string_literal (lineSpelled_of_style hstyle) hapostrophe, String.ofList_toList]
  | basicLines => rw [string_basicLines _ hquote, String.ofList_toList]
  | literalLines =>
    rw [string_literalLines (linesSpelled_of_style hstyle) hapostrophe, String.ofList_toList]

/-- A string begins with one of the two marks. -/
theorem exists_string_eq (s : String) :
    ∃ mark tail, Writer.string s = mark :: tail ∧ (mark = '"' ∨ mark = '\'') := by
  rw [Writer.string]
  cases style s.toList with
  | basic => exact ⟨_, _, rfl, Or.inl rfl⟩
  | literal => exact ⟨_, _, rfl, Or.inr rfl⟩
  | basicLines => exact ⟨_, _, rfl, Or.inl rfl⟩
  | literalLines => exact ⟨_, _, rfl, Or.inr rfl⟩

end StatQuery.Toml
