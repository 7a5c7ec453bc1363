import StatQuery.Proofs.Toml.Scalar
import StatQuery.Proofs.Toml.Text
import StatQuery.Toml.Document

/-!
# Sections read back

The text of a section is read as its statements: the header, and an assignment for each setting. Each
piece of the text has a law of its own with the rest left open, and `Reads` chains them, a line at a
time, with the bound on the number of lines generalised (`reads_blocks`).
-/

namespace StatQuery.Toml

open Scan Writer

namespace Writer

/-- The value that a setting stands for. -/
def Setting.value : Setting → Toml
  | .text s => .string s
  | .number n => .integer n
  | .flag b => .boolean b

/-- The setting fits a document: a number has a sign and 64 bits there. -/
def Setting.Writable : Setting → Prop
  | .number n => n < twoTo 63
  | _ => True

/-- The statements of some settings. -/
def assignments (settings : List (String × Setting)) : List Statement :=
  settings.map fun setting => .assign ⟨[], setting.1⟩ setting.2.value

/-- The statements of a section. -/
def Section.statements (s : Section) : List Statement :=
  .table ⟨s.path.dropLast, s.path.getLastD ""⟩ :: assignments s.settings

/-- The section can be written: its header names it, and every setting fits. -/
structure Section.Writable (s : Section) : Prop where
  named : s.path ≠ []
  short : s.path.length ≤ maxKeys
  settings : ∀ setting ∈ s.settings, setting.2.Writable

end Writer

namespace Scan

/-! ### Values -/

theorem value_of_string {text rest : List Char} {s : String}
    (hmark : text.head? = some '"' ∨ text.head? = some '\'')
    (h : Text.string text = some (s, rest)) : value text = some (.string s, rest) := by
  rw [value, show maxDepth = 78 + 1 from rfl, valueWithin, bind_of_some (peek_eq text)]
  rcases hmark with hmark | hmark <;> rw [hmark] <;> exact bind_of_some h

theorem value_of_scalar {c : Char} {text rest : List Char} {v : Toml}
    (hc : c.isAlphanum = true) (h : scalar (c :: text) = some (v, rest)) :
    value (c :: text) = some (v, rest) := by
  rw [value, show maxDepth = 78 + 1 from rfl, valueWithin, bind_of_some (peek_cons c text)]
  refine (congrFun (?_ : _ = scalar) (c :: text)).trans h
  split
  · next heq => cases heq; cases hc
  · next heq => cases heq; cases hc
  · next heq => cases heq; cases hc
  · next heq => cases heq; cases hc
  · rfl

theorem value_setting {setting : Setting} (h : setting.Writable) (rest : List Char) :
    value (Writer.setting setting ++ '\n' :: rest) = some (setting.value, '\n' :: rest) := by
  cases setting with
  | text s =>
    obtain ⟨mark, tail, heq, hmark⟩ := exists_string_eq s
    have hread := @string_written s ('\n' :: rest) (endsRun_cons rfl rest) (endsRun_cons rfl rest)
    refine value_of_string ?_ hread
    rw [Writer.setting, heq, List.cons_append, List.head?_cons]
    rcases hmark with rfl | rfl
    · exact Or.inl rfl
    · exact Or.inr rfl
  | number n =>
    obtain ⟨c, tail, heq, -⟩ := Scalar.exists_toDigits_eq_cons n
    have hread := scalar_digits h rest
    have hdigit := Scalar.isDigit_of_mem_toDigits n c (by simp [heq])
    rw [Writer.setting]
    rw [heq, List.cons_append] at hread ⊢
    exact value_of_scalar (by simp [Char.isAlphanum, hdigit]) hread
  | flag b =>
    cases b with
    | true =>
      exact value_of_scalar (by decide) (@scalar_run ['t', 'r', 'u', 'e'] (List.all_eq_true.1 rfl) _ rfl rest)
    | false =>
      exact value_of_scalar (by decide)
        (@scalar_run ['f', 'a', 'l', 's', 'e'] (List.all_eq_true.1 rfl) _ rfl rest)

/-! ### Keys -/

theorem simpleKey_basic (text rest : List Char) :
    simpleKey (styled text .basic ++ rest) = some (String.ofList text, rest) := by
  have hform : styled text .basic ++ rest = '"' :: (escaped false 0 text ++ '"' :: rest) := by
    simp [styled]
  rw [hform, simpleKey, bind_of_some (peek_cons _ _)]
  exact (bind_of_some (advance_cons _ _)).trans (line_spelled (lineSpelled_escaped text) (by decide) _)

theorem simpleKey_literal {text : List Char} (h : LineSpelled '\'' false text text)
    (rest : List Char) : simpleKey (styled text .literal ++ rest) = some (String.ofList text, rest) := by
  have hform : styled text .literal ++ rest = '\'' :: (text ++ '\'' :: rest) := by simp [styled]
  rw [hform, simpleKey, bind_of_some (peek_cons _ _)]
  exact (bind_of_some (advance_cons _ _)).trans (line_spelled h (by decide) _)

theorem simpleKey_bare {text rest : List Char} (hne : text ≠ [])
    (h : ∀ c ∈ text, isBare c = true) (hrest : EndsRun isBare rest) :
    simpleKey (text ++ rest) = some (String.ofList text, rest) := by
  have hword : (do
      let word ← takeRun isBare
      if word.isEmpty then failure else return String.ofList word : Scan String) (text ++ rest) =
        some (String.ofList text, rest) := by
    rw [bind_of_some (takeRun_append h hrest), if_neg (by simpa using hne)]
    rfl
  rw [simpleKey, bind_of_some (peek_eq _)]
  refine (congrFun (?_ : _ = _) (text ++ rest)).trans hword
  obtain ⟨c, tail, rfl⟩ := List.exists_cons_of_ne_nil hne
  have hc := h c List.mem_cons_self
  split
  · next heq => cases heq; cases hc
  · next heq => cases heq; cases hc
  · rfl

/-- A key reads back, whichever form it is written in. -/
theorem simpleKey_written (name : String) {rest : List Char} (hrest : EndsRun isBare rest) :
    simpleKey (key name ++ rest) = some (name, rest) := by
  have hname : String.ofList name.toList = name := String.ofList_toList
  unfold key
  dsimp only
  split
  · next hbare =>
    simp only [Bool.and_eq_true, Bool.not_eq_true', List.isEmpty_eq_false_iff,
      List.all_eq_true] at hbare
    rw [simpleKey_bare hbare.1 hbare.2 hrest, hname]
  · split
    · rw [simpleKey_basic, hname]
    · split
      · next hliteral =>
        simp only [Bool.and_eq_true, Bool.not_eq_true', List.any_eq_false, Bool.or_eq_true,
          decide_eq_true_eq, not_or, Bool.not_eq_true] at hliteral
        have hspelled : LineSpelled '\'' false name.toList name.toList := by
          refine lineSpelled_raw (fun c hmem => (hliteral.1 c hmem).2)
            (fun c hmem => (hliteral.1 c hmem).1) ?_
          rintro c hmem rfl
          simp [hmem] at hliteral
        rw [simpleKey_literal hspelled, hname]
      · rw [simpleKey_basic, hname]

/-- Whether a character may begin a key. -/
def startsKey (c : Char) : Bool := isBare c || c = '"' || c = '\''

theorem exists_key_eq (name : String) : ∃ c tail, key name = c :: tail ∧ startsKey c = true := by
  unfold key
  dsimp only
  split
  · next hbare =>
    simp only [Bool.and_eq_true, Bool.not_eq_true', List.isEmpty_eq_false_iff,
      List.all_eq_true] at hbare
    obtain ⟨c, tail, heq⟩ := List.exists_cons_of_ne_nil hbare.1
    have hc : isBare c = true := hbare.2 c (by simp [heq])
    exact ⟨c, tail, heq, by simp [startsKey, hc]⟩
  · split
    · exact ⟨_, _, rfl, rfl⟩
    · split
      · exact ⟨_, _, rfl, rfl⟩
      · exact ⟨_, _, rfl, rfl⟩

theorem ne_of_startsKey {c d : Char} (hc : startsKey c = true) (hd : startsKey d = false) :
    c ≠ d := by
  rintro rfl
  rw [hc] at hd
  cases hd

theorem isBlank_of_startsKey {c : Char} (h : startsKey c = true) : isBlank c = false := by
  have hspace := ne_of_startsKey h (show startsKey ' ' = false by decide)
  have htab := ne_of_startsKey h (show startsKey '\t' = false by decide)
  simp [isBlank, hspace, htab]

theorem exists_dotted_eq {path : List String} (h : path ≠ []) :
    ∃ c tail, dotted path = c :: tail ∧ startsKey c = true := by
  match path, h with
  | [name], _ => exact exists_key_eq name
  | name :: second :: path, _ =>
    obtain ⟨c, tail, heq, hc⟩ := exists_key_eq name
    exact ⟨c, tail ++ '.' :: dotted (second :: path), by simp [dotted, heq], hc⟩

/-- A dotted key may be followed by blanks. -/
theorem keys_dotted {path : List String} (hpath : path ≠ []) {blanks rest : List Char}
    (hblanks : ∀ c ∈ blanks, isBlank c = true) (hrest : EndsRun isBare rest)
    (hblank : EndsRun isBlank rest) (hpoint : EndsRun (· = '.') rest) {limit : Nat}
    (hlimit : path.length ≤ limit) :
    keys limit (dotted path ++ (blanks ++ rest)) = some (path, rest) := by
  induction path generalizing limit with
  | nil => exact absurd rfl hpath
  | cons name path ih =>
    obtain ⟨limit, rfl⟩ : ∃ left, limit = left + 1 := ⟨limit - 1, by simp at hlimit; omega⟩
    obtain ⟨c, tail, heq, hc⟩ := exists_dotted_eq hpath
    have hstart : EndsRun isBlank (dotted (name :: path) ++ (blanks ++ rest)) := by
      rw [heq]
      exact endsRun_cons (isBlank_of_startsKey hc) _
    rw [keys, bind_of_some (skipBlanks_of_endsRun hstart)]
    cases path with
    | nil =>
      have hbare : EndsRun isBare (blanks ++ rest) := by
        cases blanks with
        | nil => exact hrest
        | cons b blanks =>
          have hb := hblanks b List.mem_cons_self
          refine endsRun_cons ?_ _
          simp only [isBlank, Bool.or_eq_true, decide_eq_true_eq] at hb
          rcases hb with rfl | rfl <;> rfl
      have hnone : ¬ rest.head? = some '.' := fun hhead => by simpa using hpoint '.' hhead
      rw [dotted, bind_of_some (simpleKey_written name hbare),
        bind_of_some (skipBlanks_append hblanks hblank), bind_of_some (peek_eq rest), if_neg hnone]
      rfl
    | cons second path =>
      rw [dotted, List.append_assoc, List.cons_append,
        bind_of_some (simpleKey_written name (endsRun_cons rfl _)),
        bind_of_some (skipBlanks_of_endsRun (endsRun_cons rfl _)), bind_of_some (peek_cons _ _),
        if_pos rfl, bind_of_some (advance_cons _ _)]
      have hmore := ih (by simp) (show (second :: path).length ≤ limit by simpa using hlimit)
      rw [bind_of_some hmore]
      · rfl
      · simp

theorem keyPath_dotted {path : List String} (hpath : path ≠ []) (hshort : path.length ≤ maxKeys)
    {blanks rest : List Char} (hblanks : ∀ c ∈ blanks, isBlank c = true)
    (hrest : EndsRun isBare rest) (hblank : EndsRun isBlank rest) (hpoint : EndsRun (· = '.') rest) :
    keyPath (dotted path ++ (blanks ++ rest)) =
      some (⟨path.dropLast, path.getLastD ""⟩, rest) := by
  rw [keyPath, bind_of_some (keys_dotted hpath hblanks hrest hblank hpoint hshort)]
  rfl

/-! ### Statements -/

theorem statement_header {path : List String} (hpath : path ≠ []) (hshort : path.length ≤ maxKeys)
    (rest : List Char) :
    statement ('[' :: (dotted path ++ ']' :: '\n' :: rest)) =
      some (.table ⟨path.dropLast, path.getLastD ""⟩, rest) := by
  have hkey : keyPath (dotted path ++ ']' :: '\n' :: rest) =
      some (⟨path.dropLast, path.getLastD ""⟩, ']' :: '\n' :: rest) :=
    @keyPath_dotted path hpath hshort [] _ (by simp) (endsRun_cons rfl _) (endsRun_cons rfl _)
      (endsRun_cons rfl _)
  have hheader : header (dotted path ++ ']' :: '\n' :: rest) =
      some (.table ⟨path.dropLast, path.getLastD ""⟩, '\n' :: rest) := by
    obtain ⟨c, tail, heq, hc⟩ := exists_dotted_eq hpath
    have hsingle : ¬ (dotted path ++ ']' :: '\n' :: rest).head? = some '[' := by
      rw [heq, List.cons_append, List.head?_cons, Option.some.injEq]
      exact ne_of_startsKey hc (by decide)
    rw [header, bind_of_some (peek_eq _), if_neg hsingle, bind_of_some hkey,
      bind_of_some (expect_cons _ _)]
    rfl
  rw [statement, bind_of_some (peek_cons _ _), if_pos rfl, bind_of_some (advance_cons _ _),
    bind_of_some hheader, bind_of_some (lineEnd_newline rest)]
  rfl

/-- No blanks are taken for a part of a setting. -/
theorem endsRun_setting (setting : Setting) (rest : List Char) :
    EndsRun isBlank (Writer.setting setting ++ rest) := by
  cases setting with
  | text s =>
    obtain ⟨mark, tail, heq, hmark⟩ := exists_string_eq s
    rw [Writer.setting, heq]
    refine endsRun_cons ?_ _
    rcases hmark with rfl | rfl <;> rfl
  | number n =>
    obtain ⟨c, tail, heq, -⟩ := Scalar.exists_toDigits_eq_cons n
    have hdigit := Scalar.isDigit_of_mem_toDigits n c (by simp [heq])
    rw [Writer.setting, heq]
    refine endsRun_cons ?_ _
    simp [isBlank, Scalar.ne_of_isDigit hdigit (show ' '.isDigit = false by decide),
      Scalar.ne_of_isDigit hdigit (show '\t'.isDigit = false by decide)]
  | flag b =>
    cases b with
    | true => exact endsRun_cons rfl _
    | false => exact endsRun_cons rfl _

theorem statement_setting (name : String) {setting : Setting} (h : setting.Writable)
    (rest : List Char) :
    statement (key name ++ ([' ', '=', ' '] ++ (Writer.setting setting ++ '\n' :: rest))) =
      some (.assign ⟨[], name⟩ setting.value, rest) := by
  have hvalue := value_setting h rest
  have hstart := endsRun_setting setting ('\n' :: rest)
  generalize Writer.setting setting = written at hvalue hstart ⊢
  have hkey : keyPath (key name ++ ([' ', '=', ' '] ++ (written ++ '\n' :: rest))) =
      some (⟨[], name⟩, '=' :: ' ' :: (written ++ '\n' :: rest)) :=
    @keyPath_dotted [name] (by simp) (by simp [maxKeys]) [' '] _ (List.all_eq_true.1 rfl) (endsRun_cons rfl _)
      (endsRun_cons rfl _) (endsRun_cons rfl _)
  have hblank : skipBlanks (' ' :: (written ++ '\n' :: rest)) = some ((), written ++ '\n' :: rest) :=
    @skipBlanks_append [' '] _ (List.all_eq_true.1 rfl) hstart
  have hpair : keyValue value (key name ++ ([' ', '=', ' '] ++ (written ++ '\n' :: rest))) =
      some ((⟨[], name⟩, setting.value), '\n' :: rest) := by
    rw [keyValue, bind_of_some hkey, bind_of_some (expect_cons _ _), bind_of_some hblank,
      bind_of_some hvalue]
    rfl
  obtain ⟨c, tail, heq, hc⟩ := exists_key_eq name
  have hassign : ¬ (key name ++ ([' ', '=', ' '] ++ (written ++ '\n' :: rest))).head? = some '[' := by
    rw [heq, List.cons_append, List.head?_cons, Option.some.injEq]
    exact ne_of_startsKey hc (by decide)
  rw [statement, bind_of_some (peek_eq _), if_neg hassign, bind_of_some hpair]
  exact (bind_of_some (lineEnd_newline rest)).trans rfl

/-! ### Documents -/

/-- The text is read to its end as these statements, within a bound above its length. -/
def Reads (text : List Char) (statements : List Statement) : Prop :=
  ∀ limit, text.length < limit → statementsUpTo limit text = some (statements, [])

theorem reads_nil : Reads [] [] := by
  intro limit hlimit
  obtain ⟨limit, rfl⟩ := Nat.exists_eq_add_one_of_ne_zero (Nat.ne_of_gt hlimit)
  rfl

variable {text rest : List Char} {statements : List Statement}

/-- A line without a statement. -/
theorem reads_lineEnd (hstart : text.head? = some '#' ∨ text.head? = some '\n')
    (hlength : rest.length < text.length) (h : lineEnd text = some ((), rest))
    (hrest : Reads rest statements) : Reads text statements := by
  intro limit hlimit
  obtain ⟨limit, rfl⟩ : ∃ left, limit = left + 1 := ⟨limit - 1, by omega⟩
  have hmore := hrest limit (by omega)
  have hblank : EndsRun isBlank text := by
    intro c hc
    rcases hstart with hstart | hstart <;> rw [hstart] at hc <;> cases hc <;> rfl
  rw [statementsUpTo, bind_of_some (skipBlanks_of_endsRun hblank), bind_of_some (peek_eq text)]
  rcases hstart with hstart | hstart <;> rw [hstart] <;> exact (bind_of_some h).trans hmore

/-- A line with a statement. -/
theorem reads_statement {c : Char} {tail : List Char} {first : Statement}
    (hc : startsKey c = true ∨ c = '[') (hlength : rest.length < (c :: tail).length)
    (h : statement (c :: tail) = some (first, rest)) (hrest : Reads rest statements) :
    Reads (c :: tail) (first :: statements) := by
  intro limit hlimit
  obtain ⟨limit, rfl⟩ : ∃ left, limit = left + 1 := ⟨limit - 1, by omega⟩
  have hmore := hrest limit (by omega)
  have hstart : isBlank c = false ∧ c ≠ '#' ∧ c ≠ '\n' ∧ c ≠ '\r' := by
    rcases hc with hc | rfl
    · exact ⟨isBlank_of_startsKey hc, ne_of_startsKey hc (by decide), ne_of_startsKey hc (by decide),
        ne_of_startsKey hc (by decide)⟩
    · decide
  obtain ⟨hblank, hcomment, hnewline, hreturn⟩ := hstart
  have hfirst : (do
      let first ← statement
      return first :: (← statementsUpTo limit) : Scan (List Statement)) (c :: tail) =
        some (first :: statements, []) := by
    rw [bind_of_some h, bind_of_some hmore]
    rfl
  rw [statementsUpTo, bind_of_some (skipBlanks_of_endsRun (endsRun_cons hblank tail)),
    bind_of_some (peek_cons c tail)]
  refine (congrFun (?_ : _ = _) (c :: tail)).trans hfirst
  split
  · next heq => cases heq
  · next heq => exact absurd (Option.some.inj heq) hcomment
  · next heq => exact absurd (Option.some.inj heq) hnewline
  · next heq => exact absurd (Option.some.inj heq) hreturn
  · rfl

theorem reads_settings {settings : List (String × Setting)}
    (h : ∀ setting ∈ settings, setting.2.Writable) (hrest : Reads rest statements) :
    Reads (Writer.settings settings ++ rest) (assignments settings ++ statements) := by
  induction settings with
  | nil => exact hrest
  | cons setting settings ih =>
    obtain ⟨name, setting⟩ := setting
    obtain ⟨hfirst, hothers⟩ := List.forall_mem_cons.1 h
    have hstatement := statement_setting name hfirst (Writer.settings settings ++ rest)
    obtain ⟨c, tail, heq, hc⟩ := exists_key_eq name
    have hform : Writer.settings ((name, setting) :: settings) ++ rest =
        key name ++ ([' ', '=', ' '] ++ (Writer.setting setting ++ '\n' ::
          (Writer.settings settings ++ rest))) := by
      simp [Writer.settings]
    rw [hform]
    rw [heq, List.cons_append] at hstatement ⊢
    refine reads_statement (Or.inl hc) ?_ hstatement (ih hothers)
    simp only [List.length_cons, List.length_append]
    omega

theorem reads_block {s : Section} (h : s.Writable) (hrest : Reads rest statements) :
    Reads (block s ++ rest) (s.statements ++ statements) := by
  have hform : block s ++ rest =
      '[' :: (dotted s.path ++ ']' :: '\n' :: (Writer.settings s.settings ++ rest)) := by
    simp [block]
  have hheader := statement_header h.named h.short (Writer.settings s.settings ++ rest)
  rw [hform]
  refine reads_statement (Or.inr rfl) ?_ hheader (reads_settings h.settings hrest)
  simp only [List.length_cons, List.length_append]
  omega

/-- Sections read as their statements, in order. -/
theorem reads_blocks {sections : List Section} (h : ∀ s ∈ sections, s.Writable) :
    Reads (blocks sections) (sections.flatMap Section.statements) := by
  induction sections with
  | nil => exact reads_nil
  | cons s sections ih =>
    obtain ⟨hfirst, hothers⟩ := List.forall_mem_cons.1 h
    cases sections with
    | nil => simpa [blocks] using reads_block hfirst reads_nil
    | cons second sections =>
      have hmore := ih hothers
      have hblank : Reads ('\n' :: blocks (second :: sections))
          ((second :: sections).flatMap Section.statements) :=
        reads_lineEnd (Or.inr rfl) (by simp) (lineEnd_newline _) hmore
      rw [List.flatMap_cons]
      exact reads_block hfirst hblank

theorem reads_comment {comment : List Char} (h : ∀ c ∈ comment, isPlain c = true)
    (hrest : Reads rest statements) : Reads ('#' :: comment ++ '\n' :: rest) statements := by
  refine reads_lineEnd (Or.inl rfl) ?_ (lineEnd_comment h rest) hrest
  simp only [List.length_cons, List.length_append]
  omega

theorem statements_of_reads (h : Reads text statements) :
    Scan.statements.run text = some statements := by
  rw [run, Scan.statements, bind_of_some (remaining_eq text), h _ (Nat.lt_succ_self _)]

end Scan

end StatQuery.Toml
