import Mathlib.Data.List.Induction
import Mathlib.Data.List.TakeWhile
import StatQuery.Proofs.Json.Refusal
import StatQuery.Proofs.Text.Utf8

/-!
# What a reader has taken

`Reader.Leaves reader text x rest` says that a reader makes `x` of what stands before it and leaves the
rest. The lemmas below go back from a success to the text: what a small reader has taken has the form
that it is for. So a string that could be read was written as one (`stringBody_leaves`), and readers of
fields have forms that they demand (`demands_unsigned`, `demands_text`).
-/

namespace StatQuery.Json

open Reader

theorem Separates.append_blanks {first : Bool} {separator blanks : List UInt8}
    (h : Separates first separator) (hblanks : Blanks blanks) :
    Separates first (separator ++ blanks) := by
  cases first with
  | true => exact List.forall_mem_append.2 ⟨h, hblanks⟩
  | false =>
    obtain ⟨before, behind, hbefore, hbehind, rfl⟩ : ∃ before behind, _ := h
    exact ⟨before, behind ++ blanks, hbefore, List.forall_mem_append.2 ⟨hbehind, hblanks⟩, by simp⟩

theorem separates_at_comma {blanks : List UInt8} (h : Blanks blanks) :
    Separates false (blanks ++ [0x2C]) := ⟨blanks, [], h, Blanks.nil, rfl⟩

namespace Reader

variable {α β : Type} {text rest : List UInt8}

/-- The reader makes `x` of what stands before it and leaves the rest. -/
def Leaves (reader : Reader α) (text : List UInt8) (x : α) (rest : List UInt8) : Prop :=
  ∃ p p', reader ⟨text, p⟩ = .ok (x, ⟨rest, p'⟩)

theorem Leaves.bind {reader : Reader α} {next : α → Reader β} {y : β}
    (h : (reader >>= next).Leaves text y rest) :
    ∃ x between, reader.Leaves text x between ∧ (next x).Leaves between y rest := by
  obtain ⟨p, p', h⟩ := h
  cases hread : reader ⟨text, p⟩ with
  | error e =>
    rw [bind_of_error hread] at h
    cases h
  | ok result =>
    obtain ⟨x, between, q⟩ := result
    rw [bind_of_ok hread] at h
    exact ⟨x, between, ⟨p, q, hread⟩, q, p', h⟩

theorem Leaves.pure {a x : α} (h : (pure a : Reader α).Leaves text x rest) : x = a ∧ rest = text := by
  obtain ⟨p, p', h⟩ := h
  cases h
  exact ⟨rfl, rfl⟩

theorem Leaves.discard {reader : Reader α} {x : Unit}
    (h : (discard reader : Reader Unit).Leaves text x rest) : ∃ y, reader.Leaves text y rest := by
  obtain ⟨p, p', h⟩ := h
  change Except.bind (reader _) (fun result => Except.ok ((), result.2)) = _ at h
  cases hread : reader ⟨text, p⟩ with
  | error e =>
    rw [hread] at h
    cases h
  | ok result =>
    obtain ⟨y, c⟩ := result
    rw [hread] at h
    cases h
    exact ⟨y, p, p', hread⟩

theorem Fails.not_leaves {reader : Reader α} (h : Fails reader) {x : α} :
    ¬ reader.Leaves text x rest := by
  rintro ⟨p, p', hread⟩
  obtain ⟨e, he⟩ := h ⟨text, p⟩
  rw [he] at hread
  cases hread

theorem Leaves.peek {next : Option UInt8 → Reader β} {y : β}
    (h : (peek >>= next).Leaves text y rest) : (next text.head?).Leaves text y rest := h

theorem Leaves.peek_only {b : Option UInt8} (h : Reader.peek.Leaves text b rest) :
    b = text.head? ∧ rest = text := by
  obtain ⟨p, p', h⟩ := h
  cases h
  exact ⟨rfl, rfl⟩

theorem Leaves.remaining {next : Nat → Reader β} {y : β}
    (h : (remaining >>= next).Leaves text y rest) : (next text.length).Leaves text y rest := h

theorem Leaves.advance {next : Unit → Reader β} {b : UInt8} {y : β}
    (h : (advance >>= next).Leaves (b :: text) y rest) : (next ()).Leaves text y rest := by
  obtain ⟨p, p', h⟩ := h
  exact ⟨p.after b, p', h⟩

theorem Leaves.advance_only {b : UInt8} {x : Unit}
    (h : Reader.advance.Leaves (b :: text) x rest) : rest = text := by
  obtain ⟨p, p', h⟩ := h
  cases h
  rfl

theorem Leaves.takeRun {inRun : UInt8 → Bool} {run : List UInt8}
    (h : (takeRun inRun).Leaves text run rest) :
    text = run ++ rest ∧ (∀ b ∈ run, inRun b = true) ∧ EndsRun inRun rest := by
  obtain ⟨p, p', h⟩ := h
  cases h
  refine ⟨(List.takeWhile_append_dropWhile ..).symm, fun b hb => List.mem_takeWhile_imp hb, ?_⟩
  intro b hb
  have hhead := List.head?_dropWhile_not inRun text
  rw [hb] at hhead
  simpa using hhead

/-- Behind the blanks stands what the next reader is to go on with. -/
theorem Leaves.pastBlanks {next : Option UInt8 → Reader β} {y : β}
    (h : (peekPastBlanks >>= next).Leaves text y rest) : ∃ blanks tail, Blanks blanks ∧
      text = blanks ++ tail ∧ EndsRun isBlank tail ∧ (next tail.head?).Leaves tail y rest := by
  obtain ⟨b, between, hpeek, hnext⟩ := h.bind
  obtain ⟨u, tail, hskip, hhead⟩ := Leaves.bind hpeek
  obtain ⟨blanks, hrun⟩ := hskip.discard
  obtain ⟨rfl, hblanks, hends⟩ := hrun.takeRun
  obtain ⟨rfl, rfl⟩ := hhead.peek_only
  exact ⟨blanks, between, hblanks, rfl, hends, hnext⟩

/-- Behind the blanks stands a byte, if the next reader fails without one. -/
theorem Leaves.pastBlanks_some {next : Option UInt8 → Reader β} {y : β} (hnone : Fails (next none))
    (h : (peekPastBlanks >>= next).Leaves text y rest) : ∃ blanks b tail, Blanks blanks ∧
      text = blanks ++ b :: tail ∧ isBlank b = false ∧ (next (some b)).Leaves (b :: tail) y rest := by
  obtain ⟨blanks, tail, hblanks, rfl, hends, hnext⟩ := h.pastBlanks
  cases tail with
  | nil => exact absurd hnext hnone.not_leaves
  | cons b tail => exact ⟨blanks, b, tail, hblanks, rfl, hends b rfl, hnext⟩

theorem Leaves.value {next : UInt8 → Reader β} {y : β}
    (h : (peekValue >>= next).Leaves text y rest) : ∃ blanks b tail, Blanks blanks ∧
      text = blanks ++ b :: tail ∧ isBlank b = false ∧ (next b).Leaves (b :: tail) y rest := by
  obtain ⟨b, between, hpeek, hnext⟩ := h.bind
  obtain ⟨blanks, first, tail, hblanks, rfl, hfirst, hhead⟩ :=
    hpeek.pastBlanks_some (fails_failNext _)
  obtain ⟨rfl, rfl⟩ := hhead.pure
  exact ⟨blanks, b, tail, hblanks, rfl, hfirst, hnext⟩

/-- A whole text is read but for blanks behind it. -/
theorem run_leaves {reader : Reader α} {x : α} (h : reader.run text = .ok x) :
    ∃ behind, reader.Leaves text x behind ∧ Blanks behind := by
  rw [run, StateT.run'] at h
  change Except.map Prod.fst _ = _ at h
  generalize hresult : (reader >>= _) (Cursor.start text) = result at h
  cases result with
  | error e => cases h
  | ok result =>
    obtain ⟨y, c⟩ := result
    cases h
    have hleaves : Leaves _ _ _ _ := ⟨_, _, hresult⟩
    obtain ⟨y, between, hread, hnext⟩ := hleaves.bind
    obtain ⟨blanks, tail, hblanks, rfl, -, hlast⟩ := hnext.pastBlanks
    cases tail with
    | nil =>
      obtain ⟨rfl, -⟩ := hlast.pure
      rw [List.append_nil] at hread
      exact ⟨blanks, hread, hblanks⟩
    | cons b tail => exact absurd hlast (fails_failNext _).not_leaves

theorem word_leaves {expected : List UInt8} {x : Unit} (h : (word expected).Leaves text x rest) :
    text = expected ++ rest := by
  induction expected generalizing text with
  | nil => exact h.pure.2.symm
  | cons b expected ih =>
    rw [word] at h
    cases text with
    | nil => exact absurd h.peek (fails_failHere _).not_leaves
    | cons first tail =>
      have hnext := h.peek.advance
      split at hnext
      · next hfirst => rw [hfirst, ih hnext, List.cons_append]
      · exact absurd hnext (fails_failHere _).not_leaves

/-! ### Strings -/

theorem hexUnit_leaves {code : Nat} (h : hexUnit.Leaves text code rest) :
    ∃ a b c d, text = a :: b :: c :: d :: rest ∧ hexWord? a b c d = some code := by
  obtain ⟨p, p', h⟩ := h
  have hget : (get : Reader Cursor) ⟨text, p⟩ = .ok (⟨text, p⟩, ⟨text, p⟩) := rfl
  rw [hexUnit, bind_of_ok hget] at h
  dsimp only at h
  split at h
  · next a b c d tail =>
    have hleaves : Leaves _ _ _ _ := ⟨p, p', h⟩
    have hmatch := hleaves.advance.advance.advance.advance
    split at hmatch
    · next hword =>
      obtain ⟨rfl, rfl⟩ := hmatch.pure
      exact ⟨a, b, c, d, rfl, hword⟩
    · exact absurd hmatch (fails_failHere _).not_leaves
  · have hleaves : Leaves _ _ _ _ := ⟨p, p', h⟩
    exact absurd hleaves (Fails.after (fun _ => fails_failHere _) _).not_leaves

theorem pairByte_leaves {b : UInt8} {x : Unit} (h : (pairByte b).Leaves text x rest) :
    text = b :: rest := by
  rw [pairByte] at h
  cases text with
  | nil => exact absurd h.peek (fails_failHere _).not_leaves
  | cons first tail =>
    have hnext := h.peek.advance
    split at hnext
    · next hfirst => rw [hfirst, hnext.pure.2]
    · exact absurd hnext (fails_failHere _).not_leaves

theorem lowHalf_leaves {high : Nat} {bytes : List UInt8}
    (h : (lowHalf high).Leaves text bytes rest) :
    ∃ a b c d low, hexWord? a b c d = some low ∧ 0xDC00 ≤ low ∧ low ≤ 0xDFFF ∧
      bytes = Utf8.encodeChar (Char.ofNat ((high - 0xD800) * 0x400 + (low - 0xDC00) + 0x10000)) ∧
      text = 0x5C :: 0x75 :: a :: b :: c :: d :: rest := by
  rw [lowHalf] at h
  obtain ⟨_, behindSlash, hslash, hafter⟩ := h.bind
  obtain ⟨_, behindLetter, hletter, hafter'⟩ := hafter.bind
  obtain ⟨low, behindUnit, hunit, hlast⟩ := hafter'.bind
  obtain ⟨a, b, c, d, hcut, hword⟩ := hexUnit_leaves hunit
  split at hlast
  · next hpair =>
    simp only [Bool.and_eq_true, decide_eq_true_eq] at hpair
    obtain ⟨hbytes, rfl⟩ := hlast.pure
    refine ⟨a, b, c, d, low, hword, hpair.1, hpair.2, hbytes, ?_⟩
    rw [pairByte_leaves hslash, pairByte_leaves hletter, hcut]
  · exact absurd hlast (fails_failHere _).not_leaves

/-- An escape that could be read stands for a character. -/
theorem escape_leaves {bytes : List UInt8} (h : escape.Leaves text bytes rest) :
    ∃ c head, CharWritten c (0x5C :: head) ∧ bytes = Utf8.encodeChar c ∧ text = head ++ rest := by
  rw [escape] at h
  cases text with
  | nil => exact absurd h.peek (fails_failHere _).not_leaves
  | cons b tail =>
    have hnext := h.peek.advance
    split at hnext
    · next hb =>
      subst hb
      rw [unicodeEscape] at hnext
      obtain ⟨unit, between, hunit, hrest⟩ := hnext.bind
      obtain ⟨a, b, c, d, rfl, hword⟩ := hexUnit_leaves hunit
      split at hrest
      · exact absurd hrest (fails_failHere _).not_leaves
      split at hrest
      · next hlow hsurrogate =>
        simp only [Bool.and_eq_true, Bool.or_eq_true, decide_eq_true_eq] at hlow hsurrogate
        obtain ⟨rfl, rfl⟩ := hrest.pure
        exact ⟨_, [0x75, a, b, c, d], .unit hword (by omega), rfl, rfl⟩
      · next hlow hsurrogate =>
        simp only [Bool.and_eq_true, Bool.or_eq_true, decide_eq_true_eq] at hlow hsurrogate
        obtain ⟨a', b', c', d', low, hword', hlow, hlow', hbytes, rfl⟩ := lowHalf_leaves hrest
        exact ⟨_, [0x75, a, b, c, d, 0x5C, 0x75, a', b', c', d'],
          .pair hword hword' (by omega) (by omega) hlow hlow', hbytes, rfl⟩
    · split at hnext
      · next content hcontent =>
        obtain ⟨rfl, rfl⟩ := hnext.pure
        exact ⟨_, [b], .short hcontent, (encodeChar_plainEscape? hcontent).1.symm, rfl⟩
      · exact absurd hnext (fails_failHere _).not_leaves

/-- The bytes are collected from the content of a string: each byte stands for itself, or an escape
for those of a character. -/
inductive Collected : (bytes content : List UInt8) → Prop
  | nil : Collected [] []
  | literal {b : UInt8} {bytes content : List UInt8} (hb : Literal b) (h : Collected bytes content) :
      Collected (b :: bytes) (b :: content)
  | escape {c : Char} {head bytes content : List UInt8} (hc : CharWritten c (0x5C :: head))
      (h : Collected bytes content) :
      Collected (Utf8.encodeChar c ++ bytes) (0x5C :: (head ++ content))

theorem contentUpTo_leaves {limit : Nat} {bytes : List UInt8}
    (h : (contentUpTo limit).Leaves text bytes rest) :
    ∃ content, Collected bytes content ∧ text = content ++ 0x22 :: rest := by
  induction limit generalizing text bytes with
  | zero => exact absurd h (fails_failHere _).not_leaves
  | succ limit ih =>
    rw [contentUpTo] at h
    cases text with
    | nil => exact absurd h.peek (fails_failHere _).not_leaves
    | cons b tail =>
      have hnext := h.peek.advance
      split at hnext
      · next hquote =>
        obtain ⟨rfl, rfl⟩ := hnext.pure
        exact ⟨[], .nil, by rw [hquote, List.nil_append]⟩
      split at hnext
      · next hquote hslash =>
        subst hslash
        obtain ⟨_, between, hescape, hmore⟩ := hnext.bind
        obtain ⟨c, head, hc, rfl, rfl⟩ := escape_leaves hescape
        obtain ⟨more, tail, hmore, hpure⟩ := hmore.bind
        obtain ⟨rfl, rfl⟩ := hpure.pure
        obtain ⟨content, hcontent, rfl⟩ := ih hmore
        exact ⟨_, .escape hc hcontent, by simp⟩
      split at hnext
      · exact absurd hnext (fails_failHere _).not_leaves
      · next hquote hslash hcontrol =>
        obtain ⟨more, tail, hmore, hpure⟩ := hnext.bind
        obtain ⟨rfl, rfl⟩ := hpure.pure
        obtain ⟨content, hcontent, rfl⟩ := ih hmore
        exact ⟨_, .literal ⟨hquote, hslash, hcontrol⟩ hcontent, rfl⟩

/-- Bytes that continue a character do not come from escapes. -/
theorem Collected.exists_of_continuations {tail bytes content : List UInt8}
    (h : Collected (tail ++ bytes) content) (htail : ∀ b ∈ tail, Utf8.isContinuation b = true) :
    ∃ more, content = tail ++ more ∧ Collected bytes more := by
  induction tail generalizing content with
  | nil => exact ⟨content, rfl, h⟩
  | cons b tail ih =>
    generalize hall : b :: tail ++ bytes = all at h
    cases h with
    | nil => cases hall
    | literal hb h =>
      obtain ⟨rfl, rfl⟩ := List.cons.inj hall
      obtain ⟨more, rfl, hmore⟩ := ih h fun b hb => htail b (List.mem_cons_of_mem _ hb)
      exact ⟨more, rfl, hmore⟩
    | @escape c _ _ _ hc h =>
      obtain ⟨first, others, hbytes, hfirst, -⟩ := Utf8.encodeChar_bytes c
      rw [hbytes] at hall
      obtain ⟨rfl, -⟩ := List.cons.inj hall
      rw [htail b (by simp)] at hfirst
      cases hfirst

/-- A character whose first byte stands for itself needs no escape. -/
theorem unescaped_of_literal {c : Char} {b : UInt8} {tail : List UInt8}
    (hbytes : Utf8.encodeChar c = b :: tail) (hb : Literal b) : ' ' ≤ c ∧ c ≠ '"' ∧ c ≠ '\\' := by
  obtain ⟨hquote, hslash, hcontrol⟩ := hb
  refine ⟨?_, ?_, ?_⟩
  · by_contra hc
    have hlt : c.toNat < 0x20 := Nat.not_le.1 hc
    rw [encodeChar_of_le (by omega)] at hbytes
    obtain ⟨rfl, -⟩ := List.cons.inj hbytes
    refine hcontrol (UInt8.lt_iff_toNat_lt.2 ?_)
    rw [UInt8.toNat_ofNat']
    exact Nat.lt_of_le_of_lt (Nat.mod_le _ _) hlt
  · rintro rfl
    exact hquote (List.cons.inj hbytes).1.symm
  · rintro rfl
    exact hslash (List.cons.inj hbytes).1.symm

/-- Where the collected bytes are those of some characters, the content is written for them. The bytes
of one character stand together, since no escape begins among those that continue it. -/
theorem Collected.charsWritten {cs : List Char} {content : List UInt8}
    (h : Collected (Utf8.encodeChars cs) content) : CharsWritten cs content := by
  induction cs generalizing content with
  | nil =>
    generalize hall : Utf8.encodeChars [] = all at h
    cases h with
    | nil => rfl
    | literal hb h => cases hall
    | @escape c _ _ _ hc h =>
      exact absurd (List.append_eq_nil_iff.1 hall.symm).1 (Utf8.encodeChar_ne_nil c)
  | cons c cs ih =>
    rw [Utf8.encodeChars_cons] at h
    generalize hall : Utf8.encodeChar c ++ Utf8.encodeChars cs = all at h
    cases h with
    | nil => exact absurd (List.append_eq_nil_iff.1 hall).1 (Utf8.encodeChar_ne_nil c)
    | literal hb h =>
      obtain ⟨first, tail, hbytes, -, htail⟩ := Utf8.encodeChar_bytes c
      rw [hbytes] at hall
      obtain ⟨rfl, rfl⟩ := List.cons.inj hall
      obtain ⟨more, rfl, hmore⟩ := h.exists_of_continuations htail
      obtain ⟨hc, hquote, hslash⟩ := unescaped_of_literal hbytes hb
      exact ⟨_, more, .itself hc hquote hslash, ih hmore, by rw [hbytes, List.cons_append]⟩
    | escape hc h =>
      obtain ⟨rfl, rfl⟩ := Utf8.encodeChar_append_inj hall
      exact ⟨_, _, hc, ih h, rfl⟩

theorem decoded_leaves {bytes : List UInt8} {s : String} (h : (decoded bytes).Leaves text s rest) :
    bytes = Utf8.encodeChars s.toList ∧ rest = text := by
  rw [decoded] at h
  split at h
  · next cs hdecode =>
    obtain ⟨rfl, rfl⟩ := h.pure
    have hbytes := Utf8.eq_of_decodeInitial hdecode
    rw [List.append_nil] at hbytes
    rw [hbytes, String.toList_ofList]
    exact ⟨rfl, rfl⟩
  · obtain ⟨p, p', h⟩ := h
    cases h

/-- A string that could be read was written as one. -/
theorem stringBody_leaves {s : String} (h : stringBody.Leaves text s rest) :
    ∃ content, CharsWritten s.toList content ∧ text = content ++ 0x22 :: rest := by
  rw [stringBody] at h
  obtain ⟨bytes, between, hcontent, hdecoded⟩ := h.remaining.bind
  obtain ⟨content, hcollected, rfl⟩ := contentUpTo_leaves hcontent
  obtain ⟨rfl, rfl⟩ := decoded_leaves hdecoded
  exact ⟨content, hcollected.charsWritten, rfl⟩

/-! ### Numbers -/

theorem exists_eq_digitByte {b : UInt8} (h : isDigit b = true) : ∃ d < 10, b = digitByte d := by
  simp only [isDigit, Bool.and_eq_true, decide_eq_true_eq, UInt8.le_iff_toNat_le] at h
  have hlow : 48 ≤ b.toNat := h.1
  have hhigh : b.toNat ≤ 57 := h.2
  refine ⟨b.toNat - 48, by omega, ?_⟩
  exact Utf8.eq_ofNat_of_toNat (by omega)

/-- Digits are the text of a number unless they begin with a zero. -/
theorem exists_eq_decimal {b : UInt8} {tail : List UInt8}
    (hdigits : ∀ c ∈ b :: tail, isDigit c = true) (hb : b ≠ 0x30) :
    ∃ n, b :: tail = decimal n ∧ n ≠ 0 := by
  induction tail using List.reverseRecOn with
  | nil =>
    obtain ⟨d, hd, rfl⟩ := exists_eq_digitByte (hdigits b (by simp))
    refine ⟨d, (decimal_of_lt hd).symm, ?_⟩
    rintro rfl
    exact hb rfl
  | append_singleton tail c ih =>
    rw [← List.cons_append] at hdigits ⊢
    obtain ⟨n, hn, hzero⟩ := ih fun c hc => hdigits c (List.mem_append_left _ hc)
    obtain ⟨d, hd, rfl⟩ := exists_eq_digitByte (hdigits c (by simp))
    have hdiv : (n * 10 + d) / 10 = n := by omega
    have hmod : (n * 10 + d) % 10 = d := by omega
    refine ⟨n * 10 + d, ?_, by omega⟩
    rw [decimal_of_le (by omega), hdiv, hmod, hn]

/-- Where a digit stands, and no other digit behind it if it is a zero, a number begins. -/
theorem exists_decimal_prefix {b : UInt8} {tail : List UInt8} (hb : isDigit b = true)
    (hzero : b = 0x30 → EndsRun isDigit tail) :
    ∃ n rest, b :: tail = decimal n ++ rest ∧ EndsRun isDigit rest := by
  by_cases hfirst : b = 0x30
  · exact ⟨0, tail, by rw [hfirst]; rfl, hzero hfirst⟩
  · have hrun : (takeRun isDigit).Leaves (b :: tail) _ _ := ⟨Position.start, _, rfl⟩
    obtain ⟨hsplit, hdigits, hends⟩ := hrun.takeRun
    rw [List.takeWhile_cons_of_pos hb] at hsplit hdigits
    obtain ⟨n, hn, -⟩ := exists_eq_decimal hdigits hfirst
    exact ⟨n, _, by rw [← hn]; exact hsplit, hends⟩

theorem number_leaves_digits {negative : Bool} {numeral : Numeral}
    (h : (number negative).Leaves text numeral rest) :
    ∃ n tail, text = decimal n ++ tail ∧ EndsRun isDigit tail := by
  rw [number] at h
  cases text with
  | nil => exact absurd h.peek (fails_failHere _).not_leaves
  | cons b tail =>
    have hnext := h.peek
    generalize hhead : (b :: tail).head? = head at hnext
    split at hnext
    · cases hhead
    · cases hhead
      refine exists_decimal_prefix (by decide) fun _ c hc => ?_
      have hlast := hnext.advance.peek
      rw [Option.mem_def.1 hc] at hlast
      dsimp only at hlast
      split at hlast
      · exact absurd hlast (fails_failNext _).not_leaves
      · next hdigit => exact Bool.eq_false_iff.2 hdigit
    · next hne =>
      cases hhead
      split at hnext
      · next hdigit =>
        refine exists_decimal_prefix hdigit ?_
        rintro rfl
        exact absurd rfl hne
      · exact absurd hnext (Fails.after (fun _ => fails_failHere _) _).not_leaves

/-- A natural number that could be read is written with its digits alone and fits 64 bits. -/
theorem number_leaves {n : Nat} (h : (number false).Leaves text (.integer n) rest) :
    text = decimal n ++ rest ∧ n ≤ maxSignificand := by
  obtain ⟨m, tail, rfl, hends⟩ := number_leaves_digits h
  obtain ⟨p, p', h⟩ := h
  rw [number_absorb m p hends] at h
  have hnatural := mt (fun hnot => afterWhole_ne_natural hnot n _) (not_not.2 h)
  simp only [not_or, Nat.not_lt, Nat.le_zero] at hnatural
  obtain ⟨hpoint, hlower, hupper, hdropped, -⟩ := hnatural
  have hfits : m ≤ maxSignificand := by
    by_contra hbig
    exact absurd hdropped (Nat.pos_iff_ne_zero.1 (absorbWhole_pos_of_lt (Nat.not_le.1 hbig)))
  have hdelimited : Delimited tail := fun b hb =>
    ⟨hends b hb, fun heq => hpoint (heq ▸ hb), fun heq => hlower (heq ▸ hb),
      fun heq => hupper (heq ▸ hb)⟩
  rw [absorbWhole_decimal hfits, afterWhole_delimited _ hdelimited] at h
  cases h
  exact ⟨rfl, hfits⟩

/-! ### Forms that readers demand -/

/-- The reader demands a form: what it takes, blanks aside, is a form of what it makes of it. -/
def Demands (reader : Reader α) (form : α → List UInt8 → Prop) : Prop :=
  ∀ ⦃text x rest⦄, reader.Leaves text x rest →
    ∃ blanks written, Blanks blanks ∧ form x written ∧ text = blanks ++ (written ++ rest)

theorem demands_text : Reader.text.Demands StringWritten := by
  intro text s rest h
  rw [Reader.text] at h
  obtain ⟨blanks, b, tail, hblanks, rfl, -, hnext⟩ := h.value
  split at hnext
  · obtain ⟨content, hcontent, rfl⟩ := stringBody_leaves hnext.advance
    exact ⟨blanks, 0x22 :: (content ++ [0x22]), hblanks, ⟨content, hcontent, rfl⟩, by simp⟩
  · exact absurd hnext (fails_wrongKind _).not_leaves

theorem unsignedOf_leaves {numeral : Numeral} {x : UInt64}
    (h : (unsignedOf numeral).Leaves text x rest) :
    ∃ n : Nat, numeral = .integer n ∧ x = n.toUInt64 ∧ rest = text := by
  cases numeral with
  | float y => exact absurd h (fails_failHere _).not_leaves
  | integer n =>
    cases n with
    | ofNat n => exact ⟨n, rfl, h.pure⟩
    | negSucc n => exact absurd h (fails_failHere _).not_leaves

theorem demands_unsigned : unsigned.Demands UnsignedWritten := by
  intro text x rest h
  rw [unsigned] at h
  obtain ⟨blanks, b, tail, hblanks, rfl, -, hnext⟩ := h.value
  split at hnext
  · obtain ⟨numeral, between, ⟨p, p', hnumber⟩, hof⟩ := hnext.advance.bind
    obtain ⟨n, rfl, -, -⟩ := unsignedOf_leaves hof
    exact absurd hnumber (neverNatural_number_true _ _ _)
  · split at hnext
    · obtain ⟨numeral, between, hnumber, hof⟩ := hnext.bind
      obtain ⟨n, rfl, rfl, rfl⟩ := unsignedOf_leaves hof
      obtain ⟨hsplit, hfits⟩ := number_leaves hnumber
      have hlt : n < 2 ^ 64 := by
        rw [maxSignificand, twoTo_64] at hfits
        omega
      refine ⟨blanks, decimal n, hblanks, ?_, by rw [hsplit]⟩
      rw [UnsignedWritten, Nat.toUInt64, UInt64.toNat_ofNat', Nat.mod_eq_of_lt hlt]
    · exact absurd hnext (fails_wrongKind _).not_leaves

theorem Demands.optional {reader : Reader α} {form : α → List UInt8 → Prop}
    (h : reader.Demands form) : reader.optional.Demands (NullOr form) := by
  intro text x rest hleaves
  rw [Reader.optional] at hleaves
  obtain ⟨blanks, tail, hblanks, rfl, -, hnext⟩ := hleaves.pastBlanks
  split at hnext
  · next hhead =>
    obtain ⟨b, tail, rfl⟩ := List.exists_cons_of_ne_nil (show tail ≠ [] by rintro rfl; cases hhead)
    cases hhead
    obtain ⟨u, between, hword, hpure⟩ := hnext.advance.bind
    obtain rfl := word_leaves hword
    obtain ⟨rfl, rfl⟩ := hpure.pure
    exact ⟨blanks, nullText, hblanks, rfl, rfl⟩
  · obtain ⟨y, between, hread, hpure⟩ := hnext.bind
    obtain ⟨rfl, rfl⟩ := hpure.pure
    obtain ⟨blanks', written, hblanks', hform, rfl⟩ := h hread
    refine ⟨blanks ++ blanks', written, ?_, hform, by simp⟩
    exact List.forall_mem_append.2 ⟨hblanks, hblanks'⟩

/-! ### The forms are JSON -/

theorem isContent_of_charWritten {c : Char} {head rest : List UInt8} (h : CharWritten c head)
    (hrest : IsContent rest) : IsContent (head ++ rest) := by
  cases h with
  | itself hc hquote hslash => exact .char hc hquote hslash hrest
  | short hb => exact .short hb hrest
  | unit hword => exact .unit hword hrest
  | pair hhigh hlow => exact .unit hhigh (.unit hlow hrest)

theorem isContent_of_charsWritten {cs : List Char} {content : List UInt8}
    (h : CharsWritten cs content) : IsContent content := by
  induction cs generalizing content with
  | nil =>
    obtain rfl : content = [] := h
    exact .nil
  | cons c cs ih =>
    obtain ⟨head, tail, hhead, htail, rfl⟩ := h
    exact isContent_of_charWritten hhead (ih htail)

theorem isString_of_stringWritten {s : String} {text : List UInt8} (h : StringWritten s text) :
    IsString text := by
  obtain ⟨content, hcontent, rfl⟩ := h
  exact ⟨content, isContent_of_charsWritten hcontent, rfl⟩

theorem isText_of_stringWritten {s : String} {text : List UInt8} (h : StringWritten s text) :
    IsText text := .string (isString_of_stringWritten h)

theorem isText_of_unsignedWritten {n : UInt64} {text : List UInt8} (h : UnsignedWritten n text) :
    IsText text := by
  have hmagnitude : IsMagnitude (decimal n.toNat ++ ([] ++ [])) := .of n.toNat .absent .absent
  rw [h]
  simpa using IsText.number hmagnitude

end Reader

end StatQuery.Json
