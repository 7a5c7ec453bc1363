import StatQuery.Proofs.Json.Written

/-!
# The grammar of JSON texts

`IsText text` says that a text is a JSON value by its form alone, whatever it stands for and whether or
not it stands for anything: values nest to any depth, numbers have any size, and half of a surrogate
pair may be escaped on its own. The texts of a value in the narrower sense of `Json.WrittenAs` are
those that a reader of values understands; these are the ones that a reader can skip.
-/

namespace StatQuery.Json

open Reader

/-- The text `null`. -/
def nullText : List UInt8 := [0x6E, 0x75, 0x6C, 0x6C]

/-- The text may stand between the quotes of a string. -/
inductive IsContent : List UInt8 → Prop
  | nil : IsContent []
  | char {c : Char} {rest : List UInt8} (hc : ' ' ≤ c) (hquote : c ≠ '"') (hslash : c ≠ '\\')
      (h : IsContent rest) : IsContent (Utf8.encodeChar c ++ rest)
  | short {b content : UInt8} {rest : List UInt8} (hb : plainEscape? b = some content)
      (h : IsContent rest) : IsContent (0x5C :: b :: rest)
  /-- The escape of a code unit, which may be half of a surrogate pair. -/
  | unit {a b c d : UInt8} {code : Nat} {rest : List UInt8} (hword : hexWord? a b c d = some code)
      (h : IsContent rest) : IsContent (0x5C :: 0x75 :: a :: b :: c :: d :: rest)

/-- The text is a string between quotes. -/
def IsString (text : List UInt8) : Prop := ∃ content, IsContent content ∧ text = 0x22 :: (content ++ [0x22])

/-- The text consists of one decimal digit or more. -/
def IsDigits (text : List UInt8) : Prop := text ≠ [] ∧ ∀ b ∈ text, isDigit b = true

/-- The text is the fraction of a number, if it has one. -/
inductive IsFraction : List UInt8 → Prop
  | absent : IsFraction []
  | point {digits : List UInt8} (h : IsDigits digits) : IsFraction (0x2E :: digits)

/-- The text is the exponent of a number, if it has one. -/
inductive IsExponent : List UInt8 → Prop
  | absent : IsExponent []
  | power {e : UInt8} {sign digits : List UInt8} (he : e = 0x65 ∨ e = 0x45)
      (hsign : sign = [] ∨ sign = [0x2B] ∨ sign = [0x2D]) (h : IsDigits digits) :
      IsExponent (e :: (sign ++ digits))

/-- The text is a number without its sign. -/
inductive IsMagnitude : List UInt8 → Prop
  | of (whole : Nat) {fraction exponent : List UInt8} (hfraction : IsFraction fraction)
      (hexponent : IsExponent exponent) : IsMagnitude (decimal whole ++ (fraction ++ exponent))

mutual

/-- The text is a JSON value, without blanks around it. -/
inductive IsText : List UInt8 → Prop
  | null : IsText nullText
  | boolTrue : IsText [0x74, 0x72, 0x75, 0x65]
  | boolFalse : IsText [0x66, 0x61, 0x6C, 0x73, 0x65]
  | number {text : List UInt8} (h : IsMagnitude text) : IsText text
  | negative {text : List UInt8} (h : IsMagnitude text) : IsText (0x2D :: text)
  | string {text : List UInt8} (h : IsString text) : IsText text
  | array {body : List UInt8} (h : IsItems true body) : IsText (0x5B :: (body ++ [0x5D]))
  | object {body : List UInt8} (h : IsMembers true body) : IsText (0x7B :: (body ++ [0x7D]))

/-- The text lists items, up to the closing bracket; `first` tells that no item precedes it. -/
inductive IsItems : (first : Bool) → List UInt8 → Prop
  | nil {first : Bool} {blanks : List UInt8} (h : Blanks blanks) : IsItems first blanks
  | cons {first : Bool} {separator text more : List UInt8} (hseparator : Separates first separator)
      (htext : IsText text) (hmore : IsItems false more) :
      IsItems first (separator ++ (text ++ more))

/-- The text lists members, up to the closing brace; `first` tells that no member precedes it. -/
inductive IsMembers : (first : Bool) → List UInt8 → Prop
  | nil {first : Bool} {blanks : List UInt8} (h : Blanks blanks) : IsMembers first blanks
  | cons {first : Bool} {separator name before behind text more : List UInt8}
      (hseparator : Separates first separator) (hname : IsString name) (hbefore : Blanks before)
      (hbehind : Blanks behind) (htext : IsText text) (hmore : IsMembers false more) :
      IsMembers first (separator ++ (name ++ (before ++ (0x3A :: (behind ++ (text ++ more))))))

end

theorem IsDigits.exists_cons {text : List UInt8} (h : IsDigits text) :
    ∃ b tail, text = b :: tail ∧ isDigit b = true := by
  obtain ⟨hne, hdigits⟩ := h
  cases text with
  | nil => exact absurd rfl hne
  | cons b tail => exact ⟨b, tail, rfl, hdigits b (by simp)⟩

theorem IsMagnitude.exists_cons {text : List UInt8} (h : IsMagnitude text) :
    ∃ b tail, text = b :: tail ∧ isDigit b = true := by
  obtain ⟨whole, -, -⟩ := h
  obtain ⟨b, tail, hcons, -⟩ := exists_decimal_eq_cons whole
  have hdigit : isDigit b = true := isDigit_of_mem_decimal whole b (by simp [hcons])
  exact ⟨b, _, by rw [hcons, List.cons_append], hdigit⟩

/-- The first byte of a value is no blank and no closing bracket, and an `n` for `null` alone. -/
theorem IsText.exists_cons {text : List UInt8} (h : IsText text) :
    ∃ b tail, text = b :: tail ∧ isBlank b = false ∧ b ≠ 0x5D ∧ (b = 0x6E → text = nullText) := by
  cases h with
  | null => exact ⟨_, _, rfl, by decide, by decide, fun _ => rfl⟩
  | number h =>
    obtain ⟨b, tail, rfl, hdigit⟩ := h.exists_cons
    refine ⟨b, tail, rfl, isBlank_eq_false_of_isDigit hdigit, ?_, ?_⟩
    · rintro rfl
      exact absurd hdigit (by decide)
    · rintro rfl
      exact absurd hdigit (by decide)
  | string h =>
    obtain ⟨content, -, rfl⟩ := h
    exact ⟨_, _, rfl, by decide, by decide, fun hb => absurd hb (by decide)⟩
  | _ => exact ⟨_, _, rfl, by decide, by decide, fun hb => absurd hb (by decide)⟩

theorem IsText.length_pos {text : List UInt8} (h : IsText text) : 0 < text.length := by
  obtain ⟨b, tail, rfl, -⟩ := h.exists_cons
  exact Nat.succ_pos tail.length

theorem IsItems.delimited {body : List UInt8} (h : IsItems false body) (rest : List UInt8) :
    Delimited (body ++ 0x5D :: rest) := by
  cases h with
  | nil h => exact Delimited.blanks_append h (delimited_cons _ (by decide))
  | cons hseparator htext hmore =>
    rw [List.append_assoc]
    exact hseparator.delimited _

theorem IsMembers.delimited {body : List UInt8} (h : IsMembers false body) (rest : List UInt8) :
    Delimited (body ++ 0x7D :: rest) := by
  cases h with
  | nil h => exact Delimited.blanks_append h (delimited_cons _ (by decide))
  | cons hseparator hname hbefore hbehind htext hmore =>
    rw [List.append_assoc]
    exact hseparator.delimited _

/-! ### What follows the digits of a number -/

theorem IsExponent.endsRun {exponent rest : List UInt8} (h : IsExponent exponent)
    (hrest : Delimited rest) : EndsRun isDigit (exponent ++ rest) := by
  cases h with
  | absent => exact fun b hb => (hrest b hb).1
  | power he hsign hdigits =>
    intro b hb
    obtain rfl : _ = b := by simpa using hb
    rcases he with rfl | rfl <;> decide

theorem IsFraction.endsRun {fraction rest : List UInt8} (h : IsFraction fraction)
    (hrest : EndsRun isDigit rest) : EndsRun isDigit (fraction ++ rest) := by
  cases h with
  | absent => exact hrest
  | point hdigits =>
    intro b hb
    obtain rfl : 0x2E = b := by simpa using hb
    decide

end StatQuery.Json
