import StatQuery.Json.Text
import StatQuery.Proofs.Json.Cursor

/-!
# Reading strings

`CharWritten c text` lists the ways in which a character may stand between the quotes: as itself, by a
short escape, by its code unit, or by a surrogate pair. However its characters are written, a string
reads back (`stringBody_written`). The reader collects bytes and decodes them at the closing quote, so
what one character contributes is its UTF-8 form, whichever way it was written.
-/

namespace StatQuery.Json

/-- The text stands for the character between the quotes of a string. -/
inductive CharWritten : Char → List UInt8 → Prop
  | itself {c : Char} : ' ' ≤ c → c ≠ '"' → c ≠ '\\' → CharWritten c (Utf8.encodeChar c)
  | short {b content : UInt8} : Reader.plainEscape? b = some content →
      CharWritten (Char.ofNat content.toNat) [0x5C, b]
  | unit {a b c d : UInt8} {code : Nat} : Reader.hexWord? a b c d = some code →
      ¬ (0xD800 ≤ code ∧ code ≤ 0xDFFF) → CharWritten (Char.ofNat code) [0x5C, 0x75, a, b, c, d]
  | pair {a b c d a' b' c' d' : UInt8} {high low : Nat} : Reader.hexWord? a b c d = some high →
      Reader.hexWord? a' b' c' d' = some low → 0xD800 ≤ high → high ≤ 0xDBFF → 0xDC00 ≤ low →
      low ≤ 0xDFFF →
      CharWritten (Char.ofNat ((high - 0xD800) * 0x400 + (low - 0xDC00) + 0x10000))
        [0x5C, 0x75, a, b, c, d, 0x5C, 0x75, a', b', c', d']

/-- The text stands for the characters between the quotes of a string. -/
def CharsWritten : List Char → List UInt8 → Prop
  | [], text => text = []
  | c :: cs, text => ∃ head tail, CharWritten c head ∧ CharsWritten cs tail ∧ text = head ++ tail

/-- The text is a string between quotes. -/
def StringWritten (s : String) (text : List UInt8) : Prop :=
  ∃ content, CharsWritten s.toList content ∧ text = 0x22 :: (content ++ [0x22])

namespace Reader

/-! ### One character -/

theorem encodeChar_of_le {c : Char} (h : c.toNat ≤ 0x7F) :
    Utf8.encodeChar c = [UInt8.ofNat c.toNat] := by
  rw [Utf8.encodeChar, String.utf8EncodeChar]
  exact if_pos h

theorem le_of_mem_encodeChar {c : Char} (h : 0x7F < c.toNat) :
    ∀ b ∈ Utf8.encodeChar c, 0x80 ≤ b.toNat := by
  have hnot : ¬ c.val.toNat ≤ 0x7F := Nat.not_le.2 h
  intro b hb
  simp only [Utf8.encodeChar, String.utf8EncodeChar, if_neg hnot] at hb
  split at hb
  · simp only [List.mem_cons, List.not_mem_nil, or_false] at hb
    rcases hb with rfl | rfl <;> rw [UInt8.toNat_ofNat'] <;> omega
  · split at hb
    · simp only [List.mem_cons, List.not_mem_nil, or_false] at hb
      rcases hb with rfl | rfl | rfl <;> rw [UInt8.toNat_ofNat'] <;> omega
    · simp only [List.mem_cons, List.not_mem_nil, or_false] at hb
      rcases hb with rfl | rfl | rfl | rfl <;> rw [UInt8.toNat_ofNat'] <;> omega

/-- A byte that stands for itself in a string. -/
def Literal (b : UInt8) : Prop := b ≠ 0x22 ∧ b ≠ 0x5C ∧ ¬ b < 0x20

theorem literal_of_toNat {b : UInt8} (hquote : b.toNat ≠ 0x22) (hslash : b.toNat ≠ 0x5C)
    (hcontrol : 0x20 ≤ b.toNat) : Literal b :=
  ⟨fun h => hquote (congrArg UInt8.toNat h), fun h => hslash (congrArg UInt8.toNat h),
    fun h => Nat.not_lt.2 hcontrol (UInt8.lt_iff_toNat_lt.1 h)⟩

theorem literal_of_mem_encodeChar {c : Char} (h : ' ' ≤ c) (hquote : c ≠ '"') (hslash : c ≠ '\\') :
    ∀ b ∈ Utf8.encodeChar c, Literal b := by
  have toNat_ne : ∀ {d : Char}, c ≠ d → c.toNat ≠ d.toNat := fun hne heq =>
    hne (Char.ext (UInt32.toNat_inj.1 heq))
  have hcontrol : 0x20 ≤ c.toNat := h
  intro b hb
  rcases Nat.lt_or_ge 0x7F c.toNat with hbig | hsmall
  · have := le_of_mem_encodeChar hbig b hb
    exact literal_of_toNat (by omega) (by omega) (by omega)
  · rw [encodeChar_of_le hsmall, List.mem_singleton] at hb
    have hb : b.toNat = c.toNat := by rw [hb, UInt8.toNat_ofNat']; omega
    exact literal_of_toNat (hb ▸ toNat_ne hquote) (hb ▸ toNat_ne hslash) (hb ▸ hcontrol)

theorem contentUpTo_literals {bytes : List UInt8} (h : ∀ b ∈ bytes, Literal b) (limit : Nat)
    (rest : List UInt8) (p : Position) {content : List UInt8} {c : Cursor}
    (hrest : contentUpTo limit ⟨rest, p.afterAll bytes⟩ = .ok (content, c)) :
    contentUpTo (limit + bytes.length) ⟨bytes ++ rest, p⟩ = .ok (bytes ++ content, c) := by
  induction bytes generalizing p with
  | nil => exact hrest
  | cons b bytes ih =>
    obtain ⟨hquote, hslash, hcontrol⟩ := h b (by simp)
    rw [List.length_cons, ← Nat.add_assoc, contentUpTo, bind_of_ok (peek_eq _ p)]
    simp only [List.cons_append, List.head?_cons]
    rw [bind_of_ok (advance_cons b _ p), if_neg hquote, if_neg hslash, if_neg hcontrol,
      bind_of_ok (ih (fun b hb => h b (by simp [hb])) _ hrest)]
    rfl

theorem contentUpTo_escape {limit : Nat} {text rest bytes content : List UInt8} {p p' : Position}
    {c : Cursor} (h : escape ⟨text, p.after 0x5C⟩ = .ok (bytes, ⟨rest, p'⟩))
    (hrest : contentUpTo limit ⟨rest, p'⟩ = .ok (content, c)) :
    contentUpTo (limit + 1) ⟨0x5C :: text, p⟩ = .ok (bytes ++ content, c) := by
  rw [contentUpTo, bind_of_ok (peek_eq _ p)]
  simp only [List.head?_cons]
  rw [bind_of_ok (advance_cons _ text p), if_neg (by decide), if_pos trivial, bind_of_ok h,
    bind_of_ok hrest]
  rfl

theorem encodeChar_plainEscape? {b content : UInt8} (h : plainEscape? b = some content) :
    Utf8.encodeChar (Char.ofNat content.toNat) = [content] ∧ b ≠ 0x75 := by
  unfold plainEscape? at h
  split at h <;> cases h <;> decide

theorem escape_short {b content : UInt8} (h : plainEscape? b = some content) (rest : List UInt8)
    (p : Position) : escape ⟨b :: rest, p⟩ = .ok ([content], ⟨rest, p.after b⟩) := by
  rw [escape, bind_of_ok (peek_eq _ p)]
  simp only [List.head?_cons]
  rw [bind_of_ok (advance_cons b rest p), if_neg (encodeChar_plainEscape? h).2]
  simp only [h]
  rfl

theorem hexUnit_word {a b c d : UInt8} {code : Nat} (h : hexWord? a b c d = some code)
    (rest : List UInt8) (p : Position) :
    hexUnit ⟨a :: b :: c :: d :: rest, p⟩ = .ok (code, ⟨rest, p.afterAll [a, b, c, d]⟩) := by
  have hget : (get : Reader Cursor) ⟨a :: b :: c :: d :: rest, p⟩ =
      .ok (⟨a :: b :: c :: d :: rest, p⟩, ⟨a :: b :: c :: d :: rest, p⟩) := rfl
  rw [hexUnit, bind_of_ok hget]
  dsimp only
  rw [bind_of_ok (advance_cons a _ p), bind_of_ok (advance_cons b _ _),
    bind_of_ok (advance_cons c _ _), bind_of_ok (advance_cons d rest _)]
  simp only [h]
  rfl

/-- The escape of a code unit that is no half of a pair. -/
theorem escape_unit {a b c d : UInt8} {code : Nat} (h : hexWord? a b c d = some code)
    (hcode : ¬ (0xD800 ≤ code ∧ code ≤ 0xDFFF)) (rest : List UInt8) (p : Position) :
    escape ⟨0x75 :: a :: b :: c :: d :: rest, p⟩ =
      .ok (Utf8.encodeChar (Char.ofNat code), ⟨rest, p.afterAll [0x75, a, b, c, d]⟩) := by
  rw [escape, bind_of_ok (peek_eq _ p)]
  simp only [List.head?_cons]
  rw [bind_of_ok (advance_cons _ _ p), if_pos trivial, unicodeEscape, bind_of_ok (hexUnit_word h rest _)]
  rw [if_neg (by simp only [Bool.and_eq_true, decide_eq_true_eq]; omega),
    if_pos (by simp only [Bool.or_eq_true, decide_eq_true_eq]; omega)]
  rfl

theorem pairByte_cons (b : UInt8) (rest : List UInt8) (p : Position) :
    pairByte b ⟨b :: rest, p⟩ = .ok ((), ⟨rest, p.after b⟩) := by
  rw [pairByte, bind_of_ok (peek_eq _ p)]
  simp only [List.head?_cons]
  rw [bind_of_ok (advance_cons b rest p), if_pos trivial]
  rfl

/-- What must follow the former half of a surrogate pair. -/
def lowHalf (high : Nat) : Reader (List UInt8) := do
  pairByte 0x5C
  pairByte 0x75
  let low ← hexUnit
  if 0xDC00 ≤ low && low ≤ 0xDFFF then
    return Utf8.encodeChar (Char.ofNat ((high - 0xD800) * 0x400 + (low - 0xDC00) + 0x10000))
  else failHere .loneSurrogate

theorem escape_high {a b c d : UInt8} {high : Nat} (hhigh : hexWord? a b c d = some high)
    (h1 : 0xD800 ≤ high) (h2 : high ≤ 0xDBFF) (rest : List UInt8) (p : Position) :
    escape ⟨0x75 :: a :: b :: c :: d :: rest, p⟩ =
      lowHalf high ⟨rest, p.afterAll [0x75, a, b, c, d]⟩ := by
  rw [escape, bind_of_ok (peek_eq _ p)]
  simp only [List.head?_cons]
  rw [bind_of_ok (advance_cons _ _ p), if_pos trivial, unicodeEscape, bind_of_ok (hexUnit_word hhigh _ _)]
  rw [if_neg (by simp only [Bool.and_eq_true, decide_eq_true_eq]; omega),
    if_neg (by simp only [Bool.or_eq_true, decide_eq_true_eq]; omega)]
  rfl

/-- The escape of a surrogate pair. -/
theorem escape_pair {a b c d a' b' c' d' : UInt8} {high low : Nat}
    (hhigh : hexWord? a b c d = some high) (hlow : hexWord? a' b' c' d' = some low)
    (h1 : 0xD800 ≤ high) (h2 : high ≤ 0xDBFF) (h3 : 0xDC00 ≤ low) (h4 : low ≤ 0xDFFF)
    (rest : List UInt8) (p : Position) :
    escape ⟨0x75 :: a :: b :: c :: d :: 0x5C :: 0x75 :: a' :: b' :: c' :: d' :: rest, p⟩ =
      .ok (Utf8.encodeChar (Char.ofNat ((high - 0xD800) * 0x400 + (low - 0xDC00) + 0x10000)),
        ⟨rest, p.afterAll [0x75, a, b, c, d, 0x5C, 0x75, a', b', c', d']⟩) := by
  rw [escape_high hhigh h1 h2, lowHalf, bind_of_ok (pairByte_cons _ _ _),
    bind_of_ok (pairByte_cons _ _ _), bind_of_ok (hexUnit_word hlow rest _)]
  rw [if_pos (by simp only [Bool.and_eq_true, decide_eq_true_eq]; omega)]
  rfl

/-! ### A whole string -/

/-- A character, however written, contributes its bytes. The number of steps left is kept above the
number `n` of bytes that follow it. -/
theorem contentUpTo_char {c : Char} {head rest content : List UInt8} {n : Nat} {p : Position}
    {cursor : Cursor} (h : CharWritten c head)
    (hrest : ∀ limit, n < limit →
      contentUpTo limit ⟨rest, p.afterAll head⟩ = .ok (content, cursor)) {limit : Nat}
    (hlimit : head.length + n < limit) :
    contentUpTo limit ⟨head ++ rest, p⟩ = .ok (Utf8.encodeChar c ++ content, cursor) := by
  cases h with
  | itself hc hquote hslash =>
    obtain ⟨left, rfl⟩ : ∃ left, limit = left + (Utf8.encodeChar c).length :=
      ⟨limit - (Utf8.encodeChar c).length, by omega⟩
    exact contentUpTo_literals (literal_of_mem_encodeChar hc hquote hslash) left rest p
      (hrest left (by omega))
  | short hb =>
    simp only [List.length_cons, List.length_nil] at hlimit
    obtain ⟨left, rfl⟩ : ∃ left, limit = left + 1 := ⟨limit - 1, by omega⟩
    rw [(encodeChar_plainEscape? hb).1]
    exact contentUpTo_escape (escape_short hb rest _) (hrest left (by omega))
  | unit hword hcode =>
    simp only [List.length_cons, List.length_nil] at hlimit
    obtain ⟨left, rfl⟩ : ∃ left, limit = left + 1 := ⟨limit - 1, by omega⟩
    exact contentUpTo_escape (escape_unit hword hcode rest _) (hrest left (by omega))
  | pair hhigh hlow h1 h2 h3 h4 =>
    simp only [List.length_cons, List.length_nil] at hlimit
    obtain ⟨left, rfl⟩ : ∃ left, limit = left + 1 := ⟨limit - 1, by omega⟩
    exact contentUpTo_escape (escape_pair hhigh hlow h1 h2 h3 h4 rest _) (hrest left (by omega))

theorem contentUpTo_chars {cs : List Char} {content : List UInt8} (h : CharsWritten cs content)
    (rest : List UInt8) (p : Position) {limit : Nat} (hlimit : content.length < limit) :
    contentUpTo limit ⟨content ++ 0x22 :: rest, p⟩ =
      .ok (Utf8.encodeChars cs, ⟨rest, p.afterAll (content ++ [0x22])⟩) := by
  induction cs generalizing content p limit with
  | nil =>
    obtain rfl : content = [] := h
    cases limit with
    | zero => exact absurd hlimit (Nat.not_lt_zero _)
    | succ limit => rfl
  | cons c cs ih =>
    obtain ⟨head, tail, hhead, htail, rfl⟩ := h
    rw [List.length_append] at hlimit
    have hrest := fun limit (hlt : tail.length < limit) => ih htail (p.afterAll head) hlt
    rw [List.append_assoc, contentUpTo_char hhead hrest hlimit, Utf8.encodeChars_cons,
      List.append_assoc, Position.afterAll_append p head]

/-- The bytes of some characters are decoded to those characters. -/
theorem decoded_encodeChars (cs : List Char) (c : Cursor) :
    decoded (Utf8.encodeChars cs) c = .ok (String.ofList cs, c) := by
  have h : Utf8.decodeInitial (Utf8.encodeChars cs) = (cs, []) :=
    Utf8.decodeUpTo_encodeChars cs (Utf8.length_le_length_encodeChars cs)
  rw [decoded]
  simp only [h]
  rfl

/-- A string is read back from its text, however its characters are written. -/
theorem stringBody_written {s : String} {content : List UInt8} (h : CharsWritten s.toList content)
    (rest : List UInt8) (p : Position) :
    stringBody ⟨content ++ 0x22 :: rest, p⟩ =
      .ok (s, ⟨rest, p.afterAll (content ++ [0x22])⟩) := by
  have hlimit : content.length < (content ++ 0x22 :: rest).length + 1 := by
    rw [List.length_append]
    omega
  rw [stringBody, bind_of_ok (remaining_eq _ p), bind_of_ok (contentUpTo_chars h rest p hlimit),
    decoded_encodeChars, String.ofList_toList]

end Reader

end StatQuery.Json
