import StatQuery.Proofs.Text.ByteOrder

/-!
# Reading UTF-8

The reader of bytes takes off exactly the bytes of the characters that it yields (`eq_of_next?`,
`eq_of_decodeInitial`). The first byte of a character never continues one and all others do
(`encodeChar_bytes`), so where some byte begins a character, the bytes before it are characters as well
(`exists_split`). `Whole` bytes are those that can be decoded.
-/

namespace StatQuery.Utf8

/-- The first byte begins a character, and the others continue it. -/
theorem encodeChar_bytes (c : Char) : ∃ b tail, encodeChar c = b :: tail ∧
    isContinuation b = false ∧ ∀ other ∈ tail, isContinuation other = true := by
  have hlast := code_lt c
  have hcode : c.toNat = c.val.toNat := rfl
  unfold encodeChar String.utf8EncodeChar
  dsimp only
  repeat' split
  all_goals
    refine ⟨_, _, rfl, ?_, ?_⟩
    · simp [isContinuation, UInt8.le_iff_toNat_le]
      omega
    · simp [isContinuation, UInt8.le_iff_toNat_le]
      try omega

/-! ### Taking characters off -/

/-- What some continuation bytes add to a code: six bits each. -/
theorem exists_of_continue? {count code code' : Nat} {bytes rest : List UInt8}
    (h : continue? (count + 1) code bytes = some (code', rest)) :
    ∃ b tail, bytes = b :: tail ∧ 0x80 ≤ b.toNat ∧ b.toNat ≤ 0xBF ∧
      continue? count (code * 64 + (b.toNat - 0x80)) tail = some (code', rest) := by
  cases bytes with
  | nil => cases h
  | cons b tail =>
    rw [continue?] at h
    split at h
    · next hb =>
      simp only [isContinuation, Bool.and_eq_true, decide_eq_true_eq, UInt8.le_iff_toNat_le] at hb
      exact ⟨b, tail, rfl, hb.1, hb.2, h⟩
    · cases h

theorem toNat_val_ofNat {n : Nat} (h : n.isValidChar) : (Char.ofNat n).val.toNat = n := by
  rw [Char.ofNat, dif_pos h]
  rfl

theorem eq_of_multibyte? {count least code : Nat} {bytes rest : List UInt8} {c : Char}
    (h : multibyte? count least code bytes = some (c, rest)) :
    least ≤ c.val.toNat ∧ continue? count code bytes = some (c.val.toNat, rest) := by
  rw [multibyte?] at h
  simp only [Option.bind_eq_bind, Option.bind_eq_some_iff] at h
  obtain ⟨⟨last, tail⟩, hcontinue, found, hscalar, hpure⟩ := h
  cases hpure
  rw [scalar?] at hscalar
  split at hscalar
  · next hvalid =>
    cases hscalar
    rw [toNat_val_ofNat hvalid.2]
    exact ⟨hvalid.1, hcontinue⟩
  · cases hscalar

/-- A byte is determined by its number. -/
theorem eq_ofNat_of_toNat {b : UInt8} {n : Nat} (h : b.toNat = n) : b = UInt8.ofNat n := by
  rw [← h]
  exact UInt8.ofNat_toNat.symm

/-- The bytes that are taken are those of the character. -/
theorem eq_of_next? {bytes rest : List UInt8} {c : Char} (h : next? bytes = some (c, rest)) :
    bytes = encodeChar c ++ rest := by
  cases bytes with
  | nil => cases h
  | cons a bytes =>
    have hlast := code_lt c
    have hbyte := a.toNat_lt
    simp only [next?, UInt8.lt_iff_toNat_lt, UInt8.reduceToNat] at h
    unfold encodeChar String.utf8EncodeChar
    dsimp only
    -- The number of bytes shows in the first of them, and the least code they may stand for is the
    -- one from which on the character is written with so many.
    split at h
    · have hvalid : a.toNat.isValidChar := .inl (by omega)
      cases h
      rw [toNat_val_ofNat hvalid, if_pos (by omega), List.singleton_append]
      exact congrArg (· :: rest) (eq_ofNat_of_toNat rfl)
    split at h
    · cases h
    split at h
    · obtain ⟨hleast, hfirst⟩ := eq_of_multibyte? h
      obtain ⟨b, tail, rfl, hb, hb', hcode⟩ := exists_of_continue? hfirst
      obtain ⟨hcode, rfl⟩ := Prod.mk.inj (Option.some.inj hcode)
      rw [if_neg (by omega), if_pos (by omega)]
      simp only [List.cons_append, List.nil_append, List.cons.injEq, and_true]
      exact ⟨eq_ofNat_of_toNat (by omega), eq_ofNat_of_toNat (by omega)⟩
    split at h
    · obtain ⟨hleast, hfirst⟩ := eq_of_multibyte? h
      obtain ⟨b, tail, rfl, hb, hb', hsecond⟩ := exists_of_continue? hfirst
      obtain ⟨b', tail, rfl, hc, hc', hcode⟩ := exists_of_continue? hsecond
      obtain ⟨hcode, rfl⟩ := Prod.mk.inj (Option.some.inj hcode)
      rw [if_neg (by omega), if_neg (by omega), if_pos (by omega)]
      simp only [List.cons_append, List.nil_append, List.cons.injEq, and_true]
      exact ⟨eq_ofNat_of_toNat (by omega), eq_ofNat_of_toNat (by omega),
        eq_ofNat_of_toNat (by omega)⟩
    split at h
    · obtain ⟨hleast, hfirst⟩ := eq_of_multibyte? h
      obtain ⟨b, tail, rfl, hb, hb', hsecond⟩ := exists_of_continue? hfirst
      obtain ⟨b', tail, rfl, hc, hc', hthird⟩ := exists_of_continue? hsecond
      obtain ⟨b'', tail, rfl, hd, hd', hcode⟩ := exists_of_continue? hthird
      obtain ⟨hcode, rfl⟩ := Prod.mk.inj (Option.some.inj hcode)
      rw [if_neg (by omega), if_neg (by omega), if_neg (by omega)]
      simp only [List.cons_append, List.nil_append, List.cons.injEq, and_true]
      exact ⟨eq_ofNat_of_toNat (by omega), eq_ofNat_of_toNat (by omega),
        eq_ofNat_of_toNat (by omega), eq_ofNat_of_toNat (by omega)⟩
    · cases h

theorem eq_of_decodeUpTo {limit : Nat} {bytes left : List UInt8} {cs : List Char}
    (h : decodeUpTo limit bytes = (cs, left)) : bytes = encodeChars cs ++ left := by
  induction limit generalizing bytes cs with
  | zero =>
    cases h
    rfl
  | succ limit ih =>
    rw [decodeUpTo] at h
    split at h
    · cases h
      rfl
    · next c rest hnext =>
      obtain ⟨rfl, rfl⟩ := Prod.mk.inj h
      rw [eq_of_next? hnext, encodeChars_cons, List.append_assoc, ← ih rfl]

theorem eq_of_decodeInitial {bytes left : List UInt8} {cs : List Char}
    (h : decodeInitial bytes = (cs, left)) : bytes = encodeChars cs ++ left := eq_of_decodeUpTo h

/-- Bytes that are UTF-8 are those of the text that they stand for. -/
theorem eq_encode_of_decode? {bytes : List UInt8} {text : String} (h : decode? bytes = some text) :
    bytes = encode text := by
  rw [decode?] at h
  split at h
  · next cs hdecode =>
    cases h
    rw [eq_of_decodeInitial hdecode, List.append_nil, encode, String.toList_ofList]
  · cases h

/-! ### Where characters begin -/

/-- What begins with the bytes of a character begins with no other. -/
theorem encodeChar_append_inj {c d : Char} {xs ys : List UInt8}
    (h : encodeChar c ++ xs = encodeChar d ++ ys) : c = d ∧ xs = ys := by
  have hfirst := next?_encodeChar_append c xs
  rw [h, next?_encodeChar_append] at hfirst
  obtain ⟨rfl, rfl⟩ := Prod.mk.inj (Option.some.inj hfirst)
  exact ⟨rfl, rfl⟩

/-- Before a byte that continues no character there are whole characters. -/
theorem exists_split {cs : List Char} {xs ys : List UInt8} {b : UInt8}
    (h : encodeChars cs = xs ++ b :: ys) (hb : isContinuation b = false) :
    ∃ before after, cs = before ++ after ∧ encodeChars before = xs ∧
      encodeChars after = b :: ys := by
  induction cs generalizing xs with
  | nil => simp at h
  | cons c cs ih =>
    rw [encodeChars_cons] at h
    rcases List.append_eq_append_iff.1 h with ⟨more, rfl, hmore⟩ | ⟨more, hchar, hmore⟩
    · obtain ⟨before, after, rfl, rfl, hafter⟩ := ih hmore
      exact ⟨c :: before, after, rfl, rfl, hafter⟩
    · cases more with
      | nil =>
        rw [List.append_nil] at hchar
        exact ⟨[c], cs, rfl, by simpa using hchar, hmore.symm⟩
      | cons first more =>
        obtain ⟨rfl, rfl⟩ := List.cons.inj hmore
        -- The byte belongs to the character, so it is the first of its bytes.
        obtain ⟨head, tail, hbytes, -, htail⟩ := encodeChar_bytes c
        rw [hbytes] at hchar
        cases xs with
        | nil => exact ⟨[], c :: cs, rfl, rfl, by simpa [hbytes] using hchar⟩
        | cons x xs =>
          have hmem : b ∈ tail := by
            rw [(List.cons.inj hchar).2]
            simp
          rw [htail b hmem] at hb
          cases hb

/-! ### Whole characters -/

/-- The bytes are those of whole characters. -/
def Whole (bytes : List UInt8) : Prop := ∃ cs, encodeChars cs = bytes

/-- Bytes can be decoded if they are those of whole characters. -/
theorem exists_decode?_iff {bytes : List UInt8} : (∃ text, decode? bytes = some text) ↔ Whole bytes := by
  constructor
  · rintro ⟨text, htext⟩
    exact ⟨text.toList, (eq_encode_of_decode? htext).symm⟩
  · rintro ⟨cs, rfl⟩
    refine ⟨String.ofList cs, ?_⟩
    rw [← decode?_encode, encode, String.toList_ofList]

theorem Whole.append {xs ys : List UInt8} (hx : Whole xs) (hy : Whole ys) : Whole (xs ++ ys) := by
  obtain ⟨cs, rfl⟩ := hx
  obtain ⟨ds, rfl⟩ := hy
  exact ⟨cs ++ ds, encodeChars_append cs ds⟩

/-- An ASCII byte is a character. -/
theorem encodeChar_ofNat {b : UInt8} (h : b < 0x80) : encodeChar (Char.ofNat b.toNat) = [b] := by
  have hnext : next? [b] = some (Char.ofNat b.toNat, []) := if_pos h
  have hbytes := eq_of_next? hnext
  rw [List.append_nil] at hbytes
  exact hbytes.symm

theorem Whole.cons {b : UInt8} {bytes : List UInt8} (hb : b < 0x80) (h : Whole bytes) :
    Whole (b :: bytes) := by
  have hfirst : Whole [b] := ⟨[Char.ofNat b.toNat], by simpa using encodeChar_ofNat hb⟩
  exact hfirst.append h

/-- What stands between two ASCII bytes. -/
theorem Whole.between {b b' : UInt8} {bytes : List UInt8} (h : Whole bytes) (hb : b < 0x80)
    (hb' : b' < 0x80) : Whole (b :: (bytes ++ [b'])) :=
  .cons hb (h.append (.cons hb' ⟨[], rfl⟩))

theorem Whole.split {xs ys : List UInt8} {b : UInt8} (h : Whole (xs ++ b :: ys))
    (hb : isContinuation b = false) : Whole xs ∧ Whole (b :: ys) := by
  obtain ⟨cs, hcs⟩ := h
  obtain ⟨before, after, -, hbefore, hafter⟩ := exists_split hcs hb
  exact ⟨⟨before, hbefore⟩, after, hafter⟩

/-- An ASCII byte continues no character. -/
theorem isContinuation_of_lt {b : UInt8} (h : b < 0x80) : isContinuation b = false := by
  refine Bool.eq_false_iff.2 fun hb => ?_
  simp only [isContinuation, Bool.and_eq_true, decide_eq_true_eq, UInt8.le_iff_toNat_le] at hb
  exact Nat.not_lt.2 hb.1 (UInt8.lt_iff_toNat_lt.1 h)

end StatQuery.Utf8
