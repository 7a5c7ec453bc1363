/-!
# UTF-8

Texts as bytes and back. `Utf8.next?` takes the first character off a byte list, refusing overlong
forms, surrogates and values past the last code point; `Utf8.decodeInitial` takes off as many
characters as there are and leaves the rest, so that a reader can point at the first byte that is no
text. `decode?_encode` says that a written text reads back.
-/

namespace StatQuery.Utf8

/-- The bytes of a character. -/
def encodeChar (c : Char) : List UInt8 := String.utf8EncodeChar c

/-- The bytes of some characters. -/
def encodeChars (cs : List Char) : List UInt8 := cs.flatMap encodeChar

/-- The bytes of a text. -/
def encode (text : String) : List UInt8 := encodeChars text.toList

/-- Whether a byte continues a character. -/
def isContinuation (b : UInt8) : Bool := 0x80 ≤ b && b ≤ 0xBF

/-- The six bits that a continuation byte carries. -/
def payload (b : UInt8) : Nat := b.toNat - 0x80

/-- The character with a code point, if it is one and needs as many bytes as were read. -/
def scalar? (least code : Nat) : Option Char :=
  if least ≤ code ∧ code.isValidChar then some (Char.ofNat code) else none

/-- Adds the payloads of `count` continuation bytes to the bits read so far. -/
def continue? : (count : Nat) → (code : Nat) → List UInt8 → Option (Nat × List UInt8)
  | 0, code, rest => some (code, rest)
  | _ + 1, _, [] => none
  | count + 1, code, b :: rest =>
    if isContinuation b then continue? count (code * 64 + payload b) rest else none

/-- The character of a first byte's bits and `count` continuation bytes, at least `least`. -/
def multibyte? (count least code : Nat) (rest : List UInt8) : Option (Char × List UInt8) := do
  let (code, rest) ← continue? count code rest
  let c ← scalar? least code
  return (c, rest)

/-- The first character of a byte list and the bytes after it. -/
def next? : List UInt8 → Option (Char × List UInt8)
  | [] => none
  | a :: rest =>
    if a < 0x80 then some (Char.ofNat a.toNat, rest)
    else if a < 0xC0 then none
    else if a < 0xE0 then multibyte? 1 0x80 (a.toNat - 0xC0) rest
    else if a < 0xF0 then multibyte? 2 0x800 (a.toNat - 0xE0) rest
    else if a < 0xF8 then multibyte? 3 0x10000 (a.toNat - 0xF0) rest
    else none

/-- The characters that a byte list starts with, at most `limit`, and the bytes after them. -/
def decodeUpTo : (limit : Nat) → List UInt8 → List Char × List UInt8
  | 0, bytes => ([], bytes)
  | limit + 1, bytes =>
    match next? bytes with
    | none => ([], bytes)
    | some (c, rest) =>
      let (cs, left) := decodeUpTo limit rest
      (c :: cs, left)

/-- The longest run of characters that a byte list starts with, and the bytes after it. -/
def decodeInitial (bytes : List UInt8) : List Char × List UInt8 := decodeUpTo bytes.length bytes

/-- The text that a byte list stands for, if all of it is UTF-8. -/
def decode? (bytes : List UInt8) : Option String :=
  match decodeInitial bytes with
  | (cs, []) => some (String.ofList cs)
  | _ => none

theorem encodeChars_append (xs ys : List Char) :
    encodeChars (xs ++ ys) = encodeChars xs ++ encodeChars ys :=
  List.flatMap_append

@[simp] theorem encodeChars_cons (c : Char) (cs : List Char) :
    encodeChars (c :: cs) = encodeChar c ++ encodeChars cs := rfl

@[simp] theorem encodeChars_nil : encodeChars [] = [] := rfl

theorem scalar?_of_isValidChar {least code : Nat} (h : least ≤ code) (valid : code.isValidChar) :
    scalar? least code = some (Char.ofNat code) := if_pos ⟨h, valid⟩

private theorem toNat_small {n : Nat} (h : n < 256) : (UInt8.ofNat n).toNat = n := by
  simp; omega

private theorem lt_of_toNat {b limit : UInt8} (h : b.toNat < limit.toNat) : b < limit := h

private theorem not_lt_of_toNat {b limit : UInt8} (h : limit.toNat ≤ b.toNat) : ¬ b < limit :=
  Nat.not_lt.2 h

private theorem isContinuation_of_toNat {b : UInt8} {n : Nat} (h : b.toNat = n % 64 + 128) :
    isContinuation b = true := by
  simp [isContinuation, UInt8.le_iff_toNat_le, h]; omega

private theorem payload_of_toNat {b : UInt8} {n : Nat} (h : b.toNat = n % 64 + 128) :
    payload b = n % 64 := by unfold payload; omega

private theorem continue?_cons {count code n : Nat} {b : UInt8} (rest : List UInt8)
    (h : b.toNat = n % 64 + 128) :
    continue? (count + 1) code (b :: rest) = continue? count (code * 64 + n % 64) rest := by
  rw [continue?, if_pos (isContinuation_of_toNat h), payload_of_toNat h]

private theorem next?_one {n : Nat} {a : UInt8} (rest : List UInt8) (h : n ≤ 127)
    (ha : a.toNat = n) : next? (a :: rest) = some (Char.ofNat n, rest) := by
  rw [next?, if_pos (lt_of_toNat (by rw [ha]; exact Nat.lt_succ_of_le h)), ha]

private theorem next?_two {n : Nat} {a b : UInt8} (rest : List UInt8) (low : 128 ≤ n)
    (h : n ≤ 2047) (valid : n.isValidChar) (ha : a.toNat = n / 64 % 32 + 192)
    (hb : b.toNat = n % 64 + 128) : next? (a :: b :: rest) = some (Char.ofNat n, rest) := by
  have hcode : (a.toNat - 0xC0) * 64 + n % 64 = n := by omega
  have h1 : ¬ a < 0x80 := not_lt_of_toNat (by simp [ha])
  have h2 : ¬ a < 0xC0 := not_lt_of_toNat (by simp [ha])
  have h3 : a < 0xE0 := lt_of_toNat (by rw [ha]; simp; omega)
  rw [next?, if_neg h1, if_neg h2, if_pos h3, multibyte?, continue?_cons rest hb, hcode]
  simp [continue?, scalar?_of_isValidChar low valid]

private theorem next?_three {n : Nat} {a b c : UInt8} (rest : List UInt8) (low : 2048 ≤ n)
    (h : n ≤ 65535) (valid : n.isValidChar) (ha : a.toNat = n / 4096 % 16 + 224)
    (hb : b.toNat = n / 64 % 64 + 128) (hc : c.toNat = n % 64 + 128) :
    next? (a :: b :: c :: rest) = some (Char.ofNat n, rest) := by
  have hcode : ((a.toNat - 0xE0) * 64 + n / 64 % 64) * 64 + n % 64 = n := by omega
  have h1 : ¬ a < 0x80 := not_lt_of_toNat (by simp [ha])
  have h2 : ¬ a < 0xC0 := not_lt_of_toNat (by simp [ha])
  have h3 : ¬ a < 0xE0 := not_lt_of_toNat (by simp [ha])
  have h4 : a < 0xF0 := lt_of_toNat (by rw [ha]; simp; omega)
  rw [next?, if_neg h1, if_neg h2, if_neg h3, if_pos h4, multibyte?, continue?_cons _ hb,
    continue?_cons _ hc, hcode]
  simp [continue?, scalar?_of_isValidChar low valid]

private theorem next?_four {n : Nat} {a b c d : UInt8} (rest : List UInt8) (low : 65536 ≤ n)
    (valid : n.isValidChar) (ha : a.toNat = n / 262144 % 8 + 240)
    (hb : b.toNat = n / 4096 % 64 + 128) (hc : c.toNat = n / 64 % 64 + 128)
    (hd : d.toNat = n % 64 + 128) :
    next? (a :: b :: c :: d :: rest) = some (Char.ofNat n, rest) := by
  have hlast : n < 0xD800 ∨ 0xDFFF < n ∧ n < 0x110000 := valid
  have hcode : (((a.toNat - 0xF0) * 64 + n / 4096 % 64) * 64 + n / 64 % 64) * 64 + n % 64 = n := by
    omega
  have h1 : ¬ a < 0x80 := not_lt_of_toNat (by simp [ha])
  have h2 : ¬ a < 0xC0 := not_lt_of_toNat (by simp [ha])
  have h3 : ¬ a < 0xE0 := not_lt_of_toNat (by simp [ha])
  have h4 : ¬ a < 0xF0 := not_lt_of_toNat (by simp [ha])
  have h5 : a < 0xF8 := lt_of_toNat (by rw [ha]; simp; omega)
  rw [next?, if_neg h1, if_neg h2, if_neg h3, if_neg h4, if_pos h5, multibyte?, continue?_cons _ hb,
    continue?_cons _ hc, continue?_cons _ hd, hcode]
  simp [continue?, scalar?_of_isValidChar low valid]

/-- The first character is read off its own bytes, whatever follows. -/
theorem next?_encodeChar_append (c : Char) (rest : List UInt8) :
    next? (encodeChar c ++ rest) = some (c, rest) := by
  have valid : c.val.toNat.isValidChar := c.valid
  have back : Char.ofNat c.val.toNat = c := Char.ofNat_toNat c
  suffices h : next? (encodeChar c ++ rest) = some (Char.ofNat c.val.toNat, rest) by rw [h, back]
  unfold encodeChar String.utf8EncodeChar
  dsimp only
  split
  · next h => exact next?_one rest h (toNat_small (by omega))
  · next h1 =>
    split
    · next h =>
      exact next?_two rest (by omega) h valid (toNat_small (by omega)) (toNat_small (by omega))
    · next h2 =>
      split
      · next h =>
        exact next?_three rest (by omega) h valid (toNat_small (by omega)) (toNat_small (by omega))
          (toNat_small (by omega))
      · exact next?_four rest (by omega) valid (toNat_small (by omega)) (toNat_small (by omega))
          (toNat_small (by omega)) (toNat_small (by omega))

theorem encodeChar_ne_nil (c : Char) : encodeChar c ≠ [] := fun h => by
  have := next?_encodeChar_append c []
  rw [h] at this
  simp [next?] at this

theorem decodeUpTo_encodeChars (cs : List Char) {limit : Nat} (h : cs.length ≤ limit) :
    decodeUpTo limit (encodeChars cs) = (cs, []) := by
  induction cs generalizing limit with
  | nil => cases limit <;> rfl
  | cons c cs ih =>
    cases limit with
    | zero => simp at h
    | succ limit =>
      rw [encodeChars_cons, decodeUpTo, next?_encodeChar_append]
      simp [ih (Nat.le_of_succ_le_succ h)]

theorem length_le_length_encodeChars (cs : List Char) : cs.length ≤ (encodeChars cs).length := by
  induction cs with
  | nil => exact Nat.le_refl _
  | cons c cs ih =>
    have : 0 < (encodeChar c).length := List.length_pos_iff.2 (encodeChar_ne_nil c)
    simp only [encodeChars_cons, List.length_append, List.length_cons]
    omega

/-- A written text reads back as itself. -/
theorem decode?_encode (text : String) : decode? (encode text) = some text := by
  have : decodeInitial (encode text) = (text.toList, []) :=
    decodeUpTo_encodeChars _ (length_le_length_encodeChars _)
  simp [decode?, this]

end StatQuery.Utf8
