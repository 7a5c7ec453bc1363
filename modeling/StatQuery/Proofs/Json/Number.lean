import StatQuery.Json.Number
import StatQuery.Proofs.Json.Cursor
import StatQuery.Text.Utf8

/-!
# Reading integers

The decimal text of an integer that fits 64 bits reads back as that integer. The digits of a natural
number are built from the front, as the reader absorbs them, so the induction drops the last digit.
-/

namespace StatQuery.Json

/-- The decimal text of a natural number. -/
def decimal (n : Nat) : List UInt8 := Utf8.encode (toString n)

/-- The decimal text of an integer. -/
def decimalInt (n : Int) : List UInt8 := Utf8.encode (toString n)

/-- The byte of a digit. -/
def digitByte (d : Nat) : UInt8 := (48 + d).toUInt8

theorem encodeChar_digitChar : ∀ d < 10, Utf8.encodeChar (Nat.digitChar d) = [digitByte d] := by
  decide

theorem digitByte_digit : ∀ d < 10, Reader.isDigit (digitByte d) = true ∧
    digitValue (digitByte d) = d ∧ (digitByte d = 0x30 → d = 0) := by
  decide

theorem decimal_eq (n : Nat) : decimal n = Utf8.encodeChars (Nat.toDigits 10 n) := by
  rw [decimal, Utf8.encode, Nat.toString_eq_ofList_toDigits, String.toList_ofList]

theorem decimal_of_lt {n : Nat} (h : n < 10) : decimal n = [digitByte n] := by
  rw [decimal_eq, Nat.toDigits_of_lt_base h, Utf8.encodeChars_cons, encodeChar_digitChar n h]
  rfl

theorem decimal_of_le {n : Nat} (h : 10 ≤ n) :
    decimal n = decimal (n / 10) ++ [digitByte (n % 10)] := by
  have hlast := encodeChar_digitChar (n % 10) (Nat.mod_lt n (by omega))
  rw [decimal_eq, decimal_eq, Nat.toDigits_of_base_le (by omega) h, Utf8.encodeChars_append,
    Utf8.encodeChars_cons, hlast]
  rfl

theorem isDigit_of_mem_decimal (n : Nat) : ∀ b ∈ decimal n, Reader.isDigit b = true := by
  induction n using Nat.strongRecOn with
  | ind n ih =>
    intro b hb
    rcases Nat.lt_or_ge n 10 with h | h
    · rw [decimal_of_lt h, List.mem_singleton] at hb
      rw [hb]
      exact (digitByte_digit n h).1
    · rw [decimal_of_le h, List.mem_append, List.mem_singleton] at hb
      rcases hb with hb | rfl
      · exact ih (n / 10) (by omega) b hb
      · exact (digitByte_digit (n % 10) (Nat.mod_lt n (by omega))).1

/-- Only the text of zero begins with a zero. -/
theorem exists_decimal_eq_cons (n : Nat) :
    ∃ b tail, decimal n = b :: tail ∧ (b = 0x30 → n = 0) := by
  induction n using Nat.strongRecOn with
  | ind n ih =>
    rcases Nat.lt_or_ge n 10 with h | h
    · exact ⟨_, [], decimal_of_lt h, (digitByte_digit n h).2.2⟩
    · obtain ⟨b, tail, hcons, hzero⟩ := ih (n / 10) (by omega)
      refine ⟨b, tail ++ [digitByte (n % 10)], ?_, fun hb => ?_⟩
      · rw [decimal_of_le h, hcons, List.cons_append]
      · have := hzero hb
        omega

theorem decimalInt_ofNat (n : Nat) : decimalInt (Int.ofNat n) = decimal n := rfl

theorem decimalInt_negSucc (n : Nat) : decimalInt (Int.negSucc n) = 0x2D :: decimal (n + 1) := by
  have htext : toString (Int.negSucc n) = "-" ++ toString (n + 1) := rfl
  rw [decimalInt, htext, Utf8.encode, String.toList_append, Utf8.encodeChars_append]
  rfl

/-- The significand of a number that fits it is that number. -/
theorem absorbWhole_decimal {n : Nat} (h : n ≤ maxSignificand) : absorbWhole (decimal n) = (n, 0) := by
  induction n using Nat.strongRecOn with
  | ind n ih =>
    rcases Nat.lt_or_ge n 10 with hlt | hge
    · have hvalue := (digitByte_digit n hlt).2.1
      simp [decimal_of_lt hlt, absorbWhole, hvalue, h]
    · have hfront : absorbWhole (decimal (n / 10)) = (n / 10, 0) := ih (n / 10) (by omega) (by omega)
      have hvalue := (digitByte_digit (n % 10) (Nat.mod_lt n (by omega))).2.1
      have hnext : n / 10 * 10 + n % 10 = n := by omega
      rw [decimal_of_le hge, absorbWhole, List.foldl_append, ← absorbWhole, hfront]
      simp [hvalue, hnext, h]

/-- Digits are dropped of a number that does not fit the significand. -/
theorem absorbWhole_pos_of_lt {n : Nat} (h : maxSignificand < n) : 0 < (absorbWhole (decimal n)).2 := by
  induction n using Nat.strongRecOn with
  | ind n ih =>
    have hge : 10 ≤ n := by
      rw [maxSignificand, twoTo_64] at h
      omega
    have hvalue := (digitByte_digit (n % 10) (Nat.mod_lt n (by omega))).2.1
    have hnext : n / 10 * 10 + n % 10 = n := by omega
    rw [decimal_of_le hge, absorbWhole, List.foldl_append, ← absorbWhole]
    rcases Nat.lt_or_ge maxSignificand (n / 10) with hlt | hle
    · have hdropped : 0 < (absorbWhole (decimal (n / 10))).2 := ih (n / 10) (by omega) hlt
      simp [hdropped]
    · rw [absorbWhole_decimal hle]
      simp [hvalue, hnext, Nat.not_le.2 h]

namespace Reader

/-- Behind the digits of an integer nothing is left to be read of it. -/
theorem afterWhole_delimited {negative : Bool} {n : Nat} {rest : List UInt8} (p : Position)
    (hrest : Delimited rest) :
    afterWhole negative n 0 ⟨rest, p⟩ =
      .ok (if !negative then .integer n
        else if n = 0 || twoTo 63 < n then .float (-n.toUInt64.toFloat)
        else .integer (-n), ⟨rest, p⟩) := by
  rw [afterWhole, bind_of_ok (peek_eq rest p)]
  generalize hhead : rest.head? = head
  split
  · exact absurd rfl (hrest _ hhead).2.1
  · exact absurd rfl (hrest _ hhead).2.2.1
  · exact absurd rfl (hrest _ hhead).2.2.2
  · rw [if_neg (Nat.lt_irrefl 0)]
    split
    · rfl
    · split <;> rfl

/-- The digits before a point or an exponent are absorbed, whatever follows them. -/
theorem number_absorb {negative : Bool} (n : Nat) {rest : List UInt8} (p : Position)
    (hrest : EndsRun isDigit rest) :
    number negative ⟨decimal n ++ rest, p⟩ =
      afterWhole negative (absorbWhole (decimal n)).1 (absorbWhole (decimal n)).2
        ⟨rest, p.afterAll (decimal n)⟩ := by
  obtain ⟨b, tail, hcons, hzero⟩ := exists_decimal_eq_cons n
  have hdigit : isDigit b = true := isDigit_of_mem_decimal n b (by simp [hcons])
  have hdigits := takeRun_run p (isDigit_of_mem_decimal n) hrest
  rw [number, bind_of_ok (peek_eq _ p)]
  generalize hhead : (decimal n ++ rest).head? = head
  split
  · simp [hcons] at hhead
  · have hb : b = 0x30 := by simpa [hcons] using hhead
    obtain rfl := hzero hb
    rw [absorbWhole_decimal (Nat.zero_le _), decimal_of_lt (by omega), List.singleton_append]
    rw [bind_of_ok (advance_cons _ rest p), bind_of_ok (peek_eq rest _)]
    generalize hnext : rest.head? = next
    split
    · next c => rw [if_neg (by simp [hrest c hnext])]; rfl
    · rfl
  · next c _ =>
    have hb : b = c := by simpa [hcons] using hhead
    rw [if_pos (hb ▸ hdigit)]
    change (takeRun isDigit >>= _) _ = _
    rw [bind_of_ok hdigits]

/-- The digits of a number that fits 64 bits are absorbed as that number. -/
theorem number_decimal {negative : Bool} {n : Nat} {rest : List UInt8} (p : Position)
    (h : n ≤ maxSignificand) (hrest : Delimited rest) :
    number negative ⟨decimal n ++ rest, p⟩ =
      afterWhole negative n 0 ⟨rest, p.afterAll (decimal n)⟩ := by
  have hends : EndsRun isDigit rest := fun b hb => (hrest b hb).1
  rw [number_absorb n p hends, absorbWhole_decimal h]

/-- An integer without a sign is read back from its digits. -/
theorem number_natural {n : Nat} {rest : List UInt8} (p : Position) (h : n < twoTo 64)
    (hrest : Delimited rest) :
    number false ⟨decimal n ++ rest, p⟩ = .ok (.integer n, ⟨rest, p.afterAll (decimal n)⟩) := by
  have hmax : n ≤ maxSignificand := Nat.le_sub_one_of_lt h
  rw [number_decimal p hmax hrest, afterWhole_delimited _ hrest]
  rfl

/-- A negative integer is read back from the digits after its sign. -/
theorem number_negative {n : Nat} {rest : List UInt8} (p : Position) (h : n + 1 ≤ twoTo 63)
    (hrest : Delimited rest) :
    number true ⟨decimal (n + 1) ++ rest, p⟩ =
      .ok (.integer (Int.negSucc n), ⟨rest, p.afterAll (decimal (n + 1))⟩) := by
  have hmax : n + 1 ≤ maxSignificand := by
    rw [maxSignificand, twoTo_64]
    rw [twoTo_63] at h
    omega
  rw [number_decimal p hmax hrest, afterWhole_delimited _ hrest]
  have hfits : (n + 1 = 0 || decide (twoTo 63 < n + 1)) = false := by
    simp only [Bool.or_eq_false_iff, decide_eq_false_iff_not]
    omega
  simp only [hfits]
  rfl

end Reader

end StatQuery.Json
