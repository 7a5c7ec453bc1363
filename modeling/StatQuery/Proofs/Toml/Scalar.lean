import StatQuery.Proofs.Toml.Scan
import StatQuery.Toml.Value

/-!
# Numbers and truth values read back

The decimal text of a natural number that fits 64 bits with a sign is one run of digits, so it is no
date, no time and no float, and it stands for that number (`scalar_digits`).
-/

namespace StatQuery.Toml

open Scan

namespace Scalar

/-- What is used of a digit: it has its value, it is no mark, and only one of them is zero. -/
theorem digitChar_digit : ∀ d < 10, (Nat.digitChar d).isDigit = true ∧
    digitValue (Nat.digitChar d) = d ∧ (Nat.digitChar d = '0' → d = 0) := by
  decide

theorem inRun_of_isDigit {c : Char} (h : c.isDigit = true) : inRun c = true := by
  simp [inRun, Char.isAlphanum, h]

theorem ne_of_isDigit {c d : Char} (h : c.isDigit = true) (hd : d.isDigit = false) : c ≠ d := by
  rintro rfl
  rw [h] at hd
  cases hd

/-! ### Decimal digits -/

theorem isDigit_of_mem_toDigits (n : Nat) : ∀ c ∈ Nat.toDigits 10 n, c.isDigit = true :=
  fun _ hmem => Nat.isDigit_of_mem_toDigits (by decide) (by decide) hmem

/-- Only the digits of zero begin with a zero. -/
theorem exists_toDigits_eq_cons (n : Nat) :
    ∃ c tail, Nat.toDigits 10 n = c :: tail ∧ (c = '0' → n = 0) := by
  induction n using Nat.strongRecOn with
  | ind n ih =>
    rcases Nat.lt_or_ge n 10 with h | h
    · exact ⟨_, [], Nat.toDigits_of_lt_base h, (digitChar_digit n h).2.2⟩
    · obtain ⟨c, tail, hcons, hzero⟩ := ih (n / 10) (by omega)
      refine ⟨c, tail ++ [Nat.digitChar (n % 10)], ?_, fun hc => ?_⟩
      · rw [Nat.toDigits_of_base_le (by decide) h, hcons, List.cons_append]
      · have := hzero hc
        omega

theorem value_toDigits (n : Nat) : value 10 (Nat.toDigits 10 n) = n := by
  induction n using Nat.strongRecOn with
  | ind n ih =>
    rcases Nat.lt_or_ge n 10 with h | h
    · rw [Nat.toDigits_of_lt_base h, value, List.foldl_cons, List.foldl_nil, Nat.zero_mul,
        Nat.zero_add, (digitChar_digit n h).2.1]
    · have hfront := ih (n / 10) (by omega)
      rw [value] at hfront
      rw [Nat.toDigits_of_base_le (by decide) h, value, List.foldl_append, hfront, List.foldl_cons,
        List.foldl_nil, (digitChar_digit (n % 10) (Nat.mod_lt n (by decide))).2.1]
      omega

variable {run : List Char}

theorem ungrouped_digits (hne : run ≠ []) (h : ∀ c ∈ run, c.isDigit = true) :
    ungrouped Char.isDigit run = some run := by
  induction run with
  | nil => exact absurd rfl hne
  | cons c run ih =>
    obtain ⟨hc, hrun⟩ := List.forall_mem_cons.1 h
    cases run with
    | nil => rw [ungrouped, if_pos hc]
    | cons d run =>
      have hd := ne_of_isDigit (hrun d List.mem_cons_self) (show '_'.isDigit = false by decide)
      rw [ungrouped, if_pos hc, ih (by simp) hrun]
      · rfl
      · simp
      · rintro rest heq
        exact hd (List.cons.inj heq).1

/-- A mark further on tells that a run is not all digits. -/
theorem date?_digits (h : ∀ c ∈ run, c.isDigit = true) : date? run = none := by
  unfold date?
  split
  · exact absurd rfl (ne_of_isDigit (h '-' (by simp)) (by decide))
  · rfl

theorem time?_digits (h : ∀ c ∈ run, c.isDigit = true) : time? run = none := by
  unfold time?
  split
  · exact absurd rfl (ne_of_isDigit (h ':' (by simp)) (by decide))
  · rfl

theorem splitSign_digits (h : ∀ c ∈ run, c.isDigit = true) : splitSign run = (false, run) := by
  unfold splitSign
  split
  · exact absurd rfl (ne_of_isDigit (h '-' (by simp)) (by decide))
  · exact absurd rfl (ne_of_isDigit (h '+' (by simp)) (by decide))
  · rfl

theorem wholeDigits_toDigits (n : Nat) :
    wholeDigits (Nat.toDigits 10 n) = some (Nat.toDigits 10 n) := by
  obtain ⟨c, tail, hcons, hzero⟩ := exists_toDigits_eq_cons n
  have hungrouped := ungrouped_digits (by simp [hcons]) (isDigit_of_mem_toDigits n)
  rw [wholeDigits, hungrouped, Option.filter_some, if_pos]
  by_cases hn : n = 0
  · subst hn
    rfl
  · have hc : c ≠ '0' := fun hc => hn (hzero hc)
    simp [hcons, hc]

theorem inRange?_of_lt {n : Nat} (h : n < twoTo 63) : inRange? n = some (n : Int) := by
  have hlow : -(twoTo 63 : Int) ≤ n := by
    generalize twoTo 63 = bound
    omega
  exact if_pos ⟨hlow, Int.ofNat_lt.2 h⟩

theorem integer?_toDigits {n : Nat} (h : n < twoTo 63) :
    integer? (Nat.toDigits 10 n) = some (n : Int) := by
  have hdigits := isDigit_of_mem_toDigits n
  unfold integer?
  dsimp only
  split
  · next heq => exact absurd rfl (ne_of_isDigit (hdigits 'x' (by simp [heq])) (by decide))
  · next heq => exact absurd rfl (ne_of_isDigit (hdigits 'o' (by simp [heq])) (by decide))
  · next heq => exact absurd rfl (ne_of_isDigit (hdigits 'b' (by simp [heq])) (by decide))
  · rw [splitSign_digits hdigits]
    dsimp only
    rw [wholeDigits_toDigits, Option.bind_eq_bind, Option.bind_some, value_toDigits,
      if_neg Bool.false_ne_true, inRange?_of_lt h]

theorem ofRun?_toDigits {n : Nat} (h : n < twoTo 63) :
    ofRun? (Nat.toDigits 10 n) = some (.integer n) := by
  have hdigits := isDigit_of_mem_toDigits n
  have htrue : Nat.toDigits 10 n ≠ ['t', 'r', 'u', 'e'] := fun heq =>
    absurd rfl (ne_of_isDigit (hdigits 't' (by simp [heq])) (by decide))
  have hfalse : Nat.toDigits 10 n ≠ ['f', 'a', 'l', 's', 'e'] := fun heq =>
    absurd rfl (ne_of_isDigit (hdigits 'f' (by simp [heq])) (by decide))
  have hdatetime : datetime? (Nat.toDigits 10 n) = none := by
    rw [datetime?, date?_digits hdigits, time?_digits hdigits]
  rw [ofRun?, if_neg htrue, if_neg hfalse, hdatetime, integer?_toDigits h]

/-- What a run can stand for. -/
theorem ofRun?_cases {value : Toml} (h : ofRun? run = some value) :
    (∃ b, value = .boolean b) ∨ (∃ text, value = .datetime text) ∨
      (∃ n, integer? run = some n ∧ value = .integer n) ∨ ∃ x, value = .float x := by
  unfold ofRun? at h
  split at h
  · cases h
    exact Or.inl ⟨true, rfl⟩
  · split at h
    · cases h
      exact Or.inl ⟨false, rfl⟩
    · split at h
      · cases h
        exact Or.inr (Or.inl ⟨_, rfl⟩)
      · split at h
        · next n hn =>
          cases h
          exact Or.inr (Or.inr (Or.inl ⟨n, hn, rfl⟩))
        · obtain ⟨x, -, rfl⟩ := Option.map_eq_some_iff.1 h
          exact Or.inr (Or.inr (Or.inr ⟨x, rfl⟩))

/-- A run that ends its line is a scalar of its own. -/
theorem split_run (hrun : ∀ c ∈ run, inRun c = true) (rest : List Char) :
    split (run ++ '\n' :: rest) = (run, '\n' :: rest) := by
  have hrest : EndsRun inRun ('\n' :: rest) := endsRun_cons (by decide) rest
  rw [split, takeWhile_append hrun hrest, dropWhile_append hrun hrest]
  rfl

end Scalar

namespace Scan

theorem scalar_run {run : List Char} (hrun : ∀ c ∈ run, Scalar.inRun c = true) {value : Toml}
    (hvalue : Scalar.ofRun? run = some value) (rest : List Char) :
    scalar (run ++ '\n' :: rest) = some (value, '\n' :: rest) := by
  rw [scalar, Scalar.split_run hrun]
  dsimp only
  rw [hvalue]
  rfl

theorem scalar_digits {n : Nat} (h : n < twoTo 63) (rest : List Char) :
    scalar (Nat.toDigits 10 n ++ '\n' :: rest) = some (.integer n, '\n' :: rest) :=
  scalar_run (fun c hmem => Scalar.inRun_of_isDigit (Scalar.isDigit_of_mem_toDigits n c hmem))
    (Scalar.ofRun?_toDigits h) rest

end Scan

end StatQuery.Toml
