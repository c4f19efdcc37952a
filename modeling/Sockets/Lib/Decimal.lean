/-
Numbers as decimal text: what `%d` prints of an integer is read back as that
integer (`readInt_intText`), and digits without a leading zero are what is
printed of their number (`toDigits_ofDigitChars`).
-/
import Mathlib.Data.List.TakeWhile

namespace Sockets

/-! ## Digits -/

theorem toDigits_isDigit {n : Nat} : ∀ c ∈ Nat.toDigits 10 n, c.isDigit = true :=
  fun _ hc => Nat.isDigit_of_mem_toDigits (by decide) (by decide) hc

/-- What is not a digit is not in the text of a number. -/
theorem notMem_toDigits {c : Char} (hc : c.isDigit = false) (n : Nat) : c ∉ Nat.toDigits 10 n :=
  fun hm => absurd (toDigits_isDigit c hm) (by simp [hc])

theorem digitChar_of_isDigit {c : Char} (hc : c.isDigit = true) :
    c.toNat - '0'.toNat < 10 ∧ Nat.digitChar (c.toNat - '0'.toNat) = c := by
  have hzero : '0'.toNat = 48 := rfl
  simp only [Char.isDigit, Bool.and_eq_true, decide_eq_true_eq] at hc
  have hrange : 48 ≤ c.toNat ∧ c.toNat ≤ 57 := hc
  refine ⟨by omega, Char.toNat_inj.mp ?_⟩
  rw [Nat.toNat_digitChar_of_lt_ten (by omega)]
  omega

/-- Digits behind the text of a number that is not zero. -/
theorem toDigits_append {digits : List Char} (hdigits : ∀ c ∈ digits, c.isDigit = true) {n : Nat} (hn : 0 < n) :
    Nat.toDigits 10 n ++ digits = Nat.toDigits 10 (Nat.ofDigitChars 10 digits n) := by
  induction digits generalizing n with
  | nil => rw [List.append_nil, Nat.ofDigitChars_nil]
  | cons c digits ih =>
    rw [List.forall_mem_cons] at hdigits
    obtain ⟨hlt, hchar⟩ := digitChar_of_isDigit hdigits.1
    have hnext := Nat.toDigits_append_toDigits (by decide : 1 < 10) hn hlt
    rw [Nat.toDigits_of_lt_base hlt, hchar] at hnext
    rw [Nat.ofDigitChars_cons, ← ih hdigits.2 (by omega), ← hnext, List.append_assoc, List.singleton_append]

/-- Digits are the text of their number, if they do not start with a zero or are nothing else. -/
theorem toDigits_ofDigitChars {digits : List Char} (hdigits : ∀ c ∈ digits, c.isDigit = true) (hne : digits ≠ [])
    (hzero : digits.head? = some '0' → digits = ['0']) :
    Nat.toDigits 10 (Nat.ofDigitChars 10 digits 0) = digits := by
  cases digits with
  | nil => exact absurd rfl hne
  | cons c digits =>
    rw [List.forall_mem_cons] at hdigits
    obtain ⟨hlt, hchar⟩ := digitChar_of_isDigit hdigits.1
    rw [Nat.ofDigitChars_cons, Nat.mul_zero, Nat.zero_add]
    rcases Nat.eq_zero_or_pos (c.toNat - '0'.toNat) with he | hpos
    · have hc : c = '0' := by
        rw [← hchar, he]
        rfl
      have hrest : digits = [] := (List.cons.inj (hzero (congrArg some hc))).2
      rw [hrest, hc]
      rfl
    · rw [← toDigits_append hdigits.2 hpos, Nat.toDigits_of_lt_base hlt, hchar, List.singleton_append]

/-! ## Integers -/

/-- `%d`. -/
def intText (n : Int) : List Char :=
  if n < 0 then '-' :: Nat.toDigits 10 n.natAbs else Nat.toDigits 10 n.natAbs

def isBlank (c : Char) : Bool := c ∈ [' ', '\t', '\n', '\x0b', '\x0c', '\r']

/-- The sign in front of a number. -/
def signOf : List Char → Int × List Char
  | '-' :: text => (-1, text)
  | '+' :: text => (1, text)
  | text => (1, text)

/-- White space, a sign, and digits up to what is none; without digits it is zero. -/
def readInt (text : List Char) : Int :=
  let (sign, text) := signOf (text.dropWhile isBlank)
  sign * Nat.ofDigitChars 10 (text.takeWhile Char.isDigit) 0

theorem intText_ne_nil (n : Int) : intText n ≠ [] := by
  unfold intText
  split
  · exact List.cons_ne_nil _ _
  · exact Nat.toDigits_ne_nil

/-- The text of an integer has a sign and digits in it. -/
theorem notMem_intText {c : Char} (hc : c.isDigit = false) (hsign : c ≠ '-') (n : Int) : c ∉ intText n := by
  unfold intText
  split
  · rw [List.mem_cons, not_or]
    exact ⟨hsign, notMem_toDigits hc _⟩
  · exact notMem_toDigits hc _

theorem readInt_toDigits (n : Nat) : Nat.ofDigitChars 10 ((Nat.toDigits 10 n).takeWhile Char.isDigit) 0 = n := by
  rw [List.takeWhile_eq_self_iff.mpr toDigits_isDigit, Nat.ofDigitChars_ten_toDigits]

theorem not_isBlank {c : Char} (hc : c.isDigit = true) : isBlank c = false := by
  by_contra hspace
  simp only [isBlank, List.mem_cons, List.not_mem_nil, or_false, Bool.not_eq_false, decide_eq_true_eq] at hspace
  rcases hspace with rfl | rfl | rfl | rfl | rfl | rfl <;> exact absurd hc (by decide)

/-- A digit is neither white space nor a sign. -/
theorem signOf_digits {c : Char} {text : List Char} (hc : c.isDigit = true) :
    signOf ((c :: text).dropWhile isBlank) = (1, c :: text) := by
  rw [List.dropWhile_cons_of_neg (by simp [not_isBlank hc])]
  unfold signOf
  split
  next heq => exact absurd ((List.cons.inj heq).1 ▸ hc) (by decide)
  next heq => exact absurd ((List.cons.inj heq).1 ▸ hc) (by decide)
  next => rfl

/-- What is printed of an integer is read as that integer. -/
theorem readInt_intText (n : Int) : readInt (intText n) = n := by
  obtain ⟨c, digits, hdigits⟩ := List.exists_cons_of_ne_nil (Nat.toDigits_ne_nil (n := n.natAbs) (b := 10))
  unfold intText
  split
  next hneg =>
    show -1 * ((Nat.ofDigitChars 10 ((Nat.toDigits 10 n.natAbs).takeWhile Char.isDigit) 0 : Nat) : Int) = n
    rw [readInt_toDigits]
    omega
  next hpos =>
    have hc : c.isDigit = true := toDigits_isDigit c (by rw [hdigits]; exact List.mem_cons_self)
    rw [readInt, hdigits, signOf_digits hc, ← hdigits]
    dsimp only
    rw [readInt_toDigits]
    omega

end Sockets
