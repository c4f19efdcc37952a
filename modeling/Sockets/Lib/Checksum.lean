/-
Ones' complement sums. Words are added with an end-around carry: what goes
beyond the largest word comes in again at the bottom. The checksum of a text
is the complement of the sum; put into the text in the place of a 0, it makes
the whole sum up to the largest word, and that is how a reader verifies it.

The sum is the sum modulo the largest word (`onesSum_modEq`), and is 0 only
of words that are all 0. So a text that verifies can be left out of a sum
(`verifies_insert`), and the bytes of the words may be taken in either order
(`verifies_netWords_iff`).
-/
import Mathlib.Algebra.Order.BigOperators.Group.List
import Mathlib.Data.Nat.ModEq
import Mathlib.Tactic.Ring
import Sockets.Lib.Codec

namespace Sockets

/-- Addition with an end-around carry; `top` is the largest word. -/
def onesAdd (top a b : Nat) : Nat := if a + b ≤ top then a + b else a + b - top

def onesSum (top : Nat) : List Nat → Nat
  | [] => 0
  | w :: ws => onesAdd top w (onesSum top ws)

def checksum (top : Nat) (ws : List Nat) : Nat := top - onesSum top ws

def Verifies (top : Nat) (ws : List Nat) : Prop := onesSum top ws = top

instance (top : Nat) (ws : List Nat) : Decidable (Verifies top ws) := inferInstanceAs (Decidable (_ = _))

section

variable {top a b : Nat} {ws front back more : List Nat}

theorem onesAdd_le (ha : a ≤ top) (hb : b ≤ top) : onesAdd top a b ≤ top := by
  unfold onesAdd
  split <;> omega

theorem onesAdd_modEq (top a b : Nat) : onesAdd top a b ≡ a + b [MOD top] := by
  unfold onesAdd
  split
  next => rfl
  next hcarry =>
    have hsum : a + b = (a + b - top) + top := by omega
    conv_rhs => rw [hsum]
    exact Nat.ModEq.symm (Nat.add_modEq_right)

theorem onesAdd_eq_zero : onesAdd top a b = 0 ↔ a = 0 ∧ b = 0 := by
  unfold onesAdd
  split <;> omega

theorem onesSum_le (h : ∀ w ∈ ws, w ≤ top) : onesSum top ws ≤ top := by
  induction ws with
  | nil => exact Nat.zero_le top
  | cons w ws ih =>
    rw [List.forall_mem_cons] at h
    exact onesAdd_le h.1 (ih h.2)

theorem onesSum_modEq (top : Nat) (ws : List Nat) : onesSum top ws ≡ ws.sum [MOD top] := by
  induction ws with
  | nil => rfl
  | cons w ws ih =>
    rw [List.sum_cons]
    exact (onesAdd_modEq top w _).trans (ih.add_left w)

theorem onesSum_eq_zero (top : Nat) : onesSum top ws = 0 ↔ ws.sum = 0 := by
  induction ws with
  | nil => exact iff_of_true rfl rfl
  | cons w ws ih => rw [onesSum, onesAdd_eq_zero, ih, List.sum_cons, Nat.add_eq_zero_iff]

/-- The words verify if their sum is a multiple of the largest word, and they are not all 0. -/
theorem verifies_iff (htop : 0 < top) (h : ∀ w ∈ ws, w ≤ top) :
    Verifies top ws ↔ top ∣ ws.sum ∧ ws.sum ≠ 0 := by
  have hmod := onesSum_modEq top ws
  have hle := onesSum_le h
  constructor
  · intro hv
    rw [Verifies] at hv
    refine ⟨?_, ?_⟩
    · rw [hv] at hmod
      exact (Nat.modEq_zero_iff_dvd.mp (hmod.symm.trans (Nat.modEq_zero_iff_dvd.mpr dvd_rfl)))
    · rw [Ne, ← onesSum_eq_zero top, hv]
      omega
  · intro ⟨hdvd, hne⟩
    have hsum : top ∣ onesSum top ws := Nat.modEq_zero_iff_dvd.mp (hmod.trans (Nat.modEq_zero_iff_dvd.mpr hdvd))
    have hpos : 0 < onesSum top ws := Nat.pos_of_ne_zero fun h0 => hne ((onesSum_eq_zero top).mp h0)
    exact le_antisymm hle (Nat.le_of_dvd hpos hsum)

/-- **Inserting the checksum.** It may have been taken over more words, if these verify or are all 0. -/
theorem verifies_insert (htop : 0 < top) (h : ∀ w ∈ front ++ back ++ more, w ≤ top) (hmore : top ∣ more.sum)
    (hne : more.sum = 0 ∨ (front ++ back).sum ≠ 0) :
    Verifies top (front ++ checksum top (front ++ 0 :: back ++ more) :: back) := by
  have hle : onesSum top (front ++ 0 :: back ++ more) ≤ top := by
    refine onesSum_le ?_
    intro w hw
    simp only [List.mem_append, List.mem_cons] at h hw
    rcases hw with (hw | rfl | hw) | hw
    · exact h w (.inl (.inl hw))
    · exact Nat.zero_le top
    · exact h w (.inl (.inr hw))
    · exact h w (.inr hw)
  have hmod := onesSum_modEq top (front ++ 0 :: back ++ more)
  have hzero : onesSum top (front ++ 0 :: back ++ more) = 0 ↔ (front ++ 0 :: back ++ more).sum = 0 :=
    onesSum_eq_zero top
  simp only [List.sum_append, List.sum_cons, Nat.zero_add] at hmod hzero hne
  rw [verifies_iff htop]
  · simp only [List.sum_append, List.sum_cons, checksum]
    refine ⟨?_, ?_⟩
    · have hrest : onesSum top (front ++ 0 :: back ++ more) ≡ front.sum + back.sum [MOD top] :=
        hmod.trans (Nat.modEq_zero_iff_dvd.mpr hmore |>.add_left _)
      have hall : front.sum + (top - onesSum top (front ++ 0 :: back ++ more) + back.sum) ≡ 0 [MOD top] := by
        refine Nat.ModEq.add_right_cancel' (onesSum top (front ++ 0 :: back ++ more)) ?_
        have hsum : front.sum + (top - onesSum top (front ++ 0 :: back ++ more) + back.sum) +
            onesSum top (front ++ 0 :: back ++ more) = front.sum + back.sum + top := by omega
        rw [hsum, Nat.zero_add]
        exact Nat.add_modEq_right.trans hrest.symm
      exact Nat.modEq_zero_iff_dvd.mp hall
    · omega
  · intro w hw
    simp only [List.mem_append, List.mem_cons] at h hw
    rcases hw with hw | rfl | hw
    · exact h w (.inl (.inl hw))
    · exact Nat.sub_le _ _
    · exact h w (.inl (.inr hw))

end

/-! ## The words of a text -/

def topWord : Nat := 65535

/-- The words of two bytes each, the low one first; a last byte without another is a word too. -/
def hostWords : List UInt8 → List Nat
  | [] => []
  | [b] => [b.toNat]
  | b :: b' :: rest => (b.toNat + 2 ^ 8 * b'.toNat) :: hostWords rest

/-- The same with the high byte first. -/
def netWords : List UInt8 → List Nat
  | [] => []
  | [b] => [2 ^ 8 * b.toNat]
  | b :: b' :: rest => (2 ^ 8 * b.toNat + b'.toNat) :: netWords rest

theorem hostWords_le (l : List UInt8) : ∀ w ∈ hostWords l, w ≤ topWord := by
  induction l using hostWords.induct with
  | case1 => exact fun w hw => absurd hw List.not_mem_nil
  | case2 b =>
    have hb := b.toNat_lt
    simp only [hostWords, List.mem_singleton, topWord]
    omega
  | case3 b b' rest ih =>
    have hb := b.toNat_lt
    have hb' := b'.toNat_lt
    rw [hostWords, List.forall_mem_cons]
    exact ⟨by simp only [topWord]; omega, ih⟩

theorem netWords_le (l : List UInt8) : ∀ w ∈ netWords l, w ≤ topWord := by
  induction l using netWords.induct with
  | case1 => exact fun w hw => absurd hw List.not_mem_nil
  | case2 b =>
    have hb := b.toNat_lt
    simp only [netWords, List.mem_singleton, topWord]
    omega
  | case3 b b' rest ih =>
    have hb := b.toNat_lt
    have hb' := b'.toNat_lt
    rw [netWords, List.forall_mem_cons]
    exact ⟨by simp only [topWord]; omega, ih⟩

theorem hostWords_append {l : List UInt8} (h : Even l.length) (l' : List UInt8) :
    hostWords (l ++ l') = hostWords l ++ hostWords l' := by
  induction l using hostWords.induct with
  | case1 => rfl
  | case2 b => exact absurd h Nat.not_even_one
  | case3 b b' rest ih =>
    rw [List.length_cons, List.length_cons, Nat.even_add_one, Nat.even_add_one, not_not] at h
    rw [List.cons_append, List.cons_append, hostWords, hostWords, ih h, List.cons_append]

/-- A word with its bytes exchanged is 256 of it, modulo the largest word. -/
theorem sum_netWords_modEq (l : List UInt8) : (netWords l).sum ≡ 2 ^ 8 * (hostWords l).sum [MOD topWord] := by
  induction l using hostWords.induct with
  | case1 => rfl
  | case2 b => rfl
  | case3 b b' rest ih =>
    have hword : 2 ^ 8 * (b.toNat + 2 ^ 8 * b'.toNat) = 2 ^ 8 * b.toNat + b'.toNat + topWord * b'.toNat := by
      rw [topWord]
      ring
    rw [hostWords, netWords, List.sum_cons, List.sum_cons, Nat.mul_add, hword]
    exact Nat.ModEq.add (Nat.add_modulus_mul_modEq_iff.mpr rfl).symm ih

theorem sum_netWords_eq_zero (l : List UInt8) : (netWords l).sum = 0 ↔ (hostWords l).sum = 0 := by
  induction l using hostWords.induct with
  | case1 => exact Iff.rfl
  | case2 b =>
    simp only [netWords, hostWords, List.sum_singleton]
    omega
  | case3 b b' rest ih =>
    simp only [netWords, hostWords, List.sum_cons]
    omega

theorem sum_hostWords_eq_zero (l : List UInt8) : (hostWords l).sum = 0 ↔ ∀ b ∈ l, b = 0 := by
  have hzero (b : UInt8) : b.toNat = 0 ↔ b = 0 := UInt8.toNat_inj (b := 0)
  induction l using hostWords.induct with
  | case1 => simp [hostWords]
  | case2 b => simp [hostWords, hzero]
  | case3 b b' rest ih =>
    rw [hostWords, List.sum_cons, List.forall_mem_cons, List.forall_mem_cons]
    refine Iff.trans ?_ (and_congr (hzero b) (and_congr (hzero b') ih))
    omega

/-- **The order of the bytes** does not matter. -/
theorem verifies_netWords_iff (l : List UInt8) : Verifies topWord (netWords l) ↔ Verifies topWord (hostWords l) := by
  have htop : 0 < topWord := by decide
  have hcoprime : Nat.Coprime topWord (2 ^ 8) := by decide
  rw [verifies_iff htop (netWords_le l), verifies_iff htop (hostWords_le l), Ne, sum_netWords_eq_zero,
    (sum_netWords_modEq l).dvd_iff dvd_rfl, hcoprime.dvd_mul_left]

/-- The checksum that is put into Internet packets. -/
def internetChecksum (bytes : List UInt8) : Nat := checksum topWord (hostWords bytes)

theorem hostWords_wordBytes {w : Nat} (h : w ≤ topWord) (rest : List UInt8) :
    hostWords (wordBytes w ++ rest) = w :: hostWords rest := by
  simp only [wordBytes, List.cons_append, List.nil_append, hostWords, UInt8.toNat_ofNat', List.cons.injEq, and_true]
  simp only [topWord] at h
  omega

/-- The checksum of a packet, put into it; it may have been taken over a packet behind it too, which verifies. -/
theorem verifies_internetChecksum (front back more : List UInt8) (hfront : Even front.length)
    (hback : Even back.length) (hne : ∃ b ∈ front ++ back, b ≠ 0)
    (hmore : more = [] ∨ Verifies topWord (hostWords more)) :
    Verifies topWord (hostWords
      (front ++ (wordBytes (internetChecksum (front ++ (wordBytes 0 ++ (back ++ more)))) ++ back))) := by
  have hle : internetChecksum (front ++ (wordBytes 0 ++ (back ++ more))) ≤ topWord := Nat.sub_le _ _
  have hsplit : hostWords (front ++ (wordBytes 0 ++ (back ++ more))) =
      hostWords front ++ 0 :: hostWords back ++ hostWords more := by
    rw [hostWords_append hfront, hostWords_wordBytes (Nat.zero_le _), hostWords_append hback,
      List.append_assoc, List.cons_append]
  rw [hostWords_append hfront, hostWords_wordBytes hle, internetChecksum, hsplit]
  refine verifies_insert (by decide) ?_ ?_ (.inr ?_)
  · rw [← hostWords_append hfront, ← hostWords_append (by rw [List.length_append]; exact hfront.add hback)]
    exact hostWords_le _
  · rcases hmore with rfl | hmore
    · exact dvd_zero _
    · exact ((verifies_iff (by decide) (hostWords_le more)).mp hmore).1
  · rw [← hostWords_append hfront, Ne, sum_hostWords_eq_zero]
    intro hall
    obtain ⟨b, hb, hne⟩ := hne
    exact hne (hall b hb)

end Sockets
