/-
Self-delimiting codes. A value is written as a list of bytes, and a reader
takes it from the front of what has arrived: it needs no more than was
written, and what follows does not matter to it. So a reader that has some
of a stream reads what one that has all of it would (`Codec.dec_of_append`).

Codes of a fixed length are of this kind; among them are runs of raw bytes,
and integers with their bytes in big-endian order. So are pairs, one behind
the other, and a value behind a header that tells how to read it.
-/
import Mathlib.Data.List.Basic
import Mathlib.Data.Vector.Basic
import Mathlib.Tactic.Linarith

namespace Sockets

/-- A code for the valid values: what one is written as, and how it is read, with what is left
over (`none` when more is needed). -/
structure Codec (α β : Type) where
  Valid : α → Prop
  enc : α → List β
  dec : List β → Option (α × List β)
  dec_enc : ∀ a rest, Valid a → dec (enc a ++ rest) = some (a, rest)
  dec_append : ∀ l a rest more, dec l = some (a, rest) → dec (l ++ more) = some (a, rest ++ more)

namespace Codec

variable {α β : Type} {c : Codec α β}

/-- What is read is valid, and is what it would be written as. -/
def Exact (c : Codec α β) : Prop :=
  ∀ l a rest, c.dec l = some (a, rest) → c.Valid a ∧ l = c.enc a ++ rest

/-- Any `n` symbols are read as something. -/
def Total (n : Nat) (c : Codec α β) : Prop :=
  ∀ l, n ≤ l.length → ∃ a rest, c.dec l = some (a, rest) ∧ rest.length + n = l.length

/-- A reader of a part of the stream reads the value that was written. -/
theorem dec_of_append {a b : α} {l rest more later : List β} (ha : c.Valid a)
    (hd : c.dec l = some (b, rest)) (hl : l ++ more = c.enc a ++ later) : b = a ∧ rest ++ more = later := by
  have hmore := c.dec_append l b rest more hd
  rw [hl, c.dec_enc a later ha] at hmore
  simp only [Option.some.injEq, Prod.mk.injEq] at hmore
  exact ⟨hmore.1.symm, hmore.2.symm⟩

/-- The code that writes each valid value as `n` bytes. -/
def fixed (n : Nat) (Valid : α → Prop) (f : α → List β) (g : List β → α)
    (length : ∀ a, Valid a → (f a).length = n) (left_inv : ∀ a, Valid a → g (f a) = a) : Codec α β where
  Valid := Valid
  enc := f
  dec l := if n ≤ l.length then some (g (l.take n), l.drop n) else none
  dec_enc a rest ha := by
    have hlen := length a ha
    rw [if_pos (by rw [List.length_append, hlen]; omega), List.take_left' hlen, List.drop_left' hlen,
      left_inv a ha]
  dec_append l a rest more hd := by
    simp only [Option.ite_none_right_eq_some, Option.some.injEq, Prod.mk.injEq] at hd ⊢
    obtain ⟨hlen, rfl, rfl⟩ := hd
    refine ⟨by rw [List.length_append]; omega, ?_, List.drop_append_of_le_length hlen⟩
    rw [List.take_append_of_le_length hlen]

theorem fixed_exact {n : Nat} {Valid : α → Prop} {f : α → List β} {g : List β → α}
    {length : ∀ a, Valid a → (f a).length = n} {left_inv : ∀ a, Valid a → g (f a) = a}
    (hexact : ∀ l, l.length = n → Valid (g l) ∧ f (g l) = l) :
    (fixed n Valid f g length left_inv).Exact := by
  intro l a rest hd
  simp only [fixed, Option.ite_none_right_eq_some, Option.some.injEq, Prod.mk.injEq] at hd ⊢
  obtain ⟨hlen, rfl, rfl⟩ := hd
  obtain ⟨hvalid, hsame⟩ := hexact (l.take n) (List.length_take_of_le hlen)
  exact ⟨hvalid, by rw [hsame, List.take_append_drop]⟩

theorem fixed_total {n : Nat} {Valid : α → Prop} {f : α → List β} {g : List β → α}
    {length : ∀ a, Valid a → (f a).length = n} {left_inv : ∀ a, Valid a → g (f a) = a} :
    (fixed n Valid f g length left_inv).Total n := by
  intro l hl
  exact ⟨_, _, if_pos hl, by rw [List.length_drop]; omega⟩

/-- One value behind another. -/
def pair {γ : Type} (c : Codec α β) (d : Codec γ β) : Codec (α × γ) β where
  Valid p := c.Valid p.1 ∧ d.Valid p.2
  enc p := c.enc p.1 ++ d.enc p.2
  dec l := (c.dec l).bind fun p => (d.dec p.2).map fun q => ((p.1, q.1), q.2)
  dec_enc p rest hp := by
    rw [List.append_assoc, c.dec_enc _ _ hp.1, Option.bind_some, d.dec_enc _ _ hp.2, Option.map_some]
  dec_append l p rest more hd := by
    simp only [Option.bind_eq_some_iff, Option.map_eq_some_iff, Prod.mk.injEq] at hd ⊢
    obtain ⟨⟨a, left⟩, hc, ⟨b, last⟩, hd, rfl, rfl⟩ := hd
    exact ⟨_, c.dec_append _ _ _ more hc, _, d.dec_append _ _ _ more hd, rfl, rfl⟩

section Pair

variable {γ : Type} {d : Codec γ β}

/-- Reading one value after another. -/
theorem pair_dec_map {δ : Type} (f : (α × γ) × List β → δ) (l : List β) : ((c.pair d).dec l).map f =
    (c.dec l).bind fun p => (d.dec p.2).map fun q => f ((p.1, q.1), q.2) := by
  simp only [Codec.pair, Option.map_bind, Function.comp_def, Option.map_map]

theorem Exact.pair (hc : c.Exact) (hd : d.Exact) : (c.pair d).Exact := by
  intro l p rest hp
  simp only [Codec.pair, Option.bind_eq_some_iff, Option.map_eq_some_iff, Prod.mk.injEq] at hp ⊢
  obtain ⟨⟨a, left⟩, hleft, ⟨b, last⟩, hlast, rfl, rfl⟩ := hp
  obtain ⟨ha, rfl⟩ := hc _ _ _ hleft
  obtain ⟨hb, rfl⟩ := hd _ _ _ hlast
  exact ⟨⟨ha, hb⟩, (List.append_assoc _ _ _).symm⟩

theorem Total.pair {n m : Nat} (hc : c.Total n) (hd : d.Total m) : (c.pair d).Total (n + m) := by
  intro l hl
  obtain ⟨a, left, hleft, hn⟩ := hc l (by omega)
  obtain ⟨b, last, hlast, hm⟩ := hd left (by omega)
  exact ⟨(a, b), last, by simp [Codec.pair, hleft, hlast], by omega⟩

end Pair

/-- So many raw bytes. -/
def raw (n : Nat) : Codec (List β) β :=
  fixed n (·.length = n) id id (fun _ h => h) fun _ _ => rfl

/-- An array of `n` symbols, one behind the other. -/
def array (n : Nat) : Codec (List.Vector β n) β where
  Valid _ := True
  enc := List.Vector.toList
  dec l := if h : n ≤ l.length then some (⟨l.take n, List.length_take_of_le h⟩, l.drop n) else none
  dec_enc v rest _ := by
    have hlen := v.toList_length
    rw [dif_pos (by rw [List.length_append, hlen]; omega), List.drop_left' hlen]
    exact congrArg (fun v => some (v, rest)) (List.Vector.eq _ _ (List.take_left' hlen))
  dec_append l v rest more hd := by
    split at hd
    next hlen =>
      simp only [Option.some.injEq] at hd
      obtain ⟨rfl, rfl⟩ := hd
      rw [dif_pos (by rw [List.length_append]; omega), List.drop_append_of_le_length hlen]
      exact congrArg (fun v => some (v, l.drop n ++ more))
        (List.Vector.eq _ _ (List.take_append_of_le_length hlen))
    next => cases hd

/-- A vector of `n` symbols, one behind the other. -/
def vector [Inhabited β] (n : Nat) : Codec (Vector β n) β :=
  fixed n (fun _ => True) Vector.toList (fun l => Vector.ofFn fun j => l.getD j.val default)
    (fun v _ => v.length_toList) fun v _ => by
      apply Vector.ext
      intro i hi
      simp [List.getD_eq_getElem?_getD]

theorem vector_exact [Inhabited β] {n : Nat} : (vector n : Codec (Vector β n) β).Exact := by
  apply fixed_exact
  intro l hl
  refine ⟨trivial, ?_⟩
  apply List.ext_getElem
  · simp [hl]
  · intro i hi hil
    simp [List.getD_eq_getElem?_getD, List.getElem?_eq_getElem hil]

theorem vector_total [Inhabited β] {n : Nat} : (vector n : Codec (Vector β n) β).Total n := fixed_total

/-- One symbol. -/
def symbol [Inhabited β] : Codec β β :=
  fixed 1 (fun _ => True) (fun b => [b]) (fun l => l.headD default) (fun _ _ => rfl) fun _ _ => rfl

theorem symbol_exact [Inhabited β] : (symbol : Codec β β).Exact := by
  apply fixed_exact
  intro l hl
  obtain ⟨b, rfl⟩ := List.length_eq_one_iff.mp hl
  exact ⟨trivial, rfl⟩

theorem symbol_total [Inhabited β] : (symbol : Codec β β).Total 1 := fixed_total

/-- A value behind a header, which tells how the value is read. -/
def headed {γ : Type} (c : Codec α β) (head : γ → α) (d : α → Codec γ β) : Codec γ β where
  Valid b := c.Valid (head b) ∧ (d (head b)).Valid b
  enc b := c.enc (head b) ++ (d (head b)).enc b
  dec l := (c.dec l).bind fun p => (d p.1).dec p.2
  dec_enc b rest hb := by
    rw [List.append_assoc, c.dec_enc _ _ hb.1, Option.bind_some, (d (head b)).dec_enc _ _ hb.2]
  dec_append l b rest more hd := by
    obtain ⟨p, hc, hd⟩ := Option.bind_eq_some_iff.mp hd
    exact Option.bind_eq_some_iff.mpr ⟨_, c.dec_append _ _ _ more hc, (d p.1).dec_append _ _ _ more hd⟩

/-- A value by way of what stands for it; not everything that can be read has to stand for one. -/
def via {γ : Type} (c : Codec α β) (f : γ → α) (g : α → Option γ)
    (left_inv : ∀ b, c.Valid (f b) → g (f b) = some b) : Codec γ β where
  Valid b := c.Valid (f b)
  enc b := c.enc (f b)
  dec l := (c.dec l).bind fun p => (g p.1).map fun b => (b, p.2)
  dec_enc b rest hb := by
    rw [c.dec_enc _ _ hb, Option.bind_some, left_inv b hb, Option.map_some]
  dec_append l b rest more hd := by
    simp only [Option.bind_eq_some_iff, Option.map_eq_some_iff, Prod.mk.injEq] at hd ⊢
    obtain ⟨⟨a, left⟩, hc, b, hg, rfl, rfl⟩ := hd
    exact ⟨_, c.dec_append _ _ _ more hc, b, hg, rfl, rfl⟩

end Codec

/-! ## Integers -/

/-- The low eight bits. -/
def lowByte (n : Int) : UInt8 := UInt8.ofNat (n % 2 ^ 8).toNat

theorem toNat_lowByte (n : Int) : ((lowByte n).toNat : Int) = n % 2 ^ 8 := by
  have hlo := Int.emod_nonneg n (by decide : (2 ^ 8 : Int) ≠ 0)
  have hhi := Int.emod_lt_of_pos n (by decide : (0 : Int) < 2 ^ 8)
  rw [lowByte, UInt8.toNat_ofNat_of_lt' (by simp only [UInt8.size]; omega)]
  omega

/-- The values of a 32-bit integer, in two's complement. -/
def IsInt32 (n : Int) : Prop := -2 ^ 31 ≤ n ∧ n < 2 ^ 31

instance : DecidablePred IsInt32 := fun n => inferInstanceAs (Decidable (-2 ^ 31 ≤ n ∧ n < 2 ^ 31))

/-- The four bytes of a 32-bit integer, the highest first. -/
def int32Bytes (n : Int) : List UInt8 :=
  [lowByte (n / 2 ^ 24), lowByte (n / 2 ^ 16), lowByte (n / 2 ^ 8), lowByte n]

/-- The number with these digits to the base 256, the highest first. -/
def natOfBytes (l : List UInt8) : Nat := l.foldl (fun n b => n * 2 ^ 8 + b.toNat) 0

def int32OfBytes (l : List UInt8) : Int :=
  if natOfBytes l < 2 ^ 31 then natOfBytes l else natOfBytes l - 2 ^ 32

theorem int32OfBytes_bytes {n : Int} (h : IsInt32 n) : int32OfBytes (int32Bytes n) = n := by
  obtain ⟨hlo, hhi⟩ := h
  have hsum : (natOfBytes (int32Bytes n) : Int) = n % 2 ^ 32 := by
    simp only [natOfBytes, int32Bytes, List.foldl, Nat.cast_add, Nat.cast_mul, toNat_lowByte]
    omega
  unfold int32OfBytes
  split <;> omega

theorem lowByte_eq {n : Int} {b : UInt8} (h : n % 2 ^ 8 = b.toNat) : lowByte n = b := by
  apply UInt8.toNat_inj.mp
  have hbyte := toNat_lowByte n
  omega

theorem int32Bytes_ofBytes {l : List UInt8} (h : l.length = 4) :
    IsInt32 (int32OfBytes l) ∧ int32Bytes (int32OfBytes l) = l := by
  match l with
  | [a, b, c, d] =>
    have ha := a.toNat_lt
    have hb := b.toNat_lt
    have hc := c.toNat_lt
    have hd := d.toNat_lt
    have hnat : natOfBytes [a, b, c, d] =
        ((a.toNat * 2 ^ 8 + b.toNat) * 2 ^ 8 + c.toNat) * 2 ^ 8 + d.toNat := by
      simp [natOfBytes]
    have hvalue : int32OfBytes [a, b, c, d] = natOfBytes [a, b, c, d] ∧ natOfBytes [a, b, c, d] < 2 ^ 31 ∨
        int32OfBytes [a, b, c, d] = natOfBytes [a, b, c, d] - 2 ^ 32 ∧ 2 ^ 31 ≤ natOfBytes [a, b, c, d] := by
      unfold int32OfBytes
      split
      next hlt => exact .inl ⟨rfl, hlt⟩
      next hge => exact .inr ⟨rfl, not_lt.mp hge⟩
    generalize int32OfBytes [a, b, c, d] = n at hvalue ⊢
    unfold IsInt32 int32Bytes
    rw [lowByte_eq (b := a) (by omega), lowByte_eq (b := b) (by omega), lowByte_eq (b := c) (by omega),
      lowByte_eq (b := d) (by omega)]
    exact ⟨by omega, rfl⟩

def int32 : Codec Int UInt8 :=
  .fixed 4 IsInt32 int32Bytes int32OfBytes (fun _ _ => rfl) fun _ => int32OfBytes_bytes

theorem int32_exact : int32.Exact := Codec.fixed_exact fun _ => int32Bytes_ofBytes

theorem int32_total : int32.Total 4 := Codec.fixed_total

/-! ## Words of 16 bits -/

/-- The bytes of a word, the low one first. -/
def wordBytes (w : Nat) : List UInt8 := [UInt8.ofNat w, UInt8.ofNat (w / 2 ^ 8)]

def wordOfBytes : List UInt8 → Nat
  | [b, b'] => b.toNat + 2 ^ 8 * b'.toNat
  | _ => 0

theorem wordOfBytes_wordBytes {w : Nat} (h : w < 2 ^ 16) : wordOfBytes (wordBytes w) = w := by
  simp only [wordOfBytes, wordBytes, UInt8.toNat_ofNat']
  omega

/-- A word with its low byte first. -/
def word : Codec Nat UInt8 :=
  .fixed 2 (· < 2 ^ 16) wordBytes wordOfBytes (fun _ _ => rfl) fun _ => wordOfBytes_wordBytes

/-- A word with its high byte first, as `htons` leaves it. -/
def netWord : Codec Nat UInt8 :=
  .fixed 2 (· < 2 ^ 16) (fun w => (wordBytes w).reverse) (fun l => wordOfBytes l.reverse) (fun _ _ => rfl)
    fun w hw => by rw [List.reverse_reverse, wordOfBytes_wordBytes hw]

/-! ## Characters -/

def charByte (c : Char) : UInt8 := UInt8.ofNat c.toNat
def byteChar (b : UInt8) : Char := Char.ofNat b.toNat

theorem byteChar_charByte {c : Char} (h : c.toNat < 2 ^ 8) : byteChar (charByte c) = c := by
  rw [byteChar, charByte, UInt8.toNat_ofNat_of_lt' h, Char.ofNat_toNat]

/-- Text without a `nul`, each of its characters a byte, for which there is room in an array of `n`. -/
structure IsText (n : Nat) (text : List Char) : Prop where
  nul : '\x00' ∉ text
  byte : ∀ c ∈ text, c.toNat < 2 ^ 8
  length : text.length < n

theorem map_byteChar_charByte {n : Nat} {text : List Char} (h : IsText n text) :
    (text.map charByte).map byteChar = text := by
  rw [List.map_map]
  refine (List.map_congr_left ?_).trans (List.map_id text)
  intro c hc
  exact byteChar_charByte (h.byte c hc)

theorem zero_notMem_map_charByte {n : Nat} {text : List Char} (h : IsText n text) : 0 ∉ text.map charByte := by
  intro hm
  obtain ⟨c, hc, hzero⟩ := List.mem_map.mp hm
  have hsame := byteChar_charByte (h.byte c hc)
  rw [hzero] at hsame
  rw [← hsame] at hc
  exact h.nul hc

end Sockets
