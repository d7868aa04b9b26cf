import Mathlib.Data.List.TakeWhile
import MemoTransfer.Proofs.Reading
import MemoTransfer.Proofs.Text.Bytes
import MemoTransfer.Text.Base64

/-!
# Base64 texts

The standard form of some bytes is one text (`Base64.isWritten_iff`): letters for all their bits,
six for each letter, with zeros behind the last one, and equals signs in the free places of the last
group of four. Reading accepts just these texts and gives just these bytes
(`Base64.decode_eq_ok_iff`, `Base64.decode_encode_eq_ok_iff`). It goes from group to group: a whole
one is three bytes, the last one may be fewer (`IsGroup`).
-/

namespace MemoTransfer.Text.Base64

open MemoTransfer.Utf8

/-! ## The standard form -/

/-- The letters in the order of the numbers for which they stand. -/
def alphabet : List Char :=
  "ABCDEFGHIJKLMNOPQRSTUVWXYZabcdefghijklmnopqrstuvwxyz0123456789+/".toList

/-- So many bits of a number, the highest first. -/
def bits : Nat → Nat → List Bool
  | 0, _ => []
  | n + 1, x => bits n (x / 2) ++ [decide (x % 2 = 1)]

/-- The text is the standard form of the bytes: letters for all their bits and, behind them, for as
few zeros as fill the last letter; then as few equals signs as fill the last group of four. -/
def IsWritten (text : List Char) (bs : Bytes) : Prop :=
  ∃ (digits : List Nat) (spare signs : Nat),
    text = digits.map (alphabet.getD · '=') ++ List.replicate signs '=' ∧
      (∀ d ∈ digits, d < 64) ∧ spare < 6 ∧
      digits.flatMap (bits 6) =
        bs.flatMap (fun b => bits 8 b.toNat) ++ List.replicate spare false ∧
      signs < 4 ∧ text.length % 4 = 0

/-! ## Bits -/

@[simp] theorem length_bits (n x : Nat) : (bits n x).length = n := by
  induction n generalizing x with
  | zero => rfl
  | succ n ih => rw [bits, List.length_append, ih, List.length_singleton]

theorem length_flatMap_bits {α : Type} (n : Nat) (f : α → Nat) (xs : List α) :
    (xs.flatMap fun x => bits n (f x)).length = n * xs.length := by
  induction xs with
  | nil => rfl
  | cons x xs ih =>
    rw [List.flatMap_cons, List.length_append, ih, length_bits, List.length_cons, Nat.mul_succ]
    omega

theorem bits_zero (n : Nat) : bits n 0 = List.replicate n false := by
  induction n with
  | zero => rfl
  | succ n ih => rw [bits, ih, List.replicate_succ']; rfl

/-- The bits of two numbers, one behind the other. -/
theorem bits_mul_add {l y : Nat} (m n k : Nat) (hl : m + n = l) (hk : 2 ^ n = k) (x : Nat)
    (hy : y < k) :
    bits l (x * k + y) = bits m x ++ bits n y := by
  subst hl hk
  induction n generalizing y with
  | zero =>
    obtain rfl : y = 0 := by omega
    simp [bits]
  | succ n ih =>
    rw [Nat.pow_succ] at hy ⊢
    have half : (x * (2 ^ n * 2) + y) / 2 = x * 2 ^ n + y / 2 := by
      rw [← Nat.mul_assoc, Nat.add_comm, Nat.add_mul_div_right _ _ (by decide), Nat.add_comm]
    have last : (x * (2 ^ n * 2) + y) % 2 = y % 2 := by
      rw [← Nat.mul_assoc, Nat.add_comm, Nat.add_mul_mod_self_right]
    rw [← Nat.add_assoc, bits, half, last, ih (by omega), bits, List.append_assoc]

theorem bits_mul {l : Nat} (m n k : Nat) (hl : m + n = l) (hk : 2 ^ n = k) (x : Nat) :
    bits l (x * k) = bits m x ++ List.replicate n false := by
  rw [← bits_zero, ← bits_mul_add m n k hl hk x (hk ▸ Nat.two_pow_pos n), Nat.add_zero]

theorem bits_div_mod {l : Nat} (m n k : Nat) (hl : m + n = l) (hk : 2 ^ n = k) (x : Nat) :
    bits l x = bits m (x / k) ++ bits n (x % k) := by
  rw [← bits_mul_add m n k hl hk (x / k) (Nat.mod_lt x (hk ▸ Nat.two_pow_pos n)), Nat.div_add_mod']

theorem eq_of_bits_eq {n x y : Nat} (hx : x < 2 ^ n) (hy : y < 2 ^ n) (h : bits n x = bits n y) :
    x = y := by
  induction n generalizing x y with
  | zero => omega
  | succ n ih =>
    rw [Nat.pow_succ] at hx hy
    rw [bits, bits] at h
    obtain ⟨front, last⟩ := List.append_inj' h rfl
    have half := ih (by omega) (by omega) front
    simp only [List.cons.injEq, and_true, decide_eq_decide] at last
    omega

/-- Numbers of so many bits are told by their bits. -/
theorem eq_of_flatMap_bits_eq {n : Nat} {xs ys : List Nat} (hx : ∀ x ∈ xs, x < 2 ^ n)
    (hy : ∀ y ∈ ys, y < 2 ^ n) (long : xs.length = ys.length)
    (h : xs.flatMap (bits n) = ys.flatMap (bits n)) : xs = ys := by
  induction xs generalizing ys with
  | nil => exact (List.length_eq_zero_iff.1 long.symm).symm
  | cons x xs ih =>
    cases ys with
    | nil => cases long
    | cons y ys =>
      rw [List.forall_mem_cons] at hx hy
      rw [List.flatMap_cons, List.flatMap_cons] at h
      obtain ⟨first, rest⟩ := List.append_inj h (by rw [length_bits, length_bits])
      rw [eq_of_bits_eq hx.1 hy.1 first, ih hx.2 hy.2 (Nat.succ.inj long) rest]

/-! ## Groups -/

/-- The numbers of the letters of one group, which has one, two or three bytes. -/
def digits : Bytes → List Nat
  | [a] => [a.toNat / 4, a.toNat % 4 * 16]
  | [a, b] => [a.toNat / 4, a.toNat % 4 * 16 + b.toNat / 16, b.toNat % 16 * 4]
  | [a, b, c] =>
    [a.toNat / 4, a.toNat % 4 * 16 + b.toNat / 16, b.toNat % 16 * 4 + c.toNat / 64, c.toNat % 64]
  | _ => []

/-- The numbers are those of the letters of one group. -/
structure IsGroup (vs : List Nat) : Prop where
  small : ∀ v ∈ vs, v < 64
  least : 2 ≤ vs.length
  most : vs.length ≤ 4
  fills : fillsBytes vs = true

theorem length_digits {g : Bytes} (ne : g ≠ []) (few : g.length ≤ 3) :
    (digits g).length = g.length + 1 := by
  match g, ne, few with
  | [_], _, _ => rfl
  | [_, _], _, _ => rfl
  | [_, _, _], _, _ => rfl

/-- The numbers of the letters of some bytes are those of a group. -/
theorem isGroup_digits {g : Bytes} (ne : g ≠ []) (few : g.length ≤ 3) : IsGroup (digits g) := by
  have long := length_digits ne few
  have some := List.length_pos_iff.2 ne
  refine ⟨?_, by omega, by omega, ?_⟩ <;> clear long some
  · match g, ne, few with
    | [a], _, _ =>
      have := a.toNat_lt
      simp only [digits, List.forall_mem_cons]
      exact ⟨by omega, by omega, nofun⟩
    | [a, b], _, _ =>
      have := a.toNat_lt
      have := b.toNat_lt
      simp only [digits, List.forall_mem_cons]
      exact ⟨by omega, by omega, by omega, nofun⟩
    | [a, b, c], _, _ =>
      have := a.toNat_lt
      have := b.toNat_lt
      have := c.toNat_lt
      simp only [digits, List.forall_mem_cons]
      exact ⟨by omega, by omega, by omega, by omega, nofun⟩
  · match g, ne, few with
    | [_], _, _ => simp [digits, fillsBytes]
    | [_, _], _, _ => simp [digits, fillsBytes]
    | [_, _, _], _, _ => rfl

/-- A group is read back from the numbers of its letters. -/
theorem groupBytes_digits {g : Bytes} (few : g.length ≤ 3) : groupBytes (digits g) = g := by
  match g, few with
  | [], _ => rfl
  | [a], _ =>
    have first : a.toNat / 4 * 4 + a.toNat % 4 * 16 / 16 = a.toNat := by omega
    rw [digits, groupBytes, first, UInt8.ofNat_toNat]
  | [a, b], _ =>
    have := b.toNat_lt
    have first : a.toNat / 4 * 4 + (a.toNat % 4 * 16 + b.toNat / 16) / 16 = a.toNat := by omega
    have second : (a.toNat % 4 * 16 + b.toNat / 16) % 16 * 16 + b.toNat % 16 * 4 / 4 =
        b.toNat := by omega
    rw [digits, groupBytes, first, second, UInt8.ofNat_toNat, UInt8.ofNat_toNat]
  | [a, b, c], _ =>
    have := b.toNat_lt
    have := c.toNat_lt
    have first : a.toNat / 4 * 4 + (a.toNat % 4 * 16 + b.toNat / 16) / 16 = a.toNat := by omega
    have second : (a.toNat % 4 * 16 + b.toNat / 16) % 16 * 16 +
        (b.toNat % 16 * 4 + c.toNat / 64) / 4 = b.toNat := by omega
    have third : (b.toNat % 16 * 4 + c.toNat / 64) % 4 * 64 + c.toNat % 64 = c.toNat := by omega
    rw [digits, groupBytes, first, second, third, UInt8.ofNat_toNat, UInt8.ofNat_toNat,
      UInt8.ofNat_toNat]

/-- Numbers that leave no bits over are those of the letters of the bytes that they fill. -/
theorem digits_groupBytes {vs : List Nat} (h : IsGroup vs) : digits (groupBytes vs) = vs := by
  obtain ⟨small, least, most, fills⟩ := h
  match vs, small, least, most, fills with
  | [a, b], small, _, _, fills =>
    simp only [List.forall_mem_cons] at small
    have fills : b % 16 = 0 := of_decide_eq_true fills
    have first := UInt8.toNat_ofNat_of_lt' (show a * 4 + b / 16 < 2 ^ 8 by omega)
    simp only [groupBytes, digits, first, List.cons.injEq, and_true]
    exact ⟨by omega, by omega⟩
  | [a, b, c], small, _, _, fills =>
    simp only [List.forall_mem_cons] at small
    have fills : c % 4 = 0 := of_decide_eq_true fills
    have first := UInt8.toNat_ofNat_of_lt' (show a * 4 + b / 16 < 2 ^ 8 by omega)
    have second := UInt8.toNat_ofNat_of_lt' (show b % 16 * 16 + c / 4 < 2 ^ 8 by omega)
    simp only [groupBytes, digits, first, second, List.cons.injEq, and_true]
    exact ⟨by omega, by omega, by omega⟩
  | [a, b, c, d], small, _, _, _ =>
    simp only [List.forall_mem_cons] at small
    have first := UInt8.toNat_ofNat_of_lt' (show a * 4 + b / 16 < 2 ^ 8 by omega)
    have second := UInt8.toNat_ofNat_of_lt' (show b % 16 * 16 + c / 4 < 2 ^ 8 by omega)
    have third := UInt8.toNat_ofNat_of_lt' (show c % 4 * 64 + d < 2 ^ 8 by omega)
    simp only [groupBytes, digits, first, second, third, List.cons.injEq, and_true]
    exact ⟨by omega, by omega, by omega, by omega⟩

theorem groupBytes_ne_nil {vs : List Nat} (h : IsGroup vs) : groupBytes vs ≠ [] := by
  intro e
  have same := digits_groupBytes h
  rw [e] at same
  have least := h.least
  rw [← same] at least
  cases least

theorem length_groupBytes_le (vs : List Nat) : (groupBytes vs).length ≤ 3 := by
  unfold groupBytes
  split <;> simp

/-! ## Letters -/

/-- The letters of some numbers, as bytes. -/
def codes (vs : List Nat) : Bytes := vs.map fun v => byteOf (letter v)

theorem letter_lt (n : Nat) : (letter n).toNat < 128 := by
  by_cases h : n < 64
  · revert n
    decide +kernel
  · rw [letter, if_neg (by omega), if_neg (by omega), if_neg (by omega), if_neg (by omega)]
    decide

theorem bytes_letters (vs : List Nat) : bytes (vs.map letter) = codes vs := by
  rw [bytes_eq_map, List.map_map]
  · rfl
  · rw [List.forall_mem_map]
    exact fun v _ => letter_lt v

theorem value?_letter {n : Nat} (h : n < 64) : value? (byteOf (letter n)) = some n := by
  revert n
  decide +kernel

theorem eq_of_value? {b : UInt8} {v : Nat} (h : value? b = some v) :
    v < 64 ∧ b = byteOf (letter v) := by
  have all : ∀ n < 256, ∀ v ∈ value? (UInt8.ofNat n),
      v < 64 ∧ UInt8.ofNat n = byteOf (letter v) := by decide +kernel
  have this := all b.toNat b.toNat_lt v
  rw [UInt8.ofNat_toNat] at this
  exact this h

theorem ne_pad_of_mem_codes {vs : List Nat} (small : ∀ v ∈ vs, v < 64) :
    ∀ b ∈ codes vs, b ≠ pad := by
  have all : ∀ v < 64, byteOf (letter v) ≠ pad := by decide +kernel
  rw [codes, List.forall_mem_map]
  exact fun v hv => all v (small v hv)

/-- Letters are read as their numbers, and nothing else is. -/
theorem values_eq_ok_iff {place : Nat} {text : Bytes} {vs : List Nat} :
    values place text = .ok vs ↔ (∀ v ∈ vs, v < 64) ∧ text = codes vs := by
  induction text generalizing place vs with
  | nil =>
    rw [values, Except.ok.injEq]
    constructor
    · rintro rfl
      exact ⟨nofun, rfl⟩
    · rintro ⟨-, e⟩
      exact (List.map_eq_nil_iff.1 e.symm).symm
  | cons b text ih =>
    constructor
    · intro h
      rw [values] at h
      split at h
      · cases h
      · rename_i v hv
        obtain ⟨vs', rest, e⟩ := exists_ok_of_bind h
        obtain ⟨small, rfl⟩ := ih.1 rest
        obtain ⟨less, rfl⟩ := eq_of_value? hv
        cases e
        exact ⟨List.forall_mem_cons.2 ⟨less, small⟩, rfl⟩
    · rintro ⟨small, e⟩
      cases vs with
      | nil => cases e
      | cons v vs =>
        rw [List.forall_mem_cons] at small
        obtain ⟨rfl, rest⟩ := List.cons.inj e
        rw [values, value?_letter small.1]
        show (values (place + 1) text >>= fun more => pure (v :: more)) = _
        rw [ih.2 ⟨small.2, rest⟩]
        rfl

/-! ## The last group -/

/-- The letters of a group, and the equals signs in its free places. -/
def filled (vs : List Nat) : Bytes := codes vs ++ List.replicate (4 - vs.length) pad

theorem takeWhile_filled {vs : List Nat} (small : ∀ v ∈ vs, v < 64) :
    (filled vs).takeWhile (· ≠ pad) = codes vs ∧
      (filled vs).dropWhile (· ≠ pad) = List.replicate (4 - vs.length) pad := by
  have letters : ∀ b ∈ codes vs, decide (b ≠ pad) = true := fun b hb =>
    decide_eq_true (ne_pad_of_mem_codes small b hb)
  have signs : ∀ n, (List.replicate n pad).takeWhile (· ≠ pad) = [] ∧
      (List.replicate n pad).dropWhile (· ≠ pad) = List.replicate n pad := fun n => by
    cases n <;> exact ⟨rfl, rfl⟩
  rw [filled, List.takeWhile_append_of_pos letters, List.dropWhile_append_of_pos letters,
    (signs _).1, (signs _).2, List.append_nil]
  exact ⟨rfl, rfl⟩

theorem length_filled {vs : List Nat} (h : IsGroup vs) : (filled vs).length = 4 := by
  have most := h.most
  rw [filled, codes, List.length_append, List.length_map, List.length_replicate]
  omega

/-- The last group is read if its letters fill bytes and the equals signs its free places. -/
theorem decodeLast_filled {vs : List Nat} (h : IsGroup vs) (place : Nat) :
    decodeLast place (filled vs) = .ok (groupBytes vs) := by
  obtain ⟨letters, signs⟩ := takeWhile_filled h.small
  have long : (codes vs).length = vs.length := List.length_map _
  have least := h.least
  have whole := length_filled h
  have nonempty : (filled vs).isEmpty = false := by
    cases hf : filled vs with
    | nil => rw [hf] at whole; cases whole
    | cons => rfl
  have signed : (List.replicate (4 - vs.length) pad).all (· = pad) = true := by simp
  have few : ¬vs.length < 2 := by omega
  simp only [decodeLast, letters, signs, values_eq_ok_iff.2 ⟨h.small, rfl⟩, signed, long, few,
    nonempty, whole, decide_false, Bool.not_true, Bool.or_self, Bool.and_false, Bool.false_eq_true,
    ne_eq, not_true_eq_false, if_false]
  exact if_pos h.fills

theorem exists_of_decodeLast {place : Nat} {text bs : Bytes} (h : decodeLast place text = .ok bs) :
    (text = [] ∧ bs = []) ∨ ∃ vs, IsGroup vs ∧ text = filled vs ∧ bs = groupBytes vs := by
  unfold decodeLast at h
  obtain ⟨vs, read, h⟩ := exists_ok_of_bind h
  obtain ⟨small, letters⟩ := values_eq_ok_iff.1 read
  have parts := List.takeWhile_append_dropWhile (p := (· ≠ pad)) (l := text)
  rw [letters] at h parts
  generalize text.dropWhile (· ≠ pad) = signs at h parts
  have long : (codes vs).length = vs.length := List.length_map _
  dsimp only at h
  split at h
  · cases h
  rename_i signed
  split at h
  · rename_i nothing
    cases h
    exact .inl ⟨List.isEmpty_iff.1 nothing, rfl⟩
  split at h
  · cases h
  rename_i least
  split at h
  · cases h
  rename_i whole
  split at h
  · rename_i fills
    cases h
    rw [not_not, ← parts, List.length_append] at whole
    have pads : ∀ b ∈ signs, b = pad := by
      cases signs with
      | nil => exact nofun
      | cons b signs => simpa [least] using signed
    have padded := List.eq_replicate_iff.2 ⟨show signs.length = 4 - vs.length by omega, pads⟩
    exact .inr ⟨vs, ⟨small, by omega, by omega, fills⟩, by rw [← parts, padded, filled], rfl⟩
  · cases h

/-! ## All groups -/

theorem decodeFrom_of_short {place : Nat} {text : Bytes} (short : text.length ≤ 4) :
    decodeFrom place text = decodeLast place text := by
  match text, short with
  | [], _ => rfl
  | [_], _ => rfl
  | [_, _], _ => rfl
  | [_, _, _], _ => rfl
  | [_, _, _, _], _ => rfl

/-- Bytes are taken in groups of three, and what is left is a group if it is anything. -/
theorem groups_induction {P : Bytes → Prop} (nil : P [])
    (last : ∀ g, g ≠ [] → g.length ≤ 3 → P g)
    (step : ∀ a b c rest, rest ≠ [] → P rest → P (a :: b :: c :: rest)) : ∀ bs, P bs
  | [] => nil
  | [a] => last [a] (by simp) (by simp)
  | [a, b] => last [a, b] (by simp) (by simp)
  | [a, b, c] => last [a, b, c] (by simp) (by simp)
  | a :: b :: c :: d :: rest =>
    step a b c (d :: rest) (by simp) (groups_induction nil last step (d :: rest))

theorem encode_of_group {g : Bytes} (ne : g ≠ []) (few : g.length ≤ 3) :
    encode g = (digits g).map letter ++ List.replicate (4 - (digits g).length) '=' := by
  match g, ne, few with
  | [a], _, _ => rfl
  | [a, b], _, _ => rfl
  | [a, b, c], _, _ => rfl

theorem encode_cons (a b c : UInt8) (rest : Bytes) :
    encode (a :: b :: c :: rest) = (digits [a, b, c]).map letter ++ encode rest := by
  rw [encode]
  rfl

theorem bytes_encode_of_group {g : Bytes} (ne : g ≠ []) (few : g.length ≤ 3) :
    bytes (encode g) = filled (digits g) := by
  have signs (n : Nat) : bytes (List.replicate n '=') = List.replicate n pad := by
    rw [bytes_eq_map (by simp), List.map_replicate]
    rfl
  rw [encode_of_group ne few, bytes_append, bytes_letters, signs, filled]

theorem exists_cons_encode (b : UInt8) (bs : Bytes) :
    ∃ v cs, encode (b :: bs) = letter v :: cs := by
  match bs with
  | [] => exact ⟨_, _, rfl⟩
  | [_] => exact ⟨_, _, rfl⟩
  | _ :: _ :: _ => exact ⟨_, _, rfl⟩

theorem decodeFrom_encode (bs : Bytes) (place : Nat) :
    decodeFrom place (bytes (encode bs)) = .ok bs := by
  induction bs using groups_induction generalizing place with
  | nil => rfl
  | last g ne few =>
    have group := isGroup_digits ne few
    rw [bytes_encode_of_group ne few, decodeFrom_of_short (length_filled group).le,
      decodeLast_filled group, groupBytes_digits few]
  | step a b c rest ne ih =>
    obtain ⟨d, more, rfl⟩ := List.exists_cons_of_ne_nil ne
    obtain ⟨v, cs, e⟩ := exists_cons_encode d more
    have group := isGroup_digits (g := [a, b, c]) (by simp) (by simp)
    have letters := (@values_eq_ok_iff place _ _).2 ⟨group.small, rfl⟩
    have further := ih (place + 4)
    rw [e, bytes_cons (letter_lt v)] at further
    rw [encode_cons, bytes_append, bytes_letters, e, bytes_cons (letter_lt v)]
    show (do
      let vs ← values place (codes (digits [a, b, c]))
      return groupBytes vs ++ (← decodeFrom (place + 4) (byteOf (letter v) :: bytes cs))) = _
    rw [letters, further]
    show Except.ok (groupBytes (digits [a, b, c]) ++ d :: more) = _
    rw [groupBytes_digits (by simp)]
    rfl

theorem eq_of_decodeFrom {place : Nat} {text bs : Bytes} (h : decodeFrom place text = .ok bs) :
    text = bytes (encode bs) := by
  fun_induction decodeFrom place text generalizing bs with
  | case1 place a b c d e rest ih =>
    obtain ⟨vs, read, h⟩ := exists_ok_of_bind h
    obtain ⟨bs', further, h⟩ := exists_ok_of_bind h
    cases h
    obtain ⟨small, letters⟩ := values_eq_ok_iff.1 read
    have long : vs.length = 4 := by
      have := congrArg List.length letters
      rw [codes, List.length_map] at this
      exact this.symm
    obtain ⟨w, x, y, z, rfl⟩ : ∃ w x y z, vs = [w, x, y, z] := by
      match vs, long with
      | [w, x, y, z], _ => exact ⟨w, x, y, z, rfl⟩
    have group : IsGroup [w, x, y, z] := ⟨small, by simp, by simp, rfl⟩
    have back : digits [UInt8.ofNat (w * 4 + x / 16), UInt8.ofNat (x % 16 * 16 + y / 4),
      UInt8.ofNat (y % 4 * 64 + z)] = [w, x, y, z] := digits_groupBytes group
    show _ = bytes (encode (_ :: _ :: _ :: bs'))
    rw [encode_cons, bytes_append, bytes_letters, back, ← letters, ← ih further]
    rfl
  | case2 place text _ =>
    rcases exists_of_decodeLast h with ⟨rfl, rfl⟩ | ⟨vs, group, rfl, rfl⟩
    · rfl
    · rw [bytes_encode_of_group (groupBytes_ne_nil group) (length_groupBytes_le vs),
        digits_groupBytes group]

theorem length_bytes_encode (bs : Bytes) : (bytes (encode bs)).length % 4 = 0 := by
  induction bs using groups_induction with
  | nil => rfl
  | last g ne few => rw [bytes_encode_of_group ne few, length_filled (isGroup_digits ne few)]
  | step a b c rest _ ih =>
    rw [encode_cons, bytes_append, bytes_letters, List.length_append]
    show (4 + _) % 4 = 0
    omega

/-- **What is read is what was written.** -/
theorem decode_eq_ok_iff {text bs : Bytes} :
    decode text = .ok bs ↔ text = bytes (encode bs) := by
  unfold decode
  constructor
  · intro h
    split at h
    · split at h
      · cases h
      · exact eq_of_decodeFrom h
    · rename_i nothing
      cases h
      exact List.getLast?_eq_none_iff.1 nothing
  · rintro rfl
    split
    · rw [if_neg (by rw [length_bytes_encode]; simp), decodeFrom_encode]
    · rename_i nothing
      rw [← decodeFrom_encode bs 0, List.getLast?_eq_none_iff.1 nothing]
      rfl

/-! ## What is written -/

theorem bits_digits {g : Bytes} (ne : g ≠ []) (few : g.length ≤ 3) :
    (digits g).flatMap (bits 6) = g.flatMap (fun b => bits 8 b.toNat) ++
      List.replicate (6 * (digits g).length - 8 * g.length) false := by
  have one (x : Nat) : bits 8 x = bits 6 (x / 4) ++ bits 2 (x % 4) :=
    bits_div_mod 6 2 4 rfl rfl x
  have two (x : Nat) : bits 8 x = bits 4 (x / 16) ++ bits 4 (x % 16) :=
    bits_div_mod 4 4 16 rfl rfl x
  have three (x : Nat) : bits 8 x = bits 2 (x / 64) ++ bits 6 (x % 64) :=
    bits_div_mod 2 6 64 rfl rfl x
  match g, ne, few with
  | [a], _, _ =>
    have second : bits 6 (a.toNat % 4 * 16) = bits 2 (a.toNat % 4) ++ List.replicate 4 false :=
      bits_mul 2 4 16 rfl rfl _
    simp [digits, one a.toNat, second]
  | [a, b], _, _ =>
    have := b.toNat_lt
    have second : bits 6 (a.toNat % 4 * 16 + b.toNat / 16) =
        bits 2 (a.toNat % 4) ++ bits 4 (b.toNat / 16) :=
      bits_mul_add 2 4 16 rfl rfl _ (by omega)
    have third : bits 6 (b.toNat % 16 * 4) = bits 4 (b.toNat % 16) ++ List.replicate 2 false :=
      bits_mul 4 2 4 rfl rfl _
    simp [digits, one a.toNat, two b.toNat, second, third]
  | [a, b, c], _, _ =>
    have := b.toNat_lt
    have := c.toNat_lt
    have second : bits 6 (a.toNat % 4 * 16 + b.toNat / 16) =
        bits 2 (a.toNat % 4) ++ bits 4 (b.toNat / 16) :=
      bits_mul_add 2 4 16 rfl rfl _ (by omega)
    have third : bits 6 (b.toNat % 16 * 4 + c.toNat / 64) =
        bits 4 (b.toNat % 16) ++ bits 2 (c.toNat / 64) :=
      bits_mul_add 4 2 4 rfl rfl _ (by omega)
    simp [digits, one a.toNat, two b.toNat, three c.toNat, second, third]

theorem letter_eq {n : Nat} (h : n < 64) : letter n = alphabet.getD n '=' := by
  revert n
  decide +kernel

theorem map_letter {vs : List Nat} (small : ∀ v ∈ vs, v < 64) :
    vs.map letter = vs.map (alphabet.getD · '=') :=
  List.map_congr_left fun v hv => letter_eq (small v hv)

theorem isWritten_encode (bs : Bytes) : IsWritten (encode bs) bs := by
  induction bs using groups_induction with
  | nil => exact ⟨[], 0, 0, rfl, nofun, by decide, rfl, by decide, rfl⟩
  | last g ne few =>
    have group := isGroup_digits ne few
    have long := length_digits ne few
    have := List.length_pos_iff.2 ne
    refine ⟨digits g, _, 4 - (digits g).length, ?_, group.small, ?_, bits_digits ne few, ?_, ?_⟩
    · rw [encode_of_group ne few, map_letter group.small]
    · omega
    · omega
    · rw [encode_of_group ne few, List.length_append, List.length_map, List.length_replicate]
      omega
  | step a b c rest ne ih =>
    obtain ⟨more, spare, signs, e, small, few, filled, least, whole⟩ := ih
    have group := isGroup_digits (g := [a, b, c]) (by simp) (by simp)
    refine ⟨digits [a, b, c] ++ more, spare, signs, ?_, ?_, few, ?_, least, ?_⟩
    · rw [encode_cons, map_letter group.small, e, List.map_append, List.append_assoc]
    · exact List.forall_mem_append.2 ⟨group.small, small⟩
    · rw [List.flatMap_append, bits_digits (by simp) (by simp), filled]
      simp [digits]
    · rw [encode_cons, List.length_append]
      show (4 + _) % 4 = 0
      omega

/-- **The standard form of some bytes is unique.** -/
theorem IsWritten.unique {text text' : List Char} {bs : Bytes} (h : IsWritten text bs)
    (h' : IsWritten text' bs) : text = text' := by
  obtain ⟨digits, spare, signs, rfl, small, few, e, least, whole⟩ := h
  obtain ⟨digits', spare', signs', rfl, small', few', e', least', whole'⟩ := h'
  have long := congrArg List.length e
  have long' := congrArg List.length e'
  have sixes (ds : List Nat) : (ds.flatMap (bits 6)).length = 6 * ds.length :=
    length_flatMap_bits 6 id ds
  rw [sixes, List.length_append, length_flatMap_bits, List.length_replicate] at long long'
  have same : digits.length = digits'.length := by omega
  have equal : digits = digits' := by
    refine eq_of_flatMap_bits_eq (n := 6) small small' same ?_
    rw [e, e', show spare = spare' by omega]
  rw [List.length_append, List.length_map, List.length_replicate] at whole whole'
  rw [equal, show signs = signs' by omega]

/-- **The standard form of some bytes is what is written, and nothing else.** -/
theorem isWritten_iff {text : List Char} {bs : Bytes} : IsWritten text bs ↔ text = encode bs :=
  ⟨fun h => h.unique (isWritten_encode bs), fun h => h ▸ isWritten_encode bs⟩

/-- **Just the standard form of some bytes is read as them.** -/
theorem decode_encode_eq_ok_iff {s : String} {bs : Bytes} :
    decode (Utf8.encode s) = .ok bs ↔ IsWritten s.toList bs := by
  rw [decode_eq_ok_iff, encode_eq_bytes, isWritten_iff]
  exact ⟨bytes_injective, congrArg bytes⟩

end MemoTransfer.Text.Base64
