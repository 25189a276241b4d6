import Mathlib.Data.List.Basic
import RenderFlow.Text.Utf8

/-!
Writing characters as bytes loses nothing. A character is read back from the front of its bytes,
whatever follows them (`scalar?_encodeScalar`), so bytes tell the text that they were written from
(`RawText.encode_inj`). No other bytes are read (`Utf8.decode?_eq_some_iff`), and these are the bytes
that a string is kept as (`RawText.toByteArray_encode`).
-/
namespace RenderFlow

namespace Utf8

theorem lead?_ofNat {n : Nat} (byte : n < 256) :
    lead? (.ofNat n) =
      if n < 0x80 then some (n, 0)
      else if n < 0xC0 then none
      else if n < 0xE0 then some (n - 0xC0, 1)
      else if n < 0xF0 then some (n - 0xE0, 2)
      else if n < 0xF8 then some (n - 0xF0, 3)
      else none := by
  unfold lead?
  rw [UInt8.toNat_ofNat_of_lt' byte]

theorem gather?_cons {high bits : Nat} (six : bits < 0x40) (rest : List UInt8) :
    gather? high (.ofNat (0x80 + bits) :: rest) = gather? (high * 0x40 + bits) rest := by
  have small : 0x80 + bits < 256 := by omega
  have byte : (UInt8.ofNat (0x80 + bits)).toNat = 0x80 + bits := UInt8.toNat_ofNat_of_lt' small
  rw [gather?, byte, if_pos (by omega), Nat.add_sub_cancel_left]

theorem scalar?_append {first : UInt8} {more rest : List UInt8} {n : Nat} (high : Nat)
    (leads : lead? first = some (high, more.length)) (gathers : gather? high more = some n)
    (valid : n.isValidChar) (short : (encodeScalar n).length = more.length + 1) :
    scalar? first (more ++ rest) = some (n, more.length) := by
  have enough : more.length ≤ (more ++ rest).length := by simp
  simp only [scalar?, leads, Option.bind_eq_bind, Option.bind_some, List.take_left, gathers]
  exact if_pos ⟨valid, enough, short⟩

theorem scalar?_encodeScalar {n : Nat} (valid : n.isValidChar) (rest : List UInt8) :
    ∃ first more, encodeScalar n = first :: more ∧
      scalar? first (more ++ rest) = some (n, more.length) := by
  have below : n < 0x110000 := by
    rcases valid with low | ⟨-, high⟩
    · omega
    · exact high
  -- One case for each number of bytes, from one to four.
  by_cases one : n < 0x80
  · have shape : encodeScalar n = [.ofNat n] := by simp [encodeScalar, one]
    refine ⟨.ofNat n, [], shape, scalar?_append n ?_ rfl valid ?_⟩
    · rw [lead?_ofNat (by omega), if_pos one]
      rfl
    · rw [shape]
      rfl
  by_cases two : n < 0x800
  · have shape : encodeScalar n = [.ofNat (0xC0 + n / 0x40), .ofNat (0x80 + n % 0x40)] := by
      simp [encodeScalar, one, two]
    refine ⟨_, _, shape, scalar?_append (n / 0x40) ?_ ?_ valid ?_⟩
    · rw [lead?_ofNat (by omega), if_neg (by omega), if_neg (by omega), if_pos (by omega),
        Nat.add_sub_cancel_left]
      rfl
    · rw [gather?_cons (by omega), gather?]
      congr 1
      omega
    · rw [shape]
      rfl
  by_cases three : n < 0x10000
  · have shape : encodeScalar n =
        [.ofNat (0xE0 + n / 0x1000), .ofNat (0x80 + n / 0x40 % 0x40),
          .ofNat (0x80 + n % 0x40)] := by
      simp [encodeScalar, one, two, three]
    refine ⟨_, _, shape, scalar?_append (n / 0x1000) ?_ ?_ valid ?_⟩
    · rw [lead?_ofNat (by omega), if_neg (by omega), if_neg (by omega), if_neg (by omega),
        if_pos (by omega), Nat.add_sub_cancel_left]
      rfl
    · rw [gather?_cons (by omega), gather?_cons (by omega), gather?]
      congr 1
      omega
    · rw [shape]
      rfl
  · have shape : encodeScalar n =
        [.ofNat (0xF0 + n / 0x40000), .ofNat (0x80 + n / 0x1000 % 0x40),
          .ofNat (0x80 + n / 0x40 % 0x40), .ofNat (0x80 + n % 0x40)] := by
      simp [encodeScalar, one, two, three]
    refine ⟨_, _, shape, scalar?_append (n / 0x40000) ?_ ?_ valid ?_⟩
    · rw [lead?_ofNat (by omega), if_neg (by omega), if_neg (by omega), if_neg (by omega),
        if_neg (by omega), if_pos (by omega), Nat.add_sub_cancel_left]
      rfl
    · rw [gather?_cons (by omega), gather?_cons (by omega), gather?_cons (by omega), gather?]
      congr 1
      omega
    · rw [shape]
      rfl

theorem decode?_encodeScalar_append (c : Char) (rest : List UInt8) :
    decode? (encodeScalar c.toNat ++ rest) = (decode? rest).map (c :: ·) := by
  obtain ⟨first, more, shape, reads⟩ := scalar?_encodeScalar c.valid rest
  change encodeScalar c.toNat = first :: more at shape
  change scalar? first (more ++ rest) = some (c.toNat, more.length) at reads
  rw [shape, List.cons_append, decode?, reads]
  simp only [List.drop_left, Char.ofNat_toNat]

theorem decode?_encode (cs : List Char) :
    decode? (cs.flatMap fun c => encodeScalar c.toNat) = some cs := by
  induction cs with
  | nil => simp [decode?]
  | cons c rest ih => rw [List.flatMap_cons, decode?_encodeScalar_append, ih, Option.map_some]

theorem lead?_cases {b : UInt8} {high more : Nat} (leads : lead? b = some (high, more)) :
    more = 0 ∧ b.toNat = high ∧ high < 0x80 ∨
      more = 1 ∧ b.toNat = 0xC0 + high ∧ high < 0x20 ∨
      more = 2 ∧ b.toNat = 0xE0 + high ∧ high < 0x10 ∨
      more = 3 ∧ b.toNat = 0xF0 + high ∧ high < 0x08 := by
  unfold lead? at leads
  dsimp only at leads
  split at leads
  · simp only [Option.some.injEq, Prod.mk.injEq] at leads
    omega
  split at leads
  · cases leads
  split at leads
  · simp only [Option.some.injEq, Prod.mk.injEq] at leads
    omega
  split at leads
  · simp only [Option.some.injEq, Prod.mk.injEq] at leads
    omega
  split at leads
  · simp only [Option.some.injEq, Prod.mk.injEq] at leads
    omega
  · cases leads

theorem gather?_cons_eq_some_iff {high n : Nat} {b : UInt8} {rest : List UInt8} :
    gather? high (b :: rest) = some n ↔
      ∃ bits, bits < 0x40 ∧ b.toNat = 0x80 + bits ∧ gather? (high * 0x40 + bits) rest = some n := by
  rw [gather?]
  constructor
  · intro gathers
    split at gathers
    · exact ⟨b.toNat - 0x80, by omega, by omega, gathers⟩
    · cases gathers
  · rintro ⟨bits, six, byte, gathers⟩
    rw [if_pos (by omega), show b.toNat - 0x80 = bits by omega, gathers]

theorem length_encodeScalar_cases (n : Nat) :
    n < 0x80 ∧ (encodeScalar n).length = 1 ∨
      0x80 ≤ n ∧ n < 0x800 ∧ (encodeScalar n).length = 2 ∨
      0x800 ≤ n ∧ n < 0x10000 ∧ (encodeScalar n).length = 3 ∨
      0x10000 ≤ n ∧ (encodeScalar n).length = 4 := by
  unfold encodeScalar
  split
  · exact .inl ⟨‹_›, rfl⟩
  split
  · exact .inr (.inl ⟨by omega, ‹_›, rfl⟩)
  split
  · exact .inr (.inr (.inl ⟨by omega, ‹_›, rfl⟩))
  · exact .inr (.inr (.inr ⟨by omega, rfl⟩))

theorem eq_ofNat {b : UInt8} {n : Nat} (byte : b.toNat = n) : b = .ofNat n := by
  rw [← byte, UInt8.ofNat_toNat]

/-- The bytes that give a scalar in its shortest form are the ones that it is written with. -/
theorem eq_encodeScalar {first : UInt8} {more : List UInt8} {high n : Nat}
    (leads : lead? first = some (high, more.length)) (gathers : gather? high more = some n)
    (short : (encodeScalar n).length = more.length + 1) : first :: more = encodeScalar n := by
  have range := length_encodeScalar_cases n
  rcases lead?_cases leads with ⟨size, byte, bound⟩ | ⟨size, byte, bound⟩ | ⟨size, byte, bound⟩ |
      ⟨size, byte, bound⟩
  · obtain rfl := List.length_eq_zero_iff.mp size
    obtain rfl := Option.some.inj gathers
    rw [encodeScalar, if_pos bound, eq_ofNat byte]
  · obtain ⟨b, rfl⟩ := List.length_eq_one_iff.mp size
    obtain ⟨bits, six, second, gathers⟩ := gather?_cons_eq_some_iff.mp gathers
    have scalar : high * 0x40 + bits = n := Option.some.inj gathers
    have first_eq : first.toNat = 0xC0 + n / 0x40 := by omega
    have second_eq : b.toNat = 0x80 + n % 0x40 := by omega
    rw [encodeScalar, if_neg (by omega), if_pos (by omega), eq_ofNat first_eq, eq_ofNat second_eq]
  · obtain ⟨b, c, rfl⟩ := List.length_eq_two.mp size
    obtain ⟨bits, six, second, gathers⟩ := gather?_cons_eq_some_iff.mp gathers
    obtain ⟨last, small, third, gathers⟩ := gather?_cons_eq_some_iff.mp gathers
    have scalar : (high * 0x40 + bits) * 0x40 + last = n := Option.some.inj gathers
    have first_eq : first.toNat = 0xE0 + n / 0x1000 := by omega
    have second_eq : b.toNat = 0x80 + n / 0x40 % 0x40 := by omega
    have third_eq : c.toNat = 0x80 + n % 0x40 := by omega
    rw [encodeScalar, if_neg (by omega), if_neg (by omega), if_pos (by omega), eq_ofNat first_eq,
      eq_ofNat second_eq, eq_ofNat third_eq]
  · obtain ⟨b, c, d, rfl⟩ := List.length_eq_three.mp size
    obtain ⟨bits, six, second, gathers⟩ := gather?_cons_eq_some_iff.mp gathers
    obtain ⟨next, low, third, gathers⟩ := gather?_cons_eq_some_iff.mp gathers
    obtain ⟨last, small, fourth, gathers⟩ := gather?_cons_eq_some_iff.mp gathers
    have scalar : ((high * 0x40 + bits) * 0x40 + next) * 0x40 + last = n :=
      Option.some.inj gathers
    have first_eq : first.toNat = 0xF0 + n / 0x40000 := by omega
    have second_eq : b.toNat = 0x80 + n / 0x1000 % 0x40 := by omega
    have third_eq : c.toNat = 0x80 + n / 0x40 % 0x40 := by omega
    have fourth_eq : d.toNat = 0x80 + n % 0x40 := by omega
    rw [encodeScalar, if_neg (by omega), if_neg (by omega), if_neg (by omega), eq_ofNat first_eq,
      eq_ofNat second_eq, eq_ofNat third_eq, eq_ofNat fourth_eq]

theorem encodeScalar_of_scalar? {first : UInt8} {rest : List UInt8} {n more : Nat}
    (reads : scalar? first rest = some (n, more)) :
    n.isValidChar ∧ encodeScalar n ++ rest.drop more = first :: rest := by
  simp only [scalar?, Option.bind_eq_bind, Option.bind_eq_some_iff, Prod.exists] at reads
  obtain ⟨high, size, leads, scalar, gathers, reads⟩ := reads
  split at reads
  · rename_i sound
    obtain ⟨valid, enough, short⟩ := sound
    obtain ⟨rfl, rfl⟩ := Prod.mk.inj (Option.some.inj reads)
    have taken : (rest.take size).length = size := List.length_take_of_le enough
    rw [← eq_encodeScalar (taken.symm ▸ leads) gathers (taken.symm ▸ short), List.cons_append,
      List.take_append_drop]
    exact ⟨valid, rfl⟩
  · cases reads

theorem decode?_eq_some_iff {bytes : List UInt8} {cs : List Char} :
    decode? bytes = some cs ↔ bytes = cs.flatMap fun c => encodeScalar c.toNat := by
  refine ⟨fun reads => ?_, fun written => written ▸ decode?_encode cs⟩
  fun_induction decode? bytes generalizing cs with
  | case1 =>
    obtain rfl := Option.some.inj reads
    rfl
  | case2 => cases reads
  | case3 first rest n more found ih =>
    obtain ⟨others, tail, rfl⟩ := Option.map_eq_some_iff.mp reads
    obtain ⟨valid, whole⟩ := encodeScalar_of_scalar? found
    rw [List.flatMap_cons, ← ih tail, Char.ofNat, dif_pos valid, ← whole]
    rfl

/-- The same four forms are the ones that strings are made of. -/
theorem encodeScalar_toNat (c : Char) : encodeScalar c.toNat = String.utf8EncodeChar c := by
  have below : c.toNat < 0x110000 := by
    rcases c.valid with low | ⟨-, high⟩
    · exact Nat.lt_trans low (by decide)
    · exact high
  change encodeScalar c.val.toNat = _
  change c.val.toNat < 0x110000 at below
  unfold encodeScalar String.utf8EncodeChar
  dsimp only
  split
  · rw [if_pos (by omega)]
  split
  · rw [if_neg (by omega), if_pos (by omega), Nat.add_comm 0xC0, Nat.add_comm 0x80,
      Nat.mod_eq_of_lt (by omega : c.val.toNat / 64 < 0x20)]
  split
  · rw [if_neg (by omega), if_neg (by omega), if_pos (by omega), Nat.add_comm 0xE0,
      Nat.add_comm 0x80, Nat.add_comm 0x80,
      Nat.mod_eq_of_lt (by omega : c.val.toNat / 4096 < 0x10)]
  · rw [if_neg (by omega), if_neg (by omega), if_neg (by omega), Nat.add_comm 0xF0,
      Nat.add_comm 0x80, Nat.add_comm 0x80, Nat.add_comm 0x80,
      Nat.mod_eq_of_lt (by omega : c.val.toNat / 262144 < 0x08)]

end Utf8

theorem toNat_ofNat {n : Nat} (valid : n.isValidChar) : (Char.ofNat n).toNat = n := by
  rw [Char.ofNat, dif_pos valid]
  rfl

theorem CodePoint.toNat_toChar (p : CodePoint) :
    p.toChar.toNat = if p.val.isValidChar then p.val else 0x3F := by
  unfold toChar
  split
  · rename_i valid
    exact toNat_ofNat valid
  · rfl

namespace CodePoint

/-- The halves of the pairs that stand for large code points elsewhere; no characters of their own. -/
def IsSurrogate (p : CodePoint) : Prop :=
  0xD800 ≤ p.val ∧ p.val ≤ 0xDFFF

instance (p : CodePoint) : Decidable p.IsSurrogate :=
  inferInstanceAs (Decidable (_ ∧ _))

def questionMark : CodePoint := .ofChar '?'

theorem isValidChar_iff (p : CodePoint) : p.val.isValidChar ↔ ¬ p.IsSurrogate := by
  have := p.isLt
  unfold Nat.isValidChar IsSurrogate
  omega

theorem ofChar_toChar (p : CodePoint) :
    ofChar p.toChar = if p.IsSurrogate then questionMark else p := by
  apply Fin.ext
  change p.toChar.toNat = _
  rw [toNat_toChar]
  by_cases surrogate : p.IsSurrogate
  · rw [if_neg fun valid => p.isValidChar_iff.mp valid surrogate, if_pos surrogate]
    rfl
  · rw [if_pos (p.isValidChar_iff.mpr surrogate), if_neg surrogate]

theorem not_isSurrogate_ofChar (c : Char) : ¬ (ofChar c).IsSurrogate :=
  (isValidChar_iff _).mp c.valid

theorem toChar_ofChar (c : Char) : (ofChar c).toChar = c := by
  rw [toChar, if_pos (show (ofChar c).val.isValidChar from c.valid)]
  exact Char.ofNat_toNat c

end CodePoint

namespace RawText

theorem ofString_clean (t : RawText) :
    ofString t.clean = t.map fun p => if p.IsSurrogate then .questionMark else p := by
  rw [ofString, clean, String.toList_ofList, List.map_map]
  exact List.map_congr_left fun p _ => p.ofChar_toChar

@[simp] theorem clean_ofString (s : String) : (ofString s).clean = s := by
  rw [clean, ofString, List.map_map]
  have same : CodePoint.toChar ∘ CodePoint.ofChar = id := funext CodePoint.toChar_ofChar
  rw [same, List.map_id, String.ofList_toList]

theorem not_isSurrogate_of_mem_ofString {s : String} {p : CodePoint} (within : p ∈ ofString s) :
    ¬ p.IsSurrogate := by
  obtain ⟨c, -, rfl⟩ := List.mem_map.mp within
  exact CodePoint.not_isSurrogate_ofChar c

theorem encode_eq (t : RawText) :
    t.encode = (t.map CodePoint.toChar).flatMap fun c => Utf8.encodeScalar c.toNat := by
  rw [encode, List.flatMap_map]

theorem decode?_encode (t : RawText) : Utf8.decode? t.encode = some (t.map CodePoint.toChar) := by
  rw [encode_eq, Utf8.decode?_encode]

theorem encode_inj {s t : RawText} : s.encode = t.encode ↔ s.clean = t.clean := by
  constructor
  · intro same
    have chars := (decode?_encode s).symm.trans (same ▸ decode?_encode t)
    rw [clean, clean, Option.some.inj chars]
  · intro same
    rw [encode_eq, encode_eq, String.ofList_injective same]

theorem toByteArray_encode (t : RawText) : t.encode.toByteArray = t.clean.toByteArray := by
  rw [encode_eq, clean, String.toByteArray_ofList, List.utf8Encode]
  simp only [Utf8.encodeScalar_toNat]

theorem encode_ofString_clean (t : RawText) : (ofString t.clean).encode = t.encode :=
  encode_inj.mpr (clean_ofString t.clean)

theorem encode_append (s t : RawText) : (s ++ t : RawText).encode = s.encode ++ t.encode := by
  unfold encode
  exact List.flatMap_append

end RawText

end RenderFlow
