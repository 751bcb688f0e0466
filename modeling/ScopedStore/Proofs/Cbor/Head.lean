import ScopedStore.Cbor.Head

/-!
# Heads read back

`read?_write`: the reader gets from a written head its major type and argument and leaves the bytes
that follow, and refuses what stands for an argument beyond the bound. All widths of the
argument go through one lemma about big-endian numbers.
-/

namespace ScopedStore

namespace Cbor

/-! ## Big-endian numbers -/

theorem length_bigEndian (width n : Nat) : (bigEndian width n).length = width := by
  induction width with
  | zero => rfl
  | succ width ih => simp [bigEndian, ih]

theorem foldl_bigEndian (width n acc : Nat) :
    (bigEndian width n).foldl (fun n b => 256 * n + b.toNat) acc =
      acc <<< (8 * width) + n % 1 <<< (8 * width) := by
  induction width generalizing acc with
  | zero => simp [bigEndian, Nat.mod_one]
  | succ width ih =>
    have hbyte : (UInt8.ofNat (n >>> (8 * width))).toNat = n / 2 ^ (8 * width) % 256 := by
      rw [Nat.shiftRight_eq_div_pow]
      exact UInt8.toNat_ofNat'
    have hpow : 2 ^ (8 * (width + 1)) = 2 ^ (8 * width) * 256 := by
      rw [Nat.mul_add, Nat.pow_add]
    rw [bigEndian, List.foldl_cons, ih, hbyte]
    simp only [Nat.shiftLeft_eq, Nat.one_mul, hpow, Nat.mod_mul]
    rw [Nat.add_mul, Nat.mul_comm 256 acc, Nat.mul_assoc, Nat.mul_comm 256 (2 ^ _), Nat.add_assoc,
      Nat.mul_comm (n / _ % 256), Nat.add_comm (2 ^ _ * _)]

theorem ofBigEndian_bigEndian {width n : Nat} (h : n < 1 <<< (8 * width)) :
    ofBigEndian (bigEndian width n) = n := by
  rw [ofBigEndian, foldl_bigEndian, Nat.zero_shiftLeft, Nat.zero_add, Nat.mod_eq_of_lt h]

/-! ## Taking bytes -/

theorem take?_append (l rest : Bytes) : take? l.length (l ++ rest) = some (l, rest) := by
  induction l with
  | nil => rfl
  | cons b l ih => simp [take?, ih]

theorem take?_bigEndian (width n : Nat) (rest : Bytes) :
    take? width (bigEndian width n ++ rest) = some (bigEndian width n, rest) := by
  have h := take?_append (bigEndian width n) rest
  rwa [length_bigEndian] at h

/-! ## Heads -/

theorem read?_cons {major low : Nat} (hmajor : major < 7) (hlow : low < 32) (bytes : Bytes) :
    read? (UInt8.ofNat (32 * major + low) :: bytes) =
      (argument? low bytes).bind fun r => (Head.ofParts? major 0 r.1).map fun head => (head, r.2) := by
  have hbyte : (UInt8.ofNat (32 * major + low)).toNat = 32 * major + low := by
    rw [UInt8.toNat_ofNat']
    omega
  have hparts : ∀ argument, Head.ofParts? major low argument = Head.ofParts? major 0 argument := by
    intro argument
    match major, hmajor with
    | 0, _ | 1, _ | 2, _ | 3, _ | 4, _ | 5, _ | 6, _ => cases argument <;> rfl
  rw [read?, hbyte, show (32 * major + low) % 32 = low by omega,
    show (32 * major + low) / 32 = major by omega]
  cases argument? low bytes with
  | none => rfl
  | some r => simp [hparts]

theorem read?_wide {major low width n : Nat} (hmajor : major < 7) (hlow : 24 ≤ low ∧ low ≤ 27)
    (hwidth : 1 <<< (low - 24) = width) (hn : n < 1 <<< (8 * width)) (rest : Bytes) :
    read? (UInt8.ofNat (32 * major + low) :: bigEndian width n ++ rest) =
      (Head.ofParts? major 0 (some n)).map fun head => (head, rest) := by
  rw [List.cons_append, read?_cons hmajor (by omega), argument?, if_neg (by omega),
    if_neg (by omega), if_pos hlow.2, hwidth, take?_bigEndian]
  rw [Option.map_some, ofBigEndian_bigEndian hn]
  rfl

theorem read?_write {major : Nat} (hmajor : major < 7) (n : Nat) (rest : Bytes) :
    read? (write major n ++ rest) =
      if n < argumentBound then
        (Head.ofParts? major 0 (some n)).map fun head => (head, rest)
      else none := by
  by_cases hn : n < argumentBound
  · rw [if_pos hn, write]
    split
    · rename_i h
      rw [List.singleton_append, read?_cons hmajor (by omega), argument?, if_pos h]
      rfl
    split
    · exact read?_wide hmajor (by decide) rfl ‹_› rest
    split
    · exact read?_wide hmajor (by decide) rfl ‹_› rest
    split
    · exact read?_wide hmajor (by decide) rfl ‹_› rest
    · exact read?_wide hmajor (by decide) rfl hn rest
  · have hlarge : 0x100000000 ≤ n := by
      rw [argumentBound] at hn
      omega
    rw [if_neg hn, write, if_neg (by omega), if_neg (by omega), if_neg (by omega),
      if_neg (by omega), if_neg hn, List.singleton_append, read?_cons hmajor (by omega), argument?,
      if_neg (by omega), if_neg (by omega), if_neg (by omega)]
    rfl

theorem length_write_pos (major n : Nat) : 0 < (write major n).length := by
  rw [write]
  repeat' split
  all_goals simp

end Cbor

end ScopedStore
