/-!
# Decimal numbers

Numbers are written with their digits, after a minus sign where they are negative. The digits read back, and
none of them is the sign, so a number has a text of its own.
-/

namespace ScopedStore.Decimal

theorem toList_toString (n : Nat) : (toString n).toList = Nat.toDigits 10 n := Nat.toList_repr

theorem toDigits_inj {m n : Nat} (h : Nat.toDigits 10 m = Nat.toDigits 10 n) : m = n := by
  have hread := congrArg (fun digits => Nat.ofDigitChars 10 digits 0) h
  simpa only [Nat.ofDigitChars_ten_toDigits] using hread

theorem isDigit_of_mem_toDigits {n : Nat} {c : Char} (hc : c ∈ Nat.toDigits 10 n) : c.isDigit = true :=
  Nat.isDigit_of_mem_toDigits (by decide) (by decide) hc

theorem dash_notMem_toDigits (n : Nat) : '-' ∉ Nat.toDigits 10 n := fun hmem =>
  absurd (isDigit_of_mem_toDigits hmem) (by decide)

-- `Nat.repr_inj` and `Int.repr_inj` stand beside the library's parsers of numbers, which come with the whole of
-- Mathlib only; the digits are enough for what is used of them here.
theorem nat_repr_inj {m n : Nat} (h : m.repr = n.repr) : m = n := by
  refine toDigits_inj ?_
  rw [← Nat.toList_repr, h, Nat.toList_repr]

theorem nat_repr_ne_dash_append {m n : Nat} : m.repr ≠ "-" ++ n.repr := fun h => by
  have hchars := congrArg String.toList h
  rw [Nat.toList_repr, String.toList_append] at hchars
  exact dash_notMem_toDigits m (hchars ▸ List.mem_cons_self)

theorem int_repr_inj {m n : Int} (h : m.repr = n.repr) : m = n := by
  rw [Int.repr_eq_if, Int.repr_eq_if] at h
  split at h <;> split at h
  · have hnat := nat_repr_inj h
    omega
  · exact absurd h nat_repr_ne_dash_append
  · exact absurd h.symm nat_repr_ne_dash_append
  · have hnat := nat_repr_inj ((String.append_right_inj "-").1 h)
    omega

end ScopedStore.Decimal
