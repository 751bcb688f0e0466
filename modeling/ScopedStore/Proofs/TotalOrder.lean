import Mathlib.Data.List.Lex
import Mathlib.Tactic.SplitIfs
import ScopedStore.Cbor.Encode
import ScopedStore.Proofs.Order

/-!
# The order of values by first differences

`Before` says the order of values without computing it: a kind comes before the later kinds, and within
a kind the first difference decides, where a proper beginning comes first. Texts and field names differ
first in a byte of their UTF-8 form. That comparing them by code points comes to the same is the one step
that is not plain induction (`compare_eq_lt_iff_utf8`): a code point comes out as its digits to base 64
from the top, under a first byte that grows with their number.

The comparison of values is this order (`cmp_eq_lt_iff`), so its laws are those of the comparison
(`totally_ordered`).
-/

namespace ScopedStore

/-! ## Texts by their bytes -/

namespace Cbor

/-- Of two code points the smaller has the smaller bytes, whatever follows them. -/
theorem encodeChar_append_lt {c d : Char} (h : c < d) (x y : Bytes) :
    String.utf8EncodeChar c ++ x < String.utf8EncodeChar d ++ y := by
  have hlt : c.val.toNat < d.val.toNat := h
  have hbound : d.val.toNat < 0x110000 := by
    rcases d.valid with hd | ⟨-, hd⟩ <;> omega
  have hbyte {a b : UInt8} {l r : Bytes} :
      a :: l < b :: r ↔ a.toNat < b.toNat ∨ a.toNat = b.toNat ∧ l < r := by
    rw [List.cons_lt_cons_iff, UInt8.lt_iff_toNat_lt, UInt8.toNat_inj]
  have hdiv₂ (n : Nat) : n / 4096 = n / 64 / 64 := by omega
  have hdiv₃ (n : Nat) : n / 262144 = n / 64 / 64 / 64 := by omega
  -- A case for each pair of lengths: with more digits the first byte is greater, with as many the
  -- digits are compared from the top.
  simp only [String.utf8EncodeChar]
  split_ifs <;>
    simp only [List.cons_append, List.nil_append, hbyte, UInt8.toNat_ofNat', hdiv₂, hdiv₃] <;>
    omega

theorem utf8_eq_flatMap (s : String) : utf8 s = s.toList.flatMap String.utf8EncodeChar := by
  conv_lhs => rw [← String.ofList_toList (s := s)]
  rw [utf8, String.toUTF8, String.toByteArray_ofList]
  simp [List.utf8Encode]

theorem flatMap_encodeChar_lt {l r : List Char} (h : l < r) :
    l.flatMap String.utf8EncodeChar < r.flatMap String.utf8EncodeChar := by
  induction h with
  | @nil c rest =>
    obtain ⟨b, bytes, hbytes⟩ := List.exists_cons_of_ne_nil (String.utf8EncodeChar_ne_nil (c := c))
    rw [List.flatMap_nil, List.flatMap_cons, hbytes]
    exact List.nil_lt_cons _ _
  | cons _ ih =>
    rw [List.flatMap_cons, List.flatMap_cons]
    exact List.append_left_lt ih
  | rel hc =>
    rw [List.flatMap_cons, List.flatMap_cons]
    exact encodeChar_append_lt hc _ _

theorem utf8_lt_of_compare {s t : String} (h : compare s t = .lt) : utf8 s < utf8 t := by
  have hlt : s < t := compareOfLessAndEq_eq_lt.1 h
  rw [utf8_eq_flatMap, utf8_eq_flatMap]
  exact flatMap_encodeChar_lt (String.lt_iff.1 hlt)

/-- Texts compare as their bytes do. -/
theorem compare_eq_lt_iff_utf8 {s t : String} : compare s t = .lt ↔ utf8 s < utf8 t := by
  refine ⟨utf8_lt_of_compare, fun h => ?_⟩
  cases hcmp : compare s t with
  | lt => rfl
  | eq =>
    rw [Std.LawfulEqCmp.eq_of_compare hcmp] at h
    exact absurd h (List.lt_irrefl _)
  | gt =>
    exact absurd (utf8_lt_of_compare (Std.OrientedCmp.lt_of_gt hcmp)) (List.lt_asymm h)

end Cbor

namespace Value

/-! ## The order -/

/-- One value stands before another. Lists are in lexicographic order, where a proper beginning comes
first. -/
inductive Before : Value → Value → Prop
  /-- Its kind comes before that of the other. -/
  | kind {a b : Value} (h : a.rank < b.rank) : Before a b
  | bool {x y : Bool} (h : x < y) : Before (.bool x) (.bool y)
  | integer {m n : Int64} (h : m.toInt < n.toInt) : Before (.integer m) (.integer n)
  | text {s t : String} (h : Cbor.utf8 s < Cbor.utf8 t) : Before (.text s) (.text t)
  | bytes {x y : List UInt8} (h : x < y) : Before (.bytes x) (.bytes y)
  | array {x y : List Value} (h : List.Lex Before x y) : Before (.array x) (.array y)
  /-- Entries go by the name of the field, and under one name by the value. -/
  | document {x y : Document}
      (h : List.Lex (Prod.Lex (fun k l => Cbor.utf8 k < Cbor.utf8 l) Before) x.entries y.entries) :
      Before (.document x) (.document y)

theorem before_iff_rank_lt {a b : Value} (h : a.rank ≠ b.rank) : Before a b ↔ a.rank < b.rank := by
  refine ⟨fun hab => ?_, .kind⟩
  cases hab with
  | kind hrank => exact hrank
  | _ => exact absurd rfl h

theorem cmp_eq_compare_rank {a b : Value} (h : a.rank ≠ b.rank) : cmp a b = compare a.rank b.rank := by
  cases a <;> cases b <;> first | rfl | exact absurd rfl h

/-- The comparison has to be looked at within one kind only. -/
theorem cmp_eq_lt_iff_of_same_rank {a b : Value}
    (h : a.rank = b.rank → (cmp a b = .lt ↔ Before a b)) : cmp a b = .lt ↔ Before a b := by
  by_cases hrank : a.rank = b.rank
  · exact h hrank
  · rw [cmp_eq_compare_rank hrank, before_iff_rank_lt hrank, Nat.compare_eq_lt]

theorem compare_bytes_eq_lt_iff (x y : List UInt8) : compare x y = .lt ↔ x < y := by
  induction x generalizing y with
  | nil => cases y <;> simp
  | cons a x ih =>
    cases y with
    | nil => simp
    | cons b y =>
      rw [List.compare_cons_cons, Ordering.then_eq_lt, List.cons_lt_cons_iff, ih,
        Std.compare_eq_lt, Std.LawfulEqOrd.compare_eq_iff_eq]

mutual

theorem cmp_eq_lt_iff : (a b : Value) → (cmp a b = .lt ↔ Before a b)
  | .null, b => cmp_eq_lt_iff_of_same_rank fun h => by
    cases b <;> cases h
    exact ⟨nofun, fun | .kind h => absurd h (Nat.lt_irrefl _)⟩
  | .bool x, b => cmp_eq_lt_iff_of_same_rank fun h => by
    cases b <;> cases h
    rename_i y
    have hcmp : compare x y = .lt ↔ x < y := by cases x <;> cases y <;> decide
    exact hcmp.trans ⟨.bool, fun | .bool h => h | .kind h => absurd h (Nat.lt_irrefl _)⟩
  | .integer x, b => cmp_eq_lt_iff_of_same_rank fun h => by
    cases b <;> cases h
    exact (Std.compare_eq_lt.trans Int64.lt_iff_toInt_lt).trans
      ⟨.integer, fun | .integer h => h | .kind h => absurd h (Nat.lt_irrefl _)⟩
  | .text x, b => cmp_eq_lt_iff_of_same_rank fun h => by
    cases b <;> cases h
    exact Cbor.compare_eq_lt_iff_utf8.trans
      ⟨.text, fun | .text h => h | .kind h => absurd h (Nat.lt_irrefl _)⟩
  | .bytes x, b => cmp_eq_lt_iff_of_same_rank fun h => by
    cases b <;> cases h
    exact (compare_bytes_eq_lt_iff x _).trans
      ⟨.bytes, fun | .bytes h => h | .kind h => absurd h (Nat.lt_irrefl _)⟩
  | .array x, b => cmp_eq_lt_iff_of_same_rank fun h => by
    cases b <;> cases h
    exact (cmpItems_eq_lt_iff x _).trans
      ⟨.array, fun | .array h => h | .kind h => absurd h (Nat.lt_irrefl _)⟩
  | .document ⟨x⟩, b => cmp_eq_lt_iff_of_same_rank fun h => by
    cases b <;> cases h
    exact (cmpFields_eq_lt_iff x _).trans
      ⟨.document, fun | .document h => h | .kind h => absurd h (Nat.lt_irrefl _)⟩

theorem cmpItems_eq_lt_iff : (x y : List Value) → (cmpItems x y = .lt ↔ List.Lex Before x y)
  | [], [] => ⟨nofun, nofun⟩
  | [], _ :: _ => ⟨fun _ => .nil, fun _ => rfl⟩
  | _ :: _, [] => ⟨nofun, nofun⟩
  | a :: x, b :: y => by
    rw [cmpItems, Ordering.then_eq_lt, List.cons_lex_cons_iff, cmp_eq_lt_iff a b, cmp_eq_iff,
      cmpItems_eq_lt_iff x y]

theorem cmpFields_eq_lt_iff : (x y : List (String × Value)) → (cmpFields x y = .lt ↔
    List.Lex (Prod.Lex (fun k l => Cbor.utf8 k < Cbor.utf8 l) Before) x y)
  | [], [] => ⟨nofun, nofun⟩
  | [], _ :: _ => ⟨fun _ => .nil, fun _ => rfl⟩
  | _ :: _, [] => ⟨nofun, nofun⟩
  | (k, a) :: x, (l, b) :: y => by
    rw [cmpFields, Ordering.then_eq_lt, Ordering.then_eq_lt, then_eq_eq, List.cons_lex_cons_iff,
      Prod.lex_def, Prod.mk.injEq, Cbor.compare_eq_lt_iff_utf8, Std.LawfulEqOrd.compare_eq_iff_eq,
      cmp_eq_lt_iff a b, cmp_eq_iff, cmpFields_eq_lt_iff x y]

end

/-! ## Its laws -/

theorem cmp_eq_gt_iff (a b : Value) : cmp a b = .gt ↔ Before b a := by
  rw [← cmp_eq_lt_iff, ← cmp_swap a b, Ordering.swap_eq_lt]

/-- Values are totally ordered. The comparison of two values is the order by first differences, where equal
means the same value; exactly one of before, equal and after holds; the order is transitive; and the
comparison within kinds is the same order for values of one kind and nothing for others. -/
theorem totally_ordered (a b c : Value) :
    ((a.cmp b = .lt ↔ a.Before b) ∧ (a.cmp b = .eq ↔ a = b) ∧ (a.cmp b = .gt ↔ b.Before a)) ∧
    (a.Before b ∧ a ≠ b ∧ ¬b.Before a ∨ ¬a.Before b ∧ a = b ∧ ¬b.Before a ∨
      ¬a.Before b ∧ a ≠ b ∧ b.Before a) ∧
    (a.Before b → b.Before c → a.Before c) ∧
    (a.rank = b.rank → a.compare? b = some (a.cmp b)) ∧ (a.rank ≠ b.rank → a.compare? b = none) := by
  refine ⟨⟨cmp_eq_lt_iff a b, cmp_eq_iff, cmp_eq_gt_iff a b⟩, ?_, ?_, fun h => if_pos h,
    fun h => if_neg h⟩
  · rw [ne_eq, ← cmp_eq_lt_iff, ← cmp_eq_iff, ← cmp_eq_gt_iff]
    cases a.cmp b <;> simp
  · simp only [← cmp_eq_lt_iff]
    exact cmp_lt_trans a b c

/-- A price list in an array, by the sign of the currency and perhaps with a note. -/
def prices (sign : String) (note? : Option String) : Value :=
  .array [.null, .document ⟨(sign, .array [.integer (-3), .bytes [0x80]]) ::
    (note?.map fun note => ("☂", Value.text note)).toList⟩]

/-- Deep in an array a document comes before a longer one, and `£` before `€`, which takes three bytes. -/
theorem totally_ordered_prices :
    (prices "£" none).Before (prices "£" (some "")) ∧
      (prices "£" (some "")).Before (prices "€" none) ∧ (prices "£" none).Before (prices "€" none) ∧
      (prices "£" none).compare? (prices "€" none) = some .lt ∧
      (prices "£" none).compare? (.text "£") = none := by
  obtain ⟨⟨hlonger, -⟩, -, htrans, -⟩ :=
    totally_ordered (prices "£" none) (prices "£" (some "")) (prices "€" none)
  obtain ⟨⟨hsign, -⟩, -⟩ := totally_ordered (prices "£" (some "")) (prices "€" none) .null
  obtain ⟨⟨hboth, -⟩, -, -, hwithin, -⟩ :=
    totally_ordered (prices "£" none) (prices "€" none) .null
  obtain ⟨-, -, -, -, hacross⟩ := totally_ordered (prices "£" none) (.text "£") .null
  have hfirst : (prices "£" none).Before (prices "£" (some "")) := hlonger.1 (by decide +kernel)
  have hsecond : (prices "£" (some "")).Before (prices "€" none) := hsign.1 (by decide +kernel)
  have hthird := htrans hfirst hsecond
  exact ⟨hfirst, hsecond, hthird, (hwithin rfl).trans (congrArg some (hboth.2 hthird)),
    hacross (by decide)⟩

end Value

end ScopedStore
