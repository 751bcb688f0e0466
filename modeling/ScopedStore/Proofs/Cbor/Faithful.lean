import ScopedStore.Proofs.Cbor.RoundTrip
import ScopedStore.Store.Pending

/-!
# Bytes that stand for one document

`encode_faithful`: the bytes of a document are one whole item for every reader that has the levels it
takes, the store gets the document back from them if its own limit allows so many and else reports
that they cannot be decoded, and no other document has the same bytes.

The last part does not follow from what the store's reader gives, because two documents could both be
beyond its limit. It comes from a reader without that limit (`readWithin?`), whose limit is
taken to be the levels of both.
-/

namespace ScopedStore

namespace Document

/-! ## What a document takes -/

/-- The number of levels that a document takes: one for its map and those of its deepest field. -/
def levels (d : Document) : Nat := 1 + Value.levelsOfFields d.entries

/-- A document that fits a machine: fields ascend, and every length is below the bound of a word. -/
structure Storable (d : Document) : Prop where
  ordered : d.Ordered
  sized : (Value.document d).isSized = true

theorem Storable.isReadable_iff {d : Document} (h : d.Storable) (limit : Nat) :
    (Value.document d).isReadable (limit + 1) = true ↔ d.levels ≤ limit := by
  rw [Value.isReadable, h.sized, Bool.and_true, decide_eq_true_iff, Value.levels, levels]
  omega

/-! ## Readers with any limit -/

/-- Reads a document that may take so many levels, and leaves the bytes after it. -/
def readWithin? (bytes : Bytes) : Nat → Option (Document × Bytes)
  | 0 => none
  | limit + 1 => Cbor.fields? (some (Cbor.value? bytes.length limit)) bytes.length bytes

theorem decode?_eq_readWithin? (bytes : Bytes) :
    decode? bytes = (readWithin? bytes Cbor.depthLimit).map Prod.fst := rfl

theorem readWithin?_encode {d : Document} (h : d.Storable) (limit : Nat) (rest : Bytes) :
    readWithin? (d.encode ++ rest) limit = if d.levels ≤ limit then some (d, rest) else none := by
  cases limit with
  | zero =>
    have hlevels : ¬d.levels ≤ 0 := by
      rw [levels]
      omega
    rw [readWithin?, if_neg hlevels]
  | succ limit =>
    have hfields : ∀ e ∈ d.entries, Cbor.ReadsBack e.2 := fun e he =>
      Cbor.readsBack e.2 ((ordered_iff.1 h.ordered).2 e he)
    have hfuel : d.encode.length ≤ (d.encode ++ rest).length := by
      rw [List.length_append]
      exact Nat.le_add_right _ _
    have hread := Cbor.fields?_entries (n := limit) h.ordered.sorted hfields hfuel rest
    rw [← List.append_assoc] at hread
    by_cases hlevels : d.levels ≤ limit + 1
    · rw [if_pos hlevels]
      exact hread.trans (if_pos ((h.isReadable_iff (limit + 1)).2 hlevels))
    · rw [if_neg hlevels]
      exact hread.trans (if_neg fun hr => hlevels ((h.isReadable_iff (limit + 1)).1 hr))

/-! ## Bytes and documents -/

theorem decodeStored_encode {d : Document} (h : d.Storable) :
    decodeStored d.encode =
      if d.levels ≤ Cbor.depthLimit then .ok d else .error .undecodable := by
  have hread := readWithin?_encode h Cbor.depthLimit []
  rw [List.append_nil] at hread
  rw [decodeStored, decode?_eq_readWithin?, hread]
  by_cases hlevels : d.levels ≤ Cbor.depthLimit
  · rw [if_pos hlevels, if_pos hlevels]
    rfl
  · rw [if_neg hlevels, if_neg hlevels]
    rfl

/-- Two documents with the same bytes are one. -/
theorem encode_inj {d d' : Document} (h : d.Storable) (h' : d'.Storable)
    (hbytes : d'.encode = d.encode) : d' = d := by
  have hread := readWithin?_encode h (max d.levels d'.levels) []
  have hread' := readWithin?_encode h' (max d.levels d'.levels) []
  rw [if_pos (Nat.le_max_left _ _)] at hread
  rw [if_pos (Nat.le_max_right _ _), hbytes, hread] at hread'
  exact (congrArg Prod.fst (Option.some.inj hread')).symm

/-- The bytes of a document are a whole item, give the document back within the limit of the store and
an error beyond it, and stand for no other document. -/
theorem encode_faithful {d : Document} (h : d.Storable) :
    (∀ limit rest, d.levels ≤ limit → readWithin? (d.encode ++ rest) limit = some (d, rest)) ∧
      decodeStored d.encode =
        (if d.levels ≤ Cbor.depthLimit then .ok d else .error .undecodable) ∧
      ∀ d' : Document, d'.Storable → d'.encode = d.encode → d' = d :=
  ⟨fun limit rest hlevels => by rw [readWithin?_encode h, if_pos hlevels],
    decodeStored_encode h, fun _ h' => encode_inj h h'⟩

def receipt : Document :=
  ⟨[("_id", .integer (-70000)),
    ("lines", .array [.null, .bool true, .text "à la carte", .bytes [0, 200],
      .document (single "net" (.integer 300))])]⟩

theorem storable_receipt : receipt.Storable where
  ordered := by
    have hline : (single "net" (.integer 300)).Ordered := ordered_iff.2
      ⟨List.pairwise_singleton _ _, fun e he => by rw [List.mem_singleton.1 he]; trivial⟩
    refine ordered_pair (by decide) trivial ?_
    exact ⟨trivial, trivial, trivial, trivial, hline, trivial⟩
  sized := by decide +kernel

theorem encode_faithful_receipt :
    receipt.Storable ∧ decodeStored receipt.encode = .ok receipt ∧
      ∀ d' : Document, d'.Storable → d'.encode = receipt.encode → d' = receipt := by
  have hread := encode_faithful storable_receipt
  rw [if_pos (by decide +kernel)] at hread
  exact ⟨storable_receipt, hread.2⟩

end Document

end ScopedStore
