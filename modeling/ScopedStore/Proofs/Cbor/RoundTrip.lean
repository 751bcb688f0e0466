import ScopedStore.Cbor.Decode
import ScopedStore.Proofs.Cbor.Head
import ScopedStore.Proofs.Ordered

/-!
# Documents read back

`decode?_encode`: the bytes of an ordered document decode to that document if it is within the levels
of the reader and each of its lengths has a head, and to nothing otherwise. So bytes never stand for
another document than the one they were written for (`eq_of_decode?_encode`).

Every reader below meets what its writer wrote, followed by any bytes, and leaves these. The fuel of a
reader is always enough, because each turn of a loop takes a byte.
-/

namespace ScopedStore

namespace Cbor

/-! ## Texts -/

theorem ofUtf8?_utf8 (s : String) : ofUtf8? (utf8 s) = some s := by
  have hbytes : (⟨(utf8 s).toArray⟩ : ByteArray) = s.toByteArray := rfl
  rw [ofUtf8?, hbytes, String.fromUTF8?, dif_pos s.isValidUTF8]
  rfl

theorem utf8_inj {s t : String} : utf8 s = utf8 t ↔ s = t := by
  refine ⟨fun h => ?_, fun h => h ▸ rfl⟩
  have := congrArg ofUtf8? h
  rwa [ofUtf8?_utf8, ofUtf8?_utf8, Option.some.injEq] at this

theorem untagged?_write {major fuel : Nat} (hmajor : major < 6) (hfuel : 0 < fuel) (n : Nat)
    (rest : Bytes) :
    untagged? fuel (write major n ++ rest) =
      if n < argumentBound then
        (Head.ofParts? major 0 (some n)).map fun head => (head, rest)
      else none := by
  obtain ⟨fuel, rfl⟩ := Nat.exists_eq_succ_of_ne_zero (by omega : fuel ≠ 0)
  rw [untagged?, read?_write (by omega)]
  by_cases hn : n < argumentBound
  · rw [if_pos hn]
    match major, hmajor with
    | 0, _ | 1, _ | 2, _ | 3, _ | 4, _ | 5, _ => rfl
  · rw [if_neg hn]

theorem text?_text {fuel : Nat} (hfuel : 0 < fuel) (s : String) (rest : Bytes) :
    text? fuel (text s ++ rest) =
      if (utf8 s).length < argumentBound then some (s, rest) else none := by
  rw [text?, text, List.append_assoc, untagged?_write (by omega) hfuel]
  split
  · simp [Head.ofParts?, textLength?, segments?, take?_append, ofUtf8?_utf8]
  · rfl

/-! ## Names of kinds -/

theorem kind?_kind {fuel : Nat} (hfuel : 0 < fuel) (name : String)
    (hname : (utf8 name).length < argumentBound) (rest : Bytes) :
    kind? fuel (kind name ++ rest) = some (utf8 name, rest) := by
  rw [kind?, kind, List.append_assoc, untagged?_write (by omega) hfuel, if_pos (by decide)]
  simp only [Head.ofParts?, Option.map_some, Option.bind_eq_bind, Option.bind_some]
  rw [name?, text, List.append_assoc, untagged?_write (by omega) hfuel, if_pos hname]
  exact take?_append _ _

theorem kind?_text {fuel : Nat} (hfuel : 0 < fuel) (name : String)
    (hname : (utf8 name).length < argumentBound) (rest : Bytes) :
    kind? fuel (text name ++ rest) = some (utf8 name, rest) := by
  rw [kind?, text, List.append_assoc, untagged?_write (by omega) hfuel, if_pos hname]
  exact take?_append _ _

/-! ## Items without items -/

theorem truth?_truth {fuel : Nat} (hfuel : 0 < fuel) (b : Bool) (rest : Bytes) :
    truth? fuel (truth b ++ rest) = some (b, rest) := by
  obtain ⟨fuel, rfl⟩ := Nat.exists_eq_succ_of_ne_zero (by omega : fuel ≠ 0)
  cases b <;> rfl

theorem signed?_write {major fuel : Nat} (hmajor : major < 2) (hfuel : 0 < fuel) {n : Nat}
    (hn : n < argumentBound) (rest : Bytes) :
    signed? fuel (write major n ++ rest) = some ((decide (major = 1), n), rest) := by
  obtain ⟨fuel, rfl⟩ := Nat.exists_eq_succ_of_ne_zero (by omega : fuel ≠ 0)
  rw [signed?, read?_write (by omega), if_pos hn]
  match major, hmajor with
  | 0, _ | 1, _ => rfl

theorem integer?_of_signed? {fuel : Nat} {bytes rest : Bytes} {negative : Bool} {n : Nat}
    (h : signed? fuel bytes = some ((negative, n), rest)) (hn : n < integerBound.toNat) :
    integer? fuel bytes =
      some (Int64.ofInt (if negative then -1 - (n : Int) else (n : Int)), rest) := by
  rw [integer?, h]
  exact if_pos hn

theorem integer?_integer {fuel : Nat} (hfuel : 0 < fuel) (n : Int64) (rest : Bytes) :
    integer? fuel (integer n ++ rest) = some (n, rest) := by
  have hlow := n.le_toInt
  have hhigh := n.toInt_lt
  have hbound : integerBound.toNat = 0x8000000000000000 := rfl
  have hargument : argumentBound = 0x10000000000000000 := rfl
  by_cases hsign : 0 ≤ n.toInt
  · have hval : (n.toInt.toNat : Int) = n.toInt := Int.toNat_of_nonneg hsign
    rw [integer, if_pos hsign, integer?_of_signed? (signed?_write (by omega) hfuel (by omega) rest)
      (by omega), if_neg (by decide), hval, Int64.ofInt_toInt]
  · have hval : ((-1 - n.toInt).toNat : Int) = -1 - n.toInt := Int.toNat_of_nonneg (by omega)
    rw [integer, if_neg hsign, integer?_of_signed? (signed?_write (by omega) hfuel (by omega) rest)
      (by omega), if_pos (by decide), hval, show -1 - (-1 - n.toInt) = n.toInt by omega,
      Int64.ofInt_toInt]

theorem byte?_write {fuel : Nat} (hfuel : 0 < fuel) (b : UInt8) (rest : Bytes) :
    byte? fuel (write 0 b.toNat ++ rest) = some (b, rest) := by
  have hb := b.toNat_lt
  rw [byte?, signed?_write (by omega) hfuel (by rw [argumentBound]; omega)]
  simp
  omega

/-! ## Sequences -/

/-- A sequence reads back if each of its items does, and not at all if one of them does not. -/
theorem many?_flatMap {α : Type} (item? : Bytes → Option (α × Bytes)) (put : α → Bytes)
    (good : α → Bool) (l : List α)
    (hitem : ∀ x ∈ l, ∀ rest, item? (put x ++ rest) = if good x then some (x, rest) else none)
    {fuel : Nat} (hfuel : l.length ≤ fuel) (rest : Bytes) :
    many? item? fuel (some l.length) (l.flatMap put ++ rest) =
      if l.all good then some (l, rest) else none := by
  induction l generalizing fuel with
  | nil => cases fuel <;> rfl
  | cons x l ih =>
    obtain ⟨fuel, rfl⟩ := Nat.exists_eq_succ_of_ne_zero (by simp at hfuel; omega : fuel ≠ 0)
    have hrest := ih (fun y hy => hitem y (List.mem_cons_of_mem _ hy))
      (by simpa using hfuel : l.length ≤ fuel)
    rw [List.flatMap_cons, List.append_assoc, List.length_cons, many?,
      hitem x List.mem_cons_self]
    by_cases hx : good x = true
    · simp only [if_pos hx, Option.bind_eq_bind, Option.bind_some, hrest]
      by_cases hl : l.all good = true
      · simp [hl, hx]
      · simp [hl]
    · simp [hx]

end Cbor

/-! ## What the reader accepts -/

namespace Value

mutual

/-- The number of levels that a value takes: one for itself, one for its array or map, and those of
its deepest item. -/
def levels : Value → Nat
  | .bytes _ => 2
  | .array items => 2 + levelsOfItems items
  | .document fields => 2 + levelsOfFields fields.entries
  | _ => 1
termination_by structural v => v

def levelsOfItems : List Value → Nat
  | [] => 0
  | v :: rest => max v.levels (levelsOfItems rest)
termination_by structural l => l

def levelsOfFields : List (String × Value) → Nat
  | [] => 0
  | (_, v) :: rest => max v.levels (levelsOfFields rest)
termination_by structural l => l

end

mutual

/-- Whether every length in a value has a head. -/
def isSized : Value → Bool
  | .text s => (Cbor.utf8 s).length < Cbor.argumentBound
  | .bytes b => b.length < Cbor.argumentBound
  | .array items => items.length < Cbor.argumentBound && isSizedItems items
  | .document fields => fields.entries.length < Cbor.argumentBound && isSizedFields fields.entries
  | _ => true
termination_by structural v => v

def isSizedItems : List Value → Bool
  | [] => true
  | v :: rest => v.isSized && isSizedItems rest
termination_by structural l => l

def isSizedFields : List (String × Value) → Bool
  | [] => true
  | (k, v) :: rest =>
    (Cbor.utf8 k).length < Cbor.argumentBound && (v.isSized && isSizedFields rest)
termination_by structural l => l

end

/-- Whether a reader with so many levels reads the value back. -/
def isReadable (depth : Nat) (v : Value) : Bool := v.levels ≤ depth && v.isSized

end Value

namespace Cbor

open Value (levelsOfItems levelsOfFields isSizedItems isSizedFields)

theorem values_eq_flatMap (l : List Value) : values l = l.flatMap value := by
  induction l with
  | nil => rfl
  | cons v rest ih => rw [values, ih, List.flatMap_cons]

def entry (e : String × Value) : Bytes := text e.1 ++ value e.2

theorem entries_eq_flatMap (l : List (String × Value)) : entries l = l.flatMap entry := by
  induction l with
  | nil => rfl
  | cons e rest ih => rw [entries, ih, List.flatMap_cons, entry, List.append_assoc]

theorem all_isReadable_items (n : Nat) (l : List Value) :
    l.all (Value.isReadable n) = (decide (levelsOfItems l ≤ n) && isSizedItems l) := by
  induction l with
  | nil => simp [levelsOfItems, isSizedItems]
  | cons v rest ih =>
    simp only [List.all_cons, ih, Value.isReadable, levelsOfItems, isSizedItems, Nat.max_le,
      Bool.decide_and]
    ac_rfl

def isReadableField (n : Nat) (e : String × Value) : Bool :=
  (utf8 e.1).length < argumentBound && e.2.isReadable n

theorem all_isReadable_fields (n : Nat) (l : List (String × Value)) :
    l.all (isReadableField n) = (decide (levelsOfFields l ≤ n) && isSizedFields l) := by
  induction l with
  | nil => simp [levelsOfFields, isSizedFields]
  | cons e rest ih =>
    simp only [List.all_cons, ih, isReadableField, Value.isReadable, levelsOfFields, isSizedFields,
      Nat.max_le, Bool.decide_and]
    ac_rfl

theorem length_text_pos (s : String) : 0 < (text s).length := by
  have := length_write_pos 3 (utf8 s).length
  simp only [text, List.length_append]
  omega

theorem length_kind_pos (name : String) : 0 < (kind name).length := by
  have := length_write_pos 5 1
  simp only [kind, List.length_append]
  omega

theorem length_value_pos (v : Value) : 0 < (value v).length := by
  cases v with
  | null => exact length_text_pos _
  | _ =>
    simp only [value, List.length_append]
    exact Nat.add_pos_left (length_kind_pos _) _

theorem length_le_flatMap {α : Type} {put : α → Bytes} {l : List α}
    (hput : ∀ x ∈ l, 0 < (put x).length) : l.length ≤ (l.flatMap put).length := by
  induction l with
  | nil => simp
  | cons x l ih =>
    have hx := hput x List.mem_cons_self
    have hl := ih fun y hy => hput y (List.mem_cons_of_mem _ hy)
    simp only [List.length_cons, List.flatMap_cons, List.length_append]
    omega

theorem length_le_flatMap_of_mem {α : Type} {put : α → Bytes} {l : List α} {x : α}
    (hx : x ∈ l) : (put x).length ≤ (l.flatMap put).length := by
  induction l with
  | nil => cases hx
  | cons y l ih =>
    simp only [List.flatMap_cons, List.length_append]
    rcases List.mem_cons.1 hx with rfl | hx
    · omega
    · have := ih hx
      omega

/-! ## Values -/

/-- The reader of nested values where so many levels are left. -/
def nestedReader (fuel : Nat) : Nat → Nested
  | 0 | 1 => none
  | depth + 2 => some (value? fuel depth)

theorem value?_kind {fuel depth : Nat} (hfuel : 0 < fuel) (hdepth : 0 < depth) {name : String}
    (hname : (utf8 name).length < argumentBound) (bytes : Bytes) :
    value? fuel depth (kind name ++ bytes) =
      content? (nestedReader fuel depth) fuel (utf8 name) bytes := by
  have htagged (nested : Nested) :
      tagged? nested fuel (kind name ++ bytes) = content? nested fuel (utf8 name) bytes := by
    rw [tagged?, kind?_kind hfuel name hname]
    rfl
  match depth, hdepth with
  | 1, _ => exact htagged none
  | depth + 2, _ => exact htagged (some (value? fuel depth))

/-- What the reader makes of a value: with enough fuel, the value if it is readable. -/
def ReadsBack (v : Value) : Prop :=
  ∀ fuel depth, (value v).length ≤ fuel → ∀ rest,
    value? fuel depth (value v ++ rest) = if v.isReadable depth then some (v, rest) else none

theorem byteString?_bytes {fuel depth : Nat} (b rest : Bytes)
    (hfuel : (write 4 b.length ++ b.flatMap fun x => write 0 x.toNat).length ≤ fuel) :
    byteString? (nestedReader fuel depth) fuel
        (write 4 b.length ++ (b.flatMap (fun x => write 0 x.toNat) ++ rest)) =
      if 2 ≤ depth ∧ b.length < argumentBound then some (b, rest) else none := by
  have hhead := length_write_pos 4 b.length
  have hlen : b.length ≤ (b.flatMap fun x => write 0 x.toNat).length :=
    length_le_flatMap fun x _ => length_write_pos 0 x.toNat
  rw [List.length_append] at hfuel
  rw [byteString?, untagged?_write (by omega) (by omega)]
  by_cases hb : b.length < argumentBound
  · have hbytes := many?_flatMap (byte? fuel) (fun x : UInt8 => write 0 x.toNat) (fun _ => true) b
      (fun x _ rest => byte?_write (by omega) x rest)
      (by omega : b.length ≤ fuel) rest
    match depth with
    | 0 | 1 => simp [hb, Head.ofParts?, nestedReader]
    | depth + 2 => simp [hb, Head.ofParts?, nestedReader, hbytes]
  · simp [hb]

theorem items?_items {fuel depth : Nat} {l : List Value} (hl : ∀ v ∈ l, ReadsBack v)
    (hfuel : (write 4 l.length ++ values l).length ≤ fuel) (rest : Bytes) :
    items? (nestedReader fuel depth) fuel (write 4 l.length ++ (values l ++ rest)) =
      if (Value.array l).isReadable depth then some (l, rest) else none := by
  have hhead := length_write_pos 4 l.length
  rw [List.length_append, values_eq_flatMap] at hfuel
  have hlen : l.length ≤ (l.flatMap value).length := length_le_flatMap fun v _ => length_value_pos v
  rw [items?, untagged?_write (by omega) (by omega), values_eq_flatMap, Value.isReadable,
    Value.levels, Value.isSized]
  by_cases hb : l.length < argumentBound
  · match depth with
    | 0 | 1 =>
      have hlevels : ¬2 + levelsOfItems l ≤ 1 := by omega
      simp [hb, Head.ofParts?, nestedReader, hlevels]
    | depth + 2 =>
      have hitems := many?_flatMap (value? fuel depth) value (Value.isReadable depth) l
        (fun v hv rest => hl v hv fuel depth
          (Nat.le_trans (length_le_flatMap_of_mem hv) (by omega)) rest)
        (by omega : l.length ≤ fuel) rest
      rw [all_isReadable_items] at hitems
      simp [hb, Head.ofParts?, nestedReader, hitems, Nat.add_comm 2]
  · simp [hb]

theorem field?_entry {fuel n : Nat} {e : String × Value} (he : ReadsBack e.2)
    (hfuel : (entry e).length ≤ fuel) (rest : Bytes) :
    field? (value? fuel n) fuel (entry e ++ rest) =
      if isReadableField n e then some (e, rest) else none := by
  have htext := length_text_pos e.1
  rw [entry, List.length_append] at hfuel
  rw [field?, entry, List.append_assoc, text?_text (by omega), isReadableField]
  by_cases hk : (utf8 e.1).length < argumentBound
  · rw [if_pos hk]
    simp only [Option.bind_eq_bind, Option.bind_some, he fuel n (by omega) rest]
    by_cases hv : e.2.isReadable n = true
    · simp [hv, hk]
    · simp [hv]
  · simp [hk]

theorem fields?_none {fuel : Nat} (hfuel : 0 < fuel) (n : Nat) (rest : Bytes) :
    fields? none fuel (write 5 n ++ rest) = none := by
  rw [fields?, untagged?_write (by omega) hfuel]
  by_cases hn : n < argumentBound
  · simp [hn, Head.ofParts?]
  · simp [hn]

theorem fields?_entries {fuel n : Nat} {d : Document} (hd : d.Sorted)
    (hfields : ∀ e ∈ d.entries, ReadsBack e.2)
    (hfuel : (write 5 d.entries.length ++ entries d.entries).length ≤ fuel) (rest : Bytes) :
    fields? (some (value? fuel n)) fuel
        (write 5 d.entries.length ++ (entries d.entries ++ rest)) =
      if (Value.document d).isReadable (n + 2) then some (d, rest) else none := by
  have hhead := length_write_pos 5 d.entries.length
  rw [List.length_append, entries_eq_flatMap] at hfuel
  have hlen : d.entries.length ≤ (d.entries.flatMap entry).length := length_le_flatMap fun e _ => by
    have := length_text_pos e.1
    simp only [entry, List.length_append]
    omega
  rw [fields?, untagged?_write (by omega) (by omega), entries_eq_flatMap, Value.isReadable,
    Value.levels, Value.isSized]
  by_cases hb : d.entries.length < argumentBound
  · have hentries := many?_flatMap (field? (value? fuel n) fuel) entry (isReadableField n) d.entries
      (fun e he rest => field?_entry (hfields e he)
        (Nat.le_trans (length_le_flatMap_of_mem he) (by omega)) rest)
      (by omega : d.entries.length ≤ fuel) rest
    rw [all_isReadable_fields] at hentries
    simp only [hb, if_true, Head.ofParts?, Option.map_some, Option.bind_eq_bind, Option.bind_some,
      hentries, Nat.add_comm n 2, Nat.add_le_add_iff_left, decide_true, Bool.true_and]
    split
    · simp [SortedMap.ofList_entries hd]
    · rfl
  · simp [hb]

theorem readsBack_null : ReadsBack .null := by
  intro fuel depth hfuel rest
  have hpos := length_value_pos .null
  have htagged (nested : Nested) : tagged? nested fuel (value .null ++ rest) = some (.null, rest) := by
    rw [tagged?, value, kind?_text (by omega) "Null" (by decide +kernel)]
    rfl
  match depth with
  | 0 => rfl
  | 1 => exact htagged none
  | depth + 2 =>
    rw [if_pos (by simp [Value.isReadable, Value.levels, Value.isSized])]
    exact htagged (some (value? fuel depth))

theorem levels_pos (v : Value) : 0 < v.levels := by
  cases v with
  | array | document =>
    rw [Value.levels]
    omega
  | _ => simp [Value.levels]

theorem readsBack_of_content (name : String) {v : Value} {body : Bytes}
    (hname : (utf8 name).length < argumentBound) (hvalue : value v = kind name ++ body)
    (hcontent : ∀ fuel depth rest, 0 < fuel → 0 < depth → body.length ≤ fuel →
      content? (nestedReader fuel depth) fuel (utf8 name) (body ++ rest) =
        if v.isReadable depth then some (v, rest) else none) : ReadsBack v := by
  intro fuel depth hfuel rest
  have hpos := length_kind_pos name
  rw [hvalue, List.length_append] at hfuel
  rw [hvalue, List.append_assoc]
  cases depth with
  | zero =>
    have hlevels := levels_pos v
    rw [value?, if_neg (by simp [Value.isReadable]; omega)]
  | succ depth =>
    rw [value?_kind (by omega) (by omega) hname, hcontent fuel _ rest (by omega) (by omega) (by omega)]

theorem readsBack_bool (b : Bool) : ReadsBack (.bool b) := by
  refine readsBack_of_content "Bool" (by decide +kernel) rfl ?_
  intro fuel depth rest hfuel hdepth _
  have hlevels : 1 ≤ depth := hdepth
  rw [if_pos (by simp [Value.isReadable, Value.levels, Value.isSized, hlevels])]
  simp [content?, utf8_inj, truth?_truth hfuel]

theorem readsBack_integer (n : Int64) : ReadsBack (.integer n) := by
  refine readsBack_of_content "Integer" (by decide +kernel) rfl ?_
  intro fuel depth rest hfuel hdepth _
  have hlevels : 1 ≤ depth := hdepth
  rw [if_pos (by simp [Value.isReadable, Value.levels, Value.isSized, hlevels])]
  simp [content?, utf8_inj, integer?_integer hfuel]

theorem readsBack_text (s : String) : ReadsBack (.text s) := by
  refine readsBack_of_content "Text" (by decide +kernel) rfl ?_
  intro fuel depth rest hfuel hdepth _
  have hlevels : 1 ≤ depth := hdepth
  simp only [content?, utf8_inj, text?_text hfuel, Value.isReadable, Value.levels, Value.isSized,
    hlevels, decide_true, Bool.true_and, decide_eq_true_eq]
  by_cases hs : (utf8 s).length < argumentBound <;> simp [hs]

theorem readsBack_bytes (b : Bytes) : ReadsBack (.bytes b) := by
  refine readsBack_of_content "Bytes" (by decide +kernel) rfl ?_
  intro fuel depth rest _ _ hbody
  rw [List.append_assoc]
  simp only [content?, utf8_inj, byteString?_bytes b rest hbody, Value.isReadable, Value.levels,
    Value.isSized]
  by_cases hdepth : 2 ≤ depth <;> by_cases hb : b.length < argumentBound <;> simp [hdepth, hb]

theorem readsBack_array {l : List Value} (hl : ∀ v ∈ l, ReadsBack v) : ReadsBack (.array l) := by
  refine readsBack_of_content "Array" (by decide +kernel) rfl ?_
  intro fuel depth rest _ _ hbody
  rw [List.append_assoc]
  simp only [content?, utf8_inj, items?_items hl hbody rest]
  by_cases hv : (Value.array l).isReadable depth = true <;> simp [hv]

theorem readsBack_document {d : Document} (hd : d.Sorted)
    (hfields : ∀ e ∈ d.entries, ReadsBack e.2) : ReadsBack (.document d) := by
  refine readsBack_of_content "Document" (by decide +kernel) rfl ?_
  intro fuel depth rest hfuel hdepth hbody
  rw [List.append_assoc]
  match depth, hdepth with
  | 1, _ =>
    have hlevels : ¬2 + levelsOfFields d.entries ≤ 1 := by omega
    simp [content?, utf8_inj, nestedReader, fields?_none hfuel, Value.isReadable, Value.levels,
      hlevels]
  | depth + 2, _ =>
    simp only [content?, utf8_inj, nestedReader, fields?_entries hd hfields hbody rest]
    by_cases hv : (Value.document d).isReadable (depth + 2) = true <;> simp [hv]

mutual

theorem readsBack : (v : Value) → v.Ordered → ReadsBack v
  | .null, _ => readsBack_null
  | .bool b, _ => readsBack_bool b
  | .integer n, _ => readsBack_integer n
  | .text s, _ => readsBack_text s
  | .bytes b, _ => readsBack_bytes b
  | .array l, hv => readsBack_array (readsBack_items l hv)
  | .document ⟨l⟩, hv => readsBack_document hv.1 (readsBack_fields l hv.2)

theorem readsBack_items : (l : List Value) → Value.OrderedItems l → ∀ v ∈ l, ReadsBack v
  | [], _, v, h => absurd h List.not_mem_nil
  | w :: rest, hl, v, h => by
    rcases List.mem_cons.1 h with h | h
    · exact h ▸ readsBack w hl.1
    · exact readsBack_items rest hl.2 v h

theorem readsBack_fields : (l : List (String × Value)) → Value.OrderedFields l →
    ∀ e ∈ l, ReadsBack e.2
  | [], _, e, h => absurd h List.not_mem_nil
  | (_, w) :: rest, hl, e, h => by
    rcases List.mem_cons.1 h with h | h
    · exact h ▸ readsBack w hl.1
    · exact readsBack_fields rest hl.2 e h

end

end Cbor

/-! ## Documents -/

namespace Document

def isReadable (d : Document) : Bool := (Value.document d).isReadable (Cbor.depthLimit + 1)

theorem decode?_encode {d : Document} (h : d.Ordered) :
    decode? d.encode = if d.isReadable then some d else none := by
  have hfields : ∀ e ∈ d.entries, Cbor.ReadsBack e.2 := fun e he =>
    Cbor.readsBack e.2 ((ordered_iff.1 h).2 e he)
  have hread := Cbor.fields?_entries (n := Cbor.depthLimit - 1) h.sorted hfields
    d.encode.length.le_refl []
  rw [List.append_nil] at hread
  rw [decode?, encode] at *
  rw [hread, isReadable, show Cbor.depthLimit - 1 + 2 = Cbor.depthLimit + 1 from rfl]
  split <;> rfl

theorem eq_of_decode?_encode {d d' : Document} (h : d.Ordered) (hd : decode? d.encode = some d') :
    d' = d := by
  rw [decode?_encode h] at hd
  split at hd <;> cases hd
  rfl

end Document

end ScopedStore
