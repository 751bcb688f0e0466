import Mathlib.Tactic.FinCases
import ScopedStore.Proofs.Decimal
import ScopedStore.Snapshot
import ScopedStore.Text.Hex
import ScopedStore.Value.Order

/-!
# A snapshot stands for one list of documents

The text of a shape can be read in one way only (`Shape.readOnce`): a string ends with its closing
quote, every other atom is a word, which ends before a comma or the end of a line, and a list or an
object ends with its bracket. What follows a shape is part of the statement, since in the induction
another member may follow. The kinds of the values have different names, so that a value has a shape
of its own (`ofValue_inj`), and a text is the snapshot of one list of documents only
(`render_injective`).
-/

namespace ScopedStore.Snapshot

/-! ## Strings -/

def unescaped : Char → Char
  | 'b' => '\x08'
  | 'f' => '\x0c'
  | 'n' => '\n'
  | 'r' => '\r'
  | 't' => '\t'
  | c => c

/-- Takes one character off the inside of a string. -/
def unescapeChar? : List Char → Option (Char × List Char)
  | '\\' :: 'u' :: '0' :: '0' :: high :: low :: rest => do
    let high ← Text.hexValue? high
    let low ← Text.hexValue? low
    return (Char.ofNat (16 * high + low), rest)
  | '\\' :: c :: rest => some (unescaped c, rest)
  | c :: rest => some (c, rest)
  | [] => none

theorem hexValue?_hexDigit {n : Nat} : Text.hexValue? (hexDigit n) = some (n % 16) := by
  have hall : ∀ k < 16, Text.hexValue? (Nat.digitChar k) = some k := by decide
  exact hall (n % 16) (Nat.mod_lt n (by decide))

theorem escapeChar_cases (c : Char) :
    (∃ letter, escapeChar c = ['\\', letter] ∧ unescaped letter = c ∧ letter ≠ 'u') ∨
      (c.toNat < 0x20 ∧ escapeChar c =
        ['\\', 'u', '0', '0', hexDigit (c.toNat / 16), hexDigit c.toNat]) ∨
      (escapeChar c = [c] ∧ c ≠ '\\' ∧ c ≠ '"') := by
  unfold escapeChar
  -- Seven characters have a letter.
  iterate 7
    split
    · rename_i h
      subst h
      exact .inl ⟨_, rfl, rfl, by decide⟩
  rename_i hquote hbackslash _ _ _ _ _
  split
  · exact .inr (.inl ⟨‹_›, rfl⟩)
  · exact .inr (.inr ⟨rfl, hbackslash, hquote⟩)

theorem unescapeChar?_escapeChar (c : Char) (rest : List Char) :
    unescapeChar? (escapeChar c ++ rest) = some (c, rest) := by
  rcases escapeChar_cases c with ⟨letter, hc, hletter, hu⟩ | ⟨hlt, hc⟩ | ⟨hc, hbackslash, -⟩
  · rw [hc, List.cons_append, List.cons_append, List.nil_append, unescapeChar?, hletter]
    intro _ _ _ heq
    exact absurd heq hu
  · have hvalue : 16 * (c.toNat / 16 % 16) + c.toNat % 16 = c.toNat := by omega
    simp only [hc, List.cons_append, List.nil_append, unescapeChar?, hexValue?_hexDigit,
      Option.bind_eq_bind, Option.bind_some, hvalue, Char.ofNat_toNat]
    rfl
  · rw [hc, List.cons_append, List.nil_append, unescapeChar?]
    · exact fun _ _ _ heq _ => hbackslash heq
    · exact fun _ _ heq _ => hbackslash heq

theorem head_escapeChar (c : Char) (rest : List Char) :
    ∃ first tail, escapeChar c ++ rest = first :: tail ∧ first ≠ '"' := by
  rcases escapeChar_cases c with ⟨letter, hc, -, -⟩ | ⟨-, hc⟩ | ⟨hc, -, hquote⟩
  · exact ⟨_, _, by rw [hc]; rfl, by decide⟩
  · exact ⟨_, _, by rw [hc]; rfl, by decide⟩
  · exact ⟨_, _, by rw [hc]; rfl, hquote⟩

/-- The inside of a string ends at the first quote that no backslash precedes. -/
theorem escaped_append_inj {l l' r r' : List Char}
    (h : l.flatMap escapeChar ++ '"' :: r = l'.flatMap escapeChar ++ '"' :: r') :
    l = l' ∧ r = r' := by
  induction l generalizing l' with
  | nil =>
    cases l' with
    | nil => exact ⟨rfl, List.cons.inj h |>.2⟩
    | cons c rest =>
      obtain ⟨first, tail, hfirst, hne⟩ := head_escapeChar c (rest.flatMap escapeChar ++ '"' :: r')
      rw [List.flatMap_cons, List.append_assoc, hfirst] at h
      exact absurd (List.cons.inj h).1.symm hne
  | cons c rest ih =>
    cases l' with
    | nil =>
      obtain ⟨first, tail, hfirst, hne⟩ := head_escapeChar c (rest.flatMap escapeChar ++ '"' :: r)
      rw [List.flatMap_cons, List.append_assoc, hfirst] at h
      exact absurd (List.cons.inj h).1 hne
    | cons c' rest' =>
      rw [List.flatMap_cons, List.flatMap_cons, List.append_assoc, List.append_assoc] at h
      have hread := congrArg unescapeChar? h
      rw [unescapeChar?_escapeChar, unescapeChar?_escapeChar, Option.some.injEq,
        Prod.mk.injEq] at hread
      obtain ⟨hc, hrest⟩ := hread
      obtain ⟨hrest, hr⟩ := ih hrest
      exact ⟨by rw [hc, hrest], hr⟩

theorem toList_string (s : String) :
    (string s).toList = '"' :: (s.toList.flatMap escapeChar ++ ['"']) := by
  rw [string, String.toList_ofList]
  rfl

theorem string_append_inj {s s' : String} {r r' : List Char}
    (h : (string s).toList ++ r = (string s').toList ++ r') : s = s' ∧ r = r' := by
  rw [toList_string, toList_string, List.cons_append, List.cons_append, List.append_assoc,
    List.append_assoc] at h
  obtain ⟨hs, hr⟩ := escaped_append_inj (List.cons.inj h).2
  exact ⟨String.toList_inj.1 hs, hr⟩

theorem string_inj {s s' : String} (h : string s = string s') : s = s' := by
  have happend : (string s).toList ++ [] = (string s').toList ++ [] := by rw [h]
  exact (string_append_inj happend).1

/-! ## Words -/

/-- A word holds no separator and does not begin as a string, a list or an object does. -/
def IsWord (w : String) : Prop :=
  (∀ c ∈ w.toList, c ≠ ',' ∧ c ≠ '\n') ∧ ∀ c ∈ w.toList.head?, c ≠ '"' ∧ c ≠ '[' ∧ c ≠ '\x7b'

/-- What can follow a shape: nothing, a comma, or the end of the line. -/
def Follows (r : List Char) : Prop := ∀ c ∈ r.head?, c = ',' ∨ c = '\n'

theorem follows_nil : Follows [] := nofun

theorem follows_comma (r : List Char) : Follows (',' :: r) := fun _ hc => .inl (Option.some.inj hc).symm

theorem follows_lineEnd (r : List Char) : Follows ('\n' :: r) :=
  fun _ hc => .inr (Option.some.inj hc).symm

theorem head?_word {w : String} (hw : IsWord w) {r : List Char} (hr : Follows r) {c : Char}
    (hc : (w.toList ++ r).head? = some c) : c ≠ '"' ∧ c ≠ '[' ∧ c ≠ '\x7b' := by
  cases hchars : w.toList with
  | nil =>
    rw [hchars, List.nil_append] at hc
    rcases hr c hc with rfl | rfl <;> decide
  | cons first rest =>
    rw [hchars] at hc
    exact hw.2 c (by rw [hchars]; exact hc)

theorem takeWhile_word {w : String} (hw : IsWord w) {r : List Char} (hr : Follows r) :
    (w.toList ++ r).takeWhile (fun c => c ≠ ',' && c ≠ '\n') = w.toList := by
  have hstop : r.takeWhile (fun c => c ≠ ',' && c ≠ '\n') = [] := by
    cases r with
    | nil => rfl
    | cons c rest =>
      refine List.takeWhile_cons_of_neg ?_
      rcases hr c rfl with rfl | rfl <;> decide
  rw [List.takeWhile_append_of_pos, hstop, List.append_nil]
  intro c hc
  simpa using hw.1 c hc

theorem word_append_inj {w w' : String} (hw : IsWord w) (hw' : IsWord w') {r r' : List Char}
    (hr : Follows r) (hr' : Follows r') (h : w.toList ++ r = w'.toList ++ r') : w = w' ∧ r = r' := by
  have hchars := congrArg (List.takeWhile fun c => c ≠ ',' && c ≠ '\n') h
  rw [takeWhile_word hw hr, takeWhile_word hw' hr'] at hchars
  rw [hchars] at h
  exact ⟨String.toList_inj.1 hchars, List.append_cancel_left h⟩

/-! ## Atoms -/

def IsAtom (text : String) : Prop := (∃ s, text = string s) ∨ IsWord text

theorem head?_atom {text : String} (h : IsAtom text) {r : List Char} (hr : Follows r) {c : Char}
    (hc : (text.toList ++ r).head? = some c) : c ≠ '[' ∧ c ≠ '\x7b' := by
  rcases h with ⟨s, rfl⟩ | hw
  · rw [toList_string] at hc
    cases hc
    decide
  · exact (head?_word hw hr hc).2

theorem atom_append_inj {text text' : String} (h : IsAtom text) (h' : IsAtom text')
    {r r' : List Char} (hr : Follows r) (hr' : Follows r')
    (heq : text.toList ++ r = text'.toList ++ r') : text = text' ∧ r = r' := by
  have hquote (s : String) (r : List Char) : ((string s).toList ++ r).head? = some '"' := by
    rw [toList_string]
    rfl
  rcases h with ⟨s, rfl⟩ | hw <;> rcases h' with ⟨s', rfl⟩ | hw'
  · obtain ⟨rfl, hrest⟩ := string_append_inj heq
    exact ⟨rfl, hrest⟩
  · exact absurd rfl (head?_word hw' hr' (by rw [← heq, hquote])).1
  · exact absurd rfl (head?_word hw hr (by rw [heq, hquote])).1
  · exact word_append_inj hw hw' hr hr' heq

/-! ## Lines -/

section Lines

variable {α : Type}

/-- The lines of the members of a list or an object, with a comma after each but the last. -/
def lines (line : α → List Char) : List α → List Char
  | [] => []
  | [x] => line x
  | x :: rest => line x ++ ',' :: '\n' :: lines line rest

theorem lines_cons_cons (line : α → List Char) (x y : α) (rest : List α) :
    lines line (x :: y :: rest) = line x ++ ',' :: '\n' :: lines line (y :: rest) := rfl

/-- Where every line can be read in one way only, so can the lines up to a bracket. -/
theorem lines_append_inj {line : α → List Char} {l l' : List α} (hl : l ≠ []) (hl' : l' ≠ [])
    (hline : ∀ x ∈ l, ∀ y ∈ l', ∀ r r', Follows r → Follows r' → line x ++ r = line y ++ r' →
      x = y ∧ r = r')
    {q q' : List Char} (h : lines line l ++ '\n' :: q = lines line l' ++ '\n' :: q') :
    l = l' ∧ q = q' := by
  induction l generalizing l' with
  | nil => exact absurd rfl hl
  | cons x rest ih =>
    obtain ⟨y, rest', rfl⟩ := List.exists_cons_of_ne_nil hl'
    have hhead := hline x List.mem_cons_self y List.mem_cons_self
    cases rest with
    | nil =>
      cases rest' with
      | nil =>
        obtain ⟨rfl, hq⟩ := hhead _ _ (follows_lineEnd q) (follows_lineEnd q') h
        exact ⟨rfl, (List.cons.inj hq).2⟩
      | cons y' rest' =>
        rw [lines_cons_cons, List.append_assoc] at h
        obtain ⟨-, hq⟩ := hhead _ _ (follows_lineEnd q) (follows_comma _) h
        exact absurd (List.cons.inj hq).1 (by decide)
    | cons x' rest =>
      rw [lines_cons_cons, List.append_assoc] at h
      cases rest' with
      | nil =>
        obtain ⟨-, hq⟩ := hhead _ _ (follows_comma _) (follows_lineEnd q') h
        exact absurd (List.cons.inj hq).1 (by decide)
      | cons y' rest' =>
        rw [lines_cons_cons, List.append_assoc] at h
        obtain ⟨rfl, hq⟩ := hhead _ _ (follows_comma _) (follows_comma _) h
        obtain ⟨hrest, hq⟩ := ih (List.cons_ne_nil _ _) (List.cons_ne_nil _ _)
          (fun x hx y hy => hline x (List.mem_cons_of_mem _ hx) y (List.mem_cons_of_mem _ hy))
          (List.cons.inj (List.cons.inj hq).2).2
        exact ⟨by rw [hrest], hq⟩

/-- Lines between brackets; without a line the brackets stand next to each other. -/
def bracketed (depth : Nat) (opening closing : Char) (line : α → List Char) (l : List α) : List Char :=
  match l with
  | [] => [opening, closing]
  | _ => opening :: '\n' :: (lines line l ++ '\n' :: ((indent depth).toList ++ [closing]))

theorem head?_bracketed (depth : Nat) (opening closing : Char) (line : α → List Char) (l : List α)
    (r : List Char) : (bracketed depth opening closing line l ++ r).head? = some opening := by
  cases l <;> rfl

theorem bracketed_cons_append (depth : Nat) (opening closing : Char) (line : α → List Char) (x : α)
    (rest : List α) (r : List Char) :
    bracketed depth opening closing line (x :: rest) ++ r =
      opening :: '\n' :: (lines line (x :: rest) ++ '\n' :: ((indent depth).toList ++ closing :: r)) := by
  simp only [bracketed, List.cons_append, List.append_assoc, List.nil_append]

theorem bracketed_append_inj {depth : Nat} {opening closing : Char} (hclosing : closing ≠ '\n')
    {line : α → List Char} {l l' : List α}
    (hline : ∀ x ∈ l, ∀ y ∈ l', ∀ r r', Follows r → Follows r' → line x ++ r = line y ++ r' →
      x = y ∧ r = r')
    {r r' : List Char}
    (h : bracketed depth opening closing line l ++ r = bracketed depth opening closing line l' ++ r') :
    l = l' ∧ r = r' := by
  cases l with
  | nil =>
    cases l' with
    | nil => exact ⟨rfl, (List.cons.inj (List.cons.inj h).2).2⟩
    | cons y rest' => exact absurd (List.cons.inj (List.cons.inj h).2).1 hclosing
  | cons x rest =>
    cases l' with
    | nil => exact absurd (List.cons.inj (List.cons.inj h).2).1.symm hclosing
    | cons y rest' =>
      rw [bracketed_cons_append, bracketed_cons_append] at h
      obtain ⟨hl, hend⟩ := lines_append_inj (List.cons_ne_nil _ _) (List.cons_ne_nil _ _) hline
        (List.cons.inj (List.cons.inj h).2).2
      exact ⟨hl, (List.cons.inj (List.append_cancel_left hend)).2⟩

end Lines

/-! ## Shapes -/

mutual

/-- Every atom in a shape is a string or a word. -/
def Shape.Lawful : Shape → Prop
  | .atom text => IsAtom text
  | .list items => LawfulItems items
  | .object members => LawfulMembers members
termination_by structural s => s

def LawfulItems : List Shape → Prop
  | [] => True
  | s :: rest => s.Lawful ∧ LawfulItems rest
termination_by structural l => l

def LawfulMembers : List (String × Shape) → Prop
  | [] => True
  | (_, s) :: rest => s.Lawful ∧ LawfulMembers rest
termination_by structural l => l

end

theorem lawfulItems_iff {items : List Shape} : LawfulItems items ↔ ∀ s ∈ items, s.Lawful := by
  induction items with
  | nil => simp [LawfulItems]
  | cons s rest ih => rw [LawfulItems, ih, List.forall_mem_cons]

theorem lawfulMembers_iff {members : List (String × Shape)} :
    LawfulMembers members ↔ ∀ m ∈ members, m.2.Lawful := by
  induction members with
  | nil => simp [LawfulMembers]
  | cons m rest ih => rw [LawfulMembers, ih, List.forall_mem_cons]

def itemLine (depth : Nat) (s : Shape) : List Char :=
  (indent depth).toList ++ (s.render depth).toList

def memberLine (depth : Nat) (m : String × Shape) : List Char :=
  (indent depth).toList ++ ((string m.1).toList ++ ':' :: ' ' :: (m.2.render depth).toList)

theorem toList_renderItems (depth : Nat) (items : List Shape) :
    (renderItems depth items).toList = lines (itemLine depth) items := by
  induction items with
  | nil => rfl
  | cons s rest ih =>
    cases rest with
    | nil => rw [renderItems, String.toList_append, lines, itemLine]
    | cons s' rest =>
      rw [renderItems, String.toList_append, String.toList_append, String.toList_append, ih,
        List.append_assoc, lines_cons_cons, itemLine]
      · rfl
      · exact List.cons_ne_nil _ _

theorem toList_renderMembers (depth : Nat) (members : List (String × Shape)) :
    (renderMembers depth members).toList = lines (memberLine depth) members := by
  induction members with
  | nil => rfl
  | cons m rest ih =>
    cases rest with
    | nil =>
      simp only [renderMembers, String.toList_append, lines, memberLine, List.append_assoc]
      rfl
    | cons m' rest =>
      rw [renderMembers, String.toList_append, ih, lines_cons_cons]
      · simp only [String.toList_append, memberLine, List.append_assoc]
        rfl
      · exact List.cons_ne_nil _ _

theorem toList_render_list (items : List Shape) (depth : Nat) :
    ((Shape.list items).render depth).toList =
      bracketed depth '[' ']' (itemLine (depth + 1)) items := by
  cases items with
  | nil =>
    rw [Shape.render]
    rfl
  | cons s rest =>
    rw [Shape.render]
    · simp only [String.toList_append, toList_renderItems, List.append_assoc]
      rfl
    · exact List.cons_ne_nil _ _

theorem toList_render_object (members : List (String × Shape)) (depth : Nat) :
    ((Shape.object members).render depth).toList =
      bracketed depth '\x7b' '\x7d' (memberLine (depth + 1)) members := by
  cases members with
  | nil =>
    rw [Shape.render]
    rfl
  | cons m rest =>
    rw [Shape.render]
    · simp only [String.toList_append, toList_renderMembers, List.append_assoc]
      rfl
    · exact List.cons_ne_nil _ _

/-- Where the text of a shape begins, no other shape has its text, and it ends there only. -/
def Shape.ReadOnce (s : Shape) : Prop :=
  ∀ (t : Shape) (depth : Nat) (r r' : List Char), t.Lawful → Follows r → Follows r' →
    (s.render depth).toList ++ r = (t.render depth).toList ++ r' → s = t ∧ r = r'

theorem readOnce_atom {text : String} (h : IsAtom text) : (Shape.atom text).ReadOnce := by
  intro t depth r r' ht hr hr' heq
  rw [Shape.render] at heq
  cases t with
  | atom text' =>
    obtain ⟨rfl, hrest⟩ := atom_append_inj h ht hr hr' heq
    exact ⟨rfl, hrest⟩
  | list items =>
    rw [toList_render_list] at heq
    exact absurd rfl (head?_atom h hr (heq ▸ head?_bracketed _ _ _ _ _ _)).1
  | object members =>
    rw [toList_render_object] at heq
    exact absurd rfl (head?_atom h hr (heq ▸ head?_bracketed _ _ _ _ _ _)).2

theorem readOnce_list {items : List Shape} (h : ∀ s ∈ items, s.ReadOnce) :
    (Shape.list items).ReadOnce := by
  intro t depth r r' ht hr hr' heq
  rw [toList_render_list] at heq
  have hhead := head?_bracketed depth '[' ']' (itemLine (depth + 1)) items r
  cases t with
  | atom text => exact absurd rfl (head?_atom ht hr' (heq ▸ hhead)).1
  | list items' =>
    rw [toList_render_list] at heq
    have hitem : ∀ s ∈ items, ∀ s' ∈ items', ∀ q q', Follows q → Follows q' →
        itemLine (depth + 1) s ++ q = itemLine (depth + 1) s' ++ q' → s = s' ∧ q = q' := by
      intro s hs s' hs' q q' hq hq' hline
      rw [itemLine, itemLine, List.append_assoc, List.append_assoc] at hline
      exact h s hs s' _ q q' (lawfulItems_iff.1 ht s' hs') hq hq' (List.append_cancel_left hline)
    obtain ⟨rfl, hrest⟩ := bracketed_append_inj (by decide) hitem heq
    exact ⟨rfl, hrest⟩
  | object members =>
    rw [toList_render_object] at heq
    rw [heq, head?_bracketed] at hhead
    cases hhead

theorem readOnce_object {members : List (String × Shape)} (h : ∀ m ∈ members, m.2.ReadOnce) :
    (Shape.object members).ReadOnce := by
  intro t depth r r' ht hr hr' heq
  rw [toList_render_object] at heq
  have hhead := head?_bracketed depth '\x7b' '\x7d' (memberLine (depth + 1)) members r
  cases t with
  | atom text => exact absurd rfl (head?_atom ht hr' (heq ▸ hhead)).2
  | list items =>
    rw [toList_render_list] at heq
    rw [heq, head?_bracketed] at hhead
    cases hhead
  | object members' =>
    rw [toList_render_object] at heq
    have hmember : ∀ m ∈ members, ∀ m' ∈ members', ∀ q q', Follows q → Follows q' →
        memberLine (depth + 1) m ++ q = memberLine (depth + 1) m' ++ q' → m = m' ∧ q = q' := by
      intro m hm m' hm' q q' hq hq' hline
      simp only [memberLine, List.append_assoc, List.cons_append] at hline
      obtain ⟨hname, hshape⟩ := string_append_inj (List.append_cancel_left hline)
      obtain ⟨hshape, hrest⟩ := h m hm m'.2 _ q q' (lawfulMembers_iff.1 ht m' hm') hq hq'
        (List.cons.inj (List.cons.inj hshape).2).2
      exact ⟨Prod.ext hname hshape, hrest⟩
    obtain ⟨rfl, hrest⟩ := bracketed_append_inj (by decide) hmember heq
    exact ⟨rfl, hrest⟩

mutual

theorem Shape.readOnce : (s : Shape) → s.Lawful → s.ReadOnce
  | .atom _, h => readOnce_atom h
  | .list items, h => readOnce_list (readOnce_items items h)
  | .object members, h => readOnce_object (readOnce_members members h)

theorem readOnce_items : (items : List Shape) → LawfulItems items → ∀ s ∈ items, s.ReadOnce
  | [], _ => nofun
  | s :: rest, h => List.forall_mem_cons.2 ⟨s.readOnce h.1, readOnce_items rest h.2⟩

theorem readOnce_members : (members : List (String × Shape)) → LawfulMembers members →
    ∀ m ∈ members, m.2.ReadOnce
  | [], _ => nofun
  | (_, s) :: rest, h => List.forall_mem_cons.2 ⟨s.readOnce h.1, readOnce_members rest h.2⟩

end

/-! ## Values -/

theorem isWord_of_chars {w : String} (h : ∀ c ∈ w.toList, c = '-' ∨ c.isAlphanum = true) : IsWord w := by
  have hother {c d : Char} (hc : c ∈ w.toList) (hd : d.isAlphanum = false) (hdash : d ≠ '-') :
      c ≠ d := by
    rintro rfl
    rcases h c hc with hc | hc
    · exact hdash hc
    · rw [hc] at hd
      cases hd
  have hmem {c : Char} (hc : c ∈ w.toList.head?) : c ∈ w.toList := List.mem_of_mem_head? hc
  exact ⟨fun c hc => ⟨hother hc rfl (by decide), hother hc rfl (by decide)⟩, fun c hc =>
    ⟨hother (hmem hc) rfl (by decide), hother (hmem hc) rfl (by decide), hother (hmem hc) rfl (by decide)⟩⟩

theorem isWord_bool (b : Bool) : IsWord (if b then "true" else "false") := by
  refine isWord_of_chars fun c hc => .inr ?_
  cases b
  · have hchars : c ∈ ['f', 'a', 'l', 's', 'e'] := hc
    fin_cases hchars <;> rfl
  · have hchars : c ∈ ['t', 'r', 'u', 'e'] := hc
    fin_cases hchars <;> rfl

theorem isAlphanum_of_mem_repr {n : Nat} {c : Char} (hc : c ∈ n.repr.toList) :
    c.isAlphanum = true := by
  rw [Nat.toList_repr] at hc
  rw [Char.isAlphanum, Decimal.isDigit_of_mem_toDigits hc, Bool.or_true]

theorem isWord_nat (n : Nat) : IsWord (toString n) :=
  isWord_of_chars fun _ hc => .inr (isAlphanum_of_mem_repr hc)

theorem isWord_int (n : Int) : IsWord (toString n) := by
  refine isWord_of_chars fun c hc => ?_
  rw [Int.toString_eq_repr, Int.repr_eq_if] at hc
  split at hc
  · exact .inr (isAlphanum_of_mem_repr hc)
  · rw [String.toList_append, List.mem_append] at hc
    rcases hc with hc | hc
    · exact .inl (List.mem_singleton.1 hc)
    · exact .inr (isAlphanum_of_mem_repr hc)

theorem lawful_tagged {kind : String} {content : Shape} (h : content.Lawful) :
    (tagged kind content).Lawful := ⟨h, trivial⟩

mutual

theorem lawful_ofValue : (v : Value) → (ofValue v).Lawful
  | .null => .inl ⟨_, rfl⟩
  | .bool b => lawful_tagged (.inr (isWord_bool b))
  | .integer n => lawful_tagged (.inr (isWord_int n.toInt))
  | .text s => lawful_tagged (.inl ⟨s, rfl⟩)
  | .bytes b => lawful_tagged <| lawfulItems_iff.2 fun s hs => by
    obtain ⟨x, -, rfl⟩ := List.mem_map.1 hs
    exact .inr (isWord_nat x.toNat)
  | .array items => lawful_tagged (lawful_ofValues items)
  | .document ⟨fields⟩ => lawful_tagged (lawful_ofFields fields)

theorem lawful_ofValues : (items : List Value) → LawfulItems (ofValues items)
  | [] => trivial
  | v :: rest => ⟨lawful_ofValue v, lawful_ofValues rest⟩

theorem lawful_ofFields : (fields : List (String × Value)) → LawfulMembers (ofFields fields)
  | [] => trivial
  | (_, v) :: rest => ⟨lawful_ofValue v, lawful_ofFields rest⟩

end

theorem tagged_eq_iff {kind kind' : String} {content content' : Shape} :
    tagged kind content = tagged kind' content' ↔ kind = kind' ∧ content = content' := by
  simp [tagged]

theorem rank_eq_of_ofValue {v w : Value} (h : ofValue v = ofValue w) : v.rank = w.rank := by
  cases v <;> cases w <;> first | rfl | simp [ofValue, tagged] at h

mutual

theorem ofValue_inj : (v w : Value) → ofValue v = ofValue w → v = w
  | .null, w, h => by
    cases w <;> cases rank_eq_of_ofValue h
    rfl
  | .bool b, w, h => by
    cases w with
    | bool b' =>
      have hcontent := Shape.atom.inj (tagged_eq_iff.1 h).2
      cases b <;> cases b' <;> first | rfl | exact absurd hcontent (by decide)
    | _ => cases rank_eq_of_ofValue h
  | .integer n, w, h => by
    cases w with
    | integer n' =>
      have hcontent := Shape.atom.inj (tagged_eq_iff.1 h).2
      rw [Int.toString_eq_repr, Int.toString_eq_repr] at hcontent
      rw [Int64.toInt_inj.1 (Decimal.int_repr_inj hcontent)]
    | _ => cases rank_eq_of_ofValue h
  | .text s, w, h => by
    cases w with
    | text s' => rw [string_inj (Shape.atom.inj (tagged_eq_iff.1 h).2)]
    | _ => cases rank_eq_of_ofValue h
  | .bytes b, w, h => by
    cases w with
    | bytes b' =>
      have hcontent := Shape.list.inj (tagged_eq_iff.1 h).2
      have hbyte (x y : UInt8) (hxy : Shape.atom (toString x.toNat) = .atom (toString y.toNat)) : x = y :=
        UInt8.toNat_inj.1 (Decimal.nat_repr_inj (Shape.atom.inj hxy))
      rw [(List.map_inj_right hbyte).1 hcontent]
    | _ => cases rank_eq_of_ofValue h
  | .array items, w, h => by
    cases w with
    | array items' => rw [ofValues_inj items items' (Shape.list.inj (tagged_eq_iff.1 h).2)]
    | _ => cases rank_eq_of_ofValue h
  | .document ⟨fields⟩, w, h => by
    cases w with
    | document fields' =>
      obtain ⟨fields'⟩ := fields'
      rw [ofFields_inj fields fields' (Shape.object.inj (tagged_eq_iff.1 h).2)]
    | _ => cases rank_eq_of_ofValue h

theorem ofValues_inj : (l l' : List Value) → ofValues l = ofValues l' → l = l'
  | [], [], _ => rfl
  | [], _ :: _, h => nomatch h
  | _ :: _, [], h => nomatch h
  | v :: rest, w :: rest', h => by
    rw [ofValue_inj v w (List.cons.inj h).1, ofValues_inj rest rest' (List.cons.inj h).2]

theorem ofFields_inj : (l l' : List (String × Value)) → ofFields l = ofFields l' → l = l'
  | [], [], _ => rfl
  | [], _ :: _, h => nomatch h
  | _ :: _, [], h => nomatch h
  | (k, v) :: rest, (k', w) :: rest', h => by
    obtain ⟨hfield, hrest⟩ := List.cons.inj h
    obtain ⟨rfl, hvalue⟩ := Prod.mk.inj hfield
    rw [ofValue_inj v w hvalue, ofFields_inj rest rest' hrest]

end

/-- A text is the snapshot of one list of documents only. -/
theorem render_injective : Function.Injective render := by
  intro docs docs' h
  have hlawful (docs : List Document) :
      LawfulItems (docs.map fun d => .object (ofFields d.entries)) := lawfulItems_iff.2 fun s hs => by
    obtain ⟨d, -, rfl⟩ := List.mem_map.1 hs
    exact lawful_ofFields d.entries
  have hshape := (Shape.readOnce (.list _) (hlawful docs) (.list _) 0 [] [] (hlawful docs')
    follows_nil follows_nil (by rw [← render, ← render, h])).1
  refine (List.map_inj_right fun d d' hd => ?_).1 (Shape.list.inj hshape)
  exact congrArg SortedMap.mk (ofFields_inj _ _ (Shape.object.inj hd))

example : render [Document.single "v" .null] ≠ render [Document.single "v" (.text "Null")] := by
  decide +kernel

example : render [Document.single "v" (.bytes [7])] ≠
    render [Document.single "v" (.array [.ofInt 7])] := by
  decide +kernel

example : render [Document.single "v" (.document (Document.single "Text" (.text "a")))] ≠
    render [Document.single "v" (.text "a")] := by
  decide +kernel

end ScopedStore.Snapshot
