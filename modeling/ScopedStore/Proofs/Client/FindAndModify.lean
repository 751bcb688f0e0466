import ScopedStore.Proofs.Client.Selection
import ScopedStore.Proofs.FindAndModify

/-!
# Find-and-modify agrees with the plain write

On the view of a caller a write of one document and its counterpart end alike (`View.Paired`), and a view
is handed on without regard to the reply (`deliver`). So both fail with the same error or leave the same
client but for what it counts, and the counterpart returns the first match as it was, or what is held
afterwards (`find_and_modify_agrees`).
-/

namespace ScopedStore

namespace Client

variable {c c' : Client} {caller : Caller} {h : Handle} {f : Filter} {upsert : Bool}
  {returned : Returned} {locked : Option (SessionId × Session)} {v v' : View}

/-- The match with the smallest identifier. -/
structure FirstMatch (c : Client) (caller : Caller) (h : Handle) (f : Filter) (id : Value)
    (d : Document) : Prop where
  matched : c.Matches caller h f id d
  least : ∀ id' d', c.Matches caller h f id' d' → id' = id ∨ compare id id' = .lt

/-- What is returned, between two clients, where the plain write tells the identifier of an upsert:
nothing when nothing matched and nothing was inserted; an inserted document only in its later form; and
of the first match either form. -/
inductive Returns (c c' : Client) (caller : Caller) (h : Handle) (f : Filter) (upsert : Bool)
    (returned : Returned) : Option Value → Option Document → Prop
  | missed (hnone : ∀ id d, ¬c.Matches caller h f id d) (hupsert : upsert = false) :
      Returns c c' caller h f upsert returned none none
  | inserted {id : Value} {d : Document} (hnone : ∀ id d, ¬c.Matches caller h f id d)
      (hupsert : upsert = true) (hd : c'.Holds caller h.ns id d) :
      Returns c c' caller h f upsert returned (some id) (View.choose returned none (some d))
  | changed {id : Value} {d d' : Document} (hfirst : c.FirstMatch caller h f id d)
      (hd : c'.Holds caller h.ns id d') :
      Returns c c' caller h f upsert returned none (some (View.choose returned d d'))

/-- A find-and-modify agrees with the plain write: it fails with the same error or leaves the same client
but for what it counts, and it returns a document as it should; none exactly when nothing matched and
nothing was inserted or the earlier form was asked for. -/
structure Agrees (c : Client) (caller : Caller) (h : Handle) (f : Filter) (upsert : Bool)
    (returned : Returned) (plain modify : Except StoreError Reply × Client) : Prop where
  error : ∀ e, modify.1 = .error e ↔ plain.1 = .error e
  store : modify.2 = { plain.2 with stats := modify.2.stats }
  returns : ∀ reply, modify.1 = .ok reply → ∃ r document, plain.1 = .ok (.updated r) ∧
    reply = .document document ∧
    Returns c modify.2 caller h f upsert returned r.upsertedId document ∧
    (document = none ↔
      (∀ id d, ¬c.Matches caller h f id d) ∧ (r.upsertedId = none ∨ returned = .before))

/-- A find-and-delete agrees with the plain deletion: it returns the document that was deleted. -/
structure AgreesDeleting (c : Client) (caller : Caller) (h : Handle) (f : Filter)
    (plain modify : Except StoreError Reply × Client) : Prop where
  error : ∀ e, modify.1 = .error e ↔ plain.1 = .error e
  store : modify.2 = plain.2
  returns : ∀ reply, modify.1 = .ok reply → ∃ n document, plain.1 = .ok (.deleted n) ∧
    reply = .document document ∧
    ((∃ id d, c.FirstMatch caller h f id d ∧ document = some d ∧ n = 1) ∨
      (∀ id d, ¬c.Matches caller h f id d) ∧ document = none ∧ n = 0)

/-! ## Matches -/

theorem Finds.not_matches (hfinds : c.Finds caller h f []) (id : Value) (d : Document) :
    ¬c.Matches caller h f id d :=
  fun hmatch => List.not_mem_nil ((hfinds.mem_iff id d).2 hmatch)

theorem Finds.firstMatch {e : Value × Document} {rest : List (Value × Document)}
    (hfinds : c.Finds caller h f (e :: rest)) : c.FirstMatch caller h f e.1 e.2 := by
  refine ⟨(hfinds.mem_iff e.1 e.2).1 List.mem_cons_self, fun id d hmatch => ?_⟩
  rcases List.mem_cons.1 ((hfinds.mem_iff id d).2 hmatch) with heq | hmem
  · exact .inl (congrArg Prod.fst heq)
  · exact .inr ((List.pairwise_cons.1 hfinds.ascending).1 (id, d) hmem)

theorem Returns.eq_none_iff {upserted : Option Value} {document : Option Document}
    (hreturns : Returns c c' caller h f upsert returned upserted document) :
    document = none ↔
      (∀ id d, ¬c.Matches caller h f id d) ∧ (upserted = none ∨ returned = .before) := by
  cases hreturns with
  | missed hnone => exact ⟨fun _ => ⟨hnone, .inl rfl⟩, fun _ => rfl⟩
  | inserted hnone hupsert hd => cases returned <;> simp [View.choose, hnone]
  | @changed id d d' hfirst hd =>
    refine ⟨fun heq => ?_, fun hnone => absurd hfirst.matched (hnone.1 id d)⟩
    cases heq

/-! ## Delivering a pair -/

theorem deliver_error_iff {reply : Reply} {e : StoreError} :
    (c.deliver locked h.ns (.ok (reply, v))).1 = .error e ↔
      (c.handOn locked h.ns v).1 = .error e :=
  map_eq_error

theorem agrees_of_paired (hc : c.Valid) (hlock : c.lock caller = .ok locked)
    (hview : c.viewOf caller h.ns = .ok v) {x : Except StoreError (UpdateReply × View)}
    {y : Except StoreError (Option Document × View)}
    (hpaired : View.Paired v (h.narrow.and f) upsert returned
      (x.map fun r => (r.1.upsertedId, r.2)) y)
    (hsteps : ∀ r v', x = .ok (r, v') → v.Steps v') :
    let c₁ := c.countOperation caller
    c.Agrees caller h f upsert returned
      (c₁.deliver locked h.ns (x.map fun r => (.updated r.1, r.2)))
      (c₁.deliver locked h.ns (y.map fun r => (.document r.1, r.2))) := by
  intro c₁
  have hfinds := finds_of_viewOf hc hview f
  -- Where both succeed, they end on one view, and only what is returned remains to be told.
  have hended {r : UpdateReply} {document : Option Document} {v' : View}
      (hreturns : (c₁.handOn locked h.ns v').1 = .ok () →
        Returns c (c₁.handOn locked h.ns v').2 caller h f upsert returned r.upsertedId document) :
      c.Agrees caller h f upsert returned (c₁.deliver locked h.ns (.ok (.updated r, v')))
        (c₁.deliver locked h.ns (.ok (.document document, v'))) := by
    refine ⟨fun e => deliver_error_iff.trans deliver_error_iff.symm, rfl, fun reply hreply => ?_⟩
    obtain ⟨_, hhanded, rfl⟩ := map_eq_ok.1 hreply
    have hplain : (c₁.deliver locked h.ns (.ok (.updated r, v'))).1 = .ok (.updated r) :=
      map_eq_ok.2 ⟨(), hhanded, rfl⟩
    exact ⟨r, document, hplain, rfl, hreturns hhanded, (hreturns hhanded).eq_none_iff⟩
  cases hx : x with
  | error e =>
    rw [hx] at hpaired
    cases hpaired
    exact ⟨fun e => Iff.rfl, rfl, fun reply hreply => by cases hreply⟩
  | ok r =>
    obtain ⟨r, v'⟩ := r
    have hsteps' := hsteps r v' hx
    have hholds {id : Value} {d : Document} (hd : v'.docs.find? id = some d)
        (hhanded : (c₁.handOn locked h.ns v').1 = .ok ()) :
        (c₁.handOn locked h.ns v').2.Holds caller h.ns id d :=
      holds_of_handOn hc hview hsteps' hlock (Prod.ext hhanded rfl) hd
    rw [hx] at hpaired
    have hpaired' : View.Paired v (h.narrow.and f) upsert returned (.ok (r.upsertedId, v')) y :=
      hpaired
    generalize hupserted : r.upsertedId = upserted at hpaired'
    cases hpaired' with
    | missed hnone hupsert =>
      rw [hnone] at hfinds
      exact hended fun _ => hupserted ▸ .missed hfinds.not_matches hupsert
    | inserted hnone hupsert hd =>
      rw [hnone] at hfinds
      exact hended fun hhanded =>
        hupserted ▸ .inserted hfinds.not_matches hupsert (hholds hd hhanded)
    | changed hfound hd =>
      rw [hfound] at hfinds
      exact hended fun hhanded => hupserted ▸ .changed hfinds.firstMatch (hholds hd hhanded)

/-! ## The pairs -/

section Pairs

variable (hc : c.Valid) (hlock : c.lock caller = .ok locked) (hview : c.viewOf caller h.ns = .ok v)
  (hnarrow : h.narrow.Ordered) (hf : f.Ordered) (upsert : Bool) (returned : Returned)
include hc hlock hview hnarrow hf

theorem agrees_update {u : Update} (hu : u.Ordered) :
    c.Agrees caller h f upsert returned (c.perform caller (.documents h (.updateOne f u upsert)))
      (c.perform caller
        (.documents h (.findOneAndUpdate f u { upsert := upsert, returned := returned }))) := by
  have hv := View.valid_load (hc.catalog.collection h.ns) (hc.writesOf caller h.ns) hview
  have hrun : (DocumentOp.updateOne f u upsert).run h.narrow v =
      (v.update (h.narrow.and f) u upsert false).map fun r => (.updated r.1, r.2) := by
    rw [DocumentOp.run]
    cases v.update (h.narrow.and f) u upsert false <;> rfl
  rw [perform_eq rfl hlock hview, hrun]
  cases hcheck : u.check with
  | error e =>
    -- The counterpart refuses an update without operators before it looks at its caller.
    have hrefused : c.perform caller (.documents h
        (.findOneAndUpdate f u { upsert := upsert, returned := returned })) = (.error e, c) := by
      rw [perform, runDocuments, show DocumentOp.check (.findOneAndUpdate f u _) = .error e from hcheck]
    have hplain : v.update (h.narrow.and f) u upsert false = .error e := by
      rw [View.update, hcheck]
      rfl
    rw [hrefused, hplain]
    exact ⟨fun e => Iff.rfl, by cases caller <;> rfl, fun reply hreply => by cases hreply⟩
  | ok _ =>
    have hchecked : (DocumentOp.findOneAndUpdate f u
        { upsert := upsert, returned := returned }).check = .ok () := hcheck
    have hmodify : (DocumentOp.findOneAndUpdate f u
        { upsert := upsert, returned := returned }).run h.narrow v =
        (v.modifyFirst (h.narrow.and f) u { upsert := upsert, returned := returned }).map
          fun r => (.document r.1, r.2) := by
      rw [DocumentOp.run]
      cases v.modifyFirst (h.narrow.and f) u { upsert := upsert, returned := returned } <;> rfl
    rw [perform_eq hchecked hlock hview, hmodify]
    refine agrees_of_paired hc hlock hview
      (View.paired_update hv (hnarrow.and hf) hu hcheck upsert returned) fun r v' hr => ?_
    have hop : (DocumentOp.updateOne f u upsert).run h.narrow v = .ok (.updated r, v') := by
      rw [hrun, hr]
      rfl
    have hordered : (DocumentOp.updateOne f u upsert).Ordered := ⟨hf, hu⟩
    exact DocumentOp.steps hnarrow hordered hv hop

theorem agrees_replace {d : Document} (hd : d.Ordered) :
    c.Agrees caller h f upsert returned (c.perform caller (.documents h (.replaceOne f d upsert)))
      (c.perform caller
        (.documents h (.findOneAndReplace f d { upsert := upsert, returned := returned }))) := by
  have hv := View.valid_load (hc.catalog.collection h.ns) (hc.writesOf caller h.ns) hview
  have hrun : (DocumentOp.replaceOne f d upsert).run h.narrow v =
      (v.replaceFirst (h.narrow.and f) d upsert).map fun r => (.updated r.1, r.2) := by
    rw [DocumentOp.run]
    cases v.replaceFirst (h.narrow.and f) d upsert <;> rfl
  have hmodify : (DocumentOp.findOneAndReplace f d
      { upsert := upsert, returned := returned }).run h.narrow v =
      (v.exchangeFirst (h.narrow.and f) d { upsert := upsert, returned := returned }).map
        fun r => (.document r.1, r.2) := by
    rw [DocumentOp.run]
    cases v.exchangeFirst (h.narrow.and f) d { upsert := upsert, returned := returned } <;> rfl
  rw [perform_eq rfl hlock hview, perform_eq rfl hlock hview, hrun, hmodify]
  refine agrees_of_paired hc hlock hview
    (View.paired_replace hv (hnarrow.and hf) hd upsert returned) fun r v' hr => ?_
  have hop : (DocumentOp.replaceOne f d upsert).run h.narrow v = .ok (.updated r, v') := by
    rw [hrun, hr]
    rfl
  have hordered : (DocumentOp.replaceOne f d upsert).Ordered := ⟨hf, hd⟩
  exact DocumentOp.steps hnarrow hordered hv hop

omit hnarrow hf in
theorem agrees_delete :
    c.AgreesDeleting caller h f (c.perform caller (.documents h (.deleteOne f)))
      (c.perform caller
        (.documents h (.findOneAndDelete f { upsert := upsert, returned := returned }))) := by
  have hv := View.valid_load (hc.catalog.collection h.ns) (hc.writesOf caller h.ns) hview
  have hfinds := finds_of_viewOf hc hview f
  obtain ⟨v', hdelete, hremove⟩ := View.paired_delete hv (h.narrow.and f) upsert returned
  rw [perform_eq rfl hlock hview, perform_eq rfl hlock hview, DocumentOp.run, DocumentOp.run, hdelete,
    hremove]
  refine ⟨fun e => deliver_error_iff.trans deliver_error_iff.symm, rfl, fun reply hreply => ?_⟩
  obtain ⟨_, hhanded, rfl⟩ := map_eq_ok.1 hreply
  refine ⟨_, _, map_eq_ok.2 ⟨(), hhanded, rfl⟩, rfl, ?_⟩
  cases hfound : v.found (h.narrow.and f) with
  | nil =>
    rw [hfound] at hfinds
    exact .inr ⟨hfinds.not_matches, rfl, rfl⟩
  | cons e rest =>
    rw [hfound] at hfinds
    exact .inl ⟨e.1, e.2, hfinds.firstMatch, rfl, rfl⟩

end Pairs

/-- On any view of a caller, its own transaction included, each write of one document and the
find-and-modify that corresponds to it fail with the same error or leave the same client but for what it
counts; and then the first match is returned as it was or as it is held afterwards, an inserted document
in its later form, and nothing exactly when nothing matched and nothing was inserted or the earlier form
was asked for. -/
theorem find_and_modify_agrees {c : Client} (hc : c.Reachable) {caller : Caller}
    {locked : Option (SessionId × Session)} (hlock : c.lock caller = .ok locked) {h : Handle}
    {v : View} (hview : c.viewOf caller h.ns = .ok v) (hnarrow : h.narrow.Ordered) {f : Filter}
    (hf : f.Ordered) {u : Update} (hu : u.Ordered) {d : Document} (hd : d.Ordered) (upsert : Bool)
    (returned : Returned) :
    let ask (op : DocumentOp) := c.perform caller (.documents h op)
    let options : ModifyOptions := { sort := [], upsert := upsert, returned := returned }
    c.Agrees caller h f upsert returned (ask (.updateOne f u upsert))
        (ask (.findOneAndUpdate f u options)) ∧
      c.Agrees caller h f upsert returned (ask (.replaceOne f d upsert))
        (ask (.findOneAndReplace f d options)) ∧
      c.AgreesDeleting caller h f (ask (.deleteOne f)) (ask (.findOneAndDelete f options)) :=
  ⟨agrees_update hc.valid hlock hview hnarrow hf upsert returned hu,
    agrees_replace hc.valid hlock hview hnarrow hf upsert returned hd,
    agrees_delete hc.valid hlock hview upsert returned⟩

/-! ## Raising an entry in a transaction -/

/-- The session of `ledgerRun` raises its first entry: the update and its counterpart agree on the view of
its transaction, in which another entry is deleted. -/
theorem find_and_modify_agrees_ledgerRun :
    let c := (fresh true 0).run ledgerRun
    let ask (op : DocumentOp) := c.perform (.session ⟨1⟩) (.documents { ns := ledger } op)
    let options : ModifyOptions := { sort := [], upsert := true, returned := .after }
    c.Reachable ∧
      (ask (.updateOne .all raise true)).1 = .ok (.updated { matched := 1, modified := 1 }) ∧
      c.Agrees (.session ⟨1⟩) { ns := ledger } .all true .after (ask (.updateOne .all raise true))
        (ask (.findOneAndUpdate .all raise options)) ∧
      c.Agrees (.session ⟨1⟩) { ns := ledger } .all true .after
        (ask (.replaceOne .all (entry 1 99) true))
        (ask (.findOneAndReplace .all (entry 1 99) options)) ∧
      c.AgreesDeleting (.session ⟨1⟩) { ns := ledger } .all (ask (.deleteOne .all))
        (ask (.findOneAndDelete .all options)) := by
  intro c ask options
  have hlock : c.lock (.session ⟨1⟩) =
      .ok (some (⟨1⟩, { transaction := some { pending := ledgerPending } })) := by
    decide +kernel
  have hwrites : c.writesOf (.session ⟨1⟩) ledger = ledgerPending.writesOf ledger := by
    decide +kernel
  obtain ⟨v, hview⟩ : ∃ v, c.viewOf (.session ⟨1⟩) ledger = .ok v := by
    refine View.load_isOk_iff.2 ⟨Catalog.decodes_collection (by decide +kernel) ledger, ?_⟩
    rw [hwrites]
    exact Pending.decode_writesOf (by decide +kernel) ledger
  exact ⟨reachable_ledgerRun, rfl,
    find_and_modify_agrees reachable_ledgerRun hlock (h := { ns := ledger }) hview trivial
      (f := .all) trivial ordered_raise (ordered_entry 1 99) true .after⟩

end Client

end ScopedStore
