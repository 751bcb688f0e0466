import ScopedStore.Proofs.Client.Confinement
import ScopedStore.Proofs.Query

/-!
# Ways to read

An operation that reads answers from the view of its caller (`perform_of_isRead`). So all ways to read
agree: they fail together, where the caller gets no view, and otherwise they answer from the same
documents (`reads_agree`).
-/

namespace ScopedStore

namespace Client

/-- All ways to read fail together, where the caller gets no view, or they answer from the same documents:
a search finds what the pipeline of its filter and the stages of its options finds; counting gives the
number of documents found, and so does the pipeline that counts; a search for one document finds the
first that a search without limit finds; and the distinct values of a field ascend strictly and are just
the values, arrays opened once, that it has in the documents found. -/
theorem reads_agree (c : Client) (caller : Caller) (h : Handle) :
    let ask (op : DocumentOp) := (c.perform caller (.documents h op)).1
    (∀ op : DocumentOp, op.isRead = true →
        (c.perform caller (.documents h op)).2 = c.countOperation caller) ∧
      ((∃ e, (do let _ ← c.lock caller; c.viewOf caller h.ns) = .error e ∧
          ∀ op : DocumentOp, op.isRead = true → ask op = .error e) ∨
        ∀ (f : Filter) (o : FindOptions) (field : String), ∃ (found all page : List Document)
          (values : List Value),
          ask (.find f o) = .ok (.documents found) ∧
          ask (.aggregate (.keep f :: o.stages)) = .ok (.documents found) ∧
          ask (.find f {}) = .ok (.documents all) ∧
          ask (.count f) = .ok (.count all.length) ∧
          ask (.aggregate [.keep f, .count field]) =
            .ok (.documents [Document.single field (.ofCount all.length)]) ∧
          ((all.length : Int) < integerBound →
            ∃ k : Int64, Value.ofCount all.length = .integer k ∧ k.toInt = all.length) ∧
          ask (.find f { o with limit := none }) = .ok (.documents page) ∧
          ask (.findOne f o) = .ok (.document page.head?) ∧
          ask (.distinct field f) = .ok (.values values) ∧
          (values.Pairwise fun a b => compare a b = .lt) ∧
          ∀ x, x ∈ values ↔ ∃ d ∈ all,
            (d.getPath? field = some x ∧ ∀ items, x ≠ .array items) ∨
              ∃ items, d.getPath? field = some (.array items) ∧ x ∈ items) := by
  intro ask
  have hask {op : DocumentOp} (hread : op.isRead = true) :
      c.perform caller (.documents h op) = _ := perform_of_isRead hread
  refine ⟨fun op hread => congrArg Prod.snd (hask hread), ?_⟩
  cases hview : (do let _ ← c.lock caller; c.viewOf caller h.ns) with
  | error e =>
    refine .inl ⟨e, rfl, fun op hread => (congrArg Prod.fst (hask hread)).trans ?_⟩
    rcases bind_eq_error.1 hview with hlock | ⟨_, hlock, hload⟩
    · rw [hlock]
      rfl
    · rw [hlock, ok_bind, hload]
      rfl
  | ok v =>
    obtain ⟨_, hlock, hload⟩ := bind_eq_ok.1 hview
    have hanswer {op : DocumentOp} (hread : op.isRead = true) {reply : Reply}
        (hrun : op.run h.narrow v = .ok (reply, v)) : ask op = .ok reply := by
      refine (congrArg Prod.fst (hask hread)).trans ?_
      rw [hlock, ok_bind, hload, ok_bind, hrun]
      rfl
    refine .inr fun f o field => ?_
    let accepted := v.matching (h.narrow.and f)
    have haccepted : runPipeline [.keep f] (v.matching h.narrow) = accepted :=
      v.filter_matching h.narrow f
    have hall : ({} : FindOptions).shape accepted = accepted := sortDocuments_nil accepted
    refine ⟨o.shape accepted, accepted, o.unlimited.shape accepted,
      View.distinctValues field accepted, hanswer rfl rfl, hanswer rfl ?_, hanswer rfl ?_,
      hanswer rfl rfl, hanswer rfl ?_, Value.ofCount_eq, hanswer rfl rfl, hanswer rfl ?_,
      hanswer rfl rfl, View.pairwise_distinctValues field accepted, fun x => ?_⟩
    · have hpipeline : runPipeline (.keep f :: o.stages) (v.matching h.narrow) = o.shape accepted := by
        rw [← List.singleton_append, runPipeline_append, haccepted, runPipeline_stages]
      rw [DocumentOp.run, hpipeline]
    · rw [DocumentOp.run, hall]
    · have hcount : runPipeline [.keep f, .count field] (v.matching h.narrow) =
          [Document.single field (.ofCount accepted.length)] := by
        rw [← List.singleton_append, runPipeline_append, haccepted]
        rfl
      rw [DocumentOp.run, hcount]
    · rw [DocumentOp.run, head?_shape_of_limit]
    · rw [View.mem_distinctValues]
      simp only [View.mem_fieldValues_iff]

end Client

end ScopedStore
