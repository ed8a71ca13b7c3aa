import PumpGrok.Ledger.Reducer

/-!
How a store grows: by whole batches, each of which meets a condition in the store it extends,
and by changes of the handle's own mark. What the batches preserve, the store keeps.
-/

namespace PumpGrok

namespace LedgerStore

inductive Grows (A : LedgerStore → List Row → Prop) (st : LedgerStore) : LedgerStore → Prop
  | refl : Grows A st st
  | marked {st' : LedgerStore} (b : Bool) (h : Grows A st st') :
      Grows A st { st' with inconsistent := b }
  | commit {st' : LedgerStore} {rows : List Row} (h : Grows A st st') (hf : st'.Fresh rows)
      (ha : A st' rows) : Grows A st (st'.commit rows)

namespace Grows

variable {A B : LedgerStore → List Row → Prop} {st st' st'' : LedgerStore}

lemma trans (h : Grows A st st') (h' : Grows A st' st'') : Grows A st st'' := by
  induction h' with
  | refl => exact h
  | marked b _ ih => exact ih.marked b
  | commit _ hf ha ih => exact ih.commit hf ha

lemma mono (hab : ∀ st rows, A st rows → B st rows) (h : Grows A st st') : Grows B st st' := by
  induction h with
  | refl => exact .refl
  | marked b _ ih => exact ih.marked b
  | commit _ hf ha ih => exact ih.commit hf (hab _ _ ha)

/-- **The invariant rule of a growing store.** -/
theorem invariant {I : LedgerStore → Prop}
    (hmark : ∀ st b, I st → I { st with inconsistent := b })
    (hcommit : ∀ st rows, I st → st.Fresh rows → A st rows → I (st.commit rows))
    (h : Grows A st st') (hi : I st) : I st' := by
  induction h with
  | refl => exact hi
  | marked b _ ih => exact hmark _ b ih
  | commit _ hf ha ih => exact hcommit _ _ ih hf ha

lemma initialEquity_eq (h : Grows A st st') : st'.initialEquity = st.initialEquity := by
  induction h with
  | refl => rfl
  | marked _ _ ih => exact ih
  | commit _ _ _ ih => exact ih

lemma txns_extends (h : Grows A st st') : st.txns <+: st'.txns := by
  induction h with
  | refl => exact List.prefix_refl _
  | marked _ _ ih => exact ih
  | commit _ _ _ ih => exact ih.trans (List.prefix_append _ _)

lemma read_extends (h : Grows A st st') : st.read <+: st'.read := by
  obtain ⟨ts, ht⟩ := h.txns_extends
  refine ⟨ts.flatten, ?_⟩
  rw [read, read, ← ht, List.flatten_append]

lemma count_le (h : Grows A st st') : st.count ≤ st'.count := h.read_extends.length_le

end Grows

/-! ### Sequence numbers -/

/-- The rows are numbered from one, without a gap. -/
def Numbered (es : List Event) : Prop := es.map (·.seq) = List.range' 1 es.length

lemma stamp_seqs (n : ℕ) (rows : List Row) :
    (stamp n rows).map (·.seq) = List.range' n rows.length := by
  induction rows generalizing n with
  | nil => rfl
  | cons r rs ih => simp [stamp, ih, List.range'_succ]

lemma numbered_append {es fs : List Event} :
    Numbered (es ++ fs) ↔
      Numbered es ∧ fs.map (·.seq) = List.range' (es.length + 1) fs.length := by
  unfold Numbered
  rw [List.map_append, List.length_append, ← List.range'_append_1]
  constructor
  · intro h
    have := List.append_inj h (by simp)
    exact ⟨this.1, by rw [this.2, Nat.add_comm]⟩
  · rintro ⟨h₁, h₂⟩
    rw [h₁, h₂, Nat.add_comm]

lemma numbered_commit {st : LedgerStore} {rows : List Row} (h : Numbered st.read) :
    Numbered (st.commit rows).read := by
  rw [read_commit, numbered_append]
  exact ⟨h, by rw [stamp_seqs, stamp_length, count]⟩

lemma Grows.numbered {A : LedgerStore → List Row → Prop} {st st' : LedgerStore}
    (h : Grows A st st') (hn : Numbered st.read) : Numbered st'.read :=
  h.invariant (I := fun st => Numbered st.read) (fun _ _ h => h)
    (fun _ _ h _ _ => numbered_commit h) hn

/-- The fold carries the number of the last row. -/
lemma replay_seq {es : List Event} (h : Numbered es) (initialEquity day : ℤ) :
    (replay (initialState initialEquity day) es).seq = es.length := by
  induction es using List.reverseRecOn with
  | nil => rfl
  | append_singleton es e ih =>
    obtain ⟨-, he⟩ := numbered_append.mp h
    rw [replay_append, replay_cons, replay_nil, List.length_append]
    simpa [reduce] using he

/-! ### What the operations append -/

variable {A : LedgerStore → List Row → Prop} {st : LedgerStore} {row : Row}

lemma grows_appendBatch {rows : List Row} (h : st.Fresh rows → A st rows) :
    Grows A st (appendBatch rows st).2 := by
  rcases hr : appendBatch rows st with ⟨x | es, st'⟩
  · obtain ⟨-, rfl, -⟩ := appendBatch_error_iff.mp hr
    exact .refl
  · obtain ⟨-, -, rfl⟩ | ⟨-, -, hf, -, rfl⟩ := appendBatch_ok_iff.mp hr
    · exact .refl
    · exact Grows.refl.commit hf (h hf)

lemma grows_append (h : st.Fresh [row] → A st [row]) : Grows A st (append row st).2 := by
  rcases hr : append row st with ⟨x | e, st'⟩
  · obtain ⟨rfl, -⟩ := append_error_iff.mp hr
    exact .refl
  · obtain ⟨-, hf, -, rfl⟩ := append_ok_iff.mp hr
    exact Grows.refl.commit hf (h hf)

lemma grows_appendSuppressing (xs : List Exc) (h : st.Fresh [row] → A st [row]) :
    Grows A st (appendSuppressing xs row st).2 := by
  rcases appendSuppressing_run xs row st with ⟨-, hf, hr⟩ | ⟨x, -, hr⟩
  · rw [hr]
    exact Grows.refl.commit hf (h hf)
  · rw [hr]
    exact .refl

lemma grows_verify : Grows A st (verify st).2 := by
  unfold verify
  split_ifs
  · exact Grows.refl.marked false
  · exact Grows.refl.marked true

end LedgerStore

end PumpGrok
