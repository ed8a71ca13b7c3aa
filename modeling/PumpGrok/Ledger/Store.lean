import PumpGrok.Ledger.Events
import PumpGrok.Lib.Prog

/-!
The append-only store. It keeps the committed transactions in order, and its rows are their
concatenation. Whether every row still hashes to what it was stored with is one flag: the
store only ever appends, so the flag falls by an outside edit of the file.
-/

namespace PumpGrok

structure LedgerStore where
  txns : List (List Event) := []
  intact : Bool := true
  inconsistent : Bool := false
  initialEquity : Option ℤ := none

namespace LedgerStore

def read (st : LedgerStore) : List Event := st.txns.flatten

def count (st : LedgerStore) : ℕ := st.read.length

def byKey (st : LedgerStore) (k : Key) : Option Event := st.read.find? (·.key = k)

/-- Rows with the sequence numbers from `n` on. -/
def stamp (n : ℕ) : List Row → List Event
  | [] => []
  | r :: rs => { r with seq := n } :: stamp (n + 1) rs

def commit (st : LedgerStore) (rows : List Row) : LedgerStore :=
  { st with txns := st.txns ++ [stamp (st.count + 1) rows] }

/-- No two rows share a key, and no key is taken. -/
def Fresh (st : LedgerStore) (rows : List Row) : Prop :=
  (rows.map Row.key).Nodup ∧ ∀ r ∈ rows, st.byKey r.key = none

instance (st : LedgerStore) (rows : List Row) : Decidable (st.Fresh rows) :=
  inferInstanceAs (Decidable (_ ∧ _))

/-- One transaction: all rows or none. -/
def appendBatch (rows : List Row) : Prog LedgerStore Exc (List Event) := fun st =>
  if rows = [] then (.ok [], st)
  else if st.inconsistent then (.error .ledgerInconsistent, st)
  else if ¬ st.Fresh rows then (.error .integrityError, st)
  else (.ok (stamp (st.count + 1) rows), st.commit rows)

def append (row : Row) : Prog LedgerStore Exc Event := fun st =>
  if st.inconsistent then (.error .ledgerInconsistent, st)
  else if ¬ st.Fresh [row] then (.error .integrityError, st)
  else (.ok { row with seq := st.count + 1 }, st.commit [row])

/-- Append a row and take the listed exceptions for success: the row is there already, or the
store can record nothing. -/
def appendSuppressing (suppressed : List Exc) (row : Row) : Prog LedgerStore Exc Unit :=
  Prog.catching (do let _ ← append row; pure ()) fun x =>
    if x ∈ suppressed then pure () else Prog.raise x

/-- Recompute every row's hash; a mismatch marks this handle and raises. -/
def verify : Prog LedgerStore Exc Unit := fun st =>
  if st.intact then (.ok (), { st with inconsistent := false })
  else (.error .ledgerInconsistent, { st with inconsistent := true })

/-! ### What the operations do -/

variable {st st' : LedgerStore}

@[simp] lemma read_commit (st : LedgerStore) (rows : List Row) :
    (st.commit rows).read = st.read ++ stamp (st.count + 1) rows := by
  simp [commit, read]

@[simp] lemma txns_commit (st : LedgerStore) (rows : List Row) :
    (st.commit rows).txns = st.txns ++ [stamp (st.count + 1) rows] := rfl

@[simp] lemma intact_commit (st : LedgerStore) (rows : List Row) :
    (st.commit rows).intact = st.intact := rfl

@[simp] lemma inconsistent_commit (st : LedgerStore) (rows : List Row) :
    (st.commit rows).inconsistent = st.inconsistent := rfl

@[simp] lemma initialEquity_commit (st : LedgerStore) (rows : List Row) :
    (st.commit rows).initialEquity = st.initialEquity := rfl

@[simp] lemma stamp_toRow (n : ℕ) (rows : List Row) :
    (stamp n rows).map Event.toRow = rows := by
  induction rows generalizing n with
  | nil => rfl
  | cons r rs ih => simp [stamp, ih]

@[simp] lemma stamp_payloads (n : ℕ) (rows : List Row) :
    (stamp n rows).map (·.payload) = rows.map Row.payload := by
  rw [← stamp_toRow n rows, List.map_map, stamp_toRow]
  rfl

@[simp] lemma stamp_length (n : ℕ) (rows : List Row) : (stamp n rows).length = rows.length := by
  rw [← List.length_map, stamp_toRow]

@[simp] lemma count_commit (st : LedgerStore) (rows : List Row) :
    (st.commit rows).count = st.count + rows.length := by
  simp [count]

lemma byKey_eq_none_iff {k : Key} : st.byKey k = none ↔ ∀ e ∈ st.read, e.key ≠ k := by
  simp [byKey]

lemma byKey_some {k : Key} {e : Event} (h : st.byKey k = some e) : e ∈ st.read ∧ e.key = k :=
  ⟨List.mem_of_find?_eq_some h, by simpa using List.find?_some h⟩

lemma byKey_ne_none_of_mem {e : Event} (h : e ∈ st.read) : st.byKey e.key ≠ none :=
  fun hn => byKey_eq_none_iff.mp hn e h rfl

lemma appendBatch_ok_iff {rows : List Row} {es : List Event} :
    appendBatch rows st = (.ok es, st') ↔
      (rows = [] ∧ es = [] ∧ st' = st) ∨
      (rows ≠ [] ∧ st.inconsistent = false ∧ st.Fresh rows ∧
        es = stamp (st.count + 1) rows ∧ st' = st.commit rows) := by
  unfold appendBatch
  by_cases h₀ : rows = []
  · simp only [h₀, if_true, Prod.mk.injEq, Except.ok.injEq]
    constructor
    · rintro ⟨rfl, rfl⟩
      simp
    · rintro (⟨-, rfl, rfl⟩ | ⟨h, -⟩)
      · simp
      · exact absurd rfl h
  · by_cases h₁ : st.inconsistent = true
    · simp [h₀, h₁]
    · by_cases h₂ : st.Fresh rows
      · simp only [h₀, h₁, h₂, if_false, not_true]
        constructor
        · rintro ⟨rfl, rfl⟩
          simp [h₀]
        · rintro (⟨h, -⟩ | ⟨-, -, -, rfl, rfl⟩)
          · exact h.elim
          · simp
      · simp [h₀, h₁, h₂]

lemma appendBatch_error_iff {rows : List Row} {x : Exc} :
    appendBatch rows st = (.error x, st') ↔
      rows ≠ [] ∧ st' = st ∧
        ((st.inconsistent = true ∧ x = .ledgerInconsistent) ∨
          (st.inconsistent = false ∧ ¬ st.Fresh rows ∧ x = .integrityError)) := by
  unfold appendBatch
  by_cases h₀ : rows = []
  · simp [h₀]
  · by_cases h₁ : st.inconsistent = true
    · simp [h₀, h₁, @eq_comm _ st', @eq_comm _ x, and_comm]
    · by_cases h₂ : st.Fresh rows <;>
        simp [h₀, h₁, h₂, @eq_comm _ st', @eq_comm _ x, and_comm]

lemma append_ok_iff {row : Row} {e : Event} :
    append row st = (.ok e, st') ↔
      st.inconsistent = false ∧ st.Fresh [row] ∧ e = { row with seq := st.count + 1 } ∧
        st' = st.commit [row] := by
  unfold append
  by_cases h₁ : st.inconsistent = true
  · simp [h₁]
  · by_cases h₂ : st.Fresh [row] <;> simp [h₁, h₂, @eq_comm _ e, @eq_comm _ st']

lemma append_error_iff {row : Row} {x : Exc} :
    append row st = (.error x, st') ↔
      st' = st ∧
        ((st.inconsistent = true ∧ x = .ledgerInconsistent) ∨
          (st.inconsistent = false ∧ ¬ st.Fresh [row] ∧ x = .integrityError)) := by
  unfold append
  by_cases h₁ : st.inconsistent = true
  · simp [h₁, @eq_comm _ st', @eq_comm _ x, and_comm]
  · by_cases h₂ : st.Fresh [row] <;> simp [h₁, h₂, @eq_comm _ st', @eq_comm _ x, and_comm]

/-- A suppressing append either commits the row or leaves the store alone. -/
lemma appendSuppressing_run (xs : List Exc) (row : Row) (st : LedgerStore) :
    (st.inconsistent = false ∧ st.Fresh [row] ∧
      appendSuppressing xs row st = (.ok (), st.commit [row])) ∨
    (∃ x, (append row st = (.error x, st)) ∧
      appendSuppressing xs row st = (if x ∈ xs then .ok () else .error x, st)) := by
  unfold appendSuppressing Prog.catching
  rcases ha : append row st with ⟨x | e, st'⟩
  · obtain ⟨rfl, -⟩ := append_error_iff.mp ha
    refine .inr ⟨x, rfl, ?_⟩
    rw [Prog.bind_run_error ha]
    simp only
    split_ifs <;> rfl
  · obtain ⟨hc, hf, -, rfl⟩ := append_ok_iff.mp ha
    refine .inl ⟨hc, hf, ?_⟩
    rw [Prog.bind_run_ok ha]
    rfl

/-- A ledger cut at a row of it. -/
lemma read_cut {n : ℕ} {e : Event} (h : st.read[n]? = some e) :
    st.read = st.read.take n ++ e :: st.read.drop (n + 1) := by
  obtain ⟨hn, rfl⟩ := List.getElem?_eq_some_iff.mp h
  rw [← List.drop_eq_getElem_cons hn, List.take_append_drop]

lemma read_upto {n : ℕ} {e : Event} (h : st.read[n]? = some e) :
    st.read.take n ++ [e] <+: st.read := by
  refine ⟨st.read.drop (n + 1), ?_⟩
  rw [List.append_assoc, List.singleton_append]
  exact (read_cut h).symm

lemma fresh_singleton {row : Row} : st.Fresh [row] ↔ st.byKey row.key = none := by
  simp [Fresh]

end LedgerStore

end PumpGrok
