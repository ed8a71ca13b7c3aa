import PumpGrok.Ledger.Store
import PumpGrok.Lib.Runs

/-!
Orders buffered while the ledger cannot be written, and drained into it afterwards. A drain takes
an order off the buffer before it appends it, so that the order of a failing append is in neither.
-/

namespace PumpGrok

namespace Degraded

def ledgerBufferCap : ℕ := 1000

/-- What is buffered: a row the store can be given, or a mapping that lacks a field or that the
store's models refuse. -/
inductive Buffered where
  | row (r : Row)
  | malformed (k : ℕ)

structure DegradedState where
  ledgerBuffer : List Buffered := []
  persistenceRaised : Bool := false

inductive BufferError where
  | ledgerUnavailable
  | exc (e : Exc)

def bufferOrder (b : Buffered) (d : DegradedState) : Except BufferError Unit × DegradedState :=
  if ledgerBufferCap ≤ d.ledgerBuffer.length then (.error .ledgerUnavailable, d)
  else (.ok (), { d with ledgerBuffer := d.ledgerBuffer ++ [b] })

/-- An append of the drain; the database may fail it. -/
def appendBuffered (fails : Bool) (b : Buffered) (st : LedgerStore) :
    Except Exc Unit × LedgerStore :=
  match b with
  | .malformed _ => (.error .valueError, st)
  | .row r =>
    if fails then (.error .osError, st)
    else ((LedgerStore.append r st).1.map fun _ => (), (LedgerStore.append r st).2)

/-- The loop of a drain, with the failures of the database for its appends. It gives the orders
appended and those left. -/
def drainLoop : List Bool → List Buffered → LedgerStore →
    Except Exc Unit × List Buffered × List Buffered × LedgerStore
  | _, [], st => (.ok (), [], [], st)
  | fails, b :: rest, st =>
    match appendBuffered (fails.headD false) b st with
    | (.error e, st') => (.error e, [], rest, st')
    | (.ok _, st') =>
      let r := drainLoop fails.tail rest st'
      (r.1, b :: r.2.1, r.2.2.1, r.2.2.2)

/-- The number of orders appended, when no append fails. -/
def drainBuffer (fails : List Bool) (d : DegradedState) (st : LedgerStore) :
    Except Exc ℕ × DegradedState × LedgerStore :=
  let r := drainLoop fails d.ledgerBuffer st
  match r.1 with
  | .ok _ =>
    (.ok r.2.1.length, { d with ledgerBuffer := r.2.2.1, persistenceRaised := false }, r.2.2.2)
  | .error e => (.error e, { d with ledgerBuffer := r.2.2.1 }, r.2.2.2)

/-! ### Runs -/

/-- A desk with what it has buffered and what its drains have appended so far. -/
structure BufferDesk where
  state : DegradedState := {}
  store : LedgerStore := {}
  accepted : List Buffered := []
  drained : List Buffered := []

inductive BufferAction where
  | bufferOrder (b : Buffered)
  | drainBuffer (fails : List Bool)
  | raised (b : Bool)
  | observed (row : Row)
  | marked (inconsistent : Bool)

def step (s : BufferDesk) : BufferAction → BufferDesk
  | .bufferOrder b =>
    { s with
      state := (bufferOrder b s.state).2
      accepted :=
        match (bufferOrder b s.state).1 with
        | .ok _ => s.accepted ++ [b]
        | .error _ => s.accepted }
  | .drainBuffer fails =>
    { s with
      state := (drainBuffer fails s.state s.store).2.1
      store := (drainBuffer fails s.state s.store).2.2
      drained := s.drained ++ (drainLoop fails s.state.ledgerBuffer s.store).2.1 }
  | .raised b => { s with state := { s.state with persistenceRaised := b } }
  | .observed row => { s with store := (LedgerStore.append row s.store).2 }
  | .marked b => { s with store := { s.store with inconsistent := b } }

/-- No append of a drain fails: the database takes it, and the row is well formed with a key that
is free. -/
def Drains : List Bool → List Buffered → LedgerStore → Prop
  | _, [], _ => True
  | fails, b :: rest, st =>
    fails.headD false = false ∧ st.inconsistent = false ∧
      ∃ r, b = .row r ∧ st.byKey r.key = none ∧ Drains fails.tail rest (st.commit [r])

def Unfailing (s : BufferDesk) : BufferAction → Prop
  | .drainBuffer fails => Drains fails s.state.ledgerBuffer s.store
  | _ => True

/-- What the drains appended, and then what is still buffered, is what was taken in. -/
def Lossless (s : BufferDesk) : Prop := s.drained ++ s.state.ledgerBuffer = s.accepted

/-- The rows that drains appended stand in the ledger in that order. -/
def Recorded (s : BufferDesk) : Prop :=
  ∃ rows : List Row, s.drained = rows.map Buffered.row ∧ rows.Sublist (s.store.read.map Event.toRow)

/-! ### One drain -/

section Drain

variable {fails : List Bool} {bs : List Buffered} {st : LedgerStore}

/-- An append succeeds when nothing refuses it, and then stores the row. -/
lemma appendBuffered_cases (fails : Bool) (b : Buffered) (st : LedgerStore) :
    (∃ r, b = .row r ∧ fails = false ∧ st.inconsistent = false ∧ st.byKey r.key = none ∧
      appendBuffered fails b st = (.ok (), st.commit [r])) ∨
    ((∀ r, b = .row r → ¬ (fails = false ∧ st.inconsistent = false ∧ st.byKey r.key = none)) ∧
      ∃ e, appendBuffered fails b st = (.error e, st)) := by
  cases b with
  | malformed k => exact .inr ⟨fun r hr => (nomatch hr), _, rfl⟩
  | row r =>
    cases fails with
    | true => exact .inr ⟨fun r' _ h => (nomatch h.1), _, rfl⟩
    | false =>
      have happ : appendBuffered false (.row r) st =
          ((LedgerStore.append r st).1.map fun _ => (), (LedgerStore.append r st).2) := rfl
      rcases ha : LedgerStore.append r st with ⟨e | ev, st'⟩
      · obtain ⟨rfl, he⟩ := LedgerStore.append_error_iff.mp ha
        rw [ha] at happ
        refine .inr ⟨?_, e, happ⟩
        rintro r' hr ⟨-, hc, hk⟩
        obtain rfl := Buffered.row.inj hr
        rcases he with ⟨hc', -⟩ | ⟨-, hf, -⟩
        · rw [hc] at hc'
          simp at hc'
        · exact hf (LedgerStore.fresh_singleton.mpr hk)
      · obtain ⟨hc, hf, -, rfl⟩ := LedgerStore.append_ok_iff.mp ha
        rw [ha] at happ
        exact .inl ⟨r, rfl, rfl, hc, LedgerStore.fresh_singleton.mp hf, happ⟩

/-- What a drain appended was at the head of the buffer, and stands in the ledger. -/
lemma drainLoop_recorded (fails : List Bool) (bs : List Buffered) (st : LedgerStore) :
    ∃ rows : List Row, (drainLoop fails bs st).2.1 = rows.map Buffered.row ∧
      (drainLoop fails bs st).2.2.2.read.map Event.toRow = st.read.map Event.toRow ++ rows := by
  induction bs generalizing fails st with
  | nil => exact ⟨[], rfl, by simp [drainLoop]⟩
  | cons b rest ih =>
    rw [drainLoop]
    rcases appendBuffered_cases (fails.headD false) b st with
      ⟨r, rfl, -, -, -, happ⟩ | ⟨-, e, happ⟩
    · rw [happ]
      obtain ⟨rows, hrows, hread⟩ := ih fails.tail (st.commit [r])
      refine ⟨r :: rows, by simp [hrows], ?_⟩
      dsimp only
      rw [hread]
      simp
    · rw [happ]
      exact ⟨[], rfl, by simp⟩

/-- A drain loses nothing exactly when no append of it fails. -/
lemma drainLoop_lossless (fails : List Bool) (bs : List Buffered) (st : LedgerStore) :
    (drainLoop fails bs st).2.1 ++ (drainLoop fails bs st).2.2.1 = bs ↔ Drains fails bs st := by
  induction bs generalizing fails st with
  | nil => exact iff_of_true rfl trivial
  | cons b rest ih =>
    rw [drainLoop, Drains]
    rcases appendBuffered_cases (fails.headD false) b st with
      ⟨r, rfl, hf, hc, hk, happ⟩ | ⟨hno, e, happ⟩
    · rw [happ]
      dsimp only
      rw [List.cons_append, List.cons.injEq, ih]
      constructor
      · rintro ⟨-, h⟩
        exact ⟨hf, hc, r, rfl, hk, h⟩
      · rintro ⟨-, -, r', hr, -, h⟩
        obtain rfl := Buffered.row.inj hr
        exact ⟨rfl, h⟩
    · rw [happ]
      dsimp only
      refine iff_of_false (fun h => ?_) ?_
      · have hlen := congrArg List.length h
        simp at hlen
      · rintro ⟨hf, hc, r, hr, hk, -⟩
        exact hno r hr ⟨hf, hc, hk⟩

end Drain

/-! ### Whole runs -/

lemma buffer_drained (fails : List Bool) (d : DegradedState) (st : LedgerStore) :
    (drainBuffer fails d st).2.1.ledgerBuffer = (drainLoop fails d.ledgerBuffer st).2.2.1 ∧
      (drainBuffer fails d st).2.2 = (drainLoop fails d.ledgerBuffer st).2.2.2 := by
  unfold drainBuffer
  dsimp only
  rcases (drainLoop fails d.ledgerBuffer st).1 with e | u
  · exact ⟨rfl, rfl⟩
  · exact ⟨rfl, rfl⟩

lemma recorded_step (s : BufferDesk) (a : BufferAction) (h : Recorded s) : Recorded (step s a) := by
  obtain ⟨rows, hrows, hsub⟩ := h
  cases a with
  | bufferOrder b => exact ⟨rows, hrows, hsub⟩
  | drainBuffer fails =>
    obtain ⟨more, hmore, hread⟩ := drainLoop_recorded fails s.state.ledgerBuffer s.store
    have hstore := (buffer_drained fails s.state s.store).2
    refine ⟨rows ++ more, ?_, ?_⟩
    · show s.drained ++ _ = _
      rw [hrows, hmore, List.map_append]
    · show (rows ++ more).Sublist ((drainBuffer fails s.state s.store).2.2.read.map Event.toRow)
      rw [hstore, hread]
      exact hsub.append_right more
  | raised b => exact ⟨rows, hrows, hsub⟩
  | observed row =>
    refine ⟨rows, hrows, ?_⟩
    show rows.Sublist ((LedgerStore.append row s.store).2.read.map Event.toRow)
    rcases ha : LedgerStore.append row s.store with ⟨e | ev, st'⟩
    · obtain ⟨rfl, -⟩ := LedgerStore.append_error_iff.mp ha
      exact hsub
    · obtain ⟨-, -, -, rfl⟩ := LedgerStore.append_ok_iff.mp ha
      rw [LedgerStore.read_commit, List.map_append]
      exact hsub.trans (List.sublist_append_left _ _)
  | marked b => exact ⟨rows, hrows, hsub⟩

/-- A step keeps the orders exactly when it is no drain with a failing append. -/
lemma lossless_step (s : BufferDesk) (a : BufferAction) (h : Lossless s) :
    Lossless (step s a) ↔ Unfailing s a := by
  cases a with
  | bufferOrder b =>
    refine iff_of_true ?_ trivial
    unfold Lossless step bufferOrder
    dsimp only
    split_ifs
    · exact h
    · show s.drained ++ (s.state.ledgerBuffer ++ [b]) = s.accepted ++ [b]
      rw [← List.append_assoc, h]
  | drainBuffer fails =>
    have hbuffer := (buffer_drained fails s.state s.store).1
    show (s.drained ++ _) ++ (drainBuffer fails s.state s.store).2.1.ledgerBuffer = s.accepted ↔ _
    rw [hbuffer, List.append_assoc, ← h, List.append_cancel_left_eq]
    exact drainLoop_lossless fails s.state.ledgerBuffer s.store
  | raised b => exact iff_of_true h trivial
  | observed row => exact iff_of_true h trivial
  | marked b => exact iff_of_true h trivial

/-- **The degraded buffer loses nothing**, in every state of a run from an empty buffer, exactly
when no drain of the run meets a failing append. -/
theorem buffer_loses_nothing_iff (store : LedgerStore) (as : List BufferAction) :
    (∀ bs, bs <+: as → Lossless (Runs.after step { store := store } bs) ∧
        Recorded (Runs.after step { store := store } bs)) ↔
      Runs.Along step Unfailing { store := store } as := by
  have hrecorded : Recorded { store := store } := ⟨[], rfl, List.nil_sublist _⟩
  rw [← Runs.always_iff_along recorded_step (fun s a _ => lossless_step s a) hrecorded rfl as]
  refine forall₂_congr fun bs _ => and_iff_left ?_
  exact Runs.invariant (I := Recorded) recorded_step hrecorded bs

def sampleOrder (k : ℕ) : Buffered :=
  .row
    { ts := 0
      source := .paper
      key := .other k
      payload := .configChanged }

/-- Two buffered orders; the database fails the first append of the drain, and none of the next. -/
def failingDrain : List BufferAction :=
  [.bufferOrder (sampleOrder 0), .bufferOrder (sampleOrder 1), .drainBuffer [true], .drainBuffer []]

theorem failing_drain_loses : ¬ ∀ store as, Lossless (Runs.after step { store := store } as) := by
  intro h
  have hlen : (Runs.after step {} failingDrain).drained.length +
      (Runs.after step {} failingDrain).state.ledgerBuffer.length =
        (Runs.after step {} failingDrain).accepted.length := by
    rw [← List.length_append]
    exact congrArg List.length (h {} failingDrain)
  revert hlen
  decide +kernel

end Degraded

end PumpGrok
