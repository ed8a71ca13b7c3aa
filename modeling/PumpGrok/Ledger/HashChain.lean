import PumpGrok.Core.Types
import PumpGrok.Lib.Json
import PumpGrok.Lib.Prog
import PumpGrok.Lib.Runs

/-!
The rows of the ledger file: each carries the hash of its fields and of the row before it. A call
inserts its rows in one transaction; verifying the file recomputes every hash in order.

The hash function and the models that validate payloads are parameters. Collisions are excluded
only among the rows at hand.
-/

namespace PumpGrok

namespace HashChain

/-- A row of the `events` table. -/
structure StoredRow where
  seq : ℤ
  tsUtc : Text
  source : Text
  correlationId : Text
  idempotencyKey : Text
  type : Text
  payloadJson : Text
  prevHash : Text
  hash : Text
  deriving DecidableEq

def genesisPrevHash : Text := List.replicate 64 '0'

/-- The text a row's hash is taken of, keys in order. -/
def rowBody (r : StoredRow) : Text :=
  Json.object
    [("correlation_id".toList, .str r.correlationId),
      ("idempotency_key".toList, .str r.idempotencyKey),
      ("payload_json".toList, .str r.payloadJson),
      ("prev_hash".toList, .str r.prevHash),
      ("seq".toList, .num r.seq),
      ("source".toList, .str r.source),
      ("ts_utc".toList, .str r.tsUtc),
      ("type".toList, .str r.type)]

/-- The hashed text holds every field but the hash. -/
lemma rowBody_inj {r r' : StoredRow} (h : rowBody r = rowBody r') (hh : r.hash = r'.hash) :
    r = r' := by
  have := Json.object_injective h
  simp only [List.cons.injEq, Prod.mk.injEq, Json.Scalar.str.injEq, Json.Scalar.num.injEq, true_and,
    and_true] at this
  obtain ⟨h₁, h₂, h₃, h₄, h₅, h₆, h₇, h₈⟩ := this
  cases r
  cases r'
  simp_all

/-! ### Appending -/

/-- A value as the caller passes it. -/
inductive Value where
  | none
  | text (t : Text)
  | other (truthy : Bool)

def Value.truthy : Value → Bool
  | none => false
  | text t => t ≠ []
  | other b => b

/-- One event to append; the payload is there when it is a mapping. -/
structure Entry (π : Type) where
  tsUtc : Value
  source : Value
  correlationId : Value
  idempotencyKey : Value
  type : Value
  payload : Option π

/-- The envelope once it is checked. -/
structure Envelope (π : Type) where
  tsUtc : Text
  source : Text
  correlationId : Text
  idempotencyKey : Text
  type : Text
  payload : π

def sources : List Text := ["paper".toList, "replay".toList, "manual".toList]

def Value.isSource : Value → Bool
  | text t => t ∈ sources
  | _ => false

def Value.asText : Value → Except Exc Text
  | text t => .ok t
  | _ => .error .assertionError

def checkEnvelope {π : Type} (e : Entry π) : Except Exc (Envelope π) :=
  if e.source.isSource = false then .error .valueError
  else if !(e.tsUtc.truthy && e.correlationId.truthy &&
    e.idempotencyKey.truthy && e.type.truthy) then
    .error .valueError
  else
    match e.payload with
    | none => .error .valueError
    | some payload => do
      let tsUtc ← e.tsUtc.asText
      let source ← e.source.asText
      let correlationId ← e.correlationId.asText
      let idempotencyKey ← e.idempotencyKey.asText
      let type ← e.type.asText
      pure
        { tsUtc := tsUtc
          source := source
          correlationId := correlationId
          idempotencyKey := idempotencyKey
          type := type
          payload := payload }

def eventTypes : List Text :=
  ["OrderPlaced", "OrderRejected", "FillRecorded", "PositionOpened", "PositionClosed",
    "MarkToMarket", "HaltSet", "HaltCleared", "KillSwitchSet", "KillSwitchCleared",
    "BreakerTripped", "BreakerReset", "DailyRollover", "ConfigChanged", "LiveWriteAttempted",
    "Escalation", "JournalNote", "ApprovalRecorded"].map String.toList

/-- What the store takes from outside: the hash function, and for each event type the model that
validates a payload and dumps it. -/
structure Deps (π : Type) where
  sha256 : Text → Text
  modelJson : Text → π → Except Exc Text

/-- Which statements of a call the database refuses. -/
structure Faults where
  begins : Option Exc := none
  inserts : ℕ → Option Exc := fun _ => none
  commits : Option Exc := none

/-- One handle of the file: the committed rows, and those seen inside an open transaction. -/
structure Store where
  table : List StoredRow := []
  working : Option (List StoredRow) := none
  inconsistent : Bool := false

section Calls

variable {π : Type} (deps : Deps π)

def rowHash (r : StoredRow) : Text := deps.sha256 (rowBody r)

def validatedPayload (type : Text) (payload : π) : Except Exc Text :=
  if type ∈ eventTypes then deps.modelJson type payload else .error .valueError

/-- The row of a checked envelope at the head of the chain. -/
def chainedRow (seq : ℤ) (prevHash : Text) (e : Envelope π) (payloadJson : Text) : StoredRow :=
  let row : StoredRow :=
    { seq := seq
      tsUtc := e.tsUtc
      source := e.source
      correlationId := e.correlationId
      idempotencyKey := e.idempotencyKey
      type := e.type
      payloadJson := payloadJson
      prevHash := prevHash
      hash := [] }
  { row with hash := rowHash deps row }

def ofExcept {α : Type} : Except Exc α → Prog Store Exc α
  | .ok a => pure a
  | .error x => Prog.raise x

def requireConsistent : Prog Store Exc Unit := fun s =>
  if s.inconsistent then (.error .ledgerInconsistent, s) else (.ok (), s)

/-- A database statement that may be refused. -/
def statement (fault : Option Exc) (f : Store → Store) : Prog Store Exc Unit := fun s =>
  match fault with
  | some x => (.error x, s)
  | none => (.ok (), f s)

def beginImmediate (faults : Faults) : Prog Store Exc Unit :=
  statement faults.begins fun s => { s with working := some s.table }

def commit (faults : Faults) : Prog Store Exc Unit :=
  statement faults.commits fun s => { s with table := s.working.getD s.table, working := none }

def rollback : Prog Store Exc Unit := Prog.modify fun s => { s with working := none }

/-- The row with the highest number. -/
def newest : List StoredRow → Option StoredRow
  | [] => none
  | r :: rs =>
    match newest rs with
    | none => some r
    | some r' => some (if r.seq < r'.seq then r' else r)

/-- The number and the previous hash of the next row. -/
def chainHead : Prog Store Exc (ℤ × Text) := Prog.read fun s =>
  match newest (s.working.getD s.table) with
  | none => (1, genesisPrevHash)
  | some r => (r.seq + 1, r.hash)

/-- Two rows the table does not hold at once. -/
def Clashes (r r' : StoredRow) : Bool :=
  r.seq = r'.seq || r.idempotencyKey = r'.idempotencyKey || r.hash = r'.hash

def insertRow (fault : Option Exc) (row : StoredRow) : Prog Store Exc Unit := fun s =>
  let rows := s.working.getD s.table
  if rows.any (Clashes row) then (.error .integrityError, s)
  else statement fault (fun s => { s with working := some (rows ++ [row]) }) s

/-- Run the body of a transaction; any exception rolls it back. -/
def transact {α : Type} (faults : Faults) (m : Prog Store Exc α) : Prog Store Exc α := do
  beginImmediate faults
  Prog.catching
    (do
      let a ← m
      commit faults
      pure a)
    fun x => do
      rollback
      Prog.raise x

def append (faults : Faults) (entry : Entry π) : Prog Store Exc StoredRow := do
  requireConsistent
  transact faults do
    let e ← ofExcept (checkEnvelope entry)
    let payloadJson ← ofExcept (validatedPayload deps e.type e.payload)
    let (seq, prevHash) ← chainHead
    let row := chainedRow deps seq prevHash e payloadJson
    insertRow (faults.inserts 0) row
    pure row

/-- Insert the entries one after another, each chained to the one before. -/
def insertEach (faults : Faults) : ℕ → ℤ → Text → List (Entry π) → Prog Store Exc (List StoredRow)
  | _, _, _, [] => pure []
  | k, seq, prevHash, entry :: rest => do
    let e ← ofExcept (checkEnvelope entry)
    let payloadJson ← ofExcept (validatedPayload deps e.type e.payload)
    let row := chainedRow deps seq prevHash e payloadJson
    insertRow (faults.inserts k) row
    let stored ← insertEach faults (k + 1) (seq + 1) row.hash rest
    pure (row :: stored)

def appendBatch (faults : Faults) (entries : List (Entry π)) : Prog Store Exc (List StoredRow) :=
  if entries = [] then pure []
  else do
    requireConsistent
    transact faults do
      let (seq, prevHash) ← chainHead
      insertEach deps faults 0 seq prevHash entries

/-! ### Verifying -/

/-- Why a row is refused. -/
inductive ChainFault where
  | doesNotChain (seq : ℤ)
  | hashMismatch (seq : ℤ)
  deriving DecidableEq

/-- The first fault of rows in order, after a hash. -/
def chainFault : Text → List StoredRow → Option ChainFault
  | _, [] => none
  | expectedPrev, r :: rs =>
    if r.prevHash ≠ expectedPrev then some (.doesNotChain r.seq)
    else if rowHash deps r ≠ r.hash then some (.hashMismatch r.seq)
    else chainFault r.hash rs

/-- The rows of a table in order of their numbers. -/
def inSeqOrder (table : List StoredRow) : List StoredRow :=
  table.mergeSort fun r r' => decide (r.seq ≤ r'.seq)

def verify : Prog Store Exc Bool := fun s =>
  match chainFault deps genesisPrevHash (inSeqOrder s.table) with
  | none => (.ok true, { s with inconsistent := false })
  | some _ => (.error .ledgerInconsistent, { s with inconsistent := true })

end Calls

/-! ### Chains -/

/-- Rows numbered from `n` on, each linked to the one before it and hashed. -/
def ChainFrom {π : Type} (deps : Deps π) : ℤ → Text → List StoredRow → Prop
  | _, _, [] => True
  | n, prevHash, r :: rs => r.seq = n ∧ r.prevHash = prevHash ∧ r.hash = rowHash deps r ∧
      ChainFrom deps (n + 1) r.hash rs

/-- The hash the next row links to. -/
def lastHash (prevHash : Text) (rows : List StoredRow) : Text :=
  (rows.getLast?.map StoredRow.hash).getD prevHash

section Chains

variable {π : Type} {deps : Deps π} {n : ℤ} {p : Text} {t u : List StoredRow}

lemma lastHash_cons (p : Text) (r : StoredRow) (rs : List StoredRow) :
    lastHash p (r :: rs) = lastHash r.hash rs := by
  rcases rs with - | ⟨r', rs⟩
  · rfl
  · simp [lastHash, List.getLast?_cons]

lemma chainFrom_append :
    ChainFrom deps n p (t ++ u) ↔
      ChainFrom deps n p t ∧ ChainFrom deps (n + t.length) (lastHash p t) u := by
  induction t generalizing n p with
  | nil => simp [ChainFrom, lastHash]
  | cons r rs ih =>
    simp only [List.cons_append, ChainFrom, ih, lastHash_cons, List.length_cons, and_assoc]
    rw [show n + 1 + (rs.length : ℤ) = n + ((rs.length + 1 : ℕ) : ℤ) by push_cast; ring]

lemma ChainFrom.seqs (h : ChainFrom deps n p t) :
    t.map StoredRow.seq = (List.range t.length).map fun i : ℕ => n + i := by
  induction t generalizing n p with
  | nil => rfl
  | cons r rs ih =>
    obtain ⟨hn, -, -, hrs⟩ := h
    rw [List.length_cons, List.range_succ_eq_map, List.map_cons, List.map_cons, ih hrs,
      List.map_map, hn]
    simp only [List.cons.injEq, Nat.cast_zero, add_zero, true_and]
    refine List.map_congr_left fun i _ => ?_
    simp only [Function.comp, Nat.cast_succ]
    ring

lemma ChainFrom.seq_mem (h : ChainFrom deps n p t) {r : StoredRow} (hr : r ∈ t) :
    n ≤ r.seq ∧ r.seq < n + t.length := by
  have hm : r.seq ∈ t.map StoredRow.seq := List.mem_map_of_mem hr
  rw [h.seqs, List.mem_map] at hm
  obtain ⟨i, hi, he⟩ := hm
  rw [List.mem_range] at hi
  omega

/-- The highest number of a chain is its last row's. -/
lemma newest_chain (h : ChainFrom deps n p t) : newest t = t.getLast? := by
  induction t generalizing n p with
  | nil => rfl
  | cons r rs ih =>
    obtain ⟨hn, -, -, hrs⟩ := h
    rw [newest, ih hrs]
    rcases hl : rs.getLast? with - | r'
    · rw [List.getLast?_eq_none_iff] at hl
      simp [hl]
    · have hr' := (hrs.seq_mem (List.mem_of_getLast? hl)).1
      rcases rs with - | ⟨x, xs⟩
      · simp at hl
      · rw [List.getLast?_cons_cons, hl]
        simp only [Option.some.injEq, ite_eq_left_iff, not_lt]
        omega

lemma inSeqOrder_chain (h : ChainFrom deps n p t) : inSeqOrder t = t := by
  refine List.mergeSort_of_pairwise ?_
  induction t generalizing n p with
  | nil => exact .nil
  | cons r rs ih =>
    obtain ⟨hn, -, -, hrs⟩ := h
    refine List.pairwise_cons.mpr ⟨fun r' hr' => ?_, ih hrs⟩
    have := (hrs.seq_mem hr').1
    simp only [decide_eq_true_eq]
    omega

/-- A chain has no fault. -/
lemma chainFault_chain (h : ChainFrom deps n p t) : chainFault deps p t = none := by
  induction t generalizing n p with
  | nil => rfl
  | cons r rs ih =>
    obtain ⟨-, hp, hh, hrs⟩ := h
    simp only [chainFault, hp, ← hh, ne_eq, not_true, if_false]
    exact ih hrs

end Chains

/-! ### What the calls do -/

section Runs

variable {π : Type} {deps : Deps π} {faults : Faults} {s s' : Store}

lemma ofExcept_run {α : Type} (e : Except Exc α) (s : Store) : ofExcept e s = (e, s) := by
  cases e <;> rfl

/-- The table and the rows of the open transaction are apart. -/
lemma insertRow_run {fault : Option Exc} {row : StoredRow} {rows : List StoredRow}
    (hw : s.working = some rows) :
    (∃ x, insertRow fault row s = (.error x, s)) ∨
      insertRow fault row s = (.ok (), { s with working := some (rows ++ [row]) }) := by
  unfold insertRow statement
  simp only [hw, Option.getD_some]
  split_ifs
  · exact .inl ⟨_, rfl⟩
  · rcases fault with - | x
    · exact .inr rfl
    · exact .inl ⟨x, rfl⟩

/-- Whether a row holds an entry: its envelope, and the payload its model dumps. -/
def Holds (deps : Deps π) (entry : Entry π) (r : StoredRow) : Prop :=
  ∃ e, checkEnvelope entry = .ok e ∧ r.tsUtc = e.tsUtc ∧ r.source = e.source ∧
    r.correlationId = e.correlationId ∧ r.idempotencyKey = e.idempotencyKey ∧ r.type = e.type ∧
    validatedPayload deps e.type e.payload = .ok r.payloadJson

/-- Rows stored for entries: one for each, in order, chained after what was there. -/
structure StoredFor (deps : Deps π) (seq : ℤ) (prevHash : Text) (entries : List (Entry π))
    (stored : List StoredRow) : Prop where
  holds : List.Forall₂ (Holds deps) entries stored
  chain : ChainFrom deps seq prevHash stored

/-- **Inserting a batch** stores a row for each entry in the open transaction, or raises with the
committed table as it was. -/
theorem insertEach_run (deps : Deps π) (faults : Faults) (entries : List (Entry π)) (k : ℕ)
    (seq : ℤ) (prevHash : Text)
    {s : Store} {rows : List StoredRow} (hw : s.working = some rows) :
    (∃ x w, insertEach deps faults k seq prevHash entries s =
        (.error x, { s with working := some w })) ∨
      ∃ stored, StoredFor deps seq prevHash entries stored ∧
        insertEach deps faults k seq prevHash entries s =
          (.ok stored, { s with working := some (rows ++ stored) }) := by
  induction entries generalizing k seq prevHash s rows with
  | nil => exact .inr ⟨[], ⟨.nil, trivial⟩, by simp [insertEach, Prog.pure_run, ← hw]⟩
  | cons entry rest ih =>
    have hsame : { s with working := some rows } = s := by rw [← hw]
    unfold insertEach
    rcases he : checkEnvelope entry with x | e
    · exact .inl ⟨x, rows, by rw [Prog.bind_run_error (ofExcept_run _ s), hsame]⟩
    · rw [Prog.bind_run_ok (ofExcept_run _ s)]
      rcases hp : validatedPayload deps e.type e.payload with x | payloadJson
      · exact .inl ⟨x, rows, by rw [Prog.bind_run_error (ofExcept_run _ s), hsame]⟩
      · rw [Prog.bind_run_ok (ofExcept_run _ s)]
        set row := chainedRow deps seq prevHash e payloadJson with hrow
        rcases @insertRow_run s (faults.inserts k) row rows hw with ⟨x, hi⟩ | hi
        · exact .inl ⟨x, rows, by rw [Prog.bind_run_error hi, hsame]⟩
        · rw [Prog.bind_run_ok hi]
          set s₁ : Store := { s with working := some (rows ++ [row]) } with hs₁
          rcases ih (k + 1) (seq + 1) row.hash (s := s₁) rfl with ⟨x, w, hr⟩ | ⟨stored, hst, hr⟩
          · exact .inl ⟨x, w, by rw [Prog.bind_run_error hr]⟩
          · refine .inr ⟨row :: stored, ⟨.cons ?_ hst.holds, ?_⟩, ?_⟩
            · exact ⟨e, he, rfl, rfl, rfl, rfl, rfl, hp⟩
            · exact ⟨rfl, rfl, rfl, hst.chain⟩
            · rw [Prog.bind_run_ok hr, Prog.pure_run, List.append_assoc]
              rfl

/-- **A transaction** adds to the table what its body stored, or leaves the handle as it was. -/
theorem transact_run (faults : Faults) {α : Type} {Q : α → List StoredRow → Prop}
    {m : Prog Store Exc α}
    (hs : s.working = none)
    (hm : (∃ x w, m { s with working := some s.table } = (.error x, { s with working := some w })) ∨
      ∃ a rows, Q a rows ∧ m { s with working := some s.table } =
        (.ok a, { s with working := some (s.table ++ rows) })) :
    (∃ x, transact faults m s = (.error x, s)) ∨
      ∃ a rows, Q a rows ∧ transact faults m s = (.ok a, { s with table := s.table ++ rows }) := by
  have hback : ∀ w, { s with working := none } = s ∧
      ({ { s with working := some w } with working := none } : Store) = s := by
    intro w
    rw [← hs]
    exact ⟨rfl, rfl⟩
  unfold transact
  rcases hb : faults.begins with - | x
  · have hbegin : beginImmediate faults s = (.ok (), { s with working := some s.table }) := by
      simp [beginImmediate, statement, hb]
    rw [Prog.bind_run_ok hbegin]
    unfold Prog.catching
    rcases hm with ⟨x, w, hr⟩ | ⟨a, rows, hq, hr⟩
    · rw [Prog.bind_run_error hr]
      exact .inl ⟨x, Prod.ext rfl (hback w).2⟩
    · rw [Prog.bind_run_ok hr]
      rcases hc : faults.commits with - | x
      · refine .inr ⟨a, rows, hq, ?_⟩
        have hcommit : commit faults { s with working := some (s.table ++ rows) } =
            (.ok (), { s with table := s.table ++ rows }) := by
          simp [commit, statement, hc, hs]
        rw [Prog.bind_run_ok hcommit]
        rfl
      · have hcommit : commit faults { s with working := some (s.table ++ rows) } =
            (.error x, { s with working := some (s.table ++ rows) }) := by
          simp [commit, statement, hc]
        rw [Prog.bind_run_error hcommit]
        exact .inl ⟨x, Prod.ext rfl (hback _).2⟩
  · have hbegin : beginImmediate faults s = (.error x, s) := by
      simp [beginImmediate, statement, hb]
    exact .inl ⟨x, Prog.bind_run_error hbegin⟩

lemma chainHead_run {rows : List StoredRow} (hw : s.working = some rows)
    (hc : ChainFrom deps 1 genesisPrevHash rows) :
    chainHead s = (.ok (rows.length + 1, lastHash genesisPrevHash rows), s) := by
  unfold chainHead
  rw [Prog.read_run, hw, Option.getD_some, newest_chain hc]
  rcases hl : rows.getLast? with - | r
  · rw [List.getLast?_eq_none_iff] at hl
    simp [hl, lastHash]
  · have hseq : r.seq = rows.length := by
      obtain ⟨front, rfl⟩ := List.getLast?_eq_some_iff.mp hl
      have := (chainFrom_append.mp hc).2.1
      rw [this, List.length_append]
      push_cast
      simp
      ring
    simp [lastHash, hl, hseq]

/-- Rows that extend a table's chain. -/
def Extends (deps : Deps π) (table : List StoredRow) (entries : List (Entry π))
    (stored : List StoredRow) : Prop :=
  StoredFor deps (table.length + 1) (lastHash genesisPrevHash table) entries stored

theorem appendBatch_run (faults : Faults) (entries : List (Entry π)) (hs : s.working = none)
    (hc : ChainFrom deps 1 genesisPrevHash s.table) :
    (∃ x, appendBatch deps faults entries s = (.error x, s)) ∨
      ∃ stored, Extends deps s.table entries stored ∧
        appendBatch deps faults entries s =
          (.ok stored, { s with table := s.table ++ stored }) := by
  unfold appendBatch
  split_ifs with hnil
  · subst hnil
    exact .inr ⟨[], ⟨.nil, trivial⟩, by simp [Prog.pure_run]⟩
  · by_cases hi : s.inconsistent = true
    · have hr : requireConsistent s = (.error .ledgerInconsistent, s) := by
        simp [requireConsistent, hi]
      exact .inl ⟨_, Prog.bind_run_error hr⟩
    · have hr : requireConsistent s = (.ok (), s) := by simp [requireConsistent, hi]
      rw [Prog.bind_run_ok hr]
      have hbody := transact_run faults (m := do
          let (seq, prevHash) ← chainHead
          insertEach deps faults 0 seq prevHash entries)
        (Q := fun stored rows => stored = rows ∧ Extends deps s.table entries rows) hs ?_
      · rcases hbody with hx | ⟨stored, rows, ⟨rfl, hst⟩, hr⟩
        · exact .inl hx
        · exact .inr ⟨stored, hst, hr⟩
      · rw [Prog.bind_run_ok (chainHead_run rfl hc)]
        rcases insertEach_run deps faults entries 0 (s.table.length + 1)
          (lastHash genesisPrevHash s.table) (s := { s with working := some s.table }) rfl with
          ⟨x, w, hr⟩ | ⟨stored, hst, hr⟩
        · exact .inl ⟨x, w, hr⟩
        · exact .inr ⟨stored, stored, ⟨rfl, hst⟩, hr⟩

theorem append_run (faults : Faults) (entry : Entry π) (hs : s.working = none)
    (hc : ChainFrom deps 1 genesisPrevHash s.table) :
    (∃ x, append deps faults entry s = (.error x, s)) ∨
      ∃ row, Extends deps s.table [entry] [row] ∧
        append deps faults entry s = (.ok row, { s with table := s.table ++ [row] }) := by
  unfold append
  by_cases hi : s.inconsistent = true
  · have hr : requireConsistent s = (.error .ledgerInconsistent, s) := by
      simp [requireConsistent, hi]
    exact .inl ⟨_, Prog.bind_run_error hr⟩
  · have hr : requireConsistent s = (.ok (), s) := by simp [requireConsistent, hi]
    rw [Prog.bind_run_ok hr]
    set s₁ : Store := { s with working := some s.table } with hs₁
    have hbody := transact_run faults (m := do
        let e ← ofExcept (checkEnvelope entry)
        let payloadJson ← ofExcept (validatedPayload deps e.type e.payload)
        let (seq, prevHash) ← chainHead
        let row := chainedRow deps seq prevHash e payloadJson
        insertRow (faults.inserts 0) row
        pure row)
      (Q := fun row rows => rows = [row] ∧ Extends deps s.table [entry] [row]) hs ?_
    · rcases hbody with hx | ⟨row, rows, ⟨rfl, hst⟩, hr⟩
      · exact .inl hx
      · exact .inr ⟨row, hst, hr⟩
    · rcases he : checkEnvelope entry with x | e
      · exact .inl ⟨x, s.table, Prog.bind_run_error (ofExcept_run _ s₁)⟩
      · rw [Prog.bind_run_ok (ofExcept_run _ s₁)]
        rcases hp : validatedPayload deps e.type e.payload with x | payloadJson
        · exact .inl ⟨x, s.table, Prog.bind_run_error (ofExcept_run _ s₁)⟩
        · rw [Prog.bind_run_ok (ofExcept_run _ s₁), Prog.bind_run_ok (chainHead_run rfl hc)]
          set row := chainedRow deps (s.table.length + 1) (lastHash genesisPrevHash s.table) e
            payloadJson with hrow
          rcases @insertRow_run s₁ (faults.inserts 0) row s.table rfl with ⟨x, hi⟩ | hi
          · exact .inl ⟨x, s.table, Prog.bind_run_error hi⟩
          · refine .inr ⟨row, [row], ⟨rfl, .cons ?_ .nil, rfl, rfl, rfl, trivial⟩, ?_⟩
            · exact ⟨e, he, rfl, rfl, rfl, rfl, rfl, hp⟩
            · exact Prog.bind_run_ok (f := fun _ => pure row) hi

end Runs

/-! ### Runs of calls -/

/-- A call on the handle. -/
inductive StoreCall (π : Type) where
  | append (entry : Entry π) (faults : Faults)
  | appendBatch (entries : List (Entry π)) (faults : Faults)
  | verify

namespace StoreCall

variable {π : Type} (deps : Deps π)

/-- The entries a call is to store. -/
def entries : StoreCall π → List (Entry π)
  | .append entry _ => [entry]
  | .appendBatch entries _ => entries
  | .verify => []

/-- A call, answering with the rows it stored. -/
def perform : StoreCall π → Prog Store Exc (List StoredRow)
  | .append entry faults => do
    let row ← HashChain.append deps faults entry
    pure [row]
  | .appendBatch entries faults => HashChain.appendBatch deps faults entries
  | .verify => do
    let _ ← HashChain.verify deps
    pure []

end StoreCall

def Store.step {π : Type} (deps : Deps π) (s : Store) (call : StoreCall π) : Store :=
  (call.perform deps s).2

/-- A handle between calls. -/
structure Chained {π : Type} (deps : Deps π) (s : Store) : Prop where
  idle : s.working = none
  chain : ChainFrom deps 1 genesisPrevHash s.table

/-- What a call does to the table: it fails and leaves it, or stores a row for each entry. -/
inductive Settled {π : Type} (deps : Deps π) (call : StoreCall π) (s : Store) : Prop
  | failed (x : Exc) (hr : (call.perform deps s).1 = .error x)
      (ht : (s.step deps call).table = s.table)
  | stored (rows : List StoredRow) (hr : (call.perform deps s).1 = .ok rows)
      (hst : Extends deps s.table call.entries rows)
      (ht : (s.step deps call).table = s.table ++ rows)

section Steps

variable {π : Type} {deps : Deps π} {s : Store}

lemma verify_run (h : ChainFrom deps 1 genesisPrevHash s.table) :
    verify deps s = (.ok true, { s with inconsistent := false }) := by
  unfold verify
  rw [inSeqOrder_chain h, chainFault_chain h]

lemma Chained.extend {rows : List StoredRow} {entries : List (Entry π)} (h : Chained deps s)
    (hst : Extends deps s.table entries rows) (b : Bool) :
    Chained deps { s with table := s.table ++ rows, inconsistent := b } :=
  ⟨h.idle, chainFrom_append.mpr ⟨h.chain, by rw [add_comm]; exact hst.chain⟩⟩

/-- **One call** settles, and leaves a chain. -/
theorem chained_step (h : Chained deps s) (call : StoreCall π) :
    Settled deps call s ∧ Chained deps (s.step deps call) := by
  cases call with
  | append entry faults =>
    rcases append_run faults entry h.idle h.chain with ⟨x, hr⟩ | ⟨row, hst, hr⟩
    · have hp : (StoreCall.append entry faults).perform deps s = (.error x, s) :=
        Prog.bind_run_error hr
      refine ⟨.failed x (by rw [hp]) (by rw [Store.step, hp]), ?_⟩
      rw [Store.step, hp]
      exact h
    · have hp : (StoreCall.append entry faults).perform deps s =
          (.ok [row], { s with table := s.table ++ [row] }) := Prog.bind_run_ok hr
      refine ⟨.stored [row] (by rw [hp]) hst (by rw [Store.step, hp]), ?_⟩
      rw [Store.step, hp]
      exact h.extend hst s.inconsistent
  | appendBatch entries faults =>
    rcases appendBatch_run faults entries h.idle h.chain with
      ⟨x, hr⟩ | ⟨rows, hst, hr⟩
    · have hp : (StoreCall.appendBatch entries faults).perform deps s = (.error x, s) := hr
      refine ⟨.failed x (by rw [hp]) (by rw [Store.step, hp]), ?_⟩
      rw [Store.step, hp]
      exact h
    · have hp : (StoreCall.appendBatch entries faults).perform deps s =
          (.ok rows, { s with table := s.table ++ rows }) := hr
      refine ⟨.stored rows (by rw [hp]) hst (by rw [Store.step, hp]), ?_⟩
      rw [Store.step, hp]
      exact h.extend hst s.inconsistent
  | verify =>
    have hp : (StoreCall.verify : StoreCall π).perform deps s =
        (.ok [], { s with inconsistent := false }) := Prog.bind_run_ok (verify_run h.chain)
    have hst : Extends deps s.table [] [] := ⟨.nil, trivial⟩
    refine ⟨.stored [] (by rw [hp]) hst (by rw [Store.step, hp, List.append_nil]), ?_⟩
    rw [Store.step, hp]
    exact ⟨h.idle, h.chain⟩

theorem chained_after (deps : Deps π) (calls : List (StoreCall π)) :
    Chained deps (Runs.after (Store.step deps) {} calls) :=
  Runs.invariant (I := Chained deps) (fun _ call h => (chained_step h call).2)
    (show Chained deps {} from ⟨rfl, show ChainFrom deps 1 genesisPrevHash [] from trivial⟩) calls

end Steps

/-! ### Edited tables -/

/-- No two of some rows have texts of one hash, and none hashes to the genesis value. -/
structure CollisionFree {π : Type} (deps : Deps π) (rows : List StoredRow) : Prop where
  texts : ∀ r ∈ rows, ∀ r' ∈ rows, rowHash deps r = rowHash deps r' → rowBody r = rowBody r'
  genesis : ∀ r ∈ rows, rowHash deps r ≠ genesisPrevHash

section Edits

variable {π : Type} {deps : Deps π} {n : ℤ} {p : Text} {t u : List StoredRow}

lemma chainFault_append :
    chainFault deps p (t ++ u) = none ↔
      chainFault deps p t = none ∧ chainFault deps (lastHash p t) u = none := by
  induction t generalizing p with
  | nil => simp [chainFault, lastHash]
  | cons r rs ih =>
    simp only [List.cons_append, chainFault, lastHash_cons]
    split_ifs
    · simp
    · simp
    · exact ih

lemma chainFault_cons {r : StoredRow} :
    chainFault deps p (r :: u) = none ↔
      r.prevHash = p ∧ rowHash deps r = r.hash ∧ chainFault deps r.hash u = none := by
  rw [chainFault]
  split_ifs <;> simp_all

lemma ChainFrom.hashed (h : ChainFrom deps n p t) {r : StoredRow} (hr : r ∈ t) :
    r.hash = rowHash deps r := by
  obtain ⟨front, back, rfl⟩ := List.append_of_mem hr
  exact (chainFrom_append.mp h).2.2.2.1

lemma hashed_of_verified (h : chainFault deps p u = none) {r : StoredRow} (hr : r ∈ u) :
    rowHash deps r = r.hash := by
  obtain ⟨front, back, rfl⟩ := List.append_of_mem hr
  exact (chainFault_cons.mp (chainFault_append.mp h).2).2.1

lemma lastHash_concat (p : Text) (rows : List StoredRow) (r : StoredRow) :
    lastHash p (rows ++ [r]) = r.hash := by
  simp [lastHash]

/-- A row that verifies and has the hash of a stored row is that row. -/
lemma eq_stored (hc : ChainFrom deps 1 genesisPrevHash t)
    (hv : chainFault deps genesisPrevHash u = none) (hf : CollisionFree deps (t ++ u))
    {q r : StoredRow} (hq : q ∈ t) (hr : r ∈ u) (hqr : q.hash = r.hash) : r = q := by
  have hhash : rowHash deps r = rowHash deps q := by
    rw [hashed_of_verified hv hr, ← hc.hashed hq, hqr]
  have hbody := hf.texts r (List.mem_append_right _ hr) q (List.mem_append_left _ hq) hhash
  exact rowBody_inj hbody hqr.symm

/-- **A stored row that verifies** has the same rows before it in both tables: the hash before it
determines the row before it, down to the first. -/
theorem stored_before (hc : ChainFrom deps 1 genesisPrevHash t)
    (hv : chainFault deps genesisPrevHash u = none) (hf : CollisionFree deps (t ++ u))
    {front back tfront tback : List StoredRow} {r : StoredRow}
    (hu : u = front ++ r :: back) (ht : t = tfront ++ r :: tback) : tfront = front := by
  induction front using List.reverseRecOn generalizing r back tfront tback with
  | nil =>
    have hprev : r.prevHash = genesisPrevHash := by
      rw [hu] at hv
      exact (chainFault_cons.mp hv).1
    rcases List.eq_nil_or_concat' tfront with rfl | ⟨tf, q, rfl⟩
    · rfl
    · exfalso
      have hq : q ∈ t := by simp [ht]
      have hlink : r.prevHash = q.hash := by
        have hcr := hc
        rw [ht] at hcr
        rw [(chainFrom_append.mp hcr).2.2.1, lastHash_concat]
      refine hf.genesis q (List.mem_append_left _ hq) ?_
      rw [← hc.hashed hq, ← hlink, hprev]
  | append_singleton front r' ih =>
    have hr' : r' ∈ u := by simp [hu]
    have hprev : r.prevHash = r'.hash := by
      have hvr := hv
      rw [hu] at hvr
      rw [(chainFault_cons.mp (chainFault_append.mp hvr).2).1, lastHash_concat]
    rcases List.eq_nil_or_concat' tfront with rfl | ⟨tf, q, rfl⟩
    · exfalso
      have hlink : r.prevHash = genesisPrevHash := by
        rw [ht] at hc
        exact hc.2.1
      refine hf.genesis r' (List.mem_append_right _ hr') ?_
      rw [hashed_of_verified hv hr', ← hprev, hlink]
    · have hq : q ∈ t := by simp [ht]
      have hlink : r.prevHash = q.hash := by
        have hcr := hc
        rw [ht] at hcr
        rw [(chainFrom_append.mp hcr).2.2.1, lastHash_concat]
      have heq : r' = q := eq_stored hc hv hf hq hr' (by rw [← hlink, hprev])
      subst heq
      have hrows : u = front ++ r' :: (r :: back) := by simp [hu]
      have htable : t = tf ++ r' :: (r :: tback) := by simp [ht]
      have htf : tf = front := ih hrows htable
      rw [htf]

/-- Rows that verify are a prefix of the stored ones, then rows with other hashes. -/
theorem verified_split (hc : ChainFrom deps 1 genesisPrevHash t)
    (hv : chainFault deps genesisPrevHash u = none) (hf : CollisionFree deps (t ++ u)) :
    ∃ kept fresh, u = kept ++ fresh ∧ kept <+: t ∧
      ∀ r ∈ fresh, r.hash ∉ t.map StoredRow.hash := by
  induction u using List.reverseRecOn with
  | nil => exact ⟨[], [], rfl, List.nil_prefix, by simp⟩
  | append_singleton u r ih =>
    by_cases hr : r.hash ∈ t.map StoredRow.hash
    · obtain ⟨q, hq, hqr⟩ := List.mem_map.mp hr
      obtain rfl := eq_stored hc hv hf hq (by simp) hqr
      obtain ⟨tfront, tback, ht⟩ := List.append_of_mem hq
      have hfront := stored_before hc hv hf rfl ht
      subst hfront
      exact ⟨_, [], (List.append_nil _).symm, ⟨tback, by simp [ht]⟩, by simp⟩
    · have hsub : t ++ u ⊆ t ++ (u ++ [r]) := by
        rw [← List.append_assoc]
        exact List.subset_append_left _ _
      obtain ⟨kept, fresh, rfl, hkept, hfresh⟩ := ih (chainFault_append.mp hv).1
        ⟨fun a ha b hb => hf.texts a (hsub ha) b (hsub hb), fun a ha => hf.genesis a (hsub ha)⟩
      refine ⟨kept, fresh ++ [r], List.append_assoc .., hkept, fun a ha => ?_⟩
      rcases List.mem_append.mp ha with ha | ha
      · exact hfresh a ha
      · rw [List.mem_singleton.mp ha]
        exact hr

/-- **The file is a chain** after any calls, whichever of their statements failed: numbered from
one, each row linked to the one before it and hashed, and accepted when verified. A further call
stores a row for each of its entries or leaves the table as it was. Any other table that verifies is
a prefix of the stored rows, then rows that carry hashes of their own. -/
theorem verifiable_chain (deps : Deps π) (calls : List (StoreCall π)) :
    let s := Runs.after (Store.step deps) {} calls
    ChainFrom deps 1 genesisPrevHash s.table ∧
    (verify deps s).1 = .ok true ∧
    (∀ call : StoreCall π, Settled deps call s) ∧
    ∀ table : List StoredRow, CollisionFree deps (s.table ++ table) →
      (verify deps { s with table := table }).1 = .ok true →
      ∃ kept fresh, inSeqOrder table = kept ++ fresh ∧ kept <+: s.table ∧
        ∀ r ∈ fresh, r.hash ∉ s.table.map StoredRow.hash := by
  intro s
  have hs : Chained deps s := chained_after deps calls
  refine ⟨hs.chain, by rw [verify_run hs.chain], fun call => (chained_step hs call).1, ?_⟩
  intro table hf hv
  have hfault : chainFault deps genesisPrevHash (inSeqOrder table) = none := by
    unfold verify at hv
    split at hv
    · assumption
    · cases hv
  have hperm : (inSeqOrder table).Perm table := List.mergeSort_perm table _
  refine verified_split hs.chain hfault ⟨fun r hr r' hr' => ?_, fun r hr => ?_⟩
  · exact hf.texts r ((hperm.append_left s.table).subset hr) r'
      ((hperm.append_left s.table).subset hr')
  · exact hf.genesis r ((hperm.append_left s.table).subset hr)

end Edits

/-! ### A table that was rewritten -/

/-- A hash function without collisions, and models that dump a text payload as it is. -/
def sampleDeps : Deps Text where
  sha256 := id
  modelJson _ payload := .ok payload

def sampleEntry (correlationId : Text) : Entry Text where
  tsUtc := .text "2026-01-01T00:00:00Z".toList
  source := .text "paper".toList
  correlationId := .text correlationId
  idempotencyKey := .text "k".toList
  type := .text "JournalNote".toList
  payload := some []

def sampleTable (correlationId : Text) : List StoredRow :=
  (Runs.after (Store.step sampleDeps) {} [.append (sampleEntry correlationId) {}]).table

/-- A row rewritten with its hash passes. -/
theorem rewritten_verifies :
    let s := Runs.after (Store.step sampleDeps) {} [.append (sampleEntry "a".toList) {}]
    (∀ t t' : Text, sampleDeps.sha256 t = sampleDeps.sha256 t' → t = t') ∧
    (sampleTable "b".toList).map StoredRow.seq = s.table.map StoredRow.seq ∧
    sampleTable "b".toList ≠ s.table ∧
    (verify sampleDeps { s with table := sampleTable "b".toList }).1 = .ok true := by
  refine ⟨fun t t' h => h, ?_⟩
  decide +kernel

/-- Two rows, the second of the given correlation. -/
def sampleCalls (correlationId : Text) : List (StoreCall Text) :=
  [.append (sampleEntry "a".toList) {},
    .append { sampleEntry correlationId with idempotencyKey := .text "l".toList } {}]

def sampleStore (correlationId : Text) : Store :=
  Runs.after (Store.step sampleDeps) {} (sampleCalls correlationId)

/-- A rewritten tail keeps the rows before it, and carries hashes the table does not hold. -/
theorem verifiable_chain_sample :
    (verify sampleDeps { sampleStore "b".toList with table := (sampleStore "c".toList).table }).1 =
        .ok true ∧
      ∃ kept fresh, inSeqOrder (sampleStore "c".toList).table = kept ++ fresh ∧
        kept <+: (sampleStore "b".toList).table ∧ fresh ≠ [] ∧
          ∀ r ∈ fresh, r.hash ∉ (sampleStore "b".toList).table.map StoredRow.hash := by
  have hchain : ChainFrom sampleDeps 1 genesisPrevHash (sampleStore "c".toList).table :=
    (chained_after sampleDeps (sampleCalls "c".toList)).chain
  have hverified : (verify sampleDeps
      { sampleStore "b".toList with table := (sampleStore "c".toList).table }).1 = .ok true :=
    congrArg Prod.fst (verify_run hchain)
  have hfree : CollisionFree sampleDeps
      ((sampleStore "b".toList).table ++ (sampleStore "c".toList).table) :=
    ⟨fun _ _ _ _ h => h, by decide +kernel⟩
  obtain ⟨kept, fresh, hsplit, hkept, hfresh⟩ :=
    (verifiable_chain sampleDeps (sampleCalls "b".toList)).2.2.2 _ hfree hverified
  refine ⟨hverified, kept, fresh, hsplit, hkept, ?_, hfresh⟩
  rintro rfl
  rw [List.append_nil, inSeqOrder_chain hchain] at hsplit
  have hother : ¬ (sampleStore "c".toList).table <+: (sampleStore "b".toList).table := by
    decide +kernel
  exact hother (hsplit ▸ hkept)

end HashChain

end PumpGrok
