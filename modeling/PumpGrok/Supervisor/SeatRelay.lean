import PumpGrok.Ledger.Growth
import PumpGrok.Lib.Runs

/-!
Escalation rows, and the order of the ledger's timestamps. The store stamps nothing itself and
compares nothing; an escalation alone looks at the head before it is appended.
-/

namespace PumpGrok

def kindRestartExhausted : EscalationKind := .other "bot_restart_exhausted".toList

def kindHeartbeatStale : EscalationKind := .other "heartbeat_stale".toList

def kindClockSkew : EscalationKind := .other "clock_skew".toList

/-- Clock skew budget, five seconds. -/
def clockSkew : ℤ := 5000000

/-- The clock trails the newest row by more than the budget. -/
def skewDetected (now headTs : ℤ) : Bool := now < headTs - clockSkew

/-- What an escalation raises: the skew it found, or an exception of the append. -/
inductive EscalationExc where
  | clockSkew
  | exc (x : Exc)
  deriving DecidableEq

/-- What meets the file: whether its newest stamp can be read, and whether each of the two rows can
be written. -/
structure RelayFaults where
  readable : Bool := true
  reportable : Bool := true
  writable : Bool := true
  deriving DecidableEq

/-- The readings of the clock: at the comparison, for the report, and for the row itself. -/
structure RelayClock where
  compared : ℤ
  reported : ℤ
  stamped : ℤ
  deriving DecidableEq

/-- The arguments of one escalation. -/
structure EscalationCall where
  kind : EscalationKind
  seat : Seat
  detail : Text
  source : EventSource
  deriving DecidableEq

namespace EscalationCall

def row (c : EscalationCall) (ts : ℤ) : Row where
  ts := ts
  source := c.source
  key := .seatEscalation c.kind c.seat ts
  payload := .escalation { kind := c.kind, seat := c.seat, detail := .other c.detail }

def skewDetail : Text := "clock trails ledger head; appends refused".toList

/-- The report of a skew, under the seat of the call. -/
def skewRow (c : EscalationCall) (ts : ℤ) : Row :=
  { c with kind := kindClockSkew, detail := skewDetail : EscalationCall }.row ts

end EscalationCall

namespace LedgerStore

/-- An append the file may refuse. -/
def offer (writable : Bool) (row : Row) : Prog LedgerStore Exc Event :=
  if writable then append row else Prog.raise .osError

/-- A batch the file may refuse. The empty one never meets it. -/
def offerBatch (writable : Bool) (rows : List Row) : Prog LedgerStore Exc (List Event) :=
  if writable ∨ rows = [] then appendBatch rows else Prog.raise .osError

/-- The precheck finds the head, and the clock behind it. -/
def trails (faults : RelayFaults) (clock : RelayClock) (st : LedgerStore) : Bool :=
  faults.readable && st.read.getLast?.any fun head => skewDetected clock.compared head.ts

/-- Append one escalation. Where the clock trails the head the skew is reported instead; a report
that cannot be stored is passed over, and the escalation appended after all. -/
def appendEscalation (faults : RelayFaults) (clock : RelayClock) (c : EscalationCall) :
    Prog LedgerStore EscalationExc Event := fun st =>
  let appended := Prog.catching (offer faults.writable (c.row clock.stamped)) fun x =>
    Prog.raise (.exc x)
  if st.trails faults clock then
    match offer faults.reportable (c.skewRow clock.reported) st with
    | (.ok _, st') => (.error .clockSkew, st')
    | (.error _, st') => appended st'
  else appended st

/-- Refuse when the clock trails the head. No appender calls it. -/
def assertNoSkew (now : ℤ) : Prog LedgerStore EscalationExc Unit := fun st =>
  match st.read.getLast? with
  | none => (.ok (), st)
  | some head => if skewDetected now head.ts then (.error .clockSkew, st) else (.ok (), st)

/-- The check alone: it raises where an escalation would find the skew, and stores nothing. -/
lemma assertNoSkew_run (clock : RelayClock) (st : LedgerStore) :
    assertNoSkew clock.compared st =
      (if st.trails {} clock then .error .clockSkew else .ok (), st) := by
  unfold assertNoSkew trails
  cases st.read.getLast? with
  | none => rfl
  | some head => cases h : skewDetected clock.compared head.ts <;> simp [h]

/-! ### What an escalation stores -/

variable {faults : RelayFaults} {clock : RelayClock} {c : EscalationCall} {st : LedgerStore}

/-- The store takes a row. -/
def Takes (st : LedgerStore) (writable : Bool) (row : Row) : Prop :=
  writable = true ∧ st.inconsistent = false ∧ st.Fresh [row]

instance (st : LedgerStore) (writable : Bool) (row : Row) : Decidable (st.Takes writable row) :=
  inferInstanceAs (Decidable (_ ∧ _ ∧ _))

lemma offer_run (writable : Bool) (row : Row) (st : LedgerStore) :
    (st.Takes writable row ∧
      offer writable row st = (.ok { row with seq := st.count + 1 }, st.commit [row])) ∨
    (¬ st.Takes writable row ∧ ∃ x, offer writable row st = (.error x, st)) := by
  unfold offer Takes
  cases writable with
  | false => exact .inr ⟨by simp, _, rfl⟩
  | true =>
    rw [if_pos rfl]
    rcases h : append row st with ⟨x | e, st'⟩
    · obtain ⟨rfl, hx⟩ := append_error_iff.mp h
      refine .inr ⟨?_, x, rfl⟩
      rintro ⟨-, hi, hf⟩
      rcases hx with ⟨hi', -⟩ | ⟨-, hf', -⟩
      · rw [hi] at hi'
        cases hi'
      · exact hf' hf
    · obtain ⟨hi, hf, rfl, rfl⟩ := append_ok_iff.mp h
      exact .inl ⟨⟨rfl, hi, hf⟩, rfl⟩

/-- The store takes a batch. -/
def TakesBatch (st : LedgerStore) (writable : Bool) (rows : List Row) : Prop :=
  rows ≠ [] ∧ writable = true ∧ st.inconsistent = false ∧ st.Fresh rows

instance (st : LedgerStore) (writable : Bool) (rows : List Row) :
    Decidable (st.TakesBatch writable rows) :=
  inferInstanceAs (Decidable (_ ∧ _ ∧ _ ∧ _))

/-- A batch is stored whole, or leaves the store alone, and then it is empty or raises. -/
lemma offerBatch_run (writable : Bool) (rows : List Row) (st : LedgerStore) :
    (st.TakesBatch writable rows ∧ (offerBatch writable rows st).2 = st.commit rows) ∨
    (¬ st.TakesBatch writable rows ∧ (offerBatch writable rows st).2 = st ∧
      (rows ≠ [] → ∃ x, (offerBatch writable rows st).1 = .error x)) := by
  unfold offerBatch TakesBatch
  by_cases hw : writable = true ∨ rows = []
  · rw [if_pos hw]
    rcases h : appendBatch rows st with ⟨x | es, st'⟩
    · obtain ⟨-, rfl, hx⟩ := appendBatch_error_iff.mp h
      refine .inr ⟨?_, rfl, fun _ => ⟨x, rfl⟩⟩
      rintro ⟨-, -, hi, hf⟩
      rcases hx with ⟨hi', -⟩ | ⟨-, hf', -⟩
      · rw [hi] at hi'
        cases hi'
      · exact hf' hf
    · rcases appendBatch_ok_iff.mp h with ⟨hn, -, rfl⟩ | ⟨hn, hi, hf, -, rfl⟩
      · exact .inr ⟨fun ht => ht.1 hn, rfl, fun hne => absurd hn hne⟩
      · exact .inl ⟨⟨hn, hw.resolve_right hn, hi, hf⟩, rfl⟩
  · rw [if_neg hw]
    exact .inr ⟨fun ht => hw (.inl ht.2.1), rfl, fun _ => ⟨_, rfl⟩⟩

/-- The row an escalation stores, if any. -/
def escalated (faults : RelayFaults) (clock : RelayClock) (c : EscalationCall) (st : LedgerStore) :
    Option Row :=
  if st.trails faults clock = true ∧ st.Takes faults.reportable (c.skewRow clock.reported) then
    some (c.skewRow clock.reported)
  else if st.Takes faults.writable (c.row clock.stamped) then some (c.row clock.stamped)
  else none

/-- The report stored in place of the escalation, or the append of its row. -/
lemma appendEscalation_eq (faults : RelayFaults) (clock : RelayClock) (c : EscalationCall)
    (st : LedgerStore) :
    appendEscalation faults clock c st =
      if st.trails faults clock = true ∧ st.Takes faults.reportable (c.skewRow clock.reported) then
        (.error .clockSkew, st.commit [c.skewRow clock.reported])
      else Prog.catching (offer faults.writable (c.row clock.stamped))
        (fun x => Prog.raise (.exc x)) st := by
  unfold appendEscalation
  dsimp only
  by_cases htrails : st.trails faults clock = true
  · rcases offer_run faults.reportable (c.skewRow clock.reported) st with ⟨ht, h⟩ | ⟨ht, x, h⟩
    · rw [if_pos htrails, h, if_pos ⟨htrails, ht⟩]
    · rw [if_pos htrails, h, if_neg fun hh => ht hh.2]
  · rw [if_neg htrails, if_neg fun hh => htrails hh.1]

/-- **An escalation** stores the report and raises, stores its row, or leaves the store alone. -/
lemma appendEscalation_run (faults : RelayFaults) (clock : RelayClock) (c : EscalationCall)
    (st : LedgerStore) :
    (appendEscalation faults clock c st).2 =
      match escalated faults clock c st with
      | some row => st.commit [row]
      | none => st := by
  rw [appendEscalation_eq]
  unfold escalated Prog.catching
  split_ifs with hskew ht
  · rfl
  · rcases offer_run faults.writable (c.row clock.stamped) st with ⟨-, h⟩ | ⟨hn, -⟩
    · rw [h]
    · exact absurd ht hn
  · rcases offer_run faults.writable (c.row clock.stamped) st with ⟨ht', -⟩ | ⟨-, x, h⟩
    · exact absurd ht' ht
    · rw [h]
      rfl

/-- An escalation that returns has stored its row. -/
lemma appendEscalation_raises (faults : RelayFaults) (clock : RelayClock) (c : EscalationCall)
    (st : LedgerStore) :
    (∃ x, (appendEscalation faults clock c st).1 = .error x) ∨
      escalated faults clock c st = some (c.row clock.stamped) := by
  rw [appendEscalation_eq]
  unfold escalated Prog.catching
  split_ifs with hskew ht
  · exact .inl ⟨_, rfl⟩
  · exact .inr rfl
  · rcases offer_run faults.writable (c.row clock.stamped) st with ⟨ht', -⟩ | ⟨-, x, h⟩
    · exact absurd ht' ht
    · exact .inl ⟨.exc x, by rw [h]; rfl⟩

end LedgerStore

/-! ### The order of the timestamps -/

/-- A writer appends a row or a batch, with whatever its clock reads, or an escalation; or the
ledger is verified. -/
inductive AppendAction where
  | append (writable : Bool) (row : Row)
  | appendBatch (writable : Bool) (rows : List Row)
  | appendEscalation (faults : RelayFaults) (clock : RelayClock) (c : EscalationCall)
  | verify (intact : Bool)

/-- What the writer hands to the store. -/
def AppendAction.rows : AppendAction → List Row
  | .append _ row => [row]
  | .appendBatch _ rows => rows
  | .appendEscalation _ clock c => [c.row clock.stamped]
  | .verify _ => []

namespace LedgerOrder

open LedgerStore

def step (st : LedgerStore) : AppendAction → LedgerStore
  | .append writable row => (offer writable row st).2
  | .appendBatch writable rows => (offerBatch writable rows st).2
  | .appendEscalation faults clock c => (LedgerStore.appendEscalation faults clock c st).2
  | .verify intact => (LedgerStore.verify { st with intact := intact }).2

/-- The call ends in an exception. -/
def Raises (st : LedgerStore) : AppendAction → Prop
  | .append writable row => ∃ x, (offer writable row st).1 = .error x
  | .appendBatch writable rows => ∃ x, (offerBatch writable rows st).1 = .error x
  | .appendEscalation faults clock c =>
    ∃ x, (LedgerStore.appendEscalation faults clock c st).1 = .error x
  | .verify intact => ∃ x, (LedgerStore.verify { st with intact := intact }).1 = .error x

/-- Timestamps do not decrease with the sequence number. -/
def InOrder (es : List Event) : Prop := es.IsChain fun e f => e.ts ≤ f.ts

instance (es : List Event) : Decidable (InOrder es) :=
  inferInstanceAs (Decidable (List.IsChain _ _))

/-- A reading that is not before the newest row of the store. -/
def OnTime (st : LedgerStore) (ts : ℤ) : Prop := ∀ head ∈ st.read.getLast?, head.ts ≤ ts

/-- Rows in order, the first of them on time. -/
def AtHead (st : LedgerStore) (rows : List Row) : Prop :=
  (rows.IsChain fun r q => r.ts ≤ q.ts) ∧ ∀ r ∈ rows.head?, OnTime st r.ts

/-- A step refuses what is out of order: late rows make the call raise, and none are stored. -/
structure Refuses (st : LedgerStore) (a : AppendAction) : Prop where
  raises : ¬ AtHead st a.rows → Raises st a
  stores : ∀ rows, (step st a).read = st.read ++ stamp (st.count + 1) rows → AtHead st rows

/-- Whatever the store would take is stamped on time: the row or the batch of a writer; of an
escalation the report, where the clock trails the head and the report can be stored, and
otherwise its row. -/
def Timely (st : LedgerStore) : AppendAction → Prop
  | .append writable row => st.Takes writable row → OnTime st row.ts
  | .appendBatch writable rows => st.TakesBatch writable rows → AtHead st rows
  | .appendEscalation faults clock c =>
    if st.trails faults clock = true ∧ st.Takes faults.reportable (c.skewRow clock.reported) then
      OnTime st clock.reported
    else st.Takes faults.writable (c.row clock.stamped) → OnTime st clock.stamped
  | .verify _ => True

lemma atHead_nil (st : LedgerStore) : AtHead st [] := ⟨List.isChain_nil, by simp⟩

lemma atHead_singleton {st : LedgerStore} {row : Row} : AtHead st [row] ↔ OnTime st row.ts := by
  simp [AtHead]

lemma inOrder_append {es fs : List Event} :
    InOrder (es ++ fs) ↔
      InOrder es ∧ InOrder fs ∧ ∀ e ∈ es.getLast?, ∀ f ∈ fs.head?, e.ts ≤ f.ts :=
  List.isChain_append

lemma inOrder_stamp (n : ℕ) (rows : List Row) :
    InOrder (LedgerStore.stamp n rows) ↔ rows.IsChain fun r q => r.ts ≤ q.ts := by
  conv_rhs => rw [← LedgerStore.stamp_toRow n rows]
  rw [List.isChain_map]
  rfl

lemma head_stamp (n : ℕ) (rows : List Row) (x : ℤ) :
    (∀ f ∈ (LedgerStore.stamp n rows).head?, x ≤ f.ts) ↔ ∀ r ∈ rows.head?, x ≤ r.ts := by
  cases rows <;> simp [LedgerStore.stamp]

/-- **Rows added** keep the order exactly when they are at the head. -/
lemma inOrder_stored {st : LedgerStore} {rows : List Row} (h : InOrder st.read) :
    InOrder (st.read ++ LedgerStore.stamp (st.count + 1) rows) ↔ AtHead st rows := by
  rw [inOrder_append, inOrder_stamp]
  simp only [head_stamp, h, true_and]
  unfold AtHead OnTime
  rw [and_congr_right_iff]
  exact fun _ => ⟨fun hh r hr e he => hh e he r hr, fun hh e he r hr => hh r hr e he⟩

/-- What a step stores. -/
def stored (st : LedgerStore) : AppendAction → List Row
  | .append writable row => if st.Takes writable row then [row] else []
  | .appendBatch writable rows => if st.TakesBatch writable rows then rows else []
  | .appendEscalation faults clock c => (escalated faults clock c st).toList
  | .verify _ => []

lemma step_read (st : LedgerStore) (a : AppendAction) :
    (step st a).read = st.read ++ stamp (st.count + 1) (stored st a) := by
  cases a with
  | append writable row =>
    unfold step stored
    rcases offer_run writable row st with ⟨ht, h⟩ | ⟨ht, x, h⟩
    · simp [h, ht]
    · simp [h, ht, stamp]
  | appendBatch writable rows =>
    unfold step stored
    rcases offerBatch_run writable rows st with ⟨ht, h⟩ | ⟨ht, h, -⟩
    · simp [h, ht]
    · simp [h, ht, stamp]
  | appendEscalation faults clock c =>
    unfold step stored
    dsimp only
    rw [appendEscalation_run]
    cases escalated faults clock c st <;> simp [stamp]
  | verify intact =>
    unfold step stored LedgerStore.verify
    cases intact <;> simp [stamp, LedgerStore.read]

/-- The condition of a step says of what it stores that it is at the head. -/
lemma timely_iff (st : LedgerStore) (a : AppendAction) :
    Timely st a ↔ AtHead st (stored st a) := by
  cases a with
  | append writable row =>
    unfold Timely stored
    dsimp only
    split_ifs with ht
    · simp [ht, atHead_singleton]
    · simp [ht, atHead_nil]
  | appendBatch writable rows =>
    unfold Timely stored
    dsimp only
    split_ifs with ht
    · simp [ht]
    · simp [ht, atHead_nil]
  | appendEscalation faults clock c =>
    unfold Timely stored escalated
    dsimp only
    split_ifs with hskew ht
    · rw [Option.toList_some, atHead_singleton]
      rfl
    · rw [Option.toList_some, atHead_singleton]
      exact ⟨fun h => h ht, fun h _ => h⟩
    · simp [ht, atHead_nil]
  | verify intact => simp [Timely, stored, atHead_nil]

/-- A call that returns has stored what it was handed. -/
lemma raises_or_stored (st : LedgerStore) (a : AppendAction) :
    Raises st a ∨ a.rows = [] ∨ stored st a = a.rows := by
  cases a with
  | append writable row =>
    unfold Raises stored AppendAction.rows
    rcases offer_run writable row st with ⟨ht, -⟩ | ⟨-, x, h⟩
    · exact .inr (.inr (if_pos ht))
    · exact .inl ⟨x, by rw [h]⟩
  | appendBatch writable rows =>
    unfold Raises stored AppendAction.rows
    rcases offerBatch_run writable rows st with ⟨ht, -⟩ | ⟨-, -, hx⟩
    · exact .inr (.inr (if_pos ht))
    · by_cases hn : rows = []
      · exact .inr (.inl hn)
      · exact .inl (hx hn)
  | appendEscalation faults clock c =>
    rcases appendEscalation_raises faults clock c st with hx | h
    · exact .inl hx
    · exact .inr (.inr (by rw [stored, h]; rfl))
  | verify intact => exact .inr (.inl rfl)

lemma inOrder_step {st : LedgerStore} (h : InOrder st.read) (a : AppendAction) :
    InOrder (step st a).read ↔ Timely st a := by
  rw [step_read, inOrder_stored h, timely_iff]

/-- A step that stores nothing out of order refuses what is. -/
lemma refuses_iff (st : LedgerStore) (a : AppendAction) : Refuses st a ↔ Timely st a := by
  rw [timely_iff]
  constructor
  · exact fun h => h.stores _ (step_read st a)
  · intro h
    refine ⟨fun hlate => ?_, fun rows hrows => ?_⟩
    · rcases raises_or_stored st a with hx | hn | hs
      · exact hx
      · rw [hn] at hlate
        exact absurd (atHead_nil st) hlate
      · rw [hs] at h
        exact absurd h hlate
    · rw [step_read] at hrows
      have hstamp := congrArg (List.map Event.toRow) (List.append_cancel_left hrows)
      rw [stamp_toRow, stamp_toRow] at hstamp
      rwa [← hstamp]

/-- Found and reported by one reading, a skew that the check alone would refuse is stored behind
the head. -/
lemma report_behind_head {clock : RelayClock} {c : EscalationCall} {st : LedgerStore}
    (hcheck : (assertNoSkew clock.compared st).1 = .error .clockSkew)
    (hc : clock.reported = clock.compared) (ht : st.Takes true (c.skewRow clock.reported)) :
    ¬ Timely st (.appendEscalation {} clock c) := by
  have htrails : st.trails {} clock = true := by
    rw [assertNoSkew_run] at hcheck
    by_contra hn
    rw [if_neg hn] at hcheck
    cases hcheck
  unfold Timely
  dsimp only
  rw [if_pos ⟨htrails, ht⟩]
  intro hle
  unfold LedgerStore.trails at htrails
  cases hlast : st.read.getLast? with
  | none =>
    rw [hlast] at htrails
    cases htrails
  | some head =>
    rw [hlast] at htrails
    have hskew : clock.compared < head.ts - clockSkew := of_decide_eq_true htrails
    have hle' : head.ts ≤ clock.reported := hle head hlast
    unfold clockSkew at hskew
    omega

/-- **The order of the ledger.** Whatever is appended by whomever, with any readings: the
timestamps are in order in every state of the run, and every step refuses what is out of order,
exactly when whatever the store would take is stamped on time. The store compares no two stamps. -/
theorem ledger_order_iff (as : List AppendAction) :
    ((∀ bs, bs <+: as → InOrder (Runs.after step {} bs).read) ∧
        Runs.Along step Refuses {} as) ↔
      Runs.Along step Timely {} as := by
  have horder := Runs.always_iff_along (J := fun _ : LedgerStore => True)
    (P := fun st : LedgerStore => InOrder st.read) (C := Timely) (fun _ _ _ => trivial)
    (fun st a _ h => inOrder_step h a) (s := {}) trivial List.isChain_nil as
  have hrefuses : Runs.Along step Refuses {} as ↔ Runs.Along step Timely {} as :=
    Runs.along_iff_along (J := fun _ => True) (fun st a _ => refuses_iff st a)
      (fun _ _ _ _ => trivial) trivial as
  rw [horder, hrefuses]
  exact and_self_iff

/-- A note appended at a hundred seconds. -/
def sampleNote : AppendAction :=
  .append true
    { ts := 100000000
      source := .paper
      key := .other 0
      payload := .journalNote { seat := .risk, isVerdict := false, text := [] } }

def sampleStale : EscalationCall where
  kind := kindHeartbeatStale
  seat := .exit
  detail := []
  source := .paper

/-- A clock that reads ten seconds. -/
def tenSeconds : RelayClock := { compared := 10000000, reported := 10000000, stamped := 10000000 }

/-- The report of a skew goes back in time: the one append that looks at the head stores what the
check would have refused. -/
theorem report_out_of_order :
    ¬ ∀ as : List AppendAction, InOrder (Runs.after step {} as).read := by
  intro h
  have hlate : ¬ Timely (step {} sampleNote) (.appendEscalation {} tenSeconds sampleStale) :=
    report_behind_head (by decide +kernel) rfl (by decide +kernel)
  have hnote : InOrder (step {} sampleNote).read := h [sampleNote]
  have hreport := h [sampleNote, .appendEscalation {} tenSeconds sampleStale]
  exact hlate ((inOrder_step hnote _).mp hreport)

end LedgerOrder

end PumpGrok
