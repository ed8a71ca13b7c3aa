import PumpGrok.Supervisor.SeatLatch

/-!
The latch that a new process rebuilds, against the one the old process held.
-/

namespace PumpGrok

open LedgerStore

/-! ### Reading a ledger that has grown -/

section Reading

variable {es fs : List Event} {seat : Seat}

lemma newestExhaustion_append (es fs : List Event) (seat : Seat) :
    newestExhaustion (es ++ fs) seat =
      (newestExhaustion fs seat).or (newestExhaustion es seat) := by
  have hfrom : ∀ (fs : List Event) (b : Option Event),
      fs.foldl (fun newest e => if e.payload.exhausted = some seat then some e else newest) b =
        (newestExhaustion fs seat).or b := by
    intro fs
    induction fs using List.reverseRecOn with
    | nil => exact fun b => rfl
    | append_singleton fs e ih =>
      intro b
      unfold newestExhaustion at ih ⊢
      rw [List.foldl_append, List.foldl_append, ih b]
      simp only [List.foldl_cons, List.foldl_nil]
      split_ifs <;> rfl
  unfold newestExhaustion
  rw [List.foldl_append, hfrom]
  rfl

lemma newestExhaustion_eq_none (h : ∀ e ∈ es, e.payload.exhausted ≠ some seat) :
    newestExhaustion es seat = none := by
  induction es using List.reverseRecOn with
  | nil => rfl
  | append_singleton es e ih =>
    rw [newestExhaustion_append, ih fun x hx => h x (by simp [hx])]
    simp [newestExhaustion, h e (by simp)]

lemma newestExhaustion_mem {e : Event} (h : newestExhaustion es seat = some e) : e ∈ es := by
  induction es using List.reverseRecOn with
  | nil => cases h
  | append_singleton es x ih =>
    rw [newestExhaustion_append] at h
    by_cases hx : x.payload.exhausted = some seat
    · simp only [newestExhaustion, List.foldl_cons, List.foldl_nil, if_pos hx, Option.some_or,
        Option.some.injEq] at h
      simp [h]
    · have hnone : newestExhaustion [x] seat = none := by
        simp [newestExhaustion, hx]
      rw [hnone, Option.none_or] at h
      exact List.mem_append_left _ (ih h)

lemma resumeAfter_append (floor : Option ℕ) :
    resumeAfter (es ++ fs) seat floor =
      (resumeAfter es seat floor || resumeAfter fs seat floor) := by
  cases floor <;> simp [resumeAfter]

lemma seq_of_numbered (h : Numbered es) {e : Event} (he : e ∈ es) : e.seq ≤ es.length := by
  have hmem : e.seq ∈ es.map (·.seq) := List.mem_map_of_mem he
  rw [h, List.mem_range'_1] at hmem
  omega

lemma seq_of_new (h : Numbered (es ++ fs)) {e : Event} (he : e ∈ fs) : es.length < e.seq := by
  have hmem : e.seq ∈ fs.map (·.seq) := List.mem_map_of_mem he
  rw [(numbered_append.mp h).2, List.mem_range'_1] at hmem
  omega

/-- A resume note for a seat is among the rows. -/
def Noted (es : List Event) (seat : Seat) : Bool := es.any fun e => e.payload.resumes seat

lemma resumeAfter_grown (h : Numbered (es ++ fs)) {floor : ℕ} (hf : floor ≤ es.length) :
    resumeAfter (es ++ fs) seat (some floor) =
      (resumeAfter es seat (some floor) || Noted fs seat) := by
  have hnew : resumeAfter fs seat (some floor) = Noted fs seat := by
    unfold resumeAfter Noted
    rw [Bool.eq_iff_iff, List.any_eq_true, List.any_eq_true]
    refine exists_congr fun e => and_congr_right fun he => ?_
    have hlt : floor < e.seq := hf.trans_lt (seq_of_new h he)
    simp [hlt]
  rw [resumeAfter_append, hnew]

lemma resumeAfter_head (h : Numbered es) : resumeAfter es seat (some es.length) = false := by
  simp only [resumeAfter, List.any_eq_false, Bool.and_eq_true, decide_eq_true_eq, not_and]
  intro e he hlt
  have hle := seq_of_numbered h he
  omega

/-- Nothing but a resume note changes the latch a ledger restores. -/
lemma rebuild_grown (h : Numbered (es ++ fs)) (hfs : ∀ e ∈ fs, e.payload.exhausted ≠ some seat) :
    (rebuildExhaustionLatch (es ++ fs) seat).isSome =
      ((rebuildExhaustionLatch es seat).isSome && !Noted fs seat) := by
  unfold rebuildExhaustionLatch
  rw [newestExhaustion_append, newestExhaustion_eq_none hfs, Option.none_or]
  rcases hnew : newestExhaustion es seat with - | newest
  · rfl
  · have hle := seq_of_numbered (numbered_append.mp h).1 (newestExhaustion_mem hnew)
    simp only [resumeAfter_grown h hle]
    cases resumeAfter es seat (some newest.seq) <;> cases Noted fs seat <;> rfl

/-- The row that reports the budget spent latches its seat, and no other. -/
lemma rebuild_exhausted {e : Event} (h : Numbered (es ++ [e]))
    (he : e.payload.exhausted = some seat) :
    (rebuildExhaustionLatch (es ++ [e]) seat).isSome = true := by
  have hseq : e.seq = (es ++ [e]).length := by
    have hs := (numbered_append.mp h).2
    simpa using hs
  have hnewest : newestExhaustion (es ++ [e]) seat = some e := by
    rw [newestExhaustion_append]
    simp [newestExhaustion, he]
  unfold rebuildExhaustionLatch
  rw [hnewest]
  simp only [hseq, resumeAfter_head h]
  rfl

end Reading

/-! ### What the operations append -/

section Growing

variable {st st' : LedgerStore} {Q : Payload → Prop}

/-- A store that grows by rows with payloads of one kind has new rows of that kind. -/
lemma LedgerStore.Grows.new_rows (h : Grows (fun _ rows => ∀ row ∈ rows, Q row.payload) st st') :
    ∃ new, st'.read = st.read ++ new ∧ ∀ e ∈ new, Q e.payload := by
  induction h with
  | refl => exact ⟨[], by simp, by simp⟩
  | marked b _ ih => exact ih
  | @commit st₁ rows _ _ hrows ih =>
    obtain ⟨new, hnew, hq⟩ := ih
    refine ⟨new ++ stamp (st₁.count + 1) rows, by rw [read_commit, hnew, List.append_assoc], ?_⟩
    intro e he
    rcases List.mem_append.mp he with he | he
    · exact hq e he
    · have hmem : e.toRow ∈ (stamp (st₁.count + 1) rows).map Event.toRow := List.mem_map_of_mem he
      rw [stamp_toRow] at hmem
      exact hrows _ hmem

lemma grows_transact (st : LedgerStore) (rows : OtherRows) :
    Grows (fun _ rows => ∀ row ∈ rows, row.payload.exhausted = none) st (st.transact rows) :=
  grows_appendBatch fun _ => rows.2

lemma grows_transacts (st : LedgerStore) (ts : List OtherRows) :
    Grows (fun _ rows => ∀ row ∈ rows, row.payload.exhausted = none) st
      (ts.foldl LedgerStore.transact st) := by
  induction ts generalizing st with
  | nil => exact .refl
  | cons rows ts ih => exact (grows_transact st rows).trans (ih _)

lemma grows_offer {A : LedgerStore → List Row → Prop} (writable : Bool) {row : Row}
    (h : A st [row]) : Grows A st (offer writable row st).2 := by
  rcases offer_run writable row st with ⟨⟨-, -, hf⟩, hrun⟩ | ⟨-, x, hrun⟩
  · rw [hrun]
    exact Grows.refl.commit hf h
  · rw [hrun]
    exact .refl

lemma plain_exitHaltRow (equity ts : ℤ) (source : EventSource) :
    (exitHaltRow equity ts source).payload.Plain := ⟨rfl, fun _ => rfl⟩

lemma grows_appendExitHalt (source : EventSource) (ts : ℤ) (writable : Bool) (st : LedgerStore) :
    Grows (fun _ rows => ∀ row ∈ rows, row.payload.Plain) st
      (SeatDesk.appendExitHalt source ts writable st).2 := by
  unfold SeatDesk.appendExitHalt
  rcases st.initialEquity with - | equity
  · exact .refl
  · exact grows_offer writable (by simpa using plain_exitHaltRow equity ts source)

/-- An escalation of another kind, and the report of a skew, are plain rows. -/
lemma plain_escalation {c : EscalationCall} (h : c.kind ≠ kindRestartExhausted) (ts : ℤ) :
    (c.row ts).payload.Plain := by
  refine ⟨?_, fun _ => rfl⟩
  simp [EscalationCall.row, Payload.exhausted, h]

lemma plain_skewRow (c : EscalationCall) (ts : ℤ) : (c.skewRow ts).payload.Plain :=
  have hk : kindClockSkew ≠ kindRestartExhausted := by decide
  plain_escalation
    (c := { c with kind := kindClockSkew, detail := EscalationCall.skewDetail }) hk ts

lemma escalated_cases (faults : RelayFaults) (clock : RelayClock) (c : EscalationCall)
    (st : LedgerStore) :
    (appendEscalation faults clock c st).2 = st ∨
    (st.Fresh [c.skewRow clock.reported] ∧
      (appendEscalation faults clock c st).2 = st.commit [c.skewRow clock.reported]) ∨
    (st.Fresh [c.row clock.stamped] ∧
      (appendEscalation faults clock c st).2 = st.commit [c.row clock.stamped]) := by
  rw [appendEscalation_run]
  unfold escalated
  split_ifs with h₁ h₂
  · exact .inr (.inl ⟨h₁.2.2.2, rfl⟩)
  · exact .inr (.inr ⟨h₂.2.2, rfl⟩)
  · exact .inl rfl

lemma grows_appendEscalation {c : EscalationCall} (h : c.kind ≠ kindRestartExhausted)
    (faults : RelayFaults) (clock : RelayClock) (st : LedgerStore) :
    Grows (fun _ rows => ∀ row ∈ rows, row.payload.Plain) st
      (appendEscalation faults clock c st).2 := by
  rcases escalated_cases faults clock c st with hr | ⟨hf, hr⟩ | ⟨hf, hr⟩
  · rw [hr]
    exact .refl
  · rw [hr]
    exact Grows.refl.commit hf (by simpa using plain_skewRow c clock.reported)
  · rw [hr]
    exact Grows.refl.commit hf (by simpa using plain_escalation h clock.stamped)

end Growing

namespace SeatDesk

variable (source : EventSource)

/-! ### The two latches -/

/-- A new process would latch the seat. -/
def rebuilt (s : SeatDesk) (seat : Seat) : Bool :=
  (rebuildExhaustionLatch s.store.read seat).isSome

/-- The process holds the seat's latch, and no resume note has been appended since. -/
def held (s : SeatDesk) (seat : Seat) : Bool :=
  (s.latched seat).any fun l => !resumeAfter s.store.read seat l.after

/-- What a new process rebuilds is what this one holds, for every seat it has constructed. A resume
note counts from its row on; the process reads it at the end of its tick. -/
def Agrees (s : SeatDesk) : Prop :=
  ∀ seat, (s.tasks seat).isSome → s.rebuilt seat = s.held seat

/-- The seat was latched while even the head of the ledger was unknown. -/
def Pinned (s : SeatDesk) (seat : Seat) : Prop :=
  ∃ l ∈ s.latched seat, l.after = none

/-- No pinned seat finds a resume note in what a ledger has grown by. -/
def Unheard (s : SeatDesk) (st : LedgerStore) : Prop :=
  ∀ seat, s.Pinned seat → resumeAfter st.read seat (some s.store.count) = false

/-- The crash spends the seat's budget, and the process latches it. -/
def Exhausts (s : SeatDesk) (seat : Seat) (c : SeatCrash) : Prop :=
  ∃ policy ∈ s.tasks seat, (policy.recordCrash c.now).1 = false ∧ s.latched seat = none ∧
    c.countable = true

/-- The ledger that the escalation of a spent budget finds. -/
def beforeEscalation (s : SeatDesk) (seat : Seat) (c : SeatCrash) : LedgerStore :=
  if seat = .exit then (appendExitHalt source c.haltTs c.haltWritable (s.metMeanwhile c)).2
  else s.metMeanwhile c

/-- The escalation of a spent budget is attempted, is not refused for its clock, and the ledger
takes it. -/
def Recorded (s : SeatDesk) (seat : Seat) (c : SeatCrash) : Prop :=
  let st := s.beforeEscalation source seat c
  (seat = .exit → st.initialEquity.isSome) ∧
    ¬ (st.trails c.faults c.clock = true ∧
      st.Takes c.faults.reportable ((exhaustedCall source seat).skewRow c.clock.reported)) ∧
    st.Takes c.faults.writable ((exhaustedCall source seat).row c.clock.stamped)

/-- A ledger that cannot be read latches its seat. A spent budget is recorded, unless a resume note
came in between. And no resume note is for a pinned seat. -/
def Kept (s : SeatDesk) : SeatAction → Prop
  | .construct seat f => s.tasks seat = none → f.readable = false → s.rebuilt seat = true
  | .crash seat c => s.Exhausts seat c → s.Unheard (s.metMeanwhile c) ∧
      (s.Recorded source seat c ↔
        resumeAfter (s.metMeanwhile c).read seat (some s.store.count) = false)
  | .transact rows => s.Unheard (s.store.transact rows)
  | _ => True

/-- Rows are numbered, and a latch belongs to a constructed seat and a head that was. -/
structure Coherent (s : SeatDesk) : Prop where
  numbered : Numbered s.store.read
  known : ∀ seat l, s.latched seat = some l →
    (s.tasks seat).isSome ∧ ∀ floor ∈ l.after, floor ≤ s.store.count

variable {source} {s s' : SeatDesk} {seat : Seat} {new : List Event}

/-- **What growth does to one seat.** -/
lemma agrees_grown (hs : s.Coherent) (hread : s'.store.read = s.store.read ++ new)
    (hn : Numbered s'.store.read) (hnew : ∀ e ∈ new, e.payload.exhausted ≠ some seat)
    (hl : s'.latched seat = s.latched seat) (h : s.rebuilt seat = s.held seat) :
    s'.rebuilt seat = s'.held seat ↔
      (s.Pinned seat → resumeAfter s'.store.read seat (some s.store.count) = false) := by
  rw [hread] at hn
  have hhead : resumeAfter s'.store.read seat (some s.store.count) = Noted new seat := by
    rw [hread, count, resumeAfter_grown hn le_rfl, resumeAfter_head hs.numbered, Bool.false_or]
  have hrebuilt : s'.rebuilt seat = (s.rebuilt seat && !Noted new seat) := by
    rw [rebuilt, hread, rebuild_grown hn hnew]
    rfl
  rw [hhead, hrebuilt]
  unfold held at h ⊢
  unfold Pinned
  rw [hl]
  rcases hlatch : s.latched seat with - | ⟨reason, - | floor⟩
  · rw [hlatch] at h
    simp [h]
  · rw [hlatch] at h
    simp [h, resumeAfter]
  · have hfloor : floor ≤ s.store.read.length := (hs.known seat _ hlatch).2 floor rfl
    rw [hlatch] at h
    simp [h, hread, resumeAfter_grown hn hfloor]

/-- A seat without a task is not latched. -/
lemma Coherent.unlatched (hs : s.Coherent) (h : s.tasks seat = none) : s.latched seat = none := by
  rcases hl : s.latched seat with - | l
  · rfl
  · have htask := (hs.known seat l hl).1
    rw [h] at htask
    cases htask

lemma Coherent.grown (hs : s.Coherent) {A : LedgerStore → List Row → Prop}
    (hg : Grows A s.store s'.store) (hl : s'.latched = s.latched) (ht : s'.tasks = s.tasks) :
    s'.Coherent := by
  refine ⟨hg.numbered hs.numbered, fun seat l h => ?_⟩
  rw [hl] at h
  obtain ⟨htask, hfloor⟩ := hs.known seat l h
  exact ⟨ht ▸ htask, fun floor hf => (hfloor floor hf).trans hg.count_le⟩

/-- Plain rows change nothing for a seat whose latch stays. -/
lemma agrees_plain (hs : s.Coherent)
    (hg : Grows (fun _ rows => ∀ row ∈ rows, row.payload.Plain) s.store s'.store)
    (hl : s'.latched seat = s.latched seat) (h : s.rebuilt seat = s.held seat) :
    s'.rebuilt seat = s'.held seat := by
  obtain ⟨new, hread, hplain⟩ := hg.new_rows
  have hn := hg.numbered hs.numbered
  refine (agrees_grown hs hread hn (fun e he => ?_) hl h).mpr fun _ => ?_
  · rw [(hplain e he).1]
    exact Option.some_ne_none seat |>.symm
  · rw [hread] at hn ⊢
    rw [count, resumeAfter_grown hn le_rfl, resumeAfter_head hs.numbered, Bool.false_or]
    exact List.any_eq_false.mpr fun e he => by simp [(hplain e he).2 seat]

/-! ### The constructor -/

lemma latch_of_latched {l l' : Latch} (h : s.latched seat = some l') : s.latch seat l = s := by
  unfold latch
  rw [h, Option.getD_some, ← h, Function.update_eq_self]

lemma restore_spec (source : EventSource) (s : SeatDesk) (seat : Seat) (f : SeatStart) :
    Grows (fun _ rows => ∀ row ∈ rows, row.payload.Plain) s.store
        (s.restoreLatchedExitHalt source seat f).store ∧
      (s.restoreLatchedExitHalt source seat f).latched = s.latched ∧
      (s.restoreLatchedExitHalt source seat f).tasks = s.tasks := by
  unfold restoreLatchedExitHalt
  split_ifs with h
  · obtain ⟨l, hl⟩ := Option.isSome_iff_exists.mp h.2
    have hhalt := grows_appendExitHalt source f.haltTs f.haltWritable s.store
    rcases hrun : appendExitHalt source f.haltTs f.haltWritable s.store with ⟨x | u, st⟩
    · rw [hrun] at hhalt
      have hnoop : latchUnreadableLedger { s with store := st } seat f.countable =
          { s with store := st } := latch_of_latched hl
      simp only [hnoop, and_true]
      have hk : (readFailedCall source seat).kind ≠ kindRestartExhausted := by
        show kindLedgerReadFailed ≠ kindRestartExhausted
        decide
      exact hhalt.trans (grows_appendEscalation hk f.faults f.clock st)
    · rw [hrun] at hhalt
      exact ⟨hhalt, rfl, rfl⟩
  · exact ⟨.refl, rfl, rfl⟩

/-- The latch a constructor sets. -/
def startLatch (s : SeatDesk) (seat : Seat) (f : SeatStart) : Option Latch :=
  if f.readable then rebuildExhaustionLatch s.store.read seat
  else some ⟨.ledgerReadFailed, if f.countable then some s.store.count else none⟩

lemma rebuildLatch_eq (s : SeatDesk) (seat : Seat) (f : SeatStart) (h : s.latched seat = none) :
    s.rebuildLatch seat f =
      { s with latched := Function.update s.latched seat (s.startLatch seat f) } := by
  unfold rebuildLatch startLatch
  rcases f.readable with - | -
  · simp [latchUnreadableLedger, latch, h]
  · rcases rebuildExhaustionLatch s.store.read seat with - | l
    · simp [← h]
    · simp [latch, h]

lemma construct_spec (source : EventSource) (s : SeatDesk) (seat : Seat) (f : SeatStart)
    (h : s.latched seat = none) :
    Grows (fun _ rows => ∀ row ∈ rows, row.payload.Plain) s.store
        (s.construct source seat f).store ∧
      (s.construct source seat f).latched =
        Function.update s.latched seat (s.startLatch seat f) ∧
      (s.construct source seat f).tasks =
        Function.update s.tasks seat (some { window := restartWindow }) := by
  have hrebuild := rebuildLatch_eq
    { s with tasks := Function.update s.tasks seat (some { window := restartWindow }) } seat f h
  unfold construct
  dsimp only
  rw [hrebuild]
  exact restore_spec source
    { s with
      tasks := Function.update s.tasks seat (some { window := restartWindow })
      latched := Function.update s.latched seat (s.startLatch seat f) } seat f

lemma startLatch_floor (hs : s.Coherent) {f : SeatStart} {l : Latch}
    (h : s.startLatch seat f = some l) : ∀ floor ∈ l.after, floor ≤ s.store.count := by
  obtain ⟨readable, countable, _, _, _, _⟩ := f
  unfold startLatch rebuildExhaustionLatch at h
  intro floor hf
  rcases readable with - | -
  · obtain rfl := Option.some.inj h
    rcases countable with - | -
    · cases hf
    · obtain rfl := Option.some.inj hf
      exact le_rfl
  · rcases hnew : newestExhaustion s.store.read seat with - | newest
    · simp [hnew] at h
    · simp only [hnew, if_true] at h
      split_ifs at h
      obtain rfl := Option.some.inj h
      obtain rfl := Option.some.inj hf
      exact seq_of_numbered hs.numbered (newestExhaustion_mem hnew)

/-- A constructor that can read the ledger holds what it rebuilds, and one that cannot holds
the seat. -/
lemma held_start (hs : s.Coherent) (f : SeatStart) :
    ((s.startLatch seat f).any fun l => !resumeAfter s.store.read seat l.after) =
      (s.rebuilt seat || !f.readable) := by
  unfold startLatch rebuilt rebuildExhaustionLatch
  rcases f.readable with - | -
  · have hhead : resumeAfter s.store.read seat (some s.store.read.length) = false :=
      resumeAfter_head hs.numbered
    rcases f.countable with - | -
    · simp [resumeAfter]
    · simp [count, hhead]
  · rcases newestExhaustion s.store.read seat with - | newest
    · rfl
    · by_cases hres : resumeAfter s.store.read seat (some newest.seq) = true
      · simp [hres]
      · simp [hres]

lemma agrees_construct (hs : s.Coherent) (h : s.Agrees) (f : SeatStart) (ht : s.tasks seat = none) :
    (s.construct source seat f).Agrees ↔ (f.readable = false → s.rebuilt seat = true) := by
  obtain ⟨hg, hl, htasks⟩ := construct_spec source s seat f (hs.unlatched ht)
  -- the seat's own latch is the one a new process holds at the same ledger
  have hself : (s.construct source seat f).rebuilt seat = (s.construct source seat f).held seat ↔
      (f.readable = false → s.rebuilt seat = true) := by
    obtain ⟨new, hread, hplain⟩ := hg.new_rows
    have hn := hg.numbered hs.numbered
    have hnoted : Noted new seat = false :=
      List.any_eq_false.mpr fun e he => by simp [(hplain e he).2 seat]
    rw [hread] at hn
    have hrebuilt : (s.construct source seat f).rebuilt seat = s.rebuilt seat := by
      rw [rebuilt, hread, rebuild_grown hn fun e he => by simp [(hplain e he).1], hnoted]
      simp [rebuilt]
    have hheld : (s.construct source seat f).held seat = (s.rebuilt seat || !f.readable) := by
      rw [← held_start hs f, held, hl, Function.update_self]
      rcases hstart : s.startLatch seat f with - | ⟨reason, - | floor⟩
      · rfl
      · rfl
      · have hfloor := startLatch_floor hs hstart floor rfl
        simp [hread, resumeAfter_grown hn hfloor, hnoted]
    rw [hrebuilt, hheld]
    cases s.rebuilt seat <;> cases f.readable <;> simp
  constructor
  · intro hall
    exact hself.mp (hall seat (by simp [htasks]))
  · intro hcond other hother
    by_cases heq : other = seat
    · subst heq
      exact hself.mpr hcond
    · rw [htasks, Function.update_of_ne heq] at hother
      exact agrees_plain hs hg (by rw [hl, Function.update_of_ne heq]) (h other hother)

/-! ### A crash -/

variable (source) in
lemma onCrash_within {policy : RestartPolicy ℤ} {c : SeatCrash} (ht : s.tasks seat = some policy)
    (h : ¬ s.Exhausts seat c) :
    (s.onCrash source seat policy c).store = s.store ∧
      (s.onCrash source seat policy c).latched = s.latched ∧
      (s.onCrash source seat policy c).tasks =
        Function.update s.tasks seat (some (policy.recordCrash c.now).2) := by
  unfold onCrash
  rcases hrec : policy.recordCrash c.now with ⟨- | -, policy'⟩
  · rcases hl : s.latched seat with - | l
    · rcases hcount : c.countable with - | -
      · simp [hl]
      · exact absurd ⟨policy, ht, by rw [hrec], hl, hcount⟩ h
    · simp [hl]
  · simp

/-- The ledger after the crash that spends the budget. -/
def afterEscalation (source : EventSource) (s : SeatDesk) (seat : Seat) (c : SeatCrash) :
    LedgerStore :=
  if seat = .exit ∧ (s.metMeanwhile c).initialEquity = none then s.metMeanwhile c
  else (appendEscalation c.faults c.clock (exhaustedCall source seat)
    (s.beforeEscalation source seat c)).2

variable (source) in
lemma onCrash_exhausts {policy : RestartPolicy ℤ} {c : SeatCrash} (ht : s.tasks seat = some policy)
    (h : s.Exhausts seat c) :
    (s.onCrash source seat policy c).store = s.afterEscalation source seat c ∧
      (s.onCrash source seat policy c).latched = Function.update s.latched seat
        (some ⟨.restartExhausted, some s.store.count⟩) ∧
      (s.onCrash source seat policy c).tasks =
        Function.update s.tasks seat (some (policy.recordCrash c.now).2) := by
  obtain ⟨policy₁, ht₁, hrec, hl, hcount⟩ := h
  obtain rfl := Option.some.inj (ht.symm.trans ht₁)
  unfold onCrash afterEscalation beforeEscalation
  rcases hr : policy.recordCrash c.now with ⟨restart, policy'⟩
  rw [hr] at hrec
  obtain rfl : restart = false := hrec
  unfold metMeanwhile
  by_cases hexit : seat = .exit
  · subst hexit
    rcases heq : (c.meanwhile.foldl LedgerStore.transact s.store).initialEquity with - | equity
    · simp [hl, hcount, appendExitHalt, heq, latch]
    · simp [hl, hcount, appendExitHalt, heq, latch]
  · simp [hl, hcount, hexit, latch]

lemma grows_met (s : SeatDesk) (c : SeatCrash) :
    Grows (fun _ rows => ∀ row ∈ rows, row.payload.exhausted = none) s.store (s.metMeanwhile c) :=
  grows_transacts s.store c.meanwhile

lemma grows_before (source : EventSource) (s : SeatDesk) (seat : Seat) (c : SeatCrash) :
    Grows (fun _ rows => ∀ row ∈ rows, row.payload.Plain) (s.metMeanwhile c)
      (s.beforeEscalation source seat c) := by
  unfold beforeEscalation
  split_ifs
  · exact grows_appendExitHalt source c.haltTs c.haltWritable _
  · exact .refl

/-- The ledger after an escalation that is recorded, or that is not. -/
lemma afterEscalation_cases (source : EventSource) (s : SeatDesk) (seat : Seat) (c : SeatCrash) :
    (s.Recorded source seat c ∧ s.afterEscalation source seat c =
      (s.beforeEscalation source seat c).commit [(exhaustedCall source seat).row c.clock.stamped]) ∨
    (¬ s.Recorded source seat c ∧ Grows (fun _ rows => ∀ row ∈ rows, row.payload.Plain)
      (s.metMeanwhile c) (s.afterEscalation source seat c)) := by
  have hequity : (s.beforeEscalation source seat c).initialEquity =
      (s.metMeanwhile c).initialEquity := (grows_before source s seat c).initialEquity_eq
  unfold afterEscalation
  split_ifs with hraise
  · refine .inr ⟨fun hr => ?_, .refl⟩
    have hsome := hr.1 hraise.1
    rw [hequity, hraise.2] at hsome
    cases hsome
  · have hequity' : seat = .exit → (s.beforeEscalation source seat c).initialEquity.isSome := by
      intro he
      rw [hequity, Option.isSome_iff_ne_none]
      exact fun hn => hraise ⟨he, hn⟩
    rw [appendEscalation_run]
    unfold escalated
    split_ifs with hskew htakes
    · refine .inr ⟨fun hr => hr.2.1 hskew, ?_⟩
      exact (grows_before source s seat c).commit hskew.2.2.2 (by
        simpa using plain_skewRow (exhaustedCall source seat) c.clock.reported)
    · exact .inl ⟨⟨hequity', hskew, htakes⟩, rfl⟩
    · exact .inr ⟨fun hr => htakes hr.2.2, grows_before source s seat c⟩

lemma grows_afterEscalation (source : EventSource) (s : SeatDesk) (seat : Seat) (c : SeatCrash)
    {other : Seat} (h : other ≠ seat) :
    Grows (fun _ rows => ∀ row ∈ rows, row.payload.exhausted ≠ some other) s.store
      (s.afterEscalation source seat c) := by
  have hmet := (grows_met s c).mono (B := fun _ rows => ∀ row ∈ rows, row.payload.exhausted ≠
    some other) fun _ rows hrows row hrow => by simp [hrows row hrow]
  have hplain : ∀ (_ : LedgerStore) (rows : List Row), (∀ row ∈ rows, row.payload.Plain) →
      ∀ row ∈ rows, row.payload.exhausted ≠ some other :=
    fun _ rows hrows row hrow => by simp [(hrows row hrow).1]
  rcases afterEscalation_cases source s seat c with ⟨hr, heq⟩ | ⟨-, hg⟩
  · rw [heq]
    refine (hmet.trans ((grows_before source s seat c).mono hplain)).commit hr.2.2.2.2 ?_
    simp [EscalationCall.row, exhaustedCall, Payload.exhausted, h.symm]
  · exact hmet.trans (hg.mono hplain)

/-- What is heard of a seat after a crash is what the others wrote. -/
lemma resumeAfter_afterEscalation (hs : s.Coherent) (source : EventSource) (seat other : Seat)
    (c : SeatCrash) :
    resumeAfter (s.afterEscalation source seat c).read other (some s.store.count) =
      resumeAfter (s.metMeanwhile c).read other (some s.store.count) := by
  have hmet := (grows_met s c)
  have hn := hmet.numbered hs.numbered
  have hle : s.store.count ≤ (s.metMeanwhile c).read.length := hmet.count_le
  have hquiet : ∀ st, Grows (fun _ rows => ∀ row ∈ rows, ∀ x, row.payload.resumes x = false)
      (s.metMeanwhile c) st → resumeAfter st.read other (some s.store.count) =
        resumeAfter (s.metMeanwhile c).read other (some s.store.count) := by
    intro st hg
    obtain ⟨new, hread, hnew⟩ := hg.new_rows (Q := fun p => ∀ x, p.resumes x = false)
    have hn' := hg.numbered hn
    rw [hread] at hn' ⊢
    have hnoted : Noted new other = false :=
      List.any_eq_false.mpr fun e he => by simp [hnew e he other]
    rw [resumeAfter_grown hn' hle, hnoted, Bool.or_false]
  have hplain : ∀ (_ : LedgerStore) (rows : List Row), (∀ row ∈ rows, row.payload.Plain) →
      ∀ row ∈ rows, ∀ x, row.payload.resumes x = false := fun _ rows hrows row hrow =>
    (hrows row hrow).2
  refine hquiet _ ?_
  rcases afterEscalation_cases source s seat c with ⟨hr, heq⟩ | ⟨-, hg⟩
  · rw [heq]
    refine ((grows_before source s seat c).mono hplain).commit hr.2.2.2.2 ?_
    simp [EscalationCall.row, Payload.resumes]
  · exact hg.mono hplain

/-- **A crash that spends the budget.** -/
lemma agrees_exhausts (hs : s.Coherent) (h : s.Agrees) {policy : RestartPolicy ℤ} {c : SeatCrash}
    (ht : s.tasks seat = some policy) (hx : s.Exhausts seat c) :
    (s.onCrash source seat policy c).Agrees ↔ s.Unheard (s.metMeanwhile c) ∧
      (s.Recorded source seat c ↔
        resumeAfter (s.metMeanwhile c).read seat (some s.store.count) = false) := by
  obtain ⟨hstore, hl, htasks⟩ := onCrash_exhausts source ht hx
  obtain ⟨-, -, -, hnone, -⟩ := hx
  have hheard := resumeAfter_afterEscalation hs source seat
  -- the seat itself was not latched, and no ledger before the row latches it
  have hself : (s.onCrash source seat policy c).rebuilt seat =
      (s.onCrash source seat policy c).held seat ↔ (s.Recorded source seat c ↔
        resumeAfter (s.metMeanwhile c).read seat (some s.store.count) = false) := by
    have hheld : (s.onCrash source seat policy c).held seat =
        !resumeAfter (s.metMeanwhile c).read seat (some s.store.count) := by
      rw [held, hl, Function.update_self, hstore]
      simp [hheard seat c]
    have hbefore : s.rebuilt seat = false := by
      rw [h seat (by rw [ht]; rfl), held, hnone]
      rfl
    rw [hheld]
    unfold rebuilt
    rw [hstore]
    rcases afterEscalation_cases source s seat c with ⟨hr, heq⟩ | ⟨hr, hg⟩
    · have hn : Numbered (s.afterEscalation source seat c).read := by
        rw [heq]
        exact numbered_commit ((grows_before source s seat c).numbered
          ((grows_met s c).numbered hs.numbered))
      rw [heq, read_commit] at hn ⊢
      rw [show stamp ((s.beforeEscalation source seat c).count + 1)
          [(exhaustedCall source seat).row c.clock.stamped] =
        [{ (exhaustedCall source seat).row c.clock.stamped with
            seq := (s.beforeEscalation source seat c).count + 1 }] from rfl] at hn ⊢
      rw [rebuild_exhausted hn (by
        simp [EscalationCall.row, exhaustedCall, Payload.exhausted])]
      simp [hr]
    · have hgrown := ((grows_met s c).trans (hg.mono fun _ rows hrows row hrow =>
        (hrows row hrow).1))
      obtain ⟨new, hread, hnew⟩ := hgrown.new_rows (Q := fun p => p.exhausted = none)
      have hn := hgrown.numbered hs.numbered
      rw [hread] at hn ⊢
      have hfalse : (rebuildExhaustionLatch s.store.read seat).isSome = false := hbefore
      rw [rebuild_grown hn fun e he => by simp [hnew e he], hfalse]
      simp [hr]
  have hothers : ∀ other, other ≠ seat → (s.tasks other).isSome →
      ((s.onCrash source seat policy c).rebuilt other =
        (s.onCrash source seat policy c).held other ↔
        (s.Pinned other →
          resumeAfter (s.metMeanwhile c).read other (some s.store.count) = false)) := by
    intro other hne htask
    have hg := grows_afterEscalation source s seat c hne
    obtain ⟨new, hread, hnew⟩ := hg.new_rows (Q := fun p => p.exhausted ≠ some other)
    rw [← hheard other c, ← hstore]
    rw [← hstore] at hread hg
    exact agrees_grown hs hread (hg.numbered hs.numbered) hnew
      (by rw [hl, Function.update_of_ne hne]) (h other htask)
  constructor
  · intro hall
    refine ⟨fun other hpin => ?_, hself.mp (hall seat (by simp [htasks]))⟩
    obtain ⟨l, hlatch, hafter⟩ := hpin
    have hne : other ≠ seat := by
      rintro rfl
      rw [hnone] at hlatch
      cases hlatch
    have htask := (hs.known other l hlatch).1
    exact (hothers other hne htask).mp
      (hall other (by simp [htasks, Function.update_of_ne hne, htask]))
      ⟨l, hlatch, hafter⟩
  · rintro ⟨hunheard, hrec⟩ other htask
    by_cases hne : other = seat
    · subst hne
      exact hself.mpr hrec
    · rw [htasks, Function.update_of_ne hne] at htask
      exact (hothers other hne htask).mpr (hunheard other)

/-! ### Runs -/

lemma owedHalt_spec (source : EventSource) (s : SeatDesk) (ts : ℤ) (writable : Bool) :
    Grows (fun _ rows => ∀ row ∈ rows, row.payload.Plain) s.store
        (s.owedHalt source ts writable).store ∧
      (s.owedHalt source ts writable).latched = s.latched ∧
      (s.owedHalt source ts writable).tasks = s.tasks := by
  unfold owedHalt
  split_ifs
  · exact ⟨grows_appendExitHalt source ts writable s.store, rfl, rfl⟩
  · exact ⟨.refl, rfl, rfl⟩

lemma read_verify (st : LedgerStore) (intact : Bool) :
    (LedgerStore.verify { st with intact := intact }).2.read = st.read := by
  cases intact <;> rfl

/-- The ledger a crash leaves is no shorter. -/
lemma grows_afterEscalation_any (source : EventSource) (s : SeatDesk) (seat : Seat)
    (c : SeatCrash) :
    Grows (fun _ _ => True) s.store (s.afterEscalation source seat c) := by
  have hbefore := ((grows_met s c).mono (B := fun _ _ => True) fun _ _ _ => trivial).trans
    ((grows_before source s seat c).mono fun _ _ _ => trivial)
  rcases afterEscalation_cases source s seat c with ⟨hr, heq⟩ | ⟨-, hg⟩
  · rw [heq]
    exact hbefore.commit hr.2.2.2.2 trivial
  · exact ((grows_met s c).mono fun _ _ _ => trivial).trans (hg.mono fun _ _ _ => trivial)

lemma coherent_step (hs : s.Coherent) (a : SeatAction) : (s.step source a).Coherent := by
  cases a with
  | construct seat f =>
    simp only [step]
    split_ifs with ht
    · exact hs
    · rw [Bool.not_eq_true, Option.isSome_eq_false_iff, Option.isNone_iff_eq_none] at ht
      have hnone := hs.unlatched ht
      obtain ⟨hg, hl, htasks⟩ := construct_spec source s seat f hnone
      refine ⟨hg.numbered hs.numbered, fun other l hlatch => ?_⟩
      rw [hl] at hlatch
      rw [htasks]
      by_cases hne : other = seat
      · subst hne
        rw [Function.update_self] at hlatch ⊢
        exact ⟨rfl, fun floor hf => (startLatch_floor hs hlatch floor hf).trans hg.count_le⟩
      · rw [Function.update_of_ne hne] at hlatch ⊢
        obtain ⟨htask, hfloor⟩ := hs.known other l hlatch
        exact ⟨htask, fun floor hf => (hfloor floor hf).trans hg.count_le⟩
  | crash seat c =>
    rcases ht : s.tasks seat with - | policy
    · simpa only [step, ht] using hs
    · simp only [step, ht]
      have htask : ∀ other policy', (s.tasks other).isSome →
          (Function.update s.tasks seat (some policy') other).isSome := by
        intro other policy' ho
        by_cases hne : other = seat
        · rw [hne, Function.update_self]
          rfl
        · rwa [Function.update_of_ne hne]
      by_cases hx : s.Exhausts seat c
      · obtain ⟨hstore, hl, htasks⟩ := onCrash_exhausts source ht hx
        have hg := grows_afterEscalation_any source s seat c
        refine ⟨hstore ▸ hg.numbered hs.numbered, fun other l hlatch => ?_⟩
        rw [htasks, hstore]
        rw [hl] at hlatch
        by_cases hne : other = seat
        · subst hne
          rw [Function.update_self] at hlatch ⊢
          obtain rfl := Option.some.inj hlatch
          exact ⟨rfl, fun floor hf => Option.some.inj hf ▸ hg.count_le⟩
        · rw [Function.update_of_ne hne] at hlatch
          obtain ⟨ho, hfloor⟩ := hs.known other l hlatch
          exact ⟨htask other _ ho, fun floor hf => (hfloor floor hf).trans hg.count_le⟩
      · obtain ⟨hstore, hl, htasks⟩ := onCrash_within source ht hx
        refine ⟨hstore ▸ hs.numbered, fun other l hlatch => ?_⟩
        rw [hl] at hlatch
        obtain ⟨ho, hfloor⟩ := hs.known other l hlatch
        exact ⟨htasks ▸ htask other _ ho, hstore ▸ hfloor⟩
  | owedHalt ts writable =>
    obtain ⟨hg, hl, htasks⟩ := owedHalt_spec source s ts writable
    exact hs.grown hg hl htasks
  | transact rows => exact hs.grown (grows_transact s.store rows) rfl rfl
  | verify intact =>
    have hread := read_verify s.store intact
    refine ⟨hread ▸ hs.numbered, fun other l hlatch => ?_⟩
    obtain ⟨ho, hfloor⟩ := hs.known other l hlatch
    refine ⟨ho, fun floor hf => ?_⟩
    simp only [step, count, hread]
    exact hfloor floor hf
  | foldResume readable =>
    rcases readable with - | -
    · exact hs
    · refine ⟨hs.numbered, fun other l hlatch => ?_⟩
      exact hs.known other l (Option.filter_eq_some_iff.mp hlatch).1
  | stop => exact ⟨hs.numbered, fun _ _ hlatch => by cases hlatch⟩

/-- **One step.** The two latches still agree exactly when the step keeps them. -/
lemma agrees_step (hs : s.Coherent) (h : s.Agrees) (a : SeatAction) :
    (s.step source a).Agrees ↔ s.Kept source a := by
  cases a with
  | construct seat f =>
    rcases ht : s.tasks seat with - | policy
    · simp only [step, ht, Kept, Option.isSome_none, Bool.false_eq_true, if_false, true_implies]
      exact agrees_construct hs h f ht
    · simpa [step, ht, Kept] using h
  | crash seat c =>
    rcases ht : s.tasks seat with - | policy
    · simp only [step, ht, Kept]
      refine iff_of_true h fun hx => ?_
      obtain ⟨policy, hp, -⟩ := hx
      rw [ht] at hp
      cases hp
    · simp only [step, ht, Kept]
      by_cases hx : s.Exhausts seat c
      · rw [agrees_exhausts hs h ht hx]
        exact ⟨fun hk _ => hk, fun hk => hk hx⟩
      · obtain ⟨hstore, hl, htasks⟩ := onCrash_within source ht hx
        refine iff_of_true (fun other hother => ?_) fun hx' => absurd hx' hx
        have htask : (s.tasks other).isSome := by
          by_cases hne : other = seat
          · rw [hne, ht]
            rfl
          · rwa [htasks, Function.update_of_ne hne] at hother
        rw [rebuilt, held, hstore, hl]
        exact h other htask
  | owedHalt ts writable =>
    obtain ⟨hg, hl, htasks⟩ := owedHalt_spec source s ts writable
    refine iff_of_true (fun other hother => ?_) trivial
    exact agrees_plain hs hg (by rw [step, hl]) (h other (htasks ▸ hother))
  | transact rows =>
    have hg := grows_transact s.store rows
    obtain ⟨new, hread, hnew⟩ := hg.new_rows (Q := fun p => p.exhausted = none)
    have hseat : ∀ seat, (s.tasks seat).isSome → ((s.step source (.transact rows)).rebuilt seat =
        (s.step source (.transact rows)).held seat ↔ (s.Pinned seat →
          resumeAfter (s.store.transact rows).read seat (some s.store.count) = false)) :=
      fun seat htask => by
        have hread' : (s.step source (.transact rows)).store.read = s.store.read ++ new := hread
        exact agrees_grown hs hread' (hg.numbered hs.numbered) (fun e he => by simp [hnew e he]) rfl
          (h seat htask)
    constructor
    · rintro hall seat ⟨l, hlatch, hafter⟩
      have htask := (hs.known seat l hlatch).1
      exact (hseat seat htask).mp (hall seat htask) ⟨l, hlatch, hafter⟩
    · exact fun hk seat htask => (hseat seat htask).mpr (hk seat)
  | verify intact =>
    refine iff_of_true (fun seat htask => ?_) trivial
    have hread := read_verify s.store intact
    simp only [step, rebuilt, held, hread]
    exact h seat htask
  | foldResume readable =>
    refine iff_of_true (fun seat htask => ?_) trivial
    rcases readable with - | -
    · exact h seat htask
    · refine (h seat htask).trans ?_
      -- a latch whose note is read is gone, and was not held
      simp only [held, step, foldResume, if_true]
      rcases s.latched seat with - | l
      · rfl
      · cases hres : resumeAfter s.store.read seat l.after <;> simp [Option.filter, hres]
  | stop => exact iff_of_true (fun _ htask => by cases htask) trivial

/-- **The latch across restarts.** In every run of constructions, crashes, transactions of other
writers, resumes and stops, with any readings and any failures, a new process would rebuild
exactly the latches the running one holds, exactly when every step is of the kind that keeps them:
each spent budget is recorded (unless a resume note came in between), no seat is constructed over a
ledger that cannot be read and does not latch it, and no resume note is for a seat whose floor is
unknown. -/
theorem latch_rebuilt_iff (source : EventSource) (as : List SeatAction) :
    (∀ bs, bs <+: as → (Runs.after (step source) {} bs).Agrees) ↔
      Runs.Along (step source) (Kept source) {} as :=
  Runs.always_iff_along (J := Coherent) (P := Agrees) (fun _ a h => coherent_step h a)
    (fun _ a hj hp => agrees_step hj hp a) ⟨by rfl, fun _ _ h => by cases h⟩
    (fun _ h => by cases h) as

def sampleCrash (now : ℤ) : SeatCrash where
  now := now
  haltTs := now
  clock := { compared := now, reported := now, stamped := now }

def sampleRow : Row where
  ts := 100000000
  source := .paper
  key := .other 0
  payload := .journalNote { seat := .risk, isVerdict := false, text := [] }

/-- A row is stamped at a hundred seconds, the clock steps back to ten, and the sniper crashes
until its budget is spent. -/
def backwardsRun : List SeatAction :=
  [.transact ⟨[sampleRow], by decide⟩, .construct .sniper {}] ++
    List.replicate 6 (.crash .sniper (sampleCrash 10000000))

/-- The escalation is refused for its clock, and the seat comes back unlatched. -/
theorem exhausted_seat_comes_back :
    ¬ ∀ bs, bs <+: backwardsRun → (Runs.after (step .paper) {} bs).Agrees := by
  intro h
  have hagrees := h backwardsRun (List.prefix_refl _) .sniper (by decide +kernel)
  revert hagrees
  decide +kernel

end SeatDesk

end PumpGrok
