import PumpGrok.Desk.Moves
import PumpGrok.Risk.HaltClear

/-!
Halts over runs of the desk: its own steps, the halt operations and restarts. The desk has one slot
for a halt, which the newest halt row fills and any clear empties: once a halt is on the ledger the
desk stays halted until a human clears whatever it shows.
-/

namespace PumpGrok

def Payload.isHalt : Payload → Bool
  | .haltSet _ | .haltCleared _ => true
  | _ => false

/-- Rows about halts are written by the engine and the halt operations alone. -/
def HaltAction.Own : HaltAction → Prop
  | .desk (.append other) => other.row.payload.isHalt = false
  | _ => True

instance : DecidablePred HaltAction.Own := fun a => by
  unfold HaltAction.Own
  split <;> infer_instance

/-- A step of the desk or a halt operation, or a restart. -/
inductive LatchAction where
  | run (a : HaltAction) (own : a.Own)
  | restart (env : Text)

namespace LatchDesk

/-- The process stops and one is started: the calls and all memory are lost, and the ledger is read
again. -/
def restart (s : Sys) (env : Text) : Sys where
  world :=
    { desk := { s.world.desk with
        store := { s.store with inconsistent := false }
        killswitch := KillSwitch.started env s.world.desk.killswitch.hasPath
          s.world.desk.killswitch.file s.world.desk.killswitch.alerts
        breakers := BreakerSet.rebuild s.store.read
        probeOwners := ∅
        decisions := ∅ }
      mem := {} }
  calls := []

def step (cfg : DeskConfig) (s : Sys) : LatchAction → Sys
  | .run a _ => HaltDesk.step cfg s a
  | .restart env => restart s env

/-! ### The rows of a step -/

/-- The clear a step may append: a human's, of an active halt, on an approval not used before. -/
structure Clears (cfg : DeskConfig) (d : Desk) (approval : ApprovalRecord) (reason : Text)
    (source : EventSource) (row : Row) : Prop where
  human : KillDesk.isHuman approval.approvedBy = true
  kind : approval.kind = .haltClear
  active : (d.fold cfg).halt.active = true
  unused : d.store.byKey (.consumed approval.id) = none
  row : row = haltClearedRow approval reason d.now source

/-- A batch of a step: rows that leave halts as they should be, or a clear. -/
inductive HaltBatch (C : Row → Prop) (st : LedgerStore) : List Row → Prop
  | kept {rows : List Row} (h : ∀ r ∈ rows, r.haltOk st = true) : HaltBatch C st rows
  | cleared {row note : Row} (hc : C row) (hr : row.payload.isHaltCleared = true)
      (hn : note.payload.isHalt = false) : HaltBatch C st [row, note]

lemma haltOk_of_not {row : Row} {st : LedgerStore} (h : row.payload.isHalt = false) :
    row.haltOk st = true := by
  unfold Row.haltOk
  cases hp : row.payload <;> simp_all [Payload.isHalt]

lemma not_cleared_of_haltOk {row : Row} {st : LedgerStore} (h : row.haltOk st = true) :
    row.payload.isHaltCleared = false := by
  unfold Row.haltOk at h
  cases hp : row.payload <;> simp_all [Payload.isHaltCleared]

lemma EngineRow.haltBatch {C : Row → Prop} {st : LedgerStore} {rows : List Row}
    (h : EngineRow st rows) : HaltBatch C st rows := by
  obtain ⟨row, -, -, -, hh⟩ := h
  exact .kept fun r hr => by rwa [List.mem_singleton.mp hr]

/-- **A step of the desk** appends no clear, and halts only as they should be. -/
lemma desk_grows (cfg : DeskConfig) (s : Sys) {a : Action} (own : (HaltAction.desk a).Own)
    (C : Row → Prop) :
    ∃ st b, s.store.Grows (HaltBatch C) st ∧ (s.step cfg a).store = { st with intact := b } := by
  refine (Sys.step_move cfg s a).grows_by (fun st rows h => ?_) fun st rows h => ?_
  · obtain ⟨row, -, -, hh | hf⟩ := h
    · exact .kept fun r hr => by rwa [List.mem_singleton.mp hr]
    · refine .kept fun r hr => haltOk_of_not ?_
      rw [List.mem_singleton.mp hr]
      cases a with
      | append other =>
        obtain rfl : row = other.row := hf
        exact own
      | _ => exact hf.elim
  · refine .kept fun r hr => haltOk_of_not ?_
    have := h r hr
    cases hp : r.payload <;> simp_all [Payload.isOrders, Payload.isHalt]

variable {cfg : DeskConfig} {d : Desk}

/-- The detection of a breach appends its halt row at most. -/
lemma evaluateHalts_grows (source : EventSource) (C : Row → Prop) :
    d.store.Grows (HaltBatch C) (evaluateHalts cfg source d).2.store := by
  have hv : d.store.Grows (HaltBatch C) (LedgerStore.verify d.store).2 := LedgerStore.grows_verify
  unfold evaluateHalts
  rcases h : LedgerStore.verify d.store with ⟨x | u, st⟩
  · rw [h] at hv
    exact hv
  · rw [h] at hv
    dsimp only
    split_ifs
    · exact hv
    · refine hv.trans ?_
      have hq := (breach_quietly cfg (Desk.fold cfg { d with store := st })
        (equityForHalts cfg (Desk.fold cfg { d with store := st })) source) { d with store := st }
      exact hq.store.mono fun _ _ => EngineRow.haltBatch

lemma appendExitHalt_grows (source : EventSource) (C : Row → Prop) :
    d.store.Grows (HaltBatch C) (appendExitHalt source d).2.store := by
  unfold appendExitHalt
  rcases d.store.initialEquity with - | equity
  · exact .refl
  · refine LedgerStore.grows_append fun _ => .kept fun r hr => ?_
    rw [List.mem_singleton.mp hr]
    simp [Row.haltOk, exitHaltRow, HaltReason.isBreach]

lemma onStore_run {α : Type} {m : Prog LedgerStore Exc α} {r : Except Exc α} {st : LedgerStore}
    (h : m d.store = (r, st)) : Desk.onStore m d = (r, { d with store := st }) := by
  unfold Desk.onStore Prog.on
  rw [h]

/-- **A clear** is refused, or appends its row and the approval it used. -/
lemma requestHaltClear_grows (approval : ApprovalRecord) (reason : Text) (source : EventSource) :
    d.store.Grows (HaltBatch (Clears cfg d approval reason source))
      (requestHaltClear cfg approval reason source d).2.store := by
  unfold requestHaltClear
  rw [Prog.raiseIf_bind_run]
  split_ifs with hhuman
  · exact .refl
  rw [Prog.raiseIf_bind_run]
  split_ifs with hkind
  · exact .refl
  rw [Prog.bind_run_ok (Prog.read_run _ _), Prog.raiseIf_bind_run]
  split_ifs with hactive
  · exact .refl
  rw [Prog.bind_run_ok (Prog.read_run _ _), Prog.raiseIf_bind_run]
  split_ifs with hused
  · exact .refl
  rw [Prog.bind_run_ok (Prog.read_run _ _)]
  have hclears : Clears cfg d approval reason source
      (haltClearedRow approval reason d.now source) := by
    refine ⟨by simpa using hhuman, by simpa using hkind, by simpa using hactive, ?_, rfl⟩
    simpa using hused
  have hg : d.store.Grows (HaltBatch (Clears cfg d approval reason source))
      (LedgerStore.appendBatch (haltClearRows approval reason d.now source) d.store).2 :=
    LedgerStore.grows_appendBatch fun _ => .cleared hclears rfl rfl
  rcases ha : LedgerStore.appendBatch (haltClearRows approval reason d.now source) d.store with
    ⟨x | es, st⟩
  · rw [ha] at hg
    rw [Prog.bind_run_error (onStore_run ha)]
    exact hg
  · rw [ha] at hg
    rw [Prog.bind_run_ok (onStore_run ha)]
    exact hg

/-- The clears an action may append. -/
def ClearsBy (cfg : DeskConfig) (d : Desk) : LatchAction → Row → Prop
  | .run (.requestHaltClear approval reason source) _, row =>
    Clears cfg d approval reason source row
  | _, _ => False

/-- **A step** appends halts as they should be, or the clear of a human. -/
theorem step_grows (cfg : DeskConfig) (s : Sys) (a : LatchAction) :
    ∃ st, s.store.Grows (HaltBatch (ClearsBy cfg s.world.desk a)) st ∧
      (step cfg s a).store.read = st.read := by
  cases a with
  | restart env => exact ⟨s.store, .refl, rfl⟩
  | run a own =>
    cases a with
    | desk a =>
      obtain ⟨st, b, hg, hst⟩ :=
        desk_grows cfg s own (ClearsBy cfg s.world.desk (.run (.desk a) own))
      refine ⟨st, hg, ?_⟩
      show (s.step cfg a).store.read = st.read
      rw [hst]
      rfl
    | evaluateHalts source => exact ⟨_, evaluateHalts_grows source _, rfl⟩
    | requestHaltClear approval reason source =>
      exact ⟨_, requestHaltClear_grows approval reason source, rfl⟩
    | appendExitHalt source => exact ⟨_, appendExitHalt_grows source _, rfl⟩

/-! ### Halts on the ledger -/

/-- The halts of a ledger: each under the key of its reason and day, and no breach after a clear of
its day. -/
structure HaltsOk (st : LedgerStore) : Prop where
  keys : (st.read.map (·.key)).Nodup
  keyed : ∀ e ∈ st.read, ∀ p, e.payload = .haltSet p → e.key = .halt p.reason (utcDay e.ts)
  spared : st.read.Pairwise fun c e => c.payload.isHaltCleared = true →
    ∀ p, e.payload = .haltSet p → p.reason.isBreach = true → utcDay e.ts ≠ utcDay c.ts

section Store

variable {C : Row → Prop} {st st' : LedgerStore} {rows : List Row}

lemma stamped_row {n : ℕ} {e : Event} (h : e ∈ LedgerStore.stamp n rows) : e.toRow ∈ rows := by
  rw [← LedgerStore.stamp_toRow n rows]
  exact List.mem_map_of_mem h

lemma haltSet_ok {r : Row} {p : HaltSet} (hp : r.payload = .haltSet p) (h : r.haltOk st = true) :
    r.key = .halt p.reason (utcDay r.ts) ∧
      (p.reason.isBreach = true → clearedToday st.read (utcDay r.ts) = false) := by
  unfold Row.haltOk at h
  rw [hp] at h
  obtain ⟨hk, hb⟩ := Bool.and_eq_true_iff.mp h
  refine ⟨of_decide_eq_true hk, fun hr => ?_⟩
  simpa [hr] using hb

/-- A halt row of a batch is as it should be, and a batch with one has no clear. -/
lemma HaltBatch.haltSet (h : HaltBatch C st rows) {r : Row} (hr : r ∈ rows) {p : HaltSet}
    (hp : r.payload = .haltSet p) :
    r.haltOk st = true ∧ ∀ c ∈ rows, c.payload.isHaltCleared = false := by
  cases h with
  | kept h => exact ⟨h r hr, fun c hc => not_cleared_of_haltOk (h c hc)⟩
  | @cleared row note hc hcl hn =>
    simp only [List.mem_cons, List.not_mem_nil, or_false] at hr
    rcases hr with rfl | rfl
    · simp [hp, Payload.isHaltCleared] at hcl
    · simp [hp, Payload.isHalt] at hn

lemma HaltsOk.commit (h : HaltsOk st) (hf : st.Fresh rows) (hb : HaltBatch C st rows) :
    HaltsOk (st.commit rows) where
  keys := LedgerStore.nodup_keys_commit h.keys hf
  keyed e he p hp := by
    rcases LedgerStore.mem_read_commit he with he | he
    · exact h.keyed e he p hp
    · exact (haltSet_ok hp (hb.haltSet he hp).1).1
  spared := by
    rw [LedgerStore.read_commit, List.pairwise_append]
    refine ⟨h.spared, ?_, fun c hc e he hcl p hp hr hday => ?_⟩
    · refine List.pairwise_of_forall_mem_list fun c hc e he hcl p hp hr => ?_
      have := (hb.haltSet (stamped_row he) hp).2 _ (stamped_row hc)
      rw [hcl] at this
      cases this
    · obtain ⟨-, hclear⟩ := haltSet_ok hp (hb.haltSet (stamped_row he) hp).1
      have := cleared_mem hc hcl hday.symm
      rw [hclear hr] at this
      cases this

lemma HaltsOk.grows (h : HaltsOk st) (hg : st.Grows (HaltBatch C) st') : HaltsOk st' :=
  hg.invariant (I := HaltsOk) (fun _ _ h => ⟨h.keys, h.keyed, h.spared⟩)
    (fun _ _ h hf hb => h.commit hf hb) h

/-- What a store has grown by has only the clears of its batches. -/
lemma grows_clears (hg : st.Grows (HaltBatch C) st') :
    ∃ rest, st'.read = st.read ++ rest ∧
      ∀ e ∈ rest, e.payload.isHaltCleared = true → C e.toRow := by
  refine hg.invariant (I := fun x => ∃ rest, x.read = st.read ++ rest ∧
    ∀ e ∈ rest, e.payload.isHaltCleared = true → C e.toRow) (fun _ _ h => h) ?_
    ⟨[], by simp, by simp⟩
  rintro x rows ⟨rest, hread, hrest⟩ - hb
  refine ⟨rest ++ LedgerStore.stamp (x.count + 1) rows, ?_, fun e he hcl => ?_⟩
  · rw [LedgerStore.read_commit, hread, List.append_assoc]
  · rcases List.mem_append.mp he with he | he
    · exact hrest e he hcl
    · have hr := stamped_row he
      cases hb with
      | kept h =>
        have := not_cleared_of_haltOk (h _ hr)
        rw [hcl] at this
        cases this
      | @cleared row note hc hcr hn =>
        simp only [List.mem_cons, List.not_mem_nil, or_false] at hr
        rcases hr with hr | hr
        · rwa [hr]
        · have : note.payload.isHaltCleared = true := hr ▸ hcl
          cases hp : note.payload <;> simp_all [Payload.isHaltCleared, Payload.isHalt]

end Store

/-! ### The latch -/

lemma handle_halt (state : LedgerState) (ts : ℤ) (p : Payload) :
    (handle state ts p).halt = match p with
      | .haltSet q => { active := true, reason := some q.reason, since := some ts }
      | .haltCleared _ => {}
      | _ => state.halt := by
  cases p with
  | positionOpened q =>
    simp only [handle, onPositionOpened]
    split_ifs <;> simp
  | fillRecorded q =>
    simp only [handle, onFill, trackPeak_halt]
    split
    · rfl
    · split_ifs <;> rfl
  | _ => simp [handle, onPositionClosed, onRejected, onMtm, onHaltSet, onHaltCleared, onKillSet,
      onKillCleared, onBreakerTripped, onBreakerReset, onRollover, onApproval]

/-- Only a clear ends an active halt. -/
lemma halted_replay {state : LedgerState} (h : state.halt.active = true) {es : List Event}
    (hes : ∀ e ∈ es, e.payload.isHaltCleared = false) : (replay state es).halt.active = true := by
  induction es generalizing state with
  | nil => exact h
  | cons e es ih =>
    rw [replay_cons]
    refine ih ?_ fun x hx => hes x (List.mem_cons_of_mem _ hx)
    have he := hes e (by simp)
    rw [reduce_halt, handle_halt]
    cases hp : e.payload <;> simp_all [Payload.isHaltCleared]

/-- Only a halt fills an empty slot. -/
lemma open_replay {state : LedgerState} (h : state.halt = {}) {es : List Event}
    (hes : ∀ e ∈ es, ∀ p, e.payload ≠ .haltSet p) : (replay state es).halt = {} := by
  induction es generalizing state with
  | nil => exact h
  | cons e es ih =>
    rw [replay_cons]
    refine ih ?_ fun x hx => hes x (List.mem_cons_of_mem _ hx)
    have he := hes e (by simp)
    rw [reduce_halt, handle_halt]
    cases hp : e.payload <;> simp_all

/-- What the halts of a ledger promise: from a halt on, the desk is halted until a clear; from a
clear on no halt is latched until the next is set; a reason is set once in a day; and no breach is
set on a day after a clear of that day. -/
structure Latched (cfg : DeskConfig) (d : Desk) : Prop where
  halted : ∀ front e rest p, d.store.read = front ++ e :: rest → e.payload = .haltSet p →
    (∀ x ∈ rest, x.payload.isHaltCleared = false) → (d.fold cfg).halt.active = true
  cleared : ∀ front c rest, d.store.read = front ++ c :: rest → c.payload.isHaltCleared = true →
    (∀ x ∈ rest, ∀ p, x.payload ≠ .haltSet p) → (d.fold cfg).halt = {}
  once : ∀ e ∈ d.store.read, ∀ e' ∈ d.store.read, ∀ p p', e.payload = .haltSet p →
    e'.payload = .haltSet p' → p.reason = p'.reason → utcDay e.ts = utcDay e'.ts → e = e'
  spared : ∀ front c rest, d.store.read = front ++ c :: rest → c.payload.isHaltCleared = true →
    ∀ e ∈ rest, ∀ p, e.payload = .haltSet p → p.reason.isBreach = true →
      utcDay e.ts ≠ utcDay c.ts

lemma HaltsOk.latched (cfg : DeskConfig) {d : Desk} (h : HaltsOk d.store) : Latched cfg d where
  halted front e rest p hread hp hrest := by
    unfold Desk.fold
    rw [hread, replay_append, replay_cons]
    refine halted_replay ?_ hrest
    rw [reduce_halt, handle_halt, hp]
  cleared front c rest hread hc hrest := by
    unfold Desk.fold
    rw [hread, replay_append, replay_cons]
    refine open_replay ?_ hrest
    rw [reduce_halt, handle_halt]
    cases hp : c.payload <;> simp_all [Payload.isHaltCleared]
  once e he e' he' p p' hp hp' hr hd := by
    refine List.inj_on_of_nodup_map h.keys he he' ?_
    rw [h.keyed e he p hp, h.keyed e' he' p' hp', hr, hd]
  spared front c rest hread hc e he p hp hr := by
    have hpair := h.spared
    rw [hread] at hpair
    have htail := (List.pairwise_append.mp hpair).2.1
    exact (List.pairwise_cons.mp htail).1 e he hc p hp hr

lemma haltsOk_step (cfg : DeskConfig) (s : Sys) (a : LatchAction) (h : HaltsOk s.store) :
    HaltsOk (step cfg s a).store := by
  obtain ⟨st, hg, hread⟩ := step_grows cfg s a
  have hst := h.grows hg
  exact ⟨hread ▸ hst.keys, hread ▸ hst.keyed, hread ▸ hst.spared⟩

/-- **Halts latch.** In every run, rows are only added; whatever is halted stays halted until a
clear is added, which ends every halt latched; a reason is set once in a day, and no breach on a day
after a clear of that day; and a step adds a clear only as a human's, on an unused approval of one,
while the desk is halted. -/
theorem halts_latch (cfg : DeskConfig) (now e₀ : ℤ) (killswitch : KillSwitch)
    (as : List LatchAction) (a : LatchAction) :
    let s := Runs.after (step cfg) (Sys.start now e₀ killswitch) as
    Latched cfg s.world.desk ∧
      ∃ rest, (step cfg s a).store.read = s.store.read ++ rest ∧
        ∀ e ∈ rest, e.payload.isHaltCleared = true →
          ∃ approval reason source own, a = .run (.requestHaltClear approval reason source) own ∧
            Clears cfg s.world.desk approval reason source e.toRow := by
  intro s
  have hok : HaltsOk s.store := by
    refine Runs.invariant (I := fun s : Sys => HaltsOk s.store) (haltsOk_step cfg) ?_ as
    constructor <;> simp [Sys.start, Sys.store, LedgerStore.read]
  refine ⟨hok.latched cfg, ?_⟩
  obtain ⟨st, hg, hread⟩ := step_grows cfg s a
  obtain ⟨rest, hrest, hclears⟩ := grows_clears hg
  refine ⟨rest, hread.trans hrest, fun e he hcl => ?_⟩
  have hby := hclears e he hcl
  cases a with
  | restart env => exact hby.elim
  | run a own =>
    cases a with
    | requestHaltClear approval reason source =>
      exact ⟨approval, reason, source, own, rfl, hby⟩
    | _ => exact hby.elim

/-! ### Two halts -/

/-- A row is a clear of the halt the desk shows before it. -/
def ClearsShown (cfg : DeskConfig) (d : Desk) (r : HaltReason) (front : List Event) (c : Event) :
    Prop :=
  c.payload.isHaltCleared = true ∧
    (replay (initialState (d.store.initialEquity.getD cfg.budget.paperEquityLamports)
      (utcDay d.now)) front).halt.reason = some r

instance (cfg : DeskConfig) (d : Desk) (r : HaltReason) (front : List Event) (c : Event) :
    Decidable (ClearsShown cfg d r front c) := by
  unfold ClearsShown
  infer_instance

/-- A buy loses nearly all and the day's loss halts the desk; the exit seat goes unmanaged; and the
halt the desk shows is cleared. -/
def sampleHalts : List HaltAction :=
  (Sys.sampleReserves :: Sys.samplePlace 0 (Sys.sampleBuy 'a' 1) ++
    [Action.startMark (Sys.sampleMint 'a') .paper,
      Action.markCurve 1 (some { sLamports := 30000000, tUnits := 1073000000000000 })]).map .desk ++
    [.evaluateHalts .paper, .appendExitHalt .paper,
      .requestHaltClear HaltDesk.sampleHaltClear "exit seat is back".toList .paper]

def sampleLatch : List LatchAction := sampleHalts.pmap .run (by decide)

def reopened : Desk :=
  (Runs.after (step HaltDesk.boldConfig) (Sys.start 0 1000000000 {}) sampleLatch).world.desk

def Payload.haltReason : Payload → Option HaltReason
  | .haltSet p => some p.reason
  | _ => none

lemma haltReason_some {q : Payload} {r : HaltReason} (h : Payload.haltReason q = some r) :
    ∃ p, q = .haltSet p ∧ p.reason = r := by
  cases q with
  | haltSet p => exact ⟨p, rfl, Option.some.inj h⟩
  | _ => cases h

/-- Each place of a list cut in two at it. -/
lemma take_of_split {α : Type} {l mid tail : List α} {x : α} (h : l = mid ++ x :: tail) :
    x ∈ l[mid.length]? ∧ l.take mid.length = mid ∧ mid.length < l.length := by
  subst h
  simp

/-- The halt of the day's loss is not cleared while it shows, and the desk is open. -/
lemma reopened_rows : ∃ front e rest p, reopened.store.read = front ++ e :: rest ∧
    e.payload = .haltSet p ∧ p.reason = .dailyLoss ∧ ∀ mid c tail, rest = mid ++ c :: tail →
      ¬ ClearsShown HaltDesk.boldConfig reopened .dailyLoss (front ++ e :: mid) c := by
  have hrow : (reopened.store.read[4]?).any (fun e =>
      decide (Payload.haltReason e.payload = some .dailyLoss ∧
        ∀ i < (reopened.store.read.drop 5).length, ∀ x ∈ (reopened.store.read.drop 5)[i]?,
          ¬ ClearsShown HaltDesk.boldConfig reopened .dailyLoss
            (reopened.store.read.take 4 ++
              e :: (reopened.store.read.drop 5).take i) x)) = true := by
    decide +kernel
  obtain ⟨e, he, hrow⟩ := (Option.any_eq_true _ _).mp hrow
  obtain ⟨hreason, hclears⟩ := of_decide_eq_true hrow
  obtain ⟨p, hp, hr⟩ := haltReason_some hreason
  refine ⟨_, e, _, p, LedgerStore.read_cut he, hp, hr, fun mid x tail hs => ?_⟩
  obtain ⟨hx, htake, hlen⟩ := take_of_split hs
  have hnot := hclears mid.length hlen x hx
  rwa [htake] at hnot

/-- **The newest halt hides the one before it.** The desk can be open with a halt for the day's loss
on the ledger that no clear was for: the clear was of the halt shown in its place. -/
theorem newer_halt_hides :
    ¬ ∀ (cfg : DeskConfig) (now e₀ : ℤ) (killswitch : KillSwitch) (as : List LatchAction)
      (front : List Event) (e : Event) (rest : List Event) (p : HaltSet),
      let d := (Runs.after (step cfg) (Sys.start now e₀ killswitch) as).world.desk
      d.store.read = front ++ e :: rest → e.payload = .haltSet p →
        (∀ mid c tail, rest = mid ++ c :: tail →
          ¬ ClearsShown cfg d p.reason (front ++ e :: mid) c) →
        (d.fold cfg).halt.active = true := by
  intro h
  obtain ⟨front, e, rest, p, hread, hp, hr, hclears⟩ := reopened_rows
  have hactive := h HaltDesk.boldConfig 0 1000000000 {} sampleLatch front e rest p
  have hd : reopened = (Runs.after (step HaltDesk.boldConfig) (Sys.start 0 1000000000 {})
    sampleLatch).world.desk := rfl
  dsimp only at hactive
  -- folded back first: a unifier that unfolds the run on one side evaluates it
  rw [← hd] at hactive
  have hopen : (reopened.fold HaltDesk.boldConfig).halt.active = false := by decide +kernel
  have hclosed := hactive hread hp (by rw [hr]; exact hclears)
  rw [hopen] at hclosed
  cases hclosed

end LatchDesk

end PumpGrok
