import PumpGrok.Risk.KillDesk

/-!
The rows of the kill switch. The tool's row is keyed by the minute, the process's by the number of
clears before it: the one may be taken for a repeat of a row that was cleared since, the other
never is.
-/

namespace PumpGrok

namespace LedgerStore

/-- Appending a row that may be there already. -/
lemma appendSuppressing_integrity (row : Row) (st : LedgerStore) :
    appendSuppressing [.integrityError] row st =
      if st.inconsistent then (.error .ledgerInconsistent, st)
      else if st.byKey row.key = none then (.ok (), st.commit [row])
      else (.ok (), st) := by
  rcases appendSuppressing_run [.integrityError] row st with ⟨hc, hf, hr⟩ | ⟨x, ha, hr⟩
  · rw [hr, if_neg (by simp [hc]), if_pos (fresh_singleton.mp hf)]
  · rw [hr]
    rcases (append_error_iff.mp ha).2 with ⟨hc, rfl⟩ | ⟨hc, hf, rfl⟩
    · simp [hc]
    · rw [fresh_singleton] at hf
      simp [hc, hf]

end LedgerStore

namespace KillSwitch

/-- Whether an observation appends a row. -/
def toRecord (events : List Event) (state : KillState) : Bool :=
  state.active && match latestSet events with
    | none => true
    | some p => !p.flattenRequested && state.flattenRequested

/-- The row of an observed state. -/
def setRow (ts : ℤ) (source : EventSource) (events : List Event) (state : KillState) : Row where
  ts := ts
  source := source
  key := .killSwitch (state.source.getD .env) state.reason (utcDay ts) state.flattenRequested
    (clearEpoch events)
  payload := .killSwitchSet
    { origin := state.source.getD .env
      reason := state.reason
      flattenRequested := state.flattenRequested }

lemma observe_run (ts : ℤ) (source : EventSource) (k : KillSwitch) (st : LedgerStore) :
    observe ts source (k, st) =
      if toRecord st.read (k.poll st.read).1 then
        let written := LedgerStore.appendSuppressing [.integrityError]
          (setRow ts source st.read (k.poll st.read).1) st
        (written.1, (k.poll st.read).2, written.2)
      else (.ok (), (k.poll st.read).2, st) := by
  unfold observe toRecord
  dsimp only
  rcases k.poll st.read with ⟨⟨active, origin, reason, flatten⟩, k'⟩
  rcases active with - | -
  · rfl
  · rcases latestSet st.read with - | ⟨o, r, f, b⟩
    · rfl
    · cases f <;> cases flatten <;> rfl

end KillSwitch

/-! ### Keys and clears -/

/-- The observed rows of a ledger are keyed by the clears before them; those keyed by all of its
clears were not cleared. -/
structure KillKeys (events : List Event) : Prop where
  epochs : ∀ e ∈ events, ∀ o r d f n, e.key = .killSwitch o r d f n → o ≠ .clear →
    n ≤ KillSwitch.clearEpoch events ∧
      (n = KillSwitch.clearEpoch events → (KillSwitch.latestSet events).isSome)
  origins : ∀ e ∈ events, ∀ p, e.payload = .killSwitchSet p → p.origin ≠ .clear

namespace KillKeys

variable {events : List Event}

lemma nil : KillKeys [] := ⟨by simp, by simp⟩

/-- A set row is appended. -/
lemma set (h : KillKeys events) {e : Event} {p : KillSwitchSet} (he : e.payload = .killSwitchSet p)
    (hp : p.origin ≠ .clear)
    (hk : ∀ o r d f n, e.key = .killSwitch o r d f n → n = KillSwitch.clearEpoch events) :
    KillKeys (events ++ [e]) := by
  have hset : KillSwitch.latestSet (events ++ [e]) = some p := by
    rw [KillSwitch.latestSet_append_singleton, he]
  have hepoch : KillSwitch.clearEpoch (events ++ [e]) = KillSwitch.clearEpoch events := by
    rw [KillSwitch.clearEpoch_append]
    simp [KillSwitch.clearEpoch, he]
  constructor
  · intro e' he' o r d f n hkey ho
    rw [hset, hepoch]
    refine ⟨?_, fun _ => rfl⟩
    rcases List.mem_append.mp he' with he' | he'
    · exact (h.epochs e' he' o r d f n hkey ho).1
    · rw [List.mem_singleton.mp he'] at hkey
      exact (hk o r d f n hkey).le
  · intro e' he' q hq
    rcases List.mem_append.mp he' with he' | he'
    · exact h.origins e' he' q hq
    · rw [List.mem_singleton.mp he', he] at hq
      cases hq
      exact hp

/-- The rows of a clear are appended. -/
lemma clear (h : KillKeys events) {e e' : Event} {p : KillSwitchCleared} {q : ApprovalRecorded}
    {reason : Text} {day : ℤ} {approval : ℕ} (he : e.payload = .killSwitchCleared p)
    (hk : e.key = .killSwitch .clear reason day false 0) (he' : e'.payload = .approvalRecorded q)
    (hk' : e'.key = .consumed approval) : KillKeys (events ++ [e, e']) := by
  have hepoch : KillSwitch.clearEpoch (events ++ [e, e']) = KillSwitch.clearEpoch events + 1 := by
    rw [KillSwitch.clearEpoch_append]
    simp [KillSwitch.clearEpoch, he, he']
  constructor
  · intro x hx o r d f n hkey ho
    rw [hepoch]
    simp only [List.mem_append, List.mem_cons, List.not_mem_nil, or_false] at hx
    rcases hx with hx | rfl | rfl
    · have := (h.epochs x hx o r d f n hkey ho).1
      exact ⟨by omega, by omega⟩
    · rw [hk] at hkey
      cases hkey
      exact absurd rfl ho
    · rw [hk'] at hkey
      cases hkey
  · intro x hx p' hp'
    simp only [List.mem_append, List.mem_cons, List.not_mem_nil, or_false] at hx
    rcases hx with hx | rfl | rfl
    · exact h.origins x hx p' hp'
    · rw [he] at hp'
      cases hp'
    · rw [he'] at hp'
      cases hp'

end KillKeys

lemma latestSet_clear {events : List Event} {e e' : Event} {p : KillSwitchCleared}
    {q : ApprovalRecorded} (he : e.payload = .killSwitchCleared p)
    (he' : e'.payload = .approvalRecorded q) : KillSwitch.latestSet (events ++ [e, e']) = none := by
  rw [show events ++ [e, e'] = events ++ [e] ++ [e'] by simp, KillSwitch.latestSet_append_singleton,
    he', KillSwitch.latestSet_append_singleton, he]

/-- No state names the clearing command as its source. -/
lemma KillSwitch.poll_source {events : List Event} (h : KillKeys events) (k : KillSwitch) :
    (k.poll events).1.source.getD .env ≠ .clear := by
  have hledger : (ledgerState events).source.getD .env ≠ .clear := by
    unfold ledgerState
    rcases hl : latestSet events with - | p
    · simp
    · have hmem : ∃ e ∈ events, e.payload = .killSwitchSet p := by
        clear h
        induction events using List.reverseRecOn with
        | nil => simp [latestSet] at hl
        | append_singleton events e ih =>
          rw [latestSet_append_singleton] at hl
          split at hl
          · rename_i q hq
            cases hl
            exact ⟨e, by simp, hq⟩
          · cases hl
          · obtain ⟨e', he', hp⟩ := ih hl
            exact ⟨e', by simp [he'], hp⟩
      obtain ⟨e, he, hp⟩ := hmem
      simpa using h.origins e he p hp
  have hfile : ∀ line, (fileState line).source.getD .env ≠ .clear := by
    intro line
    unfold fileState
    split_ifs <;> simp
  have hengaged : (k.engagedState events).1.source.getD .env ≠ .clear := by
    unfold engagedState
    split_ifs
    · simp
    · split
      · split_ifs
        · simp
        · exact hfile _
      · exact hfile _
    · unfold pendingState
      rcases k.pendingLine.bind parseKillLine with - | p
      · exact hledger
      · simp
  unfold poll
  rcases hs : k.engagedState events with ⟨state, k'⟩
  rw [hs] at hengaged
  dsimp only
  split_ifs <;> exact hengaged

namespace KillDesk

/-! ### What the operations do -/

/-- The next write of the latch lands, or there is no latch. -/
def latchLands (s : KillDesk) : Bool :=
  !s.switch.hasPath || match s.switch.file.outcomes with
    | [] | .lands :: _ => true
    | .refused :: _ | .breaksOff _ :: _ => false

lemma latchLands_iff {s : KillDesk} (hp : s.switch.hasPath = true) (text : Text) :
    s.latchLands = (s.switch.file.writeText text).1 := by
  unfold latchLands LatchFile.writeText
  rw [hp]
  rcases s.switch.file.outcomes with - | ⟨- | - | n, rest⟩ <;> rfl

lemma writeLatch_run (text : Text) (s : KillDesk) :
    ∃ file, (s.switch.hasPath = true → file = (s.switch.file.writeText text).2) ∧
      writeLatch text s = (if s.latchLands then .ok () else .error .osError,
        { s with switch := { s.switch with file := file } }) := by
  by_cases hp : s.switch.hasPath = true
  · refine ⟨_, fun _ => rfl, ?_⟩
    unfold writeLatch latchLands LatchFile.writeText
    simp only [hp, Bool.not_true, Bool.false_eq_true, if_false, Bool.false_or]
    rcases s.switch.file.outcomes with - | ⟨- | - | n, rest⟩ <;> rfl
  · have hwrite : writeLatch text s = (.ok (), s) := by simp [writeLatch, hp]
    have hlands : s.latchLands = true := by simp [latchLands, hp]
    exact ⟨s.switch.file, fun h => absurd h hp, by rw [hwrite, hlands]; rfl⟩

lemma onLedger_run {α : Type} (m : Prog LedgerStore Exc α) (s : KillDesk) :
    onLedger m s = ((m s.ledger).1, { s with ledger := (m s.ledger).2 }) := rfl

/-- The ledger once the tool's row is offered to it. -/
def toolLedger (inp : KillSwitchIn) (ts : ℤ) (st : LedgerStore) : LedgerStore :=
  if st.byKey (killSwitchKey inp ts) = none then st.commit [toolRow inp ts] else st

/-- **The tool** refuses an inconsistent ledger; else it offers its row and writes the latch. -/
lemma runKillSwitch_run (inp : KillSwitchIn) (ts : ℤ) (s : KillDesk) :
    (s.ledger.inconsistent = true ∧ runKillSwitch inp ts s = (.error .ledgerInconsistent, s)) ∨
    (s.ledger.inconsistent = false ∧ ∃ file,
      (s.switch.hasPath = true →
        file = (s.switch.file.writeText (killFileText inp.reason inp.flatten)).2) ∧
      runKillSwitch inp ts s = (if s.latchLands then .ok () else .error .osError,
        { switch := { s.switch with file := file }, ledger := toolLedger inp ts s.ledger })) := by
  have happend := LedgerStore.appendSuppressing_integrity (toolRow inp ts) s.ledger
  unfold runKillSwitch
  rcases hc : s.ledger.inconsistent with - | -
  · refine .inr ⟨rfl, ?_⟩
    have hrow : onLedger (LedgerStore.appendSuppressing [.integrityError] (toolRow inp ts)) s =
        (.ok (), { s with ledger := toolLedger inp ts s.ledger }) := by
      rw [onLedger_run, happend, hc]
      unfold toolLedger
      simp only [Bool.false_eq_true, if_false]
      show _ = (_, { s with ledger := if s.ledger.byKey (toolRow inp ts).key = none then _ else _ })
      split_ifs <;> rfl
    rw [Prog.bind_run_ok hrow]
    exact writeLatch_run _ { s with ledger := toolLedger inp ts s.ledger }
  · refine .inl ⟨rfl, ?_⟩
    refine Prog.bind_run_error ?_
    rw [onLedger_run, happend, hc]
    rfl

/-- The ledger with the rows of a clear. -/
def clearedLedger (approval : ApprovalRecord) (reason : Text) (ts : ℤ) (source : EventSource)
    (st : LedgerStore) : LedgerStore :=
  st.commit [clearedRow approval reason ts source, consumedRow approval reason ts source]

/-- **A clear** fails and changes nothing, or appends its two rows. -/
lemma requestClear_run (approval : ApprovalRecord) (reason : Text) (ts : ℤ) (source : EventSource)
    (env : Text) (s : KillDesk) :
    (∃ x, requestClear approval reason ts source env s = (.error x, s)) ∨
    requestClear approval reason ts source env s =
      (.ok (), { s with ledger := clearedLedger approval reason ts source s.ledger }) := by
  unfold requestClear
  rw [Prog.raiseIf_bind_run, Prog.raiseIf_bind_run]
  split_ifs with hhuman hkind
  · exact .inl ⟨_, rfl⟩
  · exact .inl ⟨_, rfl⟩
  rw [Prog.bind_run_ok (Prog.read_run _ _), Prog.raiseIf_bind_run]
  split_ifs with hlive
  · exact .inl ⟨_, rfl⟩
  rw [Prog.bind_run_ok (Prog.read_run _ _), Prog.raiseIf_bind_run]
  split_ifs with htaken
  · exact .inl ⟨_, rfl⟩
  rcases hb : LedgerStore.appendBatch
    [clearedRow approval reason ts source, consumedRow approval reason ts source] s.ledger with
    ⟨x | es, st⟩
  · obtain ⟨-, rfl, -⟩ := LedgerStore.appendBatch_error_iff.mp hb
    refine .inl ⟨x, Prog.bind_run_error ?_⟩
    rw [onLedger_run, hb]
  · rcases LedgerStore.appendBatch_ok_iff.mp hb with ⟨hn, -⟩ | ⟨-, -, -, -, rfl⟩
    · cases hn
    · refine .inr ?_
      have hrows : onLedger (LedgerStore.appendBatch
          [clearedRow approval reason ts source, consumedRow approval reason ts source]) s =
            (.ok es, { s with ledger := clearedLedger approval reason ts source s.ledger }) := by
        rw [onLedger_run, hb]
        rfl
      rw [Prog.bind_run_ok hrows]
      rfl

/-- Whether the process's observation appends a row. -/
def records (s : KillDesk) : Bool := KillSwitch.toRecord s.ledger.read s.polled

/-- The ledger once the process has observed the switch. -/
def observedLedger (ts : ℤ) (source : EventSource) (s : KillDesk) : LedgerStore :=
  if s.records && !s.ledger.inconsistent then
    if s.ledger.byKey (KillSwitch.setRow ts source s.ledger.read s.polled).key = none then
      s.ledger.commit [KillSwitch.setRow ts source s.ledger.read s.polled]
    else s.ledger
  else s.ledger

lemma observe_run (ts : ℤ) (source : EventSource) (s : KillDesk) :
    observe ts source s = (if s.records && s.ledger.inconsistent then .error .ledgerInconsistent
        else .ok (),
      { switch := (s.switch.poll s.ledger.read).2, ledger := s.observedLedger ts source }) := by
  unfold observe Prog.on observedLedger records polled
  rw [KillSwitch.observe_run]
  rcases KillSwitch.toRecord s.ledger.read (s.switch.poll s.ledger.read).1 with - | -
  · rfl
  · simp only [if_true, Bool.true_and, LedgerStore.appendSuppressing_integrity]
    rcases s.ledger.inconsistent with - | -
    · simp only [Bool.false_eq_true, if_false, Bool.not_false, if_true]
      split_ifs <;> rfl
    · rfl

/-! ### What the last operation reported -/

def active (s : KillDesk) : Bool := (foldedKill s.ledger.read).active

/-- What an operation reports: the switch set or cleared, or nothing when it fails. -/
def reported (s : KillDesk) : KillStep → Option Bool
  | .tool inp ts => if (runKillSwitch inp ts s).1.isOk then some true else none
  | .observe ts source =>
    if s.records && (KillDesk.observe ts source s).1.isOk then some true else none
  | .clear approval reason ts source env =>
    if (requestClear approval reason ts source env s).1.isOk then some false else none
  | _ => none

/-- A step, with the last report so far. -/
def logged (x : KillDesk × Option Bool) (op : KillStep) : KillDesk × Option Bool :=
  (x.1.step op, (x.1.reported op).or x.2)

/-- A tool's set finds the switch set, or its row is new exactly when its write of the latch
lands. -/
def SetRecorded (s : KillDesk) : KillStep → Prop
  | .tool inp ts => s.active = true ∨ s.ledger.inconsistent = true ∨
      (s.ledger.byKey (killSwitchKey inp ts) = none ↔ s.latchLands = true)
  | _ => True

section Reports

variable {s : KillDesk}

lemma active_iff : s.active = (KillSwitch.latestSet s.ledger.read).isSome :=
  (foldedKill_latest s.ledger.read).1

lemma read_toolLedger (inp : KillSwitchIn) (ts : ℤ) (st : LedgerStore) :
    (toolLedger inp ts st).read =
      if st.byKey (killSwitchKey inp ts) = none then
        st.read ++ [{ toolRow inp ts with seq := st.count + 1 }]
      else st.read := by
  unfold toolLedger
  split_ifs
  · rw [LedgerStore.read_commit]
    rfl
  · rfl

lemma toolLedger_latest (inp : KillSwitchIn) (ts : ℤ) (st : LedgerStore) :
    (KillSwitch.latestSet (toolLedger inp ts st).read).isSome =
      (decide (st.byKey (killSwitchKey inp ts) = none) ||
        (KillSwitch.latestSet st.read).isSome) := by
  rw [read_toolLedger]
  split_ifs with h
  · rw [KillSwitch.latestSet_append_singleton]
    simp [toolRow, h]
  · simp [h]

lemma killKeys_toolLedger {st : LedgerStore} (h : KillKeys st.read) (inp : KillSwitchIn) (ts : ℤ) :
    KillKeys (toolLedger inp ts st).read := by
  rw [read_toolLedger]
  split_ifs
  · refine h.set rfl (by simp) ?_
    intro o r d f n hk
    simp [toolRow, killSwitchKey] at hk
  · exact h

/-- While nothing is set, no row has the key of an observation. -/
lemma observed_fresh (h : KillKeys s.ledger.read) (hn : s.active = false) (ts : ℤ)
    (source : EventSource) :
    s.ledger.byKey (KillSwitch.setRow ts source s.ledger.read s.polled).key = none := by
  rw [LedgerStore.byKey_eq_none_iff]
  intro e he hk
  have hset := (h.epochs e he _ _ _ _ _ hk (KillSwitch.poll_source h s.switch)).2 rfl
  rw [active_iff, hset] at hn
  cases hn

lemma killKeys_observedLedger (h : KillKeys s.ledger.read) (ts : ℤ) (source : EventSource) :
    KillKeys (s.observedLedger ts source).read := by
  unfold observedLedger
  split_ifs
  · rw [LedgerStore.read_commit]
    refine h.set rfl (KillSwitch.poll_source h s.switch) ?_
    intro o r d f n hk
    cases hk
    rfl
  · exact h
  · exact h

lemma killKeys_clearedLedger {st : LedgerStore} (h : KillKeys st.read) (approval : ApprovalRecord)
    (reason : Text) (ts : ℤ) (source : EventSource) :
    KillKeys (clearedLedger approval reason ts source st).read := by
  unfold clearedLedger
  rw [LedgerStore.read_commit]
  exact h.clear rfl rfl rfl rfl

/-- **Every operation** keeps the keys in step with the clears. -/
theorem killKeys_step (h : KillKeys s.ledger.read) (op : KillStep) :
    KillKeys (s.step op).ledger.read := by
  cases op with
  | tool inp ts =>
    rcases runKillSwitch_run inp ts s with ⟨-, hr⟩ | ⟨-, file, -, hr⟩
    · simpa only [step, hr] using h
    · simpa only [step, hr] using killKeys_toolLedger h inp ts
  | observe ts source =>
    simp only [step, observe_run]
    exact killKeys_observedLedger h ts source
  | clear approval reason ts source env =>
    rcases requestClear_run approval reason ts source env s with ⟨x, hr⟩ | hr
    · simpa only [step, hr] using h
    · simpa only [step, hr] using killKeys_clearedLedger h approval reason ts source
  | verified intact =>
    have hread :
        (LedgerStore.verify { s.ledger with intact := intact }).2.read = s.ledger.read := by
      unfold LedgerStore.verify
      split_ifs <;> rfl
    simp only [step, hread]
    exact h
  | _ => exact h

/-- **One step** keeps the flag in line with the last report exactly when it meets the condition. -/
theorem flag_step (h : KillKeys s.ledger.read) {last : Option Bool}
    (hp : s.active = (last == some true)) (op : KillStep) :
    (s.step op).active = (((s.reported op).or last) == some true) ↔ s.SetRecorded op := by
  cases op with
  | tool inp ts =>
    rcases runKillSwitch_run inp ts s with ⟨hc, hr⟩ | ⟨hc, file, -, hr⟩
    · have hsame : s.reported (.tool inp ts) = none := by
        simp [reported, hr, Except.isOk, Except.toBool]
      simp only [step, hr, hsame, Option.none_or, SetRecorded, hc, true_or, or_true, iff_true]
      exact hp
    · have hafter : (s.step (.tool inp ts)).active =
          (decide (s.ledger.byKey (killSwitchKey inp ts) = none) || s.active) := by
        rw [active_iff, active_iff, ← toolLedger_latest]
        simp only [step, hr]
      have hreport : s.reported (.tool inp ts) = if s.latchLands then some true else none := by
        simp only [reported, hr]
        rcases s.latchLands with - | - <;> rfl
      simp only [hafter, hreport, SetRecorded, hc, Bool.false_eq_true, false_or]
      rcases ha : s.active with - | -
      · rw [ha] at hp
        rcases s.latchLands with - | -
        · simp [← hp]
        · simp
      · rw [ha] at hp
        rcases s.latchLands with - | - <;> simp [← hp]
  | observe ts source =>
    have hafter : (s.step (.observe ts source)).active =
        ((s.records && !s.ledger.inconsistent) || s.active) := by
      rw [active_iff]
      simp only [step, observe_run]
      unfold observedLedger
      split_ifs with hw hfresh
      · rw [LedgerStore.read_commit, show LedgerStore.stamp _ [_] = [_] from rfl,
          KillSwitch.latestSet_append_singleton]
        simp [KillSwitch.setRow, hw]
      · rcases ha : s.active with - | -
        · exact absurd (observed_fresh h ha ts source) hfresh
        · rw [active_iff] at ha
          simp [ha]
      · rw [active_iff]
        simp [hw]
    have hreport : s.reported (.observe ts source) =
        if s.records && !s.ledger.inconsistent then some true else none := by
      simp only [reported, observe_run]
      rcases s.records with - | -
      · rfl
      · rcases s.ledger.inconsistent with - | - <;> rfl
    simp only [hafter, hreport, SetRecorded, iff_true]
    rcases s.records && !s.ledger.inconsistent with - | -
    · simpa using hp
    · simp
  | clear approval reason ts source env =>
    rcases requestClear_run approval reason ts source env s with ⟨x, hr⟩ | hr
    · have hsame : s.reported (.clear approval reason ts source env) = none := by
        simp [reported, hr, Except.isOk, Except.toBool]
      simp only [step, hr, hsame, Option.none_or, SetRecorded, iff_true]
      exact hp
    · have hreport : s.reported (.clear approval reason ts source env) = some false := by
        simp [reported, hr, Except.isOk, Except.toBool]
      have hafter : (s.step (.clear approval reason ts source env)).active = false := by
        rw [active_iff]
        simp only [step, hr, clearedLedger, LedgerStore.read_commit]
        rw [show LedgerStore.stamp _ [_, _] = [_, _] from rfl, latestSet_clear rfl rfl]
        rfl
      simp [hafter, hreport, SetRecorded]
  | verified intact =>
    have hread :
        (LedgerStore.verify { s.ledger with intact := intact }).2.read = s.ledger.read := by
      unfold LedgerStore.verify
      split_ifs <;> rfl
    simp only [active, step, hread, reported, Option.none_or, SetRecorded, iff_true]
    exact hp
  | _ => exact ⟨fun _ => trivial, fun _ => hp⟩

end Reports

/-- The desk as its process starts, on an empty ledger. -/
def opened (env : Text) (hasPath : Bool) (file : LatchFile) (alerts : AlertChannel) : KillDesk where
  switch := KillSwitch.started env hasPath file alerts

/-- **The flag and the last report.** The folded ledger's flag is that of the last operation that
reported success, throughout a run, exactly when every tool's set made while nothing is set has a
new key and a write of the latch that lands, or neither. -/
theorem flag_last_report (env : Text) (hasPath : Bool) (file : LatchFile) (alerts : AlertChannel)
    (ops : List KillStep) :
    (∀ done, done <+: ops →
      let x := Runs.after logged (opened env hasPath file alerts, none) done
      x.1.active = (x.2 == some true)) ↔
    Runs.Along logged (fun x op => x.1.SetRecorded op) (opened env hasPath file alerts, none) ops :=
  Runs.always_iff_along (J := fun x : KillDesk × Option Bool => KillKeys x.1.ledger.read)
    (P := fun x : KillDesk × Option Bool => x.1.active = (x.2 == some true))
    (fun _ op h => killKeys_step h op) (fun _ op h hp => flag_step h hp op)
    (show KillKeys (opened env hasPath file alerts).ledger.read from KillKeys.nil) rfl ops

def sampleSet : KillSwitchIn where
  action := .set
  reason := "drill".toList
  reason_ge := by decide
  reason_le := by decide

def sampleClear : ApprovalRecord where
  id := 1
  kind := .killswitchClear
  ticketId := none
  mint := none
  sizeLamports := none
  tokenUnits := none
  maxSlippageBps := none
  exitRuleId := none
  approvedBy := .human "ann".toList
  rawMessage := "drill over".toList
  at_ := 0

/-- A set, a clear, and the same set within a minute: the last set reports success and records
nothing. -/
theorem repeated_set_lost :
    let x := Runs.after logged (opened [] true {} {}, none)
      [.tool sampleSet 0, .latch none, .clear sampleClear "drill over".toList 20000000 .paper [],
        .tool sampleSet 40000000]
    x.2 = some true ∧ x.1.active = false := by
  decide +kernel

end KillDesk

end PumpGrok
