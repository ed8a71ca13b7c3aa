import PumpGrok.Risk.AlertLines

/-!
A flatten request over the writers of the switch. The latch, the rows and what the process
remembers are written by each of them; a plain set overwrites the first two.
-/

namespace PumpGrok

namespace KillDesk

open KillSwitch

def foldedFlatten (s : KillDesk) : Bool := (foldedKill s.ledger.read).flattenRequested

/-- The latch or the ledger asks for a flatten. -/
def inForce (s : KillDesk) : Bool := s.switch.fileRequestsFlatten || s.foldedFlatten

/-- The next write of the latch breaks off. -/
def breaksNext (s : KillDesk) : Bool :=
  match s.switch.file.outcomes with
  | .breaksOff _ :: _ => true
  | _ => false

/-- A text of the latch is that of a plain line this process wrote. -/
def plainLatch (k : KillSwitch) (content : Text) : Bool :=
  match k.alertLatch with
  | some (false, reason) => latchLine content = reason
  | _ => false

/-- A `KILL FLATTEN` is among the lines the channel returns next. -/
def flattenPolled (k : KillSwitch) : Bool :=
  k.polledLines.any fun raw => (parseKillLine raw).any (·.1)

/-- The pending line asks for a flatten. -/
def flattenPending (k : KillSwitch) : Bool :=
  (k.pendingLine.bind parseKillLine).any (·.1)

/-- The steps that lower no flatten request: no plain set while one is in force, by the tool or by
hand; no write of the latch that breaks off meanwhile; no plain line left pending from before; and
no escalation left in memory from before a clear when a `KILL FLATTEN` is read. -/
def KeepsFlatten (s : KillDesk) : KillStep → Prop
  | .tool inp _ => s.switch.hasPath = true ∧
      if inp.flatten then s.switch.fileRequestsFlatten = true → s.breaksNext = false
      else s.inForce = false ∨ s.ledger.inconsistent = true
  | .latch (some content) => s.switch.hasPath = true ∧
      if latchRequests content then plainLatch s.switch content = false
      else s.switch.fileRequestsFlatten = false
  | .absorb => s.switch.hasPath = true ∧
      (s.switch.fileRequestsFlatten = true → s.switch.pendingLine.isSome = true →
        flattenPending s.switch = true ∧ s.breaksNext = false) ∧
      (flattenPolled s.switch = true → s.switch.flattenEscalated = true → s.switch.demands = true)
  | _ => True

instance (s : KillDesk) (op : KillStep) : Decidable (s.KeepsFlatten op) := by
  rcases op with - | (- | content) | - | - | - | - | - | - | - | - | - <;> unfold KeepsFlatten <;>
    infer_instance

/-- The lines one reading of the channel takes in: the pending one, and those read to their end. -/
def taken (k : KillSwitch) : List Text :=
  let lines :=
    fun k₁ : KillSwitch => handledLines k₁.polledLines { k₁ with alerts := k₁.alerts.poll.2 }
  match k.pendingLine with
  | none => lines k
  | some raw =>
    match k.savePending with
    | (true, k₁) => raw :: lines k₁
    | (false, _) => []

/-- A writer asks for a flatten, and its request is accepted: the tool returns, the hand writes the
latch, or the process takes in a `KILL FLATTEN`. -/
def Asks (s : KillDesk) : KillStep → Prop
  | .tool inp ts => inp.flatten = true ∧ (runKillSwitch inp ts s).1.isOk = true
  | .latch (some content) => latchRequests content = true
  | .absorb => (taken s.switch).any (fun raw => (parseKillLine raw).any (·.1)) = true
  | _ => False

instance (s : KillDesk) (op : KillStep) : Decidable (s.Asks op) := by
  rcases op with - | (- | content) | - | - | - | - | - | - | - | - | - <;> unfold Asks <;>
    infer_instance

end KillDesk

/-- Neither a clear nor the removal of the latch that goes before one. -/
def KillStep.engages : KillStep → Bool
  | .clear .. | .latch none => false
  | _ => true

/-- An observed row with a flatten that was not cleared is not followed by a plain set. -/
def FlattenKeys (events : List Event) : Prop :=
  ∀ e ∈ events, ∀ o r d n, e.key = .killSwitch o r d true n → o ≠ .clear →
    n = KillSwitch.clearEpoch events →
    (KillSwitch.latestSet events).map KillSwitchSet.flattenRequested = some true

namespace FlattenKeys

open KillSwitch

variable {events : List Event}

/-- A set row is appended: a plain one does not follow a flatten in force. -/
lemma set (h : FlattenKeys events) {e : Event} {p : KillSwitchSet}
    (he : e.payload = .killSwitchSet p)
    (hp : p.flattenRequested = true ∨
      (latestSet events).map KillSwitchSet.flattenRequested ≠ some true)
    (hkey : ∀ o r d f n, e.key = .killSwitch o r d f n → f = p.flattenRequested) :
    FlattenKeys (events ++ [e]) := by
  have hset : latestSet (events ++ [e]) = some p := by
    rw [latestSet_append_singleton, he]
  have hepoch : clearEpoch (events ++ [e]) = clearEpoch events := by
    rw [clearEpoch_append]
    simp [clearEpoch, he]
  intro x hx o r d n hxk ho hn
  rw [hepoch] at hn
  rw [hset, Option.map_some, Option.some.injEq]
  rcases List.mem_append.mp hx with hx | hx
  · exact hp.resolve_right fun hne => hne (h x hx o r d n hxk ho hn)
  · rw [List.mem_singleton.mp hx] at hxk
    exact (hkey _ _ _ _ _ hxk).symm

/-- The rows of a clear are appended: no row is keyed by the clears there are now. -/
lemma clear (hk : KillKeys events) {e e' : Event} {p : KillSwitchCleared} {q : ApprovalRecorded}
    {reason : Text} {day : ℤ} {approval : ℕ} (he : e.payload = .killSwitchCleared p)
    (hek : e.key = .killSwitch .clear reason day false 0) (he' : e'.payload = .approvalRecorded q)
    (hek' : e'.key = .consumed approval) : FlattenKeys (events ++ [e, e']) := by
  have hepoch : clearEpoch (events ++ [e, e']) = clearEpoch events + 1 := by
    rw [clearEpoch_append]
    simp [clearEpoch, he, he']
  intro x hx o r d n hxk ho hn
  simp only [List.mem_append, List.mem_cons, List.not_mem_nil, or_false] at hx
  rcases hx with hx | rfl | rfl
  · have := (hk.epochs x hx o r d true n hxk ho).1
    omega
  · rw [hek] at hxk
    cases hxk
  · rw [hek'] at hxk
    cases hxk

end FlattenKeys

namespace KillDesk

open KillSwitch

/-- What holds along a run that lowers no request. -/
structure FlattenInv (s : KillDesk) : Prop where
  recalls : s.switch.Recalls
  keys : KillKeys s.ledger.read
  flattenKeys : FlattenKeys s.ledger.read

variable {s : KillDesk}

lemma foldedFlatten_iff : s.foldedFlatten = true ↔
    (latestSet s.ledger.read).map KillSwitchSet.flattenRequested = some true := by
  unfold foldedFlatten
  rw [(foldedKill_latest s.ledger.read).2]
  rcases latestSet s.ledger.read with - | p <;> simp

lemma read_verify (st : LedgerStore) (intact : Bool) :
    (LedgerStore.verify { st with intact := intact }).2.read = st.read := by
  unfold LedgerStore.verify
  split_ifs <;> rfl

/-! ### The process -/

lemma recalls_absorb (h : s.switch.Recalls) (hpath : s.switch.hasPath = true) :
    s.switch.absorbAlerts.Recalls := by
  rcases absorbAlerts_run hpath h with ⟨file, -, -, -, -, hr⟩ | ⟨k₁, hready, hr⟩
  · rw [hr]
    exact ⟨h.latch, h.pending⟩
  · obtain ⟨k', hk', hrun⟩ := finished_run k₁
    have hlines := absorbLines_absorbs (k := { k₁ with alerts := k₁.alerts.poll.2 })
      k₁.polledLines (hready.frame.1.trans hpath)
    have hrec : k'.Recalls := by
      rw [← hk']
      exact hlines.recalls ⟨(hready.recalls h).latch, (hready.recalls h).pending⟩
    rw [hr]
    rcases hrun with ⟨-, hf⟩ | ⟨-, hf⟩
    · rw [hf]
      exact ⟨hrec.latch, hrec.pending⟩
    · rw [hf]
      exact hrec

lemma recalls_poll {k : KillSwitch} (h : k.Recalls) (events : List Event) :
    (k.poll events).2.Recalls := by
  obtain ⟨latch, escalated, hk, hlatch, -⟩ := poll_frame k events
  rw [hk]
  refine ⟨fun r hr => ?_, h.pending⟩
  rcases hlatch with rfl | rfl
  · exact h.latch r hr
  · cases hr

lemma recalls_started (env : Text) (hasPath : Bool) (file : LatchFile) (alerts : AlertChannel) :
    (KillSwitch.started env hasPath file alerts).Recalls :=
  ⟨fun _ h => (by cases h), fun _ h => (by cases h)⟩

/-! ### The rows -/

lemma flattenKeys_toolLedger {inp : KillSwitchIn} (h : FlattenKeys s.ledger.read)
    (hp : inp.flatten = true ∨ s.foldedFlatten = false) (ts : ℤ) :
    FlattenKeys (toolLedger inp ts s.ledger).read := by
  rw [read_toolLedger]
  split_ifs
  · refine h.set (p := ⟨.tool, inp.reason, inp.flatten, "risk.kill_switch".toList⟩) rfl ?_ ?_
    · refine hp.imp_right fun hf => ?_
      rw [ne_eq, ← foldedFlatten_iff, hf]
      simp
    · intro o r d f n hk
      simp [toolRow, killSwitchKey] at hk
  · exact h

lemma records_plain (h : s.records = true) (hf : s.polled.flattenRequested = false) :
    latestSet s.ledger.read = none := by
  unfold records toRecord at h
  rcases hl : latestSet s.ledger.read with - | p
  · rfl
  · simp [hl, hf] at h

lemma flattenKeys_observedLedger (h : FlattenKeys s.ledger.read) (ts : ℤ) (source : EventSource) :
    FlattenKeys (s.observedLedger ts source).read := by
  unfold observedLedger
  split_ifs with hw
  · rw [LedgerStore.read_commit]
    simp only [Bool.and_eq_true] at hw
    refine h.set (p := ⟨s.polled.source.getD .env, s.polled.reason, s.polled.flattenRequested, _⟩)
      rfl ?_ ?_
    · rcases hf : s.polled.flattenRequested with - | -
      · exact .inr (by simp [records_plain hw.1 hf])
      · exact .inl rfl
    · intro o r d f n hk
      cases hk
      rfl
  · exact h
  · exact h

/-- **One step** that lowers no request keeps what holds along such runs. -/
theorem flattenInv_step (h : s.FlattenInv) {op : KillStep} (hc : s.KeepsFlatten op) :
    (s.step op).FlattenInv := by
  refine ⟨?_, killKeys_step h.keys op, ?_⟩
  · cases op with
    | tool inp ts =>
      rcases runKillSwitch_run inp ts s with ⟨-, hr⟩ | ⟨-, file, -, hr⟩
      · simpa only [step, hr] using h.recalls
      · simp only [step, hr]
        exact ⟨h.recalls.latch, h.recalls.pending⟩
    | absorb => exact recalls_absorb h.recalls hc.1
    | poll => exact recalls_poll h.recalls _
    | observe ts source =>
      simp only [step, observe_run]
      exact recalls_poll h.recalls _
    | clear approval reason ts source env =>
      rcases requestClear_run approval reason ts source env s with ⟨x, hr⟩ | hr
      · simpa only [step, hr] using h.recalls
      · simpa only [step, hr] using h.recalls
    | restart env => exact recalls_started ..
    | verified intact => exact h.recalls
    | _ => exact ⟨h.recalls.latch, h.recalls.pending⟩
  · cases op with
    | tool inp ts =>
      rcases runKillSwitch_run inp ts s with ⟨-, hr⟩ | ⟨hcons, file, -, hr⟩
      · simpa only [step, hr] using h.flattenKeys
      · simp only [step, hr]
        refine flattenKeys_toolLedger h.flattenKeys ?_ ts
        have hkeep := hc.2
        split_ifs at hkeep with hflat
        · exact .inl hflat
        · rw [hcons] at hkeep
          simp only [inForce, Bool.or_eq_false_iff, Bool.false_eq_true, or_false] at hkeep
          exact .inr hkeep.2
    | observe ts source =>
      simp only [step, observe_run]
      exact flattenKeys_observedLedger h.flattenKeys ts source
    | clear approval reason ts source env =>
      rcases requestClear_run approval reason ts source env s with ⟨x, hr⟩ | hr
      · simpa only [step, hr] using h.flattenKeys
      · simp only [step, hr, clearedLedger, LedgerStore.read_commit]
        exact FlattenKeys.clear h.keys rfl rfl rfl rfl
    | verified intact =>
      simp only [step, read_verify]
      exact h.flattenKeys
    | _ => exact h.flattenKeys

/-! ### A request stays -/

lemma demands_congr {k k' : KillSwitch} (hp : k'.hasPath = k.hasPath)
    (hc : k'.file.content = k.file.content) (hl : k'.alertLatch = k.alertLatch)
    (h : k.demands = true) : k'.demands = true := by
  obtain ⟨hf, hplain⟩ := demands_iff.mp h
  obtain ⟨hpath, content, hcontent, hr⟩ := fileRequestsFlatten_iff.mp hf
  refine demands_of_content (hp.trans hpath) (hc.trans hcontent) hr fun reason hreason => ?_
  rw [← firstLine_of_content hcontent]
  exact hplain reason (hl ▸ hreason)

lemma demands_finished {k : KillSwitch} (hpath : k.hasPath = true) (h : k.demands = true) :
    k.finished.demands = true := by
  obtain ⟨k', hk', hrun⟩ := finished_run k
  have hlines : k'.demands = true := by
    rw [← hk']
    exact (absorbLines_absorbs (k := { k with alerts := k.alerts.poll.2 }) _ hpath).demands
      (demands_congr (k := k) rfl rfl rfl h)
  rcases hrun with ⟨-, hf⟩ | ⟨-, hf⟩
  · rw [hf]
    exact demands_congr rfl rfl rfl hlines
  · rw [hf]
    exact hlines

/-- A flatten among the lines read to their end is demanded. -/
lemma demands_handled {k : KillSwitch} (hpath : k.hasPath = true) (hs : k.Stands)
    {raw reason : Text}
    (hr : raw ∈ handledLines k.polledLines { k with alerts := k.alerts.poll.2 })
    (hp : parseKillLine raw = some (true, reason)) : k.finished.demands = true := by
  obtain ⟨k', hk', hrun⟩ := finished_run k
  have hlines : k'.demands = true := by
    rw [← hk']
    exact (absorbLines_handled (k := { k with alerts := k.alerts.poll.2 }) hpath
      (fun _ h => demands_congr (k := k) rfl rfl rfl (hs h)) hr hp).demands rfl
  rcases hrun with ⟨-, hf⟩ | ⟨-, hf⟩
  · rw [hf]
    exact demands_congr rfl rfl rfl hlines
  · rw [hf]
    exact hlines

/-- A saved pending flatten is demanded. -/
lemma Ready.demands {k k₁ : KillSwitch} (hpath : k.hasPath = true) (hready : Ready k k₁)
    (hflat : k.pendingLine.isSome = true → flattenPending k = true)
    (h : k.demands = true ∨ k.pendingLine.isSome = true) : k₁.demands = true := by
  cases hready with
  | idle hl => exact h.resolve_right (by simp [hl])
  | @saved raw reason flatten file hl hs hp hc ho =>
    have hf : flatten = true := by simpa [flattenPending, hl, hp] using hflat (by simp [hl])
    subst hf
    exact demands_of_content hpath hc (latchRequests_flatten _) fun r hr => by cases hr

lemma breaksNext_iff : s.breaksNext = false ↔
    ∀ n rest, s.switch.file.outcomes ≠ .breaksOff n :: rest := by
  unfold breaksNext
  split
  · rename_i n rest h
    simp [h]
  · rename_i h
    simp only [true_iff]
    exact h

/-- The tool's flatten is in the latch once its write lands, and leaves one that stands. -/
lemma demands_toolLatch {k : KillSwitch} (hr : k.Recalls) (hpath : k.hasPath = true) (reason : Text)
    (h : (k.file.writeText (killFileText reason true)).1 = true ∨
      k.demands = true ∧ ∀ n rest, k.file.outcomes ≠ .breaksOff n :: rest) :
    KillSwitch.demands
      { k with file := (k.file.writeText (killFileText reason true)).2 } = true := by
  rcases writeText_cases (killFileText reason true) k.file with
    ⟨file, hw, hc, -⟩ | ⟨file, hw, -, hc⟩
  · rw [hw]
    refine demands_of_content hpath hc (latchRequests_flatten reason) fun r hl he => ?_
    exact hr.latch r hl (he ▸ latchLine_flatten_word reason)
  · rw [hw] at h ⊢
    obtain ⟨hd, hb⟩ := h.resolve_left (by simp)
    rcases hc with hc | ⟨n, rest, hc⟩
    · exact demands_congr (k := k) rfl hc rfl hd
    · exact absurd hc (hb n rest)

/-- **A demanded flatten** stays demanded, over every step that lowers no request. -/
theorem demands_step (h : s.FlattenInv) {op : KillStep} (hc : s.KeepsFlatten op)
    (he : op.engages = true) (hd : s.switch.demands = true) :
    (s.step op).switch.demands = true := by
  have hrequests := (demands_iff.mp hd).1
  have hpoll : (s.switch.poll s.ledger.read).2.demands = true := by
    obtain ⟨latch, escalated, hk, hlatch, -⟩ := poll_frame s.switch s.ledger.read
    rw [hk]
    rcases hlatch with rfl | rfl
    · exact demands_congr rfl rfl rfl hd
    · obtain ⟨hpath, content, hcontent, hr⟩ := fileRequestsFlatten_iff.mp hrequests
      exact demands_of_content hpath hcontent hr fun r hr => by cases hr
  cases op with
  | tool inp ts =>
    rcases runKillSwitch_run inp ts s with ⟨-, hr⟩ | ⟨hcons, file, hfile, hr⟩
    · simpa only [step, hr] using hd
    · obtain ⟨hpath, hkeep⟩ := hc
      simp only [step, hr]
      rw [hfile hpath]
      split_ifs at hkeep with hflat
      · rw [hflat]
        exact demands_toolLatch h.recalls hpath inp.reason
          (.inr ⟨hd, breaksNext_iff.mp (hkeep hrequests)⟩)
      · simp [inForce, hrequests, hcons] at hkeep
  | latch content =>
    rcases content with - | content
    · cases he
    · obtain ⟨hpath, hkeep⟩ := hc
      split_ifs at hkeep with hr
      · refine demands_of_content hpath rfl hr fun reason hl heq => ?_
        simp only [plainLatch] at hkeep
        rw [show s.switch.alertLatch = some (false, reason) from hl] at hkeep
        simp [heq] at hkeep
      · simp [hrequests] at hkeep
  | absorb =>
    obtain ⟨hpath, hpending, -⟩ := hc
    rcases absorbAlerts_run hpath h.recalls with
      ⟨file, hl, -, hcontent, -, hr⟩ | ⟨k₁, hready, hr⟩
    · simp only [step, hr]
      rcases hcontent with hcontent | ⟨n, rest, hcontent⟩
      · exact demands_congr (k := s.switch) rfl hcontent rfl hd
      · exact absurd hcontent (breaksNext_iff.mp (hpending hrequests hl).2 n rest)
    · simp only [step, hr]
      exact demands_finished (hready.frame.1.trans hpath)
        (Ready.demands hpath hready (fun hl => (hpending hrequests hl).1) (.inl hd))
  | poll => exact hpoll
  | observe ts source =>
    simp only [step, observe_run]
    exact hpoll
  | clear approval reason ts source env => cases he
  | restart env =>
    obtain ⟨hpath, content, hcontent, hr⟩ := fileRequestsFlatten_iff.mp hrequests
    exact demands_of_content hpath hcontent hr fun r hr => by cases hr
  | verified intact => exact hd
  | _ => exact demands_congr rfl rfl rfl hd

/-- **An accepted request** is demanded. -/
theorem demands_of_asks (h : s.FlattenInv) {op : KillStep} (hc : s.KeepsFlatten op)
    (ha : s.Asks op) : (s.step op).switch.demands = true := by
  cases op with
  | tool inp ts =>
    obtain ⟨hflat, hok⟩ := ha
    rcases runKillSwitch_run inp ts s with ⟨-, hr⟩ | ⟨hcons, file, hfile, hr⟩
    · simp [hr, Except.isOk, Except.toBool] at hok
    · have hlands : s.latchLands = true := by
        rcases hl : s.latchLands with - | -
        · simp [hr, hl, Except.isOk, Except.toBool] at hok
        · rfl
      simp only [step, hr]
      rw [hfile hc.1, hflat]
      rw [latchLands_iff hc.1 (killFileText inp.reason true)] at hlands
      exact demands_toolLatch h.recalls hc.1 inp.reason (.inl hlands)
  | latch content =>
    rcases content with - | content
    · exact ha.elim
    · obtain ⟨hpath, hkeep⟩ := hc
      rw [if_pos (show latchRequests content = true from ha)] at hkeep
      refine demands_of_content hpath rfl ha fun reason hl heq => ?_
      simp only [plainLatch] at hkeep
      rw [show s.switch.alertLatch = some (false, reason) from hl] at hkeep
      simp [heq] at hkeep
  | absorb =>
    obtain ⟨hpath, hpending, hstale⟩ := hc
    obtain ⟨raw, hraw, hparse⟩ := List.any_eq_true.mp ha
    obtain ⟨⟨flatten, reason⟩, hp, hflat⟩ := (Option.any_eq_true _ _).mp hparse
    obtain rfl : flatten = true := hflat
    have hpolled : ∀ k₁ : KillSwitch, k₁.alerts = s.switch.alerts →
        raw ∈ handledLines k₁.polledLines { k₁ with alerts := k₁.alerts.poll.2 } →
        flattenPolled s.switch = true := by
      intro k₁ halerts hr
      have hmem := handledLines_subset _ _ hr
      rw [polledLines, halerts] at hmem
      exact List.any_eq_true.mpr ⟨raw, hmem, by simp [hp]⟩
    rcases absorbAlerts_run hpath h.recalls with
      ⟨file, hl, -, -, hs, -⟩ | ⟨k₁, hready, hr⟩
    · obtain ⟨line, hl⟩ := Option.isSome_iff_exists.mp hl
      simp [taken, hl, hs] at hraw
    · have hpath₁ := hready.frame.1.trans hpath
      have halerts := hready.frame.2.2.1
      have hdemands : s.switch.demands = true → k₁.demands = true := fun hd =>
        Ready.demands hpath hready
          (fun hl => (hpending (demands_iff.mp hd).1 hl).1) (.inl hd)
      have hlines : raw ∈ handledLines k₁.polledLines { k₁ with alerts := k₁.alerts.poll.2 } →
          k₁.finished.demands = true := fun hmem =>
        demands_handled hpath₁ (fun hesc => hdemands (hstale (hpolled k₁ halerts hmem)
          (by rw [← hready.frame.2.2.2]; exact hesc))) hmem hp
      simp only [step, hr]
      cases hready with
      | idle hl =>
        rw [taken, hl] at hraw
        exact hlines hraw
      | @saved line reason' flatten file hl hs hp' hc ho =>
        rw [taken, hl, hs] at hraw
        rcases List.mem_cons.mp hraw with rfl | hmem
        · cases hp.symm.trans hp'
          exact demands_finished hpath (demands_of_content hpath hc (latchRequests_flatten _)
            fun r hr => by cases hr)
        · exact hlines hmem
  | _ => exact ha.elim

/-- A folded flatten stays, over every step that lowers no request and clears nothing. -/
theorem foldedFlatten_step {op : KillStep} (hc : s.KeepsFlatten op) (he : op.engages = true)
    (hf : s.foldedFlatten = true) : (s.step op).foldedFlatten = true := by
  have hlatest := foldedFlatten_iff.mp hf
  cases op with
  | tool inp ts =>
    rcases runKillSwitch_run inp ts s with ⟨-, hr⟩ | ⟨hcons, file, -, hr⟩
    · simpa only [step, hr] using hf
    · obtain ⟨-, hkeep⟩ := hc
      split_ifs at hkeep with hflat
      · simp only [step, hr]
        rw [foldedFlatten_iff, read_toolLedger]
        split_ifs
        · rw [latestSet_append_singleton]
          simp [toolRow, hflat]
        · exact hlatest
      · simp [inForce, hf, hcons] at hkeep
  | observe ts source =>
    have hrecords : s.records = false := by
      unfold records toRecord
      obtain ⟨p, hp, hpf⟩ := Option.map_eq_some_iff.mp hlatest
      simp [hp, hpf]
    simp only [step, observe_run]
    rw [foldedFlatten_iff]
    simpa [observedLedger, hrecords] using hlatest
  | clear approval reason ts source env => cases he
  | verified intact =>
    rw [foldedFlatten_iff]
    simpa only [step, read_verify] using hlatest
  | _ => exact hf

/-- **An observation** of a demanded flatten leaves it on the ledger. -/
theorem foldedFlatten_observe (h : s.FlattenInv) (hd : s.switch.demands = true)
    (hcons : s.ledger.inconsistent = false) (ts : ℤ) (source : EventSource) :
    (s.step (.observe ts source)).foldedFlatten = true := by
  obtain ⟨hactive, hflat⟩ : s.polled.active = true ∧ s.polled.flattenRequested = true :=
    poll_demands hd s.ledger.read
  simp only [step, observe_run]
  rw [foldedFlatten_iff]
  unfold observedLedger
  rcases hrec : s.records with - | -
  · -- the newest row asks for a flatten already
    simp only [Bool.false_and, Bool.false_eq_true, if_false]
    unfold records toRecord at hrec
    rcases hl : latestSet s.ledger.read with - | p
    · simp [hl, hactive] at hrec
    · simpa [hl, hactive, hflat] using hrec
  · simp only [hcons, Bool.not_false, Bool.and_true, if_true]
    split_ifs with hfresh
    · rw [LedgerStore.read_commit, show LedgerStore.stamp _ [_] = [_] from rfl,
        latestSet_append_singleton]
      simp [setRow, hflat]
    · obtain ⟨e, he⟩ := Option.ne_none_iff_exists'.mp hfresh
      obtain ⟨hmem, hkey⟩ := LedgerStore.byKey_some he
      refine h.flattenKeys e hmem (s.polled.source.getD .env) s.polled.reason (utcDay ts)
        (clearEpoch s.ledger.read) ?_ (poll_source h.keys s.switch) rfl
      rw [hkey, setRow, hflat]

/-- What an accepted request makes of every later state: the latch, the process and one started in
its place ask for a flatten. -/
structure Flattening (s : KillDesk) : Prop where
  latch : s.switch.fileRequestsFlatten = true
  process : s.polled.active = true ∧ s.polled.flattenRequested = true
  restart : ∀ env, (s.restarted env).polled.active = true ∧
    (s.restarted env).polled.flattenRequested = true

lemma flattening_of_demands (h : s.switch.demands = true) : s.Flattening := by
  obtain ⟨hf, -⟩ := demands_iff.mp h
  refine ⟨hf, poll_demands h _, fun env => poll_demands ?_ _⟩
  obtain ⟨hpath, content, hcontent, hr⟩ := fileRequestsFlatten_iff.mp hf
  exact demands_of_content hpath hcontent hr fun r hr => by cases hr

lemma flattenInv_opened (env : Text) (hasPath : Bool) (file : LatchFile) (alerts : AlertChannel) :
    (opened env hasPath file alerts).FlattenInv where
  recalls := recalls_started ..
  keys := show KillKeys (opened env hasPath file alerts).ledger.read from KillKeys.nil
  flattenKeys := fun e he => by simp [opened, LedgerStore.read] at he

/-- What a run of engagements keeps of a demanded flatten. -/
theorem demands_after (h : s.FlattenInv) {ops : List KillStep}
    (hc : Runs.Along step KeepsFlatten s ops) (he : ∀ op ∈ ops, op.engages = true)
    (hd : s.switch.demands = true) :
    (Runs.after step s ops).FlattenInv ∧ (Runs.after step s ops).switch.demands = true := by
  induction ops generalizing s with
  | nil => exact ⟨h, hd⟩
  | cons op ops ih =>
    have hop := he op List.mem_cons_self
    exact ih (flattenInv_step h hc.1) hc.2 (fun op' hop' => he op' (List.mem_cons_of_mem _ hop'))
      (demands_step h hc.1 hop hd)

theorem foldedFlatten_after {ops : List KillStep} (hc : Runs.Along step KeepsFlatten s ops)
    (he : ∀ op ∈ ops, op.engages = true) (hf : s.foldedFlatten = true) :
    (Runs.after step s ops).foldedFlatten = true := by
  induction ops generalizing s with
  | nil => exact hf
  | cons op ops ih =>
    exact ih hc.2 (fun op' hop' => he op' (List.mem_cons_of_mem _ hop'))
      (foldedFlatten_step hc.1 (he op List.mem_cons_self) hf)

/-- **A flatten request is not lowered** in a run whose steps lower none. Once a request is accepted
and until a clear, the latch, the process and any process started later ask for the flatten. The
folded ledger does so from the first observation on, and where it does so it goes on to. -/
theorem flatten_kept (env : Text) (hasPath : Bool) (file : LatchFile) (alerts : AlertChannel)
    (before : List KillStep) (ask : KillStep) (later : List KillStep)
    (hc : Runs.Along step KeepsFlatten (opened env hasPath file alerts) (before ++ ask :: later))
    (ha : (Runs.after step (opened env hasPath file alerts) before).Asks ask)
    (he : ∀ op ∈ later, op.engages = true) :
    let asked := Runs.after step (opened env hasPath file alerts) (before ++ [ask])
    (Runs.after step asked later).Flattening ∧
    (∀ mid ts source rest, later = mid ++ .observe ts source :: rest →
      (Runs.after step asked mid).ledger.inconsistent = false →
      (Runs.after step asked later).foldedFlatten = true) ∧
    ∀ mid rest, later = mid ++ rest → (Runs.after step asked mid).foldedFlatten = true →
      (Runs.after step asked later).foldedFlatten = true := by
  intro asked
  obtain ⟨hbefore, hask, hlater⟩ : Runs.Along step KeepsFlatten (opened env hasPath file alerts)
        before ∧ (Runs.after step (opened env hasPath file alerts) before).KeepsFlatten ask ∧
      Runs.Along step KeepsFlatten asked later := by
    have := Runs.along_append.mp hc
    rw [show asked = (Runs.after step (opened env hasPath file alerts) before).step ask from
      Runs.after_snoc ..]
    exact this
  have hinv : (Runs.after step (opened env hasPath file alerts) before).FlattenInv :=
    Runs.invariant_along (I := FlattenInv) (C := KeepsFlatten)
      (fun s op h hc => flattenInv_step h hc)
      (flattenInv_opened env hasPath file alerts) hbefore
  have hasked : asked.FlattenInv ∧ asked.switch.demands = true := by
    rw [show asked = (Runs.after step (opened env hasPath file alerts) before).step ask from
      Runs.after_snoc ..]
    exact ⟨flattenInv_step hinv hask, demands_of_asks hinv hask ha⟩
  refine ⟨flattening_of_demands (demands_after hasked.1 hlater he hasked.2).2, ?_, ?_⟩
  · rintro mid ts source rest rfl hcons
    obtain ⟨hmid, -, hrest⟩ := Runs.along_append.mp hlater
    obtain ⟨hi, hd⟩ := demands_after hasked.1 hmid
      (fun op hop => he op (List.mem_append_left _ hop)) hasked.2
    rw [Runs.after_append, Runs.after_cons]
    exact foldedFlatten_after hrest
      (fun op hop => he op (List.mem_append_right _ (List.mem_cons_of_mem _ hop)))
      (foldedFlatten_observe hi hd hcons ts source)
  · rintro mid rest rfl hf
    rw [Runs.after_append]
    exact foldedFlatten_after (Runs.along_append.mp hlater).2
      (fun op hop => he op (List.mem_append_right _ hop)) hf

def sampleFlatten : KillSwitchIn := { sampleSet with action := .flattenRequest }

/-- A plain set, an alert that asks for a flatten, and a restart. -/
theorem flatten_kept_sample :
    let asked := Runs.after step (opened [] true {} {}) ([.tool sampleSet 0,
      .messages [some "KILL FLATTEN now".toList]] ++ [.absorb])
    (Runs.after step asked [.observe 1 .paper, .restart []]).Flattening ∧
      (Runs.after step asked [.observe 1 .paper, .restart []]).foldedFlatten = true := by
  have h := flatten_kept [] true {} {} [.tool sampleSet 0,
    .messages [some "KILL FLATTEN now".toList]] .absorb [.observe 1 .paper, .restart []]
    (by decide +kernel) (by decide +kernel) (by decide)
  exact ⟨h.1, h.2.1 [] 1 .paper [.restart []] rfl (by decide +kernel)⟩

/-- A plain set after a flatten request lowers it on the ledger, in the latch and for
the process. -/
theorem flatten_lowered :
    let s :=
      Runs.after step (opened [] true {} {}) [.tool sampleFlatten 0, .tool sampleSet 60000000]
    (Runs.after step (opened [] true {} {}) []).Asks (.tool sampleFlatten 0) ∧
      s.foldedFlatten = false ∧ s.switch.fileRequestsFlatten = false ∧
      s.polled.flattenRequested = false ∧ (s.restarted []).polled.flattenRequested = false := by
  decide +kernel

end KillDesk

end PumpGrok
