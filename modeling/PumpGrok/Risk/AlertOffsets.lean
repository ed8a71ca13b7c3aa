import PumpGrok.Risk.FlattenKept

/-!
The offset of the alert channel against the latch. A line counts as read once the offset passes it,
so whatever it asks for has to be in the latch by then.
-/

namespace PumpGrok

/-- The lines of an update. -/
def AlertChannel.linesAt (ch : AlertChannel) (i : ℕ) : List Text :=
  match ch.updates[i]? with
  | some (some text) => PyText.splitLines text
  | _ => []

/-- What the channel's own runs are made of: no writer but the process, and the clears. -/
def KillStep.ofChannel : KillStep → Bool
  | .tool .. | .latch (some _) => false
  | _ => true

def KillStep.restarts : KillStep → Bool
  | .restart _ => true
  | _ => false

namespace KillDesk

open KillSwitch

/-- A plain `KILL` is among the lines the channel returns next. -/
def plainPolled (k : KillSwitch) : Bool :=
  k.polledLines.any fun raw => (parseKillLine raw).any (!·.1)

/-- The readings that lose no line. A request that fails finds every line of the last one read; a
`KILL FLATTEN` does not meet an escalation from before a clear; and a plain `KILL` does not meet a
switch set by the environment alone. -/
def LosesNoLine (s : KillDesk) : KillStep → Prop
  | .absorb =>
    (s.switch.alerts.reachable = false → s.switch.alerts.next ≤ s.switch.alerts.committed ∨
      s.switch.pendingLine.isSome = true ∧ s.latchLands = false) ∧
    (flattenPolled s.switch = true → s.switch.flattenEscalated = true →
      flattenPending s.switch = true ∨ s.switch.pendingLine = none ∧ s.switch.demands = true) ∧
    (plainPolled s.switch = true → envEngaged s.switch.envStart = true → s.switch.isFile = true)
  | _ => True

instance (s : KillDesk) (op : KillStep) : Decidable (s.LosesNoLine op) := by
  cases op <;> unfold LosesNoLine <;> infer_instance

/-- What a kill line that was passed by has left: a latch, and the flatten it asked for. -/
structure Latched (k : KillSwitch) (flatten : Bool) : Prop where
  isFile : k.isFile = true
  idle : k.pendingLine = none
  demands : flatten = true → k.demands = true

/-- What holds along every run of the channel. -/
structure Reading (s : KillDesk) : Prop where
  hasPath : s.switch.hasPath = true
  recalls : s.switch.Recalls
  next_le : s.switch.alerts.next ≤ s.switch.alerts.updates.length
  committed_le : s.switch.alerts.committed ≤ s.switch.alerts.updates.length

/-- What holds along a run that loses no line, with the lines from `base` on. -/
structure Passed (base : ℕ) (s : KillDesk) : Prop extends s.Reading where
  latched : ∀ i raw flatten reason, base ≤ i → i < s.switch.alerts.committed →
    raw ∈ s.switch.alerts.linesAt i → parseKillLine raw = some (flatten, reason) →
    Latched s.switch flatten

lemma mem_polledLines {k : KillSwitch} (hr : k.alerts.reachable = true) {i : ℕ} {raw : Text}
    (hi : k.alerts.committed ≤ i) (hraw : raw ∈ k.alerts.linesAt i) : raw ∈ k.polledLines := by
  unfold AlertChannel.linesAt at hraw
  split at hraw
  · rename_i text htext
    unfold polledLines AlertChannel.poll
    rw [if_pos hr, List.mem_flatMap]
    refine ⟨text, ?_, hraw⟩
    rw [List.reduceOption_mem_iff]
    refine List.mem_of_getElem? (i := i - k.alerts.committed) ?_
    rw [List.getElem?_drop, Nat.add_sub_cancel' hi]
    exact htext
  · simp at hraw

variable {s : KillDesk} {base : ℕ}

lemma Latched.congr {k k' : KillSwitch} {flatten : Bool} (h : Latched k flatten)
    (hp : k'.hasPath = k.hasPath) (hc : k'.file.content = k.file.content)
    (hl : k'.alertLatch = k.alertLatch) (hn : k'.pendingLine = k.pendingLine) :
    Latched k' flatten where
  isFile := by
    have := h.isFile
    simp only [KillSwitch.isFile, hp, hc] at this ⊢
    exact this
  idle := hn.trans h.idle
  demands hf := demands_congr hp hc hl (h.demands hf)

lemma Latched.absorbs {k k' : KillSwitch} {flatten : Bool} (h : Latched k flatten)
    (ha : Absorbs k k') : Latched k' flatten where
  isFile := (ha.isFile h.isFile).1
  idle := (ha.isFile h.isFile).2.trans h.idle
  demands hf := ha.demands (h.demands hf)

lemma Latched.poll {k : KillSwitch} {flatten : Bool} (h : Latched k flatten) (events : List Event) :
    Latched (k.poll events).2 flatten := by
  obtain ⟨latch, escalated, hk, hlatch, -⟩ := poll_frame k events
  rw [hk]
  refine ⟨h.isFile, h.idle, fun hf => ?_⟩
  rcases hlatch with rfl | rfl
  · exact demands_congr (k := k) rfl rfl rfl (h.demands hf)
  · obtain ⟨hpath, content, hcontent, hr⟩ :=
      fileRequestsFlatten_iff.mp (demands_iff.mp (h.demands hf)).1
    exact demands_of_content hpath hcontent hr fun r hr => by cases hr

/-- The switch of a process that is stopped and started again finds the latch. -/
lemma Latched.started {k : KillSwitch} {flatten : Bool} (h : Latched k flatten) (env : Text) :
    Latched (KillSwitch.started env k.hasPath k.file k.alerts) flatten where
  isFile := h.isFile
  idle := rfl
  demands hf := by
    obtain ⟨hpath, content, hcontent, hr⟩ :=
      fileRequestsFlatten_iff.mp (demands_iff.mp (h.demands hf)).1
    exact demands_of_content hpath hcontent hr fun r hr => by cases hr

lemma latched_iff_polled {k : KillSwitch} {flatten : Bool} (h : Latched k flatten)
    (events : List Event) :
    (k.poll events).1.active = true ∧
      (flatten = true → (k.poll events).1.flattenRequested = true) :=
  ⟨poll_active (.inl (by simp [engaged, h.isFile])) events,
    fun hf => (poll_demands (h.demands hf) events).2⟩

/-! ### The offsets -/

lemma AlertChannel.poll_counts (ch : AlertChannel) :
    ch.poll.2.updates = ch.updates ∧ ch.poll.2.committed = ch.committed ∧
      (ch.next ≤ ch.updates.length → ch.poll.2.next ≤ ch.updates.length) := by
  unfold AlertChannel.poll
  split_ifs
  · exact ⟨rfl, rfl, fun h => max_le h le_rfl⟩
  · exact ⟨rfl, rfl, id⟩

lemma AlertChannel.commit_counts (ch : AlertChannel) :
    ch.commit.updates = ch.updates ∧ ch.commit.next = ch.next ∧
      (ch.commit.committed = ch.committed ∨
        ch.committed < ch.next ∧ ch.commit.committed = ch.next) := by
  unfold AlertChannel.commit
  split_ifs with h
  · exact ⟨rfl, rfl, .inr ⟨h.1, rfl⟩⟩
  · exact ⟨rfl, rfl, .inl rfl⟩

/-- The counts of a channel, and the lines it returns, after one reading. -/
lemma finished_counts {k : KillSwitch} (hpath : k.hasPath = true) :
    k.finished.alerts.updates = k.alerts.updates ∧
      (k.alerts.next ≤ k.alerts.updates.length →
        k.finished.alerts.next ≤ k.alerts.updates.length) ∧
      (k.finished.alerts.committed = k.alerts.committed ∨
        (absorbLines k.polledLines { k with alerts := k.alerts.poll.2 }).1 = true ∧
          k.alerts.committed < k.alerts.poll.2.next ∧
          k.finished.alerts.committed = k.alerts.poll.2.next) := by
  obtain ⟨k', hk', hrun⟩ := finished_run k
  have halerts : k'.alerts = k.alerts.poll.2 := by
    rw [← hk']
    exact (absorbLines_absorbs (k := { k with alerts := k.alerts.poll.2 }) _ hpath).alerts
  obtain ⟨hupdates, hcommitted, hnext⟩ := AlertChannel.poll_counts k.alerts
  rcases hrun with ⟨htrue, hf⟩ | ⟨-, hf⟩
  · rw [hf]
    obtain ⟨hu, hn, hc⟩ := AlertChannel.commit_counts k'.alerts
    dsimp only
    rw [hu, hn, halerts, hupdates]
    refine ⟨rfl, hnext, ?_⟩
    rw [halerts] at hc
    rw [hcommitted] at hc
    exact hc.imp_right fun h => ⟨htrue, h⟩
  · rw [hf, halerts]
    exact ⟨hupdates, hnext, .inl hcommitted⟩

lemma finished_frame {k : KillSwitch} (hpath : k.hasPath = true) :
    k.finished.hasPath = true ∧ k.finished.envStart = k.envStart := by
  obtain ⟨k', hk', hrun⟩ := finished_run k
  have hlines := absorbLines_absorbs (k := { k with alerts := k.alerts.poll.2 }) k.polledLines hpath
  rw [hk'] at hlines
  have hframe : k'.hasPath = true ∧ k'.envStart = k.envStart :=
    ⟨hlines.hasPath.trans hpath, hlines.envStart⟩
  rcases hrun with ⟨-, hf⟩ | ⟨-, hf⟩
  · rw [hf]
    exact hframe
  · rw [hf]
    exact hframe

/-- **The offsets** stay within the messages, over one reading. -/
lemma Reading.absorb (h : s.Reading) : (s.step .absorb).Reading := by
  rcases absorbAlerts_run h.hasPath h.recalls with ⟨file, -, -, -, -, hr⟩ | ⟨k₁, hready, hr⟩
  · simp only [step, hr]
    exact ⟨h.hasPath, ⟨h.recalls.latch, h.recalls.pending⟩, h.next_le, h.committed_le⟩
  · obtain ⟨hpath, -, halerts, -⟩ := hready.frame
    obtain ⟨hu, hn, hc⟩ := finished_counts (hpath.trans h.hasPath)
    rw [halerts] at hu hn hc
    refine ⟨?_, recalls_absorb h.recalls h.hasPath, ?_, ?_⟩
    all_goals simp only [step, hr]
    · exact (finished_frame (hpath.trans h.hasPath)).1
    · rw [hu]
      exact hn h.next_le
    · rw [hu]
      rcases hc with hc | ⟨-, -, hc⟩
      · rw [hc]
        exact h.committed_le
      · rw [hc]
        exact (AlertChannel.poll_counts s.switch.alerts).2.2 h.next_le

/-- The other steps of a channel's run move no offset, except that a process started anew requests
from the committed one. -/
lemma Reading.step (h : s.Reading) {op : KillStep} (ho : op.ofChannel = true) :
    (s.step op).Reading := by
  have hpoll : Reading { s with switch := (s.switch.poll s.ledger.read).2 } := by
    have hrec := recalls_poll h.recalls s.ledger.read
    obtain ⟨latch, escalated, hk, -, -⟩ := poll_frame s.switch s.ledger.read
    rw [hk] at hrec ⊢
    exact ⟨h.hasPath, hrec, h.next_le, h.committed_le⟩
  cases op with
  | tool inp ts => cases ho
  | latch content =>
    exact ⟨h.hasPath, ⟨h.recalls.latch, h.recalls.pending⟩, h.next_le, h.committed_le⟩
  | disk outcomes =>
    exact ⟨h.hasPath, ⟨h.recalls.latch, h.recalls.pending⟩, h.next_le, h.committed_le⟩
  | messages updates =>
    refine ⟨h.hasPath, ⟨h.recalls.latch, h.recalls.pending⟩, ?_, ?_⟩
    all_goals
      simp only [KillDesk.step, List.length_append]
    · exact h.next_le.trans (Nat.le_add_right ..)
    · exact h.committed_le.trans (Nat.le_add_right ..)
  | channel reachable writable =>
    exact ⟨h.hasPath, ⟨h.recalls.latch, h.recalls.pending⟩, h.next_le, h.committed_le⟩
  | absorb => exact h.absorb
  | poll => exact hpoll
  | observe ts source =>
    simp only [KillDesk.step, observe_run]
    exact ⟨hpoll.hasPath, hpoll.recalls, hpoll.next_le, hpoll.committed_le⟩
  | clear approval reason ts source env =>
    rcases requestClear_run approval reason ts source env s with ⟨x, hr⟩ | hr
    · simp only [KillDesk.step, hr]
      exact h
    · simp only [KillDesk.step, hr]
      exact ⟨h.hasPath, h.recalls, h.next_le, h.committed_le⟩
  | restart env =>
    exact ⟨h.hasPath, recalls_started .., h.committed_le, h.committed_le⟩
  | verified intact => exact ⟨h.hasPath, h.recalls, h.next_le, h.committed_le⟩

/-! ### The lines passed -/

lemma Latched.finished {k : KillSwitch} {flatten : Bool} (h : Latched k flatten)
    (hpath : k.hasPath = true) : Latched k.finished flatten := by
  obtain ⟨k', hk', hrun⟩ := finished_run k
  have hlines : Latched k' flatten := by
    rw [← hk']
    have hpolled : Latched { k with alerts := k.alerts.poll.2 } flatten := h.congr rfl rfl rfl rfl
    exact hpolled.absorbs (absorbLines_absorbs _ hpath)
  rcases hrun with ⟨-, hf⟩ | ⟨-, hf⟩
  · rw [hf]
    exact hlines.congr rfl rfl rfl rfl
  · rw [hf]
    exact hlines

/-- A line among those read to the end, from a switch with none pending. -/
lemma latched_finished {k : KillSwitch} (hpath : k.hasPath = true) (hidle : k.pendingLine = none)
    (hs : flattenPolled k = true → k.Stands)
    (he : plainPolled k = true → envEngaged k.envStart = true → k.isFile = true)
    (htrue : (absorbLines k.polledLines { k with alerts := k.alerts.poll.2 }).1 = true)
    {raw reason : Text} {flatten : Bool} (hraw : raw ∈ k.polledLines)
    (hp : parseKillLine raw = some (flatten, reason)) : Latched k.finished flatten := by
  obtain ⟨k', hk', hrun⟩ := finished_run k
  have hkeep := absorbLines_absorbs (k := { k with alerts := k.alerts.poll.2 }) k.polledLines hpath
  have hstands : (∃ raw ∈ k.polledLines, (parseKillLine raw).any (·.1) = true) →
      KillSwitch.Stands { k with alerts := k.alerts.poll.2 } := fun hraw hesc =>
    demands_congr (k := k) rfl rfl rfl (hs (List.any_eq_true.mpr hraw) hesc)
  have hhandled : Handled k' flatten := by
    rw [← hk']
    refine absorbLines_handled (k := { k with alerts := k.alerts.poll.2 }) hpath hstands ?_ hp
    rw [handledLines_eq htrue]
    exact hraw
  have hlines : Latched k' flatten := by
    refine ⟨hhandled.latched.elim id fun ⟨hf, henv⟩ => ?_, ?_, hhandled.demands⟩
    · subst hf
      rw [← hk', hkeep.envStart] at henv
      have hplain : plainPolled k = true := List.any_eq_true.mpr ⟨raw, hraw, by simp [hp]⟩
      rw [← hk']
      exact (hkeep.isFile (he hplain henv)).1
    · rw [← hk']
      exact absorbLines_idle (k := { k with alerts := k.alerts.poll.2 }) hpath hidle htrue
  rcases hrun with ⟨-, hf⟩ | ⟨-, hf⟩
  · rw [hf]
    exact hlines.congr rfl rfl rfl rfl
  · rw [hf]
    exact hlines

/-- **One reading** keeps the lines it passes. -/
theorem passed_absorb (h : s.Passed base) (hc : s.LosesNoLine .absorb) :
    (s.step .absorb).Passed base := by
  refine ⟨h.toReading.absorb, fun i raw flatten reason hi hlt hraw hp => ?_⟩
  obtain ⟨hreach, hstale, hplain⟩ := hc
  rcases absorbAlerts_run h.hasPath h.recalls with ⟨file, hl, ho, -, hs, hr⟩ | ⟨k₁, hready, hr⟩
  · -- the line stays pending, so nothing from `base` on was passed yet
    simp only [step, hr] at hlt hraw
    rw [(h.latched i raw flatten reason hi hlt hraw hp).idle] at hl
    cases hl
  · have hpath := hready.frame.1.trans h.hasPath
    obtain ⟨-, henv, halerts, hesc⟩ := hready.frame
    obtain ⟨hu, -, hcounts⟩ := finished_counts hpath
    have hpollAlerts : k₁.alerts.poll.2 = s.switch.alerts.poll.2 := by rw [halerts]
    rw [halerts] at hu
    simp only [step, hr] at hlt hraw ⊢
    have hraw' : raw ∈ s.switch.alerts.linesAt i := by
      rw [AlertChannel.linesAt, hu] at hraw
      exact hraw
    have hold : i < s.switch.alerts.committed → Latched k₁.finished flatten := by
      intro hlt
      have hl := h.latched i raw flatten reason hi hlt hraw' hp
      cases hready with
      | idle hn => exact hl.finished hpath
      | saved hn hs hp' hc ho => simp [hl.idle] at hn
    rcases hcounts with hsame | ⟨htrue, hmoved, hnext⟩
    · rw [hsame, halerts] at hlt
      exact hold hlt
    rw [hpollAlerts, halerts] at hmoved
    by_cases hbefore : i < s.switch.alerts.committed
    · exact hold hbefore
    rcases hch : s.switch.alerts.reachable with - | -
    · -- the request failed, yet the offset moved: past nothing, or after a failed write
      have hpoll : s.switch.alerts.poll.2 = s.switch.alerts := by simp [AlertChannel.poll, hch]
      rw [hpoll] at hmoved
      obtain ⟨hl, hlands⟩ := (hreach hch).resolve_left (Nat.not_le.mpr hmoved)
      cases hready with
      | idle hn => simp [hn] at hl
      | @saved line r f file hn hs hp' hc ho =>
        have hwrite := savePending_fst h.hasPath hn hp'
        rw [hs, ← latchLands_iff h.hasPath, hlands] at hwrite
        cases hwrite
    · have hpolled : k₁.polledLines = s.switch.polledLines := by
        rw [polledLines, halerts, polledLines]
      refine latched_finished hpath hready.idle_pending ?_ ?_ htrue ?_ hp
      · intro hf hk
        rw [flattenPolled, hpolled] at hf
        rw [hesc] at hk
        rcases hstale hf hk with hpending | ⟨hn, hd⟩
        · refine Ready.demands h.hasPath hready (fun _ => hpending) (.inr ?_)
          rcases hl : s.switch.pendingLine with - | line
          · simp [flattenPending, hl] at hpending
          · rfl
        · exact Ready.demands h.hasPath hready (fun hl => by simp [hn] at hl) (.inl hd)
      · intro hf hk
        rw [plainPolled, hpolled] at hf
        rw [henv] at hk
        have hfile := hplain hf hk
        cases hready with
        | idle hn => exact hfile
        | saved hn hs hp' hc ho => exact isFile_of_content hpath hc
      · rw [hpolled]
        exact mem_polledLines hch (Nat.not_lt.mp hbefore) hraw'

/-- **Every step** that loses no line keeps what the passed lines left, until a clear. -/
theorem passed_step (h : s.Passed base) {op : KillStep} (ho : op.ofChannel = true)
    (he : op.engages = true) (hc : s.LosesNoLine op) : (s.step op).Passed base := by
  have hlines : ∀ s' : KillDesk, s'.switch.alerts.committed = s.switch.alerts.committed →
      (∀ i < s.switch.alerts.committed,
        s'.switch.alerts.linesAt i = s.switch.alerts.linesAt i) →
      (∀ flatten, Latched s.switch flatten → Latched s'.switch flatten) → s'.Reading →
      s'.Passed base := by
    intro s' hcount hat hkeep hr
    refine ⟨hr, fun i raw flatten reason hi hlt hraw hp => ?_⟩
    rw [hcount] at hlt
    rw [hat i hlt] at hraw
    exact hkeep flatten (h.latched i raw flatten reason hi hlt hraw hp)
  have hread := h.toReading.step ho
  cases op with
  | tool inp ts => cases ho
  | latch content =>
    rcases content with - | content
    · cases he
    · cases ho
  | disk outcomes =>
    exact hlines _ rfl (fun _ _ => rfl) (fun _ hl => hl.congr rfl rfl rfl rfl) hread
  | messages updates =>
    refine hlines _ rfl (fun i hlt => ?_) (fun _ hl => hl.congr rfl rfl rfl rfl) hread
    simp only [step, AlertChannel.linesAt]
    rw [List.getElem?_append_left (hlt.trans_le h.committed_le)]
  | channel reachable writable =>
    exact hlines _ rfl (fun _ _ => rfl) (fun _ hl => hl.congr rfl rfl rfl rfl) hread
  | absorb => exact passed_absorb h hc
  | poll =>
    have hpoll := poll_frame s.switch s.ledger.read
    refine hlines _ ?_ (fun i _ => ?_) (fun _ hl => hl.poll _) hread
    all_goals
      obtain ⟨latch, escalated, hk, -, -⟩ := hpoll
      simp only [step, hk]
  | observe ts source =>
    have hpoll := poll_frame s.switch s.ledger.read
    refine hlines _ ?_ (fun i _ => ?_) (fun _ hl => ?_) hread
    all_goals simp only [step, observe_run]
    · obtain ⟨latch, escalated, hk, -, -⟩ := hpoll
      rw [hk]
    · obtain ⟨latch, escalated, hk, -, -⟩ := hpoll
      rw [hk]
    · exact hl.poll _
  | clear approval reason ts source env => cases he
  | restart env => exact hlines _ rfl (fun _ _ => rfl) (fun _ hl => hl.started env) hread
  | verified intact => exact hlines _ rfl (fun _ _ => rfl) (fun _ hl => hl) hread

/-! ### The switch from a line's reading on -/

lemma set_finished {k : KillSwitch} (hpath : k.hasPath = true)
    (h : k.set = true ∨ ∃ raw ∈ k.polledLines, (parseKillLine raw).isSome = true) :
    k.finished.set = true := by
  obtain ⟨k', hk', hrun⟩ := finished_run k
  have hlines : k'.set = true := by
    rw [← hk']
    rcases h with h | ⟨raw, hr, hp⟩
    · exact (absorbLines_absorbs (k := { k with alerts := k.alerts.poll.2 }) _ hpath).set h
    · exact absorbLines_set (k := { k with alerts := k.alerts.poll.2 }) hpath hr hp
  rcases hrun with ⟨-, hf⟩ | ⟨-, hf⟩
  · rw [hf]
    exact hlines
  · rw [hf]
    exact hlines

/-- A reading that leaves a line pending, or finds a kill, leaves the switch set. -/
theorem set_absorb (h : s.Reading)
    (hset : s.switch.set = true ∨ ∃ raw ∈ s.switch.polledLines, (parseKillLine raw).isSome = true) :
    (s.step .absorb).switch.set = true := by
  rcases absorbAlerts_run h.hasPath h.recalls with ⟨file, hl, -, -, -, hr⟩ | ⟨k₁, hready, hr⟩
  · obtain ⟨raw, hl⟩ := Option.isSome_iff_exists.mp hl
    have hparse := h.recalls.pending raw hl
    simp only [step, hr, KillSwitch.set, pendingState, hl]
    simp [hparse]
  · have hpath := hready.frame.1.trans h.hasPath
    simp only [step, hr]
    refine set_finished hpath ?_
    rw [polledLines, hready.frame.2.2.1]
    refine hset.imp_left fun hset => ?_
    cases hready with
    | idle hn => exact hset
    | saved hn hs hp hc ho => exact set_of_isFile (isFile_of_content h.hasPath hc)

/-- **Every other step** of the same process leaves it set, until a clear. -/
theorem set_step (h : s.Reading) {op : KillStep} (ho : op.ofChannel = true)
    (he : op.engages = true) (hr : op.restarts = false) (hset : s.switch.set = true) :
    (s.step op).switch.set = true := by
  have hpoll : (s.switch.poll s.ledger.read).2.set = true := by
    obtain ⟨latch, escalated, hk, -, -⟩ := poll_frame s.switch s.ledger.read
    rw [hk]
    exact hset
  cases op with
  | tool inp ts => cases ho
  | latch content =>
    rcases content with - | content
    · cases he
    · cases ho
  | absorb => exact set_absorb h (.inl hset)
  | poll => exact hpoll
  | observe ts source =>
    simp only [step, observe_run]
    exact hpoll
  | clear approval reason ts source env => cases he
  | restart env => cases hr
  | _ => exact hset

lemma set_after (h : s.Reading) {ops : List KillStep} (ho : ∀ op ∈ ops, op.ofChannel = true)
    (he : ∀ op ∈ ops, op.engages = true) (hr : ∀ op ∈ ops, op.restarts = false)
    (hset : s.switch.set = true) : (Runs.after step s ops).switch.set = true := by
  induction ops generalizing s with
  | nil => exact hset
  | cons op ops ih =>
    have hop : op ∈ op :: ops := List.mem_cons_self
    exact ih (h.step (ho op hop)) (fun o hm => ho o (List.mem_cons_of_mem _ hm))
      (fun o hm => he o (List.mem_cons_of_mem _ hm)) (fun o hm => hr o (List.mem_cons_of_mem _ hm))
      (set_step h (ho op hop) (he op hop) (hr op hop) hset)

/-! ### A process started anew -/

/-- The steps by which a new process reads the channel: nothing fails. -/
def rereads (writable : Bool) : List KillStep := [.disk [], .channel true writable, .absorb]

/-- A process started anew reads again what was not passed, and finds in the latch what was. -/
theorem reread (h : s.Passed base) (env : Text) (writable : Bool) {i : ℕ} {raw reason : Text}
    {flatten : Bool} (hi : base ≤ i) (hraw : raw ∈ s.switch.alerts.linesAt i)
    (hp : parseKillLine raw = some (flatten, reason)) :
    let u := Runs.after step (s.restarted env) (rereads writable)
    u.polled.active = true ∧ (flatten = true → u.polled.flattenRequested = true) := by
  intro u
  set k : KillSwitch :=
    { KillSwitch.started env s.switch.hasPath s.switch.file s.switch.alerts with
      file := { s.switch.file with outcomes := [] }
      alerts :=
        { (KillSwitch.started env s.switch.hasPath s.switch.file s.switch.alerts).alerts with
        reachable := true, writable := writable } } with hk
  have hu : u.switch = k.finished := by
    rcases absorbAlerts_run (k := k) h.hasPath
      ⟨fun _ hn => (by cases hn), fun _ hn => (by cases hn)⟩
      with ⟨file, hl, -⟩ | ⟨k₁, hready, hr⟩
    · cases hl
    · cases hready with
      | idle hn => exact hr
      | saved hn hs hp' hc ho => cases hn
  have hpath : k.hasPath = true := h.hasPath
  by_cases hlt : i < s.switch.alerts.committed
  · have hl := h.latched i raw flatten reason hi hlt hraw hp
    have hf : Latched u.switch flatten := by
      rw [hu]
      have hk : Latched k flatten := (hl.started env).congr rfl rfl rfl rfl
      exact hk.finished hpath
    exact latched_iff_polled hf u.ledger.read
  · have hmem : raw ∈ k.polledLines := mem_polledLines rfl (Nat.not_lt.mp hlt) hraw
    obtain ⟨k', hk', hrun⟩ := finished_run k
    have hkeep :=
      absorbLines_absorbs (k := { k with alerts := k.alerts.poll.2 }) k.polledLines hpath
    have htrue : (absorbLines k.polledLines { k with alerts := k.alerts.poll.2 }).1 = true := by
      rw [← Bool.not_eq_false]
      intro hfalse
      exact (absorbLines_stopped (k := { k with alerts := k.alerts.poll.2 }) hpath hfalse).2 rfl
    have hhandled : Handled k' flatten := by
      rw [← hk']
      refine absorbLines_handled (k := { k with alerts := k.alerts.poll.2 }) hpath
        (fun _ hesc => by cases hesc) ?_ hp
      rw [handledLines_eq htrue]
      exact hmem
    have hfinished : k.finished = { k' with alerts := k'.alerts.commit } := by
      rcases hrun with ⟨-, hf⟩ | ⟨hfalse, -⟩
      · exact hf
      · rw [htrue] at hfalse
        cases hfalse
    rw [polled, hu, hfinished]
    refine ⟨poll_active (.inl ?_) _, fun hf => (poll_demands ?_ _).2⟩
    · unfold engaged
      rw [Bool.or_eq_true]
      exact hhandled.latched.symm.imp_left And.right
    · exact demands_congr (k := k') rfl rfl rfl (hhandled.demands hf)

lemma reading_opened (env : Text) (file : LatchFile) : (opened env true file {}).Reading where
  hasPath := rfl
  recalls := recalls_started ..
  next_le := le_rfl
  committed_le := le_rfl

lemma reading_after (h : s.Reading) {ops : List KillStep} (ho : ∀ op ∈ ops, op.ofChannel = true) :
    (Runs.after step s ops).Reading := by
  induction ops generalizing s with
  | nil => exact h
  | cons op ops ih =>
    exact ih (h.step (ho op List.mem_cons_self)) fun o hm => ho o (List.mem_cons_of_mem _ hm)

theorem passed_after (h : s.Passed base) {ops : List KillStep}
    (ho : ∀ op ∈ ops, op.ofChannel = true) (he : ∀ op ∈ ops, op.engages = true)
    (hc : Runs.Along step LosesNoLine s ops) : (Runs.after step s ops).Passed base := by
  induction ops generalizing s with
  | nil => exact h
  | cons op ops ih =>
    have hop : op ∈ op :: ops := List.mem_cons_self
    exact ih (passed_step h (ho op hop) (he op hop) hc.1)
      (fun o hm => ho o (List.mem_cons_of_mem _ hm)) (fun o hm => he o (List.mem_cons_of_mem _ hm))
      hc.2

/-- What a kill line read since the last clear has left: once it is passed by, a latch with the
flatten it asked for, which a new process finds; and read or not, a new process that gets through
to the channel is set, with that flatten. -/
structure LineKept (t : KillDesk) (i : ℕ) (flatten : Bool) : Prop where
  latch : i < t.switch.alerts.committed →
    t.switch.isFile = true ∧ (flatten = true → t.switch.fileRequestsFlatten = true)
  process : i < t.switch.alerts.committed →
    t.polled.active = true ∧ (flatten = true → t.polled.flattenRequested = true)
  restart : i < t.switch.alerts.committed → ∀ env,
    (t.restarted env).polled.active = true ∧
      (flatten = true → (t.restarted env).polled.flattenRequested = true)
  reread : ∀ env writable,
    (Runs.after step (t.restarted env) (rereads writable)).polled.active = true ∧
      (flatten = true →
        (Runs.after step (t.restarted env) (rereads writable)).polled.flattenRequested = true)

lemma Passed.lineKept (h : s.Passed base) {i : ℕ} {raw reason : Text} {flatten : Bool}
    (hi : base ≤ i) (hraw : raw ∈ s.switch.alerts.linesAt i)
    (hp : parseKillLine raw = some (flatten, reason)) : s.LineKept i flatten := by
  have hl : i < s.switch.alerts.committed → Latched s.switch flatten := fun hlt =>
    h.latched i raw flatten reason hi hlt hraw hp
  exact
    { latch := fun hlt => ⟨(hl hlt).isFile, fun hf => (demands_iff.mp ((hl hlt).demands hf)).1⟩
      process := fun hlt => latched_iff_polled (hl hlt) _
      restart := fun hlt env => latched_iff_polled ((hl hlt).started env) _
      reread := fun env writable => KillDesk.reread h env writable hi hraw hp }

/-- **No kill line is lost** in a run whose readings lose none. From any point of the run on and
until a clear, every kill line not passed before is kept; and the process that reads one stays set
from then on. -/
theorem alert_lines_kept (env : Text) (file : LatchFile) (before later : List KillStep)
    (ho : ∀ op ∈ before ++ later, op.ofChannel = true)
    (hc : Runs.Along step LosesNoLine (opened env true file {}) (before ++ later))
    (he : ∀ op ∈ later, op.engages = true) :
    let s := Runs.after step (opened env true file {}) before
    let t := Runs.after step s later
    (∀ i raw flatten reason, s.switch.alerts.committed ≤ i → raw ∈ t.switch.alerts.linesAt i →
      parseKillLine raw = some (flatten, reason) → t.LineKept i flatten) ∧
    ∀ mid rest i raw, later = mid ++ .absorb :: rest → (∀ op ∈ rest, op.restarts = false) →
      (Runs.after step s mid).switch.alerts.reachable = true →
      (Runs.after step s mid).switch.alerts.committed ≤ i →
      raw ∈ (Runs.after step s mid).switch.alerts.linesAt i →
      (parseKillLine raw).isSome = true → t.polled.active = true := by
  intro s t
  have hs : s.Reading := reading_after (reading_opened env file) fun op hop =>
    ho op (List.mem_append_left _ hop)
  have hlater : ∀ op ∈ later, op.ofChannel = true :=
    fun op hop => ho op (List.mem_append_right _ hop)
  refine ⟨fun i raw flatten reason hi hraw hp => ?_, ?_⟩
  · have hnone : s.Passed s.switch.alerts.committed :=
      ⟨hs, fun i _ _ _ hi hlt => absurd hlt (Nat.not_lt.mpr hi)⟩
    exact (passed_after hnone hlater he (Runs.along_append.mp hc).2).lineKept hi hraw hp
  · rintro mid rest i raw rfl hr hreach hi hraw hp
    have hmid : (Runs.after step s mid).Reading := reading_after hs fun op hop =>
      hlater op (List.mem_append_left _ hop)
    have hset := set_absorb hmid (.inr ⟨raw, mem_polledLines hreach hi hraw, hp⟩)
    have hrest : ∀ op ∈ rest, op ∈ mid ++ .absorb :: rest := fun op hop =>
      List.mem_append_right _ (List.mem_cons_of_mem _ hop)
    have hafter := set_after hmid.absorb (fun op hop => hlater op (hrest op hop))
      (fun op hop => he op (hrest op hop)) hr hset
    rw [show t = Runs.after step ((Runs.after step s mid).step .absorb) rest by
      simp only [t, Runs.after_append, Runs.after_cons]]
    exact poll_active (by simpa [KillSwitch.set] using hafter) _

/-- A `KILL FLATTEN` whose write is refused, a restart, and the reading after it. -/
theorem alert_lines_kept_sample :
    let t := Runs.after step (opened [] true {} {}) [.messages [some "KILL FLATTEN now".toList],
      .disk [.refused], .absorb, .restart [], .absorb]
    t.switch.alerts.committed = 1 ∧ t.LineKept 0 true ∧ t.polled.active = true := by
  have h := alert_lines_kept [] {} [] [.messages [some "KILL FLATTEN now".toList],
    .disk [.refused], .absorb, .restart [], .absorb] (by decide) (by decide +kernel) (by decide)
  exact ⟨by decide +kernel,
    h.1 0 "KILL FLATTEN now".toList true "now".toList (by decide) (by decide +kernel)
      (by decide +kernel),
    h.2 [.messages [some "KILL FLATTEN now".toList], .disk [.refused], .absorb, .restart []] []
      0 "KILL FLATTEN now".toList rfl (by simp) (by decide +kernel) (by decide +kernel)
      (by decide +kernel) (by decide +kernel)⟩

/-- A plain kill cannot be saved; on the next reading it can, and the request for the lines after it
fails. The offset then passes the second line, and nothing asks for its flatten any more. -/
theorem flatten_line_lost :
    let s := Runs.after step (opened [] true {} {})
      [.messages [some "KILL one".toList, some "KILL FLATTEN two".toList], .disk [.refused],
        .absorb, .channel false true, .absorb]
    "KILL FLATTEN two".toList ∈ s.switch.alerts.linesAt 1 ∧
      parseKillLine "KILL FLATTEN two".toList = some (true, "two".toList) ∧
      s.switch.alerts.committed = 2 ∧ s.switch.fileRequestsFlatten = false ∧
      s.polled.flattenRequested = false ∧
      (Runs.after step (s.restarted []) (rereads true)).polled.flattenRequested = false := by
  decide +kernel

end KillDesk

end PumpGrok
