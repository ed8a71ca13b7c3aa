import PumpGrok.Lib.Passes
import PumpGrok.Risk.CheckPass
import PumpGrok.Risk.RefreshAgain

/-!
What a check that passes a buy leaves behind. Its steps write nothing: a halt they would write
fails the walk, at the latest when the ledger is folded again. So the rows of a passed evaluation
are the breakers' own, and the desk it returns on is stopped by nothing.
-/

namespace PumpGrok

open Prog

/-! ### Steps that leave the desk as it was -/

/-- The same desk, up to the ids drawn and the store's own mark. -/
structure Desk.Still (d d' : Desk) : Prop where
  store : d.store.Grows (fun _ _ => False) d'.store
  now : d'.now = d.now
  killswitch : d'.killswitch = d.killswitch
  breakers : d'.breakers = d.breakers
  owners : d'.probeOwners = d.probeOwners

namespace Desk.Still

variable {d d' d'' : Desk}

lemma refl (d : Desk) : d.Still d := ⟨.refl, rfl, rfl, rfl, rfl⟩

lemma trans (h : d.Still d') (h' : d'.Still d'') : d.Still d'' where
  store := h.store.trans h'.store
  now := h'.now.trans h.now
  killswitch := h'.killswitch.trans h.killswitch
  breakers := h'.breakers.trans h.breakers
  owners := h'.owners.trans h.owners

lemma read (h : d.Still d') : d'.store.read = d.store.read :=
  h.store.invariant (I := fun st => st.read = d.store.read) (fun _ _ h => h)
    (fun _ _ _ _ hf => hf.elim) rfl

end Desk.Still

open Desk

/-- A walk that leaves the desk still. -/
def StillWalk (s s' : Desk × StepCtx) : Prop := s.1.Still s'.1

instance : IsPreorder (Desk × StepCtx) StillWalk where
  refl s := Still.refl s.1
  trans _ _ _ := Still.trans

lemma update_still (f : StepCtx → StepCtx) : Passes StillWalk (Walk.update f) :=
  .modify fun s => Still.refl s.1

lemma ctx_still : Passes StillWalk Walk.ctx := .read _

lemma onDesk_back {α : Type} {m : Prog Desk Exc α} {s s' : Desk × StepCtx} {a : α}
    (h : Walk.onDesk m s = (.ok a, s')) : m s.1 = (.ok a, s'.1) ∧ s'.2 = s.2 := by
  unfold Walk.onDesk at h
  rcases hm : m s.1 with ⟨x | b, d⟩
  · simp [hm] at h
  · simp only [hm] at h
    obtain ⟨hb, rfl⟩ := Prod.mk.inj h
    obtain rfl := Except.ok.inj hb
    exact ⟨rfl, rfl⟩

lemma onDesk_still {α : Type} {m : Prog Desk Exc α}
    (h : ∀ d a d', m d = (.ok a, d') → d.Still d') : Passes StillWalk (Walk.onDesk m) :=
  fun s a s' hr => h s.1 a s'.1 (onDesk_back hr).1

lemma look_still {α : Type} (f : Desk → α) :
    Passes StillWalk (Walk.onDesk (Prog.read f : Prog Desk Exc α)) :=
  onDesk_still fun d a d' h => by
    obtain ⟨-, rfl⟩ := Prod.mk.inj h
    exact Still.refl d

lemma fail_still (p : Prop) [Decidable p] (r : Reason) : Passes StillWalk (Walk.failIf p r) :=
  .raiseIf p _

/-- A ledger that verifies is left as it was. -/
lemma verifyStep_still {source : EventSource} {d d' : Desk}
    (h : verifyStep source d = (.ok true, d')) : d.Still d' := by
  unfold verifyStep at h
  rcases hv : LedgerStore.verify d.store with ⟨x | u, st⟩
  · simp only [hv] at h
    obtain ⟨⟨⟩, d₁, -, h⟩ := Prog.bind_ok_iff.mp h
    exact absurd (Except.ok.inj (Prod.mk.inj h).1) (by simp)
  · simp only [hv] at h
    obtain ⟨-, rfl⟩ := Prod.mk.inj h
    refine ⟨?_, rfl, rfl, rfl, rfl⟩
    have hg : d.store.Grows (fun _ _ => False) (LedgerStore.verify d.store).2 :=
      LedgerStore.grows_verify
    rwa [hv] at hg

lemma ledgerStep_still : Passes StillWalk stepLedgerInconsistent := by
  refine (update_still _).bind fun _ => ctx_still.bind fun c => ?_
  intro s u s' h
  obtain ⟨ok, s₁, hv, hfail⟩ := Prog.bind_ok_iff.mp h
  obtain ⟨hok, rfl⟩ := Prog.raiseIf_ok_iff.mp hfail
  rw [Bool.not_eq_false] at hok
  subst hok
  exact verifyStep_still (onDesk_back hv).1

lemma mintAutonomous_still (order : OrderRequest) (exitReason : Option ExitReason) {d d' : Desk}
    {a : ApprovalRecord} (h : mintAutonomous order exitReason d = (.ok a, d')) : d.Still d' := by
  obtain ⟨-, rfl⟩ := Prod.mk.inj h
  exact ⟨.refl, rfl, rfl, rfl, rfl⟩

/-- A buy is not let through on a degraded reputation book, so no escalation is written. -/
lemma breakerStep_still : Passes StillWalk stepBreakerOpen := by
  refine (update_still _).bind fun _ =>
    ctx_still.bind fun c => (look_still _).bind fun degraded => ?_
  refine .ite ?_ (fail_still _ _)
  intro s u s' h
  obtain ⟨⟨⟩, s₁, -, h⟩ := Prog.bind_ok_iff.mp h
  cases h

/-- **A step that passes** leaves the desk still, unless it looks for a breach. -/
theorem runStep_still (cfg : DeskConfig) {x : StepId} (h₁ : x ≠ .dailyLossHalt)
    (h₂ : x ≠ .drawdownHalt) : Passes StillWalk (runStep cfg x) := by
  have hmark : Passes StillWalk (Walk.mark x) := update_still _
  have hgrant : ∀ a, Passes StillWalk (grant a) := fun a => update_still _
  cases x with
  | ledgerInconsistent => exact ledgerStep_still
  | killSwitch => exact hmark.bind fun _ => ctx_still.bind fun c => fail_still _ _
  | halted => exact hmark.bind fun _ => ctx_still.bind fun c => fail_still _ _
  | breakerOpen => exact breakerStep_still
  | liveGate => exact hmark.bind fun _ => (look_still _).bind fun unmet => fail_still _ _
  | approvalMissing =>
    refine hmark.bind fun _ => ctx_still.bind fun c => .ite ?_ ?_
    · exact (onDesk_still fun _ _ _ => mintAutonomous_still _ _).bind hgrant
    · rcases c.approvals c.order.approvalId with - | a
      · exact .raise _
      · exact .ite (.raise _) (hgrant a)
  | approvalMismatch =>
    refine hmark.bind fun _ => ctx_still.bind fun c => ?_
    rcases c.approval with - | a
    · exact .raise _
    · exact .ite (.pure _) (fail_still _ _)
  | seatMayTrade =>
    exact hmark.bind fun _ =>
      ctx_still.bind fun c => (look_still _).bind fun seats => fail_still _ _
  | maxTradesPerDay => exact hmark.bind fun _ => ctx_still.bind fun c => fail_still _ _
  | maxOpenPositions => exact hmark.bind fun _ => ctx_still.bind fun c => fail_still _ _
  | alreadyOpen => exact hmark.bind fun _ => ctx_still.bind fun c => fail_still _ _
  | creatorAlreadyOpen =>
    exact hmark.bind fun _ => ctx_still.bind fun c => (look_still _).bind fun _ => fail_still _ _
  | maxTradeFraction =>
    refine hmark.bind fun _ => ctx_still.bind fun c => .ite ?_ (.pure _)
    rcases c.finalSize with - | size
    · exact .raise _
    · exact .ite (update_still _) (.pure _)
  | maxTokenFraction =>
    refine hmark.bind fun _ => ctx_still.bind fun c => .ite ?_ (.pure _)
    rcases c.finalSize with - | size
    · exact .raise _
    · exact .ite ((fail_still _ _).bind fun _ => update_still _) (.pure _)
  | dailyLossHalt => exact absurd rfl h₁
  | drawdownHalt => exact absurd rfl h₂
  | dataStale =>
    exact hmark.bind fun _ => ctx_still.bind fun c => (look_still _).bind fun now => fail_still _ _
  | sizeTooSmall =>
    refine hmark.bind fun _ => ctx_still.bind fun c => .ite ?_ (.pure _)
    rcases c.finalSize with - | size
    · exact .raise _
    · exact fail_still _ _
  | belowLiquidityFloor =>
    refine hmark.bind fun _ => ctx_still.bind fun c => .ite ?_ (.pure _)
    rcases c.finalSize with - | size
    · exact .raise _
    · refine (look_still _).bind fun reserves => ?_
      rcases reserves with - | r
      · exact .raise _
      · exact fail_still _ _

lemma walkSteps_still (cfg : DeskConfig) {xs : List StepId} (h₁ : .dailyLossHalt ∉ xs)
    (h₂ : .drawdownHalt ∉ xs) : Passes StillWalk (walkSteps cfg xs) := by
  induction xs with
  | nil => exact .pure _
  | cons x xs ih =>
    rw [List.mem_cons, not_or] at h₁ h₂
    refine ctx_still.bind fun c => .ite (ih h₁.2 h₂.2) ?_
    exact (runStep_still cfg (Ne.symm h₁.1) (Ne.symm h₂.1)).bind fun _ => ih h₁.2 h₂.2

/-! ### Looking for a breach -/

/-- What a breach is judged by. -/
structure SameBook (s s' : LedgerState) : Prop where
  cash : s'.cashLamports = s.cashLamports
  positions : s'.positions = s.positions
  counters : s'.counters = s.counters
  dayStart : s'.dayStartEquityLamports = s.dayStartEquityLamports
  peak : s'.peakEquityLamports = s.peakEquityLamports

lemma SameBook.trans {s s' s'' : LedgerState} (h : SameBook s s') (h' : SameBook s' s'') :
    SameBook s s'' :=
  ⟨h'.cash.trans h.cash, h'.positions.trans h.positions, h'.counters.trans h.counters,
    h'.dayStart.trans h.dayStart, h'.peak.trans h.peak⟩

lemma SameBook.equity {s s' : LedgerState} (h : SameBook s s') (cfg : DeskConfig) :
    equityForHalts cfg s' = equityForHalts cfg s := by
  unfold equityForHalts equityLamports
  rw [h.cash, h.positions, h.counters]

/-- A row of the engine leaves the books. -/
lemma reduce_engine {e : Event} (h : e.payload.isEngine = true) (s : LedgerState) :
    SameBook s (reduce s e) := by
  unfold reduce
  cases hp : e.payload <;> simp_all [Payload.isEngine] <;> exact ⟨rfl, rfl, rfl, rfl, rfl⟩

lemma replay_engine {es : List Event} (h : ∀ e ∈ es, e.payload.isEngine = true) (s : LedgerState) :
    SameBook s (replay s es) := by
  induction es generalizing s with
  | nil => exact ⟨rfl, rfl, rfl, rfl, rfl⟩
  | cons e es ih =>
    exact (reduce_engine (h e (by simp)) s).trans
      (ih (fun x hx => h x (List.mem_cons_of_mem _ hx)) _)

/-- The engine's own rows, and how they extend the others. -/
lemma engine_rows {st st' : LedgerStore} (h : st.Grows EngineRow st') :
    ∃ es, st'.read = st.read ++ es ∧ ∀ e ∈ es, e.payload.isEngine = true := by
  induction h with
  | refl => exact ⟨[], by simp, by simp⟩
  | marked b _ ih => exact ih
  | @commit st' rows _ _ ha ih =>
    obtain ⟨es, hes, hengine⟩ := ih
    refine ⟨es ++ LedgerStore.stamp (st'.count + 1) rows, ?_, fun e he => ?_⟩
    · rw [LedgerStore.read_commit, hes, List.append_assoc]
    · rcases List.mem_append.mp he with he | he
      · exact hengine e he
      · cases ha with
        | mk row hp hk hn hh =>
          have hpay : e.payload = row.payload := by
            have hmem : e.payload ∈ (LedgerStore.stamp (st'.count + 1) [row]).map (·.payload) :=
              List.mem_map_of_mem he
            rw [LedgerStore.stamp_payloads] at hmem
            simpa using hmem
          rw [hpay]
          exact hp

lemma clearedToday_engine {es fs : List Event} (h : ∀ e ∈ fs, e.payload.isEngine = true) (day : ℤ) :
    clearedToday (es ++ fs) day = clearedToday es day := by
  unfold clearedToday
  rw [List.any_append, Bool.or_eq_left_iff_imp]
  intro hany
  obtain ⟨e, he, hc⟩ := List.any_eq_true.mp hany
  have := h e he
  cases hp : e.payload <;> simp_all [Payload.isEngine]

/-- A search that finds nothing writes nothing. -/
lemma detectBreach_none {cfg : DeskConfig} {state : LedgerState} {equity ts : ℤ}
    {source : EventSource} {st st' : LedgerStore}
    (h : detectBreach cfg state equity ts source st = (.ok none, st')) : st' = st := by
  unfold detectBreach at h
  dsimp only at h
  generalize (if 0 < state.peakEquityLamports then _ else (0 : ℚ)) = drawdown at h
  split_ifs at h
  · exact (Prod.mk.inj h).2.symm
  · cases (Prod.mk.inj h).1
  · rw [Prog.bind_run_ok (Prod.ext (appendHalt_ok _ st) rfl)] at h
    cases (Prod.mk.inj h).1
  · rw [Prog.bind_run_ok (Prod.ext (appendHalt_ok _ st) rfl)] at h
    cases (Prod.mk.inj h).1
  · exact (Prod.mk.inj h).2.symm

/-- What is found once is found again on the same books. -/
lemma detectBreach_again {cfg : DeskConfig} {s s' : LedgerState} {equity ts : ℤ}
    {source : EventSource} {st st₁ st' : LedgerStore} {r : HaltReason}
    (h : detectBreach cfg s equity ts source st = (.ok (some r), st₁)) (hs : SameBook s s')
    (hc : clearedToday st'.read (utcDay ts) = clearedToday st.read (utcDay ts)) :
    ∃ st₂, detectBreach cfg s' equity ts source st' = (.ok (some r), st₂) := by
  unfold detectBreach at h ⊢
  dsimp only at h ⊢
  rw [hs.dayStart, hs.peak, hc]
  generalize (if 0 < s.peakEquityLamports then _ else (0 : ℚ)) = drawdown at h
  split_ifs at h ⊢
  · cases (Prod.mk.inj h).1
  · cases (Prod.mk.inj h).1
  · rw [Prog.bind_run_ok (Prod.ext (appendHalt_ok _ st) rfl)] at h
    rw [Prog.bind_run_ok (Prod.ext (appendHalt_ok _ st') rfl)]
    exact ⟨_, Prod.ext (Prod.mk.inj h).1 rfl⟩
  · rw [Prog.bind_run_ok (Prod.ext (appendHalt_ok _ st) rfl)] at h
    rw [Prog.bind_run_ok (Prod.ext (appendHalt_ok _ st') rfl)]
    exact ⟨_, Prod.ext (Prod.mk.inj h).1 rfl⟩
  · cases (Prod.mk.inj h).1

/-! ### The two steps that look for a breach -/

section Breach

variable {cfg : DeskConfig} {s s' : Desk × StepCtx}

lemma breach_ok {state : LedgerState} {equity : ℤ} {source : EventSource} {d d' : Desk}
    {found : Option HaltReason} (h : breach cfg state equity source d = (.ok found, d')) :
    detectBreach cfg state equity d.now source d.store = (.ok found, d'.store) ∧
      d' = { d with store := d'.store } := by
  unfold breach Desk.onStore Prog.on at h
  obtain ⟨h₁, rfl⟩ := Prod.mk.inj h
  exact ⟨Prod.ext h₁ rfl, rfl⟩

lemma still_of_store {d d' : Desk} (h : d' = { d with store := d'.store })
    (hst : d'.store = d.store) : d.Still d' := by
  rw [h, hst]
  exact Still.refl d

/-- The daily-loss step of a buy that passes found no loss; what it found instead it wrote. -/
lemma dailyStep_ok (h : runStep cfg .dailyLossHalt s = (.ok (), s')) :
    ∃ found, detectBreach cfg s.2.state s.2.equity s.1.now s.2.call.source s.1.store =
        (.ok found, s'.1.store) ∧
      found ≠ some .dailyLoss ∧ s'.1 = { s.1 with store := s'.1.store } ∧ s'.2.call = s.2.call := by
  simp only [runStep, stepDailyLossHalt, Walk.mark, Walk.update] at h
  rw [Prog.bind_run_ok (Prog.modify_run _ _), Prog.bind_run_ok (ctx_run _)] at h
  obtain ⟨found, s₁, hb, hf⟩ := Prog.bind_ok_iff.mp h
  obtain ⟨hne, rfl⟩ := Prog.raiseIf_ok_iff.mp hf
  obtain ⟨hb, hctx⟩ := onDesk_back hb
  obtain ⟨hdetect, hdesk⟩ := breach_ok hb
  exact ⟨found, hdetect, hne, hdesk, by rw [hctx]⟩

/-- The drawdown step that passes found no drawdown in the ledger as it then was. -/
lemma drawdownStep_ok (h : runStep cfg .drawdownHalt s = (.ok (), s')) :
    ∃ found, detectBreach cfg (s.1.fold cfg) (equityForHalts cfg (s.1.fold cfg)) s.1.now
        s.2.call.source s.1.store = (.ok found, s'.1.store) ∧
      found ≠ some .drawdown ∧ s'.1 = { s.1 with store := s'.1.store } := by
  simp only [runStep, stepDrawdownHalt, Walk.mark, Walk.update] at h
  rw [Prog.bind_run_ok (Prog.modify_run _ _)] at h
  obtain ⟨state, s₁, hlook, h⟩ := Prog.bind_ok_iff.mp h
  obtain ⟨hlook, hctx₁⟩ := onDesk_back hlook
  obtain ⟨hstate, hdesk₁⟩ := Prod.mk.inj hlook
  obtain rfl := Except.ok.inj hstate
  rw [Prog.bind_run_ok (Prog.modify_run _ _), Prog.bind_run_ok (ctx_run _)] at h
  obtain ⟨found, s₂, hb, hf⟩ := Prog.bind_ok_iff.mp h
  obtain ⟨hne, rfl⟩ := Prog.raiseIf_ok_iff.mp hf
  obtain ⟨hdetect, hdesk⟩ := breach_ok (onDesk_back hb).1
  simp only [← hdesk₁, hctx₁] at hdetect hdesk
  exact ⟨found, hdetect, hne, hdesk⟩

end Breach

lemma detectBreach_reason {cfg : DeskConfig} {state : LedgerState} {equity ts : ℤ}
    {source : EventSource} {st st' : LedgerStore} {r : HaltReason}
    (h : detectBreach cfg state equity ts source st = (.ok (some r), st')) :
    r = .dailyLoss ∨ r = .drawdown := by
  unfold detectBreach at h
  dsimp only at h
  generalize (if 0 < state.peakEquityLamports then _ else (0 : ℚ)) = drawdown at h
  split_ifs at h
  · cases (Prod.mk.inj h).1
  · cases (Prod.mk.inj h).1
  · rw [Prog.bind_run_ok (Prod.ext (appendHalt_ok _ st) rfl)] at h
    obtain rfl := Option.some.inj (Except.ok.inj (Prod.mk.inj h).1)
    exact .inl rfl
  · rw [Prog.bind_run_ok (Prod.ext (appendHalt_ok _ st) rfl)] at h
    obtain rfl := Option.some.inj (Except.ok.inj (Prod.mk.inj h).1)
    exact .inr rfl
  · cases (Prod.mk.inj h).1

/-- The engine's rows leave the books a fold reads. -/
lemma fold_sameBook {d d' : Desk} (cfg : DeskConfig) (hg : d.store.Grows EngineRow d'.store)
    (hn : d'.now = d.now) : SameBook (d.fold cfg) (d'.fold cfg) := by
  obtain ⟨es, hes, hengine⟩ := engine_rows hg
  unfold Desk.fold
  rw [hes, hn, hg.initialEquity_eq, replay_append]
  exact replay_engine hengine _

/-- **A walk of a buy that passes**, on the books it was prepared with, leaves the desk still: a
drawdown that the daily-loss step finds and writes is found again by the step after it. -/
theorem walkSteps_passed {cfg : DeskConfig} {s s' : Desk × StepCtx} {d : Desk}
    (h : walkSteps cfg stepIds s = (.ok (), s')) (hb : s.2.isBuy = true)
    (hstate : s.2.state = d.fold cfg) (hequity : s.2.equity = equityForHalts cfg (d.fold cfg))
    (hgrown : d.store.Grows EngineRow s.1.store) (hnow : s.1.now = d.now) : s.1.Still s'.1 := by
  rw [stepIds_split .dailyLossHalt] at h
  obtain ⟨s₁, s₂, hbefore, hdaily, hafter⟩ := walkSteps_split h
  have hstill₁ : s.1.Still s₁.1 := walkSteps_still cfg (by decide) (by decide) _ _ _ hbefore
  have hon := (walkSteps_onward cfg _).run hbefore
  have hst₁ : s₁.2.state = s.2.state := (walkSteps_state cfg (by decide)).run hbefore
  have heq₁ : s₁.2.equity = s.2.equity := (walkSteps_equity cfg (by decide)).run hbefore
  have hbuy : s.2.call.order.side = .buy := by simpa [StepCtx.isBuy] using hb
  have hskip : ∀ x, recheckStep x = true → ∀ c : StepCtx, c.call = s.2.call →
      skipStep x c.call.stage c.isExitSell = false := by
    intro x hx c hc
    rw [isExitSell_buy hbuy hc]
    exact skipStep_buy (.inr hx)
  rw [hskip _ rfl s₁.2 hon.call, if_neg (by simp)] at hdaily
  obtain ⟨found, hdetect, hne, hdesk₂, hcall₂⟩ := dailyStep_ok hdaily
  have hafter' : walkSteps cfg (.drawdownHalt :: stepsAfter .drawdownHalt) s₂ = (.ok (), s') :=
    hafter
  obtain ⟨s₃, hdraw, hrest⟩ := walkSteps_cons hafter'
  rw [hskip _ rfl s₂.2 (hcall₂.trans hon.call), if_neg (by simp)] at hdraw
  obtain ⟨found', hdetect', hne', hdesk₃⟩ := drawdownStep_ok hdraw
  have hstill₄ : s₃.1.Still s'.1 := walkSteps_still cfg (by decide) (by decide) _ _ _ hrest
  -- the second search reads the same books as the first
  have hsource : s₂.2.call.source = s₁.2.call.source := by rw [hcall₂]
  have hnow₂ : s₂.1.now = s₁.1.now := by rw [hdesk₂]
  have hrows : s₁.1.store.Grows EngineRow s₂.1.store := (detectBreach_grows _ _ _ _ _).run hdetect
  have hgrown₁ : d.store.Grows EngineRow s₁.1.store :=
    hgrown.trans (hstill₁.store.mono fun _ _ hf => hf.elim)
  have hbook : SameBook (d.fold cfg) (s₂.1.fold cfg) :=
    fold_sameBook cfg (hgrown₁.trans hrows) (hnow₂.trans (hstill₁.now.trans hnow))
  have hclear : clearedToday s₂.1.store.read (utcDay s₁.1.now) =
      clearedToday s₁.1.store.read (utcDay s₁.1.now) := by
    obtain ⟨es, hes, hengine⟩ := engine_rows hrows
    rw [hes]
    exact clearedToday_engine hengine _
  rw [hst₁, hstate, heq₁, hequity] at hdetect
  rw [hbook.equity, hsource, hnow₂] at hdetect'
  have hnone : found = none := by
    rcases found with - | r
    · rfl
    · obtain rfl | rfl := detectBreach_reason hdetect
      · exact absurd rfl hne
      · obtain ⟨st, hagain⟩ := detectBreach_again hdetect hbook hclear
        rw [hagain] at hdetect'
        exact absurd (Except.ok.inj (Prod.mk.inj hdetect').1).symm hne'
  subst hnone
  have hstill₂ : s₁.1.Still s₂.1 := still_of_store hdesk₂ (detectBreach_none hdetect)
  have hnone' : found' = none := by
    rcases found' with - | r
    · rfl
    · obtain rfl | rfl := detectBreach_reason hdetect'
      · have hback : SameBook (s₂.1.fold cfg) (d.fold cfg) :=
          ⟨hbook.cash.symm, hbook.positions.symm, hbook.counters.symm, hbook.dayStart.symm,
            hbook.peak.symm⟩
        obtain ⟨st, hagain⟩ := detectBreach_again hdetect' hback hclear.symm
        rw [hagain] at hdetect
        cases (Prod.mk.inj hdetect).1
      · exact absurd rfl hne'
  subst hnone'
  have hstill₃ : s₂.1.Still s₃.1 := still_of_store hdesk₃ (detectBreach_none hdetect')
  exact ((hstill₁.trans hstill₂).trans hstill₃).trans hstill₄

end PumpGrok
