import PumpGrok.Desk.System
import PumpGrok.Risk.DecisionCache
import PumpGrok.Risk.RefreshAgain

/-!
The check of an exit sell. Its walk runs no step that stands for a stop or a limit, so it is refused
for the ledger, the live gate, its approval or its seat alone. Before the walk an evaluation records
the breakers and the kill switch, and those rows a latched handle refuses.
-/

namespace PumpGrok

/-! ### The walk -/

/-- What an exit sell may be refused for. -/
def ownRefusals : List Reason :=
  [.step .ledgerInconsistent, .step .liveGate, .step .approvalMissing, .step .approvalMismatch,
    .step .seatMayTrade]

/-- A decision that passes, or refuses for one of these. -/
def RiskDecision.Spared (dec : RiskDecision) : Prop := dec.passed = true ∨ dec.reason ∈ ownRefusals

instance (dec : RiskDecision) : Decidable dec.Spared := inferInstanceAs (Decidable (_ ∨ _))

/-- The outcome of a check that traps no exit: a decision, and one that spares it. -/
inductive Untrapped : Except Exc RiskDecision → Prop
  | decided {dec : RiskDecision} (h : dec.Spared) : Untrapped (.ok dec)

lemma untrapped_ok {dec : RiskDecision} : Untrapped (.ok dec) ↔ dec.Spared :=
  ⟨fun h => by cases h; assumption, .decided⟩

lemma not_untrapped_error {x : Exc} : ¬ Untrapped (.error x) := fun h => by cases h

instance : DecidablePred Untrapped
  | .ok dec => decidable_of_iff dec.Spared untrapped_ok.symm
  | .error _ => .isFalse not_untrapped_error

/-- A step ends as the steps of an exit sell do: it passes, or refuses in its own name. -/
def StepEnds (x : StepId) (s : Desk × StepCtx) (r : Except StepExc Unit × Desk × StepCtx) : Prop :=
  (r.1 = .ok () ∨ r.1 = .error (.fail (.step x))) ∧ r.2.2.call = s.2.call ∧
    r.2.2.state = s.2.state

section Steps

variable {cfg : DeskConfig} {s : Desk × StepCtx} {x : StepId}

lemma failIf_ends {p : Prop} [Decidable p] {s' : Desk × StepCtx} (hcall : s'.2.call = s.2.call)
    (hstate : s'.2.state = s.2.state) :
    StepEnds x s (Walk.failIf p (.step x) s') := by
  unfold Walk.failIf Prog.raiseIf
  split_ifs
  · exact ⟨.inr rfl, hcall, hstate⟩
  · exact ⟨.inl rfl, hcall, hstate⟩

lemma onDesk_read {α : Type} (f : Desk → α) (s : Desk × StepCtx) :
    Walk.onDesk (Prog.read f) s = (.ok (f s.1), s) := rfl

/-- A step marks itself, and reads the context it has then. -/
lemma marked_ends {m : Walk Unit} (h : ∀ s' : Desk × StepCtx, StepEnds x s' (m s')) :
    StepEnds x s ((do Walk.mark x; m : Walk Unit) s) := by
  obtain ⟨s', hm, hcall, hstate⟩ : ∃ s', Walk.mark x s = (.ok (), s') ∧
      s'.2.call = s.2.call ∧ s'.2.state = s.2.state := ⟨_, rfl, rfl, rfl⟩
  rw [Prog.bind_run_ok hm]
  obtain ⟨hr, hcall', hstate'⟩ := h s'
  exact ⟨hr, hcall'.trans hcall, hstate'.trans hstate⟩

lemma verifyStep_ok (source : EventSource) (d : Desk) :
    ∃ b d', verifyStep source d = (.ok b, d') := by
  unfold verifyStep
  rcases LedgerStore.verify d.store with ⟨x | u, st⟩
  · have ha := appendHalt_ok (haltRow .ledgerInconsistent .verifyFailed 0 0 d.now source) st
    have hs : Desk.onStore (appendHalt (haltRow .ledgerInconsistent .verifyFailed 0 0 d.now source))
        { d with store := st } = (.ok (), { d with store := (appendHalt (haltRow
          .ledgerInconsistent .verifyFailed 0 0 d.now source) st).2 }) := by
      unfold Desk.onStore Prog.on
      dsimp only
      rw [ha]
    exact ⟨false, _, Prog.bind_run_ok hs⟩
  · exact ⟨true, _, rfl⟩

/-- **The steps an exit sell runs** pass or refuse in their own name, and raise nothing. -/
lemma ownStep_ends (cfg : DeskConfig) (hx : exitSkipStep x = false) (s : Desk × StepCtx) :
    StepEnds x s (runStep cfg x s) := by
  cases x with
  | ledgerInconsistent =>
    refine marked_ends fun s => ?_
    obtain ⟨b, d', hb⟩ := verifyStep_ok s.2.call.source s.1
    have hv : Walk.onDesk (verifyStep s.2.call.source) s = (.ok b, d', s.2) := by
      unfold Walk.onDesk
      rw [hb]
    rw [Prog.bind_run_ok (ctx_run s), Prog.bind_run_ok hv]
    exact failIf_ends rfl rfl
  | liveGate =>
    refine marked_ends fun s => ?_
    rw [Prog.bind_run_ok (onDesk_read _ s)]
    exact failIf_ends rfl rfl
  | approvalMissing =>
    refine marked_ends fun s => ?_
    rw [Prog.bind_run_ok (ctx_run s)]
    split_ifs
    · exact ⟨.inl rfl, rfl, rfl⟩
    · rcases s.2.approvals s.2.order.approvalId with - | a
      · exact ⟨.inr rfl, rfl, rfl⟩
      · dsimp only
        split_ifs
        · exact ⟨.inr rfl, rfl, rfl⟩
        · exact ⟨.inl rfl, rfl, rfl⟩
  | approvalMismatch =>
    refine marked_ends fun s => ?_
    rw [Prog.bind_run_ok (ctx_run s)]
    rcases s.2.approval with - | a
    · exact ⟨.inr rfl, rfl, rfl⟩
    · dsimp only
      split_ifs
      · exact ⟨.inl rfl, rfl, rfl⟩
      · exact failIf_ends rfl rfl
  | seatMayTrade =>
    refine marked_ends fun s => ?_
    rw [Prog.bind_run_ok (ctx_run s), Prog.bind_run_ok (onDesk_read _ s)]
    exact failIf_ends rfl rfl
  | _ => cases hx

/-- **The walk of an exit sell** ends with no refusal but its own, and raises nothing. -/
theorem exitWalk_ends (cfg : DeskConfig) (xs : List StepId) {s : Desk × StepCtx}
    (he : s.2.isExitSell = true) :
    ∃ r d' c', walkSteps cfg xs s = (r, d', c') ∧ c'.call = s.2.call ∧ c'.state = s.2.state ∧
      (r = .ok () ∨ ∃ reason ∈ ownRefusals, r = .error (.fail reason)) := by
  induction xs generalizing s with
  | nil => exact ⟨.ok (), s.1, s.2, rfl, rfl, rfl, .inl rfl⟩
  | cons x xs ih =>
    simp only [walkSteps]
    rw [Prog.bind_run_ok (ctx_run s)]
    split_ifs with hskip
    · exact ih he
    · have hx : exitSkipStep x = false := by
        unfold skipStep at hskip
        rw [he] at hskip
        split_ifs at hskip with hstage
        · exact absurd rfl hskip
        · rwa [Bool.true_and, Bool.not_eq_true] at hskip
      obtain ⟨hr, hcall, hstate⟩ := ownStep_ends cfg hx s
      rcases hrun : runStep cfg x s with ⟨r, d', c'⟩
      rw [hrun] at hr hcall hstate
      rcases hr with hr | hr
      · obtain rfl : r = .ok () := hr
        rw [Prog.bind_run_ok hrun]
        have he' : c'.isExitSell = true := by
          have hcall' : c'.call = s.2.call := hcall
          unfold StepCtx.isExitSell StepCtx.isBuy at he ⊢
          rwa [hcall']
        obtain ⟨r, d₁, c₁, h, hcall₁, hstate₁, hend⟩ := @ih (d', c') he'
        exact ⟨r, d₁, c₁, h, hcall₁.trans hcall, hstate₁.trans hstate, hend⟩
      · obtain rfl : r = .error (.fail (.step x)) := hr
        rw [Prog.bind_run_error hrun]
        refine ⟨_, d', c', rfl, hcall, hstate, .inr ⟨.step x, ?_, rfl⟩⟩
        cases x <;> first | decide | cases hx

/-- What an evaluation of an exit sell walks through, where the position is open. -/
lemma exitEvaluation_ends {cfg : DeskConfig} {call : CheckCall} {probes : ProbeView} {d : Desk}
    {c : StepCtx} (hcall : c.call = call) (he : c.isExitSell = true)
    (ho : (c.state.positions.get call.order.mint).any (0 < ·.tokenUnits) = true) :
    Untrapped (concludeWalk (orderHashFor call.order) c (evaluationWalk cfg call probes) d).1 := by
  obtain ⟨r, d', c', hwalk, hcall', hstate, hend⟩ := exitWalk_ends cfg stepIds (s := (d, c)) he
  unfold concludeWalk evaluationWalk
  rcases hend with rfl | ⟨reason, hmem, rfl⟩
  · have hbuy : c'.isBuy = false := by
      have hsell : c.isBuy = false := by
        unfold StepCtx.isExitSell at he
        cases hb : c.isBuy <;> simp_all
      unfold StepCtx.isBuy at hsell ⊢
      rwa [hcall']
    have hhold : confirmHolding (d', c') = (.ok (), d', c') := by
      unfold confirmHolding
      rw [Prog.bind_run_ok (ctx_run _)]
      split_ifs
      · rfl
      · have hopen : (c'.state.positions.get c'.order.mint).any (0 < ·.tokenUnits) = true := by
          rw [hstate]
          unfold StepCtx.order
          rw [hcall', hcall]
          exact ho
        exact Prog.raiseIf_ok_iff.mpr ⟨by rw [hopen]; exact Bool.noConfusion, rfl⟩
    have hclaim : claimProbe (orderHashFor call.order) probes (d', c') = (.ok (), d', c') := by
      unfold claimProbe
      rw [Prog.bind_run_ok (ctx_run _), if_pos (by rw [hbuy]; rfl)]
      rfl
    rw [Prog.bind_run_ok hwalk, Prog.bind_run_ok hhold, hclaim]
    exact .decided (.inl rfl)
  · rw [Prog.bind_run_error hwalk]
    exact .decided (.inr hmem)

end Steps

/-! ### What an evaluation records -/

namespace LedgerStore

/-- A handle that is not latched raises nothing here, and is not latched by a row. -/
lemma appendSuppressing_unlatched {st : LedgerStore} (h : st.inconsistent = false) (row : Row) :
    ∃ st', appendSuppressing [.integrityError] row st = (.ok (), st') ∧
      st'.inconsistent = false := by
  rcases appendSuppressing_run [.integrityError] row st with ⟨-, -, hr⟩ | ⟨x, hx, hr⟩
  · exact ⟨_, hr, h⟩
  · obtain ⟨-, ⟨hi, -⟩ | ⟨-, -, rfl⟩⟩ := append_error_iff.mp hx
    · rw [h] at hi
      cases hi
    · exact ⟨st, hr, h⟩

/-- A latched one raises. -/
lemma appendSuppressing_latched {st : LedgerStore} (h : st.inconsistent = true) (row : Row) :
    appendSuppressing [.integrityError] row st = (.error .ledgerInconsistent, st) := by
  rcases appendSuppressing_run [.integrityError] row st with ⟨hi, -, -⟩ | ⟨x, hx, hr⟩
  · rw [h] at hi
    cases hi
  · obtain ⟨-, ⟨-, rfl⟩ | ⟨hi, -, -⟩⟩ := append_error_iff.mp hx
    · exact hr
    · rw [h] at hi
      cases hi

end LedgerStore

namespace BreakerSet

open Breaker

variable {now ts equityNow : ℤ} {source : EventSource} {s : BreakerSet} {st : LedgerStore}
  {n : BreakerName} {before : BreakerState}

/-- A change of state that has a row. -/
def Reported (before after : BreakerState) : Prop := after ≠ before ∧ after ≠ .halfOpen

instance (before after : BreakerState) : Decidable (Reported before after) :=
  inferInstanceAs (Decidable (_ ∧ _))

/-- A refresh has a row to write. -/
def Reports (now : ℤ) (events : List Event) (equityNow : ℤ) (s : BreakerSet) : Prop :=
  ∃ n ∈ breakerNames, Reported (s.state now n) ((s.refreshed now events equityNow).state now n)

instance (now : ℤ) (events : List Event) (equityNow : ℤ) (s : BreakerSet) :
    Decidable (Reports now events equityNow s) := by
  unfold Reports
  infer_instance

section Latched

variable (hl : st.inconsistent = true)
include hl

/-- On a latched handle a change that has a row raises, and no other. -/
lemma transition_latched (hs : Settled (breakerConfig n) now (s.byName n)) (ts : ℤ)
    (source : EventSource) (before : BreakerState) :
    transition now n before ts source false (s, st) =
      (if Reported before (s.state now n) then .error .ledgerInconsistent else .ok (), s, st) := by
  have hread : readState now n (s, st) = (.ok (s.state now n), s, st) := by
    unfold readState
    rw [expire_eq hs, update_byName]
  have hrow : ∀ row, onStore (LedgerStore.appendSuppressing [.integrityError] row) (s, st) =
      (.error .ledgerInconsistent, s, st) := by
    intro row
    unfold onStore Prog.on
    rw [LedgerStore.appendSuppressing_latched hl]
  unfold transition
  rw [Prog.bind_run_ok hread]
  by_cases hb : s.state now n = before
  · rw [if_pos hb, if_neg fun h => h.1 hb]
    rfl
  · rw [if_neg hb]
    cases hstate : s.state now n with
    | halfOpen =>
      rw [if_neg (by decide), if_neg (by decide), if_neg fun h => h.2 rfl]
      rfl
    | opened =>
      rw [hstate] at hb
      rw [if_pos rfl, if_pos ⟨hb, by decide⟩]
      exact hrow _
    | closed =>
      rw [hstate] at hb
      rw [if_neg (by decide), if_pos rfl, if_pos ⟨hb, by decide⟩]
      exact hrow _

/-- **A refresh on a latched handle** raises exactly where it has a row to write, and
writes none. -/
lemma refresh_latched (ts : ℤ) (source : EventSource) (equityNow : ℤ) :
    (Reports now st.read equityNow s →
      (refresh now ts source equityNow (s, st)).1 = .error .ledgerInconsistent) ∧
    (¬ Reports now st.read equityNow s →
      refresh now ts source equityNow (s, st) =
        (.ok (), s.refreshed now st.read equityNow, st)) := by
  have hset := refreshed_settled now st.read equityNow s
  set s₁ := (s.expireAll now).observeAll now st.read equityNow with hs₁
  set s₂ := s₁.evaluate now .dataStale with hs₂
  set s₃ := s₂.evaluate now .lossVelocity with hs₃
  have hone : ∀ (n : BreakerName) (b : BreakerSet),
      Settled (breakerConfig n) now ((b.evaluate now n).byName n) →
      refreshOne now ts source (s.state now) n (b, st) =
        (if Reported (s.state now n) ((b.evaluate now n).state now n) then
          .error .ledgerInconsistent else .ok (), b.evaluate now n, st) := by
    intro n b hb
    unfold refreshOne
    rw [Prog.bind_run_ok (Prog.modify_run _ _)]
    exact transition_latched hl hb ts source _
  have r₁ := hone .dataStale s₁ (hset .dataStale)
  have r₂ := hone .lossVelocity s₂ (hset .lossVelocity)
  have r₃ := hone .execErrors s₃ (hset .execErrors)
  have e₁ : s₂.state now .dataStale = s₃.state now .dataStale := rfl
  have e₃ : (s₃.evaluate now .execErrors).state now .execErrors = s₃.state now .execErrors := rfl
  have hreports : Reports now st.read equityNow s ↔ Reported (s.state now .dataStale) (s₃.state now
      .dataStale) ∨ Reported (s.state now .lossVelocity) (s₃.state now .lossVelocity) ∨
        Reported (s.state now .execErrors) (s₃.state now .execErrors) := by
    unfold Reports
    simp only [breakerNames, List.mem_cons, List.not_mem_nil, or_false, exists_eq_or_imp,
      exists_eq_left]
    rfl
  rw [hreports]
  unfold refresh
  rw [Prog.bind_run_ok (Prog.read_run _ _), Prog.bind_run_ok (Prog.modify_run _ _)]
  by_cases h₁ : Reported (s.state now .dataStale) (s₃.state now .dataStale)
  · rw [e₁, if_pos h₁] at r₁
    rw [Prog.bind_run_error r₁]
    exact ⟨fun _ => rfl, fun h => absurd (.inl h₁) h⟩
  rw [e₁, if_neg h₁] at r₁
  rw [Prog.bind_run_ok r₁]
  by_cases h₂ : Reported (s.state now .lossVelocity) (s₃.state now .lossVelocity)
  · rw [if_pos h₂] at r₂
    rw [Prog.bind_run_error r₂]
    exact ⟨fun _ => rfl, fun h => absurd (.inr (.inl h₂)) h⟩
  rw [if_neg h₂] at r₂
  rw [Prog.bind_run_ok r₂]
  by_cases h₃ : Reported (s.state now .execErrors) (s₃.state now .execErrors)
  · rw [e₃, if_pos h₃] at r₃
    rw [r₃]
    exact ⟨fun _ => rfl, fun h => absurd (.inr (.inr h₃)) h⟩
  · rw [e₃, if_neg h₃] at r₃
    rw [r₃]
    refine ⟨fun h => ?_, fun _ => rfl⟩
    rcases h with h | h | h
    · exact absurd h h₁
    · exact absurd h h₂
    · exact absurd h h₃

end Latched

/-- On a handle that is not latched nothing raises. -/
lemma transition_unlatched (hl : st.inconsistent = false) (n : BreakerName)
    (before : BreakerState) (ts : ℤ) (source : EventSource) (s : BreakerSet) :
    ∃ s' st', transition now n before ts source false (s, st) = (.ok (), s', st') ∧
      st'.inconsistent = false := by
  have hrow : ∀ (m : Prog LedgerStore Exc Unit) (b : BreakerSet),
      (∃ st', m st = (.ok (), st') ∧ st'.inconsistent = false) →
      ∃ s' st', onStore m (b, st) = (.ok (), s', st') ∧ st'.inconsistent = false := by
    rintro m b ⟨st', hm, hl'⟩
    refine ⟨b, st', ?_, hl'⟩
    unfold onStore Prog.on
    rw [hm]
  unfold transition
  rw [Prog.bind_run_ok (show readState now n (s, st) = _ from rfl)]
  split_ifs
  · exact ⟨_, st, rfl, hl⟩
  · exact hrow _ _ (LedgerStore.appendSuppressing_unlatched hl _)
  · exact hrow _ _ (LedgerStore.appendSuppressing_unlatched hl _)
  · exact ⟨_, st, rfl, hl⟩

lemma refresh_unlatched (hl : st.inconsistent = false) (ts : ℤ) (source : EventSource)
    (equityNow : ℤ) (s : BreakerSet) :
    ∃ s' st', refresh now ts source equityNow (s, st) = (.ok (), s', st') ∧
      st'.inconsistent = false := by
  have hone : ∀ (n : BreakerName) (before : BreakerName → BreakerState) (b : BreakerSet)
      {x : LedgerStore}, x.inconsistent = false →
      ∃ s' st', refreshOne now ts source before n (b, x) = (.ok (), s', st') ∧
        st'.inconsistent = false := by
    intro n before b x hx
    unfold refreshOne
    rw [Prog.bind_run_ok (Prog.modify_run _ _)]
    exact transition_unlatched hx n (before n) ts source _
  unfold refresh
  rw [Prog.bind_run_ok (Prog.read_run _ _), Prog.bind_run_ok (Prog.modify_run _ _)]
  obtain ⟨s₁, st₁, r₁, h₁⟩ := hone .dataStale (s.state now) _ hl
  rw [Prog.bind_run_ok r₁]
  obtain ⟨s₂, st₂, r₂, h₂⟩ := hone .lossVelocity (s.state now) s₁ h₁
  rw [Prog.bind_run_ok r₂]
  exact hone .execErrors (s.state now) s₂ h₂

end BreakerSet

namespace KillSwitch

/-- The switch has a row to write: engaged, and not recorded as it is. -/
def Due (events : List Event) (k : KillSwitch) : Prop :=
  (k.poll events).1.active = true ∧
    match latestSet events with
    | none => True
    | some p => p.flattenRequested = false ∧ (k.poll events).1.flattenRequested = true

instance (events : List Event) (k : KillSwitch) : Decidable (k.Due events) := by
  unfold Due
  split <;> infer_instance

/-- **An observation** on a latched handle raises exactly where it has a row to write. -/
lemma observe_latched {st : LedgerStore} (hl : st.inconsistent = true) (ts : ℤ)
    (source : EventSource) (k : KillSwitch) :
    observe ts source (k, st) = (if k.Due st.read then .error .ledgerInconsistent else .ok (),
      (k.poll st.read).2, st) := by
  have hdue : k.Due st.read ↔ (!(k.poll st.read).1.active || !(match latestSet st.read with
      | none => true
      | some p => !p.flattenRequested && (k.poll st.read).1.flattenRequested)) = false := by
    unfold Due
    rcases latestSet st.read with - | p <;> simp
  unfold observe
  dsimp only
  by_cases hd : k.Due st.read
  · rw [if_pos hd]
    split_ifs with hw
    · exact absurd ((hdue.mp hd).symm.trans hw) Bool.false_ne_true
    · rw [LedgerStore.appendSuppressing_latched hl]
  · rw [if_neg hd]
    split_ifs with hw
    · rfl
    · exact absurd (hdue.mpr (Bool.eq_false_iff.mpr hw)) hd

lemma observe_unlatched {st : LedgerStore} (hl : st.inconsistent = false) (ts : ℤ)
    (source : EventSource) (k : KillSwitch) : (observe ts source (k, st)).1 = .ok () := by
  unfold observe
  dsimp only
  split_ifs
  · rfl
  · obtain ⟨st', hr, -⟩ := LedgerStore.appendSuppressing_unlatched hl
      { ts := ts
        source := source
        key := .killSwitch ((k.poll st.read).1.source.getD .env) (k.poll st.read).1.reason
          (utcDay ts) (k.poll st.read).1.flattenRequested (clearEpoch st.read)
        payload := .killSwitchSet
          { origin := (k.poll st.read).1.source.getD .env
            reason := (k.poll st.read).1.reason
            flattenRequested := (k.poll st.read).1.flattenRequested } }
    rw [hr]

end KillSwitch

/-! ### The check -/

/-- The breakers an evaluation refreshes, once they have seen the ledger. -/
def syncedBreakers (d : Desk) : BreakerSet := d.breakers.syncFromLedger d.now d.store.read

/-- An evaluation has a row to write before its walk: a breaker's or the kill switch's. -/
def RowDue (cfg : DeskConfig) (d : Desk) : Prop :=
  (syncedBreakers d).Reports d.now d.store.read (equityForHalts cfg (d.fold cfg)) ∨
    d.killswitch.Due d.store.read

instance (cfg : DeskConfig) (d : Desk) : Decidable (RowDue cfg d) :=
  inferInstanceAs (Decidable (_ ∨ _))

section Check

variable {cfg : DeskConfig} {call : CheckCall} {d : Desk}

lemma newCtx_run {probes : ProbeView} {state : LedgerState} {equity : ℤ} {d : Desk} :
    (∃ x, (KillSwitch.observe d.now call.source (d.killswitch, d.store)).1 = .error x ∧
      (newCtx cfg call state equity probes d).1 = .error x) ∨
    ((KillSwitch.observe d.now call.source (d.killswitch, d.store)).1 = .ok () ∧
      ∃ c d', newCtx cfg call state equity probes d = (.ok c, d')) := by
  rcases ho : KillSwitch.observe d.now call.source (d.killswitch, d.store) with ⟨x | ⟨⟩, k, st⟩
  · have hkill : Desk.onKill (KillSwitch.observe d.now call.source) d =
        (.error x, { d with killswitch := k, store := st }) := by
      unfold Desk.onKill Prog.on
      rw [ho]
    have hpoll : pollKill call.source d = (.error x, { d with killswitch := k, store := st }) := by
      unfold pollKill
      rw [Prog.bind_run_ok (Prog.read_run _ _)]
      exact Prog.bind_run_error hkill
    exact .inl ⟨x, rfl, congrArg Prod.fst (Prog.bind_run_error hpoll)⟩
  · have hkill : Desk.onKill (KillSwitch.observe d.now call.source) d =
        (.ok (), { d with killswitch := k, store := st }) := by
      unfold Desk.onKill Prog.on
      rw [ho]
    refine .inr ⟨rfl, ?_⟩
    have hpoll : ∃ kill d', pollKill call.source d = (.ok kill, d') := by
      unfold pollKill
      rw [Prog.bind_run_ok (Prog.read_run _ _)]
      exact ⟨_, _, (Prog.bind_run_ok hkill).trans rfl⟩
    obtain ⟨kill, d', hp⟩ := hpoll
    exact ⟨_, _, (Prog.bind_run_ok hp).trans rfl⟩

lemma snapshotProbes_run (orderHash : OrderHash) (d : Desk) :
    ∃ probes b o, snapshotProbes orderHash d =
      (.ok probes, { d with breakers := b, probeOwners := o }) := ⟨_, _, _, rfl⟩

/-- The walk of an exit sell, whatever desk its context was made on. -/
lemma exitContext_ends {probes : ProbeView} {equity : ℤ} {d₁ d₂ : Desk} {c : StepCtx}
    (hs : call.order.side = .sell) (he : call.exitReason.any ExitReason.isExitSell = true)
    (ho : ((d.fold cfg).positions.get call.order.mint).any (0 < ·.tokenUnits) = true)
    (hc : newCtx cfg call (d.fold cfg) equity probes d₁ = (.ok c, d₂)) :
    Untrapped (concludeWalk (orderHashFor call.order) c (evaluationWalk cfg call probes) d₂).1 := by
  obtain ⟨hcall, hstate, -, -⟩ := newCtx_ok hc
  refine exitEvaluation_ends hcall ?_ (by rw [hstate]; exact ho)
  unfold StepCtx.isExitSell StepCtx.isBuy
  rw [hcall, hs, he]
  rfl

/-- After the refresh only the observation of the switch can raise. -/
lemma observed_untrapped {probes : ProbeView} {equity : ℤ} {d₁ : Desk}
    (hs : call.order.side = .sell) (he : call.exitReason.any ExitReason.isExitSell = true)
    (ho : ((d.fold cfg).positions.get call.order.mint).any (0 < ·.tokenUnits) = true) :
    Untrapped ((do
      let ctx ← newCtx cfg call (d.fold cfg) equity probes
      concludeWalk (orderHashFor call.order) ctx (evaluationWalk cfg call probes) :
        Prog Desk Exc RiskDecision) d₁).1 ↔
      (KillSwitch.observe d₁.now call.source (d₁.killswitch, d₁.store)).1 = .ok () := by
  rcases @newCtx_run cfg call probes (d.fold cfg) equity d₁ with ⟨x, hx, hc⟩ | ⟨hok, c, d₂, hc⟩
  · have hrun : newCtx cfg call (d.fold cfg) equity probes d₁ =
        (.error x, (newCtx cfg call (d.fold cfg) equity probes d₁).2) := Prod.ext hc rfl
    rw [Prog.bind_run_error hrun, hx]
    exact ⟨fun h => absurd h not_untrapped_error, fun h => nomatch h⟩
  · rw [Prog.bind_run_ok hc]
    exact ⟨fun _ => hok, fun _ => exitContext_ends hs he ho hc⟩

/-- **The evaluation of an exit sell** traps it exactly where it has a row to write on a latched
handle. -/
theorem evaluate_untrapped (hs : call.order.side = .sell)
    (he : call.exitReason.any ExitReason.isExitSell = true)
    (ho : ((d.fold cfg).positions.get call.order.mint).any (0 < ·.tokenUnits) = true) :
    Untrapped (evaluate cfg call d).1 ↔ ¬ (d.store.inconsistent = true ∧ RowDue cfg d) := by
  have hsync : ∀ {β : Type} (f : Unit → Prog Desk Exc β), ((Prog.modify fun d : Desk =>
      { d with breakers := d.breakers.syncFromLedger d.now d.store.read }) >>= f) d =
        f () { d with breakers := syncedBreakers d } := fun f => rfl
  unfold evaluate
  rw [Prog.bind_run_ok (Prog.read_run _ _), hsync, Prog.bind_run_ok (Prog.read_run _ _)]
  set d₀ : Desk := { d with breakers := syncedBreakers d } with hd₀
  set equity := equityForHalts cfg (d.fold cfg) with hequity
  have hrefresh : ∀ {r : Except Exc Unit} {b : BreakerSet} {st : LedgerStore},
      BreakerSet.refresh d.now d.now call.source equity (syncedBreakers d, d.store) = (r, b, st) →
      Desk.onBreakers (BreakerSet.refresh d₀.now d₀.now call.source equity) d₀ =
        (r, { d with breakers := b, store := st }) := by
    intro r b st h
    unfold Desk.onBreakers Prog.on
    show (_, _) = _
    rw [show d₀.bound = (syncedBreakers d, d.store) from rfl, h]
    rfl
  cases hl : d.store.inconsistent with
  | false =>
    obtain ⟨b, st, hr, hst⟩ := @BreakerSet.refresh_unlatched d.now d.store hl d.now call.source
      equity (syncedBreakers d)
    rw [Prog.bind_run_ok (hrefresh hr)]
    obtain ⟨probes, b', o, hp⟩ := snapshotProbes_run (orderHashFor call.order)
      { d with breakers := b, store := st }
    rw [Prog.bind_run_ok hp]
    refine (observed_untrapped hs he ho).trans ⟨fun _ h => (nomatch h.1), fun _ => ?_⟩
    exact KillSwitch.observe_unlatched hst d.now call.source d.killswitch
  | true =>
    obtain ⟨hraise, hquiet⟩ := @BreakerSet.refresh_latched d.now (syncedBreakers d) d.store hl d.now
      call.source equity
    by_cases hrep : (syncedBreakers d).Reports d.now d.store.read equity
    · have hr := hrefresh (Prod.ext (hraise hrep) rfl)
      rw [Prog.bind_run_error hr]
      exact ⟨fun h => absurd h not_untrapped_error, fun h => absurd ⟨rfl, .inl hrep⟩ h⟩
    · rw [Prog.bind_run_ok (hrefresh (hquiet hrep))]
      obtain ⟨probes, b', o, hp⟩ := snapshotProbes_run (orderHashFor call.order)
        { d with breakers := (syncedBreakers d).refreshed d.now d.store.read equity }
      rw [Prog.bind_run_ok hp]
      refine (observed_untrapped hs he ho).trans ?_
      show (KillSwitch.observe d.now call.source (d.killswitch, d.store)).1 = .ok () ↔ _
      rw [KillSwitch.observe_latched hl]
      by_cases hdue : d.killswitch.Due d.store.read
      · rw [if_pos hdue]
        exact ⟨fun h => (nomatch h), fun h => absurd ⟨rfl, .inr hdue⟩ h⟩
      · rw [if_neg hdue]
        exact ⟨fun _ h => h.2.elim hrep hdue, fun _ => rfl⟩

/-- What a check of an exit sell depends on: the decision cached under its key spares it, or with
none cached no row is due on a latched handle. -/
structure ExitClear (cfg : DeskConfig) (call : CheckCall) (d : Desk) : Prop where
  cached : ∀ dec ∈ d.decisions.get (keyOf call d), dec.Spared
  unlatched : d.decisions.get (keyOf call d) = none →
    ¬ (d.store.inconsistent = true ∧ RowDue cfg (keyedDesk d))

instance (cfg : DeskConfig) (call : CheckCall) (d : Desk) : Decidable (ExitClear cfg call d) :=
  decidable_of_iff ((∀ dec ∈ d.decisions.get (keyOf call d), dec.Spared) ∧
    (d.decisions.get (keyOf call d) = none →
      ¬ (d.store.inconsistent = true ∧ RowDue cfg (keyedDesk d))))
    ⟨fun h => ⟨h.1, h.2⟩, fun h => ⟨h.1, h.2⟩⟩

/-- **Exits are not trapped** by a stop or a limit, in any state: the check of a protective exit of
an open position decides, and refuses for nothing but the ledger, the live gate, its approval or
its seat, exactly where no row of a breaker or of the kill switch is due on a latched handle and no
other refusal is cached under its key. -/
theorem exit_untrapped_iff (cfg : DeskConfig) (call : CheckCall) (d : Desk)
    (hs : call.order.side = .sell) (he : call.exitReason.any ExitReason.isExitSell = true)
    (ho : ((d.fold cfg).positions.get call.order.mint).any (0 < ·.tokenUnits) = true) :
    Untrapped (check cfg call d).1 ↔ ExitClear cfg call d := by
  rw [check_run]
  rcases hg : d.decisions.get (keyOf call d) with - | dec
  · have hkeyed : (keyedDesk d).fold cfg = d.fold cfg := rfl
    have hclear : ExitClear cfg call d ↔
        ¬ (d.store.inconsistent = true ∧ RowDue cfg (keyedDesk d)) :=
      ⟨fun h => h.unlatched hg, fun h => ⟨by simp [hg], fun _ => h⟩⟩
    have hwalk := @evaluate_untrapped cfg call (keyedDesk d) hs he (by rw [hkeyed]; exact ho)
    rw [hclear]
    refine Iff.trans ?_ hwalk
    dsimp only
    rcases evaluate cfg call (keyedDesk d) with ⟨x | dec, d'⟩
    · exact Iff.rfl
    · exact Iff.rfl
  · refine untrapped_ok.trans ⟨fun h => ⟨?_, fun hn => ?_⟩, fun h => h.cached dec hg⟩
    · intro x hx
      obtain rfl := Option.some.inj (hg.symm.trans hx)
      exact h
    · rw [hg] at hn
      cases hn

end Check

/-! ### Samples -/

/-- A position is bought, then the kill file appears. -/
def sampleKilled : List Action :=
  Sys.sampleReserves :: Sys.samplePlace 0 (Sys.sampleBuy 'a' 1) ++
    [.env (.latchFile { content := some "KILL stop".toList })]

/-- The same with a handle that a broken chain has latched, and the chain mended. -/
def sampleLatchedHandle : List Action :=
  sampleKilled ++ [.env (.chain false), .verify, .env (.chain true)]

def killedDesk : Desk := (Sys.sampleAfter sampleKilled).world.desk

def latchedDesk : Desk :=
  (Runs.after (Sys.step Sys.sampleConfig) (Sys.start 0 10000000000 {})
      sampleLatchedHandle).world.desk

def sampleExit (stage : Stage) : CheckCall :=
  (Sys.sampleSell 'a' 2 1000000000000 Sys.sample_units_pos).checkCall Sys.sampleConfig stage

/-- With the kill switch engaged the exit sells, at both stages. -/
theorem exit_untrapped_killed :
    Untrapped (check Sys.sampleConfig (sampleExit .accepted) killedDesk).1 ∧
      Untrapped (check Sys.sampleConfig (sampleExit .confirming) killedDesk).1 :=
  ⟨(exit_untrapped_iff Sys.sampleConfig (sampleExit .accepted) killedDesk (by decide) (by decide)
      (by decide +kernel)).mpr (by decide +kernel),
    (exit_untrapped_iff Sys.sampleConfig (sampleExit .confirming) killedDesk (by decide) (by decide)
      (by decide +kernel)).mpr (by decide +kernel)⟩

/-- On a latched handle the kill switch's row cannot be written, and the check raises. -/
theorem latched_exit_raises :
    ¬ ∀ (cfg : DeskConfig) (now e₀ : ℤ) (killswitch : KillSwitch) (as : List Action)
      (call : CheckCall), call.order.side = .sell →
      call.exitReason.any ExitReason.isExitSell = true →
      let d := (Runs.after (Sys.step cfg) (Sys.start now e₀ killswitch) as).world.desk
      ((d.fold cfg).positions.get call.order.mint).any (0 < ·.tokenUnits) = true →
        Untrapped (check cfg call d).1 := by
  intro h
  have hcall := h Sys.sampleConfig 0 10000000000 {} sampleLatchedHandle (sampleExit .accepted)
    (by decide) (by decide)
  have hd : latchedDesk = (Runs.after (Sys.step Sys.sampleConfig) (Sys.start 0 10000000000 {})
    sampleLatchedHandle).world.desk := rfl
  dsimp only at hcall
  rw [← hd] at hcall
  have htrapped : ¬ Untrapped (check Sys.sampleConfig (sampleExit .accepted) latchedDesk).1 := by
    decide +kernel
  exact htrapped (hcall (by decide +kernel))

end PumpGrok
