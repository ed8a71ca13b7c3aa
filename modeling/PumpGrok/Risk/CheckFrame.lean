import PumpGrok.Risk.Engine
import PumpGrok.Risk.EngineRows

/-!
What a risk check can change. On the desk it moves the engine's own memory, draws ids and
appends engine rows; in the walk each step changes its own part of the context.
-/

namespace PumpGrok

/-- A change of the desk that the engine makes outside its decision cache. -/
structure Desk.Quietly (d d' : Desk) : Prop where
  store : d.store.Grows EngineRow d'.store
  now : d'.now = d.now
  ids : d.nextId ≤ d'.nextId
  decisions : d'.decisions = d.decisions
  observeOnly : d'.observeOnly = d.observeOnly
  reputation : d'.reputationDegraded = d.reputationDegraded
  liveUnmet : d'.liveUnmet = d.liveUnmet
  reserves : d'.reserves = d.reserves

namespace Desk

lemma Quietly.refl (d : Desk) : d.Quietly d := ⟨.refl, rfl, le_rfl, rfl, rfl, rfl, rfl, rfl⟩

lemma Quietly.trans {d d' d'' : Desk} (h : d.Quietly d') (h' : d'.Quietly d'') :
    d.Quietly d'' where
  store := h.store.trans h'.store
  now := h'.now.trans h.now
  ids := h.ids.trans h'.ids
  decisions := h'.decisions.trans h.decisions
  observeOnly := h'.observeOnly.trans h.observeOnly
  reputation := h'.reputation.trans h.reputation
  liveUnmet := h'.liveUnmet.trans h.liveUnmet
  reserves := h'.reserves.trans h.reserves

instance : IsPreorder Desk Quietly where
  refl := Quietly.refl
  trans _ _ _ := Quietly.trans

/-! ### The desk's own programs -/

lemma onStore_quietly {α : Type} {m : Prog LedgerStore Exc α}
    (h : Prog.Keeps (LedgerStore.Grows EngineRow) m) : Prog.Keeps Quietly (onStore m) :=
  h.on fun _ _ hs => ⟨hs, rfl, le_rfl, rfl, rfl, rfl, rfl, rfl⟩

lemma onBreakers_quietly {α : Type} {m : Prog BreakerSet.Bound Exc α}
    (h : Prog.Keeps BreakerSet.Grown m) : Prog.Keeps Quietly (onBreakers m) :=
  h.on fun _ _ hs => ⟨hs, rfl, le_rfl, rfl, rfl, rfl, rfl, rfl⟩

lemma onKill_quietly {α : Type} {m : Prog (KillSwitch × LedgerStore) Exc α}
    (h : Prog.Keeps KillSwitch.Grown m) : Prog.Keeps Quietly (onKill m) :=
  h.on fun _ _ hs => ⟨hs, rfl, le_rfl, rfl, rfl, rfl, rfl, rfl⟩

lemma ulid_quietly : Prog.Keeps Quietly ulid := fun _ =>
  ⟨.refl, rfl, Nat.le_succ _, rfl, rfl, rfl, rfl, rfl⟩

/-- A change of the engine's memory. -/
lemma quietly_memory (d : Desk) (k : KillSwitch) (b : BreakerSet)
    (o : Dict BreakerName OrderHash) :
    d.Quietly { d with killswitch := k, breakers := b, probeOwners := o } :=
  ⟨.refl, rfl, le_rfl, rfl, rfl, rfl, rfl, rfl⟩

end Desk

open Desk

/-- A halt row that cannot be written is no error. -/
lemma appendHalt_ok (row : Row) (st : LedgerStore) : (appendHalt row st).1 = .ok () := by
  unfold appendHalt
  rcases LedgerStore.appendSuppressing_run [.integrityError, .ledgerInconsistent] row st with
    ⟨-, -, h⟩ | ⟨x, hx, h⟩
  · rw [h]
  · rw [h]
    have hmem : x ∈ [Exc.integrityError, Exc.ledgerInconsistent] := by
      rcases (LedgerStore.append_error_iff.mp hx).2 with ⟨-, rfl⟩ | ⟨-, -, rfl⟩ <;> simp
    exact if_pos hmem

lemma appendHalt_grows (reason : HaltReason) (detail : HaltDetail) (equity dayStart ts : ℤ)
    (source : EventSource) {st : LedgerStore}
    (h : reason.isBreach = true → clearedToday st.read (utcDay ts) = false) :
    st.Grows EngineRow (appendHalt (haltRow reason detail equity dayStart ts source) st).2 := by
  refine LedgerStore.grows_appendSuppressing _ fun _ => .mk _ rfl rfl rfl ?_
  cases hb : reason.isBreach with
  | false => simp [Row.haltOk, haltRow, hb]
  | true => simp [Row.haltOk, haltRow, h hb]

lemma detectBreach_grows (cfg : DeskConfig) (state : LedgerState) (equity ts : ℤ)
    (source : EventSource) :
    Prog.Keeps (LedgerStore.Grows EngineRow) (detectBreach cfg state equity ts source) := by
  intro st
  unfold detectBreach
  dsimp only
  generalize (if 0 < state.peakEquityLamports then _ else (0 : ℚ)) = drawdown
  split_ifs with hc
  · exact .refl
  · exact .refl
  · rw [Prog.bind_run_ok (Prod.ext (appendHalt_ok _ st) rfl)]
    exact appendHalt_grows _ _ _ _ _ _ fun _ => Bool.eq_false_iff.mpr hc
  · rw [Prog.bind_run_ok (Prod.ext (appendHalt_ok _ st) rfl)]
    exact appendHalt_grows _ _ _ _ _ _ fun _ => Bool.eq_false_iff.mpr hc
  · exact .refl

lemma breach_quietly (cfg : DeskConfig) (state : LedgerState) (equity : ℤ)
    (source : EventSource) : Prog.Keeps Quietly (breach cfg state equity source) := fun d =>
  onStore_quietly (detectBreach_grows cfg state equity d.now source) d

lemma verifyStep_quietly (source : EventSource) : Prog.Keeps Quietly (verifyStep source) := by
  intro d
  have hv : d.Quietly { d with store := (LedgerStore.verify d.store).2 } :=
    ⟨LedgerStore.grows_verify, rfl, le_rfl, rfl, rfl, rfl, rfl, rfl⟩
  unfold verifyStep
  rcases h : LedgerStore.verify d.store with ⟨x | u, st⟩
  · rw [h] at hv
    refine hv.trans ?_
    refine Prog.Keeps.bind (onStore_quietly fun st => ?_) (fun _ => .pure _) _
    exact appendHalt_grows _ _ _ _ _ _ fun h => nomatch h
  · rw [h] at hv
    exact hv

lemma writeReputationEscalation_quietly (source : EventSource) :
    Prog.Keeps Quietly (writeReputationEscalation source) := fun d =>
  onStore_quietly (fun _ => LedgerStore.grows_appendSuppressing _ fun _ => .mk _ rfl rfl rfl rfl) d

/-! ### The walk -/

/-- What a step may change in the context. -/
inductive CtxMove : StepId → StepCtx → StepCtx → Prop
  | mark (x : StepId) (c : StepCtx) : CtxMove x c { c with evaluated := c.evaluated ++ [x] }
  | grant (c : StepCtx) (a : ApprovalRecord) :
      CtxMove .approvalMissing c { c with approval := some a, approvalId := some a.id }
  | tradeCap (c : StepCtx) (cap : ℤ) :
      CtxMove .maxTradeFraction c
        { c with
          finalSize := some cap, capped := true, caps := c.caps ++ [(.maxTradeFraction, cap)] }
  | tokenCap (c : StepCtx) (cap : ℤ) :
      CtxMove .maxTokenFraction c
        { c with
          finalSize := some cap, capped := true, caps := c.caps ++ [(.maxTokenFraction, cap)] }
  | refold (c : StepCtx) (state : LedgerState) (equity : ℤ) :
      CtxMove .drawdownHalt c { c with state := state, equity := equity }

/-- What the engine's own programs keep of the desk. -/
structure EngineFrame (Q : Desk → Desk → Prop) : Prop where
  memory : ∀ d b o, Q d { d with breakers := b, probeOwners := o }
  draw : Prog.Keeps Q Desk.ulid
  verify : ∀ source, Prog.Keeps Q (verifyStep source)
  breach : ∀ cfg state equity source, Prog.Keeps Q (breach cfg state equity source)
  escalate : ∀ source d, d.reputationDegraded = some true →
    Q d (writeReputationEscalation source d).2
  poll : ∀ d, Q d { d with killswitch := (d.killswitch.poll d.store.read).2 }
  observe : ∀ ts source, Prog.Keeps Q (onKill (KillSwitch.observe ts source))
  refresh : ∀ now ts source equity,
    Prog.Keeps Q (onBreakers (BreakerSet.refresh now ts source equity))
  resolve : ∀ now n ok ts source,
    Prog.Keeps Q (onBreakers (BreakerSet.resolveProbe now n ok ts source))

lemma quietly_frame : EngineFrame Quietly where
  memory d b o := quietly_memory d d.killswitch b o
  draw := ulid_quietly
  verify := verifyStep_quietly
  breach := breach_quietly
  escalate source d _ := writeReputationEscalation_quietly source d
  poll d := quietly_memory d _ d.breakers d.probeOwners
  observe ts source := onKill_quietly (KillSwitch.observe_grown ts source)
  refresh now ts source equity := onBreakers_quietly (BreakerSet.refresh_grown now ts source equity)
  resolve now n ok ts source :=
    onBreakers_quietly (BreakerSet.resolveProbe_grown now n ok ts source)

section Walk

variable {Q : Desk → Desk → Prop} (F : EngineFrame Q)
  {R : Desk × StepCtx → Desk × StepCtx → Prop} (hd : ∀ d d' c, Q d d' → R (d, c) (d', c))
include hd

lemma onDesk_keeps {α : Type} {m : Prog Desk Exc α} (h : Prog.Keeps Q m) :
    Prog.Keeps R (Walk.onDesk m) := by
  intro s
  have hs := hd s.1 _ s.2 (h s.1)
  unfold Walk.onDesk
  rcases hm : m s.1 with ⟨x | a, d⟩
  · rw [hm] at hs
    exact hs
  · rw [hm] at hs
    exact hs

omit hd in
lemma update_keeps {f : StepCtx → StepCtx} (h : ∀ d c, R (d, c) (d, f c)) :
    Prog.Keeps R (Walk.update f) :=
  .modify fun s => h s.1 s.2

variable {x : StepId} (hc : ∀ d c c', CtxMove x c c' → R (d, c) (d, c'))
include hc

omit hd in
lemma mark_keeps : Prog.Keeps R (Walk.mark x) := update_keeps fun d c => hc d c _ (.mark x c)

variable [IsPreorder _ R] [IsPreorder _ Q]

include F in
omit [IsPreorder _ R] [IsPreorder _ Q] hc in
lemma refuseDegraded_keeps {source : EventSource} {s : Desk × StepCtx}
    (h : s.1.reputationDegraded = some true) : R s (refuseDegraded source s).2 := by
  have hs := hd s.1 _ s.2 (F.escalate source s.1 h)
  rcases hm : writeReputationEscalation source s.1 with ⟨x | u, d⟩
  · have hrun : Walk.onDesk (writeReputationEscalation source) s = (.error (.exc x), d, s.2) := by
      unfold Walk.onDesk
      rw [hm]
    rw [hm] at hs
    rw [refuseDegraded, Prog.bind_run_error hrun]
    exact hs
  · have hrun : Walk.onDesk (writeReputationEscalation source) s = (.ok u, d, s.2) := by
      unfold Walk.onDesk
      rw [hm]
    rw [hm] at hs
    rw [refuseDegraded, Prog.bind_run_ok hrun]
    exact hs

include F in
/-- **One step** changes the desk as the engine's programs do, and the context by its own moves. -/
theorem runStep_keeps (cfg : DeskConfig) : Prog.Keeps R (runStep cfg x) := by
  have hctx : Prog.Keeps R Walk.ctx := .read _
  have hfail : ∀ (p : Prop) [Decidable p] (r : Reason), Prog.Keeps R (Walk.failIf p r) :=
    fun p _ r => .raiseIf p _
  have hlook : ∀ {α : Type} (f : Desk → α), Prog.Keeps R (Walk.onDesk (Prog.read f)) :=
    fun f => onDesk_keeps hd (.read f)
  have hgrant : x = .approvalMissing → ∀ a, Prog.Keeps R (grant a) := by
    rintro rfl a
    exact update_keeps fun d c => hc d c _ (.grant c a)
  cases x with
  | ledgerInconsistent =>
    refine (mark_keeps hc).bind fun _ => hctx.bind fun c => ?_
    exact (onDesk_keeps hd (F.verify _)).bind fun ok => hfail _ _
  | killSwitch => exact (mark_keeps hc).bind fun _ => hctx.bind fun c => hfail _ _
  | halted => exact (mark_keeps hc).bind fun _ => hctx.bind fun c => hfail _ _
  | breakerOpen =>
    refine (mark_keeps hc).bind fun _ => hctx.bind fun c s => ?_
    -- the escalation is written where the book is found degraded, and only there
    refine (hlook _).bind_of fun degraded s' hs => ?_
    obtain ⟨hdegraded, rfl⟩ := Prod.mk.inj hs
    obtain rfl := Except.ok.inj hdegraded
    split_ifs with h
    · exact refuseDegraded_keeps F hd (of_decide_eq_true h.2)
    · exact hfail _ _ s
  | liveGate => exact (mark_keeps hc).bind fun _ => (hlook _).bind fun unmet => hfail _ _
  | approvalMissing =>
    refine (mark_keeps hc).bind fun _ => hctx.bind fun c => .ite ?_ ?_
    · have hmint : Prog.Keeps Q (mintAutonomous c.order c.call.exitReason) := fun d => F.draw d
      exact (onDesk_keeps hd hmint).bind fun a => hgrant rfl a
    · rcases c.approvals c.order.approvalId with - | a
      · exact .raise _
      · exact .ite (.raise _) (hgrant rfl a)
  | approvalMismatch =>
    refine (mark_keeps hc).bind fun _ => hctx.bind fun c => ?_
    rcases c.approval with - | a
    · exact .raise _
    · exact .ite (.pure _) (hfail _ _)
  | seatMayTrade =>
    refine (mark_keeps hc).bind fun _ => hctx.bind fun c => (hlook _).bind fun seats => ?_
    exact hfail _ _
  | maxTradesPerDay => exact (mark_keeps hc).bind fun _ => hctx.bind fun c => hfail _ _
  | maxOpenPositions => exact (mark_keeps hc).bind fun _ => hctx.bind fun c => hfail _ _
  | alreadyOpen => exact (mark_keeps hc).bind fun _ => hctx.bind fun c => hfail _ _
  | creatorAlreadyOpen =>
    refine (mark_keeps hc).bind fun _ => hctx.bind fun c => (hlook _).bind fun creator => ?_
    exact hfail _ _
  | maxTradeFraction =>
    refine (mark_keeps hc).bind fun _ => hctx.bind fun c => .ite ?_ (.pure _)
    rcases c.finalSize with - | size
    · exact .raise _
    · exact .ite (update_keeps fun d c => hc d c _ (.tradeCap c _)) (.pure _)
  | maxTokenFraction =>
    refine (mark_keeps hc).bind fun _ => hctx.bind fun c => .ite ?_ (.pure _)
    rcases c.finalSize with - | size
    · exact .raise _
    · refine .ite ((hfail _ _).bind fun _ => ?_) (.pure _)
      exact update_keeps fun d c => hc d c _ (.tokenCap c _)
  | dailyLossHalt =>
    refine (mark_keeps hc).bind fun _ => hctx.bind fun c => ?_
    exact (onDesk_keeps hd (F.breach _ _ _ _)).bind fun found => hfail _ _
  | drawdownHalt =>
    refine (mark_keeps hc).bind fun _ => (hlook _).bind fun state => ?_
    refine (update_keeps fun d c => hc d c _ (.refold c _ _)).bind fun _ => hctx.bind fun c => ?_
    exact (onDesk_keeps hd (F.breach _ _ _ _)).bind fun found => hfail _ _
  | dataStale =>
    exact (mark_keeps hc).bind fun _ => hctx.bind fun c => (hlook _).bind fun now => hfail _ _
  | sizeTooSmall =>
    refine (mark_keeps hc).bind fun _ => hctx.bind fun c => .ite ?_ (.pure _)
    rcases c.finalSize with - | size
    · exact .raise _
    · exact hfail _ _
  | belowLiquidityFloor =>
    refine (mark_keeps hc).bind fun _ => hctx.bind fun c => .ite ?_ (.pure _)
    rcases c.finalSize with - | size
    · exact .raise _
    · refine (hlook _).bind fun reserves => ?_
      rcases reserves with - | r
      · exact .raise _
      · exact hfail _ _

omit hc in
include F in
theorem walkSteps_keeps (cfg : DeskConfig) (xs : List StepId)
    (hc : ∀ x ∈ xs, ∀ d c c', CtxMove x c c' → R (d, c) (d, c')) :
    Prog.Keeps R (walkSteps cfg xs) := by
  induction xs with
  | nil => exact .pure _
  | cons x xs ih =>
    have hrest := ih fun y hy => hc y (List.mem_cons_of_mem _ hy)
    refine Prog.Keeps.bind (.read _) fun c => .ite hrest ?_
    exact (runStep_keeps F hd (hc x (by simp)) cfg).bind fun _ => hrest

omit hd hc in
lemma confirmHolding_keeps : Prog.Keeps R confirmHolding :=
  Prog.Keeps.bind (.read _) fun _ => .ite (.pure _) (.raiseIf _ _)

omit hc [IsPreorder _ Q] in
include F in
lemma claimProbe_keeps (hp : ∀ d c, R (d, c) (d, { c with probe := true })) (orderHash : OrderHash)
    (probes : ProbeView) : Prog.Keeps R (claimProbe orderHash probes) := by
  have hprobe : Prog.Keeps R (Walk.update fun c => { c with probe := true }) := update_keeps hp
  refine Prog.Keeps.bind (.read _) fun c => .ite (.pure _) (.ite hprobe ?_)
  rcases probes.halfAvail with - | ⟨n, -⟩
  · exact .raise _
  · have hadmit : Prog.Keeps Q (admitOwned n orderHash) := fun d => F.memory d _ _
    refine (onDesk_keeps hd hadmit).bind fun admitted => ?_
    exact .ite hprobe (.raise _)

end Walk

/-- What a walk never touches. -/
structure Onward (s s' : Desk × StepCtx) : Prop where
  desk : s.1.Quietly s'.1
  call : s'.2.call = s.2.call
  kill : s'.2.kill = s.2.kill
  openBreakers : s'.2.openBreakers = s.2.openBreakers
  halfBlocked : s'.2.halfBlocked = s.2.halfBlocked

instance : IsPreorder (Desk × StepCtx) Onward where
  refl _ := ⟨.refl _, rfl, rfl, rfl, rfl⟩
  trans _ _ _ h h' := ⟨h.desk.trans h'.desk, h'.call.trans h.call, h'.kill.trans h.kill,
    h'.openBreakers.trans h.openBreakers, h'.halfBlocked.trans h.halfBlocked⟩

lemma onward_desk (d d' : Desk) (c : StepCtx) (h : d.Quietly d') : Onward (d, c) (d', c) :=
  ⟨h, rfl, rfl, rfl, rfl⟩

lemma CtxMove.onward {x : StepId} (d : Desk) {c c' : StepCtx} (h : CtxMove x c c') :
    Onward (d, c) (d, c') := by
  cases h <;> exact ⟨.refl d, rfl, rfl, rfl, rfl⟩

lemma runStep_onward (cfg : DeskConfig) (x : StepId) : Prog.Keeps Onward (runStep cfg x) :=
  runStep_keeps quietly_frame onward_desk (fun d _ _ h => h.onward d) cfg

lemma walkSteps_onward (cfg : DeskConfig) (xs : List StepId) :
    Prog.Keeps Onward (walkSteps cfg xs) :=
  walkSteps_keeps quietly_frame onward_desk cfg xs fun _ _ d _ _ h => h.onward d

lemma admitOwned_quietly (n : BreakerName) (orderHash : OrderHash) :
    Prog.Keeps Quietly (admitOwned n orderHash) := fun d => quietly_memory d _ _ _

lemma claimProbe_onward (orderHash : OrderHash) (probes : ProbeView) :
    Prog.Keeps Onward (claimProbe orderHash probes) :=
  claimProbe_keeps quietly_frame onward_desk (fun d _ => ⟨.refl d, rfl, rfl, rfl, rfl⟩) orderHash
    probes

/-! ### The check -/

/-- The walk seen from the desk. -/
def OnDesk (Q : Desk → Desk → Prop) : Desk × StepCtx → Desk × StepCtx → Prop :=
  fun s s' => Q s.1 s'.1

section Frame

variable {Q : Desk → Desk → Prop} (F : EngineFrame Q)

lemma concludeWalk_keeps (orderHash : OrderHash) (c : StepCtx) {walk : Walk Unit}
    (h : Prog.Keeps (OnDesk Q) walk) : Prog.Keeps Q (concludeWalk orderHash c walk) := by
  intro d
  have hw : Q d (walk (d, c)).2.1 := h (d, c)
  unfold concludeWalk
  split <;> rename_i hr <;> rw [hr] at hw <;> exact hw

include F

lemma snapshotProbes_keeps (orderHash : OrderHash) : Prog.Keeps Q (snapshotProbes orderHash) :=
  fun d => F.memory d _ _

variable [IsPreorder _ Q]

omit F in
instance : IsPreorder (Desk × StepCtx) (OnDesk Q) where
  refl _ := refl_of Q _
  trans _ _ _ h h' := trans_of Q h h'

lemma pollKill_keeps (source : EventSource) : Prog.Keeps Q (pollKill source) :=
  Prog.Keeps.bind (.read _) fun ts => (F.observe ts source).bind fun _ d => F.poll d

lemma newCtx_keeps (cfg : DeskConfig) (call : CheckCall) (state : LedgerState) (equity : ℤ)
    (probes : ProbeView) : Prog.Keeps Q (newCtx cfg call state equity probes) :=
  (pollKill_keeps F _).bind fun _ d => F.memory d _ d.probeOwners

/-- **An evaluation** changes the desk as the engine's programs do, whatever it decides. -/
theorem evaluate_keeps (cfg : DeskConfig) (call : CheckCall) :
    Prog.Keeps Q (evaluate cfg call) := by
  refine Prog.Keeps.bind (.read _) fun state => ?_
  refine Prog.Keeps.bind (.modify fun d => F.memory d _ d.probeOwners) fun _ => ?_
  refine Prog.Keeps.bind (.read _) fun now => ?_
  refine (F.refresh _ _ _ _).bind fun _ => ?_
  refine (snapshotProbes_keeps F _).bind fun probes => ?_
  refine (newCtx_keeps F cfg call state _ probes).bind fun ctx => ?_
  refine concludeWalk_keeps _ ctx ?_
  have hd : ∀ d d' c, Q d d' → OnDesk Q (d, c) (d', c) := fun _ _ _ h => h
  have hsame : ∀ d c c', OnDesk Q (d, c) (d, c') := fun d _ _ => refl_of Q d
  refine (walkSteps_keeps F hd cfg stepIds fun _ _ d c c' _ => hsame d c c').bind fun _ => ?_
  refine confirmHolding_keeps.bind fun _ => ?_
  exact claimProbe_keeps F hd (fun d c => hsame d c _) _ _

lemma releaseOne_keeps (orderHash : OrderHash) (ok : Bool) (source : EventSource)
    (n : BreakerName) : Prog.Keeps Q (releaseOne orderHash ok source n) := by
  intro d
  have hresolve : Prog.Keeps Q (resolveOwned n ok source) := by
    refine Prog.Keeps.bind (.read _) fun now => ?_
    refine (F.resolve _ _ _ _ _).bind fun _ => ?_
    exact .modify fun d => F.memory d d.breakers _
  unfold releaseOne
  split_ifs
  · exact refl_of Q d
  · exact F.memory d d.breakers _
  · exact hresolve d

lemma releaseEach_keeps (orderHash : OrderHash) (ok : Bool) (source : EventSource)
    (ns : List BreakerName) : Prog.Keeps Q (releaseEach orderHash ok source ns) := by
  induction ns with
  | nil => exact .pure _
  | cons n ns ih => exact (releaseOne_keeps F orderHash ok source n).bind fun _ => ih

lemma releaseOrderProbes_keeps (orderHash : OrderHash) (ok : Bool) (source : EventSource) :
    Prog.Keeps Q (releaseOrderProbes orderHash ok source) := fun d =>
  releaseEach_keeps F orderHash ok source _ d

end Frame

lemma snapshotProbes_quietly (orderHash : OrderHash) :
    Prog.Keeps Quietly (snapshotProbes orderHash) := snapshotProbes_keeps quietly_frame orderHash

lemma pollKill_quietly (source : EventSource) : Prog.Keeps Quietly (pollKill source) :=
  pollKill_keeps quietly_frame source

lemma newCtx_quietly (cfg : DeskConfig) (call : CheckCall) (state : LedgerState) (equity : ℤ)
    (probes : ProbeView) : Prog.Keeps Quietly (newCtx cfg call state equity probes) :=
  newCtx_keeps quietly_frame cfg call state equity probes

theorem evaluate_quietly (cfg : DeskConfig) (call : CheckCall) :
    Prog.Keeps Quietly (evaluate cfg call) := evaluate_keeps quietly_frame cfg call

/-- The desk a check evaluates on, once it has read its key. -/
def keyedDesk (d : Desk) : Desk :=
  let k := d.killswitch.absorbAlerts
  { d with
    killswitch := (k.poll d.store.read).2
    breakers := d.breakers.expireAll d.now }

/-- The key a check looks its decision up under. -/
def keyOf (call : CheckCall) (d : Desk) : CacheKey :=
  let kill := (d.killswitch.absorbAlerts.poll d.store.read).1
  { stage := call.stage
    orderHash := orderHashFor call.order
    approvalId := call.order.approvalId
    count := d.store.count
    killActive := kill.active
    killSource := kill.source
    killReason := kill.reason
    openBreakers := d.breakers.openBreakers d.now
    halfOpenBreakers := d.breakers.halfOpenBreakers d.now }

lemma keyedDesk_quietly (d : Desk) : d.Quietly (keyedDesk d) := quietly_memory d _ _ _

/-- **A check** answers from the cache, or evaluates on the keyed desk and caches what that
decides. -/
theorem check_run (cfg : DeskConfig) (call : CheckCall) (d : Desk) :
    check cfg call d =
      match d.decisions.get (keyOf call d) with
      | some decision => (.ok decision, keyedDesk d)
      | none =>
        match evaluate cfg call (keyedDesk d) with
        | (.ok decision, d') =>
          (.ok decision, { d' with
            decisions := (d'.decisions.set (keyOf call d) decision).keepNewest decisionCacheMax })
        | (.error x, d') => (.error x, d') := by
  have hkey : cacheKey call { d with killswitch := d.killswitch.absorbAlerts } =
      (.ok (keyOf call d), keyedDesk d) := rfl
  unfold check
  rw [Prog.bind_run_ok (Prog.modify_run _ _), Prog.bind_run_ok hkey,
    Prog.bind_run_ok (Prog.read_run _ _)]
  have hget : (keyedDesk d).decisions = d.decisions := rfl
  rw [hget]
  rcases d.decisions.get (keyOf call d) with - | decision
  · rcases he : evaluate cfg call (keyedDesk d) with ⟨x | decision, d'⟩
    · dsimp only
      exact Prog.bind_run_error he
    · dsimp only
      exact Prog.bind_run_ok he
  · rfl

/-! ### Probe outcomes -/

lemma releaseOrderProbes_quietly (orderHash : OrderHash) (ok : Bool) (source : EventSource) :
    Prog.Keeps Quietly (releaseOrderProbes orderHash ok source) :=
  releaseOrderProbes_keeps quietly_frame orderHash ok source

end PumpGrok
