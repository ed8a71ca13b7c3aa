import PumpGrok.Execution.Place
import PumpGrok.Risk.DecisionCache

/-!
What each stretch of a `place` call can do, in full: the checks it runs, the one batch it may
append, what it leaves in the adapter's memory, and how it goes on or ends.
-/

namespace PumpGrok

open World

namespace World

/-- The world with rows committed. -/
def commit (w : World) (rows : List Row) : World :=
  { w with desk := { w.desk with store := w.desk.store.commit rows } }

def withDesk (w : World) (d : Desk) : World := { w with desk := d }

@[simp] lemma withDesk_desk (w : World) (d : Desk) : (w.withDesk d).desk = d := rfl

@[simp] lemma withDesk_mem (w : World) (d : Desk) : (w.withDesk d).mem = w.mem := rfl

@[simp] lemma commit_mem (w : World) (rows : List Row) : (w.commit rows).mem = w.mem := rfl

@[simp] lemma commit_store (w : World) (rows : List Row) :
    (w.commit rows).desk.store = w.desk.store.commit rows := rfl

@[simp] lemma commit_now (w : World) (rows : List Row) :
    (w.commit rows).desk.now = w.desk.now := rfl

end World

lemma onDesk_run {α : Type} {m : Prog Desk Exc α} {w : World} {r : Except Exc α} {d : Desk}
    (h : m w.desk = (r, d)) : onDesk m w = (r, w.withDesk d) := by
  unfold onDesk Prog.on
  rw [h]
  rfl

lemma onStore_run {α : Type} {m : Prog LedgerStore Exc α} {w : World} {r : Except Exc α}
    {st : LedgerStore} (h : m w.desk.store = (r, st)) :
    onStore m w = (r, w.withDesk { w.desk with store := st }) := by
  refine onDesk_run ?_
  unfold Desk.onStore Prog.on
  rw [h]

lemma fold_run (cfg : DeskConfig) (w : World) :
    World.fold cfg w = (.ok (w.desk.fold cfg), w) := rfl

lemma now_run (w : World) : World.now w = (.ok w.desk.now, w) := rfl

lemma ulid_run (w : World) :
    World.ulid w = (.ok w.desk.nextId,
      w.withDesk { w.desk with nextId := w.desk.nextId + 1 }) := rfl

lemma ofExcept_ok_iff {α : Type} {e : Except Exc α} {w w' : World} {a : α} :
    World.ofExcept e w = (.ok a, w') ↔ e = .ok a ∧ w' = w := by
  rcases e with x | b
  · simp [World.ofExcept]
  · simp [World.ofExcept, Prog.pure_run, @eq_comm _ w']

/-! ### Refusals -/

/-- The store takes a row. -/
def Takes (st : LedgerStore) (row : Row) : Prop := st.inconsistent = false ∧ st.byKey row.key = none

section Refusals

variable (r : OrderRequest) (reason : Reason) (detail : Detail) (stage : Stage)
  (fig : RejectFigures) (source : EventSource) (w : World)

/-- A refusal is recorded where the store takes it, and changes nothing else. -/
lemma reject_run :
    (Takes w.desk.store (rejectRow r reason detail stage fig source w.desk.now) ∧
      ∃ x, reject r reason detail stage fig source w =
        (.ok x, w.commit [rejectRow r reason detail stage fig source w.desk.now])) ∨
    (¬ Takes w.desk.store (rejectRow r reason detail stage fig source w.desk.now) ∧
      ∃ a, reject r reason detail stage fig source w = (a, w)) := by
  set row := rejectRow r reason detail stage fig source w.desk.now with hrow
  unfold reject Prog.catching
  simp only [← hrow]
  rcases ha : LedgerStore.append row w.desk.store with ⟨x | e, st⟩
  · obtain ⟨rfl, hx⟩ := LedgerStore.append_error_iff.mp ha
    refine .inr ⟨?_, ?_⟩
    · rintro ⟨hc, hk⟩
      rcases hx with ⟨hi, -⟩ | ⟨-, hf, -⟩
      · simp [hc] at hi
      · exact hf (LedgerStore.fresh_singleton.mpr hk)
    · rw [Prog.bind_run_error (onStore_run ha)]
      by_cases hi : x = .integrityError
      · simp only [if_pos hi]
        split <;> exact ⟨_, rfl⟩
      · simp only [if_neg hi]
        exact ⟨_, rfl⟩
  · obtain ⟨hc, hf, -, rfl⟩ := LedgerStore.append_ok_iff.mp ha
    refine .inl ⟨⟨hc, LedgerStore.fresh_singleton.mp hf⟩, ?_⟩
    rw [Prog.bind_run_ok (onStore_run ha)]
    exact ⟨_, rfl⟩

lemma refuse_run {α : Type} :
    ∃ x, (Takes w.desk.store (rejectRow r reason detail stage fig source w.desk.now) ∧
      (refuse r reason detail stage fig source : Prog World Exc α) w =
        (.error x, w.commit [rejectRow r reason detail stage fig source w.desk.now])) ∨
    (¬ Takes w.desk.store (rejectRow r reason detail stage fig source w.desk.now) ∧
      (refuse r reason detail stage fig source : Prog World Exc α) w = (.error x, w)) := by
  unfold refuse
  rcases reject_run r reason detail stage fig source w with ⟨ht, x, h⟩ | ⟨ht, a, h⟩
  · exact ⟨x, .inl ⟨ht, by rw [Prog.bind_run_ok h]; rfl⟩⟩
  · rcases a with x | x
    · exact ⟨x, .inr ⟨ht, Prog.bind_run_error h⟩⟩
    · exact ⟨x, .inr ⟨ht, by rw [Prog.bind_run_ok h]; rfl⟩⟩

/-- A refusal never returns. -/
lemma refuse_ne_ok {α : Type} {w' : World} {a : α} :
    (refuse r reason detail stage fig source : Prog World Exc α) w ≠ (.ok a, w') := by
  obtain ⟨x, ⟨-, h⟩ | ⟨-, h⟩⟩ := refuse_run (α := α) r reason detail stage fig source w <;>
    simp [h]

end Refusals

/-! ### To the first reading -/

/-- The row of a refusal before the order is placed. -/
def acceptedRefusal (cfg : DeskConfig) (c : PlaceCall) (reason : Reason) (detail : Detail)
    (ts : ℤ) : Row :=
  rejectRow c.request reason detail .accepted {} (c.ledgerSource cfg) ts

/-- A check, then at most one refusal before the order is placed. -/
inductive Unplaced (cfg : DeskConfig) (c : PlaceCall) (w : World) : World → Prop
  | silent {d : Desk} (hd : w.desk.Consulted cfg (c.checkCall cfg .accepted) d) :
      Unplaced cfg c w (w.withDesk d)
  | refused (reason : Reason) (detail : Detail) {d : Desk}
      (hd : w.desk.Consulted cfg (c.checkCall cfg .accepted) d)
      (hf : Takes d.store (acceptedRefusal cfg c reason detail d.now)) :
      Unplaced cfg c w ((w.withDesk d).commit [acceptedRefusal cfg c reason detail d.now])

lemma Unplaced.refuse {cfg : DeskConfig} {c : PlaceCall} {w : World} {d : Desk} {α : Type}
    (hd : w.desk.Consulted cfg (c.checkCall cfg .accepted) d) (reason : Reason) (detail : Detail) :
    ∃ x w', (PumpGrok.refuse c.request reason detail .accepted {} (c.ledgerSource cfg) :
      Prog World Exc α) (w.withDesk d) = (.error x, w') ∧ Unplaced cfg c w w' := by
  obtain ⟨x, ⟨ht, h⟩ | ⟨-, h⟩⟩ := refuse_run (α := α) c.request reason detail .accepted {}
    (c.ledgerSource cfg) (w.withDesk d)
  · exact ⟨x, _, h, .refused reason detail hd ht⟩
  · exact ⟨x, _, h, .silent hd⟩

inductive StartRun (cfg : DeskConfig) (c : PlaceCall) (w : World) :
    Except Exc Next → World → Prop
  | answered (o : Except Exc Fill) (h : repeatOutcome w.desk.store c.request = some o) :
      StartRun cfg c w (o.map .done) w
  | ended (x : Exc) {w' : World} (hn : repeatOutcome w.desk.store c.request = none)
      (h : Unplaced cfg c w w') : StartRun cfg c w (.error x) w'
  | asked (dec : RiskDecision) {d : Desk} (hn : repeatOutcome w.desk.store c.request = none)
      (hc : check cfg (c.checkCall cfg .accepted) w.desk = (.ok dec, d)) (hp : dec.passed = true) :
      StartRun cfg c w (.ok (.wait (.curve0 (dec.sizeLamports.getD 0)))) (w.withDesk d)

theorem placeStart_run (cfg : DeskConfig) (c : PlaceCall) (w : World) :
    StartRun cfg c w (placeStart cfg c w).1 (placeStart cfg c w).2 := by
  unfold placeStart
  rw [Prog.bind_run_ok (Prog.read_run _ _)]
  rcases hr : repeatOutcome w.desk.store c.request with - | o
  · dsimp only
    have hcons := check_consulted cfg (c.checkCall cfg .accepted) w.desk
    rcases hc : check cfg (c.checkCall cfg .accepted) w.desk with ⟨x | dec, d⟩
    · rw [hc] at hcons
      have hrisk : orderRiskDecision cfg c w = (.error x, w.withDesk d) :=
        Prog.bind_run_error (onDesk_run hc)
      rw [Prog.bind_run_error hrisk]
      exact .ended x hr (.silent hcons)
    · rw [hc] at hcons
      have hrisk : orderRiskDecision cfg c w = _ := Prog.bind_run_ok (onDesk_run hc)
      by_cases hh : dec.orderHash ≠ orderHashFor c.request
      · rw [if_pos hh] at hrisk
        rw [Prog.bind_run_error hrisk]
        exact .ended _ hr (.silent hcons)
      · rw [if_neg hh] at hrisk
        by_cases hp : dec.passed = true
        · rw [if_pos hp] at hrisk
          rw [Prog.bind_run_ok hrisk]
          exact .asked dec hr hc hp
        · rw [if_neg hp] at hrisk
          obtain ⟨x, w', hx, hu⟩ := Unplaced.refuse (α := RiskDecision) hcons dec.reason
            .riskRefused
          rw [hx] at hrisk
          rw [Prog.bind_run_error hrisk]
          exact .ended x hr hu
  · rcases o with x | fill
    · dsimp only
      exact .answered (.error x) hr
    · dsimp only
      exact .answered (.ok fill) hr

/-! ### To the latency sleep -/

/-- A buy priced at its first reading. -/
structure BuyQuoted (cfg : DeskConfig) (c : PlaceCall) (size : ℤ) (seen : CurveSnapshot)
    (q : BuyQuote) : Prop where
  floor : liquidityFloor cfg size ≤ seen.sLamports
  size_eq : q.size = size
  size_ne : size ≠ 0
  filled_eq : q.filled = min size (fillCap cfg seen.sLamports)
  fraction_eq : q.fraction = q.filled / q.size
  fee_eq : q.venueFee = cfg.fees.venueFee q.filled
  net_eq : q.xNet = q.filled - cfg.fees.venueFee q.filled
  bps_eq : q.slippageBps = slippageBps cfg c.request
  priced : buyOut seen.sLamports seen.tUnits q.xNet = .ok q.out0
  threshold_eq : q.threshold = q.out0 * (10000 - q.slippageBps) / 10000

/-- A sell sized and priced at its first reading. -/
structure SellQuoted (cfg : DeskConfig) (c : PlaceCall) (seen : CurveSnapshot) (plan : SellPlan) :
    Prop where
  units_eq : plan.units = sellUnits c.request seen
  units_pos : 0 < plan.units
  filled_le : plan.filledUnits ≤ plan.units
  fraction_eq : plan.fraction = plan.filledUnits / plan.units
  priced : ∃ gross, sellOut seen.sLamports seen.tUnits plan.filledUnits = .ok gross ∧
    plan.out0 = gross - cfg.fees.venueFee gross
  threshold_eq : plan.threshold = plan.out0 * (10000 - slippageBps cfg c.request) / 10000

/-- What was quoted fits the side of the order. -/
inductive QuotedOk (cfg : DeskConfig) (c : PlaceCall) (size : ℤ) (seen : CurveSnapshot) :
    Quoted → Prop
  | buy (q : BuyQuote) (hb : c.request.side = .buy) (hq : BuyQuoted cfg c size seen q) :
      QuotedOk cfg c size seen (.buy q)
  | sell (plan : SellPlan) (hs : c.request.side = .sell) (hp : SellQuoted cfg c seen plan) :
      QuotedOk cfg c size seen (.sell plan)

/-- A program that goes on with a value that meets `Q`, or ends with at most a refusal. -/
def GoesOn {α : Type} (cfg : DeskConfig) (c : PlaceCall) (Q : α → Prop) (w : World)
    (r : Except Exc α × World) : Prop :=
  (∃ a, r = (.ok a, w) ∧ Q a) ∨ ∃ x w', r = (.error x, w') ∧ Unplaced cfg c w w'

section Quoting

variable {cfg : DeskConfig} {c : PlaceCall} {w : World}

lemma GoesOn.refuse {α : Type} {Q : α → Prop} (reason : Reason) (detail : Detail) :
    GoesOn cfg c Q w ((PumpGrok.refuse c.request reason detail .accepted {}
      (c.ledgerSource cfg) : Prog World Exc α) w) := by
  obtain ⟨x, w', hx, hu⟩ := @Unplaced.refuse cfg c w w.desk α
    (refl_of (Desk.Consulted cfg (c.checkCall cfg .accepted)) w.desk) reason detail
  exact .inr ⟨x, w', hx, hu⟩

lemma GoesOn.raise {α : Type} {Q : α → Prop} (x : Exc) :
    GoesOn cfg c Q w ((.error x, w) : Except Exc α × World) :=
  .inr ⟨x, w, rfl, .silent (refl_of _ w.desk)⟩

lemma GoesOn.bind {α β : Type} {Q : α → Prop} {S : β → Prop} {m : Prog World Exc α}
    {f : α → Prog World Exc β} (hm : GoesOn cfg c Q w (m w))
    (hf : ∀ a, Q a → GoesOn cfg c S w (f a w)) : GoesOn cfg c S w ((m >>= f) w) := by
  rcases hm with ⟨a, ha, hq⟩ | ⟨x, w', hx, hu⟩
  · rw [Prog.bind_run_ok ha]
    exact hf a hq
  · rw [Prog.bind_run_error hx]
    exact .inr ⟨x, w', rfl, hu⟩

lemma orderCurve_run (curve0 : Option CurveSnapshot) :
    GoesOn cfg c (fun seen => curve0 = some seen) w (orderCurve cfg c curve0 w) := by
  unfold orderCurve
  rcases curve0 with - | seen
  · exact .refuse _ _
  · simp only
    split_ifs
    · exact .refuse _ _
    · exact .refuse _ _
    · exact .inl ⟨seen, rfl, rfl⟩

lemma GoesOn.ofExcept {α : Type} {Q : α → Prop} {e : Except Exc α} (h : ∀ a, e = .ok a → Q a) :
    GoesOn cfg c Q w (World.ofExcept e w) := by
  rcases e with x | a
  · exact .raise x
  · exact .inl ⟨a, rfl, h a rfl⟩

lemma buySizing_run (size : ℤ) (seen : CurveSnapshot) :
    GoesOn cfg c (BuyQuoted cfg c size seen) w (buySizing cfg c size seen w) := by
  unfold buySizing
  split_ifs with hfloor
  · exact .refuse _ _
  · refine .ofExcept fun q hq => ?_
    obtain ⟨fraction, hd, hq⟩ := except_bind_ok_iff.mp hq
    obtain ⟨out0, hb, hq⟩ := except_bind_ok_iff.mp hq
    obtain rfl := Except.ok.inj hq
    obtain ⟨hne, hfraction⟩ := decimalDiv_ok_iff.mp hd
    exact ⟨by omega, rfl, hne, rfl, hfraction, rfl, rfl, rfl, hb, rfl⟩

/-- The units asked for, and no more of them to fill. -/
structure Targets (c : PlaceCall) (seen : CurveSnapshot) (a : ℤ × ℤ) : Prop where
  units_eq : a.1 = sellUnits c.request seen
  units_pos : 0 < a.1
  filled_le : a.2 ≤ a.1

lemma sellTargets_run (seen : CurveSnapshot) :
    GoesOn cfg c (Targets c seen) w (sellTargets cfg c seen w) := by
  unfold sellTargets
  rw [Prog.bind_run_ok (fold_run cfg w)]
  split_ifs with _ hunits _
  · exact .refuse _ _
  · exact .refuse _ _
  · exact .refuse _ _
  · refine .inl ⟨_, rfl, rfl, not_le.mp hunits, ?_⟩
    exact (min_le_left _ _).trans (min_le_left _ _)

lemma planSell_run (seen : CurveSnapshot) {a : ℤ × ℤ} (ha : Targets c seen a) :
    GoesOn cfg c (SellQuoted cfg c seen) w
      (World.ofExcept (planSell cfg c.request seen a.1 a.2) w) := by
  refine .ofExcept fun plan hp => ?_
  obtain ⟨fraction, hd, hp⟩ := except_bind_ok_iff.mp hp
  obtain ⟨gross, hs, hp⟩ := except_bind_ok_iff.mp hp
  obtain rfl := Except.ok.inj hp
  exact ⟨ha.units_eq, ha.units_pos, ha.filled_le, (decimalDiv_ok_iff.mp hd).2,
    ⟨gross, hs, rfl⟩, rfl⟩

lemma quoteOrder_run (size : ℤ) (seen : CurveSnapshot) :
    GoesOn cfg c (QuotedOk cfg c size seen) w (quoteOrder cfg c size seen w) := by
  unfold quoteOrder
  rcases hside : c.request.side with - | -
  · refine (buySizing_run size seen).bind fun q hq => ?_
    exact .inl ⟨_, rfl, .buy q hside hq⟩
  · refine (sellTargets_run seen).bind fun a ha => ?_
    refine (planSell_run seen ha).bind fun plan hp => ?_
    exact .inl ⟨_, rfl, .sell plan hside hp⟩

end Quoting

/-- The rows of an order, at the time its batch is written. -/
def placedRows (cfg : DeskConfig) (c : PlaceCall) (dec : RiskDecision) (order : ℕ) (ts : ℤ) :
    List Row :=
  orderRows c dec order (c.ledgerSource cfg) ts

/-- The adapter's memory as an order goes to sleep. -/
def sleepMemory (owner order : ℕ) (a : Adapter) : Adapter :=
  { a with ownedOrder := a.ownedOrder.set owner order, inflight := insert order a.inflight }

/-- An order written: the decision it passed, the batch the store took. -/
structure Written (cfg : DeskConfig) (c : PlaceCall) (order : ℕ) (w : World) (dec : RiskDecision)
    (d : Desk) : Prop where
  checked : check cfg (c.checkCall cfg .accepted) w.desk = (.ok dec, d)
  passed : dec.passed = true
  consistent : d.store.inconsistent = false
  fresh : d.store.Fresh (placedRows cfg c dec order d.now)

lemma orderRows_ne_nil (c : PlaceCall) (dec : RiskDecision) (order : ℕ) (source : EventSource)
    (ts : ℤ) : orderRows c dec order source ts ≠ [] := by
  unfold orderRows
  split <;> simp

/-- Writing the batch commits it, or ends with at most a refusal. -/
lemma writeOrderBatch_run {cfg : DeskConfig} {c : PlaceCall} {dec : RiskDecision} {order : ℕ}
    {w : World} {d : Desk} (hd : w.desk.Consulted cfg (c.checkCall cfg .accepted) d) :
    (d.store.inconsistent = false ∧ d.store.Fresh (placedRows cfg c dec order d.now) ∧
      writeOrderBatch cfg c dec (placedRows cfg c dec order d.now) (w.withDesk d) =
        (.ok (), (w.withDesk d).commit (placedRows cfg c dec order d.now))) ∨
    ∃ x w', Unplaced cfg c w w' ∧
      writeOrderBatch cfg c dec (placedRows cfg c dec order d.now) (w.withDesk d) =
        (.error x, w') := by
  unfold writeOrderBatch Prog.catching
  rcases ha : LedgerStore.appendBatch (placedRows cfg c dec order d.now) d.store with ⟨x | es, st⟩
  · obtain ⟨-, rfl, -⟩ := LedgerStore.appendBatch_error_iff.mp ha
    have hs : onStore (LedgerStore.appendBatch (placedRows cfg c dec order d.now)) (w.withDesk d) =
        (.error x, w.withDesk d) := onStore_run ha
    rw [Prog.bind_run_error hs]
    refine .inr ?_
    simp only
    split_ifs
    · obtain ⟨y, w', hy, hu⟩ := Unplaced.refuse (α := Unit) hd (.step .approvalMissing)
        (.approvalConsumed dec.approvalId)
      exact ⟨y, w', hu, hy⟩
    · exact ⟨x, _, .silent hd, rfl⟩
  · obtain ⟨hnil, -⟩ | ⟨-, hc, hf, -, rfl⟩ := LedgerStore.appendBatch_ok_iff.mp ha
    · exact absurd hnil (orderRows_ne_nil _ _ _ _ _)
    · refine .inl ⟨hc, hf, ?_⟩
      have hs : onStore (LedgerStore.appendBatch (placedRows cfg c dec order d.now))
          (w.withDesk d) = (.ok es, (w.withDesk d).commit (placedRows cfg c dec order d.now)) :=
        onStore_run ha
      rw [Prog.bind_run_ok hs]
      rfl

lemma appendOrderBatch_run (cfg : DeskConfig) (c : PlaceCall) (order : ℕ) (w : World) :
    (∃ dec d, Written cfg c order w dec d ∧ appendOrderBatch cfg c order w =
      (.ok (), (w.withDesk d).commit (placedRows cfg c dec order d.now))) ∨
    ∃ x w', Unplaced cfg c w w' ∧ appendOrderBatch cfg c order w = (.error x, w') := by
  have hcons := check_consulted cfg (c.checkCall cfg .accepted) w.desk
  unfold appendOrderBatch
  rcases hc : check cfg (c.checkCall cfg .accepted) w.desk with ⟨x | dec, d⟩
  · rw [hc] at hcons
    have hacc : acceptedDecision cfg c w = (.error x, w.withDesk d) :=
      Prog.bind_run_error (onDesk_run hc)
    exact .inr ⟨x, _, .silent hcons, Prog.bind_run_error hacc⟩
  · rw [hc] at hcons
    have hacc : acceptedDecision cfg c w = _ := Prog.bind_run_ok (onDesk_run hc)
    by_cases hp : dec.passed = true
    · rw [if_pos hp] at hacc
      rw [Prog.bind_run_ok hacc, Prog.bind_run_ok (now_run _)]
      rcases @writeOrderBatch_run cfg c dec order w d hcons with ⟨hi, hf, h⟩ | h
      · exact .inl ⟨dec, d, ⟨hc, hp, hi, hf⟩, h⟩
      · exact .inr h
    · rw [if_neg hp] at hacc
      obtain ⟨x, w', hx, hu⟩ := Unplaced.refuse (α := RiskDecision) hcons dec.reason
        .acceptedRecheckRefused
      rw [hx] at hacc
      exact .inr ⟨x, w', hu, Prog.bind_run_error hacc⟩

/-- Writing an order either commits its batch, or ends with at most a refusal, perhaps with the
outcome of the order that took its key. -/
lemma submit_run (cfg : DeskConfig) (c : PlaceCall) (order : ℕ) (w : World) :
    (∃ dec d, Written cfg c order w dec d ∧ submit cfg c order w =
      (.ok none, (w.withDesk d).commit (placedRows cfg c dec order d.now))) ∨
    ∃ (o : Except Exc Fill) (w' : World), Unplaced cfg c w w' ∧
      submit cfg c order w = (o.map some, w') := by
  unfold submit Prog.catching
  rcases appendOrderBatch_run cfg c order w with ⟨dec, d, hw, h⟩ | ⟨x, w', hu, h⟩
  · rw [Prog.bind_run_ok h]
    exact .inl ⟨dec, d, hw, rfl⟩
  · rw [Prog.bind_run_error h]
    refine .inr ?_
    simp only
    split_ifs
    · split
      · exact ⟨.ok _, w', hu, rfl⟩
      · exact ⟨.error _, w', hu, rfl⟩
      · exact ⟨.error _, w', hu, rfl⟩
    · exact ⟨.error _, w', hu, rfl⟩

/-- The desk once the two ids of an order are drawn. -/
def drawnDesk (d : Desk) : Desk := { d with nextId := d.nextId + 2 }

lemma Unplaced.drawn {cfg : DeskConfig} {c : PlaceCall} {w w' : World}
    (h : Unplaced cfg c (w.withDesk (drawnDesk w.desk)) w') : Unplaced cfg c w w' := by
  have hq : w.desk.Consulted cfg (c.checkCall cfg .accepted) (drawnDesk w.desk) :=
    Desk.Quietly.consulted ⟨.refl, rfl, Nat.le_add_right _ _, rfl, rfl, rfl, rfl, rfl⟩
  cases h with
  | silent hd => exact .silent (hq.trans hd)
  | refused reason detail hd hf => exact .refused reason detail (hq.trans hd) hf

inductive Curve0Run (cfg : DeskConfig) (c : PlaceCall) (owner : ℕ) (size : ℤ)
    (curve0 : Option CurveSnapshot) (latency : ℤ) (dropped : Bool) (w : World) :
    Except Exc Next → World → Prop
  | ended (o : Except Exc Fill) {w' : World} (h : Unplaced cfg c w w') :
      Curve0Run cfg c owner size curve0 latency dropped w (o.map .done) w'
  | placed (dec : RiskDecision) (seen : CurveSnapshot) (quoted : Quoted) {d : Desk}
      (hseen : curve0 = some seen) (hq : QuotedOk cfg c size seen quoted)
      (hw : Written cfg c w.desk.nextId (w.withDesk (drawnDesk w.desk)) dec d) :
      Curve0Run cfg c owner size curve0 latency dropped w
        (.ok (.wait (.sleep
          { orderId := w.desk.nextId, curve0 := seen, latency := latency, dropped := dropped }
          quoted)))
        { desk := { d with
            store := d.store.commit (placedRows cfg c dec w.desk.nextId d.now) }
          mem := sleepMemory owner w.desk.nextId w.mem }

theorem placeCurve0_run (cfg : DeskConfig) (c : PlaceCall) (owner : ℕ) (size : ℤ)
    (curve0 : Option CurveSnapshot) (latency : ℤ) (dropped : Bool) (w : World) :
    Curve0Run cfg c owner size curve0 latency dropped w
      (placeCurve0 cfg owner c size curve0 latency dropped w).1
      (placeCurve0 cfg owner c size curve0 latency dropped w).2 := by
  unfold placeCurve0
  rcases @orderCurve_run cfg c w curve0 with ⟨seen, hr, hs⟩ | ⟨x, w', hr, hu⟩
  · rw [Prog.bind_run_ok hr]
    rcases @quoteOrder_run cfg c w size seen with
      ⟨quoted, hr, hq⟩ | ⟨x, w', hr, hu⟩
    · have hid : World.ulid (w.withDesk { w.desk with nextId := w.desk.nextId + 1 }) =
          (.ok (w.desk.nextId + 1), w.withDesk (drawnDesk w.desk)) := rfl
      rw [Prog.bind_run_ok hr, Prog.bind_run_ok (ulid_run w), Prog.bind_run_ok hid]
      rcases submit_run cfg c w.desk.nextId (w.withDesk (drawnDesk w.desk)) with
        ⟨dec, d, hw, h⟩ | ⟨o, w', hu, h⟩
      · rw [Prog.bind_run_ok h]
        exact .placed dec seen quoted hs hq hw
      · rcases o with x | fill
        · rw [Prog.bind_run_error h]
          exact .ended (.error x) hu.drawn
        · rw [Prog.bind_run_ok h]
          exact .ended (.ok fill) hu.drawn
    · rw [Prog.bind_run_error hr]
      exact .ended (.error x) hu
  · rw [Prog.bind_run_error hr]
    exact .ended (.error x) hu

/-! ### To the second reading -/

/-- The row of a refusal of a placed order. -/
def confirmingRefusal (cfg : DeskConfig) (c : PlaceCall) (reason : Reason) (detail : Detail)
    (fig : RejectFigures) (ts : ℤ) : Row :=
  rejectRow c.request reason detail .confirming fig (c.ledgerSource cfg) ts

/-- A refusal of a placed order, recorded where the store takes it. -/
inductive Refusing (cfg : DeskConfig) (c : PlaceCall) (order : ℕ) (w : World) : World → Prop
  | written (reason : Reason) (detail : Detail) (fig : RejectFigures)
      (hid : fig.orderId = some order) (hfee : 0 ≤ fig.fees)
      (ht : Takes w.desk.store (confirmingRefusal cfg c reason detail fig w.desk.now)) :
      Refusing cfg c order w (w.commit [confirmingRefusal cfg c reason detail fig w.desk.now])
  | unwritten (reason : Reason) (detail : Detail) (fig : RejectFigures)
      (ht : ¬ Takes w.desk.store (confirmingRefusal cfg c reason detail fig w.desk.now)) :
      Refusing cfg c order w w

/-- The adapter's memory once an order is no longer in flight. -/
def awayMemory (order : ℕ) (a : Adapter) : Adapter :=
  { a with inflight := a.inflight.erase order }

def World.away (order : ℕ) (w : World) : World := { w with mem := awayMemory order w.mem }

section Confirming

variable {cfg : DeskConfig} {c : PlaceCall} {w : World}

lemma discardInflight_run (order : ℕ) (w : World) :
    World.discardInflight order w = (.ok (), w.away order) := rfl

lemma Refusing.refuse {α : Type} {order : ℕ} (reason : Reason) (detail : Detail)
    (fig : RejectFigures) (hid : fig.orderId = some order) (hfee : 0 ≤ fig.fees) :
    ∃ x w', (PumpGrok.refuse c.request reason detail .confirming fig (c.ledgerSource cfg) :
      Prog World Exc α) w = (.error x, w') ∧ Refusing cfg c order w w' := by
  obtain ⟨x, ⟨ht, h⟩ | ⟨ht, h⟩⟩ := refuse_run (α := α) c.request reason detail .confirming fig
    (c.ledgerSource cfg) w
  · exact ⟨x, _, h, .written reason detail fig hid hfee ht⟩
  · exact ⟨x, _, h, .unwritten reason detail fig ht⟩

lemma confirmRefuse_run {α : Type} (order : ℕ) (reason : Reason) (detail : Detail) :
    ∃ x w', (confirmRefuse cfg c order reason detail : Prog World Exc α) w = (.error x, w') ∧
      Refusing cfg c order (w.away order) w' := by
  obtain ⟨x, w', h, hr⟩ :=
    @Refusing.refuse cfg c (w.away order) α order reason detail { orderId := some order } rfl le_rfl
  refine ⟨x, w', ?_, hr⟩
  unfold confirmRefuse
  rw [Prog.bind_run_ok (discardInflight_run order w)]
  exact h

inductive WakeRun (cfg : DeskConfig) (c : PlaceCall) (p : Placed) (quoted : Quoted)
    (overran : Bool) (w : World) : Except Exc Next → World → Prop
  | waits (ho : overran = false) (hc : p.orderId ∉ w.mem.cancelled) :
      WakeRun cfg c p quoted overran w (.ok (.wait (.curve1 p quoted))) w
  | refused (x : Exc) (cancelled : Finset ℕ) {w' : World}
      (ho : overran = true ∨ p.orderId ∈ w.mem.cancelled)
      (hc : cancelled ⊆ w.mem.cancelled) (hk : ∀ o ∈ w.mem.cancelled, o ≠ p.orderId → o ∈ cancelled)
      (h : Refusing cfg c p.orderId
        { w with mem := { awayMemory p.orderId w.mem with cancelled := cancelled } } w') :
      WakeRun cfg c p quoted overran w (.error x) w'

theorem placeWake_run (cfg : DeskConfig) (c : PlaceCall) (p : Placed) (quoted : Quoted)
    (overran : Bool) (w : World) :
    WakeRun cfg c p quoted overran w (placeWake cfg c p quoted overran w).1
      (placeWake cfg c p quoted overran w).2 := by
  unfold placeWake
  split_ifs with ho
  · have hkeep : ∀ o ∈ w.mem.cancelled, o ≠ p.orderId → o ∈ w.mem.cancelled := fun _ h _ => h
    unfold confirmTimeout
    rw [Prog.bind_run_ok (discardInflight_run p.orderId w)]
    rcases reject_run c.request .confirmationTimeout
      (.confirmWait p.latency cfg.limits.confirmTimeout) .confirming { orderId := some p.orderId }
      (c.ledgerSource cfg) (w.away p.orderId) with ⟨ht, x, h⟩ | ⟨ht, a, h⟩
    · rw [Prog.bind_run_ok h]
      exact .refused _ w.mem.cancelled (.inl ho) (Finset.Subset.refl _) hkeep
        (.written _ _ _ rfl le_rfl ht)
    · rcases a with x | x
      · rw [Prog.bind_run_error h]
        exact .refused _ w.mem.cancelled (.inl ho) (Finset.Subset.refl _) hkeep
          (.unwritten _ _ _ ht)
      · rw [Prog.bind_run_ok h]
        exact .refused _ w.mem.cancelled (.inl ho) (Finset.Subset.refl _) hkeep
          (.unwritten _ _ _ ht)
  · by_cases hc : p.orderId ∈ w.mem.cancelled
    · set w₁ : World := { w with mem := { awayMemory p.orderId w.mem with
        cancelled := w.mem.cancelled.erase p.orderId } } with hw₁
      obtain ⟨x, w', h, hr⟩ := @Refusing.refuse cfg c w₁ Unit p.orderId .cancelled
        (.order p.orderId) { orderId := some p.orderId } rfl le_rfl
      have hcheck : confirmCancelCheck cfg c p.orderId w = (.error x, w') := by
        unfold confirmCancelCheck
        rw [if_pos hc]
        exact h
      rw [Prog.bind_run_error hcheck]
      exact .refused x _ (.inr hc) (Finset.erase_subset _ _)
        (fun o ho hne => Finset.mem_erase.mpr ⟨hne, ho⟩) hr
    · have hcheck : confirmCancelCheck cfg c p.orderId w = (.ok (), w) := by
        unfold confirmCancelCheck
        rw [if_neg hc]
      rw [Prog.bind_run_ok hcheck]
      exact .waits (by simpa using ho) hc

/-! ### To the end -/

/-- The second reading passes the gates of its side. -/
def CurveTaken (c : PlaceCall) (curve1 : Option CurveSnapshot) (curve : CurveSnapshot) : Prop :=
  curve1 = some curve ∧
    (c.request.side = .buy → rpcCurvePriceAllowed curve.source = true ∧ curve.complete = false)

/-- The order's second check, passed, with no drop drawn. -/
structure Confirmed (cfg : DeskConfig) (c : PlaceCall) (p : Placed) (w : World)
    (dec : RiskDecision) (d : Desk) : Prop where
  checked : check cfg (c.checkCall cfg .confirming) w.desk = (.ok dec, d)
  passed : dec.passed = true
  kept : p.dropped = false

/-- A buy priced at its second reading. -/
structure BuyPriced (cfg : DeskConfig) (p : Placed) (quote : BuyQuote) (dec : RiskDecision)
    (curve : CurveSnapshot) (q : BuyQuote) (out1 : ℤ) : Prop where
  recap : buyRecap cfg quote p.curve0 dec.sizeLamports = .ok q
  priced : buyOut curve.sLamports curve.tUnits q.xNet = .ok out1

def buyFigures (p : Placed) (q : BuyQuote) (curve : CurveSnapshot) (out1 : ℤ) (ref : ℕ) :
    BuyFigures where
  orderId := p.orderId
  quote := q
  curve0 := p.curve0
  curve1 := curve
  latency := p.latency
  out1 := out1
  priceAvg := q.xNet / out1
  venueTxRef := ref

/-- The rows of a buy fill on the desk its second check left. -/
def boughtRows (cfg : DeskConfig) (c : PlaceCall) (p : Placed) (q : BuyQuote)
    (curve : CurveSnapshot) (out1 : ℤ) (d : Desk) : List Row :=
  buyFillRows cfg c (buyFigures p q curve out1 d.nextId) d.now
    (heldPosition (d.fold cfg) c.request.mint).isSome

def sellFiguresOf (cfg : DeskConfig) (plan : SellPlan) (gross1 : ℤ) (ref : ℕ) : SellFigures where
  fraction := plan.fraction
  gross1 := gross1
  proceeds := gross1 - cfg.fees.venueFee gross1 - cfg.fees.networkCost
  networkCost := cfg.fees.networkCost
  venueFee := cfg.fees.venueFee gross1
  priceAvg := gross1 / plan.filledUnits
  slipped := realisedSlippage plan.out0 (gross1 - cfg.fees.venueFee gross1)
  venueTxRef := ref

/-- The rows of a sell fill on the desk its second check left. -/
def soldRows (cfg : DeskConfig) (c : PlaceCall) (p : Placed) (plan : SellPlan)
    (curve : CurveSnapshot) (v : PositionView) (gross1 : ℤ) (d : Desk) : List Row :=
  sellRows cfg c p plan curve (some v) (sellFiguresOf cfg plan gross1 d.nextId) d.now

/-- The adapter's memory once an order is settled. -/
def settledMemory (order : ℕ) (mint : Mint) (curve : CurveSnapshot) (t : ℤ) (a : Adapter) :
    Adapter :=
  { a with
    inflight := a.inflight.erase order
    lastPriceTs := a.lastPriceTs.set mint t
    lastReserves := a.lastReserves.set mint (curve.sLamports, curve.tUnits) }

/-- The world once the rows of a fill are on the ledger. -/
def settledWorld (c : PlaceCall) (p : Placed) (curve : CurveSnapshot) (rows : List Row)
    (w : World) (d : Desk) : World where
  desk := { d with nextId := d.nextId + 1, store := d.store.commit rows }
  mem := settledMemory p.orderId c.request.mint curve d.now w.mem

/-- Why a placed order can end without an outcome row. -/
inductive Raised (cfg : DeskConfig) (c : PlaceCall) (p : Placed) (quoted : Quoted)
    (curve1 : Option CurveSnapshot) (w : World) (d : Desk) : Prop
  | check (x : Exc) (h : check cfg (c.checkCall cfg .confirming) w.desk = (.error x, d))
  | buyPrice (quote : BuyQuote) (curve : CurveSnapshot) (dec : RiskDecision)
      (hq : quoted = .buy quote) (hcurve : CurveTaken c curve1 curve)
      (hdec : Confirmed cfg c p w dec d)
      (h : ∀ q out1, BuyPriced cfg p quote dec curve q out1 → q.threshold ≤ out1 ∧ out1 = 0)
  | sellPrice (plan : SellPlan) (curve : CurveSnapshot) (dec : RiskDecision) (x : Exc)
      (hq : quoted = .sell plan) (hcurve : CurveTaken c curve1 curve)
      (hdec : Confirmed cfg c p w dec d)
      (h : sellOut curve.sLamports curve.tUnits plan.filledUnits = .error x)
  | buyUnwritten (quote : BuyQuote) (curve : CurveSnapshot) (dec : RiskDecision) (q : BuyQuote)
      (out1 : ℤ) (hq : quoted = .buy quote) (hdec : Confirmed cfg c p w dec d)
      (h : ¬ (d.store.inconsistent = false ∧
        d.store.Fresh (boughtRows cfg c p q curve out1 d)))
  | sellUnwritten (plan : SellPlan) (curve : CurveSnapshot) (dec : RiskDecision)
      (v : PositionView) (gross1 : ℤ) (hq : quoted = .sell plan) (hdec : Confirmed cfg c p w dec d)
      (h : ¬ (d.store.inconsistent = false ∧
        d.store.Fresh (soldRows cfg c p plan curve v gross1 d)))

inductive Curve1Run (cfg : DeskConfig) (c : PlaceCall) (p : Placed) (quoted : Quoted)
    (curve1 : Option CurveSnapshot) (w : World) : Except Exc Next → World → Prop
  | refused (x : Exc) {d : Desk} {w' : World}
      (hd : w.desk.Consulted cfg (c.checkCall cfg .confirming) d)
      (h : Refusing cfg c p.orderId ((w.withDesk d).away p.orderId) w') :
      Curve1Run cfg c p quoted curve1 w (.error x) w'
  | raised (x : Exc) {d d' : Desk} (hd : w.desk.Consulted cfg (c.checkCall cfg .confirming) d')
      (h : Raised cfg c p quoted curve1 w d) :
      Curve1Run cfg c p quoted curve1 w (.error x) (w.withDesk d')
  | bought (fill : Fill) (quote : BuyQuote) (curve : CurveSnapshot) (dec : RiskDecision)
      (q : BuyQuote) (out1 : ℤ) {d : Desk} (hq : quoted = .buy quote)
      (hcurve : CurveTaken c curve1 curve) (hdec : Confirmed cfg c p w dec d)
      (hp : BuyPriced cfg p quote dec curve q out1) (hin : q.threshold ≤ out1) (hne : out1 ≠ 0)
      (hc : d.store.inconsistent = false)
      (hf : d.store.Fresh (boughtRows cfg c p q curve out1 d)) :
      Curve1Run cfg c p quoted curve1 w (.ok (.done fill))
        (settledWorld c p curve (boughtRows cfg c p q curve out1 d) w d)
  | sold (fill : Fill) (plan : SellPlan) (curve : CurveSnapshot) (dec : RiskDecision)
      (v : PositionView) (gross1 : ℤ) {d : Desk} (hq : quoted = .sell plan)
      (hcurve : CurveTaken c curve1 curve) (hdec : Confirmed cfg c p w dec d)
      (hv : heldPosition (d.fold cfg) c.request.mint = some v)
      (hheld : plan.filledUnits ≤ v.tokenUnits)
      (hp : sellOut curve.sLamports curve.tUnits plan.filledUnits = .ok gross1)
      (hin : plan.threshold ≤ gross1 - cfg.fees.venueFee gross1)
      (hc : d.store.inconsistent = false)
      (hf : d.store.Fresh (soldRows cfg c p plan curve v gross1 d)) :
      Curve1Run cfg c p quoted curve1 w (.ok (.done fill))
        (settledWorld c p curve (soldRows cfg c p plan curve v gross1 d) w d)

lemma confirmCurve_run (order : ℕ) (curve1 : Option CurveSnapshot) :
    (∃ curve, confirmCurve cfg c order curve1 w = (.ok curve, w) ∧ CurveTaken c curve1 curve) ∨
    ∃ x w', confirmCurve cfg c order curve1 w = (.error x, w') ∧
      Refusing cfg c order (w.away order) w' := by
  unfold confirmCurve
  rcases curve1 with - | curve
  · exact .inr (confirmRefuse_run _ _ _)
  · simp only
    split_ifs with hsource hcomplete
    · exact .inr (confirmRefuse_run _ _ _)
    · exact .inr (confirmRefuse_run _ _ _)
    · refine .inl ⟨curve, rfl, rfl, fun hb => ?_⟩
      simp only [hb, true_and, Bool.not_eq_false, Bool.not_eq_true] at hsource hcomplete
      exact ⟨hsource, hcomplete⟩

lemma confirmRecheck_run (p : Placed) :
    (∃ dec d, Confirmed cfg c p w dec d ∧
      confirmRecheck cfg c p.orderId p.dropped w = (.ok dec, w.withDesk d)) ∨
    (∃ x d, check cfg (c.checkCall cfg .confirming) w.desk = (.error x, d) ∧
      confirmRecheck cfg c p.orderId p.dropped w = (.error x, w.withDesk d)) ∨
    ∃ x d w', w.desk.Consulted cfg (c.checkCall cfg .confirming) d ∧
      Refusing cfg c p.orderId ((w.withDesk d).away p.orderId) w' ∧
      confirmRecheck cfg c p.orderId p.dropped w = (.error x, w') := by
  have hcons := check_consulted cfg (c.checkCall cfg .confirming) w.desk
  unfold confirmRecheck
  rcases hc : check cfg (c.checkCall cfg .confirming) w.desk with ⟨x | dec, d⟩
  · exact .inr (.inl ⟨x, d, rfl, Prog.bind_run_error (onDesk_run hc)⟩)
  · rw [hc] at hcons
    rw [Prog.bind_run_ok (onDesk_run hc)]
    split_ifs with hp hd
    · obtain ⟨x, w', h, hr⟩ := @confirmRefuse_run cfg c (w.withDesk d) RiskDecision
        p.orderId dec.reason .confirmingRecheck
      exact .inr (.inr ⟨x, d, w', hcons, hr, h⟩)
    · obtain ⟨x, w', h, hr⟩ := @confirmRefuse_run cfg c (w.withDesk d) RiskDecision
        p.orderId .txDropped .seededDrop
      exact .inr (.inr ⟨x, d, w', hcons, hr, h⟩)
    · exact .inl ⟨dec, d, ⟨hc, by simpa using hp, by simpa using hd⟩, rfl⟩

/-- The desk once the reference of a fill is drawn. -/
def refDesk (d : Desk) : Desk := { d with nextId := d.nextId + 1 }

lemma refDesk_quietly (d : Desk) : d.Quietly (refDesk d) := Desk.ulid_quietly d

lemma settleMemory_run (order : ℕ) (mint : Mint) (curve : CurveSnapshot) (w : World) :
    settleMemory order mint curve w =
      (.ok (), { w with mem := settledMemory order mint curve w.desk.now w.mem }) := rfl

/-- The append of a fill's rows on the desk that has drawn its reference. -/
lemma appendFill_run (rows : List Row) (hne : rows ≠ []) (d : Desk) :
    (d.store.inconsistent = false ∧ d.store.Fresh rows ∧ ∃ es,
      onStore (LedgerStore.appendBatch rows) (w.withDesk (refDesk d)) =
        (.ok es, (w.withDesk (refDesk d)).commit rows)) ∨
    (¬ (d.store.inconsistent = false ∧ d.store.Fresh rows) ∧ ∃ x,
      onStore (LedgerStore.appendBatch rows) (w.withDesk (refDesk d)) =
        (.error x, w.withDesk (refDesk d))) := by
  rcases ha : LedgerStore.appendBatch rows d.store with ⟨x | es, st⟩
  · obtain ⟨-, rfl, hx⟩ := LedgerStore.appendBatch_error_iff.mp ha
    refine .inr ⟨?_, x, onStore_run (w := w.withDesk (refDesk d)) ha⟩
    rintro ⟨hc, hf⟩
    rcases hx with ⟨hi, -⟩ | ⟨-, hn, -⟩
    · simp [hc] at hi
    · exact hn hf
  · obtain ⟨hnil, -⟩ | ⟨-, hc, hf, -, rfl⟩ := LedgerStore.appendBatch_ok_iff.mp ha
    · exact absurd hnil hne
    · exact .inl ⟨hc, hf, es, onStore_run (w := w.withDesk (refDesk d)) ha⟩

lemma boughtRows_ne_nil (p : Placed) (q : BuyQuote) (curve : CurveSnapshot) (out1 : ℤ)
    (d : Desk) : boughtRows cfg c p q curve out1 d ≠ [] := by
  unfold boughtRows buyFillRows
  split_ifs <;> simp

lemma soldRows_ne_nil (p : Placed) (plan : SellPlan) (curve : CurveSnapshot) (v : PositionView)
    (gross1 : ℤ) (d : Desk) : soldRows cfg c p plan curve v gross1 d ≠ [] := by
  unfold soldRows sellRows
  simp only
  split_ifs <;> simp

lemma buySettle_run {p : Placed} {quote q : BuyQuote} {curve : CurveSnapshot}
    {curve1 : Option CurveSnapshot} {out1 : ℤ} {dec : RiskDecision} {d : Desk}
    (hd : w.desk.Consulted cfg (c.checkCall cfg .confirming) d) (hcurve : CurveTaken c curve1 curve)
    (hdec : Confirmed cfg c p w dec d) (hp : BuyPriced cfg p quote dec curve q out1)
    (hin : q.threshold ≤ out1) :
    Curve1Run cfg c p (.buy quote) curve1 w
      ((do let fill ← buySettle cfg c p q curve out1; pure (.done fill) : Prog World Exc Next)
        (w.withDesk d)).1
      ((do let fill ← buySettle cfg c p q curve out1; pure (.done fill) : Prog World Exc Next)
        (w.withDesk d)).2 := by
  by_cases hne : out1 = 0
  · have hdiv : decimalDiv q.xNet out1 = .error .divisionByZero := by simp [decimalDiv, hne]
    have hs :
        buySettle cfg c p q curve out1 (w.withDesk d) = (.error .divisionByZero, w.withDesk d) := by
      unfold buySettle
      rw [hdiv]
      rfl
    rw [Prog.bind_run_error hs]
    refine .raised _ hd (.buyPrice quote curve dec rfl hcurve hdec fun q' out' h' => ?_)
    obtain rfl : q = q' := by
      have := hp.recap.symm.trans h'.recap
      exact Except.ok.inj this
    obtain rfl : out1 = out' := Except.ok.inj (hp.priced.symm.trans h'.priced)
    exact ⟨hin, hne⟩
  · have hdiv : decimalDiv q.xNet out1 = .ok (q.xNet / out1) := by simp [decimalDiv, hne]
    have hs : buySettle cfg c p q curve out1 (w.withDesk d) = (do
        let stored ← onStore (LedgerStore.appendBatch (boughtRows cfg c p q curve out1 d))
        settleMemory p.orderId c.request.mint curve
        pure (buyFill cfg c (buyFigures p q curve out1 d.nextId) stored) : Prog World Exc Fill)
          (w.withDesk (refDesk d)) := by
      unfold buySettle
      rw [hdiv]
      rfl
    rcases appendFill_run (w := w) (boughtRows cfg c p q curve out1 d)
      (boughtRows_ne_nil p q curve out1 d) d with ⟨hc, hf, es, ha⟩ | ⟨hn, x, ha⟩
    · rw [Prog.bind_run_ok ha, Prog.bind_run_ok (settleMemory_run _ _ _ _)] at hs
      rw [Prog.bind_run_ok hs]
      exact .bought _ quote curve dec q out1 rfl hcurve hdec hp hin hne hc hf
    · rw [Prog.bind_run_error ha] at hs
      rw [Prog.bind_run_error hs]
      exact .raised x (hd.trans (refDesk_quietly d).consulted)
        (.buyUnwritten quote curve dec q out1 rfl hdec hn)

lemma buyGuard_run (p : Placed) (q : BuyQuote) (out1 : ℤ) (d : Desk) :
    (q.threshold ≤ out1 ∧ buyGuardSlippage cfg c p.orderId q out1 (w.withDesk d) =
      (.ok (), w.withDesk d)) ∨
    ∃ x w', buyGuardSlippage cfg c p.orderId q out1 (w.withDesk d) = (.error x, w') ∧
      Refusing cfg c p.orderId ((w.withDesk d).away p.orderId) w' := by
  unfold buyGuardSlippage
  split_ifs with hin
  · exact .inl ⟨hin, rfl⟩
  · obtain ⟨x, w', h, hr⟩ := @Refusing.refuse cfg c ((w.withDesk d).away p.orderId) Unit
      p.orderId .slippageExceeded
      (.confirmBelowThreshold out1 q.threshold)
      { orderId := some p.orderId, quoteOut := q.out0, threshold := q.threshold,
        confirmOut := out1, fees := cfg.fees.networkCost } rfl cfg.fees.networkCost_nonneg
    refine .inr ⟨x, w', ?_, hr⟩
    rw [Prog.bind_run_ok (discardInflight_run _ _)]
    exact h

/-- **A buy from its second reading to its end.** -/
lemma buyConfirm_run (p : Placed) (quote : BuyQuote) (curve1 : Option CurveSnapshot) :
    Curve1Run cfg c p (.buy quote) curve1 w (placeCurve1 cfg c p (.buy quote) curve1 w).1
      (placeCurve1 cfg c p (.buy quote) curve1 w).2 := by
  have hrefl : w.desk.Consulted cfg (c.checkCall cfg .confirming) w.desk := refl_of _ _
  have hcons := check_consulted cfg (c.checkCall cfg .confirming) w.desk
  unfold placeCurve1 buyConfirm
  simp only [Prog.bind_assoc]
  rcases @confirmCurve_run cfg c w p.orderId curve1 with
    ⟨curve, hr, hcurve⟩ | ⟨x, w', hr, href⟩
  swap
  · rw [Prog.bind_run_error hr]
    exact .refused x hrefl href
  rw [Prog.bind_run_ok hr]
  rcases @confirmRecheck_run cfg c w p with
    ⟨dec, d, hdec, hk⟩ | ⟨x, d, hx, hk⟩ | ⟨x, d, w', hd, href, hk⟩
  · rw [hdec.checked] at hcons
    rw [Prog.bind_run_ok hk]
    -- the recapped quote and the second price, or none
    rcases hrecap : buyRecap cfg quote p.curve0 dec.sizeLamports with x | q
    · refine .raised x hcons (.buyPrice quote curve dec rfl hcurve hdec fun q out1 hp => ?_)
      rw [hp.recap] at hrecap
      simp at hrecap
    have hq : (World.ofExcept (.ok q) : Prog World Exc BuyQuote) (w.withDesk d) =
      (.ok q, w.withDesk d) := rfl
    rw [Prog.bind_run_ok hq]
    rcases hout : buyOut curve.sLamports curve.tUnits q.xNet with x | out1
    · refine .raised x hcons (.buyPrice quote curve dec rfl hcurve hdec fun q' out1 hp => ?_)
      obtain rfl : q = q' := Except.ok.inj (hrecap.symm.trans hp.recap)
      have := hp.priced
      rw [hout] at this
      simp at this
    have ho : (World.ofExcept (.ok out1) : Prog World Exc ℤ) (w.withDesk d) =
      (.ok out1, w.withDesk d) := rfl
    rw [Prog.bind_run_ok ho]
    rcases @buyGuard_run cfg c w p q out1 d with
      ⟨hin, hg⟩ | ⟨x, w', hg, href⟩
    · rw [Prog.bind_run_ok hg]
      exact buySettle_run hcons hcurve hdec ⟨hrecap, hout⟩ hin
    · rw [Prog.bind_run_error hg]
      exact .refused x hcons href
  · rw [hx] at hcons
    rw [Prog.bind_run_error hk]
    exact .raised x hcons (.check x hx)
  · rw [Prog.bind_run_error hk]
    exact .refused x hd href

lemma heldPosition_some {state : LedgerState} {m : Mint} {v : PositionView} :
    heldPosition state m = some v ↔ state.positions.get m = some v ∧ 0 < v.tokenUnits := by
  simp [heldPosition, Option.filter_eq_some_iff]

lemma sellHolding_run (p : Placed) (plan : SellPlan) (d : Desk) :
    (plan.filledUnits ≤ ((heldPosition (d.fold cfg) c.request.mint).map (·.tokenUnits)).getD 0 ∧
      sellHolding cfg c p plan (w.withDesk d) =
        (.ok ((d.fold cfg).positions.get c.request.mint), w.withDesk d)) ∨
    ∃ x w', sellHolding cfg c p plan (w.withDesk d) = (.error x, w') ∧
      Refusing cfg c p.orderId ((w.withDesk d).away p.orderId) w' := by
  unfold sellHolding
  rw [Prog.bind_run_ok (fold_run cfg _)]
  split_ifs with hheld
  · exact .inr (confirmRefuse_run _ _ _)
  · exact .inl ⟨not_lt.mp hheld, rfl⟩

lemma sellSlippage_run (p : Placed) (plan : SellPlan) (curve : CurveSnapshot) {gross1 : ℤ}
    (hg : sellOut curve.sLamports curve.tUnits plan.filledUnits = .ok gross1) (d : Desk) :
    (plan.threshold ≤ gross1 - cfg.fees.venueFee gross1 ∧
      sellSlippage cfg c p plan curve (w.withDesk d) =
        (.ok (gross1, gross1 - cfg.fees.venueFee gross1), w.withDesk d)) ∨
    ∃ x w', sellSlippage cfg c p plan curve (w.withDesk d) = (.error x, w') ∧
      Refusing cfg c p.orderId ((w.withDesk d).away p.orderId) w' := by
  have ho : (World.ofExcept (.ok gross1) : Prog World Exc ℤ) (w.withDesk d) =
    (.ok gross1, w.withDesk d) := rfl
  unfold sellSlippage
  rw [hg, Prog.bind_run_ok ho]
  split_ifs with hlow
  · obtain ⟨x, w', h, hr⟩ := @Refusing.refuse cfg c ((w.withDesk d).away p.orderId) (ℤ × ℤ)
      p.orderId .slippageExceeded
      (.confirmBelowThreshold (gross1 - cfg.fees.venueFee gross1) plan.threshold)
      { orderId := some p.orderId, quoteOut := plan.out0, threshold := plan.threshold,
        confirmOut := gross1 - cfg.fees.venueFee gross1, fees := cfg.fees.networkCost } rfl
      cfg.fees.networkCost_nonneg
    refine .inr ⟨x, w', ?_, hr⟩
    rw [Prog.bind_run_ok (discardInflight_run _ _)]
    exact h
  · exact .inl ⟨not_lt.mp hlow, rfl⟩

lemma sellSettle_run {p : Placed} {plan : SellPlan} {curve : CurveSnapshot}
    {curve1 : Option CurveSnapshot} {v : PositionView} {gross1 : ℤ} {dec : RiskDecision} {d : Desk}
    (hd : w.desk.Consulted cfg (c.checkCall cfg .confirming) d) (hcurve : CurveTaken c curve1 curve)
    (hdec : Confirmed cfg c p w dec d) (hv : heldPosition (d.fold cfg) c.request.mint = some v)
    (hheld : plan.filledUnits ≤ v.tokenUnits)
    (hp : sellOut curve.sLamports curve.tUnits plan.filledUnits = .ok gross1)
    (hin : plan.threshold ≤ gross1 - cfg.fees.venueFee gross1) {m : Prog World Exc Next}
    (hm : m = do
      let f ← sellFigures cfg plan gross1 (gross1 - cfg.fees.venueFee gross1)
      let fill ← sellSettle cfg c p plan curve (some v) f
      pure (.done fill)) :
    Curve1Run cfg c p (.sell plan) curve1 w (m (w.withDesk d)).1 (m (w.withDesk d)).2 := by
  have hpos : 0 < plan.filledUnits := (sellOut_ok_iff.mp hp).2.2.1
  have hdiv : decimalDiv gross1 plan.filledUnits = .ok (gross1 / plan.filledUnits) := by
    simp [decimalDiv, hpos.ne']
  have hfig : sellFigures cfg plan gross1 (gross1 - cfg.fees.venueFee gross1) (w.withDesk d) =
      (.ok (sellFiguresOf cfg plan gross1 d.nextId), w.withDesk (refDesk d)) := by
    unfold sellFigures
    rw [hdiv]
    rfl
  have hs : sellSettle cfg c p plan curve (some v) (sellFiguresOf cfg plan gross1 d.nextId)
      (w.withDesk (refDesk d)) = (do
        let stored ← onStore (LedgerStore.appendBatch (soldRows cfg c p plan curve v gross1 d))
        settleMemory p.orderId c.request.mint curve
        pure (sellFill c p plan (sellFiguresOf cfg plan gross1 d.nextId) stored) :
          Prog World Exc Fill) (w.withDesk (refDesk d)) := rfl
  rw [hm, Prog.bind_run_ok hfig]
  rcases appendFill_run (w := w) (soldRows cfg c p plan curve v gross1 d)
    (soldRows_ne_nil p plan curve v gross1 d) d with ⟨hc, hf, es, ha⟩ | ⟨hn, x, ha⟩
  · rw [Prog.bind_run_ok ha, Prog.bind_run_ok (settleMemory_run _ _ _ _)] at hs
    rw [Prog.bind_run_ok hs]
    exact .sold _ plan curve dec v gross1 rfl hcurve hdec hv hheld hp hin hc hf
  · rw [Prog.bind_run_error ha] at hs
    rw [Prog.bind_run_error hs]
    exact .raised x (hd.trans (refDesk_quietly d).consulted)
      (.sellUnwritten plan curve dec v gross1 rfl hdec hn)

/-- **A sell from its second reading to its end.** -/
lemma sellConfirm_run (p : Placed) (plan : SellPlan) (curve1 : Option CurveSnapshot) :
    Curve1Run cfg c p (.sell plan) curve1 w (placeCurve1 cfg c p (.sell plan) curve1 w).1
      (placeCurve1 cfg c p (.sell plan) curve1 w).2 := by
  have hrefl : w.desk.Consulted cfg (c.checkCall cfg .confirming) w.desk := refl_of _ _
  have hcons := check_consulted cfg (c.checkCall cfg .confirming) w.desk
  unfold placeCurve1 sellConfirm
  simp only [Prog.bind_assoc]
  rcases @confirmCurve_run cfg c w p.orderId curve1 with
    ⟨curve, hr, hcurve⟩ | ⟨x, w', hr, href⟩
  swap
  · rw [Prog.bind_run_error hr]
    exact .refused x hrefl href
  rw [Prog.bind_run_ok hr]
  rcases @confirmRecheck_run cfg c w p with
    ⟨dec, d, hdec, hk⟩ | ⟨x, d, hx, hk⟩ | ⟨x, d, w', hd, href, hk⟩
  · rw [hdec.checked] at hcons
    rw [Prog.bind_run_ok hk]
    rcases @sellHolding_run cfg c w p plan d with
      ⟨hheld, hh⟩ | ⟨x, w', hh, href⟩
    swap
    · rw [Prog.bind_run_error hh]
      exact .refused x hcons href
    rw [Prog.bind_run_ok hh]
    rcases hg : sellOut curve.sLamports curve.tUnits plan.filledUnits with x | gross1
    · have hslip : sellSlippage cfg c p plan curve (w.withDesk d) = (.error x, w.withDesk d) := by
        unfold sellSlippage
        rw [hg]
        rfl
      rw [Prog.bind_run_error hslip]
      exact .raised x hcons (.sellPrice plan curve dec x rfl hcurve hdec hg)
    rcases @sellSlippage_run cfg c w p plan curve gross1 hg d with
      ⟨hin, hslip⟩ | ⟨x, w', hslip, href⟩
    · rw [Prog.bind_run_ok hslip]
      -- units are sold, so some are held
      have hpos : 0 < plan.filledUnits := (sellOut_ok_iff.mp hg).2.2.1
      rcases hv : heldPosition (d.fold cfg) c.request.mint with - | v
      · simp only [hv, Option.map_none, Option.getD_none] at hheld
        omega
      · simp only [hv, Option.map_some, Option.getD_some] at hheld
        rw [(heldPosition_some.mp hv).1]
        exact sellSettle_run hcons hcurve hdec hv hheld hg hin rfl
    · rw [Prog.bind_run_error hslip]
      exact .refused x hcons href
  · rw [hx] at hcons
    rw [Prog.bind_run_error hk]
    exact .raised x hcons (.check x hx)
  · rw [Prog.bind_run_error hk]
    exact .refused x hd href

theorem placeCurve1_run (cfg : DeskConfig) (c : PlaceCall) (p : Placed) (quoted : Quoted)
    (curve1 : Option CurveSnapshot) (w : World) :
    Curve1Run cfg c p quoted curve1 w (placeCurve1 cfg c p quoted curve1 w).1
      (placeCurve1 cfg c p quoted curve1 w).2 := by
  cases quoted with
  | buy quote => exact buyConfirm_run p quote curve1
  | sell plan => exact sellConfirm_run p plan curve1

end Confirming

end PumpGrok
