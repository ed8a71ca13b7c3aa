import PumpGrok.Desk.Orders
import PumpGrok.Lib.Lifecycle

/-!
Every order ends. An order that is placed is live while its call holds it; it is settled by its one
outcome row, or lost with none, and each loss has one of a few causes: the call was cancelled, the
ledger no longer takes rows, or the confirming stretch raised.
-/

namespace PumpGrok

open LedgerStore

/-! ### Rows the store would take -/

section Free

variable {cfg : DeskConfig} {s : Sys} {i : ℕ} {c : PlaceCall} {p : Placed} {q : Quoted} {d : Desk}

/-- A store where an order is placed and has no outcome. -/
structure LedgerStore.Open (st : LedgerStore) (next : ℕ) (k : Key) (o : ℕ) : Prop where
  inOrder : st.InOrder next
  placed : st.PlacedUnder k o
  pending : st.endings o = 0

namespace LedgerStore.Open

variable {st : LedgerStore} {next : ℕ} {k : Key} {o : ℕ} (h : st.Open next k o)
include h

lemma no_outcome {e : Event} (he : e ∈ st.read) : e.payload.ends o = false := by
  have hp := h.pending
  rw [endings, List.countP_eq_zero] at hp
  exact Bool.eq_false_iff.mpr (hp e he)

lemma no_fill {e : Event} (he : e ∈ st.read) : e.key ≠ .fill o := by
  intro hk
  obtain ⟨p, hp, ho⟩ := h.inOrder.fill_of_key he hk
  have hends := h.no_outcome he
  simp [hp, Payload.ends, ho] at hends

lemma free_fill : st.byKey (.fill o) = none := byKey_eq_none_iff.mpr fun _ he => h.no_fill he

lemma free_side {x : Key} (hx : x = .position o ∨ x = .close o) : st.byKey x = none := by
  refine byKey_eq_none_iff.mpr fun e he hk => ?_
  obtain ⟨e', he', hk'⟩ := h.inOrder.sides e he o (by rcases hx with rfl | rfl <;> simp [hk])
  exact h.no_fill he' hk'

lemma free_reject {t : TicketId} {sd : Side} {dec : ℕ} {r : Reason} (hk : k = .execPlace t sd dec) :
    st.byKey (.reject t sd dec .confirming r) = none := by
  refine byKey_eq_none_iff.mpr fun e he hek => ?_
  have hn := h.inOrder.named e he
  unfold Row.Named at hn
  rw [show e.toRow.key = .reject t sd dec .confirming r from hek] at hn
  obtain ⟨p, o', hp, ho'⟩ := hn
  have hplaced := h.inOrder.owners e he t sd dec r p o' hek hp ho'
  obtain rfl := h.inOrder.placedUnder_inj (hk ▸ h.placed) hplaced
  have hends := h.no_outcome he
  rw [show e.payload = .orderRejected p from hp] at hends
  simp [Payload.ends, ho'] at hends

end LedgerStore.Open

/-- A held order is still open on a desk consulted after. -/
lemma Sys.Ordered.open (h : s.Ordered) (hi : s.Holds i c p q) {call : CheckCall}
    (hd : s.world.desk.Consulted cfg call d) : d.store.Open d.nextId c.key p.orderId := by
  have hg := hd.store.mono fun _ _ => EngineRow.alone
  refine ⟨(h.inOrder.aside hg).grow hd.ids, (h.placed i c p q hi).mono hg.read_extends, ?_⟩
  unfold endings
  rw [countP_aside (fun _ => Payload.ends_aside) hg]
  exact h.pending i c p q hi

/-- Only a store marked inconsistent refuses the refusal of an open order. -/
lemma unmarked_takes {next : ℕ} (h : d.store.Open next c.key p.orderId) (reason : Reason)
    (detail : Detail) (fig : RejectFigures) (ts : ℤ)
    (ht : ¬ Takes d.store (confirmingRefusal cfg c reason detail fig ts)) :
    d.store.inconsistent = true := by
  by_contra hm
  exact ht ⟨Bool.eq_false_iff.mpr hm, h.free_reject rfl⟩

lemma unmarked_bought {next : ℕ} (h : d.store.Open next c.key p.orderId) {q : BuyQuote}
    {curve : CurveSnapshot} {out1 : ℤ} (hn : ¬ (d.store.inconsistent = false ∧
      d.store.Fresh (boughtRows cfg c p q curve out1 d))) : d.store.inconsistent = true := by
  by_contra hm
  refine hn ⟨Bool.eq_false_iff.mpr hm, ?_⟩
  unfold boughtRows buyFillRows
  split_ifs
  · refine ⟨by simp, fun r hr => ?_⟩
    rw [List.mem_singleton.mp hr]
    exact h.free_fill
  · refine ⟨by simp [buyFillRow, buyPositionRow], fun r hr => ?_⟩
    simp only [List.mem_cons, List.not_mem_nil, or_false] at hr
    rcases hr with rfl | rfl
    · exact h.free_fill
    · exact h.free_side (.inl rfl)

lemma unmarked_sold {next : ℕ} (h : d.store.Open next c.key p.orderId) {plan : SellPlan}
    {curve : CurveSnapshot} {v : PositionView} {gross1 : ℤ} (hn : ¬ (d.store.inconsistent = false ∧
      d.store.Fresh (soldRows cfg c p plan curve v gross1 d))) : d.store.inconsistent = true := by
  by_contra hm
  refine hn ⟨Bool.eq_false_iff.mpr hm, ?_⟩
  unfold soldRows sellRows
  dsimp only
  split_ifs
  · refine ⟨by simp [sellFillRow, positionClosedRow], fun r hr => ?_⟩
    simp only [List.mem_cons, List.not_mem_nil, or_false] at hr
    rcases hr with rfl | rfl
    · exact h.free_fill
    · exact h.free_side (.inr rfl)
  · refine ⟨by simp, fun r hr => ?_⟩
    rw [List.mem_singleton.mp hr]
    exact h.free_fill

end Free

/-! ### How an order is lost -/

namespace Sys

/-- Why an order that is placed ends with no outcome row: its call is cancelled, the ledger is
marked inconsistent, the confirming check raises, or the second reading prices it at nothing. -/
inductive Lost (cfg : DeskConfig) (s : Sys) (i : ℕ) (c : PlaceCall) (p : Placed) (q : Quoted) :
    Action → Prop
  | aborted : Lost cfg s i c p q (.abort i)
  | marked {a : Action} {d : Desk} (hd : s.world.desk.Consulted cfg (c.checkCall cfg .confirming) d)
      (hm : d.store.inconsistent = true) : Lost cfg s i c p q a
  | unchecked (curve1 : Option CurveSnapshot) (x : Exc) {d : Desk}
      (h : check cfg (c.checkCall cfg .confirming) s.world.desk = (.error x, d)) :
      Lost cfg s i c p q (.curve1 i curve1)
  | unbought (curve1 : Option CurveSnapshot) (quote : BuyQuote) (curve : CurveSnapshot)
      (dec : RiskDecision) (hq : q = .buy quote) (hcurve : CurveTaken c curve1 curve)
      (h : ∀ q out1, BuyPriced cfg p quote dec curve q out1 → q.threshold ≤ out1 ∧ out1 = 0) :
      Lost cfg s i c p q (.curve1 i curve1)
  | unsold (curve1 : Option CurveSnapshot) (plan : SellPlan) (curve : CurveSnapshot) (x : Exc)
      (hq : q = .sell plan) (hcurve : CurveTaken c curve1 curve)
      (h : sellOut curve.sLamports curve.tUnits plan.filledUnits = .error x) :
      Lost cfg s i c p q (.curve1 i curve1)

/-- A step loses the order of one of the calls. -/
def Loses (cfg : DeskConfig) (s : Sys) (a : Action) (o : ℕ) : Prop :=
  ∃ i c p q, s.Holds i c p q ∧ p.orderId = o ∧ Lost cfg s i c p q a

section Steps

variable {cfg : DeskConfig} {s s' : Sys} {i : ℕ} {c : PlaceCall} {p : Placed} {q : Quoted}
  {a : Action}

/-- A dropped order is lost: the rows of an open order have keys of their own. -/
lemma Dropped.lost (h : s.Ordered) (hi : s.Holds i c p q) (hd : Dropped cfg s i c p q a) :
    Lost cfg s i c p q a := by
  cases hd with
  | aborted => exact .aborted
  | unwoken overran reason detail fig ho ht =>
    have hself : s.world.desk.Consulted cfg (c.checkCall cfg .confirming) s.world.desk :=
      (Desk.Quietly.refl _).consulted
    exact .marked hself (unmarked_takes (h.open hi hself) _ _ _ _ ht)
  | unwritten curve1 reason detail fig hd ht =>
    exact .marked hd (unmarked_takes (h.open hi hd) _ _ _ _ ht)
  | raised curve1 hr =>
    cases hr with
    | check x hx => exact .unchecked curve1 x hx
    | buyPrice quote curve dec hq hcurve hdec hp =>
      exact .unbought curve1 quote curve dec hq hcurve hp
    | sellPrice plan curve dec x hq hcurve hdec hx => exact .unsold curve1 plan curve x hq hcurve hx
    | buyUnwritten quote curve dec q₁ out1 hq hdec hn =>
      have hcons := confirmed_consulted hdec
      exact .marked hcons (unmarked_bought (h.open hi hcons) hn)
    | sellUnwritten plan curve dec v gross1 hq hdec hn =>
      have hcons := confirmed_consulted hdec
      exact .marked hcons (unmarked_sold (h.open hi hcons) hn)

end Steps

end Sys

/-! ### The phase of an order -/

/-- The payload places an order. -/
def Payload.places (o : ℕ) : Payload → Bool
  | .orderPlaced p => p.orderId = o
  | _ => false

lemma Payload.places_aside {o : ℕ} {p : Payload} (h : p.ofOrder = false) : p.places o = false := by
  cases p <;> simp_all [places, ofOrder]

lemma Payload.order_of_places {o : ℕ} {p : Payload} (h : p.places o = true) : p.order = some o := by
  cases p <;> simp_all [places, order]

/-- How many rows place an order. -/
def LedgerStore.placements (st : LedgerStore) (o : ℕ) : ℕ :=
  st.read.countP fun e => e.payload.places o

lemma LedgerStore.Adds.placements {st st' : LedgerStore} {next next' : ℕ} {rows : List Row}
    (h : st.Adds st' next next' rows) (o : ℕ) :
    st'.placements o = st.placements o + rows.countP fun r => r.payload.places o :=
  h.counts _ fun _ => Payload.places_aside

namespace Sys

/-- Where an order stands. -/
def phase (s : Sys) (o : ℕ) : Option Phase :=
  if s.store.placements o = 0 then none
  else if s.store.endings o ≠ 0 then some .settled
  else if o ∈ s.world.mem.inflight then some .live
  else some .lost

section Phases

variable {cfg : DeskConfig} {s s' : Sys} {i : ℕ} {c : PlaceCall} {p : Placed} {q : Quoted}
  {rows : List Row}

lemma Ordered.placements_new (h : s.Ordered) {o : ℕ} (ho : s.world.desk.nextId ≤ o) :
    s.store.placements o = 0 := by
  rw [LedgerStore.placements, List.countP_eq_zero]
  intro e he hplaces
  exact h.inOrder.order_ne ho he (Payload.order_of_places hplaces)

lemma Ordered.placements_ne (h : s.Ordered) (hi : s.Holds i c p q) :
    s.store.placements p.orderId ≠ 0 := by
  obtain ⟨e, he, -, pl, hp, ho⟩ := h.placed i c p q hi
  rw [LedgerStore.placements, ne_eq, List.countP_eq_zero]
  intro hno
  exact hno e he (by simp [hp, Payload.places, ho])

/-- A held order is live. -/
lemma Ordered.phase_held (h : s.Ordered) (hi : s.Holds i c p q) :
    s.phase p.orderId = some .live := by
  unfold phase
  rw [if_neg (h.placements_ne hi), if_neg (not_not.mpr (h.pending i c p q hi)),
    if_pos ((h.flying _).mpr ⟨i, c, p, q, hi, rfl⟩)]

/-- Orders that are held by the same calls are in flight together. -/
lemma inflight_iff (h : s.Ordered) (h' : s'.Ordered) {o : ℕ}
    (hw : ∀ i c p q, p.orderId = o → (s'.Holds i c p q ↔ s.Holds i c p q)) :
    o ∈ s'.world.mem.inflight ↔ o ∈ s.world.mem.inflight := by
  rw [h.flying, h'.flying]
  constructor
  · rintro ⟨i, c, p, q, hh, ho⟩
    exact ⟨i, c, p, q, (hw i c p q ho).mp hh, ho⟩
  · rintro ⟨i, c, p, q, hh, ho⟩
    exact ⟨i, c, p, q, (hw i c p q ho).mpr hh, ho⟩

/-- An order that a step neither places nor ends, and leaves to its calls. -/
lemma phase_kept (h : s.Ordered) (h' : s'.Ordered)
    (ha : s.store.Adds s'.store s.world.desk.nextId s'.world.desk.nextId rows) {o : ℕ}
    (hp : rows.countP (fun r => r.payload.places o) = 0)
    (he : o < s.world.desk.nextId → rows.countP (fun r => r.payload.ends o) = 0)
    (hw : ∀ i c p q, p.orderId = o → (s'.Holds i c p q ↔ s.Holds i c p q)) :
    s'.phase o = s.phase o := by
  have hplace : s'.store.placements o = s.store.placements o := by rw [ha.placements, hp, add_zero]
  unfold phase
  rw [hplace]
  by_cases hnone : s.store.placements o = 0
  · rw [if_pos hnone, if_pos hnone]
  · have hlt : o < s.world.desk.nextId := by
      by_contra hn
      exact hnone (h.placements_new (not_lt.mp hn))
    have hend : s'.store.endings o = s.store.endings o := by rw [ha.endings, he hlt, add_zero]
    simp only [hend, inflight_iff h h' hw]

/-- The holds of the calls, where only a call without an order moved. -/
lemma holds_same (hi : ∀ c p q, ¬ s.Holds i c p q) {o : Option (PlaceCall × Wait)}
    (ho : ∀ c p q, o ≠ some (c, .sleep p q) ∧ o ≠ some (c, .curve1 p q))
    (hw : s'.waiting = Function.update s.waiting i o) (j : ℕ) (c : PlaceCall) (p : Placed)
    (q : Quoted) : s'.Holds j c p q ↔ s.Holds j c p q := by
  rw [holds_iff hw]
  constructor
  · rintro (⟨-, hh⟩ | ⟨-, hh⟩)
    · exact (hh.elim (ho c p q).1 (ho c p q).2).elim
    · exact hh
  · intro hh
    refine .inr ⟨?_, hh⟩
    rintro rfl
    exact hi c p q hh

/-- A step that leaves every order as it is. -/
lemma turn_same {L : ℕ → Prop} (h : s.Ordered) (h' : s'.Ordered)
    (ha : s.store.Adds s'.store s.world.desk.nextId s'.world.desk.nextId rows)
    (hp : ∀ o, rows.countP (fun r => r.payload.places o) = 0)
    (he : ∀ o < s.world.desk.nextId, rows.countP (fun r => r.payload.ends o) = 0)
    (hw : ∀ i c p q, s'.Holds i c p q ↔ s.Holds i c p q) : Phase.Turn L s.phase s'.phase := by
  refine .same (funext fun o => ?_)
  exact phase_kept h h' ha (hp o) (he o) fun i c p q _ => hw i c p q

/-- A step in which a call leaves its order. -/
lemma phase_left (h : s.Ordered) (h' : s'.Ordered) (hi : s.Holds i c p q)
    (ha : s.store.Adds s'.store s.world.desk.nextId s'.world.desk.nextId rows)
    (hp : ∀ o, rows.countP (fun r => r.payload.places o) = 0) {n : ℕ}
    (he : ∀ o, rows.countP (fun r => r.payload.ends o) = if o = p.orderId then n else 0)
    (hw : s'.waiting = Function.update s.waiting i none) :
    s'.phase = Function.update s.phase p.orderId
      (some (if n = 0 then .lost else .settled)) := by
  funext o
  rw [Function.update_apply]
  have hplace : s'.store.placements o = s.store.placements o := by rw [ha.placements, hp, add_zero]
  by_cases ho : o = p.orderId
  · subst ho
    have hend : s'.store.endings p.orderId = n := by
      rw [ha.endings, h.pending i c p q hi, he, if_pos rfl, zero_add]
    have hfly : p.orderId ∉ s'.world.mem.inflight := by
      rw [h'.flying]
      rintro ⟨j, c', p', q', hh, ho⟩
      rcases (holds_iff hw).mp hh with ⟨-, hno⟩ | ⟨hji, hs⟩
      · simp at hno
      · exact hji (h.apart j i c' p' q' c p q hs hi ho)
    unfold phase
    rw [hplace, if_neg (h.placements_ne hi), hend, if_neg hfly, if_pos rfl]
    by_cases hn : n = 0 <;> simp [hn]
  · rw [if_neg ho]
    refine phase_kept h h' ha (hp o) (fun _ => by rw [he, if_neg ho]) fun j c' p' q' hid => ?_
    rw [holds_iff hw]
    constructor
    · rintro (⟨-, hno⟩ | ⟨-, hh⟩)
      · simp at hno
      · exact hh
    · intro hh
      refine .inr ⟨?_, hh⟩
      rintro rfl
      obtain ⟨-, rfl, -⟩ := holds_inj hh hi
      exact ho hid.symm

lemma placedRows_places (cfg : DeskConfig) (c : PlaceCall) (dec : RiskDecision) (o : ℕ) (ts : ℤ)
    (x : ℕ) : (placedRows cfg c dec o ts).countP (fun r => r.payload.places x) =
      if x = o then 1 else 0 := by
  have horder : ∀ r, (orderPlacedRow c dec o r ts).payload.places x = decide (x = o) := fun r => by
    simp [orderPlacedRow, Payload.places, eq_comm]
  unfold placedRows orderRows
  split
  · rw [List.countP_singleton, horder]
    simp
  · rw [List.countP_cons, List.countP_singleton, horder]
    simp [consumeRow, Payload.places]

lemma places_fillBatch {o : ℕ} {rows : List Row} (h : FillBatch o rows) (x : ℕ) :
    rows.countP (fun r => r.payload.places x) = 0 := by
  obtain ⟨f, rest, rfl, hk, ⟨p, hp, hid⟩, hrest⟩ := h
  rw [List.countP_eq_zero]
  intro r hr hplaces
  rcases List.mem_cons.mp hr with rfl | hr'
  · simp [hp, Payload.places] at hplaces
  · have horder := Payload.order_of_places hplaces
    rw [(hrest r hr').2.1] at horder
    cases horder

/-- **One step**: it places an order, settles one, loses one for a cause, or leaves them. -/
theorem Move.turn {a : Action} (h : s.Ordered) (m : Move cfg s a s') :
    Phase.Turn (Loses cfg s a) s.phase s'.phase := by
  have h' := m.ordered h
  cases m with
  | beside hw hb =>
    refine turn_same h h' (adds_beside hb) (by simp) (by simp) fun i c p q => ?_
    unfold Holds
    rw [hw]
  | edited intact hw hs =>
    refine turn_same h h' (adds_edited hs) (by simp) (by simp) fun i c p q => ?_
    unfold Holds
    rw [hw]
  | forced f v hw hm hv hf hd =>
    have hfill := forceCloseRows_fill f v (s.world.desk.nextId + 1) s.world.desk.nextId
      s.world.desk.now
    refine turn_same h h' (adds_forced hf hd) (places_fillBatch hfill) ?_ fun i c p q => ?_
    · intro o ho
      rw [hfill.ends, if_neg (by omega)]
    · unfold Holds
      rw [hw]
  | cancelled o ho => exact turn_same h h' .nothing (by simp) (by simp) fun _ _ _ _ => Iff.rfl
  | asked c dec hn hc hp hm hw =>
    have hcons := check_consulted cfg (c.checkCall cfg .accepted) s.world.desk
    rw [hc] at hcons
    refine turn_same h h' (adds_consulted hcons) (by simp) (by simp) (holds_same ?_ (by simp) hw)
    exact fun c' p q => not_holds (c := c) (.inl (waiting_ge le_rfl))
  | ended i c hi hd hm hw =>
    exact turn_same h h' (adds_consulted hd) (by simp) (by simp)
      (holds_same (fun _ _ _ => not_holds hi) (by simp) hw)
  | refused i c reason detail hi hd ht hq hm hw =>
    refine turn_same h h' (adds_refused hd ht hq) ?_ ?_
      (holds_same (fun _ _ _ => not_holds hi) (by simp) hw)
    · simp [acceptedRefusal, rejectRow, Payload.places]
    · simp [acceptedRefusal, rejectRow, Payload.ends]
  | @placed _ i c size dec seen quoted latency drop d hi hq hwr hs hw =>
    have ha := adds_placed h hwr (by rw [hs])
    set o := s.world.desk.nextId with hodef
    have hnone : s.phase o = none := by
      unfold phase
      rw [if_pos (h.placements_new le_rfl)]
    have hb : Begins s s' i c o := begins_sleep (.inr ⟨size, hi⟩) hw
    refine .start o hnone (funext fun x => ?_)
    rw [Function.update_apply]
    split_ifs with hx
    · obtain ⟨p, q, hself, hid⟩ := hb.holder
      rw [hx, ← hid]
      exact h'.phase_held hself
    · refine phase_kept h h' ha (by rw [placedRows_places, if_neg hx])
        (fun _ => placedRows_ends _ _ _ _ _ _) fun j c' p' q' hid =>
          ⟨fun hh => ?_, hb.kept j c' p' q'⟩
      rcases hb.held j c' p' q' hh with ⟨-, -, hnew⟩ | ⟨-, hh'⟩
      · exact absurd (hid.symm.trans hnew) hx
      · exact hh'
  | woke i c p q hi hc hs hw =>
    have ha : s.store.Adds s'.store s.world.desk.nextId s'.world.desk.nextId [] := by
      have hst : s'.store = s.store := by unfold store; rw [hs]
      rw [hst, hs]
      exact .nothing
    exact turn_same h h' ha (by simp) (by simp) (holds_woke hi hw)
  | rejected i c p q reason detail fig hi hd hid hfee ht hq hm hw =>
    refine .settle p.orderId (h.phase_held hi) ?_
    refine phase_left h h' hi (adds_rejected h hi hd hid ht hq) (n := 1) ?_ ?_ hw
    · simp [confirmingRefusal, rejectRow, Payload.places]
    · intro o
      simp [confirmingRefusal, rejectRow, hid, Payload.ends, eq_comm, List.countP_singleton]
  | dropped i c p q hi hd hm hw why =>
    refine .lose p.orderId ⟨i, c, p, q, hi, rfl, why.lost h hi⟩ (h.phase_held hi) ?_
    exact phase_left h h' hi (adds_consulted hd) (by simp) (n := 0) (by simp) hw
  | @bought _ i c p quote curve1 curve dec q out1 d hi hcurve hdec hp hin hne hf hq hm hw =>
    have hfill : FillBatch p.orderId (boughtRows cfg c p q curve out1 d) :=
      boughtRows_fill p q curve out1 d
    refine .settle p.orderId (h.phase_held (.inr hi)) ?_
    exact phase_left h h' (.inr hi) (adds_filled h (.inr hi) (confirmed_consulted hdec) hf hfill hq)
      (places_fillBatch hfill) hfill.ends hw
  | @sold _ i c p plan curve1 curve dec v gross1 d hi hcurve hdec hv hheld hp hin hf hq hm hw =>
    have hfill : FillBatch p.orderId (soldRows cfg c p plan curve v gross1 d) :=
      soldRows_fill p plan curve v gross1 d
    refine .settle p.orderId (h.phase_held (.inr hi)) ?_
    exact phase_left h h' (.inr hi) (adds_filled h (.inr hi) (confirmed_consulted hdec) hf hfill hq)
      (places_fillBatch hfill) hfill.ends hw

lemma phase_ne_none_iff (s : Sys) (o : ℕ) : s.phase o ≠ none ↔ ∃ k, s.store.PlacedUnder k o := by
  have hsome : s.phase o ≠ none ↔ s.store.placements o ≠ 0 := by
    unfold phase
    split_ifs with h <;> simp [h]
  rw [hsome, LedgerStore.placements, ne_eq, List.countP_eq_zero]
  constructor
  · intro hno
    push Not at hno
    obtain ⟨e, he, hp⟩ := hno
    cases hpay : e.payload <;> rw [hpay] at hp <;>
      simp only [Payload.places, decide_eq_true_eq, Bool.false_eq_true] at hp
    exact ⟨e.key, e, he, rfl, _, hpay, hp⟩
  · rintro ⟨k, e, he, -, p, hp, ho⟩ hno
    exact hno e he (by simp [hp, Payload.places, ho])

/-- What a phase is read from. -/
lemma phase_some {o : ℕ} {z : Phase} (ho : s.phase o = some z) :
    (s.store.endings o ≠ 0 ∧ z = .settled) ∨
      s.store.endings o = 0 ∧ (o ∈ s.world.mem.inflight ∧ z = .live ∨ z = .lost) := by
  unfold phase at ho
  split_ifs at ho with h₁ h₂ h₃ <;> obtain rfl := Option.some.inj ho
  · exact .inl ⟨h₂, rfl⟩
  · exact .inr ⟨not_ne_iff.mp h₂, .inl ⟨h₃, rfl⟩⟩
  · exact .inr ⟨not_ne_iff.mp h₂, .inr rfl⟩

lemma Ordered.phase_live_iff (h : s.Ordered) (o : ℕ) :
    s.phase o = some .live ↔ ∃ i c p q, s.Holds i c p q ∧ p.orderId = o := by
  constructor
  · intro ho
    rcases phase_some ho with ⟨-, hz⟩ | ⟨-, ⟨hfly, -⟩ | hz⟩
    · cases hz
    · exact (h.flying o).mp hfly
    · cases hz
  · rintro ⟨i, c, p, q, hi, rfl⟩
    exact h.phase_held hi

lemma Ordered.endings_settled (h : s.Ordered) {o : ℕ} (ho : s.phase o = some .settled) :
    s.store.endings o = 1 := by
  have honce := h.once o
  rcases phase_some ho with ⟨hends, -⟩ | ⟨-, ⟨-, hz⟩ | hz⟩
  · omega
  · cases hz
  · cases hz

lemma endings_lost {o : ℕ} (ho : s.phase o = some .lost) : s.store.endings o = 0 := by
  rcases phase_some ho with ⟨-, hz⟩ | ⟨hends, -⟩
  · cases hz
  · exact hends

end Phases

/-! ### Whole runs -/

/-- What becomes of the orders of a run. -/
structure OrdersEnd (cfg : DeskConfig) (s₀ : Sys) (as : List Action) : Prop where
  placed : ∀ o, (Runs.after (step cfg) s₀ as).phase o ≠ none ↔
    ∃ k, (Runs.after (step cfg) s₀ as).store.PlacedUnder k o
  live : ∀ o, (Runs.after (step cfg) s₀ as).phase o = some .live ↔
    ∃ i c p q, (Runs.after (step cfg) s₀ as).Holds i c p q ∧ p.orderId = o
  settled : ∀ o, (Runs.after (step cfg) s₀ as).phase o = some .settled →
    (Runs.after (step cfg) s₀ as).store.endings o = 1
  lost : ∀ o, (Runs.after (step cfg) s₀ as).phase o = some .lost →
    (Runs.after (step cfg) s₀ as).store.endings o = 0 ∧
    ∃ bs a, bs ++ [a] <+: as ∧ Loses cfg (Runs.after (step cfg) s₀ bs) a o
  final : ∀ o z, z ≠ .live → (Runs.after (step cfg) s₀ as).phase o = some z →
    ∀ bs, (Runs.after (step cfg) s₀ (as ++ bs)).phase o = some z

end Sys

end PumpGrok
