import PumpGrok.Desk.Moves

/-!
The orders of the system: every waiting order is on the ledger, has no outcome there yet, is
held by one call, and is in flight; and no order has two outcomes.
-/

namespace PumpGrok

/-! ### The rows of orders -/

namespace LedgerStore

variable {st : LedgerStore} {next : ℕ} {cfg : DeskConfig} {c : PlaceCall}

lemma acceptedRefusal_rowsOk (reason : Reason) (detail : Detail) (ts : ℤ) :
    st.RowsOk next [acceptedRefusal cfg c reason detail ts] := by
  constructor <;> intro r hr <;> rw [List.mem_singleton.mp hr]
  · exact ⟨_, rfl, rfl⟩
  · intro o ho
    simp [acceptedRefusal, rejectRow, Payload.order] at ho
  · rintro o (ho | ho) <;> simp [acceptedRefusal, rejectRow, rejectKey] at ho
  · intro t s d x p o hk
    simp [acceptedRefusal, rejectRow, rejectKey] at hk
  · intro p hp
    simp [acceptedRefusal, rejectRow] at hp

lemma confirmingRefusal_rowsOk {o : ℕ} {fig : RejectFigures} (reason : Reason) (detail : Detail)
    (ts : ℤ) (hid : fig.orderId = some o) (hp : st.PlacedUnder c.key o) (ho : o < next) :
    st.RowsOk next [confirmingRefusal cfg c reason detail fig ts] := by
  constructor <;> intro r hr <;> rw [List.mem_singleton.mp hr]
  · exact ⟨_, o, rfl, by simp [hid]⟩
  · intro x hx
    simp only [confirmingRefusal, rejectRow, hid, Payload.order, Option.mem_def,
      Option.some.injEq] at hx
    omega
  · rintro x (hx | hx) <;> simp [confirmingRefusal, rejectRow, rejectKey] at hx
  · intro t s d x p y hk hpay hy
    simp only [confirmingRefusal, rejectRow, rejectKey, Key.reject.injEq] at hk
    obtain ⟨rfl, rfl, rfl, -, -⟩ := hk
    simp only [confirmingRefusal, rejectRow, hid, Payload.orderRejected.injEq] at hpay
    subst hpay
    simp only [OrderRef.placed.injEq] at hy
    exact hy ▸ hp
  · intro p hpay
    simp [confirmingRefusal, rejectRow] at hpay

lemma mem_placedRows {dec : RiskDecision} {o : ℕ} {ts : ℤ} {r : Row}
    (h : r ∈ placedRows cfg c dec o ts) :
    r = orderPlacedRow c dec o (c.ledgerSource cfg) ts ∨
      ∃ a id, r = consumeRow a (.consume (some id)) (c.ledgerSource cfg) ts := by
  unfold placedRows orderRows at h
  split at h
  · exact .inl (List.mem_singleton.mp h)
  · rcases List.mem_cons.mp h with rfl | h
    · exact .inr ⟨_, _, rfl⟩
    · exact .inl (List.mem_singleton.mp h)

lemma orderPlacedRow_mem (dec : RiskDecision) (o : ℕ) (ts : ℤ) :
    orderPlacedRow c dec o (c.ledgerSource cfg) ts ∈ placedRows cfg c dec o ts := by
  unfold placedRows orderRows
  split <;> simp

lemma placedRows_rowsOk (dec : RiskDecision) {o : ℕ} (ts : ℤ) (ho : o < next)
    (hfree : ∀ e ∈ st.read, e.payload.order ≠ some o) :
    st.RowsOk next (placedRows cfg c dec o ts) := by
  constructor <;> intro r hr <;>
    rcases mem_placedRows hr with rfl | ⟨a, id, rfl⟩
  · exact ⟨_, rfl, rfl, rfl, rfl⟩
  · exact ⟨_, rfl⟩
  · intro x hx
    simp only [orderPlacedRow, Payload.order, Option.mem_def, Option.some.injEq] at hx
    omega
  · intro x hx
    simp [consumeRow, Payload.order] at hx
  · rintro x (hx | hx) <;> simp [orderPlacedRow, PlaceCall.key] at hx
  · rintro x (hx | hx) <;> simp [consumeRow] at hx
  · intro t s d x p y hk
    simp [orderPlacedRow, PlaceCall.key] at hk
  · intro t s d x p y hk
    simp [consumeRow] at hk
  · intro p hp
    simp only [orderPlacedRow, Payload.orderPlaced.injEq] at hp
    subst hp
    refine ⟨hfree, fun r' hr' p' hp' => ?_⟩
    rcases mem_placedRows hr' with rfl | ⟨a, id, rfl⟩
    · rfl
    · simp [consumeRow] at hp'
  · intro p hp
    simp [consumeRow] at hp

/-- A batch that begins with the fill of an order and has nothing else but the rows beside it. -/
structure FillBatch (o : ℕ) (rows : List Row) : Prop where
  fill : ∃ f rest, rows = f :: rest ∧ f.key = .fill o ∧
    (∃ p, f.payload = .fillRecorded p ∧ p.orderId = o) ∧
    ∀ r ∈ rest, r.Named ∧ r.payload.order = none ∧
      (∀ x, r.key = .position x ∨ r.key = .close x → x = o) ∧ ∀ t s d y x, r.key ≠ .reject t s d y x

lemma FillBatch.rowsOk {o : ℕ} {rows : List Row} (h : FillBatch o rows) (ho : o < next) :
    st.RowsOk next rows := by
  obtain ⟨f, rest, rfl, hk, ⟨p, hp, hid⟩, hrest⟩ := h
  have hnamed : f.Named := by
    unfold Row.Named
    rw [hk]
    exact ⟨p, hp, hid⟩
  constructor <;> intro r hr <;> rcases List.mem_cons.mp hr with rfl | hr'
  · exact hnamed
  · exact (hrest r hr').1
  · intro x hx
    rw [hp] at hx
    simp only [Payload.order, Option.mem_def, Option.some.injEq] at hx
    omega
  · intro x hx
    simp [(hrest r hr').2.1] at hx
  · rintro x (hx | hx) <;> simp [hk] at hx
  · intro x hx
    obtain rfl := (hrest r hr').2.2.1 x hx
    exact ⟨f, by simp, hk⟩
  · intro t s d x q y hk'
    simp [hk] at hk'
  · intro t s d x q y hk'
    exact absurd hk' ((hrest r hr').2.2.2 _ _ _ _ _)
  · intro q hq
    simp [hp] at hq
  · intro q hq
    have := (hrest r hr').2.1
    simp [hq, Payload.order] at this

lemma FillBatch.ends {o : ℕ} {rows : List Row} (h : FillBatch o rows) (x : ℕ) :
    rows.countP (fun r => r.payload.ends x) = if x = o then 1 else 0 := by
  obtain ⟨f, rest, rfl, hk, ⟨p, hp, hid⟩, hrest⟩ := h
  have hr : rest.countP (fun r => r.payload.ends x) = 0 := by
    rw [List.countP_eq_zero]
    intro r hr he
    have := Payload.order_of_ends he
    rw [(hrest r hr).2.1] at this
    simp at this
  rw [List.countP_cons, hr, hp]
  simp only [Payload.ends, hid, decide_eq_true_eq, zero_add, @eq_comm _ o x]

lemma boughtRows_fill (p : Placed) (q : BuyQuote) (curve : CurveSnapshot) (out1 : ℤ) (d : Desk) :
    FillBatch p.orderId (boughtRows cfg c p q curve out1 d) := by
  unfold boughtRows buyFillRows
  split
  · exact ⟨_, [], rfl, rfl, ⟨_, rfl, rfl⟩, by simp⟩
  · refine ⟨_, _, rfl, rfl, ⟨_, rfl, rfl⟩, fun r hr => ?_⟩
    rw [List.mem_singleton.mp hr]
    refine ⟨⟨_, rfl⟩, rfl, ?_, by simp [buyPositionRow]⟩
    rintro x (hx | hx) <;> simp [buyPositionRow, buyFigures] at hx
    exact hx.symm

lemma soldRows_fill (p : Placed) (plan : SellPlan) (curve : CurveSnapshot) (v : PositionView)
    (gross1 : ℤ) (d : Desk) : FillBatch p.orderId (soldRows cfg c p plan curve v gross1 d) := by
  unfold soldRows sellRows
  simp only
  split
  · refine ⟨_, _, rfl, rfl, ⟨_, rfl, rfl⟩, fun r hr => ?_⟩
    rw [List.mem_singleton.mp hr]
    refine ⟨⟨_, rfl⟩, rfl, ?_, by simp [positionClosedRow]⟩
    rintro x (hx | hx) <;> simp [positionClosedRow] at hx
    exact hx.symm
  · exact ⟨_, [], rfl, rfl, ⟨_, rfl, rfl⟩, by simp⟩

lemma forceCloseRows_fill (f : ForceClose) (v : PositionView) (order ref : ℕ) (ts : ℤ) :
    FillBatch order (forceCloseRows f v order ref ts) := by
  refine ⟨_, _, rfl, rfl, ⟨_, rfl, rfl⟩, fun r hr => ?_⟩
  simp only [List.mem_cons, List.not_mem_nil, or_false] at hr
  rcases hr with rfl | rfl
  · exact ⟨⟨_, rfl⟩, rfl, by simp [forceClosePositionRow], by simp [forceClosePositionRow]⟩
  · exact ⟨rfl, rfl, by simp [forceCloseEscalationRow], by simp [forceCloseEscalationRow]⟩

/-! ### What a step adds -/

/-- A store with rows added, and rows of no order around them. -/
structure Adds (st st' : LedgerStore) (next next' : ℕ) (rows : List Row) : Prop where
  inOrder : st.InOrder next → st'.InOrder next'
  counts : ∀ f : Payload → Bool, (∀ p, p.ofOrder = false → f p = false) →
    st'.read.countP (fun e => f e.payload) =
      st.read.countP (fun e => f e.payload) + rows.countP fun r => f r.payload
  grown : st.read <+: st'.read
  has : ∀ r ∈ rows, ∃ e ∈ st'.read, e.toRow = r

variable {st' : LedgerStore} {next' : ℕ} {rows : List Row}

lemma Adds.endings (h : st.Adds st' next next' rows) (o : ℕ) :
    st'.endings o = st.endings o + rows.countP fun r => r.payload.ends o :=
  h.counts _ fun _ => Payload.ends_aside

lemma Adds.of_aside {F : Row → Prop} (hg : st.Grows (AsideBatch F) st') (hn : next ≤ next') :
    st.Adds st' next next' [] where
  inOrder h := (h.aside hg).grow hn
  counts f hf := by simp [countP_aside hf hg]
  grown := hg.read_extends
  has := by simp

lemma Adds.nothing : st.Adds st next next [] :=
  .of_aside (@Grows.refl (AsideBatch fun _ => False) st) le_rfl

lemma Adds.commit (hf : st.Fresh rows) (hn : next ≤ next')
    (hr : st.InOrder next → st.RowsOk next' rows) :
    st.Adds (st.commit rows) next next' rows where
  inOrder h := (h.grow hn).commit hf (hr h)
  counts f _ := countP_commit f
  grown := read_extends_commit st rows
  has _ h := exists_stamped h

lemma Adds.trans {st'' : LedgerStore} {next'' : ℕ} {rows' : List Row}
    (h : st.Adds st' next next' rows) (h' : st'.Adds st'' next' next'' rows') :
    st.Adds st'' next next'' (rows ++ rows') where
  inOrder hi := h'.inOrder (h.inOrder hi)
  counts f hf := by rw [h'.counts f hf, h.counts f hf, List.countP_append, add_assoc]
  grown := h.grown.trans h'.grown
  has r hr := by
    rcases List.mem_append.mp hr with hr | hr
    · obtain ⟨e, he, hrow⟩ := h.has r hr
      exact ⟨e, h'.grown.subset he, hrow⟩
    · exact h'.has r hr

/-- Rows committed on a desk consulted before, with quiet changes after. -/
lemma Adds.between {call : CheckCall} {d₀ d d₁ d₂ : Desk} (hd : d₀.Consulted cfg call d)
    (hq : d₁.Quietly d₂) (hst : d₁.store = d.store.commit rows) (hid : d.nextId ≤ d₁.nextId)
    (hf : d.store.Fresh rows)
    (hr : d.store.InOrder d.nextId → d₀.store.read <+: d.store.read →
      d.store.RowsOk d₁.nextId rows) :
    d₀.store.Adds d₂.store d₀.nextId d₂.nextId rows := by
  have h₁ : d₀.store.Adds d.store d₀.nextId d.nextId [] :=
    .of_aside (hd.store.mono fun _ _ => EngineRow.alone) hd.ids
  have h₂ : d.store.Adds d₁.store d.nextId d₁.nextId rows := by
    rw [hst]
    exact .commit hf hid fun h => hr h h₁.grown
  have h₃ : d₁.store.Adds d₂.store d₁.nextId d₂.nextId [] :=
    .of_aside (hq.store.mono fun _ _ => EngineRow.alone) hq.ids
  have := (h₁.trans h₂).trans h₃
  simpa using this

end LedgerStore

open LedgerStore

/-- The key of the order a decision is cached for. -/
def CacheKey.exec (k : CacheKey) : Key :=
  .execPlace k.orderHash.ticketId k.orderHash.side k.orderHash.decisionId

namespace Sys

/-- **The orders of the system.** -/
structure Ordered (s : Sys) : Prop where
  inOrder : s.store.InOrder s.world.desk.nextId
  placed : ∀ i c p q, s.Holds i c p q → s.store.PlacedUnder c.key p.orderId
  pending : ∀ i c p q, s.Holds i c p q → s.store.endings p.orderId = 0
  apart : ∀ i j c p q c' p' q', s.Holds i c p q → s.Holds j c' p' q' →
    p.orderId = p'.orderId → i = j
  owned : ∀ i c p q, s.Holds i c p q → s.world.mem.ownedOrder.get i = some p.orderId
  owner : ∀ i o, s.world.mem.ownedOrder.get i = some o → ∃ c p q, s.Holds i c p q ∧ p.orderId = o
  flying : ∀ o, o ∈ s.world.mem.inflight ↔ ∃ i c p q, s.Holds i c p q ∧ p.orderId = o
  once : ∀ o, s.store.endings o ≤ 1
  consulted : ∀ k, s.world.desk.decisions.get k ≠ none → k.stage = .confirming →
    (∃ o, s.store.PlacedUnder k.exec o) ∧ ∀ i c p q, s.Holds i c p q → c.key ≠ k.exec

lemma ordered_start (now e₀ : ℤ) (killswitch : KillSwitch) : (start now e₀ killswitch).Ordered := by
  have hn : ∀ i c p q, ¬ (start now e₀ killswitch).Holds i c p q := by
    rintro i c p q (h | h) <;> simp [waiting, start] at h
  refine ⟨.empty _, ?_, ?_, ?_, ?_, ?_, ?_, ?_, ?_⟩
  · exact fun i c p q h => absurd h (hn i c p q)
  · exact fun i c p q h => absurd h (hn i c p q)
  · exact fun i j c p q c' p' q' h => absurd h (hn i c p q)
  · exact fun i c p q h => absurd h (hn i c p q)
  · intro i o ho
    simp [start] at ho
  · intro o
    simp only [start, Finset.notMem_empty, false_iff]
    rintro ⟨i, c, p, q, h, -⟩
    exact hn i c p q h
  · intro o
    simp [store, start, endings, LedgerStore.read]
  · intro k hk
    simp [start] at hk

variable {cfg : DeskConfig} {s s' : Sys}

/-- The calls that hold orders, after call `i` moves to `o`. -/
lemma holds_iff {i j : ℕ} {c : PlaceCall} {p : Placed} {q : Quoted}
    {o : Option (PlaceCall × Wait)} (hw : s'.waiting = Function.update s.waiting i o) :
    s'.Holds j c p q ↔ (j = i ∧ (o = some (c, .sleep p q) ∨ o = some (c, .curve1 p q))) ∨
      (j ≠ i ∧ s.Holds j c p q) := by
  unfold Holds
  rw [hw]
  by_cases hj : j = i
  · subst hj
    simp
  · simp [hj]

lemma not_holds {i : ℕ} {c c' : PlaceCall} {p : Placed} {q : Quoted} (h : s.Orderless i c) :
    ¬ s.Holds i c' p q := by
  rcases h with h | ⟨size, h⟩ <;> rintro (h' | h') <;> rw [h] at h' <;> simp at h'

/-- A call holds one order. -/
lemma holds_inj {i : ℕ} {c c' : PlaceCall} {p p' : Placed} {q q' : Quoted} (h : s.Holds i c p q)
    (h' : s.Holds i c' p' q') : c = c' ∧ p = p' ∧ q = q' := by
  rcases h with h | h <;> rcases h' with h' | h' <;> rw [h] at h' <;> simp_all

/-- The calls that hold orders, after a call begins to hold one. -/
structure Begins (s s' : Sys) (i : ℕ) (c : PlaceCall) (o : ℕ) : Prop where
  holder : ∃ p q, s'.Holds i c p q ∧ p.orderId = o
  held : ∀ j c' p q, s'.Holds j c' p q →
    (j = i ∧ c' = c ∧ p.orderId = o) ∨ (j ≠ i ∧ s.Holds j c' p q)
  kept : ∀ j c' p q, s.Holds j c' p q → s'.Holds j c' p q

lemma begins_sleep {i : ℕ} {c : PlaceCall} {p : Placed} {q : Quoted} (hi : s.Orderless i c)
    (hw : s'.waiting = Function.update s.waiting i (some (c, .sleep p q))) :
    Begins s s' i c p.orderId where
  holder := ⟨p, q, (holds_iff hw).mpr (.inl ⟨rfl, .inl rfl⟩), rfl⟩
  held j c' p' q' hh := by
    rcases (holds_iff hw).mp hh with ⟨rfl, ho⟩ | hh'
    · simp only [Option.some.injEq, Prod.mk.injEq, Wait.sleep.injEq, reduceCtorEq, and_false,
        or_false] at ho
      obtain ⟨rfl, rfl, rfl⟩ := ho
      exact .inl ⟨rfl, rfl, rfl⟩
    · exact .inr hh'
  kept j c' p' q' hh := by
    refine (holds_iff hw).mpr (.inr ⟨?_, hh⟩)
    rintro rfl
    exact not_holds hi hh

/-- A wake-up moves an order between two waits of its call. -/
lemma holds_woke {i : ℕ} {c : PlaceCall} {p : Placed} {q : Quoted}
    (hi : s.waiting i = some (c, .sleep p q))
    (hw : s'.waiting = Function.update s.waiting i (some (c, .curve1 p q)))
    (j : ℕ) (c' : PlaceCall) (p' : Placed) (q' : Quoted) :
    s'.Holds j c' p' q' ↔ s.Holds j c' p' q' := by
  rw [holds_iff hw]
  constructor
  · rintro (⟨rfl, ho⟩ | ⟨-, hh⟩)
    · simp only [Option.some.injEq, Prod.mk.injEq, Wait.curve1.injEq, reduceCtorEq, and_false,
        false_or] at ho
      obtain ⟨rfl, rfl, rfl⟩ := ho
      exact .inl hi
    · exact hh
  · intro hh
    by_cases hji : j = i
    · subst hji
      obtain ⟨rfl, rfl, rfl⟩ := holds_inj hh (.inl hi)
      exact .inl ⟨rfl, .inr rfl⟩
    · exact .inr ⟨hji, hh⟩

namespace Ordered

/-- A held order was drawn. -/
lemma drawn (h : s.Ordered) {i : ℕ} {c : PlaceCall} {p : Placed} {q : Quoted}
    (hi : s.Holds i c p q) : p.orderId < s.world.desk.nextId := by
  obtain ⟨e, he, -, pl, hp, hid⟩ := h.placed i c p q hi
  exact h.inOrder.drawn e he p.orderId (by simp [hp, Payload.order, hid])

/-- Two calls with one key are one call. -/
lemma eq_of_key (h : s.Ordered) {i j : ℕ} {c c' : PlaceCall} {p p' : Placed} {q q' : Quoted}
    (hi : s.Holds i c p q) (hj : s.Holds j c' p' q') (hk : c.key = c'.key) : i = j := by
  have hp := h.placed i c p q hi
  rw [hk] at hp
  exact h.apart i j c p q c' p' q' hi hj (h.inOrder.placedUnder_inj hp (h.placed j c' p' q' hj))

/-- A call without an order owns none. -/
lemma owned_none (h : s.Ordered) {i : ℕ} (hi : ∀ c p q, ¬ s.Holds i c p q) :
    s.world.mem.ownedOrder.get i = none := by
  by_contra hne
  obtain ⟨o, ho⟩ := Option.ne_none_iff_exists'.mp hne
  obtain ⟨c, p, q, hh, -⟩ := h.owner i o ho
  exact hi c p q hh

/-- No row names an id that is not drawn yet. -/
lemma endings_new (h : s.Ordered) {o : ℕ} (ho : s.world.desk.nextId ≤ o) :
    s.store.endings o = 0 := by
  rw [endings, List.countP_eq_zero]
  intro e he hends
  exact h.inOrder.order_ne ho he (Payload.order_of_ends hends)

/-- A step that changes no order. -/
lemma same (h : s.Ordered) {rows : List Row}
    (ha : s.store.Adds s'.store s.world.desk.nextId s'.world.desk.nextId rows)
    (hheld : ∀ i c p q, s.Holds i c p q →
      rows.countP (fun r => r.payload.ends p.orderId) = 0)
    (honce : ∀ o, s'.store.endings o ≤ 1)
    (hw : ∀ i c p q, s'.Holds i c p q ↔ s.Holds i c p q)
    (hi : s'.world.mem.inflight = s.world.mem.inflight)
    (ho : s'.world.mem.ownedOrder = s.world.mem.ownedOrder)
    (hd : ∀ k, s'.world.desk.decisions.get k ≠ none → s.world.desk.decisions.get k ≠ none ∨
      k.stage = .accepted) : s'.Ordered where
  inOrder := ha.inOrder h.inOrder
  placed i c p q hh := (h.placed i c p q ((hw i c p q).mp hh)).mono ha.grown
  pending i c p q hh := by
    have hs := (hw i c p q).mp hh
    rw [ha.endings, h.pending i c p q hs, hheld i c p q hs]
  apart i j c p q c' p' q' h₁ h₂ :=
    h.apart i j c p q c' p' q' ((hw _ _ _ _).mp h₁) ((hw _ _ _ _).mp h₂)
  owned i c p q hh := by rw [ho]; exact h.owned i c p q ((hw _ _ _ _).mp hh)
  owner i o hio := by
    rw [ho] at hio
    obtain ⟨c, p, q, hh, hid⟩ := h.owner i o hio
    exact ⟨c, p, q, (hw _ _ _ _).mpr hh, hid⟩
  flying o := by
    rw [hi, h.flying o]
    simp only [hw]
  once := honce
  consulted k hk hst := by
    rcases hd k hk with hk' | hk'
    · obtain ⟨⟨o, hp⟩, hne⟩ := h.consulted k hk' hst
      exact ⟨⟨o, hp.mono ha.grown⟩, fun i c p q hh => hne i c p q ((hw _ _ _ _).mp hh)⟩
    · simp [hk'] at hst

/-- A step that ends a call without an order. -/
lemma never (h : s.Ordered) {rows : List Row} {i : ℕ} {c : PlaceCall} (hi : s.Orderless i c)
    (ha : s.store.Adds s'.store s.world.desk.nextId s'.world.desk.nextId rows)
    (hrows : ∀ o, rows.countP (fun r => r.payload.ends o) = 0)
    (hm : s.world.mem.Leaves i none s'.world.mem)
    (hw : s'.waiting = Function.update s.waiting i none)
    (hd : ∀ k, s'.world.desk.decisions.get k ≠ none → s.world.desk.decisions.get k ≠ none ∨
      k.stage = .accepted) : s'.Ordered := by
  have hnone := h.owned_none fun c' p q => @not_holds _ _ _ c' p q hi
  refine h.same ha (fun _ _ _ _ _ => hrows _) ?_ ?_ ?_ ?_ hd
  · intro o
    rw [ha.endings, hrows]
    exact h.once o
  · intro j c' p q
    rw [holds_iff hw]
    constructor
    · rintro (⟨-, ho⟩ | ⟨-, hh⟩)
      · simp at ho
      · exact hh
    · intro hh
      refine .inr ⟨?_, hh⟩
      rintro rfl
      exact not_holds hi hh
  · refine Finset.Subset.antisymm hm.inflight fun x hx => hm.kept x hx (by simp) (by simp [hnone])
  · rw [hm.owned, Dict.erase_of_get_none hnone]

/-- A step that ends a call with its order. -/
lemma leaving (h : s.Ordered) {rows : List Row} {i : ℕ} {c : PlaceCall} {p : Placed} {q : Quoted}
    (hi : s.Holds i c p q)
    (ha : s.store.Adds s'.store s.world.desk.nextId s'.world.desk.nextId rows)
    (hrows : ∀ o, rows.countP (fun r => r.payload.ends o) ≤ if o = p.orderId then 1 else 0)
    (hm : s.world.mem.Leaves i (some p.orderId) s'.world.mem)
    (hw : s'.waiting = Function.update s.waiting i none)
    (hd : ∀ k, s'.world.desk.decisions.get k ≠ none → s.world.desk.decisions.get k ≠ none ∨
      (k.stage = .confirming ∧ k.orderHash = orderHashFor c.request)) : s'.Ordered := by
  have hown := h.owned i c p q hi
  have hback : ∀ j c' p' q', s'.Holds j c' p' q' → j ≠ i ∧ s.Holds j c' p' q' := by
    intro j c' p' q' hh
    rcases (holds_iff hw).mp hh with ⟨-, ho⟩ | hh'
    · simp at ho
    · exact hh'
  have hne : ∀ j c' p' q', s'.Holds j c' p' q' → p'.orderId ≠ p.orderId := by
    intro j c' p' q' hh heq
    obtain ⟨hji, hs⟩ := hback j c' p' q' hh
    exact hji (h.apart j i c' p' q' c p q hs hi heq)
  have hrow : ∀ o, o ≠ p.orderId → rows.countP (fun r => r.payload.ends o) = 0 := by
    intro o ho
    have := hrows o
    rw [if_neg ho] at this
    omega
  refine ⟨ha.inOrder h.inOrder, ?_, ?_, ?_, ?_, ?_, ?_, ?_, ?_⟩
  · intro j c' p' q' hh
    exact (h.placed j c' p' q' (hback j c' p' q' hh).2).mono ha.grown
  · intro j c' p' q' hh
    rw [ha.endings, h.pending j c' p' q' (hback j c' p' q' hh).2, hrow _ (hne j c' p' q' hh)]
  · intro j k c₁ p₁ q₁ c₂ p₂ q₂ h₁ h₂
    exact h.apart j k c₁ p₁ q₁ c₂ p₂ q₂ (hback _ _ _ _ h₁).2 (hback _ _ _ _ h₂).2
  · intro j c' p' q' hh
    obtain ⟨hji, hs⟩ := hback j c' p' q' hh
    rw [hm.owned, Dict.get_erase_ne _ hji]
    exact h.owned j c' p' q' hs
  · intro j o hjo
    rw [hm.owned, Dict.get_erase] at hjo
    split_ifs at hjo with hji
    obtain ⟨c', p', q', hh, hid⟩ := h.owner j o hjo
    exact ⟨c', p', q', (holds_iff hw).mpr (.inr ⟨hji, hh⟩), hid⟩
  · intro o
    constructor
    · intro ho
      have hne' : o ≠ p.orderId := by
        rintro rfl
        exact hm.gone p.orderId hown ho
      obtain ⟨j, c', p', q', hh, rfl⟩ := (h.flying o).mp (hm.inflight ho)
      refine ⟨j, c', p', q', (holds_iff hw).mpr (.inr ⟨?_, hh⟩), rfl⟩
      rintro rfl
      obtain ⟨-, rfl, -⟩ := holds_inj hh hi
      exact hne' rfl
    · rintro ⟨j, c', p', q', hh, rfl⟩
      refine hm.kept _ ((h.flying _).mpr ⟨j, c', p', q', (hback _ _ _ _ hh).2, rfl⟩) ?_ ?_
      · simp [(hne _ _ _ _ hh).symm]
      · simp [hown, (hne _ _ _ _ hh).symm]
  · intro o
    rw [ha.endings]
    by_cases ho : o = p.orderId
    · subst ho
      have := hrows p.orderId
      rw [if_pos rfl] at this
      rw [h.pending i c p q hi]
      omega
    · rw [hrow o ho]
      exact h.once o
  · intro k hk hst
    rcases hd k hk with hk' | ⟨-, hhash⟩
    · obtain ⟨⟨o, hp⟩, hdiff⟩ := h.consulted k hk' hst
      exact ⟨⟨o, hp.mono ha.grown⟩, fun j c' p' q' hh => hdiff j c' p' q' (hback _ _ _ _ hh).2⟩
    · have hexec : k.exec = c.key := by
        unfold CacheKey.exec
        rw [hhash]
        rfl
      rw [hexec]
      refine ⟨⟨_, (h.placed i c p q hi).mono ha.grown⟩, fun j c' p' q' hh heq => ?_⟩
      obtain ⟨hji, hs⟩ := hback j c' p' q' hh
      exact hji (h.eq_of_key hs hi heq)

/-- A step that gives a call its order, under an id and a key that the ledger does not have. -/
lemma starting (h : s.Ordered) {rows : List Row} {i o : ℕ} {c : PlaceCall}
    (hb : Begins s s' i c o) (ho : s.world.desk.nextId ≤ o)
    (hfree : ∀ x, ¬ s.store.PlacedUnder c.key x)
    (ha : s.store.Adds s'.store s.world.desk.nextId s'.world.desk.nextId rows)
    (hrows : ∀ x, rows.countP (fun r => r.payload.ends x) = 0)
    (hplaced : s'.store.PlacedUnder c.key o)
    (hi : s'.world.mem.inflight = insert o s.world.mem.inflight)
    (hown : s'.world.mem.ownedOrder = s.world.mem.ownedOrder.set i o)
    (hd : ∀ k, s'.world.desk.decisions.get k ≠ none → s.world.desk.decisions.get k ≠ none ∨
      k.stage = .accepted) : s'.Ordered := by
  -- no order held before has the new id
  have hne : ∀ j c' p q, s.Holds j c' p q → p.orderId ≠ o :=
    fun j c' p q hh => ((h.drawn hh).trans_le ho).ne
  refine ⟨ha.inOrder h.inOrder, ?_, ?_, ?_, ?_, ?_, ?_, ?_, ?_⟩
  · intro j c' p q hh
    rcases hb.held j c' p q hh with ⟨-, rfl, hid⟩ | ⟨-, hh'⟩
    · rw [hid]
      exact hplaced
    · exact (h.placed j c' p q hh').mono ha.grown
  · intro j c' p q hh
    rw [ha.endings, hrows]
    rcases hb.held j c' p q hh with ⟨-, -, hid⟩ | ⟨-, hh'⟩
    · rw [hid, h.endings_new ho]
    · rw [h.pending j c' p q hh']
  · intro j k c₁ p₁ q₁ c₂ p₂ q₂ h₁ h₂ heq
    rcases hb.held _ _ _ _ h₁ with ⟨rfl, -, hid₁⟩ | ⟨-, h₁'⟩ <;>
      rcases hb.held _ _ _ _ h₂ with ⟨rfl, -, hid₂⟩ | ⟨-, h₂'⟩
    · rfl
    · exact absurd (heq.symm.trans hid₁) (hne _ _ _ _ h₂')
    · exact absurd (heq.trans hid₂) (hne _ _ _ _ h₁')
    · exact h.apart j k c₁ p₁ q₁ c₂ p₂ q₂ h₁' h₂' heq
  · intro j c' p q hh
    rw [hown]
    rcases hb.held _ _ _ _ hh with ⟨rfl, -, hid⟩ | ⟨hji, hh'⟩
    · simp [hid]
    · rw [Dict.get_set_ne _ _ hji]
      exact h.owned j c' p q hh'
  · intro j x hx
    rw [hown, Dict.get_set] at hx
    split_ifs at hx with hji
    · obtain rfl := Option.some.inj hx
      obtain ⟨p, q, hh, hid⟩ := hb.holder
      exact ⟨c, p, q, hji ▸ hh, hid⟩
    · obtain ⟨c', p, q, hh, hid⟩ := h.owner j x hx
      exact ⟨c', p, q, hb.kept j c' p q hh, hid⟩
  · intro x
    rw [hi, Finset.mem_insert]
    constructor
    · rintro (rfl | hx)
      · obtain ⟨p, q, hh, hid⟩ := hb.holder
        exact ⟨i, c, p, q, hh, hid⟩
      · obtain ⟨j, c', p, q, hh, rfl⟩ := (h.flying x).mp hx
        exact ⟨j, c', p, q, hb.kept j c' p q hh, rfl⟩
    · rintro ⟨j, c', p, q, hh, rfl⟩
      rcases hb.held _ _ _ _ hh with ⟨-, -, hid⟩ | ⟨-, hh'⟩
      · exact .inl hid
      · exact .inr ((h.flying _).mpr ⟨j, c', p, q, hh', rfl⟩)
  · intro x
    rw [ha.endings, hrows]
    exact h.once x
  · intro k hk hst
    rcases hd k hk with hk' | hk'
    · obtain ⟨⟨x, hp⟩, hdiff⟩ := h.consulted k hk' hst
      refine ⟨⟨x, hp.mono ha.grown⟩, fun j c' p q hh heq => ?_⟩
      rcases hb.held _ _ _ _ hh with ⟨-, rfl, -⟩ | ⟨-, hh'⟩
      · exact hfree x (heq ▸ hp)
      · exact hdiff j c' p q hh' heq
    · simp [hk'] at hst

end Ordered

/-- What consulting for an accepted order caches. -/
lemma cached_accepted {c : PlaceCall} {d d' d'' : Desk}
    (hd : d.Consulted cfg (c.checkCall cfg .accepted) d') (hdec : d''.decisions = d'.decisions)
    (k : CacheKey) (hk : d''.decisions.get k ≠ none) :
    d.decisions.get k ≠ none ∨ k.stage = .accepted := by
  rw [hdec] at hk
  exact (hd.cached k hk).imp_right And.left

lemma cached_confirming {c : PlaceCall} {d d' d'' : Desk}
    (hd : d.Consulted cfg (c.checkCall cfg .confirming) d') (hdec : d''.decisions = d'.decisions)
    (k : CacheKey) (hk : d''.decisions.get k ≠ none) :
    d.decisions.get k ≠ none ∨ (k.stage = .confirming ∧ k.orderHash = orderHashFor c.request) := by
  rw [hdec] at hk
  exact hd.cached k hk

/-! ### What each move adds -/

section Adds

variable (h : s.Ordered) {i : ℕ} {c : PlaceCall} {p : Placed} {q : Quoted} {d : Desk}

lemma adds_beside {F : Row → Prop} (hb : s.world.Beside F s'.world) :
    s.store.Adds s'.store s.world.desk.nextId s'.world.desk.nextId [] :=
  .of_aside hb.desk.store hb.desk.ids

lemma adds_edited {intact : Bool} (hs : s'.world = s.world.withDesk { s.world.desk with
    store := { s.store with intact := intact } }) :
    s.store.Adds s'.store s.world.desk.nextId s'.world.desk.nextId [] := by
  have hid : s'.world.desk.nextId = s.world.desk.nextId := by rw [hs]; rfl
  have hread : s'.store.read = s.store.read := by unfold store; rw [hs]; rfl
  refine ⟨fun hi => ?_, fun f _ => ?_, ?_, by simp⟩
  · rw [hid]
    unfold store at *
    rw [hs]
    exact ⟨hi.keys, hi.named, hi.drawn, hi.sides, hi.owners, hi.unique⟩
  · simp [hread]
  · rw [hread]

lemma adds_consulted {call : CheckCall} (hd : s.world.desk.Consulted cfg call s'.world.desk) :
    s.store.Adds s'.store s.world.desk.nextId s'.world.desk.nextId [] :=
  .of_aside (hd.store.mono fun _ _ => EngineRow.alone) hd.ids

lemma adds_forced {f : ForceClose} {v : PositionView}
    (hf : s.store.Fresh (forceCloseRows f v (s.world.desk.nextId + 1) s.world.desk.nextId
      s.world.desk.now))
    (hd : s'.world.desk = { s.world.desk with
      nextId := s.world.desk.nextId + 2
      store := s.store.commit (forceCloseRows f v (s.world.desk.nextId + 1)
        s.world.desk.nextId s.world.desk.now) }) :
    s.store.Adds s'.store s.world.desk.nextId s'.world.desk.nextId
      (forceCloseRows f v (s.world.desk.nextId + 1) s.world.desk.nextId s.world.desk.now) := by
  have hid : s'.world.desk.nextId = s.world.desk.nextId + 2 := by rw [hd]
  have hst : s'.store = s.store.commit (forceCloseRows f v (s.world.desk.nextId + 1)
      s.world.desk.nextId s.world.desk.now) := by
    unfold store
    rw [hd]
    rfl
  rw [hid, hst]
  exact .commit hf (by omega) fun _ => (forceCloseRows_fill _ _ _ _ _).rowsOk (by omega)

lemma adds_refused {reason : Reason} {detail : Detail}
    (hd : s.world.desk.Consulted cfg (c.checkCall cfg .accepted) d)
    (ht : Takes d.store (acceptedRefusal cfg c reason detail d.now))
    (hq : Desk.Quietly { d with
      store := d.store.commit [acceptedRefusal cfg c reason detail d.now] } s'.world.desk) :
    s.store.Adds s'.store s.world.desk.nextId s'.world.desk.nextId
      [acceptedRefusal cfg c reason detail d.now] :=
  Adds.between hd hq rfl le_rfl (fresh_singleton.mpr ht.2) fun _ _ =>
    acceptedRefusal_rowsOk reason detail _

include h

lemma adds_placed {dec : RiskDecision}
    (hwr : Written cfg c s.world.desk.nextId (s.world.withDesk (drawnDesk s.world.desk)) dec d)
    (hs : s'.world.desk = { d with
      store := d.store.commit (placedRows cfg c dec s.world.desk.nextId d.now) }) :
    s.store.Adds s'.store s.world.desk.nextId s'.world.desk.nextId
      (placedRows cfg c dec s.world.desk.nextId d.now) := by
  obtain ⟨hd, hids⟩ := written_consulted hwr
  refine Adds.between hd (.refl s'.world.desk) (by rw [hs]) (by rw [hs]) hwr.fresh fun _ _ => ?_
  rw [hs]
  refine placedRows_rowsOk dec _ (by show s.world.desk.nextId < d.nextId; omega) fun e he => ?_
  -- a row that names the order was there before its id was drawn
  exact (h.inOrder.aside (hd.store.mono fun _ _ => EngineRow.alone)).order_ne le_rfl he

lemma adds_rejected {reason : Reason} {detail : Detail} {fig : RejectFigures}
    (hi : s.Holds i c p q) (hd : s.world.desk.Consulted cfg (c.checkCall cfg .confirming) d)
    (hid : fig.orderId = some p.orderId)
    (ht : Takes d.store (confirmingRefusal cfg c reason detail fig d.now))
    (hq : Desk.Quietly { d with
      store := d.store.commit [confirmingRefusal cfg c reason detail fig d.now] } s'.world.desk) :
    s.store.Adds s'.store s.world.desk.nextId s'.world.desk.nextId
      [confirmingRefusal cfg c reason detail fig d.now] :=
  Adds.between hd hq rfl le_rfl (fresh_singleton.mpr ht.2) fun _ hpre =>
    confirmingRefusal_rowsOk reason detail _ hid ((h.placed i c p q hi).mono hpre)
      ((h.drawn hi).trans_le hd.ids)

lemma adds_filled {rows : List Row} (hi : s.Holds i c p q)
    (hd : s.world.desk.Consulted cfg (c.checkCall cfg .confirming) d)
    (hf : d.store.Fresh rows) (hfill : FillBatch p.orderId rows)
    (hq : Desk.Quietly { d with nextId := d.nextId + 1, store := d.store.commit rows }
      s'.world.desk) :
    s.store.Adds s'.store s.world.desk.nextId s'.world.desk.nextId rows := by
  have hid : p.orderId < d.nextId + 1 := by
    have := h.drawn hi
    have := hd.ids
    omega
  exact Adds.between hd hq rfl (Nat.le_succ _) hf fun _ _ => hfill.rowsOk hid

end Adds

lemma placedRows_ends (cfg : DeskConfig) (c : PlaceCall) (dec : RiskDecision) (o : ℕ) (ts : ℤ)
    (x : ℕ) : (placedRows cfg c dec o ts).countP (fun r => r.payload.ends x) = 0 := by
  rw [List.countP_eq_zero]
  intro r hr
  rcases mem_placedRows hr with rfl | ⟨a, id, rfl⟩ <;>
    simp [orderPlacedRow, consumeRow, Payload.ends]

/-- The ledger after a fill of a held order. -/
lemma Ordered.filled (h : s.Ordered) {i : ℕ} {c : PlaceCall} {p : Placed} {q : Quoted}
    (hi : s.Holds i c p q) {d : Desk} {rows : List Row}
    (hd : s.world.desk.Consulted cfg (c.checkCall cfg .confirming) d)
    (hf : d.store.Fresh rows) (hfill : FillBatch p.orderId rows)
    (hq : Desk.Quietly { d with nextId := d.nextId + 1, store := d.store.commit rows }
      s'.world.desk)
    (hm : s.world.mem.Leaves i (some p.orderId) s'.world.mem)
    (hw : s'.waiting = Function.update s.waiting i none) : s'.Ordered := by
  refine h.leaving hi (adds_filled h hi hd hf hfill hq) ?_ hm hw (cached_confirming hd hq.decisions)
  intro o
  rw [hfill.ends]

/-- The ledger after a call's order is placed. -/
lemma Ordered.sleeping (h : s.Ordered) {i : ℕ} {c : PlaceCall} {p : Placed} {q : Quoted} {size : ℤ}
    {dec : RiskDecision} {d : Desk} (hi : s.waiting i = some (c, .curve0 size))
    (hp : p.orderId = s.world.desk.nextId)
    (hwr : Written cfg c s.world.desk.nextId (s.world.withDesk (drawnDesk s.world.desk)) dec d)
    (hs : s'.world =
      { desk := { d with
          store := d.store.commit (placedRows cfg c dec s.world.desk.nextId d.now) }
        mem := sleepMemory i s.world.desk.nextId s.world.mem })
    (hw : s'.waiting = Function.update s.waiting i (some (c, .sleep p q))) : s'.Ordered := by
  obtain ⟨hd, -⟩ := written_consulted hwr
  have ha := adds_placed h hwr (by rw [hs])
  have hfree : ∀ x, ¬ s.store.PlacedUnder c.key x := by
    -- the key of the order was free until now
    intro x hx
    obtain ⟨e, he, hek, -⟩ := hx.mono (hd.store.mono fun _ _ => EngineRow.alone).read_extends
    exact byKey_eq_none_iff.mp (hwr.fresh.2 _ (orderPlacedRow_mem dec _ d.now)) e he hek
  have hplaced : s'.store.PlacedUnder c.key s.world.desk.nextId := by
    obtain ⟨e, he, hrow⟩ := ha.has _ (orderPlacedRow_mem dec _ d.now)
    refine ⟨e, he, ?_, ?_⟩
    · rw [show e.key = e.toRow.key from rfl, hrow]
      rfl
    · rw [show e.payload = e.toRow.payload from rfl, hrow]
      exact ⟨_, rfl, rfl⟩
  have hb : Begins s s' i c s.world.desk.nextId := hp ▸ begins_sleep (.inr ⟨size, hi⟩) hw
  exact h.starting hb le_rfl hfree ha (placedRows_ends cfg c dec _ d.now) hplaced
    (by rw [hs]; rfl) (by rw [hs]; rfl) (cached_accepted hd (by rw [hs]))

/-- The ledger after a position is closed by force. -/
lemma Ordered.forced (h : s.Ordered) {f : ForceClose} {v : PositionView}
    (hw : s'.waiting = s.waiting) (hm : s.world.mem.SameOrders s'.world.mem)
    (hf : s.store.Fresh (forceCloseRows f v (s.world.desk.nextId + 1) s.world.desk.nextId
      s.world.desk.now))
    (hd : s'.world.desk = { s.world.desk with
      nextId := s.world.desk.nextId + 2
      store := s.store.commit (forceCloseRows f v (s.world.desk.nextId + 1)
        s.world.desk.nextId s.world.desk.now) }) : s'.Ordered := by
  have ha := adds_forced hf hd
  have hfill := forceCloseRows_fill f v (s.world.desk.nextId + 1) s.world.desk.nextId
    s.world.desk.now
  refine h.same ha ?_ ?_ ?_ hm.inflight hm.owned ?_
  · intro i c p q hi
    have := h.drawn hi
    rw [hfill.ends, if_neg (by omega)]
  · intro o
    rw [ha.endings, hfill.ends]
    split_ifs with ho
    · rw [ho, h.endings_new (Nat.le_succ _)]
    · exact h.once o
  · intro i c p q
    unfold Holds
    rw [hw]
  · intro k hk
    rw [hd] at hk
    exact .inl hk

/-- **One step** keeps the orders of the system. -/
theorem Move.ordered {a : Action} (h : s.Ordered) (m : Move cfg s a s') : s'.Ordered := by
  cases m with
  | beside hw hb =>
    have ha := adds_beside hb
    refine h.same ha (by simp) ?_ ?_ hb.mem.inflight hb.mem.owned ?_
    · intro o
      rw [ha.endings]
      simpa using h.once o
    · intro i c p q
      unfold Holds
      rw [hw]
    · intro k hk
      rw [hb.desk.decisions] at hk
      exact .inl hk
  | edited intact hw hs =>
    have ha := adds_edited hs
    have hmem : s'.world.mem = s.world.mem := by rw [hs]; rfl
    have hdec : s'.world.desk.decisions = s.world.desk.decisions := by rw [hs]; rfl
    refine h.same ha (by simp) ?_ ?_ (by rw [hmem]) (by rw [hmem]) ?_
    · intro o
      rw [ha.endings]
      simpa using h.once o
    · intro i c p q
      unfold Holds
      rw [hw]
    · intro k hk
      rw [hdec] at hk
      exact .inl hk
  | forced f v hw hm hv hf hd => exact h.forced hw hm hf hd
  | cancelled o ho =>
    refine h.same .nothing (by simp) h.once (fun _ _ _ _ => Iff.rfl) rfl rfl
      fun k hk => .inl hk
  | asked c dec hn hc hp hm hw =>
    have hcons := check_consulted cfg (c.checkCall cfg .accepted) s.world.desk
    rw [hc] at hcons
    have ha := adds_consulted hcons
    refine h.same ha (by simp) ?_ ?_ hm.inflight hm.owned (cached_accepted hcons rfl)
    · intro o
      rw [ha.endings]
      simpa using h.once o
    · intro j c' p q
      rw [holds_iff hw]
      constructor
      · rintro (⟨-, ho⟩ | ⟨-, hh⟩)
        · simp at ho
        · exact hh
      · intro hh
        refine .inr ⟨?_, hh⟩
        rintro rfl
        exact not_holds (c := c) (.inl (waiting_ge le_rfl)) hh
  | ended i c hi hd hm hw =>
    exact h.never hi (adds_consulted hd) (by simp) hm hw (cached_accepted hd rfl)
  | refused i c reason detail hi hd ht hq hm hw =>
    refine h.never hi (adds_refused hd ht hq) ?_ hm hw (cached_accepted hd hq.decisions)
    intro o
    simp [acceptedRefusal, rejectRow, Payload.ends]
  | placed i c size dec seen quoted latency drop hi hq hwr hs hw =>
    exact h.sleeping hi rfl hwr hs hw
  | woke i c p q hi hc hs hw =>
    have hst : s'.store = s.store := by unfold store; rw [hs]
    have ha : s.store.Adds s'.store s.world.desk.nextId s'.world.desk.nextId [] := by
      rw [hst, hs]
      exact .nothing
    refine h.same ha (by simp) ?_ (holds_woke hi hw) (by rw [hs]) (by rw [hs]) ?_
    · rw [hst]
      exact h.once
    · rw [hs]
      exact fun k hk => .inl hk
  | rejected i c p q reason detail fig hi hd hid hfee ht hq hm hw =>
    refine h.leaving hi (adds_rejected h hi hd hid ht hq) ?_ hm hw
      (cached_confirming hd hq.decisions)
    intro o
    simp [confirmingRefusal, rejectRow, hid, Payload.ends, eq_comm]
  | dropped i c p q hi hd hm hw why =>
    exact h.leaving hi (adds_consulted hd) (by simp) hm hw (cached_confirming hd rfl)
  | @bought _ i c p quote curve1 curve dec q out1 d hi hcurve hdec hp hin hne hf hq hm hw =>
    exact h.filled (.inr hi) (confirmed_consulted hdec) hf
      (boughtRows_fill p q curve out1 d) hq hm hw
  | @sold _ i c p plan curve1 curve dec v gross1 d hi hcurve hdec hv hheld hp hin hf hq hm hw =>
    exact h.filled (.inr hi) (confirmed_consulted hdec) hf
      (soldRows_fill p plan curve v gross1 d) hq hm hw

/-- **Every run** keeps the orders of the system. -/
theorem ordered_after (cfg : DeskConfig) (now e₀ : ℤ) (killswitch : KillSwitch)
    (as : List Action) : (Runs.after (step cfg) (start now e₀ killswitch) as).Ordered :=
  Runs.invariant (I := Ordered) (fun s a h => (step_move cfg s a).ordered h)
    (ordered_start now e₀ killswitch) as

end Sys

end PumpGrok
