import PumpGrok.Execution.Marks
import PumpGrok.Risk.EngineRows

/-!
The rows of orders on the ledger: which keys go with which payloads, whose order a row is, and
what a batch must meet for the ledger to stay in order.
-/

namespace PumpGrok

/-- Keys under which a row of some order is written. -/
def Key.ofOrder : Key → Bool
  | .execPlace .. | .reject .. | .fill _ | .position _ | .close _ | .consume _ | .forceClose .. =>
    true
  | _ => false

def Payload.ofOrder : Payload → Bool
  | .orderPlaced _ | .orderRejected _ | .fillRecorded _ | .positionOpened _ | .positionClosed _ =>
    true
  | _ => false

/-- What the batches of an order are made of. -/
def Payload.isOrders : Payload → Bool
  | .orderPlaced _ | .orderRejected _ | .fillRecorded _ | .positionOpened _ | .positionClosed _
  | .approvalRecorded _ | .escalation _ => true
  | _ => false

/-- The order a payload names. -/
def Payload.order : Payload → Option ℕ
  | .orderPlaced p => some p.orderId
  | .fillRecorded p => some p.orderId
  | .orderRejected p => match p.orderId with
    | .placed o => some o
    | .unplaced _ => none
  | _ => none

/-- The payload is the outcome of an order. -/
def Payload.ends (o : ℕ) : Payload → Bool
  | .fillRecorded p => p.orderId = o
  | .orderRejected p => p.orderId = .placed o
  | _ => false

lemma outcomeOf_isSome (o : ℕ) (e : Event) : (outcomeOf o e).isSome = e.payload.ends o := by
  unfold outcomeOf Payload.ends
  cases e.payload with
  | fillRecorded p => by_cases h : p.orderId = o <;> simp [h]
  | orderRejected p => by_cases h : p.orderId = .placed o <;> simp [h]
  | _ => rfl

lemma Payload.ends_aside {o : ℕ} {p : Payload} (h : p.ofOrder = false) : p.ends o = false := by
  cases p <;> simp_all [ends, ofOrder]

lemma Payload.order_of_ends {o : ℕ} {p : Payload} (h : p.ends o = true) : p.order = some o := by
  cases p <;> simp_all [ends, order]

/-- The payload that goes with a key. -/
def Row.Named (row : Row) : Prop :=
  match row.key with
  | .execPlace t s d => ∃ p, row.payload = .orderPlaced p ∧ p.ticketId = t ∧ p.side = s ∧
      p.decisionId = d
  | .fill o => ∃ p, row.payload = .fillRecorded p ∧ p.orderId = o
  | .reject _ _ d .accepted _ => ∃ p, row.payload = .orderRejected p ∧ p.orderId = .unplaced d
  | .reject _ _ _ .confirming _ => ∃ p o, row.payload = .orderRejected p ∧ p.orderId = .placed o
  | .position _ => ∃ p, row.payload = .positionOpened p
  | .close _ | .forceClose .. => ∃ p, row.payload = .positionClosed p
  | .consume _ => ∃ p, row.payload = .approvalRecorded p
  | _ => row.payload.ofOrder = false

/-- A row that is part of no order. -/
structure Row.Aside (row : Row) : Prop where
  key : row.key.ofOrder = false
  payload : row.payload.ofOrder = false

lemma Row.Aside.named {row : Row} (h : row.Aside) : row.Named := by
  have hk := h.key
  unfold Row.Named
  split <;> first | exact h.payload | (rename_i he; simp [he, Key.ofOrder] at hk)

lemma Row.Aside.order {row : Row} (h : row.Aside) : row.payload.order = none := by
  have hp := h.payload
  cases hr : row.payload <;> simp_all [Payload.ofOrder, Payload.order]

/-- One row that is part of no order: the desk's own, or another writer's. -/
inductive AsideBatch (F : Row → Prop) (st : LedgerStore) : List Row → Prop
  | mk (row : Row) (ha : row.Aside) (hn : row.numbered st = true)
      (hh : row.haltOk st = true ∨ F row) : AsideBatch F st [row]

variable {F : Row → Prop}

lemma EngineRow.aside {st : LedgerStore} {rows : List Row} (h : EngineRow st rows) :
    AsideBatch F st rows := by
  obtain ⟨row, hp, hk, hn, hh⟩ := h
  refine .mk row ⟨?_, ?_⟩ hn (.inl hh)
  · cases hr : row.key <;> simp_all [Key.isTrade, Key.ofOrder]
  · cases hr : row.payload <;> simp_all [Payload.isEngine, Payload.ofOrder]

/-- No other writer's. -/
lemma EngineRow.alone {st : LedgerStore} {rows : List Row} (h : EngineRow st rows) :
    AsideBatch (fun _ => False) st rows := h.aside

instance : IsPreorder LedgerStore (LedgerStore.Grows (AsideBatch F)) where
  refl _ := .refl
  trans _ _ _ := LedgerStore.Grows.trans

/-! ### The ledger in order -/

namespace LedgerStore

/-- An order is on the ledger under a key. -/
def PlacedUnder (st : LedgerStore) (k : Key) (o : ℕ) : Prop :=
  ∃ e ∈ st.read, e.key = k ∧ ∃ p, e.payload = .orderPlaced p ∧ p.orderId = o

/-- How many outcomes an order has. -/
def endings (st : LedgerStore) (o : ℕ) : ℕ := st.read.countP fun e => e.payload.ends o

variable {st st' : LedgerStore} {rows : List Row}

lemma PlacedUnder.mono {k : Key} {o : ℕ} (h : st.PlacedUnder k o) (hp : st.read <+: st'.read) :
    st'.PlacedUnder k o := by
  obtain ⟨e, he, hk⟩ := h
  exact ⟨e, hp.subset he, hk⟩

lemma mem_read_commit {e : Event} (h : e ∈ (st.commit rows).read) :
    e ∈ st.read ∨ e.toRow ∈ rows := by
  rw [read_commit, List.mem_append] at h
  rcases h with h | h
  · exact .inl h
  · refine .inr ?_
    rw [← stamp_toRow (st.count + 1) rows]
    exact List.mem_map_of_mem h

lemma read_extends_commit (st : LedgerStore) (rows : List Row) :
    st.read <+: (st.commit rows).read := by
  rw [read_commit]
  exact List.prefix_append _ _

lemma exists_stamped {row : Row} (h : row ∈ rows) :
    ∃ e ∈ (st.commit rows).read, e.toRow = row := by
  rw [← stamp_toRow (st.count + 1) rows] at h
  obtain ⟨e, he, rfl⟩ := List.mem_map.mp h
  exact ⟨e, by rw [read_commit]; exact List.mem_append_right _ he, rfl⟩

lemma countP_commit (f : Payload → Bool) :
    (st.commit rows).read.countP (fun e => f e.payload) =
      st.read.countP (fun e => f e.payload) + rows.countP fun r => f r.payload := by
  have hmap : rows.countP (fun r => f r.payload) =
      (stamp (st.count + 1) rows).countP fun e => f e.payload := by
    conv_lhs => rw [← stamp_toRow (st.count + 1) rows]
    rw [List.countP_map]
    rfl
  rw [read_commit, List.countP_append, hmap]

/-- The rows of a batch keep the ledger in order. -/
structure RowsOk (st : LedgerStore) (next : ℕ) (rows : List Row) : Prop where
  named : ∀ r ∈ rows, r.Named
  drawn : ∀ r ∈ rows, ∀ o ∈ r.payload.order, o < next
  sides : ∀ r ∈ rows, ∀ o, r.key = .position o ∨ r.key = .close o → ∃ r' ∈ rows, r'.key = .fill o
  owners : ∀ r ∈ rows, ∀ t s d x p o, r.key = .reject t s d .confirming x →
    r.payload = .orderRejected p → p.orderId = .placed o → st.PlacedUnder (.execPlace t s d) o
  fresh : ∀ r ∈ rows, ∀ p, r.payload = .orderPlaced p →
    (∀ e ∈ st.read, e.payload.order ≠ some p.orderId) ∧
      ∀ r' ∈ rows, ∀ p', r'.payload = .orderPlaced p' → r'.key = r.key

/-- Keys are unique and go with their payloads, every order named is drawn and placed once, and
every row of an order follows what it is about. -/
structure InOrder (st : LedgerStore) (next : ℕ) : Prop where
  keys : (st.read.map (·.key)).Nodup
  named : ∀ e ∈ st.read, e.toRow.Named
  drawn : ∀ e ∈ st.read, ∀ o ∈ e.payload.order, o < next
  sides : ∀ e ∈ st.read, ∀ o, e.key = .position o ∨ e.key = .close o →
    ∃ e' ∈ st.read, e'.key = .fill o
  owners : ∀ e ∈ st.read, ∀ t s d x p o, e.key = .reject t s d .confirming x →
    e.payload = .orderRejected p → p.orderId = .placed o → st.PlacedUnder (.execPlace t s d) o
  unique : ∀ k k' o, st.PlacedUnder k o → st.PlacedUnder k' o → k = k'

lemma stamp_keys (n : ℕ) (rows : List Row) :
    (stamp n rows).map (·.key) = rows.map Row.key := by
  rw [← stamp_toRow n rows, List.map_map, stamp_toRow]
  rfl

/-- Fresh rows leave every key of a ledger its own. -/
lemma nodup_keys_commit (h : (st.read.map (·.key)).Nodup) (hf : st.Fresh rows) :
    ((st.commit rows).read.map (·.key)).Nodup := by
  rw [read_commit, List.map_append, List.nodup_append', stamp_keys]
  refine ⟨h, hf.1, fun k hk hk' => ?_⟩
  obtain ⟨e, he, rfl⟩ := List.mem_map.mp hk
  obtain ⟨r, hr, hke⟩ := List.mem_map.mp hk'
  exact byKey_eq_none_iff.mp (hf.2 r hr) e he hke.symm

namespace InOrder

variable {next next' : ℕ}

lemma grow (h : st.InOrder next) (hn : next ≤ next') : st.InOrder next' :=
  { h with drawn := fun e he o ho => (h.drawn e he o ho).trans_le hn }

lemma commit (h : st.InOrder next) (hf : st.Fresh rows) (hr : st.RowsOk next rows) :
    (st.commit rows).InOrder next where
  keys := nodup_keys_commit h.keys hf
  named e he := (mem_read_commit he).elim (h.named e) fun h' => hr.named _ h'
  drawn e he := (mem_read_commit he).elim (h.drawn e) fun h' => hr.drawn _ h'
  sides e he o hk := by
    rcases mem_read_commit he with h' | h'
    · obtain ⟨e', he', hk'⟩ := h.sides e h' o hk
      exact ⟨e', (read_extends_commit st rows).subset he', hk'⟩
    · obtain ⟨r', hr', hk'⟩ := hr.sides _ h' o hk
      obtain ⟨e', he', rfl⟩ := @exists_stamped st _ _ hr'
      exact ⟨e', he', hk'⟩
  owners e he t s d x p o hk hp ho := by
    refine PlacedUnder.mono ?_ (read_extends_commit st rows)
    rcases mem_read_commit he with h' | h'
    · exact h.owners e h' t s d x p o hk hp ho
    · exact hr.owners _ h' t s d x p o hk hp ho
  unique := by
    rintro k k' o ⟨e, he, rfl, p, hp, rfl⟩ ⟨e', he', rfl, p', hp', ho⟩
    -- an order placed by the batch is on no earlier row
    rcases mem_read_commit he with h₁ | h₁ <;> rcases mem_read_commit he' with h₂ | h₂
    · exact h.unique _ _ p.orderId ⟨e, h₁, rfl, p, hp, rfl⟩ ⟨e', h₂, rfl, p', hp', ho⟩
    · refine absurd ?_ ((hr.fresh _ h₂ p' hp').1 e h₁)
      simp [hp, Payload.order, ho]
    · refine absurd ?_ ((hr.fresh _ h₁ p hp).1 e' h₂)
      simp [hp', Payload.order, ho]
    · exact ((hr.fresh _ h₁ p hp).2 _ h₂ p' hp').symm

lemma empty (e : Option ℤ) : ({ initialEquity := e } : LedgerStore).InOrder next := by
  constructor <;> simp [read, PlacedUnder]

/-- A placed row stands under the key of its order. -/
lemma key_of_placed (h : st.InOrder next) {e : Event} (he : e ∈ st.read) {p : OrderPlaced}
    (hp : e.payload = .orderPlaced p) : e.key = .execPlace p.ticketId p.side p.decisionId := by
  have := h.named e he
  unfold Row.Named at this
  split at this <;> simp_all [Payload.ofOrder]

lemma fill_of_key (h : st.InOrder next) {e : Event} (he : e ∈ st.read) {o : ℕ}
    (hk : e.key = .fill o) : ∃ p, e.payload = .fillRecorded p ∧ p.orderId = o := by
  have := h.named e he
  unfold Row.Named at this
  rwa [hk] at this

/-- Two rows of one key are one row. -/
lemma eq_of_key (h : st.InOrder next) {e e' : Event} (he : e ∈ st.read) (he' : e' ∈ st.read)
    (hk : e.key = e'.key) : e = e' :=
  List.inj_on_of_nodup_map h.keys he he' hk

/-- One key places one order. -/
lemma placedUnder_inj (h : st.InOrder next) {k : Key} {o o' : ℕ} (h₁ : st.PlacedUnder k o)
    (h₂ : st.PlacedUnder k o') : o = o' := by
  obtain ⟨e, he, hk, p, hp, rfl⟩ := h₁
  obtain ⟨e', he', hk', p', hp', rfl⟩ := h₂
  obtain rfl := h.eq_of_key he he' (hk.trans hk'.symm)
  rw [hp] at hp'
  cases hp'
  rfl

/-- An order that has no outcome yet leaves the keys of its outcomes free. -/
lemma keys_free (h : st.InOrder next) {t : TicketId} {s : Side} {d o : ℕ}
    (hp : st.PlacedUnder (.execPlace t s d) o) (ho : st.endings o = 0) :
    (∀ x, st.byKey (.reject t s d .confirming x) = none) ∧ st.byKey (.fill o) = none ∧
      st.byKey (.position o) = none ∧ st.byKey (.close o) = none := by
  have hnone : ∀ e ∈ st.read, e.payload.ends o = false := by
    simpa [endings, List.countP_eq_zero] using ho
  have hfill : ∀ e ∈ st.read, e.key ≠ .fill o := by
    intro e he hk
    obtain ⟨p, hpay, hid⟩ := h.fill_of_key he hk
    have := hnone e he
    simp [hpay, Payload.ends, hid] at this
  refine ⟨fun x => ?_, byKey_eq_none_iff.mpr hfill, ?_, ?_⟩
  · refine byKey_eq_none_iff.mpr fun e he hk => ?_
    have hn := h.named e he
    unfold Row.Named at hn
    rw [hk] at hn
    obtain ⟨p, o', hpay, hid⟩ := hn
    have hown := h.owners e he t s d x p o' hk hpay hid
    obtain rfl := h.placedUnder_inj hp hown
    have := hnone e he
    simp [hpay, Payload.ends, hid] at this
  · refine byKey_eq_none_iff.mpr fun e he hk => ?_
    obtain ⟨e', he', hk'⟩ := h.sides e he o (.inl hk)
    exact hfill e' he' hk'
  · refine byKey_eq_none_iff.mpr fun e he hk => ?_
    obtain ⟨e', he', hk'⟩ := h.sides e he o (.inr hk)
    exact hfill e' he' hk'

/-- An id not drawn yet is on no row. -/
lemma order_ne (h : st.InOrder next) {o : ℕ} (ho : next ≤ o) {e : Event} (he : e ∈ st.read) :
    e.payload.order ≠ some o := fun hs => absurd (h.drawn e he o hs) (not_lt.mpr ho)

end InOrder

/-! ### The batches of the adapter -/

section Batches

variable {next : ℕ}

lemma AsideBatch.rowsOk (h : AsideBatch F st rows) : st.RowsOk next rows := by
  obtain ⟨row, ha, -⟩ := h
  have hk := ha.key
  have hp := ha.payload
  constructor
  · simpa using ha.named
  · simp [ha.order]
  · rintro r hr o hko
    rw [List.mem_singleton.mp hr] at hko
    rcases hko with hko | hko <;> simp [hko, Key.ofOrder] at hk
  · rintro r hr t s d x p o hko
    rw [List.mem_singleton.mp hr] at hko
    simp [hko, Key.ofOrder] at hk
  · rintro r hr p hpay
    rw [List.mem_singleton.mp hr] at hpay
    simp [hpay, Payload.ofOrder] at hp

lemma InOrder.aside (h : st.InOrder next) (hg : st.Grows (AsideBatch F) st') : st'.InOrder next :=
  hg.invariant (I := fun st => st.InOrder next)
    (fun _ _ h => ⟨h.keys, h.named, h.drawn, h.sides, h.owners, h.unique⟩)
    (fun _ _ h hf ha => h.commit hf (AsideBatch.rowsOk ha)) h

/-- Rows of no order leave every count of rows of orders as it was. -/
lemma countP_aside {f : Payload → Bool} (hf : ∀ p, p.ofOrder = false → f p = false)
    (hg : st.Grows (AsideBatch F) st') :
    st'.read.countP (fun e => f e.payload) = st.read.countP fun e => f e.payload := by
  refine hg.invariant (I := fun x => x.read.countP (fun e => f e.payload) =
    st.read.countP fun e => f e.payload) (fun _ _ h => h) ?_ rfl
  rintro x rows h - ⟨row, ha, -⟩
  rw [countP_commit, h]
  simp [hf _ ha.payload]

end Batches

end LedgerStore

end PumpGrok
