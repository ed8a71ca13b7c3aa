import PumpGrok.Desk.StepBatches
import PumpGrok.Lib.Behind
import PumpGrok.Risk.Authorised

/-!
A decision is sent once, and an approval is spent once. The batch of an order consumes its
approval in the row before its own, so that two orders under one approval would be one row.
-/

namespace PumpGrok

/-- The row of an order states the order. -/
structure OrderPlaced.States (p : OrderPlaced) (r : OrderRequest) : Prop where
  ticketId : p.ticketId = r.ticketId
  decisionId : p.decisionId = r.decisionId
  side : p.side = r.side
  mint : p.mint = r.mint
  slippage : p.slippageBps = r.maxSlippageBps
  size : p.sizeLamports = if r.side = .buy then r.sizeLamports.getD 0 else 0
  units : p.tokenUnits = if r.side = .sell then r.tokenUnits.getD 0 else 0

/-- The order spends an approval of a human: the row before its own consumes it, and up to then the
approval was on the ledger, valid and unconsumed, and bound the order. -/
def Spends (front : List Event) (p : OrderPlaced) : Prop :=
  ∃ pre x a r, front = pre ++ [x] ∧ x.key = .consume (some a.id) ∧ p.approvalId = some a.id ∧
    p.approvalKind = some a.kind ∧ approvals pre a.id = some a ∧ a.matches r = true ∧ p.States r

def OrderPlaced.isHuman (p : OrderPlaced) : Bool := p.approvalKind.any ApprovalRecord.isHumanKind

/-- Every order of a human's approval spends it. -/
def LedgerStore.Signed (st : LedgerStore) : Prop :=
  EachBehind (fun front e => ∀ p, e.payload = .orderPlaced p → p.isHuman = true → Spends front p)
    st.read

section Batches

variable {cfg : DeskConfig} {s : Sys} {st : LedgerStore} {rows : List Row}

/-- The orders of a step are those of its placed batch. -/
lemma StepBatch.orders (h : StepBatch cfg s st rows) :
    (∀ r ∈ rows, ∀ p, r.payload ≠ .orderPlaced p) ∨ ∃ c dec d order, d.store = st ∧
      check cfg (c.checkCall cfg .accepted) (drawnDesk s.world.desk) = (.ok dec, d) ∧
      dec.passed = true ∧ rows = placedRows cfg c dec order d.now := by
  have hone : ∀ {r : Row}, (∀ p, r.payload ≠ .orderPlaced p) →
      ∀ x ∈ [r], ∀ p, x.payload ≠ .orderPlaced p := fun hr x hx => by
    rwa [List.mem_singleton.mp hx]
  cases h with
  | aside h =>
    cases h with
    | mk row ha hn =>
      refine .inl (hone fun p hp => ?_)
      have hno := ha.payload
      simp [hp, Payload.ofOrder] at hno
  | forced f v order ref ts hst hv =>
    refine .inl fun r hr p hp => ?_
    simp only [forceCloseRows, List.mem_cons, List.not_mem_nil, or_false] at hr
    rcases hr with rfl | rfl | rfl <;> cases hp
  | refused c reason detail ts => exact .inl (hone fun p hp => by cases hp)
  | placed i c size dec d hst hi hc hp => exact .inr ⟨c, dec, d, _, hst, hc, hp, rfl⟩
  | rejected i c p q reason detail fig ts hi hid => exact .inl (hone fun p hp => by cases hp)
  | bought i c p quote q curve out1 dec d hst hi hside he hp =>
    refine .inl fun r hr p' hp' => ?_
    simp only [boughtRows, buyFillRows] at hr
    split_ifs at hr
    · rw [List.mem_singleton.mp hr] at hp'
      cases hp'
    · simp only [List.mem_cons, List.not_mem_nil, or_false] at hr
      rcases hr with rfl | rfl <;> cases hp'
  | sold i c p plan curve v gross1 dec d hst hi he hp hv =>
    refine .inl fun r hr p' hp' => ?_
    simp only [soldRows, sellRows] at hr
    split_ifs at hr
    · simp only [List.mem_cons, List.not_mem_nil, or_false] at hr
      rcases hr with rfl | rfl <;> cases hp'
    · rw [List.mem_singleton.mp hr] at hp'
      cases hp'

/-- The rows of a batch, by its payloads. -/
lemma orderPlaced_of_mem {c : PlaceCall} {dec : RiskDecision} {order : ℕ} {ts : ℤ} {n : ℕ}
    {e : Event} {p : OrderPlaced} (he : e ∈ LedgerStore.stamp n (placedRows cfg c dec order ts))
    (hp : e.payload = .orderPlaced p) : p.approvalKind = dec.approval.map (·.kind) := by
  have hrow : e.toRow ∈ placedRows cfg c dec order ts := by
    rw [← LedgerStore.stamp_toRow n (placedRows cfg c dec order ts)]
    exact List.mem_map_of_mem he
  have hpay : e.toRow.payload = .orderPlaced p := hp
  rcases LedgerStore.mem_placedRows hrow with hr | ⟨approval, id, hr⟩
  · rw [hr] at hpay
    exact (congrArg OrderPlaced.approvalKind (Payload.orderPlaced.inj hpay)).symm
  · rw [hr] at hpay
    cases hpay

/-- The batch of an order under a human's approval consumes it first. -/
lemma placedRows_human {c : PlaceCall} {dec : RiskDecision} {a : ApprovalRecord} {order : ℕ}
    {ts : ℤ}
    (ha : dec.approval = some a) (hid : dec.approvalId = some a.id) (hv : a.valid = true)
    (hk : ApprovalRecord.isHumanKind a.kind = true) :
    placedRows cfg c dec order ts = [consumeRow a (.consume (some a.id)) (c.ledgerSource cfg) ts,
      orderPlacedRow c dec order (c.ledgerSource cfg) ts] := by
  have hself : a.approvedBy ≠ .riskEngine := fun hself => by
    rw [human_signed hv hself] at hk
    cases hk
  have hcons : consumedApproval dec c.reason = some (a, a.id) := by
    simp [consumedApproval, ha, hid, hself]
  unfold placedRows orderRows
  rw [hcons]

/-- **A step's order** under a human's approval spends it. -/
theorem StepBatch.signed (hs : s.Books cfg) (h : StepBatch cfg s st rows) (hst : st.Signed) :
    (st.commit rows).Signed := by
  unfold LedgerStore.Signed
  rw [LedgerStore.read_commit]
  rcases h.orders with hno | ⟨c, dec, d, order, rfl, hc, hp, rfl⟩
  · refine hst.aside fun e he front p hpay => ?_
    have hrow : e.toRow ∈ rows := by
      rw [← LedgerStore.stamp_toRow (st.count + 1) rows]
      exact List.mem_map_of_mem he
    exact absurd hpay (hno _ hrow p)
  · obtain ⟨a, ha, hid, hauth⟩ := check_authorised
      (d := drawnDesk s.world.desk) (hs.cache.extend rfl (List.prefix_refl _) rfl)
      hs.legal.solid hc hp rfl
    by_cases hk : ApprovalRecord.isHumanKind a.kind = true
    · obtain ⟨hread, hm⟩ := hauth.resolve_left (by rw [hk]; simp)
      obtain ⟨hsame, hv, -⟩ := approvals_some hread
      rw [placedRows_human ha hid hv hk]
      have hfirst := hst.concat
        (x := { consumeRow a (.consume (some a.id)) (c.ledgerSource cfg) d.now
        with seq := d.store.count + 1 }) fun p hpay => by cases hpay
      have hboth := hfirst.concat (x := { orderPlacedRow c dec order (c.ledgerSource cfg) d.now
        with seq := d.store.count + 1 + 1 }) ?_
      · rw [List.append_assoc] at hboth
        exact hboth
      · intro p hpay _
        obtain rfl := Payload.orderPlaced.inj hpay
        refine ⟨_, _, a, c.request, rfl, rfl, hid, ?_, ?_, hm, ⟨rfl, rfl, rfl, rfl, rfl, rfl, rfl⟩⟩
        · exact congrArg (Option.map (·.kind)) ha
        · rw [hsame]
          exact hread
    · refine hst.aside fun e he front p hpay hhuman => ?_
      rw [OrderPlaced.isHuman, orderPlaced_of_mem he hpay, ha, Option.map_some, Option.any_some]
        at hhuman
      exact absurd hhuman hk

end Batches

/-! ### One order for a decision, one for an approval -/

/-- What a ledger says of the orders sent. -/
structure LedgerStore.SingleSend (st : LedgerStore) : Prop where
  once : ∀ e ∈ st.read, ∀ e' ∈ st.read, ∀ p p', e.payload = .orderPlaced p →
    e'.payload = .orderPlaced p' → p.ticketId = p'.ticketId → p.side = p'.side →
    p.decisionId = p'.decisionId → e = e'
  apart : ∀ e ∈ st.read, ∀ e' ∈ st.read, ∀ p p', e.payload = .orderPlaced p →
    e'.payload = .orderPlaced p' → p.orderId = p'.orderId → e = e'
  ended : ∀ o, st.endings o ≤ 1
  signed : st.Signed
  spent : ∀ e ∈ st.read, ∀ e' ∈ st.read, ∀ p p', e.payload = .orderPlaced p →
    e'.payload = .orderPlaced p' → p.isHuman = true → p'.isHuman = true →
    p.approvalId = p'.approvalId → e = e'

namespace LedgerStore

variable {st : LedgerStore} {next : ℕ}

lemma InOrder.nodup (h : st.InOrder next) : st.read.Nodup := h.keys.of_map

/-- Orders that consume one approval are one order. -/
lemma Signed.spent (h : st.Signed) (hs : st.InOrder next) {e e' : Event} (he : e ∈ st.read)
    (he' : e' ∈ st.read) {p p' : OrderPlaced} (hp : e.payload = .orderPlaced p)
    (hp' : e'.payload = .orderPlaced p') (hh : p.isHuman = true) (hh' : p'.isHuman = true)
    (hid : p.approvalId = p'.approvalId) : e = e' := by
  obtain ⟨front, hpre, hspends⟩ := EachBehind.of_mem h he
  obtain ⟨front', hpre', hspends'⟩ := EachBehind.of_mem h he'
  obtain ⟨pre, x, a, r, rfl, hx, ha, -⟩ := hspends p hp hh
  obtain ⟨pre', x', a', r', rfl, hx', ha', -⟩ := hspends' p' hp' hh'
  have hsame : a.id = a'.id := by
    rw [ha, ha'] at hid
    exact Option.some.inj hid
  have hmem : x ∈ st.read := hpre.subset (by simp)
  have hmem' : x' ∈ st.read := hpre'.subset (by simp)
  obtain rfl : x = x' := hs.eq_of_key hmem hmem' (by rw [hx, hx', hsame])
  exact eq_of_same_before hs.nodup hpre hpre'

end LedgerStore

namespace Sys

/-- **Single send.** In every run, however its calls overlap and whatever they repeat. -/
theorem single_send (cfg : DeskConfig) (now e₀ : ℤ) (killswitch : KillSwitch) (as : List Action) :
    (Runs.after (step cfg) (start now e₀ killswitch) as).store.SingleSend := by
  have hs := ordered_after cfg now e₀ killswitch as
  have hsigned := ledger_invariant (I := LedgerStore.Signed) cfg (fun _ _ h => h) (fun _ _ h => h)
    (fun s hs st rows h _ _ hb => hb.signed hs.books h) now e₀ killswitch (EachBehind.nil _) as
  refine ⟨?_, ?_, hs.once, hsigned, ?_⟩
  · intro e he e' he' p p' hp hp' ht hside hd
    refine hs.inOrder.eq_of_key he he' ?_
    rw [hs.inOrder.key_of_placed he hp, hs.inOrder.key_of_placed he' hp', ht, hside, hd]
  · intro e he e' he' p p' hp hp' ho
    exact hs.inOrder.eq_of_key he he'
      (hs.inOrder.unique _ _ p.orderId ⟨e, he, rfl, p, hp, rfl⟩ ⟨e', he', rfl, p', hp', ho.symm⟩)
  · intro e he e' he' p p' hp hp' hh hh' hid
    exact hsigned.spent hs.inOrder he he' hp hp' hh hh' hid

end Sys

end PumpGrok
